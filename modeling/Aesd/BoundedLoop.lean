/-
Loops with an early exit, and the do-while walk around a ring of slots.

A round of a loop body hands its state to the next round or leaves with a
result.  A walk around a ring starts at one slot, visits each slot once in
cyclic order and stops when it would come back to the start.  Nothing here
fixes what a slot holds.
-/

import Mathlib.Data.Nat.ModEq
import Mathlib.Tactic

set_option autoImplicit false

namespace Aesd.BoundedLoop

/-- What one round of a loop body decides. -/
inductive Round (State Result : Type) where
  | next (state : State)
  | leave (result : Result)
  deriving DecidableEq, Repr

variable {Error State Result : Type}

@[simp] theorem ok_bind {First Second : Type} (value : First)
    (onward : First → Except Error Second) : (Except.ok value >>= onward) = onward value := rfl

@[simp] theorem error_bind {First Second : Type} (error : Error)
    (onward : First → Except Error Second) :
    ((Except.error error : Except Error First) >>= onward) = .error error := rfl

theorem ok_of_bind {First Second : Type} {result : Except Error First}
    {onward : First → Except Error Second} {last : Second}
    (made : (result >>= onward) = .ok last) :
    ∃ value, result = .ok value ∧ onward value = .ok last := by
  cases result with
  | error error => cases made
  | ok value => exact ⟨value, rfl, made⟩

theorem ok_of_map {First Second : Type} {result : Except Error First} {view : First → Second}
    {shown : Second} (made : result.map view = .ok shown) :
    ∃ value, result = .ok value ∧ view value = shown := by
  cases result with
  | error error => cases made
  | ok value => exact ⟨value, rfl, Except.ok.inj made⟩

/-- Run the body until it leaves.  A loop that is not over after `rounds`
rounds reports `endless`; it never returns a made-up result. -/
def repeatRounds (endless : Error) (body : State → Except Error (Round State Result)) :
    Nat → State → Except Error Result
  | 0, _ => .error endless
  | rounds + 1, state =>
      match body state with
      | .error error => .error error
      | .ok (.leave result) => .ok result
      | .ok (.next following) => repeatRounds endless body rounds following

/-- A loop that ended does not depend on how many more rounds it had. -/
theorem repeatRounds_of_le {endless : Error}
    {body : State → Except Error (Round State Result)} {rounds more : Nat} {state : State}
    {result : Result} (ended : repeatRounds endless body rounds state = .ok result)
    (enough : rounds ≤ more) : repeatRounds endless body more state = .ok result := by
  induction rounds generalizing more state with
  | zero => cases ended
  | succ rounds ih =>
      cases more with
      | zero => exact absurd enough (Nat.not_succ_le_zero rounds)
      | succ more =>
          unfold repeatRounds at ended ⊢
          cases made : body state with
          | error error =>
              rw [made] at ended
              cases ended
          | ok round =>
              rw [made] at ended
              cases round with
              | leave result => exact ended
              | next following => exact ih ended (Nat.le_of_succ_le_succ enough)

/-- One round of `do { visit } while( index != start )` on `size` slots. -/
def ringRound (size start : Nat) (visit : State → Nat → Except Error (Round State Result))
    (finish : State → Result) : State × Nat → Except Error (Round (State × Nat) Result)
  | (state, index) =>
      match visit state index with
      | .error error => .error error
      | .ok (.leave result) => .ok (.leave result)
      | .ok (.next following) =>
          if (index + 1) % size ≠ start then .ok (.next (following, (index + 1) % size))
          else .ok (.leave (finish following))

/-- The same visits along a given list of slots. -/
def visitAll (visit : State → Nat → Except Error (Round State Result))
    (finish : State → Result) : List Nat → State → Except Error Result
  | [], state => .ok (finish state)
  | index :: rest, state =>
      match visit state index with
      | .error error => .error error
      | .ok (.leave result) => .ok result
      | .ok (.next following) => visitAll visit finish rest following

/-- The slots in the order of the walk. -/
def ringOrder (size start : Nat) : List Nat :=
  (List.range size).map (fun step => (start + step) % size)

@[simp] theorem ringOrder_length (size start : Nat) : (ringOrder size start).length = size := by
  simp only [ringOrder, List.length_map, List.length_range]

theorem ringOrder_lt {size start index : Nat} (member : index ∈ ringOrder size start) :
    index < size := by
  obtain ⟨step, present, rfl⟩ := List.mem_map.mp member
  have inside := List.mem_range.mp present
  exact Nat.mod_lt _ (by omega)

/-- Along a ring no two slots of one round coincide. -/
theorem ring_index_injective {size start left right : Nat}
    (leftLt : left < size) (rightLt : right < size)
    (same : (start + left) % size = (start + right) % size) : left = right := by
  have congruent : left ≡ right [MOD size] := Nat.ModEq.add_left_cancel' start same
  exact Nat.ModEq.eq_of_lt_of_lt congruent leftLt rightLt

/-- A walk meets the slots of the array in another order, each once. -/
theorem ringOrder_perm (size start : Nat) : (ringOrder size start).Perm (List.range size) := by
  have distinct : (ringOrder size start).Nodup := by
    apply List.Nodup.map_on _ List.nodup_range
    intro left leftIn right rightIn same
    exact ring_index_injective (List.mem_range.mp leftIn) (List.mem_range.mp rightIn) same
  have inside : ringOrder size start ⊆ List.range size := by
    intro index member
    exact List.mem_range.mpr (ringOrder_lt member)
  apply (List.subperm_of_subset distinct inside).perm_of_length_le
  rw [List.length_range, ringOrder_length]

theorem ring_index_succ (size start step : Nat) :
    ((start + step) % size + 1) % size = (start + (step + 1)) % size := by
  rw [Nat.mod_add_mod, Nat.add_assoc]

theorem ring_index_back {size start step : Nat} (startLt : start < size)
    (inside : step < size) : (start + (step + 1)) % size = start ↔ step + 1 = size := by
  constructor
  · intro back
    by_contra early
    have lt : step + 1 < size := by omega
    have same : (start + (step + 1)) % size = (start + 0) % size := by
      rw [back, Nat.add_zero, Nat.mod_eq_of_lt startLt]
    have impossible := ring_index_injective lt (by omega) same
    omega
  · intro last
    rw [last, Nat.add_mod_right, Nat.mod_eq_of_lt startLt]

/-- From any slot of the walk the loop makes the visits that are left. -/
private theorem repeat_ringRound_from (endless : Error) {size start : Nat} (startLt : start < size)
    (visit : State → Nat → Except Error (Round State Result)) (finish : State → Result)
    (left step : Nat) (accounting : step + (left + 1) = size) (state : State) :
    repeatRounds endless (ringRound size start visit finish) (left + 1)
        (state, (start + step) % size) =
      visitAll visit finish
        ((List.range' step (left + 1)).map (fun step => (start + step) % size)) state := by
  induction left generalizing step state with
  | zero =>
      have last : ((start + step) % size + 1) % size = start := by
        rw [ring_index_succ]
        exact (ring_index_back startLt (by omega)).mpr (by omega)
      change _ = visitAll visit finish [(start + step) % size] state
      cases visited : visit state ((start + step) % size) with
      | error error => simp only [repeatRounds, ringRound, visitAll, visited]
      | ok round =>
          cases round with
          | leave result => simp only [repeatRounds, ringRound, visitAll, visited]
          | next following =>
              simp only [repeatRounds, ringRound, visitAll, visited, ne_eq, last,
                not_true_eq_false, if_false]
  | succ left ih =>
      have onward : ((start + step) % size + 1) % size ≠ start := by
        rw [ring_index_succ, ne_eq, ring_index_back startLt (by omega)]
        omega
      rw [List.range'_succ, List.map_cons]
      unfold repeatRounds visitAll
      cases visited : visit state ((start + step) % size) with
      | error error => simp only [ringRound, visited]
      | ok round =>
          cases round with
          | leave result => simp only [ringRound, visited]
          | next following =>
              simp only [ringRound, visited, if_pos onward]
              rw [ring_index_succ]
              exact ih (step + 1) (by omega) following

/-- The do-while walk visits each slot of the ring exactly once and then ends. -/
theorem repeat_ringRound (endless : Error) {size start : Nat} (startLt : start < size)
    (visit : State → Nat → Except Error (Round State Result)) (finish : State → Result)
    (state : State) :
    repeatRounds endless (ringRound size start visit finish) size (state, start) =
      visitAll visit finish (ringOrder size start) state := by
  obtain ⟨left, rfl⟩ : ∃ left, size = left + 1 := ⟨size - 1, by omega⟩
  have whole := repeat_ringRound_from endless startLt visit finish left 0 (by omega) state
  have atStart : (start + 0) % (left + 1) = start := by
    rw [Nat.add_zero, Nat.mod_eq_of_lt startLt]
  rw [atStart] at whole
  rw [whole, ringOrder, List.range_eq_range']

end Aesd.BoundedLoop
