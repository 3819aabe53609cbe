/-
What a program guarantees unless its environment stops it.

A program that rests on services which may be refused ends in a value, or
stops with an error that its environment is to blame for.  `Unless stops`
speaks about both at once, so that a chain of calls and a loop are followed
without a case distinction at every call.
-/

import Aesd.BoundedLoop

set_option autoImplicit false

namespace Aesd.UnlessStopped

open BoundedLoop

variable {Error State First Second : Type} {stops : Error → Prop}

/-- The value meets `post`, or the error is one that `stops` allows. -/
def Unless (stops : Error → Prop) (result : Except Error First) (post : First → Prop) : Prop :=
  match result with
  | .ok value => post value
  | .error error => stops error

@[simp] theorem unless_ok (value : First) (post : First → Prop) :
    Unless stops (.ok value) post ↔ post value := Iff.rfl

@[simp] theorem unless_error (error : Error) (post : First → Prop) :
    Unless stops (.error error) post ↔ stops error := Iff.rfl

theorem Unless.mono {result : Except Error First} {post weaker : First → Prop}
    (holds : Unless stops result post) (implies : ∀ value, post value → weaker value) :
    Unless stops result weaker := by
  cases result with
  | error error => exact holds
  | ok value => exact implies value holds

/-- Any error may end the program; only its value counts. -/
def Any (_error : Error) : Prop := True

theorem Unless.whenever {result : Except Error First} {post : First → Prop}
    (holds : Unless stops result post) : Unless Any result post := by
  cases result with
  | error error => exact True.intro
  | ok value => exact holds

/-- More errors may be allowed. -/
theorem Unless.allow {more : Error → Prop} {result : Except Error First} {post : First → Prop}
    (holds : Unless stops result post) (allowed : ∀ error, stops error → more error) :
    Unless more result post := by
  cases result with
  | error error => exact allowed error holds
  | ok value => exact holds

/-- What the value is known to be anyway may be added. -/
theorem Unless.also {result : Except Error First} {post extra : First → Prop}
    (holds : Unless stops result post) (known : ∀ value, result = .ok value → extra value) :
    Unless stops result (fun value => post value ∧ extra value) := by
  cases result with
  | error error => exact holds
  | ok value => exact ⟨holds, known value rfl⟩

theorem Unless.bind {result : Except Error First} {onward : First → Except Error Second}
    {between : First → Prop} {post : Second → Prop} (first : Unless stops result between)
    (second : ∀ value, between value → Unless stops (onward value) post) :
    Unless stops (result >>= onward) post := by
  cases result with
  | error error => exact first
  | ok value => exact second value first

theorem Unless.of_ok {result : Except Error First} {post : First → Prop} {value : First}
    (holds : Unless stops result post) (ended : result = .ok value) : post value := by
  rw [ended] at holds
  exact holds

theorem Unless.exists_ok {result : Except Error First} {post : First → Prop}
    (holds : Unless stops result post) (never : ∀ error, result = .error error → ¬stops error) :
    ∃ value, result = .ok value ∧ post value := by
  cases result with
  | error error => exact absurd holds (never error rfl)
  | ok value => exact ⟨value, rfl, holds⟩

/-- What holds after a round that goes on, and after one that leaves. -/
def RoundMeets (onward : State → Prop) (ended : First → Prop) : Round State First → Prop
  | .next following => onward following
  | .leave result => ended result

/-- The invariant counts the rounds that are left; a loop with enough rounds
comes to its end. -/
theorem Unless.repeatRounds {endless : Error}
    {body : State → Except Error (Round State First)} {invariant : Nat → State → Prop}
    {post : First → Prop}
    (one : ∀ left state, invariant left state → Unless stops (body state)
      (RoundMeets (fun following => ∃ fewer, fewer < left ∧ invariant fewer following) post))
    {left rounds : Nat} {state : State} (initially : invariant left state)
    (enough : left < rounds) : Unless stops (repeatRounds endless body rounds state) post := by
  induction rounds generalizing left state with
  | zero => exact absurd enough (Nat.not_lt_zero left)
  | succ rounds ih =>
      have here := one left state initially
      unfold BoundedLoop.repeatRounds
      cases made : body state with
      | error error =>
          rw [made] at here
          exact here
      | ok round =>
          rw [made] at here
          cases round with
          | leave result => exact here
          | next following =>
              obtain ⟨fewer, decreased, kept⟩ := here
              exact ih kept (by omega)

/-! ### Loops that come to an end -/

/-- The loop leaves after some number of rounds, with a result that meets `post`. -/
def Finishes (endless : Error) (body : State → Except Error (Round State First)) (state : State)
    (post : First → Prop) : Prop :=
  ∃ rounds result, repeatRounds endless body rounds state = .ok result ∧ post result

section Finishes

variable {endless : Error} {body : State → Except Error (Round State First)}
  {post weaker : First → Prop} {state : State}

theorem Finishes.mono (finishes : Finishes endless body state post)
    (implies : ∀ result, post result → weaker result) : Finishes endless body state weaker := by
  obtain ⟨rounds, result, ended, holds⟩ := finishes
  exact ⟨rounds, result, ended, implies result holds⟩

theorem Finishes.of_leave {result : First} (made : body state = .ok (.leave result))
    (holds : post result) : Finishes endless body state post := by
  refine ⟨1, result, ?_, holds⟩
  rw [BoundedLoop.repeatRounds, made]

theorem Finishes.of_next {following : State} (made : body state = .ok (.next following))
    (rest : Finishes endless body following post) : Finishes endless body state post := by
  obtain ⟨rounds, result, ended, holds⟩ := rest
  refine ⟨rounds + 1, result, ?_, holds⟩
  rw [BoundedLoop.repeatRounds, made]
  exact ended

/-- From each state the loop is known to finish, or a round keeps the invariant
and makes the measure smaller. -/
theorem Finishes.of_measure (measure : State → Nat) {invariant : State → Prop}
    (one : ∀ state, invariant state → Finishes endless body state post ∨
      ∃ following, body state = .ok (.next following) ∧ invariant following ∧
        measure following < measure state)
    (initially : invariant state) : Finishes endless body state post := by
  generalize size : measure state = bound
  induction bound using Nat.strong_induction_on generalizing state with
  | _ bound ih =>
      rcases one state initially with known | ⟨following, made, kept, smaller⟩
      · exact known
      · exact .of_next made (ih _ (size ▸ smaller) kept rfl)

end Finishes

end Aesd.UnlessStopped
