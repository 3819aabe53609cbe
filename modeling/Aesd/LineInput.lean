/-
Buffered line input.

`fgets` takes items one at a time from a source until an end has been taken or
its buffer is full.  `cut` says what this does to the items that lie ahead of
a source: a front is split off.  A source is known only through a relation to
the items ahead of it, so a socket and a file are read by the same rule.
-/

import Aesd.EndedGroups
import Aesd.UnlessStopped

set_option autoImplicit false

namespace Aesd.LineInput

open BoundedLoop EndedGroups UnlessStopped

variable {α Source Error : Type} (ends : α → Prop)

/-- Only the last item may be an end. -/
def Chunk (items : List α) : Prop := Unended ends items ∨ Closed ends items

theorem chunk_of_isPrefix {ends : α → Prop} {items shorter : List α} (chunk : Chunk ends items)
    (before : shorter <+: items) : Chunk ends shorter := by
  obtain ⟨rest, rfl⟩ := before
  rcases chunk with unended | ⟨front, last, whole, isEnd, earlier⟩
  · exact Or.inl (fun item member => unended item (List.mem_append_left rest member))
  · rcases rest.eq_nil_or_concat with nothing | ⟨later, final, same⟩
    · rw [nothing, List.append_nil] at whole
      exact Or.inr ⟨front, last, whole, isEnd, earlier⟩
    · rw [same, List.concat_eq_append, ← List.append_assoc] at whole
      obtain ⟨same, _last⟩ := List.append_inj' whole rfl
      exact Or.inl (fun item member => earlier item (same ▸ List.mem_append_left later member))

variable [DecidablePred ends]

/-! ### Cutting off a front -/

/-- At most `room` items, up to and with the first end; and the rest. -/
def cut : Nat → List α → List α × List α
  | 0, items => ([], items)
  | _ + 1, [] => ([], [])
  | room + 1, item :: items =>
      if ends item then ([item], items)
      else (item :: (cut room items).1, (cut room items).2)

variable {ends}

@[simp] theorem cut_nil (room : Nat) : cut ends room [] = ([], []) := by
  cases room <;> rfl

theorem cut_append (ends : α → Prop) [DecidablePred ends] (room : Nat) (items : List α) :
    (cut ends room items).1 ++ (cut ends room items).2 = items := by
  induction room generalizing items with
  | zero => rfl
  | succ room ih =>
      cases items with
      | nil => rfl
      | cons item items =>
          rw [cut]
          split
          · rfl
          · exact congrArg (item :: ·) (ih items)

theorem cut_length_le (ends : α → Prop) [DecidablePred ends] (room : Nat) (items : List α) :
    (cut ends room items).1.length ≤ room := by
  induction room generalizing items with
  | zero => exact Nat.le_refl 0
  | succ room ih =>
      cases items with
      | nil => exact Nat.zero_le _
      | cons item items =>
          rw [cut]
          split
          · exact Nat.succ_le_succ (Nat.zero_le room)
          · exact Nat.succ_le_succ (ih items)

theorem cut_eq_nil_iff (ends : α → Prop) [DecidablePred ends] {room : Nat} (positive : 0 < room)
    (items : List α) : (cut ends room items).1 = [] ↔ items = [] := by
  cases room with
  | zero => exact absurd positive (Nat.lt_irrefl 0)
  | succ room =>
      cases items with
      | nil => exact iff_of_true rfl rfl
      | cons item items =>
          rw [cut]
          split <;> exact iff_of_false (List.cons_ne_nil _ _) (List.cons_ne_nil _ _)

theorem cut_rest_length_lt {room : Nat} (positive : 0 < room) {items : List α}
    (nonempty : items ≠ []) : (cut ends room items).2.length < items.length := by
  have whole := congrArg List.length (cut_append ends room items)
  rw [List.length_append] at whole
  have front := List.length_pos_iff.mpr (mt (cut_eq_nil_iff ends positive items).mp nonempty)
  omega

theorem cut_chunk (ends : α → Prop) [DecidablePred ends] (room : Nat) (items : List α) :
    Chunk ends (cut ends room items).1 := by
  induction room generalizing items with
  | zero => exact Or.inl unended_nil
  | succ room ih =>
      cases items with
      | nil => exact Or.inl unended_nil
      | cons item items =>
          rw [cut]
          by_cases isEnd : ends item
          · rw [if_pos isEnd]
            exact Or.inr (closed_singleton isEnd)
          · rw [if_neg isEnd]
            rcases ih items with unended | closed
            · refine Or.inl ?_
              intro other member
              rcases List.mem_cons.mp member with same | later
              · rw [same]
                exact isEnd
              · exact unended other later
            · exact Or.inr (closed_cons isEnd closed)

/-- Within a line the cut is made by length alone. -/
theorem cut_line (room : Nat) {line : List α} (closed : Closed ends line) (extra : List α) :
    cut ends room (line ++ extra) = (line.take room, line.drop room ++ extra) := by
  induction room generalizing line with
  | zero => rfl
  | succ room ih =>
      cases line with
      | nil => exact absurd closed not_closed_nil
      | cons item items =>
          rw [List.cons_append, cut, List.take_succ_cons, List.drop_succ_cons]
          rcases closed_tail closed with ⟨isEnd, nothing⟩ | ⟨open_, later⟩
          · rw [if_pos isEnd, nothing, List.take_nil, List.drop_nil]
          · rw [if_neg open_, ih later]

/-- Without an end ahead the cut is made by length as well. -/
theorem cut_unended (room : Nat) {items : List α} (unended : Unended ends items) :
    cut ends room items = (items.take room, items.drop room) := by
  induction room generalizing items with
  | zero => rfl
  | succ room ih =>
      cases items with
      | nil => rfl
      | cons item items =>
          rw [cut, if_neg (unended item List.mem_cons_self),
            ih (fun other member => unended other (List.mem_cons_of_mem item member))]
          rfl

/-- What taking one item from a source comes to. -/
inductive Fetched (α : Type) where
  | item (value : α)
  | endOfFile
  | failed
  deriving DecidableEq, Repr

variable (ends)

/-- The items taken, and whether taking them failed in the end. -/
def gather (getc : Source → Except Error (Fetched α × Source)) :
    Nat → Source → Except Error (List α × Bool × Source)
  | 0, source => .ok ([], false, source)
  | room + 1, source => do
      let (fetched, source) ← getc source
      match fetched with
      | .endOfFile => return ([], false, source)
      | .failed => return ([], true, source)
      | .item value =>
          if ends value then return ([value], false, source)
          else
            let (items, failed, source) ← gather getc room source
            return (value :: items, failed, source)

/-- A buffer of `size` holds one item less; `none` is the NULL of the C
function, returned at the end of the source and after a failure. -/
def fgets (getc : Source → Except Error (Fetched α × Source)) (size : Nat) (source : Source) :
    Except Error (Option (List α) × Source) := do
  let (items, failed, source) ← gather ends getc (size - 1) source
  return (if failed = true ∨ items = [] then none else some items, source)

/-! ### Sources with known items ahead -/

/-- The first item ahead is taken; where there is none, the end is reported. -/
def Takes (Ahead : Source → List α → Prop) (Over : Source → Prop) (ahead : List α)
    (taken : Fetched α × Source) : Prop :=
  match ahead with
  | [] => taken.1 = .endOfFile ∧ Ahead taken.2 [] ∧ Over taken.2
  | item :: rest => taken.1 = .item item ∧ Ahead taken.2 rest

def Supplies (stops : Error → Prop) (getc : Source → Except Error (Fetched α × Source))
    (Ahead : Source → List α → Prop) (Over : Source → Prop) : Prop :=
  ∀ source ahead, Ahead source ahead → Unless stops (getc source) (Takes Ahead Over ahead)

variable {ends} {stops : Error → Prop} {getc : Source → Except Error (Fetched α × Source)}
  {Ahead : Source → List α → Prop} {Over : Source → Prop}

theorem gather_unless (supplies : Supplies stops getc Ahead Over) (room : Nat) {source : Source}
    {ahead : List α} (known : Ahead source ahead) :
    Unless stops (gather ends getc room source) (fun gathered =>
      gathered.1 = (cut ends room ahead).1 ∧ gathered.2.1 = false ∧
        Ahead gathered.2.2 (cut ends room ahead).2 ∧
        (0 < room → ahead = [] → Over gathered.2.2)) := by
  induction room generalizing source ahead with
  | zero => exact ⟨rfl, rfl, known, fun impossible => absurd impossible (Nat.lt_irrefl 0)⟩
  | succ room ih =>
      refine (supplies source ahead known).bind ?_
      rintro ⟨fetched, after⟩ taken
      cases ahead with
      | nil =>
          obtain ⟨rfl, kept, ended⟩ := taken
          exact ⟨rfl, rfl, kept, fun _positive _nothing => ended⟩
      | cons item rest =>
          obtain ⟨rfl, kept⟩ := taken
          rw [cut]
          by_cases isEnd : ends item
          · simp only [if_pos isEnd]
            exact ⟨rfl, rfl, kept, fun _positive impossible => absurd impossible (List.cons_ne_nil _ _)⟩
          · simp only [if_neg isEnd]
            refine (ih kept).bind ?_
            rintro ⟨items, failed, last⟩ ⟨same, complete, reached, _ended⟩
            exact ⟨congrArg (item :: ·) same, complete, reached,
              fun _positive impossible => absurd impossible (List.cons_ne_nil _ _)⟩

/-- fgets cuts a front off the items ahead; it returns NULL exactly at the end. -/
theorem fgets_unless (supplies : Supplies stops getc Ahead Over) {size : Nat} (large : 1 < size)
    {source : Source} {ahead : List α} (known : Ahead source ahead) :
    Unless stops (fgets ends getc size source) (fun read =>
      read.1 = (if ahead = [] then none else some (cut ends (size - 1) ahead).1) ∧
        Ahead read.2 (cut ends (size - 1) ahead).2 ∧ (ahead = [] → Over read.2)) := by
  have positive : 0 < size - 1 := by omega
  refine (gather_unless supplies (size - 1) known).bind ?_
  rintro ⟨items, failed, after⟩ ⟨rfl, rfl, kept, ended⟩
  refine ⟨?_, kept, ended positive⟩
  simp only [Bool.false_eq_true, false_or, cut_eq_nil_iff ends positive]

/-! ### What is known of a source -/

theorem gather_keeps {Known : Source → Prop}
    (one : ∀ source, Known source → Unless stops (getc source) (fun taken => Known taken.2))
    (room : Nat) {source : Source} (known : Known source) :
    Unless stops (gather ends getc room source) (fun gathered => Known gathered.2.2) := by
  induction room generalizing source with
  | zero => exact known
  | succ room ih =>
      refine (one source known).bind ?_
      rintro ⟨fetched, after⟩ kept
      cases fetched with
      | endOfFile => exact kept
      | failed => exact kept
      | item item =>
          by_cases isEnd : ends item
          · simp only [if_pos isEnd]
            exact kept
          · simp only [if_neg isEnd]
            refine (ih kept).bind ?_
            rintro ⟨items, failed, last⟩ reached
            exact reached

/-- What getc keeps, fgets keeps. -/
theorem fgets_keeps {Known : Source → Prop}
    (one : ∀ source, Known source → Unless stops (getc source) (fun taken => Known taken.2))
    (size : Nat) {source : Source} (known : Known source) :
    Unless stops (fgets ends getc size source) (fun read => Known read.2) := by
  refine (gather_keeps one (size - 1) known).bind ?_
  rintro ⟨items, failed, after⟩ kept
  exact kept

/-! ### A list as a source -/

/-- The items of a stream one by one, then what its end looks like. -/
def getcFrom (atEnd : Fetched α) : List α → Except Error (Fetched α × List α)
  | [] => .ok (atEnd, [])
  | item :: rest => .ok (.item item, rest)

theorem gather_getcFrom (atEnd : Fetched α) (room : Nat) (items : List α)
    (plain : ∀ item, atEnd ≠ .item item) :
    ∃ failed, gather ends (getcFrom atEnd) room items =
      (.ok ((cut ends room items).1, failed, (cut ends room items).2) : Except Error _) := by
  induction room generalizing items with
  | zero => exact ⟨false, rfl⟩
  | succ room ih =>
      cases items with
      | nil =>
          cases atEnd with
          | item item => exact absurd rfl (plain item)
          | endOfFile => exact ⟨false, rfl⟩
          | failed => exact ⟨true, rfl⟩
      | cons item items =>
          rw [cut, gather, getcFrom, ok_bind]
          by_cases isEnd : ends item
          · simp only [if_pos isEnd]
            exact ⟨false, rfl⟩
          · obtain ⟨failed, gathered⟩ := ih items
            simp only [if_neg isEnd, gathered, ok_bind]
            exact ⟨failed, rfl⟩

/-- What fgets leaves of a list does not depend on how the list ends. -/
theorem fgets_getcFrom (atEnd : Fetched α) {size : Nat} (items : List α)
    (plain : ∀ item, atEnd ≠ .item item) :
    ∃ found, fgets ends (getcFrom atEnd) size items =
        (.ok (found, (cut ends (size - 1) items).2) : Except Error _) ∧
      ∀ chunk, found = some chunk → chunk = (cut ends (size - 1) items).1 ∧ chunk ≠ [] := by
  obtain ⟨failed, gathered⟩ : ∃ failed, gather ends (getcFrom atEnd) (size - 1) items =
      (.ok ((cut ends (size - 1) items).1, failed, (cut ends (size - 1) items).2) :
        Except Error _) := gather_getcFrom atEnd (size - 1) items plain
  refine ⟨_, by rw [fgets, gathered, ok_bind]; rfl, ?_⟩
  intro chunk found
  split at found
  · cases found
  · rename_i something
    cases found
    exact ⟨rfl, fun empty => something (Or.inr empty)⟩

/-- What is taken arrives if the stream ends well, or if an end lies ahead. -/
def Arrives (ends : α → Prop) (atEnd : Fetched α) (items : List α) : Prop :=
  atEnd = .endOfFile ∨ ∃ item, item ∈ items ∧ ends item

omit [DecidablePred ends] in
theorem arrives_closed (atEnd : Fetched α) {line : List α} (closed : Closed ends line)
    (extra : List α) : Arrives ends atEnd (line ++ extra) := by
  obtain ⟨front, last, rfl, isEnd, _earlier⟩ := closed
  exact Or.inr ⟨last, List.mem_append_left _ List.mem_concat_self, isEnd⟩

theorem gather_arrives {atEnd : Fetched α} (room : Nat) {items : List α}
    (arrives : Arrives ends atEnd items) :
    gather ends (getcFrom atEnd) room items =
      (.ok ((cut ends room items).1, false, (cut ends room items).2) : Except Error _) := by
  induction room generalizing items with
  | zero => rfl
  | succ room ih =>
      cases items with
      | nil =>
          rcases arrives with rfl | ⟨item, impossible, _isEnd⟩
          · rfl
          · cases impossible
      | cons item items =>
          rw [cut, gather, getcFrom, ok_bind]
          by_cases isEnd : ends item
          · simp only [if_pos isEnd]
            rfl
          · have later : Arrives ends atEnd items := by
              rcases arrives with same | ⟨other, member, found⟩
              · exact Or.inl same
              · rcases List.mem_cons.mp member with rfl | behind
                · exact absurd found isEnd
                · exact Or.inr ⟨other, behind, found⟩
            simp only [if_neg isEnd, ih later, ok_bind]
            rfl

/-- fgets cuts a front off what has arrived. -/
theorem fgets_arrives {atEnd : Fetched α} {size : Nat} (large : 1 < size) {items : List α}
    (arrives : Arrives ends atEnd items) :
    fgets ends (getcFrom atEnd) size items =
      (.ok (if items = [] then none else some (cut ends (size - 1) items).1,
        (cut ends (size - 1) items).2) : Except Error _) := by
  have positive : 0 < size - 1 := by omega
  rw [fgets, gather_arrives _ arrives, ok_bind]
  simp only [Bool.false_eq_true, false_or, cut_eq_nil_iff ends positive]
  rfl

/-- A line that has arrived is read piece by piece, whatever follows it. -/
theorem fgets_line (atEnd : Fetched α) {size : Nat} (large : 1 < size) {line : List α}
    (closed : Closed ends line) (extra : List α) :
    fgets ends (getcFrom atEnd) size (line ++ extra) =
      (.ok (some (line.take (size - 1)), line.drop (size - 1) ++ extra) : Except Error _) := by
  have something : line ++ extra ≠ [] := by
    intro nothing
    rw [(List.append_eq_nil_iff.mp nothing).1] at closed
    exact not_closed_nil closed
  rw [fgets_arrives large (arrives_closed atEnd closed extra), if_neg something,
    cut_line _ closed]

end Aesd.LineInput
