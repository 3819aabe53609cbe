/-
A heap of separately allocated blocks.

Every allocation gets a name that no earlier allocation had, so a name stands
for one allocation and a released name never becomes valid again.  The heap
says nothing about addresses, failures or initial contents; a caller supplies
the bytes of a new block.
-/

import Mathlib.Algebra.BigOperators.Fin
import Mathlib.Tactic

set_option autoImplicit false

namespace Aesd.BlockHeap

variable {α : Type}

/-- The blocks allocated at present; no name from `next` on was ever used. -/
structure Heap (α : Type) where
  block : Nat → Option (List α)
  next : Nat
  unused : ∀ name, next ≤ name → block name = none

namespace Heap

def empty : Heap α := ⟨fun _ => none, 0, fun _ _ => rfl⟩

/-- The new block's name is `heap.next`. -/
def allocate (heap : Heap α) (bytes : List α) : Heap α where
  block := Function.update heap.block heap.next (some bytes)
  next := heap.next + 1
  unused := by
    intro name above
    rw [Function.update_of_ne (by omega)]
    exact heap.unused name (by omega)

def release (heap : Heap α) (name : Nat) : Heap α where
  block := Function.update heap.block name none
  next := heap.next
  unused := by
    intro other above
    by_cases same : other = name
    · rw [same, Function.update_self]
    · rw [Function.update_of_ne same]
      exact heap.unused other above

/-- Change the contents of a block; a name that is not allocated stays so. -/
def overwrite (heap : Heap α) (name : Nat) (bytes : List α) : Heap α where
  block := Function.update heap.block name ((heap.block name).map (fun _ => bytes))
  next := heap.next
  unused := by
    intro other above
    by_cases same : other = name
    · rw [same, Function.update_self, heap.unused name (same ▸ above), Option.map_none]
    · rw [Function.update_of_ne same]
      exact heap.unused other above

@[simp] theorem empty_block (name : Nat) : (empty : Heap α).block name = none := rfl

@[simp] theorem allocate_block_self (heap : Heap α) (bytes : List α) :
    (heap.allocate bytes).block heap.next = some bytes := Function.update_self ..

theorem allocate_block_of_ne (heap : Heap α) (bytes : List α) {name : Nat}
    (different : name ≠ heap.next) : (heap.allocate bytes).block name = heap.block name :=
  Function.update_of_ne different ..

@[simp] theorem release_block_self (heap : Heap α) (name : Nat) :
    (heap.release name).block name = none := Function.update_self ..

theorem release_block_of_ne (heap : Heap α) {name other : Nat} (different : other ≠ name) :
    (heap.release name).block other = heap.block other := Function.update_of_ne different ..

theorem overwrite_block_self {heap : Heap α} {name : Nat} {old : List α}
    (allocated : heap.block name = some old) (bytes : List α) :
    (heap.overwrite name bytes).block name = some bytes := by
  simp only [overwrite, Function.update_self, allocated, Option.map_some]

theorem overwrite_block_of_ne (heap : Heap α) {name other : Nat} (bytes : List α)
    (different : other ≠ name) : (heap.overwrite name bytes).block other = heap.block other :=
  Function.update_of_ne different ..

@[simp] theorem allocate_next (heap : Heap α) (bytes : List α) :
    (heap.allocate bytes).next = heap.next + 1 := rfl

@[simp] theorem release_next (heap : Heap α) (name : Nat) :
    (heap.release name).next = heap.next := rfl

@[simp] theorem overwrite_next (heap : Heap α) (name : Nat) (bytes : List α) :
    (heap.overwrite name bytes).next = heap.next := rfl

theorem lt_next_of_allocated {heap : Heap α} {name : Nat} {bytes : List α}
    (allocated : heap.block name = some bytes) : name < heap.next := by
  by_contra above
  rw [heap.unused name (by omega)] at allocated
  cases allocated

theorem ne_next_of_allocated {heap : Heap α} {name : Nat} {bytes : List α}
    (allocated : heap.block name = some bytes) : name ≠ heap.next :=
  Nat.ne_of_lt (lt_next_of_allocated allocated)

/-! ### Room taken by the blocks -/

/-- Length of a block; a name that is not allocated takes no room. -/
def size (heap : Heap α) (name : Nat) : Nat := ((heap.block name).map List.length).getD 0

def used (heap : Heap α) : Nat := ∑ name ∈ Finset.range heap.next, heap.size name

theorem size_of_allocated {heap : Heap α} {name : Nat} {bytes : List α}
    (allocated : heap.block name = some bytes) : heap.size name = bytes.length := by
  rw [size, allocated, Option.map_some, Option.getD_some]

@[simp] theorem used_empty : (empty : Heap α).used = 0 := rfl

theorem used_allocate (heap : Heap α) (bytes : List α) :
    (heap.allocate bytes).used = heap.used + bytes.length := by
  rw [used, allocate_next, Finset.sum_range_succ,
    size_of_allocated (allocate_block_self heap bytes), used]
  congr 1
  apply Finset.sum_congr rfl
  intro name member
  have below := Finset.mem_range.mp member
  rw [size, size, allocate_block_of_ne heap bytes (Nat.ne_of_lt below)]

theorem used_release_le (heap : Heap α) (name : Nat) : (heap.release name).used ≤ heap.used := by
  rw [used, used, release_next]
  apply Finset.sum_le_sum
  intro other _member
  by_cases same : other = name
  · rw [same, size, release_block_self]
    exact Nat.zero_le _
  · rw [size, size, release_block_of_ne heap same]

/-- Overwriting with as many bytes takes no new room. -/
theorem used_overwrite {heap : Heap α} {name : Nat} {old bytes : List α}
    (allocated : heap.block name = some old) (sameLength : bytes.length = old.length) :
    (heap.overwrite name bytes).used = heap.used := by
  rw [used, used, overwrite_next]
  apply Finset.sum_congr rfl
  intro other _member
  by_cases same : other = name
  · rw [same, size_of_allocated (overwrite_block_self allocated bytes),
      size_of_allocated allocated, sameLength]
  · rw [size, size, overwrite_block_of_ne heap bytes same]

/-- Distinct blocks fit side by side into the room in use. -/
theorem sum_size_le_used (heap : Heap α) {names : List Nat} (distinct : names.Nodup)
    (allocated : ∀ name, name ∈ names → name < heap.next) :
    (names.map heap.size).sum ≤ heap.used := by
  rw [← List.sum_toFinset heap.size distinct, used]
  apply Finset.sum_le_sum_of_subset
  intro name member
  exact Finset.mem_range.mpr (allocated name (List.mem_toFinset.mp member))

/-! ### Accounting -/

/-- The allocated blocks are exactly the listed ones, each listed once. -/
structure Accounts (heap : Heap α) (names : List Nat) : Prop where
  distinct : names.Nodup
  complete : ∀ name, heap.block name ≠ none ↔ name ∈ names

theorem Accounts.allocated {heap : Heap α} {names : List Nat} (accounts : heap.Accounts names)
    {name : Nat} (member : name ∈ names) : ∃ bytes, heap.block name = some bytes :=
  Option.ne_none_iff_exists'.mp ((accounts.complete name).mpr member)

theorem Accounts.next_not_mem {heap : Heap α} {names : List Nat}
    (accounts : heap.Accounts names) : heap.next ∉ names := by
  intro member
  exact (accounts.complete heap.next).mpr member (heap.unused heap.next (Nat.le_refl _))

theorem Accounts.perm {heap : Heap α} {names others : List Nat} (accounts : heap.Accounts names)
    (same : names.Perm others) : heap.Accounts others where
  distinct := same.nodup_iff.mp accounts.distinct
  complete := fun name => (accounts.complete name).trans same.mem_iff

theorem accounts_empty : (empty : Heap α).Accounts [] where
  distinct := List.nodup_nil
  complete := by intro name; simp only [empty_block, ne_eq, not_true_eq_false, List.not_mem_nil]

theorem Accounts.allocate {heap : Heap α} {names : List Nat} (accounts : heap.Accounts names)
    (bytes : List α) : (heap.allocate bytes).Accounts (heap.next :: names) where
  distinct := List.nodup_cons.mpr ⟨accounts.next_not_mem, accounts.distinct⟩
  complete := by
    intro name
    rw [List.mem_cons]
    by_cases new : name = heap.next
    · simp only [new, allocate_block_self, ne_eq, reduceCtorEq, not_false_eq_true, true_or]
    · rw [allocate_block_of_ne heap bytes new, accounts.complete]
      exact ⟨Or.inr, fun either => either.resolve_left new⟩

theorem Accounts.release {heap : Heap α} {name : Nat} {names : List Nat}
    (accounts : heap.Accounts (name :: names)) : (heap.release name).Accounts names := by
  obtain ⟨absent, distinct⟩ := List.nodup_cons.mp accounts.distinct
  refine ⟨distinct, ?_⟩
  intro other
  by_cases same : other = name
  · rw [same, release_block_self]
    exact ⟨fun impossible => False.elim (impossible rfl), fun member => False.elim (absent member)⟩
  · rw [release_block_of_ne heap same, accounts.complete, List.mem_cons]
    exact ⟨fun either => either.resolve_left same, Or.inr⟩

theorem Accounts.overwrite {heap : Heap α} {names : List Nat} (accounts : heap.Accounts names)
    (name : Nat) (bytes : List α) : (heap.overwrite name bytes).Accounts names where
  distinct := accounts.distinct
  complete := by
    intro other
    rw [← accounts.complete]
    by_cases same : other = name
    · have mapped : (heap.overwrite name bytes).block name =
          (heap.block name).map (fun _ => bytes) := Function.update_self ..
      rw [same, mapped, ne_eq, ne_eq, Option.map_eq_none_iff]
    · rw [overwrite_block_of_ne heap bytes same]

/-- Distinct allocated blocks are within the room in use. -/
theorem Accounts.sum_le_used {heap : Heap α} {names chosen : List Nat}
    (accounts : heap.Accounts names) (distinct : chosen.Nodup)
    (listed : ∀ name, name ∈ chosen → name ∈ names) :
    (chosen.map heap.size).sum ≤ heap.used := by
  apply heap.sum_size_le_used distinct
  intro name member
  obtain ⟨bytes, allocated⟩ := accounts.allocated (listed name member)
  exact lt_next_of_allocated allocated

end Heap

end Aesd.BlockHeap
