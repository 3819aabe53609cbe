/-
The kernel services the driver's memory rests on.

Whether an allocation or a copy succeeds is up to the kernel and is an input
of the model.  Two limits hold for every success: no single allocation reaches
2^62 bytes, and all blocks lie side by side in the kernel's half of the 64-bit
address space.  A failed krealloc keeps the old block, a successful one
invalidates it.  Using a block that is not allocated, or a range that does not
lie in it, is a fault.
-/

import Aesd.BlockHeap
import Aesd.Driver.CircularBuffer

set_option autoImplicit false

namespace Aesd.Driver

open BlockHeap BoundedLoop

abbrev Byte := UInt8

abbrev newline : Byte := 10

/-- What the kernel makes of one kmalloc or krealloc. -/
structure Allocation where
  granted : Bool
  stale : Nat → Byte

namespace KernelMemory

def admits (heap : Heap Byte) (count : Nat) : Bool :=
  decide (count < 2 ^ 62) && decide (heap.used + count < 2 ^ 63)

def kmalloc (heap : Heap Byte) (count : Nat) (allocation : Allocation) :
    Option Nat × Heap Byte :=
  if allocation.granted && admits heap count then
    (some heap.next, heap.allocate ((List.range count).map allocation.stale))
  else (none, heap)

def krealloc (heap : Heap Byte) (block count : Nat) (allocation : Allocation) :
    Except Fault (Option Nat × Heap Byte) :=
  match heap.block block with
  | none => .error (.notAllocated block)
  | some old =>
      if allocation.granted && admits (heap.release block) count then
        .ok (some heap.next, (heap.release block).allocate
          (old.take count ++ (List.range (count - old.length)).map allocation.stale))
      else .ok (none, heap)

/-- kfree( NULL ) does nothing. -/
def kfree (heap : Heap Byte) (buffptr : Option Nat) : Except Fault (Heap Byte) :=
  match buffptr with
  | none => .ok heap
  | some block =>
      match heap.block block with
      | none => .error (.notAllocated block)
      | some _ => .ok (heap.release block)

/-- The bytes of a range, if the range lies in the block. -/
def load (heap : Heap Byte) (block offset count : Nat) : Except Fault (List Byte) :=
  match heap.block block with
  | none => .error (.notAllocated block)
  | some bytes =>
      if offset + count ≤ bytes.length then .ok ((bytes.drop offset).take count)
      else .error (.outsideBlock block offset count)

def store (heap : Heap Byte) (block offset : Nat) (source : List Byte) :
    Except Fault (Heap Byte) :=
  match heap.block block with
  | none => .error (.notAllocated block)
  | some bytes =>
      if offset + source.length ≤ bytes.length then
        .ok (heap.overwrite block
          (bytes.take offset ++ source ++ bytes.drop (offset + source.length)))
      else .error (.outsideBlock block offset source.length)

/-- What a copy leaves in kernel memory when the last `uncopied` bytes of the
user's range cannot be read: they are padded with zero bytes. -/
def copied (source : List Byte) (uncopied : Nat) : List Byte :=
  source.take (source.length - uncopied) ++
    List.replicate (min uncopied source.length) 0

/-- The return value is the number of bytes that could not be copied. -/
def copyFromUser (heap : Heap Byte) (block offset : Nat) (source : List Byte)
    (uncopied : Nat) : Except Fault (Nat × Heap Byte) := do
  let heap ← store heap block offset (copied source uncopied)
  return (min uncopied source.length, heap)

/-- The second part of the result is what reached the user. -/
def copyToUser (heap : Heap Byte) (block offset count uncopied : Nat) :
    Except Fault (Nat × List Byte) := do
  let bytes ← load heap block offset count
  return (min uncopied count, bytes.take (count - uncopied))

@[simp] theorem copied_length (source : List Byte) (uncopied : Nat) :
    (copied source uncopied).length = source.length := by
  rw [copied, List.length_append, List.length_take, List.length_replicate]
  omega

@[simp] theorem copied_zero (source : List Byte) : copied source 0 = source := by
  rw [copied, Nat.sub_zero, List.take_length, Nat.zero_min, List.replicate_zero, List.append_nil]

/-! ### Each service once -/

theorem kmalloc_cases (heap : Heap Byte) (count : Nat) (allocation : Allocation) :
    (∃ bytes, kmalloc heap count allocation = (some heap.next, heap.allocate bytes) ∧
      bytes.length = count ∧ count < 2 ^ 62 ∧ heap.used + count < 2 ^ 63 ∧
      allocation.granted = true) ∨
    (kmalloc heap count allocation = (none, heap) ∧
      (allocation.granted && admits heap count) = false) := by
  unfold kmalloc
  by_cases granted : (allocation.granted && admits heap count) = true
  · left
    have parts := granted
    simp only [admits, Bool.and_eq_true, decide_eq_true_eq] at parts
    exact ⟨_, if_pos granted, by rw [List.length_map, List.length_range], parts.2.1, parts.2.2,
      parts.1⟩
  · right
    exact ⟨if_neg granted, Bool.eq_false_of_not_eq_true granted⟩

/-- Growing a block keeps its bytes in front. -/
theorem krealloc_cases {heap : Heap Byte} {block : Nat} {old : List Byte}
    (allocated : heap.block block = some old) (extra : Nat) (allocation : Allocation) :
    (∃ tail, krealloc heap block (old.length + extra) allocation =
        .ok (some heap.next, (heap.release block).allocate (old ++ tail)) ∧
      tail.length = extra ∧ old.length + extra < 2 ^ 62 ∧
      (heap.release block).used + (old.length + extra) < 2 ^ 63 ∧ allocation.granted = true) ∨
    (krealloc heap block (old.length + extra) allocation = .ok (none, heap) ∧
      (allocation.granted && admits (heap.release block) (old.length + extra)) = false) := by
  unfold krealloc
  rw [allocated]
  by_cases granted :
      (allocation.granted && admits (heap.release block) (old.length + extra)) = true
  · left
    have parts := granted
    simp only [admits, Bool.and_eq_true, decide_eq_true_eq] at parts
    refine ⟨(List.range extra).map allocation.stale, ?_, ?_, parts.2.1, parts.2.2, parts.1⟩
    · simp only [if_pos granted]
      rw [List.take_of_length_le (Nat.le_add_right _ _), Nat.add_sub_cancel_left]
    · rw [List.length_map, List.length_range]
  · right
    exact ⟨if_neg granted, Bool.eq_false_of_not_eq_true granted⟩

theorem kfree_allocated {heap : Heap Byte} {block : Nat} {bytes : List Byte}
    (allocated : heap.block block = some bytes) :
    kfree heap (some block) = .ok (heap.release block) := by
  simp only [kfree, allocated]

theorem load_inside {heap : Heap Byte} {block offset count : Nat} {bytes : List Byte}
    (allocated : heap.block block = some bytes) (inside : offset + count ≤ bytes.length) :
    load heap block offset count = .ok ((bytes.drop offset).take count) := by
  simp only [load, allocated, if_pos inside]

/-- Filling the fresh end of a block. -/
theorem copyFromUser_end {heap : Heap Byte} {block : Nat} {front tail source : List Byte}
    (allocated : heap.block block = some (front ++ tail)) (fits : tail.length = source.length)
    (uncopied : Nat) :
    copyFromUser heap block front.length source uncopied =
      .ok (min uncopied source.length,
        heap.overwrite block (front ++ copied source uncopied)) := by
  have inside : front.length + (copied source uncopied).length ≤ (front ++ tail).length := by
    rw [copied_length, List.length_append, fits]
  have nothing : (front ++ tail).drop (front.length + (copied source uncopied).length) = [] := by
    rw [List.drop_eq_nil_iff, List.length_append, copied_length, fits]
  unfold copyFromUser store
  simp only [allocated, if_pos inside, ok_bind, nothing, List.take_left', List.append_nil]
  rfl

theorem copyToUser_inside {heap : Heap Byte} {block offset count : Nat} {bytes : List Byte}
    (allocated : heap.block block = some bytes) (inside : offset + count ≤ bytes.length)
    (uncopied : Nat) :
    copyToUser heap block offset count uncopied =
      .ok (min uncopied count, ((bytes.drop offset).take count).take (count - uncopied)) := by
  unfold copyToUser
  rw [load_inside allocated inside]
  rfl

end KernelMemory

end Aesd.Driver
