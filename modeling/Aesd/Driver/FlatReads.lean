/-
The device as one flat string of bytes.

llseek and aesd_read find their way by two different loops over the ring.
Both see the stored commands laid end to end: a seek accepts exactly the
positions of that string, and any sequence of reads, with short and failed
copies, returns its bytes from the starting position on.
-/

import Aesd.Driver.WriteRefinement

set_option autoImplicit false

namespace Aesd.Driver

open BlockHeap BoundedLoop CallRun KernelMemory SegmentedBytes

/-- The bytes that the successful reads returned. -/
def delivered (replies : List Reply) : List Byte :=
  ((replies.filter (fun reply => decide (0 ≤ reply.ret))).map Reply.data).flatten

theorem delivered_cons (reply : Reply) (replies : List Reply) :
    delivered (reply :: replies) = delivered [reply] ++ delivered replies := by
  unfold delivered
  by_cases succeeded : 0 ≤ reply.ret
  · simp only [List.filter_cons, decide_eq_true succeeded, if_true, List.filter_nil, List.map_cons,
      List.flatten_cons, List.map_nil, List.flatten_nil, List.append_nil]
  · simp only [List.filter_cons, decide_eq_false succeeded, if_false, List.filter_nil, List.map_nil,
      List.flatten_nil, List.nil_append, Bool.false_eq_true]

theorem delivered_succeeded {reply : Reply} (succeeded : 0 ≤ reply.ret) :
    delivered [reply] = reply.data := by
  simp only [delivered, List.filter_cons, decide_eq_true succeeded, if_true, List.filter_nil,
    List.map_cons, List.map_nil, List.flatten_cons, List.flatten_nil, List.append_nil]

theorem delivered_failed {reply : Reply} (failed : reply.ret < 0) : delivered [reply] = [] := by
  simp only [delivered, List.filter_cons, decide_eq_false (Int.not_le.mpr failed),
    List.filter_nil, List.map_nil, List.flatten_nil, Bool.false_eq_true, if_false]

/-- What one read at a position of a flat string may answer. -/
structure FlatAnswer (flat : List Byte) (position : Nat) (call : ReadCall) (reply : Reply) :
    Prop where
  zero_iff : 0 < call.count → (reply.ret = 0 ↔ flat.length ≤ position)
  some_bytes : 0 < call.count → position < flat.length → call.uncopied = 0 →
    1 ≤ reply.ret ∧ reply.ret ≤ call.count ∧ reply.ret = reply.data.length
  failure : reply.ret < 0 → reply.ret = -efault

namespace Machine

/-- The seek accepts a target between 0 and `limit` and nothing else. -/
def SeeksWithin (machine : Machine) (file : Nat) (offset : Int) (whence : Whence)
    (target limit : Int) : Prop :=
  ∃ ret after, machine.llseek file offset whence = .ok (ret, after) ∧
    (0 ≤ target → target ≤ limit → ret = target ∧ after = machine.setFPos file target) ∧
    (target < 0 ∨ limit < target → ret = -einval ∧ after = machine)

/-- Any reads of one file return the flat string from `position` on, and every
further read answers for the position they reached. -/
def ReadsFlat (machine : Machine) (file : Nat) (flat : List Byte) (position : Nat) : Prop :=
  ∀ reads, (∀ call, call ∈ reads → call.file = file) →
    ∃ replies after, runCalls Machine.read machine reads = .ok (replies, after) ∧
      delivered replies = (flat.drop position).take (delivered replies).length ∧
      after.fPos file = ((position + (delivered replies).length : Nat) : Int) ∧
      ∀ call, call.file = file → ∃ reply last, after.read call = .ok (reply, last) ∧
        FlatAnswer flat (position + (delivered replies).length) call reply ∧
        (reply.ret = -efault → last.fPos file = after.fPos file)

end Machine

section Flat

variable {machine : Machine} {entries : List AesdBufferEntry} {commands : List (List Byte)}
  {pending : List Byte} {lost : List Nat}

/-! ### Seeking -/

theorem vfsSetpos_accepts {fPos offset maxsize : Int} (lower : 0 ≤ offset)
    (upper : offset ≤ maxsize) : vfsSetpos fPos offset maxsize = (offset, offset) := by
  rw [vfsSetpos, if_neg (Int.not_lt.mpr lower), if_neg (Int.not_lt.mpr upper)]

theorem vfsSetpos_rejects {fPos offset maxsize : Int}
    (outside : offset < 0 ∨ maxsize < offset) : vfsSetpos fPos offset maxsize = (-einval, fPos) := by
  unfold vfsSetpos
  split
  · rfl
  · rename_i lower
    rw [if_pos (outside.resolve_left lower)]

theorem Settled.seeksWithin_of (settled : Settled machine entries commands pending lost)
    {file : Nat} {offset target : Int} {whence : Whence} (wrapped : Int)
    (sought : fixedSizeLlseek (machine.fPos file) offset whence commands.flatten.length =
      vfsSetpos (machine.fPos file) wrapped commands.flatten.length)
    (inside : 0 ≤ target → target ≤ commands.flatten.length → wrapped = target)
    (outside : target < 0 ∨ commands.flatten.length < target →
      wrapped < 0 ∨ commands.flatten.length < wrapped) :
    machine.SeeksWithin file offset whence target commands.flatten.length := by
  refine ⟨_, _, settled.llseek_eq file offset whence, ?_, ?_⟩
  · intro lower upper
    rw [sought, inside lower upper, vfsSetpos_accepts lower upper]
    exact ⟨rfl, rfl⟩
  · intro beyond
    rw [sought, vfsSetpos_rejects (outside beyond)]
    exact ⟨rfl, machine.setFPos_fPos_self file⟩

theorem Settled.seekSet_within (settled : Settled machine entries commands pending lost)
    (file : Nat) (offset : Int) :
    machine.SeeksWithin file offset .seekSet offset commands.flatten.length :=
  settled.seeksWithin_of offset rfl (fun _ _ => rfl) id

/-- A sum that leaves loff_t comes back negative and is refused as well. -/
theorem Settled.seekEnd_within (settled : Settled machine entries commands pending lost)
    (file : Nat) {offset : Int} (lower : -2 ^ 63 ≤ offset) (upper : offset < 2 ^ 63) :
    machine.SeeksWithin file offset .seekEnd (offset + commands.flatten.length)
      commands.flatten.length := by
  have total := settled.toLedger.total_lt
  refine settled.seeksWithin_of (loffT (offset + commands.flatten.length)) rfl ?_ ?_
  · intro _ _
    unfold loffT
    rw [Int.bmod_def]
    omega
  · intro beyond
    unfold loffT
    rw [Int.bmod_def]
    omega

/-! ### Reading -/

theorem Settled.read_flat (settled : Settled machine entries commands pending lost)
    {position : Nat} (small : position < 2 ^ 63) (call : ReadCall)
    (here : machine.fPos call.file = (position : Int)) :
    ∃ reply, machine.read call = .ok (reply, machine.setFPos call.file
        ((position + (delivered [reply]).length : Nat) : Int)) ∧
      delivered [reply] <+: commands.flatten.drop position ∧
      position + (delivered [reply]).length < 2 ^ 63 ∧
      FlatAnswer commands.flatten position call reply := by
  have total := settled.toLedger.total_lt
  have front := slice_isPrefix commands position call.count
  have nothing_iff := slice_eq_nil_iff commands position call.count
  have length_le := slice_length_le commands position call.count
  have within := front.length_le
  rw [List.length_drop] at within
  rw [settled.read_eq call, here, readAt, sizeOfLoff_natCast (by omega)]
  generalize slice commands position call.count = bytes at *
  by_cases nothing : bytes = []
  · rw [if_pos nothing]
    refine ⟨⟨0, []⟩, rfl, List.nil_prefix, small, ?_, ?_, ?_⟩
    · intro positive
      exact iff_of_true rfl ((nothing_iff.mp nothing).resolve_left (Nat.ne_of_gt positive))
    · intro positive before _copied
      have past := (nothing_iff.mp nothing).resolve_left (Nat.ne_of_gt positive)
      omega
    · intro impossible
      exact absurd impossible (Int.lt_irrefl 0)
  · have before : ¬commands.flatten.length ≤ position :=
      fun past => nothing (nothing_iff.mpr (Or.inr past))
    have some_byte := List.length_pos_iff.mpr nothing
    rw [if_neg nothing]
    by_cases complete : call.uncopied = 0
    · rw [if_neg (fun impossible => impossible complete)]
      have gathered : delivered [⟨(bytes.length : Int), bytes⟩] = bytes :=
        delivered_succeeded (Int.natCast_nonneg _)
      refine ⟨_, ?_, gathered.symm ▸ front, by rw [gathered]; omega, ?_, ?_, ?_⟩
      · rw [gathered, ← Nat.cast_add, loffT_natCast (by omega)]
      · intro _positive
        refine iff_of_false ?_ before
        change ¬((bytes.length : Int) = 0)
        omega
      · intro _positive _before _copied
        change 1 ≤ (bytes.length : Int) ∧ (bytes.length : Int) ≤ _ ∧ _
        exact ⟨by omega, by omega, rfl⟩
      · intro impossible
        exact absurd impossible (Int.not_lt.mpr (Int.natCast_nonneg _))
    · rw [if_pos complete]
      have gathered : delivered [⟨-efault, bytes.take (bytes.length - call.uncopied)⟩] = [] :=
        delivered_failed (show -efault < 0 by decide)
      refine ⟨_, ?_, gathered.symm ▸ List.nil_prefix, by rw [gathered]; exact small, ?_, ?_, ?_⟩
      · rw [gathered]
        rfl
      · intro _positive
        exact iff_of_false (show ¬(-efault = 0) by decide) before
      · intro _positive _before copied
        exact absurd copied complete
      · intro _failed
        rfl

theorem Settled.reads_flat (settled : Settled machine entries commands pending lost)
    {file position : Nat} (small : position < 2 ^ 63)
    (here : machine.fPos file = (position : Int)) {reads : List ReadCall}
    (same : ∀ call, call ∈ reads → call.file = file) :
    ∃ replies after, runCalls Machine.read machine reads = .ok (replies, after) ∧
      Settled after entries commands pending lost ∧
      delivered replies <+: commands.flatten.drop position ∧
      position + (delivered replies).length < 2 ^ 63 ∧
      after.fPos file = ((position + (delivered replies).length : Nat) : Int) := by
  induction reads generalizing machine position with
  | nil => exact ⟨[], machine, rfl, settled, List.nil_prefix, small, here⟩
  | cons call reads ih =>
      have sameFile := same call List.mem_cons_self
      obtain ⟨reply, made, front, bound, _answer⟩ :=
        settled.read_flat small call (sameFile ▸ here)
      rw [sameFile] at made
      obtain ⟨replies, after, ran, kept, later, reached, moved⟩ :=
        ih (settled.setFPos file _) bound (machine.setFPos_at file _)
          (fun other member => same other (List.mem_cons_of_mem call member))
      obtain ⟨rest, whole⟩ := front
      rw [← List.drop_drop, ← whole, List.drop_left] at later
      refine ⟨reply :: replies, after, runCalls_cons made ran, kept, ?_, ?_, ?_⟩
      · rw [delivered_cons, ← whole]
        exact (List.prefix_append_right_inj _).mpr later
      · rw [delivered_cons, List.length_append, ← Nat.add_assoc]
        exact reached
      · rw [delivered_cons, List.length_append, ← Nat.add_assoc]
        exact moved

theorem Settled.readsFlat (settled : Settled machine entries commands pending lost)
    {file position : Nat} (small : position < 2 ^ 63)
    (here : machine.fPos file = (position : Int)) :
    machine.ReadsFlat file commands.flatten position := by
  intro reads same
  obtain ⟨replies, after, ran, kept, front, bound, moved⟩ := settled.reads_flat small here same
  refine ⟨replies, after, ran, List.prefix_iff_eq_take.mp front, moved, ?_⟩
  intro call sameFile
  obtain ⟨reply, made, _front, _bound, answer⟩ :=
    kept.read_flat bound call (sameFile.symm ▸ moved)
  refine ⟨reply, _, made, answer, ?_⟩
  intro failed
  have nothing : delivered [reply] = [] := delivered_failed (by rw [failed]; decide)
  rw [nothing, sameFile, Machine.setFPos_at, moved]
  rfl

end Flat

namespace Machine

/-- On every device that successful writes can reach, llseek and read see the
stored commands as one string. -/
theorem reads_see_flat_bytes (fPos : Nat → Int) (writes : List WriteCall)
    (succeed : RunMeets Machine.write WriteSucceeds (initialized fPos) writes) :
    ∃ replies machine, runCalls Machine.write (initialized fPos) writes = .ok (replies, machine) ∧
      (∀ file offset, machine.SeeksWithin file offset .seekSet offset
        machine.storedCommands.flatten.length) ∧
      (∀ file offset, -2 ^ 63 ≤ offset → offset < 2 ^ 63 →
        machine.SeeksWithin file offset .seekEnd
          (offset + machine.storedCommands.flatten.length)
          machine.storedCommands.flatten.length) ∧
      ∀ file position, position < 2 ^ 63 →
        (machine.setFPos file (position : Nat)).ReadsFlat file machine.storedCommands.flatten
          position := by
  obtain ⟨machine, ran, ⟨entries, lost, settled⟩, _samePos⟩ :=
    (initialized_remembers fPos).writes succeed
  rw [List.nil_append] at settled
  refine ⟨_, machine, ran, ?_⟩
  rw [settled.toLedger.storedCommands_eq]
  refine ⟨settled.seekSet_within, ?_, ?_⟩
  · intro file offset lower upper
    exact settled.seekEnd_within file lower upper
  · intro file position small
    exact (settled.setFPos file _).readsFlat small (machine.setFPos_at file _)

theorem reads_see_flat_bytes_one_line : ∃ replies machine,
    runCalls Machine.write (initialized fun _ => 0)
        [⟨0, ⟨[97, newline], by decide⟩, ⟨⟨true, fun _ => 0⟩, 0⟩⟩] = .ok (replies, machine) ∧
      ∀ file position, position < 2 ^ 63 →
        (machine.setFPos file (position : Nat)).ReadsFlat file machine.storedCommands.flatten
          position := by
  obtain ⟨replies, machine, ran, _set, _end, flat⟩ :=
    reads_see_flat_bytes (fun _ => 0) [⟨0, ⟨[97, newline], by decide⟩, ⟨⟨true, fun _ => 0⟩, 0⟩⟩]
      ⟨Or.inr ⟨rfl, rfl⟩, fun _ _ _ => True.intro⟩
  exact ⟨replies, machine, ran, flat⟩

end Machine

end Aesd.Driver
