/-
Reading while others write.

The log of a store is everything that was ever completed; what is visible is
its end.  A position counts from the start of what is visible, so every command
that makes room moves each reader forward in the log.  A file that is only read
gets bytes of the log in their order and none twice, and it misses at most as
many as have made room.
-/

import Aesd.Driver.CommandStore

set_option autoImplicit false

namespace Aesd.Driver

open BlockHeap BoundedLoop CallRun KernelMemory RecentWindow SegmentedBytes

namespace CommandStore

def log (store : CommandStore) : List Byte := store.completed.flatten

/-- The number of bytes in front of the visible ones. -/
def evicted (store : CommandStore) : Nat := (store.completed.take store.dropped).flatten.length

theorem visible_flatten (store : CommandStore) :
    store.visible.flatten = store.log.drop store.evicted := by
  have split := congrArg List.flatten (List.take_append_drop store.dropped store.completed)
  rw [List.flatten_append] at split
  rw [log, ← split, evicted, List.drop_left]
  rfl

/-- Completing a command extends the log, and what made room stays dropped. -/
theorem log_concat (store : CommandStore) (command pending : List Byte) :
    store.log <+: (⟨store.completed ++ [command], pending, store.fPos⟩ : CommandStore).log ∧
      store.evicted ≤
        (⟨store.completed ++ [command], pending, store.fPos⟩ : CommandStore).evicted := by
  constructor
  · exact ⟨command, by rw [log, log, List.flatten_append, List.flatten_singleton]⟩
  · have more : store.dropped ≤
        (store.completed ++ [command]).length - aesdcharMaxWriteOperationsSupported := by
      rw [List.length_append]
      exact Nat.sub_le_sub_right (Nat.le_add_right _ _) _
    have inside : store.dropped ≤ store.completed.length := Nat.sub_le _ _
    have front : store.completed.take store.dropped <+:
        (store.completed ++ [command]).take
          ((store.completed ++ [command]).length - aesdcharMaxWriteOperationsSupported) := by
      have same : (store.completed ++ [command]).take store.dropped =
          store.completed.take store.dropped := List.take_append_of_le_length inside
      rw [← same]
      exact List.take_prefix_take_left more
    obtain ⟨rest, same⟩ := front
    change _ ≤ ((store.completed ++ [command]).take
      ((store.completed ++ [command]).length - _)).flatten.length
    rw [← same, List.flatten_append, List.length_append]
    exact Nat.le_add_right _ _

end CommandStore

/-- The call does not position the file; a write never does. -/
def Call.LeavesPosition (file : Nat) : Call → Prop
  | .write _ => True
  | .read _ => True
  | .llseek other _ _ => other ≠ file
  | .ioctl other _ _ _ => other ≠ file

/-- What a successful read of the file returned. -/
def receivedBy (file : Nat) : Call → Reply → List Byte
  | .read call, reply => if call.file = file ∧ 0 ≤ reply.ret then reply.data else []
  | _, _ => []

/-- What the file's reader got in a run. -/
def received (file : Nat) (calls : List Call) (replies : List Reply) : List Byte :=
  (List.zipWith (receivedBy file) calls replies).flatten

theorem received_concat (file : Nat) {calls : List Call} {replies : List Reply}
    (sameLength : calls.length = replies.length) (call : Call) (reply : Reply) :
    received file (calls ++ [call]) (replies ++ [reply]) =
      received file calls replies ++ receivedBy file call reply := by
  rw [received, List.zipWith_append sameLength, List.flatten_append]
  exact congrArg (received file calls replies ++ ·) (List.append_nil _)

/-- The reader stands behind `got`, which it picked from the log. -/
structure Tails (store : CommandStore) (file : Nat) (got : List Byte) : Prop where
  position : store.fPos file = (got.length : Int)
  small : got.length < 2 ^ 63
  picked : got.Sublist (store.log.take (store.evicted + got.length))

namespace Tails

variable {store : CommandStore} {file : Nat} {got : List Byte}

theorem later (tails : Tails store file got) {after : CommandStore}
    (samePos : after.fPos file = store.fPos file) (extends' : store.log <+: after.log)
    (more : store.evicted ≤ after.evicted) : Tails after file got where
  position := samePos.trans tails.position
  small := tails.small
  picked := by
    obtain ⟨added, same⟩ := extends'
    apply tails.picked.trans
    rw [← same]
    have front : store.log.take (store.evicted + got.length) <+:
        (store.log ++ added).take (store.evicted + got.length) := by
      rw [List.take_append]
      exact List.prefix_append _ _
    exact (front.trans (List.take_prefix_take_left (Nat.add_le_add_right more _))).sublist

theorem write (tails : Tails store file got) (granted : Bool) (call : WriteCall) :
    Tails (store.write granted call).2 file got := by
  unfold CommandStore.write
  dsimp only
  split_ifs
  · exact tails
  · exact tails.later rfl (List.prefix_refl _) (le_refl _)
  · exact tails.later rfl (List.prefix_refl _) (le_refl _)
  · obtain ⟨extended, more⟩ := store.log_concat (store.pending ++ call.buf.bytes) []
    exact tails.later rfl extended more
  · exact tails.later rfl (List.prefix_refl _) (le_refl _)

theorem reposition (tails : Tails store file got) (other : Nat) {fPos : Int}
    (stays : Function.update store.fPos other fPos file = store.fPos file) :
    Tails (store.setFPos other fPos) file got where
  position := stays.trans tails.position
  small := tails.small
  picked := tails.picked

theorem other_position (tails : Tails store file got) {other : Nat} (different : other ≠ file)
    (fPos : Int) : Tails (store.setFPos other fPos) file got :=
  tails.reposition other (Function.update_of_ne different.symm fPos store.fPos)

theorem here (tails : Tails store file got) : sizeOfLoff (store.fPos file) = got.length := by
  have small := tails.small
  rw [tails.position]
  exact sizeOfLoff_natCast (by omega)

/-- What comes next in the log is what a read of the file finds. -/
theorem next (tails : Tails store file got) (count : Nat) :
    slice store.visible (sizeOfLoff (store.fPos file)) count <+:
        store.log.drop (store.evicted + got.length) ∧
      (slice store.visible (sizeOfLoff (store.fPos file)) count = [] ↔
        count = 0 ∨ store.log.length ≤ store.evicted + got.length) := by
  rw [tails.here]
  constructor
  · have front := slice_isPrefix store.visible got.length count
    rw [store.visible_flatten, List.drop_drop] at front
    exact front
  · rw [slice_eq_nil_iff, store.visible_flatten, List.length_drop]
    omega

theorem taken (tails : Tails store file got) {bytes : List Byte}
    (front : bytes <+: store.log.drop (store.evicted + got.length))
    (bound : got.length + bytes.length < 2 ^ 63) :
    Tails (store.setFPos file ((got.length + bytes.length : Nat) : Int)) file (got ++ bytes) where
  position := by
    rw [List.length_append]
    exact Function.update_self ..
  small := by
    rw [List.length_append]
    exact bound
  picked := by
    obtain ⟨rest, same⟩ := front
    have further : store.log.take (store.evicted + (got ++ bytes).length) =
        store.log.take (store.evicted + got.length) ++ bytes := by
      rw [List.length_append, ← Nat.add_assoc, List.take_add, ← same, List.take_left]
    change (got ++ bytes).Sublist (store.log.take (store.evicted + (got ++ bytes).length))
    rw [further]
    exact tails.picked.append (List.Sublist.refl bytes)

theorem read (tails : Tails store file got) (room : store.visible.flatten.length < 2 ^ 63)
    (call : ReadCall) :
    Tails (store.read call).2 file (got ++ receivedBy file (.read call) (store.read call).1) := by
  by_cases mine : call.file = file
  · subst mine
    obtain ⟨front, nothing⟩ := tails.next call.count
    have still := tails.reposition call.file (Function.update_self ..)
    simp only [CommandStore.read, receivedBy, readAt, true_and]
    by_cases empty : slice store.visible (sizeOfLoff (store.fPos call.file)) call.count = []
    · simp only [if_pos empty, le_refl, if_true, List.append_nil]
      exact still
    · by_cases partly : call.uncopied ≠ 0
      · have failed : ¬(0 : Int) ≤ -efault := by decide
        simp only [if_neg empty, if_pos partly, if_neg failed, List.append_nil]
        exact still
      · simp only [if_neg empty, if_neg partly, Int.natCast_nonneg, if_true]
        have lengths := front.length_le
        have total := congrArg List.length store.visible_flatten
        rw [List.length_drop] at lengths total
        have inside : store.evicted + got.length < store.log.length := by
          by_contra beyond
          exact empty (nothing.mpr (Or.inr (Nat.le_of_not_lt beyond)))
        have bound : got.length + (slice store.visible (sizeOfLoff (store.fPos call.file))
            call.count).length < 2 ^ 63 := by omega
        have moved := tails.taken front bound
        rw [← loffT_natCast bound, Nat.cast_add, ← tails.here] at moved
        exact moved
  · have nothing : receivedBy file (.read call) (store.read call).1 = [] :=
      if_neg (fun both => mine both.1)
    rw [nothing, List.append_nil]
    exact tails.other_position mine _

end Tails

theorem CommandStore.ioctl_moves {store after : CommandStore} {file cmd uncopied : Nat}
    {arg : AesdSeekto} {ret : Int}
    (sought : store.ioctl file cmd arg uncopied = .ok (ret, after)) :
    after = store ∨ ∃ fPos, after = store.setFPos file fPos := by
  unfold CommandStore.ioctl at sought
  split at sought
  · split at sought
    · cases sought
      exact Or.inl rfl
    · unfold CommandStore.seekto at sought
      split at sought
      · cases sought
        exact Or.inl rfl
      · dsimp only at sought
        split at sought
        · cases sought
        · split at sought
          · cases sought
            exact Or.inr ⟨_, rfl⟩
          · cases sought
            exact Or.inl rfl
  · cases sought
    exact Or.inl rfl

/-- One call of a run that leaves the file's position to its reads. -/
theorem Tails.call {store after : CommandStore} {file : Nat} {got : List Byte}
    (tails : Tails store file got) (room : store.visible.flatten.length < 2 ^ 63)
    {granted : Bool} {call : Call} (leaves : call.LeavesPosition file) {reply : Reply}
    (made : store.call (granted, call) = .ok (reply, after)) :
    Tails after file (got ++ receivedBy file call reply) := by
  cases call with
  | write call =>
      have same : store.write granted call = (reply, after) := Except.ok.inj made
      have kept := tails.write granted call
      rw [same] at kept
      change Tails after file (got ++ [])
      rw [List.append_nil]
      exact kept
  | read call =>
      have same : store.read call = (reply, after) := Except.ok.inj made
      have kept := tails.read room call
      rw [same] at kept
      exact kept
  | llseek other offset whence =>
      cases made
      change Tails _ file (got ++ [])
      rw [List.append_nil]
      exact tails.other_position leaves _
  | ioctl other cmd arg uncopied =>
      change Tails _ file (got ++ [])
      rw [List.append_nil]
      obtain ⟨⟨ret, reached⟩, sought, same⟩ := ok_of_bind made
      cases same
      rcases CommandStore.ioctl_moves sought with rfl | ⟨fPos, rfl⟩
      · exact tails
      · exact tails.other_position leaves fPos

theorem readAt_complete (commands : List (List Byte)) (position : Int) (count : Nat) :
    (readAt commands position count 0).1.data = slice commands (sizeOfLoff position) count := by
  unfold readAt
  dsimp only
  split
  · rename_i nothing
    exact nothing.symm
  · rfl

/-- The calls so far, as the store has answered them. -/
structure Followed (fPos : Nat → Int) (file : Nat) (machine : Machine) (calls : List Call)
    (replies : List Reply) (requests : List (Bool × Call)) (store : CommandStore) : Prop where
  sameCalls : requests.map Prod.snd = calls
  sameLength : calls.length = replies.length
  ran : (CommandStore.empty fPos).run requests = .ok (replies, store)
  refines : Refines machine store
  tails : Tails store file (received file calls replies)

theorem Followed.step {fPos : Nat → Int} {file : Nat} {machine after : Machine}
    {calls : List Call} {replies : List Reply} {requests : List (Bool × Call)}
    {store : CommandStore} (followed : Followed fPos file machine calls replies requests store)
    {call : Call} (leaves : call.LeavesPosition file) {reply : Reply}
    (made : machine.call call = .ok (reply, after)) :
    ∃ requests store,
      Followed fPos file after (calls ++ [call]) (replies ++ [reply]) requests store := by
  obtain ⟨⟨granted, same⟩, rfl, alike⟩ := followed.refines.call call
  rw [made] at alike
  obtain ⟨reached, answered, refines⟩ := alike.of_ok
  obtain ⟨entries, lost, settled⟩ := followed.refines.settled
  refine ⟨requests ++ [(granted, same)], reached, ?_, ?_, ?_, refines, ?_⟩
  · rw [List.map_append, followed.sameCalls]
    rfl
  · rw [List.length_append, List.length_append, followed.sameLength]
    rfl
  · exact runCalls_append followed.ran (runCalls_cons answered rfl)
  · rw [received_concat file followed.sameLength]
    exact followed.tails.call settled.toLedger.total_lt leaves answered

/-- A file that is opened at 0 and then only read gets bytes of the log, in
their order and none twice; what it misses has made room for newer commands.
As long as nothing has, it gets the log from its start on. -/
theorem Machine.readers_follow_log (fPos : Nat → Int) (file : Nat) (opened : fPos file = 0)
    (calls : List Call) (leaves : ∀ call, call ∈ calls → call.LeavesPosition file)
    (replies : List Reply) (machine : Machine)
    (ran : (initialized fPos).run calls = .ok (replies, machine)) :
    ∃ requests store, requests.map Prod.snd = calls ∧
      (CommandStore.empty fPos).run requests = .ok (replies, store) ∧
      machine.fPos file = ((received file calls replies).length : Int) ∧
      (received file calls replies).Sublist
        (store.log.take (store.evicted + (received file calls replies).length)) ∧
      (store.dropped = 0 → received file calls replies <+: store.log) ∧
      ∀ count, 0 < count → ∃ reply after, machine.read ⟨file, count, 0⟩ = .ok (reply, after) ∧
        reply.data <+: store.log.drop (store.evicted + (received file calls replies).length) ∧
        (reply.data = [] ↔
          store.log.length ≤ store.evicted + (received file calls replies).length) := by
  let Known (machine : Machine) (calls : List Call) (replies : List Reply) : Prop :=
    ∃ requests store, Followed fPos file machine calls replies requests store
  have one : ∀ machine calls replies call reply after, Known machine calls replies →
      call.LeavesPosition file → machine.call call = .ok (reply, after) →
      Known after (calls ++ [call]) (replies ++ [reply]) := by
    rintro machine calls replies call reply after ⟨requests, store, followed⟩ leaves made
    exact followed.step leaves made
  have start : Known (initialized fPos) [] [] :=
    ⟨[], .empty fPos, rfl, rfl, rfl, initialized_refines fPos,
      ⟨opened, Nat.two_pow_pos 63, List.Sublist.refl _⟩⟩
  obtain ⟨requests, store, followed⟩ := runCalls_traces [] [] one start
    (runMeets_of_forall (fun _machine call member => leaves call member) _) ran
  obtain ⟨sameCalls, _sameLength, matched, refines, tails⟩ := followed
  obtain ⟨entries, lost, settled⟩ := refines.settled
  refine ⟨requests, store, sameCalls, matched, ?_, tails.picked, ?_, ?_⟩
  · rw [refines.samePos]
    exact tails.position
  · intro nothing
    have all := tails.picked
    rw [CommandStore.evicted, nothing, List.take_zero, List.flatten_nil, List.length_nil,
      Nat.zero_add] at all
    have whole := all.eq_of_length_le (List.length_take_le _ _)
    exact whole ▸ List.take_prefix _ _
  · intro count positive
    obtain ⟨front, nothing⟩ := tails.next count
    have made := settled.read_eq ⟨file, count, 0⟩
    rw [refines.samePos] at made
    refine ⟨_, _, made, ?_⟩
    rw [readAt_complete]
    exact ⟨front, nothing.trans (or_iff_right (Nat.ne_of_gt positive))⟩

namespace Machine

/-- A writer that fills the ring and one command more, with a reader between. -/
def overtaken : List Call :=
  let line (byte : Byte) : Call := .write ⟨1, ⟨[byte, newline], by simp⟩, ⟨⟨true, fun _ => 0⟩, 0⟩⟩
  (List.replicate 10 (line 97)) ++ [.read ⟨0, 2, 0⟩, line 98, .read ⟨0, 2, 0⟩]

/-- When the oldest command goes, the reader has read it and misses the next one. -/
theorem readers_follow_log_overtaken : ∃ replies machine requests store,
    (initialized fun _ => 0).run overtaken = .ok (replies, machine) ∧
      (CommandStore.empty fun _ => 0).run requests = .ok (replies, store) ∧
      machine.fPos 0 = 4 ∧
      [97, newline, 97, newline].Sublist (store.log.take (store.evicted + 4)) := by
  have computed : ((initialized fun _ => 0).run overtaken).map
      (fun result => received 0 overtaken result.1) = .ok [97, newline, 97, newline] := by
    decide +kernel
  obtain ⟨⟨replies, machine⟩, ran, shown⟩ := ok_of_map computed
  have leaves : ∀ call, call ∈ overtaken → call.LeavesPosition 0 := by
    intro call member
    simp only [overtaken, List.mem_append, List.mem_replicate, List.mem_cons,
      List.not_mem_nil, or_false] at member
    rcases member with ⟨_count, rfl⟩ | rfl | rfl | rfl <;> exact True.intro
  obtain ⟨requests, store, _same, matched, position, picked, _rest⟩ :=
    readers_follow_log (fun _ => 0) 0 rfl overtaken leaves replies machine ran
  dsimp only at shown
  rw [shown] at position picked
  exact ⟨replies, machine, requests, store, ran, matched, position, picked⟩

end Machine

end Aesd.Driver
