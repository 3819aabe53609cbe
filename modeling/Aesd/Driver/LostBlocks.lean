/-
Kernel memory over any number of lives of the module.

The kernel's memory outlives the module, so a block that the driver loses stays
allocated.  A block is lost exactly by a write whose krealloc is refused; all
others are pointed to by the device, or have been freed.
-/

import Aesd.Driver.ModuleLife

set_option autoImplicit false

namespace Aesd.Driver

open BlockHeap BoundedLoop CallRun KernelMemory RecentWindow AesdCircularBuffer

instance decidableReallocFails (machine : Machine) (bytes : List Byte) (outcome : WriteOutcome) :
    Decidable (machine.reallocFails bytes outcome) :=
  inferInstanceAs (Decidable (_ ∧ _ ∧ _))

/-- A write whose krealloc is refused. -/
def Machine.losesBlock (machine : Machine) : Call → Nat
  | .write call => if machine.reallocFails call.buf.bytes call.outcome then 1 else 0
  | _ => 0

def ModuleHost.losesBlock (host : ModuleHost) : ModuleEvent → Nat
  | .call call => host.machine.losesBlock call
  | _ => 0

/-- So many blocks have been lost; a loaded device keeps its ledger besides. -/
structure Loses (host : ModuleHost) (count : Nat) : Prop where
  living : host.loaded = true → ∃ entries commands pending lost,
    Settled host.machine entries commands pending lost ∧ lost.length = count
  resting : host.loaded = false → ∃ lost, host.machine.heap.Accounts lost ∧ lost.length = count ∧
    host.machine.heap.used < 2 ^ 63

section Steps

variable {host after : ModuleHost} {count : Nat} {reply : Reply}

theorem booted_loses (others : List Nat) (fPos : Nat → Int) :
    Loses (.booted others fPos) 0 where
  living := by
    intro impossible
    cases impossible
  resting := fun _unloaded => ⟨[], Heap.accounts_empty, rfl, Nat.two_pow_pos 63⟩

theorem initModule_machine {outcome : LoadOutcome} {result : Int}
    (made : host.initModule outcome = .ok (result, after)) :
    (result, after.machine) = host.machine.aesdInitModule outcome.region outcome.cdev := by
  unfold ModuleHost.initModule at made
  dsimp only at made
  split at made
  · cases made
    rfl
  · split at made
    · obtain ⟨registered, _withdrawn, same⟩ := ok_of_bind made
      cases same
      rfl
    · cases made
      rfl

/-- A load starts on what the lives before have lost. -/
theorem Loses.insmod (loses : Loses host count) {outcome : LoadOutcome}
    (made : host.step (.insmod outcome) = .ok (reply, after)) : Loses after count := by
  simp only [ModuleHost.step] at made
  split at made
  · cases made
  rename_i free
  have unloaded : host.loaded = false :=
    Bool.eq_false_iff.mpr (fun loaded => free (Or.inl loaded))
  obtain ⟨lost, accounts, length, room⟩ := loses.resting unloaded
  obtain ⟨⟨result, reached⟩, loaded, same⟩ := ok_of_bind made
  cases same
  have machine := initModule_machine loaded
  unfold Machine.aesdInitModule at machine
  split at machine
  · rename_i refused
    obtain ⟨rfl, untouched⟩ := Prod.mk.inj machine
    constructor
    · intro impossible
      exact absurd (of_decide_eq_true impossible) (Int.not_le.mpr refused)
    · intro _unloaded
      change ∃ lost, reached.machine.heap.Accounts lost ∧ _ ∧ reached.machine.heap.used < _
      rw [untouched]
      exact ⟨lost, accounts, length, room⟩
  · obtain ⟨rfl, fresh⟩ := Prod.mk.inj machine
    constructor
    · intro _loaded
      refine ⟨[], [], [], lost, ?_, length⟩
      change Settled reached.machine [] [] [] lost
      rw [fresh]
      exact ⟨⟨init_holds, .nil, Or.inl ⟨rfl, rfl⟩, accounts, List.forall_mem_nil _,
        Nat.two_pow_pos 62, room⟩, rfl⟩
    · intro _unloaded
      change ∃ lost, reached.machine.heap.Accounts lost ∧ _ ∧ reached.machine.heap.used < _
      rw [fresh]
      exact ⟨lost, accounts, length, room⟩

/-- The exit frees all but what was lost. -/
theorem Loses.rmmod (loses : Loses host count) (made : host.step .rmmod = .ok (reply, after)) :
    Loses after count := by
  simp only [ModuleHost.step] at made
  split at made
  · cases made
  rename_i free
  have loaded : host.loaded = true := not_not.mp (fun unloaded => free (Or.inl unloaded))
  obtain ⟨entries, commands, pending, lost, settled, length⟩ := loses.living loaded
  obtain ⟨cleaned, ran, accounts⟩ := settled.toLedger.cleanup_spec
  have less := (aesdCleanupModule_freed ran).1
  obtain ⟨reached, exits, same⟩ := ok_of_bind made
  cases same
  simp only [ModuleHost.cleanupModule, ran, ok_bind] at exits
  obtain ⟨cdevs, _deleted, exits⟩ := ok_of_bind exits
  obtain ⟨registered, _withdrawn, same⟩ := ok_of_bind exits
  cases same
  constructor
  · intro impossible
    cases impossible
  · exact fun _unloaded => ⟨lost, accounts, length, Nat.lt_of_le_of_lt less settled.room⟩

/-- Only a write touches the kernel's memory. -/
theorem Settled.call_lost {machine reached : Machine} {entries : List AesdBufferEntry}
    {commands : List (List Byte)} {pending : List Byte} {lost : List Nat}
    (settled : Settled machine entries commands pending lost) {call : Call}
    (made : machine.call call = .ok (reply, reached)) :
    ∃ entries commands pending leftover, Settled reached entries commands pending leftover ∧
      leftover.length = lost.length + machine.losesBlock call := by
  cases call with
  | write call =>
      obtain ⟨written, added, leftover, same, kept, effect⟩ := settled.write_spec call
      have same : machine.call (.write call) = .ok (_, written) := same
      rw [made] at same
      cases same
      refine ⟨added, _, _, leftover, kept, ?_⟩
      rcases effect.blocks with ⟨granted, unchanged⟩ | ⟨refused, block, _pointer, more⟩
      · rw [unchanged, Machine.losesBlock, if_neg granted]
        rfl
      · rw [more, Machine.losesBlock, if_pos refused]
        rfl
  | read call =>
      have same : machine.call (.read call) = .ok _ := settled.read_eq call
      rw [made] at same
      cases same
      exact ⟨_, _, _, lost, settled.setFPos call.file _, rfl⟩
  | llseek file offset whence =>
      obtain ⟨ret, fPos, same⟩ := settled.call_llseek file offset whence
      rw [made] at same
      cases same
      exact ⟨_, _, _, lost, settled.setFPos file fPos, rfl⟩
  | ioctl file cmd arg uncopied =>
      simp only [Machine.call] at made
      obtain ⟨⟨ret, moved⟩, result, same⟩ := ok_of_bind made
      cases same
      rcases Machine.unlockedIoctl_moves result with rfl | ⟨_zero, fPos, rfl⟩
      · exact ⟨_, _, _, lost, settled, rfl⟩
      · exact ⟨_, _, _, lost, settled.setFPos file fPos, rfl⟩

theorem Loses.step {event : ModuleEvent} (loses : Loses host count)
    (made : host.step event = .ok (reply, after)) :
    Loses after (count + host.losesBlock event) := by
  cases event with
  | insmod outcome => exact loses.insmod made
  | rmmod => exact loses.rmmod made
  | openFile file =>
      simp only [ModuleHost.step] at made
      split at made <;> cases made
      constructor
      · intro loaded
        obtain ⟨entries, commands, pending, lost, settled, length⟩ := loses.living loaded
        exact ⟨entries, commands, pending, lost, settled.setFPos file 0, length⟩
      · exact loses.resting
  | release file =>
      simp only [ModuleHost.step] at made
      split at made <;> cases made
      exact ⟨loses.living, loses.resting⟩
  | call call =>
      simp only [ModuleHost.step] at made
      split at made
      · cases made
      rename_i free
      have loaded : host.loaded = true := not_not.mp (fun unloaded => free (Or.inl unloaded))
      cases called : host.machine.call call with
      | error fault =>
          rw [called] at made
          cases made
      | ok answer =>
          rw [called] at made
          cases made
          obtain ⟨entries, commands, pending, lost, settled, length⟩ := loses.living loaded
          obtain ⟨added, stored, begun, leftover, kept, grown⟩ := settled.call_lost called
          constructor
          · intro _loaded
            refine ⟨added, stored, begun, leftover, kept, ?_⟩
            rw [grown, length]
            rfl
          · intro unloaded
            exact absurd (loaded.symm.trans unloaded) Bool.true_eq_false.mp

end Steps

/-- In every sequence of lives of the module the blocks that are allocated are
those the loaded device points to and those that were lost, one for each write
whose krealloc was refused. -/
theorem lost_blocks_counted (others : List Nat) (fPos : Nat → Int) (events : List ModuleEvent)
    (replies : List Reply) (host : ModuleHost)
    (ran : (ModuleHost.booted others fPos).run events = .ok (replies, host)) :
    ∃ lost : List Nat, lost.Nodup ∧
      lost.length = tally ModuleHost.step ModuleHost.losesBlock (.booted others fPos) events ∧
      (host.loaded = true → ∀ block, block ∈ lost → block ∉ host.machine.pointers) ∧
      ∀ block, host.machine.heap.block block ≠ none ↔
        (host.loaded = true ∧ block ∈ host.machine.pointers) ∨ block ∈ lost := by
  have one : ∀ host event reply after count, Loses host count →
      ModuleHost.step host event = .ok (reply, after) →
      Loses after (count + host.losesBlock event) :=
    fun _host _event _reply _after _count loses made => loses.step made
  have loses : Loses host (0 + tally ModuleHost.step ModuleHost.losesBlock
      (.booted others fPos) events) := runCalls_tally _ 0 one (booted_loses others fPos) ran
  rw [Nat.zero_add] at loses
  cases loaded : host.loaded with
  | false =>
      obtain ⟨lost, accounts, length, _room⟩ := loses.resting loaded
      refine ⟨lost, accounts.distinct, length, ?_, ?_⟩
      · intro impossible
        cases impossible
      · intro block
        rw [accounts.complete block]
        exact (or_iff_right (fun both => Bool.false_ne_true both.1)).symm
  | true =>
      obtain ⟨entries, commands, pending, lost, settled, length⟩ := loses.living loaded
      have ledger := settled.toLedger
      have pointed : ∀ block, block ∈ host.machine.pointers ↔
          block ∈ references entries host.machine.dev.currentEntry :=
        fun _block => ledger.pointers_perm.mem_iff
      refine ⟨lost, List.Nodup.of_append_right ledger.accounts.distinct, length, ?_, ?_⟩
      · intro _loaded block isLost isPointed
        exact (List.disjoint_of_nodup_append ledger.accounts.distinct)
          ((pointed block).mp isPointed) isLost
      · intro block
        rw [ledger.accounts.complete block, List.mem_append, pointed, and_iff_right rfl]

/-- A load, an open, a byte, a refused krealloc, a release and an unload. -/
def lifeWithLoss : List ModuleEvent :=
  [.insmod ⟨0, 1, 0, by decide, by decide⟩, .openFile 0,
    .call (.write ⟨0, ⟨[97], by decide⟩, ⟨⟨true, fun _ => 0⟩, 0⟩⟩),
    .call (.write ⟨0, ⟨[98], by decide⟩, ⟨⟨false, fun _ => 0⟩, 0⟩⟩), .release 0, .rmmod]

theorem lost_blocks_counted_one : ∃ replies host, ∃ lost : List Nat,
    (ModuleHost.booted [] fun _ => 0).run lifeWithLoss = .ok (replies, host) ∧
      host.loaded = false ∧ lost.length = 1 ∧
      ∀ block, host.machine.heap.block block ≠ none ↔ block ∈ lost := by
  have computed : ((ModuleHost.booted [] fun _ => 0).run lifeWithLoss).map
      (fun result => result.2.loaded) = .ok false := by decide +kernel
  have weight : tally ModuleHost.step ModuleHost.losesBlock (.booted [] fun _ => 0)
      lifeWithLoss = 1 := by decide +kernel
  obtain ⟨⟨replies, host⟩, ran, unloaded⟩ := ok_of_map computed
  obtain ⟨lost, _distinct, length, _apart, all⟩ :=
    lost_blocks_counted [] (fun _ => 0) lifeWithLoss replies host ran
  have unloaded : host.loaded = false := unloaded
  refine ⟨replies, host, lost, ran, unloaded, length.trans weight, ?_⟩
  intro block
  rw [all block, unloaded]
  exact or_iff_right (fun both => Bool.false_ne_true both.1)

end Aesd.Driver
