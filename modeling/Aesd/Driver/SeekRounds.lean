/-
Seeks beside reads and writes that are under way.

A seek takes no lock.  Its checks and the rounds of its walk may come in between
any two steps of the reads and writes, also where one of these has the ring half
way through a change.  Reads and writes run as they would without the seeks; a
seek ends after its own steps and one more for each time `out_offs` moves on
beside it, and it leaves the array only where its lookup does.
-/

import Aesd.Driver.ConcurrentCalls
import Aesd.Driver.SeekInterleaving
import Aesd.UnlockedSteps

set_option autoImplicit false

namespace Aesd.Driver

open BoundedLoop CallRun LockedSections UnlockedSteps AesdCircularBuffer

/-- The first step of a seek. -/
def SeekRequest.begin : SeekRequest → SeekPhase
  | .seekto writeCmd writeCmdOffset => .checkCount writeCmd writeCmdOffset
  | .seekEnd offset => .enterSum offset

section Seekers

variable {Thread Seeker : Type} [DecidableEq Thread] [DecidableEq Seeker]

/-- The next step of one of the seeks, each on its own file. -/
def Machine.seekStep (file : Seeker → Nat) (seeker : Seeker) (phases : Seeker → SeekPhase)
    (machine : Machine) : Except Fault ((Seeker → SeekPhase) × Machine) := do
  let (machine, phase) ← machine.advance (file seeker) (phases seeker)
  return (Function.update phases seeker phase, machine)

/-- Reads, writes and seeks, one step after another. -/
abbrev Machine.busyStep (file : Seeker → Nat) :
    Mixed Thread Machine Request Phase (Seeker → SeekPhase) →
      MixedEvent Thread Request Seeker →
        Except (Halt Fault) (Option (LockedSections.Reply Thread Request Returned) ×
          Mixed Thread Machine Request Phase (Seeker → SeekPhase)) :=
  mixedStep Machine.lockedCalls (Machine.seekStep file)

end Seekers

/-- The steps that this seek makes. -/
def seeks {Thread Seeker : Type} [DecidableEq Seeker] (seeker : Seeker)
    (_mixed : Mixed Thread Machine Request Phase (Seeker → SeekPhase)) :
    MixedEvent Thread Request Seeker → Nat
  | .locked _event => 0
  | .unlocked other => if other = seeker then 1 else 0

/-- A write on a full ring is about to move `out_offs` on. -/
def Phase.recycles : Phase → Nat
  | .moveOut _args entryCount =>
      if entryCount < aesdcharMaxWriteOperationsSupported then 0 else 1
  | _ => 0

/-- The steps that move `out_offs` on. -/
def recycled {Thread Seeker : Type}
    (mixed : Mixed Thread Machine Request Phase (Seeker → SeekPhase)) :
    MixedEvent Thread Request Seeker → Nat
  | .locked (.work thread) =>
      match mixed.world.place thread with
      | .inside _request phase => phase.recycles
      | _ => 0
  | _ => 0

/-! ### What is left of a seek -/

/-- The rounds that a walk at this slot still makes while `out_offs` stays. -/
def AesdCircularBuffer.roundsLeft (buffer : AesdCircularBuffer) (index : Nat) : Nat :=
  (buffer.outOffs + (aesdcharMaxWriteOperationsSupported - 1) - index) %
    aesdcharMaxWriteOperationsSupported + 1

/-- The steps that a seek still takes at most while `out_offs` stays. -/
def SeekPhase.stepsLeft (buffer : AesdCircularBuffer) : SeekPhase → Nat
  | .checkCount _ _ => aesdcharMaxWriteOperationsSupported + 3
  | .lookUp _ _ => aesdcharMaxWriteOperationsSupported + 2
  | .enterWalk _ _ => aesdcharMaxWriteOperationsSupported + 1
  | .walk _ _ _ index => buffer.roundsLeft index + 1
  | .assign _ => 1
  | .enterSum _ => aesdcharMaxWriteOperationsSupported + 1
  | .sum _ _ index => buffer.roundsLeft index + 1
  | .setEnd _ _ => 1
  | .returned _ => 0

/-- The slots that the seek has in hand are slots of the array. -/
def SeekPhase.Inside : SeekPhase → Prop
  | .enterWalk entry _ => entry < aesdcharMaxWriteOperationsSupported
  | .walk entry _ _ index =>
      entry < aesdcharMaxWriteOperationsSupported ∧ index < aesdcharMaxWriteOperationsSupported
  | .sum _ _ index => index < aesdcharMaxWriteOperationsSupported
  | _ => True

section Rounds

variable {machine : Machine} {buffer after : AesdCircularBuffer} {entry index : Nat}

theorem roundsLeft_next (outLt : buffer.outOffs < aesdcharMaxWriteOperationsSupported)
    (inside : index < aesdcharMaxWriteOperationsSupported)
    (onward : (index + 1) % aesdcharMaxWriteOperationsSupported ≠ buffer.outOffs) :
    buffer.roundsLeft ((index + 1) % aesdcharMaxWriteOperationsSupported) + 1 =
      buffer.roundsLeft index := by
  unfold roundsLeft
  simp only [aesdcharMaxWriteOperationsSupported] at outLt inside onward ⊢
  omega

theorem roundsLeft_start (buffer : AesdCircularBuffer) :
    buffer.roundsLeft buffer.outOffs = aesdcharMaxWriteOperationsSupported := by
  unfold roundsLeft
  simp only [aesdcharMaxWriteOperationsSupported]
  omega

/-- Where `out_offs` moves on, the walk gets longer by one round at most. -/
theorem roundsLeft_moved (outLt : buffer.outOffs < aesdcharMaxWriteOperationsSupported)
    (moved : after.outOffs = (buffer.outOffs + 1) % aesdcharMaxWriteOperationsSupported)
    (inside : index < aesdcharMaxWriteOperationsSupported) :
    after.roundsLeft index ≤ buffer.roundsLeft index + 1 := by
  unfold roundsLeft
  rw [moved]
  simp only [aesdcharMaxWriteOperationsSupported] at outLt inside ⊢
  omega

/-- One round of the walk comes to an end or goes to the next slot. -/
theorem walkRound_cases (outLt : machine.dev.buffer.outOffs < aesdcharMaxWriteOperationsSupported)
    (entryOffset posBytes : Nat) (entryInside : entry < aesdcharMaxWriteOperationsSupported)
    (inside : index < aesdcharMaxWriteOperationsSupported) :
    ∃ phase, machine.walkRound entry entryOffset posBytes index = .ok phase ∧ phase.Inside ∧
      phase.stepsLeft machine.dev.buffer ≤ machine.dev.buffer.roundsLeft index := by
  have positive : 1 ≤ machine.dev.buffer.roundsLeft index := Nat.succ_pos _
  obtain ⟨found, here, _size⟩ := entryAt_slotSize machine.dev.buffer entryInside
  obtain ⟨visited, there, _size⟩ := entryAt_slotSize machine.dev.buffer inside
  unfold Machine.walkRound ringRound
  by_cases same : index = entry
  · by_cases beyond : entryOffset ≥ found.size
    · have visits : machine.dev.buffer.fposVisit entry entryOffset posBytes index =
          .ok (.leave none) := by
        simp only [fposVisit, if_pos same, here, ok_bind, if_pos beyond]
        rfl
      simp only [visits, ok_bind]
      exact ⟨_, rfl, True.intro, Nat.zero_le _⟩
    · have visits : machine.dev.buffer.fposVisit entry entryOffset posBytes index =
          .ok (.leave (some (sizeT (posBytes + entryOffset)))) := by
        simp only [fposVisit, if_pos same, here, ok_bind, if_neg beyond]
        rfl
      simp only [visits, ok_bind]
      exact ⟨_, rfl, True.intro, positive⟩
  · have visits : machine.dev.buffer.fposVisit entry entryOffset posBytes index =
        .ok (.next (sizeT (posBytes + visited.size))) := by
      simp only [fposVisit, if_neg same, there, ok_bind]
      rfl
    simp only [visits]
    by_cases onward : (index + 1) % aesdcharMaxWriteOperationsSupported ≠
        machine.dev.buffer.outOffs
    · rw [if_pos onward]
      refine ⟨_, rfl, ⟨entryInside, Nat.mod_lt _ (by decide)⟩, ?_⟩
      exact Nat.le_of_eq (roundsLeft_next outLt inside onward)
    · rw [if_neg onward]
      exact ⟨_, rfl, True.intro, Nat.zero_le _⟩

theorem sumRound_cases (outLt : machine.dev.buffer.outOffs < aesdcharMaxWriteOperationsSupported)
    (offset : Int) (size : Nat) (inside : index < aesdcharMaxWriteOperationsSupported) :
    ∃ phase, machine.sumRound offset size index = .ok phase ∧ phase.Inside ∧
      phase.stepsLeft machine.dev.buffer ≤ machine.dev.buffer.roundsLeft index := by
  have positive : 1 ≤ machine.dev.buffer.roundsLeft index := Nat.succ_pos _
  obtain ⟨visited, there, _size⟩ := entryAt_slotSize machine.dev.buffer inside
  have visits : machine.dev.buffer.sizeVisit size index =
      .ok (.next (sizeT (size + visited.size))) := by
    simp only [sizeVisit, there, ok_bind]
    rfl
  unfold Machine.sumRound ringRound
  simp only [visits]
  by_cases onward : (index + 1) % aesdcharMaxWriteOperationsSupported ≠
      machine.dev.buffer.outOffs
  · rw [if_pos onward]
    exact ⟨_, rfl, Nat.mod_lt _ (by decide), Nat.le_of_eq (roundsLeft_next outLt inside onward)⟩
  · rw [if_neg onward]
    exact ⟨_, rfl, True.intro, positive⟩

end Rounds

/-- A step of the seek takes one off, or its lookup leaves the array. -/
theorem advance_cases {machine : Machine} {phase : SeekPhase}
    (outLt : machine.dev.buffer.outOffs < aesdcharMaxWriteOperationsSupported)
    (inside : phase.Inside) (file : Nat) :
    (∃ slot, machine.advance file phase = .error (.entryIndex slot) ∧
      aesdcharMaxWriteOperationsSupported ≤ slot) ∨
    ∃ fPos following, machine.advance file phase = .ok ({ machine with fPos }, following) ∧
      following.Inside ∧
      following.stepsLeft machine.dev.buffer ≤ phase.stepsLeft machine.dev.buffer - 1 := by
  cases phase with
  | checkCount writeCmd writeCmdOffset =>
      by_cases absent : writeCmd ≥ machine.dev.buffer.getCount
      · simp only [Machine.advance, if_pos absent]
        exact Or.inr ⟨machine.fPos, _, rfl, True.intro, Nat.zero_le _⟩
      · simp only [Machine.advance, if_neg absent]
        exact Or.inr ⟨machine.fPos, _, rfl, True.intro, Nat.le_refl _⟩
  | lookUp writeCmd writeCmdOffset =>
      by_cases within : machine.seekEntry writeCmd < aesdcharMaxWriteOperationsSupported
      · obtain ⟨entry, found, _size⟩ := entryAt_slotSize machine.dev.buffer within
        simp only [Machine.advance, found, ok_bind]
        by_cases beyond : writeCmdOffset ≥ entry.size
        · rw [if_pos beyond]
          exact Or.inr ⟨machine.fPos, _, rfl, True.intro, Nat.zero_le _⟩
        · rw [if_neg beyond]
          exact Or.inr ⟨machine.fPos, _, rfl, within, Nat.le_refl _⟩
      · have absent : machine.dev.buffer.entry[machine.seekEntry writeCmd]? = none :=
          Vector.getElem?_eq_none (Nat.le_of_not_lt within)
        refine Or.inl ⟨machine.seekEntry writeCmd, ?_, Nat.le_of_not_lt within⟩
        simp only [Machine.advance, entryAt, absent]
        rfl
  | enterWalk entry entryOffset =>
      obtain ⟨phase, made, insideAfter, less⟩ := walkRound_cases outLt entryOffset 0 inside outLt
      rw [roundsLeft_start] at less
      simp only [Machine.advance, made, ok_bind]
      exact Or.inr ⟨machine.fPos, phase, rfl, insideAfter, less⟩
  | walk entry entryOffset posBytes index =>
      obtain ⟨phase, made, insideAfter, less⟩ :=
        walkRound_cases outLt entryOffset posBytes inside.1 inside.2
      simp only [Machine.advance, made, ok_bind]
      exact Or.inr ⟨machine.fPos, phase, rfl, insideAfter, less⟩
  | assign newPos =>
      exact Or.inr ⟨_, _, rfl, True.intro, Nat.le_refl _⟩
  | enterSum offset =>
      obtain ⟨phase, made, insideAfter, less⟩ := sumRound_cases outLt offset 0 outLt
      rw [roundsLeft_start] at less
      simp only [Machine.advance, made, ok_bind]
      exact Or.inr ⟨machine.fPos, phase, rfl, insideAfter, less⟩
  | sum offset size index =>
      obtain ⟨phase, made, insideAfter, less⟩ := sumRound_cases outLt offset size inside
      simp only [Machine.advance, made, ok_bind]
      exact Or.inr ⟨machine.fPos, phase, rfl, insideAfter, less⟩
  | setEnd offset fullSize =>
      exact Or.inr ⟨_, _, rfl, True.intro, Nat.le_refl _⟩
  | returned ret => exact Or.inr ⟨machine.fPos, _, rfl, True.intro, Nat.le_refl _⟩

theorem stepsLeft_moved {buffer after : AesdCircularBuffer} {phase : SeekPhase}
    (outLt : buffer.outOffs < aesdcharMaxWriteOperationsSupported)
    (moved : after.outOffs = (buffer.outOffs + 1) % aesdcharMaxWriteOperationsSupported)
    (inside : phase.Inside) : phase.stepsLeft after ≤ phase.stepsLeft buffer + 1 := by
  cases phase with
  | walk entry entryOffset posBytes index =>
      exact Nat.succ_le_succ (roundsLeft_moved outLt moved inside.2)
  | sum offset size index =>
      exact Nat.succ_le_succ (roundsLeft_moved outLt moved inside)
  | _ => exact Nat.le_add_right _ _

theorem stepsLeft_same {buffer after : AesdCircularBuffer} (same : after.outOffs = buffer.outOffs)
    (phase : SeekPhase) : phase.stepsLeft after = phase.stepsLeft buffer := by
  cases phase <;> simp only [SeekPhase.stepsLeft, roundsLeft, same]

theorem SeekPhase.returned_of_stepsLeft {buffer : AesdCircularBuffer} {phase : SeekPhase}
    (none : phase.stepsLeft buffer = 0) : ∃ ret, phase = .returned ret := by
  cases phase with
  | returned ret => exact ⟨ret, rfl⟩
  | _ => exact absurd none (Nat.succ_ne_zero _)

end Aesd.Driver
