/-
What any clients make the driver do.

Nothing is asked of the clients here: they send what they like, in any
interleaving.  Everything that the server does to its output file is a call on
the one open file, and each write brings a piece of a line without a NUL, so
that the driver only ever holds lines.  Where the server does not go on, a call
of the driver says why.
-/

import Aesd.Driver.ModuleLife
import Aesd.Server.RecordIntegrity

set_option autoImplicit false

namespace Aesd.Server

open BoundedLoop CallRun Driver EndedGroups LineInput RecentWindow UnlessStopped

/-! ### What a session keeps -/

/-- Each operation on the output file keeps what is known of it; a session
writes pieces of lines. -/
structure KeepsFile {File : Type} (stops : Stop → Prop) (ops : OutputFile File)
    (Known : File → Prop) : Prop where
  getc : ∀ file, Known file → Unless stops (ops.getc file) (fun taken => Known taken.2)
  fwrite : ∀ file bytes, Known file → Chunk EndsLine bytes → (0 : Byte) ∉ bytes →
    Unless stops (ops.fwrite file bytes) (fun written => Known written.2)
  rewind : ∀ file, Known file → Unless stops (ops.rewind file) Known
  seekCur : ∀ file, Known file → Unless stops (ops.seekCur file) Known
  ioctlSeekto : ∀ file seekTo, Known file →
    Unless stops (ops.ioctlSeekto file seekTo) (fun answer => Known answer.2)
  blocked : stops .blocked

theorem zero_not_mem_cString (bytes : List Byte) : (0 : Byte) ∉ cString bytes := by
  intro member
  have unequal := List.mem_takeWhile_imp member
  rw [decide_eq_true_eq] at unequal
  exact unequal rfl

section Sessions

variable {File : Type} {stops : Stop → Prop} {ops : OutputFile File} {Known : File → Prop}
  {client : Client} {session : Session} {file : File}

/-- After a round the same is known. -/
def RoundKeeps (Known : File → Prop) :
    Round (Session × File) (Outcome × Session × File) → Prop :=
  RoundMeets (fun following => Known following.2) (fun served => Known served.2.2)

theorem KeepsFile.receiveRound (keeps : KeepsFile stops ops Known) (known : Known file) :
    Unless stops (receiveRound ops client session file) (RoundKeeps Known) := by
  obtain ⟨found, arrived, front⟩ : ∃ found, fgets EndsLine (getcFrom client.ending.fetched)
      bufferSize session.unread = (.ok (found, (cut EndsLine pieceSize session.unread).2) :
        Except Stop _) ∧
      ∀ chunk, found = some chunk → chunk = (cut EndsLine pieceSize session.unread).1 ∧
        chunk ≠ [] :=
    fgets_getcFrom _ _ client.ending.fetched_ne_item
  simp only [Server.receiveRound, arrived, ok_bind]
  cases found with
  | none => cases client.ending <;> exact known
  | some bytes =>
      have chunk : Chunk EndsLine (cString bytes) := by
        rw [(front bytes rfl).1]
        exact chunk_of_isPrefix (cut_chunk EndsLine _ _) (cString_isPrefix _)
      cases command : seekCommand (cString bytes) with
      | some seekTo =>
          simp only [command]
          refine (keeps.ioctlSeekto file seekTo known).bind ?_
          rintro ⟨ret, after⟩ kept
          dsimp only
          split <;> exact kept
      | none =>
          simp only [command]
          refine (keeps.fwrite file _ known chunk (zero_not_mem_cString bytes)).bind ?_
          rintro ⟨writeRet, after⟩ kept
          dsimp only
          split
          · exact kept
          · split <;> exact kept

theorem KeepsFile.positionRound (keeps : KeepsFile stops ops Known) (known : Known file)
    (isSeekSetCommand : Bool) :
    Unless stops (positionRound ops isSeekSetCommand session file) (RoundKeeps Known) := by
  cases isSeekSetCommand with
  | true => exact (keeps.seekCur file known).bind fun _after kept => kept
  | false => exact (keeps.rewind file known).bind fun _after kept => kept

theorem KeepsFile.readBackRound (keeps : KeepsFile stops ops Known) (known : Known file) :
    Unless stops (readBackRound ops client session file) (RoundKeeps Known) := by
  refine (fgets_keeps keeps.getc bufferSize known).bind ?_
  rintro ⟨found, after⟩ kept
  cases found with
  | none =>
      dsimp only
      split <;> exact kept
  | some bytes =>
      dsimp only
      split <;> exact kept

theorem KeepsFile.protocolRound (keeps : KeepsFile stops ops Known) (known : Known file) :
    Unless stops (protocolRound ops client (session, file)) (RoundKeeps Known) := by
  cases phase : session.phase with
  | receiving =>
      simp only [Server.protocolRound, phase]
      exact keeps.receiveRound known
  | positioning isSeekSetCommand =>
      simp only [Server.protocolRound, phase]
      exact keeps.positionRound known isSeekSetCommand
  | readingBack =>
      simp only [Server.protocolRound, phase]
      exact keeps.readBackRound known

variable {ι : Type} [DecidableEq ι] {build : Build} {clients : ι → Client} {world : World ι File}

/-- What the operations keep, every step of every thread keeps. -/
theorem KeepsFile.step (keeps : KeepsFile stops ops Known) (known : Known world.file)
    (event : Event ι) :
    Unless stops (world.step ops build clients event) (fun answer => Known answer.2.file) := by
  cases event with
  | lock i =>
      simp only [World.step, World.lock]
      split
      · exact known
      · exact keeps.blocked
  | round i =>
      simp only [World.step, World.round]
      split
      · refine (keeps.protocolRound known).bind ?_
        rintro (following | served) kept <;> exact kept
      · exact keeps.blocked
  | unlock i =>
      simp only [World.step, World.unlock]
      split
      · exact known
      · exact keeps.blocked
  | close i =>
      simp only [World.step, World.close]
      split
      · exact known
      · exact keeps.blocked
  | tick text =>
      simp only [World.step, World.tick]
      split
      · exact known
      · exact known
      · exact keeps.blocked
  | clockLock =>
      simp only [World.step, World.clockLock]
      split
      · exact known
      · exact keeps.blocked
  | clockWrite =>
      simp only [World.step, World.clockWrite]
      split
      · rename_i text _writing
        refine (keeps.fwrite world.file text.bytes known (Or.inr text.closed) text.plain).bind ?_
        rintro ⟨writeRet, after⟩ kept
        exact kept
      · exact keeps.blocked
  | clockUnlock =>
      simp only [World.step, World.clockUnlock]
      split
      · exact known
      · exact keeps.blocked

end Sessions

/-! ### Lines in the store -/

/-- The commands are lines without a NUL, and what is pending begins one. -/
structure HoldsLines (store : CommandStore) : Prop where
  lines : ∀ command, command ∈ store.completed → Closed EndsLine command ∧ (0 : Byte) ∉ command
  begun : Unended EndsLine store.pending ∧ (0 : Byte) ∉ store.pending

section Store

variable {store after : CommandStore}

theorem HoldsLines.same (holds : HoldsLines store) (completed : after.completed = store.completed)
    (pending : after.pending = store.pending) : HoldsLines after := by
  obtain ⟨lines, begun⟩ := holds
  constructor
  · rw [completed]
    exact lines
  · rw [pending]
    exact begun

/-- A piece of a line that was written without an error. -/
theorem HoldsLines.write (holds : HoldsLines store) {granted : Bool} {call : WriteCall}
    (chunk : Chunk EndsLine call.buf.bytes) (plain : (0 : Byte) ∉ call.buf.bytes)
    (fine : 0 ≤ (store.write granted call).1.ret) : HoldsLines (store.write granted call).2 := by
  obtain ⟨lines, unended, noNul⟩ := id holds
  have added : (0 : Byte) ∉ store.pending ++ call.buf.bytes := by
    rw [List.mem_append]
    exact fun either => either.elim noNul plain
  unfold CommandStore.write at fine ⊢
  by_cases empty : call.buf.bytes = []
  · simp only [empty, if_true]
    exact holds
  simp only [if_neg empty] at fine ⊢
  by_cases refused : granted = false
  · simp only [if_pos refused] at fine
    unfold enomem at fine
    omega
  simp only [if_neg refused] at fine ⊢
  by_cases partly : call.outcome.uncopied ≠ 0
  · simp only [if_pos partly] at fine
    unfold efault at fine
    omega
  simp only [if_neg partly]
  by_cases ended : call.buf.bytes.getLast? = some newline
  · rw [if_pos ended]
    refine ⟨?_, unended_nil, List.not_mem_nil⟩
    intro command member
    rcases List.mem_append.mp member with before | new
    · exact lines command before
    · rw [List.mem_singleton.mp new]
      refine ⟨?_, added⟩
      rcases chunk with open_ | closed
      · exact absurd rfl (open_ newline (List.mem_of_getLast? ended))
      · exact closed_append unended closed
  · rw [if_neg ended]
    refine ⟨lines, ?_, added⟩
    rcases chunk with open_ | ⟨front, last, same, isEnd, _earlier⟩
    · exact unended_append unended open_
    · rw [same, List.getLast?_concat, isEnd] at ended
      exact absurd rfl ended

theorem HoldsLines.ioctl (holds : HoldsLines store) {file cmd uncopied : Nat} {arg : AesdSeekto}
    {ret : Int} (made : store.ioctl file cmd arg uncopied = .ok (ret, after)) :
    HoldsLines after := by
  unfold CommandStore.ioctl CommandStore.seekto at made
  dsimp only at made
  split at made
  · split at made
    · cases made
      exact holds
    · split at made
      · cases made
        exact holds
      · split at made
        · cases made
        · split at made <;> cases made <;> exact holds.same rfl rfl
  · cases made
    exact holds

end Store

/-! ### Calls on the driver -/

/-- Calls on one file have led the driver here, and it holds lines. -/
def Driven (fPos : Nat → Int) (file : Nat) (machine : Machine) : Prop :=
  ∃ requests replies store, (∀ request : Bool × Call, request ∈ requests → request.2.file = file) ∧
    (Machine.initialized fPos).run (requests.map Prod.snd) = .ok (replies, machine) ∧
    (CommandStore.empty fPos).run requests = .ok (replies, store) ∧
    Refines machine store ∧ HoldsLines store

/-- Why the server does not go on: a thread could not take that step then, a
call returned this, or the seek command left the array. -/
def Explained (fPos : Nat → Int) (file : Nat) : Stop → Prop
  | .endless => False
  | .blocked => True
  | .refused ret => ∃ machine call reply after, Driven fPos file machine ∧ call.file = file ∧
      machine.call call = .ok (reply, after) ∧ reply.ret = ret
  | .fault fault => ∃ machine arg, Driven fPos file machine ∧
      machine.SeeksBeyond (.ioctl file Machine.aesdcharIocseekto arg 0) fault

section Calls

variable {fPos : Nat → Int} {file : Nat} {machine : Machine}

theorem Driven.accounted (driven : Driven fPos file machine) : machine.Accounted := by
  obtain ⟨requests, replies, store, _own, ran, _matched, _refines, _holds⟩ := driven
  exact Machine.reachable_accounted ran

/-- One call more; what it returned decides whether lines are held behind it. -/
theorem Driven.call (driven : Driven fPos file machine) (call : Call) (own : call.file = file)
    (Fine : Reply → Prop)
    (lines : ∀ store granted reply after, HoldsLines store →
      CommandStore.call store (granted, call) = .ok (reply, after) → Fine reply →
      HoldsLines after) :
    Unless (Explained fPos file) (ofDriver (machine.call call)) (fun answer =>
      (Fine answer.1 → Driven fPos file answer.2) ∧
        Explained fPos file (.refused answer.1.ret)) := by
  cases made : machine.call call with
  | error fault =>
      have beyond := (driven.accounted.call_error_iff call fault).mp made
      obtain ⟨other, arg, rfl, rest⟩ := id beyond
      cases own
      exact ⟨machine, arg, driven, beyond⟩
  | ok answer =>
      obtain ⟨reply, after⟩ := answer
      refine ⟨?_, machine, call, reply, after, driven, own, made, rfl⟩
      intro fine
      obtain ⟨requests, replies, store, earlier, ran, matched, refines, holds⟩ := driven
      obtain ⟨⟨granted, same⟩, sameCall, alike⟩ := refines.call call
      obtain rfl : same = call := sameCall
      rw [made] at alike
      obtain ⟨reached, answered, following⟩ := alike.of_ok
      refine ⟨requests ++ [(granted, same)], replies ++ [reply], reached, ?_, ?_, ?_, following,
        lines store granted reply reached holds answered fine⟩
      · intro request member
        rcases List.mem_append.mp member with before | new
        · exact earlier request before
        · rw [List.mem_singleton.mp new]
          exact own
      · rw [List.map_append]
        exact runCalls_append ran (runCalls_cons made rfl)
      · exact runCalls_append matched (runCalls_cons answered rfl)

/-- The calls that only position the file or fail leave the store's lines alone. -/
theorem Driven.aside (driven : Driven fPos file machine) (call : Call) (own : call.file = file)
    (lines : ∀ store granted reply after, HoldsLines store →
      CommandStore.call store (granted, call) = .ok (reply, after) → HoldsLines after) :
    Unless (Explained fPos file) (ofDriver (machine.call call)) (fun answer =>
      Driven fPos file answer.2 ∧ Explained fPos file (.refused answer.1.ret)) := by
  have made := driven.call call own (fun _reply => True)
    (fun store granted reply after holds answered _fine =>
      lines store granted reply after holds answered)
  exact made.mono fun _answer kept => ⟨kept.1 True.intro, kept.2⟩

theorem Driven.read (driven : Driven fPos file machine) (count uncopied : Nat) :
    Unless (Explained fPos file) (ofDriver (machine.read ⟨file, count, uncopied⟩))
      (fun answer => Driven fPos file answer.2 ∧ Explained fPos file (.refused answer.1.ret)) := by
  refine driven.aside (.read ⟨file, count, uncopied⟩) rfl ?_
  intro store granted reply after holds answered
  cases answered
  exact holds.same rfl rfl

theorem Driven.llseek (driven : Driven fPos file machine) (offset : Int) (whence : Whence) :
    Unless (Explained fPos file) (ofDriver (machine.llseek file offset whence))
      (fun answer => Driven fPos file answer.2 ∧ Explained fPos file (.refused answer.1)) := by
  have asked := driven.aside (.llseek file offset whence) rfl (by
    intro store granted reply after holds answered
    cases answered
    exact holds.same rfl rfl)
  unfold Machine.call at asked
  cases made : machine.llseek file offset whence with
  | error fault =>
      simp only [made] at asked
      exact asked
  | ok answer =>
      simp only [made] at asked
      exact asked

theorem Driven.ioctl (driven : Driven fPos file machine) (cmd uncopied : Nat) (arg : AesdSeekto) :
    Unless (Explained fPos file) (ofDriver (machine.unlockedIoctl file cmd arg uncopied))
      (fun answer => Driven fPos file answer.2) := by
  have asked := driven.aside (.ioctl file cmd arg uncopied) rfl (by
    intro store granted reply after holds answered
    obtain ⟨⟨ret, reached⟩, made, same⟩ := ok_of_bind answered
    cases same
    exact holds.ioctl made)
  unfold Machine.call at asked
  cases made : machine.unlockedIoctl file cmd arg uncopied with
  | error fault =>
      simp only [made] at asked
      exact asked
  | ok answer =>
      simp only [made] at asked
      exact asked.1

/-- A write that fails stops the server. -/
theorem Driven.write (driven : Driven fPos file machine) (buf : UserBuffer)
    (outcome : WriteOutcome) (chunk : Chunk EndsLine buf.bytes) (plain : (0 : Byte) ∉ buf.bytes) :
    Unless (Explained fPos file) (ofDriver (machine.write ⟨file, buf, outcome⟩)) (fun answer =>
      (0 ≤ answer.1.ret → Driven fPos file answer.2) ∧
        Explained fPos file (.refused answer.1.ret)) := by
  refine driven.call (.write ⟨file, buf, outcome⟩) rfl (fun reply => 0 ≤ reply.ret) ?_
  intro store granted reply after holds answered fine
  obtain ⟨rfl, rfl⟩ : (store.write granted ⟨file, buf, outcome⟩).1 = reply ∧
      (store.write granted ⟨file, buf, outcome⟩).2 = after :=
    Prod.mk.inj (Except.ok.inj answered)
  exact holds.write chunk plain fine

end Calls

/-! ### The stream -/

section Stream

variable {kernel : Kernel} {fPos : Nat → Int} {stream : DeviceStream}

/-- What is known of the stream between two operations. -/
def StreamDriven (kernel : Kernel) (fPos : Nat → Int) (stream : DeviceStream) : Prop :=
  Driven fPos kernel.file stream.machine

theorem StreamDriven.lseek (driven : StreamDriven kernel fPos stream) (offset : Int)
    (whence : Whence) :
    Unless (Explained fPos kernel.file) (stream.lseek kernel offset whence)
      (StreamDriven kernel fPos) := by
  refine (Driven.llseek driven offset whence).bind ?_
  rintro ⟨ret, machine⟩ ⟨kept, refused⟩
  dsimp only
  split
  · exact refused
  · exact kept

theorem StreamDriven.getc (driven : StreamDriven kernel fPos stream) :
    Unless (Explained fPos kernel.file) (stream.getc kernel)
      (fun taken => StreamDriven kernel fPos taken.2) := by
  unfold DeviceStream.getc
  split
  · exact driven
  split
  · exact driven
  refine (Driven.read driven _ _).bind ?_
  rintro ⟨reply, machine⟩ ⟨kept, refused⟩
  dsimp only
  split
  · exact refused
  · split <;> exact kept

theorem StreamDriven.fwrite (driven : StreamDriven kernel fPos stream) {bytes : List Byte}
    (chunk : Chunk EndsLine bytes) (plain : (0 : Byte) ∉ bytes) :
    Unless (Explained fPos kernel.file) (stream.fwrite kernel bytes)
      (fun written => StreamDriven kernel fPos written.2) := by
  have front := List.take_prefix maxRwCount bytes
  have given : Unless (Explained fPos kernel.file) (stream.giveBack kernel)
      (StreamDriven kernel fPos) := by
    unfold DeviceStream.giveBack
    split
    · exact driven
    · exact driven.lseek _ _
  unfold DeviceStream.fwrite
  split
  · exact driven
  refine given.bind ?_
  intro middle reached
  refine (Driven.write reached ⟨_, take_maxRwCount_capped bytes⟩ _
    (chunk_of_isPrefix chunk front) (fun member => plain (front.subset member))).bind ?_
  rintro ⟨reply, machine⟩ ⟨kept, refused⟩
  dsimp only at kept ⊢
  split
  · exact refused
  · rename_i counted
    refine kept ?_
    rw [not_not.mp counted]
    exact Int.natCast_nonneg _

end Stream

end Aesd.Server
