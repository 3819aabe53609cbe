/-
The records of different sessions.

A session writes its line piece by piece, before it is known to be complete.
As long as each client sends a whole line or nothing that is written, the
output file holds whole records only, in both builds, and a session that
missed its newline leaves the file as it was.
-/

import Aesd.Server.AppendOnly
import Aesd.Server.DeviceSessions
import Aesd.Server.Records

set_option autoImplicit false

namespace Aesd.Server

open BoundedLoop CallRun Driver EndedGroups LineInput RecentWindow UnlessStopped

section Log

variable {ι File : Type} {stops : Stop → Prop} {ops : OutputFile File} {keeps : KeepsLog stops ops}
  {clients : ι → Client} {bring : ι → List (List Byte)} {writers : List (Writer ι)}

variable {world after : World ι File}

variable [DecidableEq ι] {build : Build} {i : ι} {middle : List (Event ι)}
  {replies : List (Option (Writer ι))} {outcome : Outcome} {session : Session}

/-- A session without a newline ends with the log that it began with. -/
theorem Guarded.missed (brings : ∀ i, Brings (clients i) (bring i))
    (guarded : Guarded (recordGuards keeps brings) world writers)
    (calm : RunMeets (fun world event => world.step ops build clients event)
      (AllowedStep (fun i session file => Calm keeps (clients i) session file)) world
      (.lock i :: middle))
    (ran : runCalls (fun world event => world.step ops build clients event) world
      (.lock i :: middle) = .ok (replies, after))
    (unlocking : after.clients i = .unlocking outcome session) (missed : outcome.MissedNewline) :
    ∃ log, keeps.Ready world.file log ∧ keeps.Ready after.file log := by
  have ends := guarded.run calm ran
  have inside : (after.clients i).Inside := by
    rw [unlocking]
    exact True.intro
  obtain ⟨reply, locked, later, made, _rest, rfl⟩ := runCalls_cons_cases ran
  obtain ⟨_waiting, free, rfl, _locked⟩ := World.lock_cases made
  -- Nobody else had the mutex since the lock.
  change Guarded (recordGuards keeps brings) after
    (writers ++ .client i :: acquisitions later) at ends
  rw [ends.alone inside] at ends
  have before := guarded.resource
  rw [Guards.Resource, free] at before
  have behind := ends.resource
  rw [Guards.Resource, ends.inside i inside] at behind
  simp only [unlocking] at behind
  obtain ⟨ready, others, _same, answered⟩ := behind
  refine ⟨_, before, ?_⟩
  change keeps.Ready after.file (writersLog bring (writers ++ [.client i])) at ready
  rw [writersLog_concat] at ready
  have nothing : Writer.records bring (.client i) = [] := answered.complete missed
  rw [nothing, List.flatten_nil, Log.write_nil] at ready
  exact ready

end Log

section Builds

variable {ι : Type} [DecidableEq ι] {clients : ι → Client} {bring : ι → List (List Byte)}

/-- server_protocol has returned RET_ERR, as no newline has arrived. -/
def ClientState.Missed : ClientState → Prop
  | .unlocking outcome _session => outcome.MissedNewline
  | _ => False

instance (state : ClientState) : Decidable state.Missed :=
  match state with
  | .unlocking outcome _session =>
      inferInstanceAs (Decidable (outcome = _ ∨ outcome = _))
  | .waiting => isFalse id
  | .talking _session => isFalse id
  | .closing _outcome _session => isFalse id
  | .finished _ret _session => isFalse id

theorem ClientState.Missed.unlocking {state : ClientState} (missed : state.Missed) :
    ∃ outcome session, state = .unlocking outcome session ∧ outcome.MissedNewline := by
  cases state with
  | unlocking outcome session => exact ⟨outcome, session, rfl, missed⟩
  | waiting => exact missed.elim
  | talking session => exact missed.elim
  | closing outcome session => exact missed.elim
  | finished ret session => exact missed.elim

theorem DeviceHolds.stored {machine : Machine} {log : Log} (holds : DeviceHolds machine log) :
    machine.storedCommands = recent aesdcharMaxWriteOperationsSupported log.lines ∧
      machine.pendingBytes = log.begun := by
  obtain ⟨entries, lost, settled⟩ := holds
  exact ⟨settled.toLedger.storedCommands_eq, settled.toLedger.pendingBytes_eq⟩

end Builds

end Aesd.Server
