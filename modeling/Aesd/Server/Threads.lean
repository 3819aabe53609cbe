/-
The threads of the server and output_file_mutex.

Client threads and the clock thread take one step at a time, in any order.  A
step touches the output file only while its thread holds the mutex.  A step
that a thread cannot take now is `blocked`, and a run is a list of steps none of
which is.  The reply to a step is the writer that took the mutex in it.

`Guards` describes what the mutex guards; whatever fits one session at a time
then holds under every interleaving.
-/

import Mathlib.Data.List.ReduceOption
import Aesd.CallRun
import Aesd.Server.SessionLog

set_option autoImplicit false

namespace Aesd.Server

open BoundedLoop CallRun Driver EndedGroups UnlessStopped

/-- What strftime puts into the clock's buffer: one line. -/
structure Timestamp where
  bytes : List Byte
  closed : Closed EndsLine bytes
  plain : (0 : Byte) ∉ bytes
  short : bytes.length ≤ pieceSize

/-- Who writes to the output file. -/
inductive Writer (ι : Type) where
  | client (i : ι)
  | clock (text : Timestamp)

/-- ret_t -/
inductive Ret where
  | ok
  | err
  deriving DecidableEq, Repr

/-- Where a client thread is. -/
inductive ClientState where
  | waiting
  | talking (session : Session)
  | unlocking (outcome : Outcome) (session : Session)
  | closing (outcome : Outcome) (session : Session)
  | finished (ret : Ret) (session : Session)

/-- Where the clock thread is. -/
inductive ClockState where
  | sleeping
  | ticked (text : Timestamp)
  | writing (text : Timestamp)
  | unlocking (written : Bool)
  | stopped

/-- Which output file the server was built for. -/
inductive Build where
  | regularFile
  | aesdCharDevice
  deriving DecidableEq, Repr

structure World (ι File : Type) where
  file : File
  owner : Option (Writer ι)
  clients : ι → ClientState
  clock : ClockState

inductive Event (ι : Type) where
  | lock (i : ι)
  | round (i : ι)
  | unlock (i : ι)
  | close (i : ι)
  | tick (text : Timestamp)
  | clockLock
  | clockWrite
  | clockUnlock

/-- What client_thread returns: both fclose calls have to succeed as well. -/
def clientRet (client : Client) (outcome : Outcome) : Ret :=
  if outcome = .retOk ∧ client.closesInput = true ∧ client.closesOutput = true then .ok else .err

namespace World

variable {ι File : Type}

def start (file : File) : World ι File where
  file := file
  owner := none
  clients := fun _i => .waiting
  clock := .sleeping

variable [DecidableEq ι]

def setClient (world : World ι File) (i : ι) (state : ClientState) : World ι File :=
  { world with clients := Function.update world.clients i state }

@[simp] theorem setClient_self (world : World ι File) (i : ι) (state : ClientState) :
    (world.setClient i state).clients i = state := Function.update_self ..

theorem setClient_other (world : World ι File) {i other : ι} (state : ClientState)
    (different : other ≠ i) : (world.setClient i state).clients other = world.clients other :=
  Function.update_of_ne different ..

variable (ops : OutputFile File) (build : Build) (clients : ι → Client)

/-- A step of client_thread. -/
def lock (world : World ι File) (i : ι) : Except Stop (Option (Writer ι) × World ι File) :=
  match world.clients i, world.owner with
  | .waiting, none =>
      .ok (some (.client i), { world with owner := some (.client i) }.setClient i
        (.talking (.initial (clients i))))
  | _, _ => .error .blocked

def round (world : World ι File) (i : ι) : Except Stop (Option (Writer ι) × World ι File) :=
  match world.clients i with
  | .talking session => do
      match ← protocolRound ops (clients i) (session, world.file) with
      | .next (session, file) => return (none, { world with file }.setClient i (.talking session))
      | .leave (outcome, session, file) =>
          return (none, { world with file }.setClient i (.unlocking outcome session))
  | _ => .error .blocked

def unlock (world : World ι File) (i : ι) : Except Stop (Option (Writer ι) × World ι File) :=
  match world.clients i with
  | .unlocking outcome session =>
      .ok (none, { world with owner := none }.setClient i (.closing outcome session))
  | _ => .error .blocked

def close (world : World ι File) (i : ι) : Except Stop (Option (Writer ι) × World ι File) :=
  match world.clients i with
  | .closing outcome session =>
      .ok (none, world.setClient i (.finished (clientRet (clients i) outcome) session))
  | _ => .error .blocked

/-- A step of clock_thread.  Built for the device it does nothing on a tick. -/
def tick (world : World ι File) (text : Timestamp) :
    Except Stop (Option (Writer ι) × World ι File) :=
  match world.clock, build with
  | .sleeping, .regularFile => .ok (none, { world with clock := .ticked text })
  | .sleeping, .aesdCharDevice => .ok (none, world)
  | _, _ => .error .blocked

def clockLock (world : World ι File) : Except Stop (Option (Writer ι) × World ι File) :=
  match world.clock, world.owner with
  | .ticked text, none =>
      .ok (some (.clock text), { world with owner := some (.clock text), clock := .writing text })
  | _, _ => .error .blocked

def clockWrite (world : World ι File) : Except Stop (Option (Writer ι) × World ι File) :=
  match world.clock with
  | .writing text => do
      let (writeRet, file) ← ops.fwrite world.file text.bytes
      return (none, { world with
        file
        clock := .unlocking (decide (writeRet = text.bytes.length)) })
  | _ => .error .blocked

def clockUnlock (world : World ι File) : Except Stop (Option (Writer ι) × World ι File) :=
  match world.clock with
  | .unlocking written =>
      .ok (none, { world with owner := none, clock := if written then .sleeping else .stopped })
  | _ => .error .blocked

def step (world : World ι File) : Event ι → Except Stop (Option (Writer ι) × World ι File)
  | .lock i => world.lock clients i
  | .round i => world.round ops clients i
  | .unlock i => world.unlock i
  | .close i => world.close clients i
  | .tick text => world.tick build text
  | .clockLock => world.clockLock
  | .clockWrite => world.clockWrite ops
  | .clockUnlock => world.clockUnlock

end World

/-- The writers in the order in which they took the mutex. -/
def acquisitions {ι : Type} (replies : List (Option (Writer ι))) : List (Writer ι) :=
  replies.reduceOption

theorem acquisitions_concat {ι : Type} (replies : List (Option (Writer ι))) (reply : Option (Writer ι)) :
    acquisitions (replies ++ [reply]) = acquisitions replies ++ reply.toList := by
  rw [← List.concat_eq_append]
  exact List.reduceOption_concat replies reply

def Writer.client? {ι : Type} : Writer ι → Option ι
  | .client i => some i
  | .clock _ => none

/-! ### What each step needs and does -/

namespace World

variable {ι File : Type} {ops : OutputFile File} {build : Build} {clients : ι → Client}
  {world after : World ι File} {reply : Option (Writer ι)} {i : ι}

theorem tick_cases {text : Timestamp} (made : world.tick build text = .ok (reply, after)) :
    reply = none ∧ world.clock = .sleeping ∧
      (after = world ∨ after = { world with clock := .ticked text }) := by
  unfold tick at made
  split at made
  · cases made
    exact ⟨rfl, ‹_›, Or.inr rfl⟩
  · cases made
    exact ⟨rfl, ‹_›, Or.inl rfl⟩
  · cases made

theorem clockLock_cases (made : world.clockLock = .ok (reply, after)) :
    ∃ text, world.clock = .ticked text ∧ world.owner = none ∧ reply = some (.clock text) ∧
      after = { world with owner := some (.clock text), clock := .writing text } := by
  unfold clockLock at made
  split at made
  · cases made
    exact ⟨_, ‹_›, ‹_›, rfl, rfl⟩
  · cases made

theorem clockWrite_cases (made : world.clockWrite ops = .ok (reply, after)) :
    reply = none ∧ ∃ text writeRet file, world.clock = .writing text ∧
      ops.fwrite world.file text.bytes = .ok (writeRet, file) ∧
      after = { world with
        file
        clock := .unlocking (decide (writeRet = text.bytes.length)) } := by
  unfold clockWrite at made
  split at made
  · rename_i text writing
    obtain ⟨⟨writeRet, file⟩, written, same⟩ := ok_of_bind made
    cases same
    exact ⟨rfl, text, _, _, writing, written, rfl⟩
  · cases made

theorem clockUnlock_cases (made : world.clockUnlock = .ok (reply, after)) :
    reply = none ∧ ∃ written, world.clock = .unlocking written ∧
      after = { world with owner := none, clock := if written then .sleeping else .stopped } := by
  unfold clockUnlock at made
  split at made
  · cases made
    exact ⟨rfl, _, ‹_›, rfl⟩
  · cases made

variable [DecidableEq ι]

theorem lock_cases (made : world.lock clients i = .ok (reply, after)) :
    world.clients i = .waiting ∧ world.owner = none ∧ reply = some (.client i) ∧
      after = { world with owner := some (.client i) }.setClient i
        (.talking (.initial (clients i))) := by
  unfold lock at made
  split at made
  · cases made
    exact ⟨‹_›, ‹_›, rfl, rfl⟩
  · cases made

theorem round_cases (made : world.round ops clients i = .ok (reply, after)) :
    reply = none ∧ ∃ session, world.clients i = .talking session ∧
      ((∃ next file, protocolRound ops (clients i) (session, world.file) =
          .ok (.next (next, file)) ∧
        after = { world with file }.setClient i (.talking next)) ∨
      (∃ outcome last file, protocolRound ops (clients i) (session, world.file) =
          .ok (.leave (outcome, last, file)) ∧
        after = { world with file }.setClient i (.unlocking outcome last))) := by
  unfold round at made
  split at made
  · rename_i session talking
    obtain ⟨decided, result, same⟩ := ok_of_bind made
    cases decided with
    | next following =>
        cases same
        exact ⟨rfl, session, talking, Or.inl ⟨_, _, result, rfl⟩⟩
    | leave served =>
        cases same
        exact ⟨rfl, session, talking, Or.inr ⟨_, _, _, result, rfl⟩⟩
  · cases made

theorem unlock_cases (made : world.unlock i = .ok (reply, after)) :
    reply = none ∧ ∃ outcome session, world.clients i = .unlocking outcome session ∧
      after = { world with owner := none }.setClient i (.closing outcome session) := by
  unfold unlock at made
  split at made
  · cases made
    exact ⟨rfl, _, _, ‹_›, rfl⟩
  · cases made

theorem close_cases (made : world.close clients i = .ok (reply, after)) :
    reply = none ∧ ∃ outcome session, world.clients i = .closing outcome session ∧
      after = world.setClient i (.finished (clientRet (clients i) outcome) session) := by
  unfold close at made
  split at made
  · cases made
    exact ⟨rfl, _, _, ‹_›, rfl⟩
  · cases made

end World

end Aesd.Server
