/-
The server's process, from server_init to the end of server_exit.

The main thread, the client threads, cleanup_thread and clock_thread take one
step at a time, in any order, and so do the signal handlers.  A step is one
call of the source and what surrounds it up to the next one.  Whether a call
succeeds is part of the event.  A step that has to wait, or that meets a null
pointer or an object that is gone, is an error, and a run is a list of steps
none of which is.

What a session does to the output file is left to `Server.World`; here a client
thread talks for any number of rounds.  malloc and fdopen, which the source
does not check, succeed.
-/

import Aesd.CallRun
import Aesd.Server.Threads

set_option autoImplicit false

namespace Aesd.Lifecycle

open BoundedLoop CallRun Server

inductive Halt where
  | waits
  | nullPointer
  | useAfterFree
  deriving DecidableEq, Repr

/-- An object that is set up by one thread, and gone after that. -/
inductive Resource (Value : Type) where
  | absent
  | present (value : Value)
  | gone
  deriving DecidableEq, Repr

/-- A thread that only uses an object leaves it as it was, or there. -/
def Resource.Kept {Value : Type} (before after : Resource Value) : Prop :=
  after = before ∨ ∃ value, after = .present value

theorem Resource.Kept.same {Value : Type} (resource : Resource Value) : resource.Kept resource :=
  Or.inl rfl

theorem Resource.Kept.there {Value : Type} (before : Resource Value) (value : Value) :
    before.Kept (.present value) :=
  Or.inr ⟨value, rfl⟩

theorem Resource.Kept.not_gone {Value : Type} {before after : Resource Value}
    (kept : before.Kept after) (ungone : before ≠ .gone) : after ≠ .gone := by
  rcases kept with rfl | ⟨value, rfl⟩
  · exact ungone
  · exact nofun

theorem Resource.Kept.not_absent {Value : Type} {before after : Resource Value}
    (kept : before.Kept after) (made : before ≠ .absent) : after ≠ .absent := by
  rcases kept with rfl | ⟨value, rfl⟩
  · exact made
  · exact nofun

/-- The next call of server_init. -/
inductive InitCall where
  | initFinishedSignal
  | initClockSem
  | openOutputFile
  | createCleanupThread
  | createClockThread
  | socket
  | bind
  | listen
  | timerCreate
  | timerSettime
  deriving DecidableEq, Repr

/-- The next call of server_run. -/
inductive RunCall where
  | select
  | accept
  | openDevice
  | createClientThread
  deriving DecidableEq, Repr

/-- The next call of server_exit. -/
inductive ExitCall where
  | timerDelete
  | postFinishedSignal
  | joinCleanupThread
  | joinClockThread
  | closeSocket
  | closeOutputFile
  | destroyMutex
  | destroyFinishedSignal
  | destroyClockSem
  | freeThreadList
  | unlink
  deriving DecidableEq, Repr

inductive MainThread where
  | serverInit (call : InitCall)
  | serverRun (call : RunCall)
  | serverExit (call : ExitCall)
  | returned (ret : Ret)
  deriving DecidableEq, Repr

inductive ClientThread where
  | locking
  | talking
  | unlocking
  | closing
  | finishing
  | posting
  | returned
  deriving DecidableEq, Repr

inductive CleanupThread where
  | notStarted
  | waiting
  | searching
  | joining (info : Nat)
  | removing (info : Nat)
  | returned (ret : Ret)
  deriving DecidableEq, Repr

inductive ClockThread where
  | notStarted
  | waiting
  | checking
  | locking
  | writing
  | unlocking (written : Bool)
  | returned (ret : Ret)
  deriving DecidableEq, Repr

inductive Holder where
  | client (info : Nat)
  | clock
  deriving DecidableEq, Repr

/-- Who has posted thread_finished_signal. -/
inductive Poster where
  | client (info : Nat)
  | serverExit
  deriving DecidableEq, Repr

/-- A thread_info_t; it has no thread before pthread_create. -/
structure ThreadInfo where
  thread : Option ClientThread
  threadFinished : Bool
  joined : Nat
  freed : Nat
  deriving DecidableEq, Repr

namespace ThreadInfo

/-- After malloc. -/
def allocated : ThreadInfo where
  thread := none
  threadFinished := false
  joined := 0
  freed := 0

def goTo (thread : ClientThread) (info : ThreadInfo) : ThreadInfo :=
  { info with thread := some thread }

def finish (info : ThreadInfo) : ThreadInfo :=
  { info with threadFinished := true, thread := some .posting }

def join (info : ThreadInfo) : ThreadInfo := { info with joined := info.joined + 1 }

def free (info : ThreadInfo) : ThreadInfo := { info with freed := info.freed + 1 }

end ThreadInfo

/-- The threads, and what they share.  Of the value of thread_finished_signal
it is recorded who has posted, oldest first, and in `consumed` whose posts have
let a sem_wait go on. -/
structure Process where
  main : MainThread
  started : Ret
  exitRet : Ret
  shouldStop : Bool
  stopping : Nat
  threadFinishedSignal : Resource (List Poster)
  consumed : List Poster
  clockSem : Resource Nat
  cleanupThreadInitialized : Bool
  clockThreadInitialized : Bool
  timer : Bool
  armed : Bool
  alarm : Bool
  socketFd : Bool
  outputFile : Resource Unit
  outputFileMutex : Resource (Option Holder)
  threadInfos : List ThreadInfo
  threadList : List Nat
  cleanup : CleanupThread
  clock : ClockThread
  deriving DecidableEq, Repr

/-- `done` tells whether the call succeeds, `more` whether the session has
another round; `interrupted` is select with EINTR. -/
inductive Event where
  | main (done : Bool)
  | interrupted
  | stop
  | stopPost
  | expire
  | timerCallback
  | client (info : Nat) (more : Bool)
  | cleanup (done : Bool)
  | clock (done : Bool)
  deriving DecidableEq, Repr

namespace Process

/-- After server_zero_data. -/
def zeroData : Process where
  main := .serverInit .initFinishedSignal
  started := .ok
  exitRet := .ok
  shouldStop := false
  stopping := 0
  threadFinishedSignal := .absent
  consumed := []
  clockSem := .absent
  cleanupThreadInitialized := false
  clockThreadInitialized := false
  timer := false
  armed := false
  alarm := false
  socketFd := false
  outputFile := .absent
  outputFileMutex := .present none
  threadInfos := []
  threadList := []
  cleanup := .notStarted
  clock := .notStarted

/-! ### The main thread -/

/-- server_init or server_run returns, and main calls server_exit. -/
def returns (process : Process) (ret : Ret) : Process :=
  { process with started := ret, main := .serverExit .timerDelete }

def serverInit (build : Build) (process : Process) (call : InitCall) (done : Bool) : Process :=
  if done then
    match call with
    | .initFinishedSignal =>
        { process with threadFinishedSignal := .present [], main := .serverInit .initClockSem }
    | .initClockSem =>
        { process with
          clockSem := .present 0
          main := .serverInit
            (match build with
            | .regularFile => .openOutputFile
            | .aesdCharDevice => .createCleanupThread) }
    | .openOutputFile =>
        { process with outputFile := .present (), main := .serverInit .createCleanupThread }
    | .createCleanupThread =>
        { process with
          cleanup := .waiting
          cleanupThreadInitialized := true
          main := .serverInit .createClockThread }
    | .createClockThread =>
        { process with
          clock := .waiting
          clockThreadInitialized := true
          main := .serverInit .socket }
    | .socket => { process with socketFd := true, main := .serverInit .bind }
    | .bind => { process with main := .serverInit .listen }
    -- The timer's memory is there before timer_create is called.
    | .listen => { process with timer := true, main := .serverInit .timerCreate }
    | .timerCreate => { process with main := .serverInit .timerSettime }
    | .timerSettime => { process with armed := true, main := .serverRun .select }
  else process.returns .err

def setThread (process : Process) (info : Nat) (thread : ClientThread) : Process :=
  { process with
    threadInfos := process.threadInfos.modify info (ThreadInfo.goTo thread) }

/-- The new thread_info is not inserted into thread_list. -/
def serverRun (build : Build) (process : Process) (call : RunCall) (done : Bool) : Process :=
  if done then
    match call with
    | .select =>
        { process with
          threadInfos := process.threadInfos ++ [ThreadInfo.allocated]
          main := .serverRun .accept }
    | .accept =>
        { process with
          main := .serverRun
            (if build = .aesdCharDevice ∧ process.outputFile = .absent then .openDevice
            else .createClientThread) }
    | .openDevice =>
        { process with outputFile := .present (), main := .serverRun .createClientThread }
    | .createClientThread =>
        { process.setThread (process.threadInfos.length - 1) .locking with
          main := .serverRun .select }
  else process.returns .err

/-- select fails with EINTR, after a handler has run on the main thread. -/
def interrupted (process : Process) : Except Halt Process :=
  match process.main with
  | .serverRun .select => .ok (if process.shouldStop then process.returns .ok else process)
  | _ => .error .waits

/-- server_exit goes on after a call that fails. -/
def checked (process : Process) (done : Bool) : Process :=
  if done then process else { process with exitRet := .err }

def goesOn (process : Process) (call : ExitCall) : Process :=
  { process with main := .serverExit call }

/-- What main returns. -/
def ends (process : Process) : Process :=
  { process with
    main := .returned (if process.started = .ok ∧ process.exitRet = .ok then .ok else .err) }

def freeInfo (infos : List ThreadInfo) (info : Nat) : List ThreadInfo :=
  infos.modify info ThreadInfo.free

def serverExit (build : Build) (process : Process) (call : ExitCall) (done : Bool) :
    Except Halt Process :=
  match call with
  | .timerDelete =>
      if process.timer then
        .ok ({ process.checked done with
          timer := false
          armed := process.armed && !done }.goesOn .postFinishedSignal)
      else .ok (process.goesOn .postFinishedSignal)
  | .postFinishedSignal =>
      if process.cleanupThreadInitialized then
        match process.threadFinishedSignal with
        | .present posts =>
            .ok ({ process with
              threadFinishedSignal := .present (posts ++ [Poster.serverExit]) }.goesOn .joinCleanupThread)
        | _ => .error .nullPointer
      else .ok (process.goesOn .joinClockThread)
  | .joinCleanupThread =>
      match process.cleanup with
      | .returned _ret => .ok (process.goesOn .joinClockThread)
      | _ => .error .waits
  | .joinClockThread =>
      if process.clockThreadInitialized then
        match process.clock with
        | .returned _ret => .ok (process.goesOn .closeSocket)
        | _ => .error .waits
      else .ok (process.goesOn .closeSocket)
  | .closeSocket =>
      .ok ((if process.socketFd then process.checked done else process).goesOn .closeOutputFile)
  | .closeOutputFile =>
      match process.outputFile with
      | .present () => .ok ({ process.checked done with outputFile := .gone }.goesOn .destroyMutex)
      | _ => .ok (process.goesOn .destroyMutex)
  | .destroyMutex =>
      -- A mutex that is held is not destroyed: EBUSY.
      match process.outputFileMutex with
      | .present none =>
          .ok ({ process.checked done with
            outputFileMutex := if done then .gone else .present none }.goesOn
              .destroyFinishedSignal)
      | _ => .ok ((process.checked false).goesOn .destroyFinishedSignal)
  | .destroyFinishedSignal =>
      match process.threadFinishedSignal with
      | .present _posts =>
          .ok ({ process.checked done with threadFinishedSignal := .gone }.goesOn .destroyClockSem)
      | _ => .ok (process.goesOn .destroyClockSem)
  | .destroyClockSem =>
      match process.clockSem with
      | .present _value =>
          .ok ({ process.checked done with clockSem := .gone }.goesOn .freeThreadList)
      | _ => .ok (process.goesOn .freeThreadList)
  | .freeThreadList =>
      let freed := { process with
        threadInfos := process.threadList.foldl freeInfo process.threadInfos
        threadList := [] }
      match build with
      | .regularFile => .ok (freed.goesOn .unlink)
      | .aesdCharDevice => .ok freed.ends
  | .unlink => .ok (process.checked done).ends

def mainThread (build : Build) (process : Process) (done : Bool) : Except Halt Process :=
  match process.main with
  | .serverInit call => .ok (process.serverInit build call done)
  | .serverRun call => .ok (process.serverRun build call done)
  | .serverExit call => process.serverExit build call done
  | .returned _ret => .error .waits

/-! ### Signal handlers -/

/-- The first statement of server_stop; the thread it interrupts may be any. -/
def stop (process : Process) : Process :=
  { process with shouldStop := true, stopping := process.stopping + 1 }

def stopPost (process : Process) : Except Halt Process :=
  if process.stopping = 0 then .error .waits
  else
    match process.clockSem with
    | .present value =>
        .ok { process with
          clockSem := .present (value + 1)
          stopping := process.stopping - 1 }
    | _ => .error .nullPointer

/-- The timer expires and SIGALRM becomes pending. -/
def expire (process : Process) : Except Halt Process :=
  if process.armed then .ok { process with alarm := true } else .error .waits

def timerCallback (process : Process) : Except Halt Process :=
  if process.alarm then
    match process.clockSem with
    | .present value =>
        .ok { process with clockSem := .present (value + 1), alarm := false }
    | _ => .ok { process with alarm := false }
  else .error .waits

/-! ### The other threads -/

/-- pthread_mutex_lock on output_file_mutex. -/
def lockMutex (process : Process) (holder : Holder) : Except Halt Process :=
  match process.outputFileMutex with
  | .present none => .ok { process with outputFileMutex := .present (some holder) }
  | .present (some _other) => .error .waits
  | _ => .error .useAfterFree

def unlockMutex (process : Process) : Except Halt Process :=
  match process.outputFileMutex with
  | .present _holder => .ok { process with outputFileMutex := .present none }
  | _ => .error .useAfterFree

def threadOf (process : Process) (info : Nat) : Option ClientThread :=
  process.threadInfos[info]?.bind ThreadInfo.thread

def clientThread (process : Process) (info : Nat) (more : Bool) : Except Halt Process :=
  match process.threadOf info with
  | none => .error .waits
  | some .locking => do
      let locked ← process.lockMutex (.client info)
      return locked.setThread info .talking
  | some .talking =>
      match process.outputFile with
      | .present () => .ok (process.setThread info (if more then .talking else .unlocking))
      | _ => .error .useAfterFree
  | some .unlocking => do
      let unlocked ← process.unlockMutex
      return unlocked.setThread info .closing
  | some .closing => .ok (process.setThread info .finishing)
  | some .finishing =>
      .ok { process with
        threadInfos := process.threadInfos.modify info ThreadInfo.finish }
  | some .posting =>
      match process.threadFinishedSignal with
      | .present posts =>
          .ok ({ process with
            threadFinishedSignal := .present (posts ++ [Poster.client info]) }.setThread info .returned)
      | _ => .error .useAfterFree
  | some .returned => .error .waits

/-- The last node of thread_list whose thread has finished. -/
def finishedNode (process : Process) : Option Nat :=
  (process.threadList.filter fun info =>
    (process.threadInfos[info]?.map ThreadInfo.threadFinished).getD false).getLast?

def cleanupThread (process : Process) (done : Bool) : Except Halt Process :=
  match process.cleanup with
  | .notStarted => .error .waits
  | .waiting =>
      match process.threadFinishedSignal with
      | .present posts =>
          if done then
            match posts with
            | [] => .error .waits
            | poster :: posts =>
                .ok { process with
                  threadFinishedSignal := .present posts
                  consumed := process.consumed ++ [poster]
                  cleanup := .searching }
          else .ok { process with cleanup := .returned .err }
      | _ => .error .useAfterFree
  | .searching =>
      match process.finishedNode with
      | none => .ok { process with cleanup := .returned .ok }
      | some info => .ok { process with cleanup := .joining info }
  | .joining info =>
      if process.threadOf info = some .returned then
        .ok { process with
          threadInfos := process.threadInfos.modify info ThreadInfo.join
          cleanup := .removing info }
      else .error .waits
  | .removing info =>
      .ok { process with
        threadList := process.threadList.erase info
        threadInfos := freeInfo process.threadInfos info
        cleanup := .waiting }
  | .returned _ret => .error .waits

/-- Built for the device the clock thread only waits for the stop. -/
def clockThread (build : Build) (process : Process) (done : Bool) : Except Halt Process :=
  match process.clock with
  | .notStarted => .error .waits
  | .waiting =>
      match process.clockSem with
      | .present value =>
          if done then
            match value with
            | 0 => .error .waits
            | value + 1 =>
                .ok { process with clockSem := .present value, clock := .checking }
          else .ok { process with clock := .returned .err }
      | _ => .error .useAfterFree
  | .checking =>
      if process.shouldStop then .ok { process with clock := .returned .ok }
      else
        match build with
        | .aesdCharDevice => .ok { process with clock := .waiting }
        | .regularFile =>
            -- localtime may return NULL.
            .ok { process with clock := if done then .locking else .returned .err }
  | .locking => do
      let locked ← process.lockMutex .clock
      return { locked with clock := .writing }
  | .writing =>
      match process.outputFile with
      | .present () => .ok { process with clock := .unlocking done }
      | _ => .error .useAfterFree
  | .unlocking written => do
      let unlocked ← process.unlockMutex
      return { unlocked with clock := if written then .waiting else .returned .err }
  | .returned _ret => .error .waits

/-! ### Steps -/

def advance (build : Build) (process : Process) : Event → Except Halt Process
  | .main done => process.mainThread build done
  | .interrupted => process.interrupted
  | .stop => .ok process.stop
  | .stopPost => process.stopPost
  | .expire => process.expire
  | .timerCallback => process.timerCallback
  | .client info more => process.clientThread info more
  | .cleanup done => process.cleanupThread done
  | .clock done => process.clockThread build done

def step (build : Build) (process : Process) (event : Event) : Except Halt (Unit × Process) :=
  (process.advance build event).map ((), ·)

end Process

/-- A change that keeps a field of each item keeps the list of these fields. -/
theorem map_modify_of_same {Item Field : Type} {field : Item → Field} {change : Item → Item}
    (same : ∀ item, field (change item) = field item) (items : List Item) (index : Nat) :
    (items.modify index change).map field = items.map field := by
  apply List.ext_getElem?
  intro place
  rw [List.getElem?_map, List.getElem?_map, List.getElem?_modify]
  cases items[place]? with
  | none => rfl
  | some item =>
      by_cases here : index = place
      · simp only [if_pos here, Option.map_eq_map, Option.map_some, same]
      · simp only [if_neg here, Option.map_eq_map, Option.map_some]

namespace Process

/-! ### What each step needs and does -/

variable {build : Build} {process after : Process} {done : Bool}

theorem step_cases {event : Event} {reply : Unit}
    (made : process.step build event = .ok (reply, after)) :
    process.advance build event = .ok after := by
  obtain ⟨reached, advanced, same⟩ := ok_of_map made
  cases same
  exact advanced

theorem step_of_advance {event : Event} (made : process.advance build event = .ok after) :
    process.step build event = .ok ((), after) := by
  rw [step, made]
  rfl

theorem mainThread_cases (made : process.mainThread build done = .ok after) :
    (∃ call, process.main = .serverInit call ∧ after = process.serverInit build call done) ∨
      (∃ call, process.main = .serverRun call ∧ after = process.serverRun build call done) ∨
      ∃ call, process.main = .serverExit call ∧
        process.serverExit build call done = .ok after := by
  unfold mainThread at made
  cases main : process.main with
  | serverInit call =>
      rw [main] at made
      cases made
      exact Or.inl ⟨call, rfl, rfl⟩
  | serverRun call =>
      rw [main] at made
      cases made
      exact Or.inr (Or.inl ⟨call, rfl, rfl⟩)
  | serverExit call =>
      rw [main] at made
      exact Or.inr (Or.inr ⟨call, rfl, made⟩)
  | returned ret =>
      rw [main] at made
      cases made

theorem interrupted_cases (made : process.interrupted = .ok after) :
    process.main = .serverRun .select ∧
      ((process.shouldStop = true ∧ after = process.returns .ok) ∨ after = process) := by
  unfold interrupted at made
  split at made
  · refine ⟨‹_›, ?_⟩
    cases made
    split
    · exact Or.inl ⟨‹_›, rfl⟩
    · exact Or.inr rfl
  · cases made

theorem stopPost_cases (made : process.stopPost = .ok after) :
    process.stopping ≠ 0 ∧ ∃ value, process.clockSem = .present value ∧
      after = { process with
        clockSem := .present (value + 1)
        stopping := process.stopping - 1 } := by
  unfold stopPost at made
  split at made
  · cases made
  · split at made <;> cases made
    exact ⟨‹_›, _, ‹_›, rfl⟩

theorem expire_cases (made : process.expire = .ok after) :
    after = { process with alarm := true } := by
  unfold expire at made
  split at made <;> cases made
  rfl

theorem timerCallback_cases (made : process.timerCallback = .ok after) :
    (∃ value, process.clockSem = .present value ∧
      after = { process with clockSem := .present (value + 1), alarm := false }) ∨
    after = { process with alarm := false } := by
  unfold timerCallback at made
  split at made
  · split at made <;> cases made
    · exact Or.inl ⟨_, ‹_›, rfl⟩
    · exact Or.inr rfl
  · cases made

/-- What a call of server_exit needs and does; what its return value and the
timer become is left open. -/
def ExitEffect (process after : Process) : ExitCall → Prop
  | .timerDelete =>
      ∃ exitRet timer armed, after = { process with
        exitRet, timer, armed, main := .serverExit .postFinishedSignal }
  | .postFinishedSignal =>
      (process.cleanupThreadInitialized = true ∧
        ∃ posts, process.threadFinishedSignal = .present posts ∧
          after = { process with
            threadFinishedSignal := .present (posts ++ [Poster.serverExit])
            main := .serverExit .joinCleanupThread }) ∨
      (process.cleanupThreadInitialized = false ∧ after = process.goesOn .joinClockThread)
  | .joinCleanupThread =>
      (∃ ret, process.cleanup = .returned ret) ∧ after = process.goesOn .joinClockThread
  | .joinClockThread =>
      (process.clockThreadInitialized = true → ∃ ret, process.clock = .returned ret) ∧
        after = process.goesOn .closeSocket
  | .closeSocket =>
      ∃ exitRet, after = { process with exitRet, main := .serverExit .closeOutputFile }
  | .closeOutputFile =>
      ∃ exitRet outputFile,
        outputFile = (if process.outputFile = .present () then .gone else process.outputFile) ∧
        after = { process with exitRet, outputFile, main := .serverExit .destroyMutex }
  | .destroyMutex =>
      ∃ exitRet outputFileMutex,
        (outputFileMutex = process.outputFileMutex ∨ outputFileMutex = .gone) ∧
        after = { process with
          exitRet, outputFileMutex, main := .serverExit .destroyFinishedSignal }
  | .destroyFinishedSignal =>
      ∃ exitRet threadFinishedSignal,
        (threadFinishedSignal = process.threadFinishedSignal ∨ threadFinishedSignal = .gone) ∧
        after = { process with
          exitRet, threadFinishedSignal, main := .serverExit .destroyClockSem }
  | .destroyClockSem =>
      ∃ exitRet clockSem, (clockSem = process.clockSem ∨ clockSem = .gone) ∧
        after = { process with exitRet, clockSem, main := .serverExit .freeThreadList }
  | .freeThreadList =>
      ∃ main, (main = .serverExit .unlink ∨ ∃ ret, main = .returned ret) ∧
        after = { process with
          threadInfos := process.threadList.foldl freeInfo process.threadInfos
          threadList := []
          main }
  | .unlink => ∃ exitRet ret, after = { process with exitRet, main := .returned ret }

theorem serverExit_effect {call : ExitCall}
    (made : process.serverExit build call done = .ok after) : process.ExitEffect after call := by
  cases call with
  | timerDelete =>
      simp only [serverExit] at made
      split at made <;> cases made <;> cases done <;> exact ⟨_, _, _, rfl⟩
  | postFinishedSignal =>
      simp only [serverExit] at made
      split at made
      · split at made <;> cases made
        exact Or.inl ⟨‹_›, _, ‹_›, rfl⟩
      · cases made
        exact Or.inr ⟨Bool.eq_false_iff.mpr ‹_›, rfl⟩
  | joinCleanupThread =>
      simp only [serverExit] at made
      split at made <;> cases made
      exact ⟨⟨_, ‹_›⟩, rfl⟩
  | joinClockThread =>
      simp only [serverExit] at made
      split at made
      · split at made <;> cases made
        exact ⟨fun _initialized => ⟨_, ‹_›⟩, rfl⟩
      · cases made
        exact ⟨fun initialized => absurd initialized ‹_›, rfl⟩
  | closeSocket =>
      simp only [serverExit] at made
      cases made
      split <;> cases done <;> exact ⟨_, rfl⟩
  | closeOutputFile =>
      simp only [serverExit] at made
      split at made
      · rename_i opened
        cases made
        cases done <;> exact ⟨_, _, (if_pos opened).symm, rfl⟩
      · rename_i other
        cases made
        exact ⟨_, _, (if_neg other).symm, rfl⟩
  | destroyMutex =>
      simp only [serverExit] at made
      split at made
      · rename_i free
        cases made
        cases done
        · exact ⟨_, _, Or.inl free.symm, rfl⟩
        · exact ⟨_, _, Or.inr rfl, rfl⟩
      · cases made
        exact ⟨_, _, Or.inl rfl, rfl⟩
  | destroyFinishedSignal =>
      simp only [serverExit] at made
      split at made <;> cases made
      · cases done <;> exact ⟨_, _, Or.inr rfl, rfl⟩
      · exact ⟨_, _, Or.inl rfl, rfl⟩
  | destroyClockSem =>
      simp only [serverExit] at made
      split at made <;> cases made
      · cases done <;> exact ⟨_, _, Or.inr rfl, rfl⟩
      · exact ⟨_, _, Or.inl rfl, rfl⟩
  | freeThreadList =>
      simp only [serverExit] at made
      split at made <;> cases made
      · exact ⟨_, Or.inl rfl, rfl⟩
      · exact ⟨_, Or.inr ⟨_, rfl⟩, rfl⟩
  | unlink =>
      simp only [serverExit] at made
      cases made
      cases done <;> exact ⟨_, _, rfl⟩

theorem lockMutex_cases {holder : Holder} (made : process.lockMutex holder = .ok after) :
    process.outputFileMutex = .present none ∧
      after = { process with outputFileMutex := .present (some holder) } := by
  unfold lockMutex at made
  split at made <;> cases made
  exact ⟨‹_›, rfl⟩

theorem unlockMutex_cases (made : process.unlockMutex = .ok after) :
    (∃ holder, process.outputFileMutex = .present holder) ∧
      after = { process with outputFileMutex := .present none } := by
  unfold unlockMutex at made
  split at made <;> cases made
  exact ⟨⟨_, ‹_›⟩, rfl⟩

theorem clientThread_cases {info : Nat} {more : Bool}
    (made : process.clientThread info more = .ok after) :
    ∃ thread, process.threadOf info = some thread ∧
      match thread with
      | .locking =>
          process.outputFileMutex = .present none ∧
            after = { process with
              outputFileMutex := .present (some (.client info)) }.setThread info .talking
      | .talking =>
          process.outputFile = .present () ∧
            after = process.setThread info (if more then .talking else .unlocking)
      | .unlocking =>
          (∃ holder, process.outputFileMutex = .present holder) ∧
            after = { process with outputFileMutex := .present none }.setThread info .closing
      | .closing => after = process.setThread info .finishing
      | .finishing =>
          after = { process with
            threadInfos := process.threadInfos.modify info ThreadInfo.finish }
      | .posting =>
          ∃ posts, process.threadFinishedSignal = .present posts ∧
            after = { process with
              threadFinishedSignal :=
                .present (posts ++ [Poster.client info]) }.setThread info .returned
      | .returned => False := by
  unfold clientThread at made
  cases found : process.threadOf info with
  | none =>
      rw [found] at made
      cases made
  | some thread =>
      rw [found] at made
      refine ⟨thread, rfl, ?_⟩
      cases thread with
      | locking =>
          obtain ⟨reached, locked, same⟩ := ok_of_bind made
          obtain ⟨free, rfl⟩ := lockMutex_cases locked
          cases same
          exact ⟨free, rfl⟩
      | talking =>
          dsimp only at made
          split at made <;> cases made
          exact ⟨‹_›, rfl⟩
      | unlocking =>
          obtain ⟨reached, unlocked, same⟩ := ok_of_bind made
          obtain ⟨held, rfl⟩ := unlockMutex_cases unlocked
          cases same
          exact ⟨held, rfl⟩
      | closing =>
          cases made
          rfl
      | finishing =>
          cases made
          rfl
      | posting =>
          dsimp only at made
          split at made <;> cases made
          exact ⟨_, ‹_›, rfl⟩
      | returned => cases made

theorem cleanupThread_cases (made : process.cleanupThread done = .ok after) :
    match process.cleanup with
    | .notStarted => False
    | .waiting =>
        (done = false ∧ after = { process with cleanup := .returned .err }) ∨
          ∃ poster posts, process.threadFinishedSignal = .present (poster :: posts) ∧
            after = { process with
              threadFinishedSignal := .present posts
              consumed := process.consumed ++ [poster]
              cleanup := .searching }
    | .searching =>
        (process.finishedNode = none ∧ after = { process with cleanup := .returned .ok }) ∨
          ∃ info, process.finishedNode = some info ∧
            after = { process with cleanup := .joining info }
    | .joining info =>
        process.threadOf info = some .returned ∧
          after = { process with
            threadInfos := process.threadInfos.modify info ThreadInfo.join
            cleanup := .removing info }
    | .removing info =>
        after = { process with
          threadList := process.threadList.erase info
          threadInfos := freeInfo process.threadInfos info
          cleanup := .waiting }
    | .returned _ret => False := by
  unfold cleanupThread at made
  cases place : process.cleanup with
  | notStarted =>
      rw [place] at made
      cases made
  | waiting =>
      rw [place] at made
      dsimp only at made
      split at made
      · split at made
        · split at made <;> cases made
          exact Or.inr ⟨_, _, ‹_›, rfl⟩
        · cases made
          exact Or.inl ⟨Bool.eq_false_iff.mpr ‹_›, rfl⟩
      · cases made
  | searching =>
      rw [place] at made
      dsimp only at made
      split at made <;> cases made
      · exact Or.inl ⟨‹_›, rfl⟩
      · exact Or.inr ⟨_, ‹_›, rfl⟩
  | joining info =>
      rw [place] at made
      dsimp only at made
      split at made <;> cases made
      exact ⟨‹_›, rfl⟩
  | removing info =>
      rw [place] at made
      cases made
      rfl
  | returned ret =>
      rw [place] at made
      cases made

theorem clockThread_cases (made : process.clockThread build done = .ok after) :
    match process.clock with
    | .notStarted => False
    | .waiting =>
        (done = false ∧ after = { process with clock := .returned .err }) ∨
          ∃ value, process.clockSem = .present (value + 1) ∧
            after = { process with clockSem := .present value, clock := .checking }
    | .checking =>
        (process.shouldStop = true ∧ after = { process with clock := .returned .ok }) ∨
          (process.shouldStop = false ∧
            ((build = .aesdCharDevice ∧ after = { process with clock := .waiting }) ∨
              (build = .regularFile ∧
                after = { process with clock := if done then .locking else .returned .err })))
    | .locking =>
        process.outputFileMutex = .present none ∧
          after = { process with
            outputFileMutex := .present (some .clock)
            clock := .writing }
    | .writing =>
        process.outputFile = .present () ∧ after = { process with clock := .unlocking done }
    | .unlocking written =>
        (∃ holder, process.outputFileMutex = .present holder) ∧
          after = { process with
            outputFileMutex := .present none
            clock := if written then .waiting else .returned .err }
    | .returned _ret => False := by
  unfold clockThread at made
  cases place : process.clock with
  | notStarted =>
      rw [place] at made
      cases made
  | waiting =>
      rw [place] at made
      dsimp only at made
      split at made
      · split at made
        · split at made <;> cases made
          exact Or.inr ⟨_, ‹_›, rfl⟩
        · cases made
          exact Or.inl ⟨Bool.eq_false_iff.mpr ‹_›, rfl⟩
      · cases made
  | checking =>
      rw [place] at made
      dsimp only at made
      split at made
      · cases made
        exact Or.inl ⟨‹_›, rfl⟩
      · have goesOn := Bool.eq_false_iff.mpr ‹_›
        cases build <;> cases made
        · exact Or.inr ⟨goesOn, Or.inr ⟨rfl, rfl⟩⟩
        · exact Or.inr ⟨goesOn, Or.inl ⟨rfl, rfl⟩⟩
  | locking =>
      rw [place] at made
      obtain ⟨reached, locked, same⟩ := ok_of_bind made
      obtain ⟨free, rfl⟩ := lockMutex_cases locked
      cases same
      exact ⟨free, rfl⟩
  | writing =>
      rw [place] at made
      dsimp only at made
      split at made <;> cases made
      exact ⟨‹_›, rfl⟩
  | unlocking written =>
      rw [place] at made
      obtain ⟨reached, unlocked, same⟩ := ok_of_bind made
      obtain ⟨held, rfl⟩ := unlockMutex_cases unlocked
      cases same
      exact ⟨held, rfl⟩
  | returned ret =>
      rw [place] at made
      cases made

/-- All that the clock thread may change, once it has been started. -/
theorem clockThread_frame (made : process.clockThread build done = .ok after) :
    process.clock ≠ .notStarted ∧ ∃ clockSem outputFileMutex clock,
      process.outputFileMutex.Kept outputFileMutex ∧
      after = { process with clockSem, outputFileMutex, clock } := by
  have effect := clockThread_cases made
  cases place : process.clock with
  | notStarted =>
      rw [place] at effect
      exact effect.elim
  | waiting =>
      rw [place] at effect
      rcases effect with ⟨_failed, rfl⟩ | ⟨value, _present, rfl⟩ <;>
        exact ⟨nofun, _, _, _, .same _, rfl⟩
  | checking =>
      rw [place] at effect
      rcases effect with ⟨_stops, rfl⟩ | ⟨_goesOn, ⟨_device, rfl⟩ | ⟨_regular, rfl⟩⟩ <;>
        exact ⟨nofun, _, _, _, .same _, rfl⟩
  | locking =>
      rw [place] at effect
      obtain ⟨_free, rfl⟩ := effect
      exact ⟨nofun, _, _, _, .there _ _, rfl⟩
  | writing =>
      rw [place] at effect
      obtain ⟨_opened, rfl⟩ := effect
      exact ⟨nofun, _, _, _, .same _, rfl⟩
  | unlocking written =>
      rw [place] at effect
      obtain ⟨_held, rfl⟩ := effect
      exact ⟨nofun, _, _, _, .there _ _, rfl⟩
  | returned ret =>
      rw [place] at effect
      exact effect.elim

/-- All that a client thread may change. -/
theorem clientThread_frame {info : Nat} {more : Bool}
    (made : process.clientThread info more = .ok after) :
    ∃ threadFinishedSignal outputFileMutex threadInfos,
      process.threadFinishedSignal.Kept threadFinishedSignal ∧
      process.outputFileMutex.Kept outputFileMutex ∧
      after = { process with threadFinishedSignal, outputFileMutex, threadInfos } := by
  obtain ⟨thread, _found, effect⟩ := clientThread_cases made
  cases thread with
  | locking =>
      obtain ⟨_free, rfl⟩ := effect
      exact ⟨_, _, _, .same _, .there _ _, rfl⟩
  | talking =>
      obtain ⟨_opened, rfl⟩ := effect
      exact ⟨_, _, _, .same _, .same _, rfl⟩
  | unlocking =>
      obtain ⟨_held, rfl⟩ := effect
      exact ⟨_, _, _, .same _, .there _ _, rfl⟩
  | closing => exact ⟨_, _, _, .same _, .same _, effect⟩
  | finishing => exact ⟨_, _, _, .same _, .same _, effect⟩
  | posting =>
      obtain ⟨posts, _present, rfl⟩ := effect
      exact ⟨_, _, _, .there _ _, .same _, rfl⟩
  | returned => exact effect.elim

/-- All that cleanup_thread may change; it does not run the client threads. -/
theorem cleanupThread_frame (made : process.cleanupThread done = .ok after) :
    ∃ threadFinishedSignal consumed cleanup threadInfos threadList,
      process.threadFinishedSignal.Kept threadFinishedSignal ∧
      threadInfos.map ThreadInfo.thread = process.threadInfos.map ThreadInfo.thread ∧
      after = { process with
        threadFinishedSignal, consumed, cleanup, threadInfos, threadList } := by
  have effect := cleanupThread_cases made
  cases place : process.cleanup with
  | notStarted =>
      rw [place] at effect
      exact effect.elim
  | waiting =>
      rw [place] at effect
      rcases effect with ⟨_failed, rfl⟩ | ⟨poster, posts, _present, rfl⟩
      · exact ⟨_, _, _, _, _, .same _, rfl, rfl⟩
      · exact ⟨_, _, _, _, _, .there _ _, rfl, rfl⟩
  | searching =>
      rw [place] at effect
      rcases effect with ⟨_none, rfl⟩ | ⟨info, _found, rfl⟩ <;>
        exact ⟨_, _, _, _, _, .same _, rfl, rfl⟩
  | joining info =>
      rw [place] at effect
      obtain ⟨_returned, rfl⟩ := effect
      have kept : ∀ info : ThreadInfo, info.join.thread = info.thread := fun _info => rfl
      exact ⟨_, _, _, _, _, .same _, map_modify_of_same kept _ _, rfl⟩
  | removing info =>
      rw [place] at effect
      have kept : ∀ info : ThreadInfo, info.free.thread = info.thread := fun _info => rfl
      exact ⟨_, _, _, _, _, .same _, map_modify_of_same kept _ _, effect⟩
  | returned ret =>
      rw [place] at effect
      exact effect.elim

/-- All that server_exit may change; main is past server_init. -/
theorem serverExit_frame {call : ExitCall}
    (made : process.serverExit build call done = .ok after) :
    ∃ main exitRet timer armed threadFinishedSignal clockSem outputFile outputFileMutex
        threadInfos threadList,
      after = { process with
        main, exitRet, timer, armed, threadFinishedSignal, clockSem, outputFile,
        outputFileMutex, threadInfos, threadList } ∧
      (outputFileMutex = process.outputFileMutex ∨ outputFileMutex = .gone) ∧
      ∀ call, main ≠ .serverInit call := by
  have effect := serverExit_effect made
  cases call with
  | timerDelete =>
      obtain ⟨exitRet, timer, armed, rfl⟩ := effect
      exact ⟨_, _, _, _, _, _, _, _, _, _, rfl, Or.inl rfl, nofun⟩
  | postFinishedSignal =>
      rcases effect with ⟨_initialized, posts, _present, rfl⟩ | ⟨_initialized, rfl⟩ <;>
        exact ⟨_, _, _, _, _, _, _, _, _, _, rfl, Or.inl rfl, nofun⟩
  | joinCleanupThread =>
      obtain ⟨_returned, rfl⟩ := effect
      exact ⟨_, _, _, _, _, _, _, _, _, _, rfl, Or.inl rfl, nofun⟩
  | joinClockThread =>
      obtain ⟨_returned, rfl⟩ := effect
      exact ⟨_, _, _, _, _, _, _, _, _, _, rfl, Or.inl rfl, nofun⟩
  | closeSocket =>
      obtain ⟨exitRet, rfl⟩ := effect
      exact ⟨_, _, _, _, _, _, _, _, _, _, rfl, Or.inl rfl, nofun⟩
  | closeOutputFile =>
      obtain ⟨exitRet, outputFile, _closed, rfl⟩ := effect
      exact ⟨_, _, _, _, _, _, _, _, _, _, rfl, Or.inl rfl, nofun⟩
  | destroyMutex =>
      obtain ⟨exitRet, outputFileMutex, destroyed, rfl⟩ := effect
      exact ⟨_, _, _, _, _, _, _, _, _, _, rfl, destroyed, nofun⟩
  | destroyFinishedSignal =>
      obtain ⟨exitRet, threadFinishedSignal, _freed, rfl⟩ := effect
      exact ⟨_, _, _, _, _, _, _, _, _, _, rfl, Or.inl rfl, nofun⟩
  | destroyClockSem =>
      obtain ⟨exitRet, clockSem, _freed, rfl⟩ := effect
      exact ⟨_, _, _, _, _, _, _, _, _, _, rfl, Or.inl rfl, nofun⟩
  | freeThreadList =>
      obtain ⟨main, last, rfl⟩ := effect
      have past : ∀ call, main ≠ .serverInit call := by
        rcases last with rfl | ⟨ret, rfl⟩ <;> exact nofun
      exact ⟨_, _, _, _, _, _, _, _, _, _, rfl, Or.inl rfl, past⟩
  | unlink =>
      obtain ⟨exitRet, ret, rfl⟩ := effect
      exact ⟨_, _, _, _, _, _, _, _, _, _, rfl, Or.inl rfl, nofun⟩

end Process

end Aesd.Lifecycle
