/-
How clock_thread ends.

clock_thread returns when it finds should_stop behind its sem_wait, and
server_exit joins it without setting should_stop or posting clock_sem.  So the
join comes to its end behind a server_stop that has run to its own end, and
never behind an error of server_init or server_run without one.
-/

import Aesd.Lifecycle.SharedResources

set_option autoImplicit false

namespace Aesd.Lifecycle

open BoundedLoop CallRun Server

/-- clock_sem has not been made yet. -/
def MainThread.beforeClockSem : MainThread → Bool
  | .serverInit .initFinishedSignal => true
  | .serverInit .initClockSem => true
  | _ => false

/-- clock_thread has not been started yet. -/
def MainThread.beforeClockThread : MainThread → Bool
  | .serverInit .initFinishedSignal => true
  | .serverInit .initClockSem => true
  | .serverInit .openOutputFile => true
  | .serverInit .createCleanupThread => true
  | .serverInit .createClockThread => true
  | _ => false

/-- server_exit has come past the join of clock_thread. -/
def MainThread.pastClockThread : MainThread → Bool
  | .serverInit _call => false
  | .serverRun _call => false
  | .serverExit .timerDelete => false
  | .serverExit .postFinishedSignal => false
  | .serverExit .joinCleanupThread => false
  | .serverExit .joinClockThread => false
  | .serverExit _call => true
  | .returned _ret => true

/-- clock_thread has the output file before it. -/
def ClockThread.Writes : ClockThread → Prop
  | .locking => True
  | .writing => True
  | .unlocking _written => True
  | _ => False

namespace Process

def ClockReturned (process : Process) : Prop := ∃ ret, process.clock = .returned ret

/-- should_stop is set, and clock_thread is about to see it or will be woken up. -/
def Wakes (process : Process) : Prop :=
  process.shouldStop = true ∧
    (process.clock = .checking ∨ ∃ value, process.clockSem = .present (value + 1))

/-- What server_exit relies on at the join. -/
def ClockEnds (process : Process) : Prop := process.ClockReturned ∨ process.Wakes

structure ClockOrder (build : Build) (process : Process) : Prop where
  semLater : process.main.beforeClockSem = true → process.clockSem = .absent
  threadLater : process.main.beforeClockThread = true → process.clock = .notStarted
  started : process.clockThreadInitialized = true → process.clock ≠ .notStarted
  regular : process.clock.Writes → build = .regularFile
  mutex : process.outputFileMutex ≠ .absent

/-- Steps of clock_thread alone bring it to its end. -/
def RunsOut (build : Build) (process : Process) : Prop :=
  ∃ count replies after, runCalls (Process.step build) process
    (List.replicate count (.clock true)) = .ok (replies, after) ∧ after.ClockReturned

/-- A server_stop has run to its end. -/
def Stopped (process : Process) : Prop :=
  process.shouldStop = true ∧
    (process.ClockReturned ∨ process.clock = .checking ∨
      (∃ value, process.clockSem = .present (value + 1)) ∨ process.main.pastClockThread = true)

/-- server_exit waits for a clock_thread that nobody tells to stop. -/
structure Stuck (process : Process) : Prop where
  main : process.main = .serverExit .joinClockThread
  initialized : process.clockThreadInitialized = true
  goesOn : process.shouldStop = false
  runs : ¬process.ClockReturned
  writes : process.clock ≠ .unlocking false

/-- No stop signal, and no call of clock_thread fails. -/
def Unstopped : Event → Prop
  | .stop => False
  | .clock done => done = true
  | _ => True

variable {build : Build} {process after : Process} {done : Bool}

/-! ### The order of server_init -/

theorem beforeClockSem_le {main : MainThread} (started : main.beforeClockThread = false) :
    main.beforeClockSem = false := by
  cases main with
  | serverInit call =>
      cases call with
      | initFinishedSignal => cases started
      | initClockSem => cases started
      | _ => rfl
  | _ => rfl

theorem ClockOrder.late (behind : process.main.beforeClockThread = false)
    (started : process.clockThreadInitialized = true → process.clock ≠ .notStarted)
    (regular : process.clock.Writes → build = .regularFile)
    (mutex : process.outputFileMutex ≠ .absent) : process.ClockOrder build where
  semLater := by
    intro early
    rw [beforeClockSem_le behind] at early
    cases early
  threadLater := by
    intro early
    rw [behind] at early
    cases early
  started := started
  regular := regular
  mutex := mutex

theorem ClockOrder.serverInit {call : InitCall} (order : process.ClockOrder build)
    (main : process.main = .serverInit call) :
    (process.serverInit build call done).ClockOrder build := by
  obtain ⟨semLater, threadLater, started, regular, mutex⟩ := order
  rw [main] at semLater threadLater
  cases done with
  | false => exact .late rfl started regular mutex
  | true =>
      cases call with
      | initFinishedSignal => exact ⟨fun _early => semLater rfl, fun _early => threadLater rfl,
          started, regular, mutex⟩
      | initClockSem =>
          cases build with
          | regularFile => exact ⟨nofun, fun _early => threadLater rfl, started, regular, mutex⟩
          | aesdCharDevice => exact ⟨nofun, fun _early => threadLater rfl, started, regular, mutex⟩
      | openOutputFile => exact ⟨nofun, fun _early => threadLater rfl, started, regular, mutex⟩
      | createCleanupThread => exact ⟨nofun, fun _early => threadLater rfl, started, regular, mutex⟩
      | createClockThread => exact .late rfl (fun _initialized => nofun) nofun mutex
      | socket => exact .late rfl started regular mutex
      | bind => exact .late rfl started regular mutex
      | listen => exact .late rfl started regular mutex
      | timerCreate => exact .late rfl started regular mutex
      | timerSettime => exact .late rfl started regular mutex

theorem ClockOrder.serverRun (order : process.ClockOrder build) (call : RunCall) :
    (process.serverRun build call done).ClockOrder build := by
  obtain ⟨_semLater, _threadLater, started, regular, mutex⟩ := order
  cases done with
  | false => exact .late rfl started regular mutex
  | true =>
      cases call with
      | accept =>
          simp only [Process.serverRun, if_true]
          split <;> exact .late rfl started regular mutex
      | select => exact .late rfl started regular mutex
      | openDevice => exact .late rfl started regular mutex
      | createClientThread => exact .late rfl started regular mutex

theorem ClockOrder.serverExit {call : ExitCall} (order : process.ClockOrder build)
    (made : process.serverExit build call done = .ok after) : after.ClockOrder build := by
  obtain ⟨_semLater, _threadLater, started, regular, mutex⟩ := order
  obtain ⟨main, exitRet, timer, armed, signal, clockSem, outputFile, outputFileMutex, infos, list,
    rfl, destroyed, past⟩ := serverExit_frame made
  have behind : main.beforeClockThread = false := by
    cases main with
    | serverInit call => exact absurd rfl (past call)
    | _ => rfl
  have made : outputFileMutex ≠ .absent := by
    rcases destroyed with rfl | rfl
    · exact mutex
    · exact nofun
  exact .late behind started regular made

/-- Where the clock thread takes a step, all of server_init's part is over. -/
theorem ClockOrder.behind (order : process.ClockOrder build) (runs : process.clock ≠ .notStarted) :
    process.main.beforeClockThread = false := by
  by_contra early
  exact runs (order.threadLater (Bool.not_eq_false _ ▸ early))

theorem ClockOrder.clockThread (order : process.ClockOrder build)
    (made : process.clockThread build done = .ok after) : after.ClockOrder build := by
  have effect := clockThread_cases made
  have regular := order.regular
  cases place : process.clock with
  | notStarted =>
      rw [place] at effect
      exact effect.elim
  | waiting =>
      have behind := order.behind (place ▸ nofun)
      rw [place] at effect
      rcases effect with ⟨_failed, rfl⟩ | ⟨value, _present, rfl⟩ <;>
        exact .late behind (fun _initialized => nofun) nofun order.mutex
  | checking =>
      have behind := order.behind (place ▸ nofun)
      rw [place] at effect
      rcases effect with ⟨_stops, rfl⟩ | ⟨_goesOn, ⟨_device, rfl⟩ | ⟨rfl, rfl⟩⟩
      · exact .late behind (fun _initialized => nofun) nofun order.mutex
      · exact .late behind (fun _initialized => nofun) nofun order.mutex
      · cases done <;> exact .late behind (fun _initialized => nofun) (fun _writes => rfl) order.mutex
  | locking =>
      have behind := order.behind (place ▸ nofun)
      rw [place] at effect regular
      obtain ⟨_free, rfl⟩ := effect
      exact .late behind (fun _initialized => nofun) (fun _writes => regular True.intro) nofun
  | writing =>
      have behind := order.behind (place ▸ nofun)
      rw [place] at effect regular
      obtain ⟨_opened, rfl⟩ := effect
      exact .late behind (fun _initialized => nofun) (fun _writes => regular True.intro) order.mutex
  | unlocking written =>
      have behind := order.behind (place ▸ nofun)
      rw [place] at effect
      obtain ⟨_held, rfl⟩ := effect
      cases written <;> exact .late behind (fun _initialized => nofun) nofun nofun
  | returned ret =>
      rw [place] at effect
      exact effect.elim

theorem ClockOrder.step {event : Event} {reply : Unit} (order : process.ClockOrder build)
    (made : process.step build event = .ok (reply, after)) : after.ClockOrder build := by
  have advanced := step_cases made
  obtain ⟨semLater, threadLater, started, regular, mutex⟩ := id order
  cases event with
  | main done =>
      rcases mainThread_cases advanced with
        ⟨call, main, rfl⟩ | ⟨call, _main, rfl⟩ | ⟨call, _main, exits⟩
      · exact order.serverInit main
      · exact order.serverRun call
      · exact order.serverExit exits
  | interrupted =>
      obtain ⟨_main, ⟨_stops, rfl⟩ | rfl⟩ := interrupted_cases advanced
      · exact .late rfl started regular mutex
      · exact order
  | stop =>
      cases advanced
      exact ⟨semLater, threadLater, started, regular, mutex⟩
  | stopPost =>
      obtain ⟨_called, value, present, rfl⟩ := stopPost_cases advanced
      refine ⟨?_, threadLater, started, regular, mutex⟩
      intro early
      rw [semLater early] at present
      cases present
  | expire =>
      rw [expire_cases advanced]
      exact ⟨semLater, threadLater, started, regular, mutex⟩
  | timerCallback =>
      rcases timerCallback_cases advanced with ⟨value, present, rfl⟩ | rfl
      · refine ⟨?_, threadLater, started, regular, mutex⟩
        intro early
        rw [semLater early] at present
        cases present
      · exact ⟨semLater, threadLater, started, regular, mutex⟩
  | client info more =>
      obtain ⟨signal, outputFileMutex, infos, _signal, mutexKept, rfl⟩ :=
        clientThread_frame advanced
      exact ⟨semLater, threadLater, started, regular, mutexKept.not_absent mutex⟩
  | cleanup done =>
      obtain ⟨signal, consumed, cleanup, infos, list, _signal, _threads, rfl⟩ :=
        cleanupThread_frame advanced
      exact ⟨semLater, threadLater, started, regular, mutex⟩
  | clock done => exact order.clockThread advanced

theorem zeroData_clockOrder (build : Build) : zeroData.ClockOrder build where
  semLater := fun _early => rfl
  threadLater := fun _early => rfl
  started := nofun
  regular := nofun
  mutex := nofun

/-! ### A stop is not lost -/

/-- clock_sem has only been raised. -/
theorem Stopped.kept (stopped : process.Stopped) (shouldStop : after.shouldStop = process.shouldStop)
    (clock : after.clock = process.clock) (main : after.main.pastClockThread = process.main.pastClockThread)
    (raised : ∀ value, process.clockSem = .present (value + 1) →
      ∃ value, after.clockSem = .present (value + 1)) : after.Stopped := by
  obtain ⟨stop, told⟩ := stopped
  refine ⟨shouldStop.trans stop, ?_⟩
  rcases told with ⟨ret, returned⟩ | checking | ⟨value, present⟩ | past
  · exact Or.inl ⟨ret, clock.trans returned⟩
  · exact Or.inr (Or.inl (clock.trans checking))
  · exact Or.inr (Or.inr (Or.inl (raised value present)))
  · exact Or.inr (Or.inr (Or.inr (main.trans past)))

theorem Stopped.past (stop : process.shouldStop = true)
    (past : process.main.pastClockThread = true) : process.Stopped :=
  ⟨stop, Or.inr (Or.inr (Or.inr past))⟩

/-- Before clock_sem is there no server_stop has come to its end. -/
theorem ClockOrder.not_stopped (order : process.ClockOrder build)
    (early : process.main.beforeClockSem = true) (thread : process.main.beforeClockThread = true)
    (unpast : process.main.pastClockThread = false) : ¬process.Stopped := by
  have notStarted := order.threadLater thread
  rintro ⟨_stop, ⟨ret, returned⟩ | checking | ⟨value, present⟩ | past⟩
  · rw [notStarted] at returned
    cases returned
  · rw [notStarted] at checking
    cases checking
  · rw [order.semLater early] at present
    cases present
  · rw [unpast] at past
    cases past

theorem Stopped.serverInit {call : InitCall} (stopped : process.Stopped)
    (order : process.ClockOrder build) (main : process.main = .serverInit call) :
    (process.serverInit build call done).Stopped := by
  have unpast : process.main.pastClockThread = false := by rw [main]; rfl
  have kept : ∀ value, process.clockSem = .present (value + 1) →
      ∃ value, process.clockSem = .present (value + 1) := fun value present => ⟨value, present⟩
  cases done with
  | false => exact stopped.kept rfl rfl unpast.symm kept
  | true =>
      cases call with
      | initFinishedSignal =>
          exact absurd stopped (order.not_stopped (by rw [main]; rfl) (by rw [main]; rfl) unpast)
      | initClockSem =>
          exact absurd stopped (order.not_stopped (by rw [main]; rfl) (by rw [main]; rfl) unpast)
      | createClockThread =>
          have notStarted := order.threadLater (by rw [main]; rfl)
          obtain ⟨stop, ⟨ret, returned⟩ | checking | ⟨value, present⟩ | past⟩ := stopped
          · rw [notStarted] at returned
            cases returned
          · rw [notStarted] at checking
            cases checking
          · exact ⟨stop, Or.inr (Or.inr (Or.inl ⟨value, present⟩))⟩
          · rw [unpast] at past
            cases past
      | openOutputFile => exact stopped.kept rfl rfl unpast.symm kept
      | createCleanupThread => exact stopped.kept rfl rfl unpast.symm kept
      | socket => exact stopped.kept rfl rfl unpast.symm kept
      | bind => exact stopped.kept rfl rfl unpast.symm kept
      | listen => exact stopped.kept rfl rfl unpast.symm kept
      | timerCreate => exact stopped.kept rfl rfl unpast.symm kept
      | timerSettime => exact stopped.kept rfl rfl unpast.symm kept

theorem Stopped.serverRun {call : RunCall} (stopped : process.Stopped)
    (main : process.main = .serverRun call) : (process.serverRun build call done).Stopped := by
  have unpast : process.main.pastClockThread = false := by rw [main]; rfl
  have kept : ∀ value, process.clockSem = .present (value + 1) →
      ∃ value, process.clockSem = .present (value + 1) := fun value present => ⟨value, present⟩
  cases done with
  | false => exact stopped.kept rfl rfl unpast.symm kept
  | true =>
      cases call with
      | accept =>
          simp only [Process.serverRun, if_true]
          split <;> exact stopped.kept rfl rfl unpast.symm kept
      | select => exact stopped.kept rfl rfl unpast.symm kept
      | openDevice => exact stopped.kept rfl rfl unpast.symm kept
      | createClientThread => exact stopped.kept rfl rfl unpast.symm kept

theorem Stopped.serverExit {call : ExitCall} (stopped : process.Stopped)
    (main : process.main = .serverExit call)
    (made : process.serverExit build call done = .ok after) : after.Stopped := by
  have kept : ∀ value, process.clockSem = .present (value + 1) →
      ∃ value, process.clockSem = .present (value + 1) := fun value present => ⟨value, present⟩
  have effect := serverExit_effect made
  cases call with
  | timerDelete =>
      obtain ⟨exitRet, timer, armed, rfl⟩ := effect
      exact stopped.kept rfl rfl (by rw [main]; rfl) kept
  | postFinishedSignal =>
      rcases effect with ⟨_initialized, posts, _present, rfl⟩ | ⟨_initialized, rfl⟩ <;>
        exact stopped.kept rfl rfl (by rw [main]; rfl) kept
  | joinCleanupThread =>
      obtain ⟨_returned, rfl⟩ := effect
      exact stopped.kept rfl rfl (by rw [main]; rfl) kept
  | joinClockThread =>
      obtain ⟨_returned, rfl⟩ := effect
      exact .past stopped.1 rfl
  | closeSocket =>
      obtain ⟨exitRet, rfl⟩ := effect
      exact .past stopped.1 rfl
  | closeOutputFile =>
      obtain ⟨exitRet, outputFile, _closed, rfl⟩ := effect
      exact .past stopped.1 rfl
  | destroyMutex =>
      obtain ⟨exitRet, outputFileMutex, _destroyed, rfl⟩ := effect
      exact .past stopped.1 rfl
  | destroyFinishedSignal =>
      obtain ⟨exitRet, threadFinishedSignal, _freed, rfl⟩ := effect
      exact .past stopped.1 rfl
  | destroyClockSem =>
      obtain ⟨exitRet, clockSem, _freed, rfl⟩ := effect
      exact .past stopped.1 rfl
  | freeThreadList =>
      obtain ⟨main, rfl | ⟨ret, rfl⟩, rfl⟩ := effect <;> exact .past stopped.1 rfl
  | unlink =>
      obtain ⟨exitRet, ret, rfl⟩ := effect
      exact .past stopped.1 rfl

theorem Stopped.clockThread (stopped : process.Stopped)
    (made : process.clockThread build done = .ok after) : after.Stopped := by
  obtain ⟨stop, told⟩ := stopped
  have effect := clockThread_cases made
  -- Behind the check only the semaphore or main's place can be meant.
  have waits : (∀ ret, process.clock ≠ .returned ret) → process.clock ≠ .checking →
      (∃ value, process.clockSem = .present (value + 1)) ∨
        process.main.pastClockThread = true := by
    intro runs unchecked
    rcases told with ⟨ret, returned⟩ | checking | told
    · exact absurd returned (runs ret)
    · exact absurd checking unchecked
    · exact told
  cases place : process.clock with
  | notStarted =>
      rw [place] at effect
      exact effect.elim
  | waiting =>
      rw [place] at effect
      rcases effect with ⟨_failed, rfl⟩ | ⟨value, _present, rfl⟩
      · exact ⟨stop, Or.inl ⟨.err, rfl⟩⟩
      · exact ⟨stop, Or.inr (Or.inl rfl)⟩
  | checking =>
      rw [place] at effect
      rcases effect with ⟨_stops, rfl⟩ | ⟨goesOn, _after⟩
      · exact ⟨stop, Or.inl ⟨.ok, rfl⟩⟩
      · rw [stop] at goesOn
        cases goesOn
  | locking =>
      have told := waits (place ▸ nofun) (place ▸ nofun)
      rw [place] at effect
      obtain ⟨_free, rfl⟩ := effect
      exact ⟨stop, Or.inr (Or.inr told)⟩
  | writing =>
      have told := waits (place ▸ nofun) (place ▸ nofun)
      rw [place] at effect
      obtain ⟨_opened, rfl⟩ := effect
      exact ⟨stop, Or.inr (Or.inr told)⟩
  | unlocking written =>
      have told := waits (place ▸ nofun) (place ▸ nofun)
      rw [place] at effect
      obtain ⟨_held, rfl⟩ := effect
      exact ⟨stop, Or.inr (Or.inr told)⟩
  | returned ret =>
      rw [place] at effect
      exact effect.elim

theorem Stopped.step {event : Event} {reply : Unit} (stopped : process.Stopped)
    (order : process.ClockOrder build)
    (made : process.step build event = .ok (reply, after)) : after.Stopped := by
  have kept : ∀ value, process.clockSem = .present (value + 1) →
      ∃ value, process.clockSem = .present (value + 1) := fun value present => ⟨value, present⟩
  have advanced := step_cases made
  cases event with
  | main done =>
      rcases mainThread_cases advanced with
        ⟨call, main, rfl⟩ | ⟨call, main, rfl⟩ | ⟨call, main, exits⟩
      · exact stopped.serverInit order main
      · exact stopped.serverRun main
      · exact stopped.serverExit main exits
  | interrupted =>
      obtain ⟨main, ⟨_stops, rfl⟩ | rfl⟩ := interrupted_cases advanced
      · exact stopped.kept rfl rfl (by rw [main]; rfl) kept
      · exact stopped
  | stop =>
      cases advanced
      exact stopped.kept stopped.1.symm rfl rfl kept
  | stopPost =>
      obtain ⟨_called, value, _present, rfl⟩ := stopPost_cases advanced
      exact stopped.kept rfl rfl rfl (fun _value _before => ⟨value, rfl⟩)
  | expire =>
      rw [expire_cases advanced]
      exact stopped.kept rfl rfl rfl kept
  | timerCallback =>
      rcases timerCallback_cases advanced with ⟨value, _present, rfl⟩ | rfl
      · exact stopped.kept rfl rfl rfl (fun _value _before => ⟨value, rfl⟩)
      · exact stopped.kept rfl rfl rfl kept
  | client info more =>
      obtain ⟨signal, mutex, infos, _signal, _mutex, rfl⟩ := clientThread_frame advanced
      exact stopped.kept rfl rfl rfl kept
  | cleanup done =>
      obtain ⟨signal, consumed, cleanup, infos, list, _signal, _threads, rfl⟩ :=
        cleanupThread_frame advanced
      exact stopped.kept rfl rfl rfl kept
  | clock done => exact stopped.clockThread advanced

/-- should_stop is set by the signals of the run, before their posts. -/
structure Signalled (process : Process) (earlier : List Event) : Prop where
  called : process.stopping ≠ 0 → process.shouldStop = true
  signal : process.shouldStop = true → .stop ∈ earlier

theorem Signalled.kept {earlier : List Event} (signalled : process.Signalled earlier)
    (event : Event) (shouldStop : after.shouldStop = process.shouldStop)
    (stopping : after.stopping = process.stopping) : after.Signalled (earlier ++ [event]) := by
  constructor
  · intro called
    rw [stopping] at called
    exact shouldStop.trans (signalled.called called)
  · intro stop
    rw [shouldStop] at stop
    exact List.mem_append_left _ (signalled.signal stop)

theorem mainThread_signals (made : process.mainThread build done = .ok after) :
    after.shouldStop = process.shouldStop ∧ after.stopping = process.stopping := by
  rcases mainThread_cases made with
    ⟨call, _main, rfl⟩ | ⟨call, _main, rfl⟩ | ⟨call, _main, exits⟩
  · cases done with
    | false => exact ⟨rfl, rfl⟩
    | true => cases call <;> exact ⟨rfl, rfl⟩
  · cases done with
    | false => exact ⟨rfl, rfl⟩
    | true => cases call <;> exact ⟨rfl, rfl⟩
  · obtain ⟨main, exitRet, timer, armed, signal, clockSem, outputFile, mutex, infos, list, rfl,
      _destroyed, _past⟩ := serverExit_frame exits
    exact ⟨rfl, rfl⟩

theorem Signalled.step {earlier : List Event} {event : Event} {reply : Unit}
    (signalled : process.Signalled earlier)
    (made : process.step build event = .ok (reply, after)) :
    after.Signalled (earlier ++ [event]) := by
  have advanced := step_cases made
  cases event with
  | main done =>
      obtain ⟨shouldStop, stopping⟩ := mainThread_signals advanced
      exact signalled.kept _ shouldStop stopping
  | interrupted =>
      obtain ⟨_main, ⟨_stops, rfl⟩ | rfl⟩ := interrupted_cases advanced <;>
        exact signalled.kept _ rfl rfl
  | stop =>
      cases advanced
      exact ⟨fun _called => rfl, fun _stop => List.mem_concat_self⟩
  | stopPost =>
      obtain ⟨called, value, _present, rfl⟩ := stopPost_cases advanced
      exact ⟨fun _again => signalled.called called,
        fun stop => List.mem_append_left _ (signalled.signal stop)⟩
  | expire =>
      rw [expire_cases advanced]
      exact signalled.kept _ rfl rfl
  | timerCallback =>
      rcases timerCallback_cases advanced with ⟨value, _present, rfl⟩ | rfl <;>
        exact signalled.kept _ rfl rfl
  | client info more =>
      obtain ⟨signal, mutex, infos, _signal, _mutex, rfl⟩ := clientThread_frame advanced
      exact signalled.kept _ rfl rfl
  | cleanup done =>
      obtain ⟨signal, consumed, cleanup, infos, list, _signal, _threads, rfl⟩ :=
        cleanupThread_frame advanced
      exact signalled.kept _ rfl rfl
  | clock done =>
      obtain ⟨_started, clockSem, mutex, clock, _mutex, rfl⟩ := clockThread_frame advanced
      exact signalled.kept _ rfl rfl

/-- What the events of a run tell about the stop. -/
structure StopKnown (build : Build) (process : Process) (earlier : List Event) : Prop where
  order : process.ClockOrder build
  signalled : process.Signalled earlier
  stopped : .stopPost ∈ earlier → process.Stopped

theorem StopKnown.step {earlier : List Event} {event : Event} {reply : Unit}
    (known : process.StopKnown build earlier)
    (made : process.step build event = .ok (reply, after)) :
    after.StopKnown build (earlier ++ [event]) := by
  refine ⟨known.order.step made, known.signalled.step made, ?_⟩
  intro posted
  rcases List.mem_append.mp posted with before | now
  · exact (known.stopped before).step known.order made
  · cases List.mem_singleton.mp now
    obtain ⟨called, value, _present, rfl⟩ := stopPost_cases (step_cases made)
    exact ⟨known.signalled.called called, Or.inr (Or.inr (Or.inl ⟨value, rfl⟩))⟩

theorem stopKnown_run {events : List Event} {replies : List Unit}
    (ran : runCalls (Process.step build) .zeroData events = .ok (replies, process)) :
    process.StopKnown build events := by
  let Known (process : Process) (earlier : List Event) : Prop := process.StopKnown build earlier
  have one : ∀ process earlier event reply after, Known process earlier → True →
      process.step build event = .ok (reply, after) → Known after (earlier ++ [event]) :=
    fun _process _earlier _event _reply _after known _any made => known.step made
  have initially : Known .zeroData [] :=
    ⟨zeroData_clockOrder build, ⟨fun called => absurd rfl called, nofun⟩, nofun⟩
  exact runCalls_follows [] one initially (runMeets_any events _) ran

/-! ### The last steps of clock_thread -/

theorem RunsOut.of_step (made : process.clockThread build true = .ok after)
    (runsOut : after.RunsOut build) : process.RunsOut build := by
  obtain ⟨count, replies, last, ran, returned⟩ := runsOut
  have first : process.step build (.clock true) = .ok ((), after) := step_of_advance made
  exact ⟨count + 1, () :: replies, last, runCalls_cons first ran, returned⟩

theorem runsOut_returned (returned : process.ClockReturned) : process.RunsOut build :=
  ⟨0, [], process, rfl, returned⟩

theorem runsOut_checking (stop : process.shouldStop = true) (place : process.clock = .checking) :
    process.RunsOut build := by
  have made : process.clockThread build true = .ok { process with clock := .returned .ok } := by
    simp only [Process.clockThread, place, stop, if_true]
  exact .of_step made (runsOut_returned ⟨.ok, rfl⟩)

theorem runsOut_waiting (stop : process.shouldStop = true) (place : process.clock = .waiting)
    {value : Nat} (present : process.clockSem = .present (value + 1)) :
    process.RunsOut build := by
  have made : process.clockThread build true =
      .ok { process with clockSem := .present value, clock := .checking } := by
    simp only [Process.clockThread, place, present, if_true]
  exact .of_step made (runsOut_checking stop rfl)

theorem runsOut_unlocking (stop : process.shouldStop = true) {written : Bool}
    (place : process.clock = .unlocking written) {value : Nat}
    (present : process.clockSem = .present (value + 1)) {holder : Option Holder}
    (mutex : process.outputFileMutex = .present holder) : process.RunsOut build := by
  have made : process.clockThread build true = .ok { process with
      outputFileMutex := .present none
      clock := if written then .waiting else .returned .err } := by
    simp only [Process.clockThread, place, unlockMutex, mutex]
    rfl
  cases written with
  | true => exact .of_step made (runsOut_waiting stop rfl present)
  | false => exact .of_step made (runsOut_returned ⟨.err, rfl⟩)

theorem runsOut_writing (stop : process.shouldStop = true) (place : process.clock = .writing)
    {value : Nat} (present : process.clockSem = .present (value + 1)) {holder : Option Holder}
    (mutex : process.outputFileMutex = .present holder)
    (file : process.outputFile = .present ()) : process.RunsOut build := by
  have made : process.clockThread build true =
      .ok { process with clock := .unlocking true } := by
    simp only [Process.clockThread, place, file]
  exact .of_step made (runsOut_unlocking stop rfl present mutex)

theorem runsOut_locking (stop : process.shouldStop = true) (place : process.clock = .locking)
    {value : Nat} (present : process.clockSem = .present (value + 1))
    (free : process.outputFileMutex = .present none)
    (file : process.outputFile = .present ()) : process.RunsOut build := by
  have made : process.clockThread build true = .ok { process with
      outputFileMutex := .present (some .clock)
      clock := .writing } := by
    simp only [Process.clockThread, place, lockMutex, free]
    rfl
  exact .of_step made (runsOut_writing stop rfl present rfl file)

/-- At the join the clock thread ends on its own, unless a client keeps the mutex. -/
theorem ClockEnds.runsOut (ends : process.ClockEnds) (order : process.ClockOrder build)
    (available : process.Available build)
    (main : process.main = .serverExit .joinClockThread)
    (initialized : process.clockThreadInitialized = true)
    (free : process.clock = .locking → process.outputFileMutex = .present none) :
    process.RunsOut build := by
  have unclosed := available.shared (by rw [main]; rfl)
  have started := order.started initialized
  have opened : process.clock.Writes → process.outputFile = .present () := by
    intro writes
    have there := available.used (Or.inr ⟨order.regular writes, started⟩)
    cases file : process.outputFile with
    | absent => exact absurd file there
    | gone => exact absurd (Or.inl file) unclosed
    | present handle => rfl
  have unlockable : ∃ holder, process.outputFileMutex = .present holder := by
    cases mutex : process.outputFileMutex with
    | absent => exact absurd mutex order.mutex
    | gone => exact absurd (Or.inr (Or.inl mutex)) unclosed
    | present holder => exact ⟨holder, rfl⟩
  obtain ⟨holder, mutex⟩ := unlockable
  rcases ends with returned | ⟨stop, checking | ⟨value, present⟩⟩
  · exact runsOut_returned returned
  · exact runsOut_checking stop checking
  · cases place : process.clock with
    | notStarted => exact absurd place started
    | waiting => exact runsOut_waiting stop place present
    | checking => exact runsOut_checking stop place
    | locking =>
        exact runsOut_locking stop place present (free place) (opened (place ▸ True.intro))
    | writing => exact runsOut_writing stop place present mutex (opened (place ▸ True.intro))
    | unlocking written => exact runsOut_unlocking stop place present mutex
    | returned ret => exact runsOut_returned ⟨ret, place⟩

/-! ### Without a stop -/

theorem stuck_clockThread (stuck : process.Stuck) (succeeds : done = true)
    (made : process.clockThread build done = .ok after) : after.Stuck := by
  obtain ⟨main, initialized, goesOn, _runs, writes⟩ := stuck
  subst succeeds
  have effect := clockThread_cases made
  cases place : process.clock with
  | notStarted =>
      rw [place] at effect
      exact effect.elim
  | waiting =>
      rw [place] at effect
      rcases effect with ⟨impossible, _after⟩ | ⟨value, _present, rfl⟩
      · cases impossible
      · exact ⟨main, initialized, goesOn, nofun, nofun⟩
  | checking =>
      rw [place] at effect
      rcases effect with ⟨stops, _after⟩ | ⟨_goesOn, ⟨_device, rfl⟩ | ⟨_regular, rfl⟩⟩
      · rw [goesOn] at stops
        cases stops
      · exact ⟨main, initialized, goesOn, nofun, nofun⟩
      · exact ⟨main, initialized, goesOn, nofun, nofun⟩
  | locking =>
      rw [place] at effect
      obtain ⟨_free, rfl⟩ := effect
      exact ⟨main, initialized, goesOn, nofun, nofun⟩
  | writing =>
      rw [place] at effect
      obtain ⟨_opened, rfl⟩ := effect
      exact ⟨main, initialized, goesOn, nofun, nofun⟩
  | unlocking written =>
      rw [place] at effect
      obtain ⟨_held, rfl⟩ := effect
      cases written with
      | true => exact ⟨main, initialized, goesOn, nofun, nofun⟩
      | false => exact absurd place writes
  | returned ret =>
      rw [place] at effect
      exact effect.elim

theorem Stuck.step {event : Event} {reply : Unit} (stuck : process.Stuck)
    (unstopped : Unstopped event)
    (made : process.step build event = .ok (reply, after)) : after.Stuck := by
  have advanced := step_cases made
  obtain ⟨main, initialized, goesOn, runs, writes⟩ := stuck
  cases event with
  | main done =>
      change process.mainThread build done = .ok after at advanced
      rw [Process.mainThread, main] at advanced
      obtain ⟨returned, _after⟩ := serverExit_effect advanced
      exact absurd (returned initialized) runs
  | interrupted =>
      obtain ⟨other, _after⟩ := interrupted_cases advanced
      rw [main] at other
      cases other
  | stop => exact unstopped.elim
  | stopPost =>
      obtain ⟨_called, value, _present, rfl⟩ := stopPost_cases advanced
      exact ⟨main, initialized, goesOn, runs, writes⟩
  | expire =>
      rw [expire_cases advanced]
      exact ⟨main, initialized, goesOn, runs, writes⟩
  | timerCallback =>
      rcases timerCallback_cases advanced with ⟨value, _present, rfl⟩ | rfl <;>
        exact ⟨main, initialized, goesOn, runs, writes⟩
  | client info more =>
      obtain ⟨signal, mutex, infos, _signal, _mutex, rfl⟩ := clientThread_frame advanced
      exact ⟨main, initialized, goesOn, runs, writes⟩
  | cleanup done =>
      obtain ⟨signal, consumed, cleanup, infos, list, _signal, _threads, rfl⟩ :=
        cleanupThread_frame advanced
      exact ⟨main, initialized, goesOn, runs, writes⟩
  | clock done => exact stuck_clockThread ⟨main, initialized, goesOn, runs, writes⟩ unstopped advanced

theorem stuck_run {events : List Event} {replies : List Unit} (stuck : process.Stuck)
    (unstopped : ∀ event, event ∈ events → Unstopped event)
    (ran : runCalls (Process.step build) process events = .ok (replies, after)) : after.Stuck :=
  runCalls_keeps (fun _process _event _reply _after stuck unstopped made =>
    stuck.step unstopped made) stuck
    (runMeets_of_forall (fun _process event member => unstopped event member) process) ran

/-- When server_exit is at the join of clock_thread: behind a server_stop that
has run to its end, or a clock_thread that has returned, the join needs nobody
else, except that a client may keep the mutex.  Without a signal the join ends
only if a call of clock_thread fails. -/
theorem server_exit_joins_clock (events : List Event) (replies : List Unit)
    (ran : runCalls (Process.step build) .zeroData events = .ok (replies, process))
    (main : process.main = .serverExit .joinClockThread)
    (initialized : process.clockThreadInitialized = true) :
    (.stopPost ∈ events ∨ process.ClockReturned →
      process.ClockEnds ∧
        ((process.clock = .locking → process.outputFileMutex = .present none) →
          process.RunsOut build)) ∧
    (.stop ∉ events → ¬process.ClockReturned →
      ¬process.ClockEnds ∧
        (process.clock ≠ .unlocking false → ∀ later others after,
          (∀ event, event ∈ later → Unstopped event) →
          runCalls (Process.step build) process later = .ok (others, after) →
          after.main = .serverExit .joinClockThread)) := by
  have known : process.StopKnown build events := stopKnown_run ran
  have available : process.Available build := available_run ran
  constructor
  · intro told
    have ends : process.ClockEnds := by
      rcases told with posted | returned
      · obtain ⟨stop, returned | checking | present | past⟩ := known.stopped posted
        · exact Or.inl returned
        · exact Or.inr ⟨stop, Or.inl checking⟩
        · exact Or.inr ⟨stop, Or.inr present⟩
        · rw [main] at past
          cases past
      · exact Or.inl returned
    exact ⟨ends, fun free => ends.runsOut known.order available main initialized free⟩
  · intro unsignalled runs
    have goesOn : process.shouldStop = false := by
      by_contra stop
      exact unsignalled (known.signalled.signal (Bool.not_eq_false _ ▸ stop))
    refine ⟨?_, ?_⟩
    · rintro (returned | ⟨stop, _told⟩)
      · exact runs returned
      · rw [goesOn] at stop
        cases stop
    · intro writes later others after unstopped onward
      exact (stuck_run ⟨main, initialized, goesOn, runs, writes⟩ unstopped onward).main

end Process

/-- server_exit, up to the join of clock_thread. -/
def firstJoin : List Event :=
  [.main true, .main true, .cleanup true, .cleanup true, .main true]

/-- A stop signal while select waits. -/
theorem server_exit_joins_clock_stopped : ∃ replies process,
    runCalls (Process.step .regularFile) .zeroData (startup ++ stopSignal ++ firstJoin) =
      .ok (replies, process) ∧
    process.main = .serverExit .joinClockThread ∧ process.ClockEnds ∧
      process.RunsOut .regularFile := by
  have computed : (runCalls (Process.step .regularFile) .zeroData
      (startup ++ stopSignal ++ firstJoin)).map (fun result =>
        (result.2.main, result.2.clockThreadInitialized, result.2.clock)) =
      .ok (.serverExit .joinClockThread, true, .waiting) := by decide +kernel
  obtain ⟨⟨replies, process⟩, ran, shown⟩ := ok_of_map computed
  obtain ⟨main, rest⟩ := Prod.mk.inj shown
  obtain ⟨initialized, clock⟩ := Prod.mk.inj rest
  obtain ⟨ends, runsOut⟩ := (Process.server_exit_joins_clock _ replies ran main
    initialized).1 (Or.inl (by decide))
  refine ⟨replies, process, ran, main, ends, runsOut ?_⟩
  intro locking
  rw [clock] at locking
  cases locking

/-- bind fails, and nobody tells clock_thread to stop. -/
def bindFails : List Event := List.replicate 6 (.main true) ++ [.main false] ++ firstJoin

/-- A tick, and a client that has the mutex when clock_thread comes to lock it;
then a stop signal. -/
def mutexKept : List Event :=
  startup ++ connection ++ [.client 0 true, .expire, .timerCallback, .clock true, .clock true] ++
    stopSignal ++ firstJoin

/-- In the first run should_stop is not set at the join.  In the second one it is
and clock_sem has been posted, but clock_thread cannot go on by itself. -/
theorem server_exit_waits_for_clock :
    (runCalls (Process.step .regularFile) .zeroData bindFails).map (fun result =>
        (result.2.main, result.2.shouldStop, result.2.clock, result.2.clockSem)) =
      .ok (.serverExit .joinClockThread, false, .waiting, .present 0) ∧
    (runCalls (Process.step .regularFile) .zeroData mutexKept).map (fun result =>
        (result.2.main, result.2.shouldStop, result.2.clock, result.2.outputFileMutex)) =
      .ok (.serverExit .joinClockThread, true, .locking, .present (some (.client 0))) ∧
    runCalls (Process.step .regularFile) .zeroData (mutexKept ++ [.clock true]) =
      .error .waits := by
  refine ⟨?_, ?_, ?_⟩ <;> decide +kernel

end Aesd.Lifecycle
