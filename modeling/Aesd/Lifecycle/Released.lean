/-
What is left when main has returned.

server_exit looks at what server_init has come to, so however the start or the
run ended, the timer, the stream, the semaphores and the two service threads
are gone behind it.  A main that reports success was told to stop, and has cut
no session off.
-/

import Aesd.Lifecycle.Shutdown

set_option autoImplicit false

namespace Aesd.Lifecycle

open BoundedLoop CallRun Server

/-- The timer's memory is there, and the timer is not running yet. -/
def MainThread.beforeTimer : MainThread → Bool
  | .serverInit .timerCreate => true
  | .serverInit .timerSettime => true
  | _ => false

/-- server_exit has been called. -/
def MainThread.exits : MainThread → Bool
  | .serverExit _call => true
  | .returned _ret => true
  | _ => false

/-- server_exit has come past the timer. -/
def MainThread.pastTimer : MainThread → Bool
  | .serverExit .timerDelete => false
  | main => main.exits

/-- server_exit has come past output_file_mutex. -/
def MainThread.pastMutex : MainThread → Bool
  | .serverExit .destroyMutex => false
  | main => main.pastOutputFile

/-- server_exit has come past thread_finished_signal. -/
def MainThread.pastFinishedSignal : MainThread → Bool
  | .serverExit .destroyFinishedSignal => false
  | main => main.pastMutex

namespace Process

/-- What server_exit has come past is gone; a call that failed is in its
return value. -/
structure Discharged (process : Process) : Prop where
  timed : process.main.beforeTimer = true → process.timer = true
  armed : process.armed = true → process.timer = true ∨ process.exitRet = .err
  timer : process.main.pastTimer = true → process.timer = false
  outputFile : process.main.pastOutputFile = true → process.outputFile ≠ .present ()
  mutex : process.main.pastMutex = true → process.exitRet = .ok → process.outputFileMutex = .gone
  finishedSignal : process.main.pastFinishedSignal = true →
    ∀ posts, process.threadFinishedSignal ≠ .present posts
  clockSem : process.main.pastClockSem = true → ∀ value, process.clockSem ≠ .present value
  told : process.main.exits = true → process.started = .ok → process.shouldStop = true
  status : process.main = .returned .ok → process.started = .ok ∧ process.exitRet = .ok

variable {build : Build} {process after : Process} {done : Bool}

theorem not_returned {call : ExitCall} {ret : Ret} {Asked : Prop}
    (same : MainThread.serverExit call = .returned ret) : Asked := by
  cases same

theorem err_not_ok {Asked : Prop} (same : Ret.err = .ok) : Asked := by
  cases same

theorem gone_not_present {Value : Type} {value : Value} : Resource.gone ≠ .present value := by
  intro same
  cases same

theorem checked_exitRet (process : Process) (done : Bool) :
    ((process.checked done).exitRet = .ok → process.exitRet = .ok) ∧
      (process.exitRet = .err → (process.checked done).exitRet = .err) := by
  cases done with
  | true => exact ⟨id, id⟩
  | false => exact ⟨nofun, fun _failed => rfl⟩

/-! ### Before server_exit -/

/-- Before server_exit only the timer counts. -/
theorem Discharged.early (running : after.main.exits = false)
    (timed : after.main.beforeTimer = true → after.timer = true)
    (armed : after.armed = true → after.timer = true ∨ after.exitRet = .err) :
    after.Discharged := by
  cases main : after.main with
  | serverExit call =>
      rw [main] at running
      cases running
  | returned ret =>
      rw [main] at running
      cases running
  | serverInit call =>
      constructor <;> first | exact timed | exact armed | (rw [main]; exact nofun)
  | serverRun call =>
      constructor <;> first | exact timed | exact armed | (rw [main]; exact nofun)

theorem Discharged.returns (discharged : process.Discharged) {ret : Ret}
    (told : ret = .ok → process.shouldStop = true) : (process.returns ret).Discharged where
  timed := nofun
  armed := discharged.armed
  timer := nofun
  outputFile := nofun
  mutex := nofun
  finishedSignal := nofun
  clockSem := nofun
  told := fun _exits => told
  status := nofun

theorem Discharged.serverInit {call : InitCall} (discharged : process.Discharged)
    (main : process.main = .serverInit call) :
    (process.serverInit build call done).Discharged := by
  have timed := discharged.timed
  rw [main] at timed
  cases done with
  | false => exact discharged.returns nofun
  | true =>
      cases call with
      | initClockSem => cases build <;> exact .early rfl nofun discharged.armed
      | listen => exact .early rfl (fun _before => rfl) (fun _armed => Or.inl rfl)
      | timerCreate => exact .early rfl (fun _before => timed rfl) discharged.armed
      | timerSettime => exact .early rfl nofun (fun _armed => Or.inl (timed rfl))
      | initFinishedSignal => exact .early rfl nofun discharged.armed
      | openOutputFile => exact .early rfl nofun discharged.armed
      | createCleanupThread => exact .early rfl nofun discharged.armed
      | createClockThread => exact .early rfl nofun discharged.armed
      | socket => exact .early rfl nofun discharged.armed
      | bind => exact .early rfl nofun discharged.armed

theorem Discharged.serverRun {call : RunCall} (discharged : process.Discharged) :
    (process.serverRun build call done).Discharged := by
  cases done with
  | false => exact discharged.returns err_not_ok
  | true =>
      cases call with
      | select => exact .early rfl (unasked rfl) discharged.armed
      | accept =>
          simp only [Process.serverRun, if_true]
          split <;> exact .early rfl (unasked rfl) discharged.armed
      | openDevice => exact .early rfl (unasked rfl) discharged.armed
      | createClientThread => exact .early rfl (unasked rfl) discharged.armed

/-! ### server_exit -/

/-- A call of server_exit behind the timer. -/
theorem Discharged.onward (discharged : process.Discharged) (exits : process.main.exits = true)
    (same : (after.timer, after.armed, after.started, after.shouldStop) =
      (process.timer, process.armed, process.started, process.shouldStop))
    (exitRet : process.exitRet = .err → after.exitRet = .err)
    (timed : after.main.beforeTimer = false)
    (timer : after.main.pastTimer = true → process.timer = false)
    (outputFile : after.main.pastOutputFile = true → after.outputFile ≠ .present ())
    (mutex : after.main.pastMutex = true → after.exitRet = .ok → after.outputFileMutex = .gone)
    (finishedSignal : after.main.pastFinishedSignal = true →
      ∀ posts, after.threadFinishedSignal ≠ .present posts)
    (clockSem : after.main.pastClockSem = true → ∀ value, after.clockSem ≠ .present value)
    (status : after.main = .returned .ok → process.started = .ok ∧ after.exitRet = .ok) :
    after.Discharged := by
  obtain ⟨sameTimer, sameArmed, started, shouldStop⟩ :
      after.timer = process.timer ∧ after.armed = process.armed ∧
        after.started = process.started ∧ after.shouldStop = process.shouldStop := by
    simpa only [Prod.mk.injEq] using same
  refine ⟨?_, ?_, ?_, outputFile, mutex, finishedSignal, clockSem, ?_, ?_⟩
  · intro impossible
    rw [timed] at impossible
    cases impossible
  · rw [sameArmed, sameTimer]
    exact fun armed => (discharged.armed armed).imp_right exitRet
  · rw [sameTimer]
    exact timer
  · rw [started, shouldStop]
    exact fun _exits => discharged.told exits
  · rw [started]
    exact status

theorem Discharged.timerDelete (discharged : process.Discharged)
    (main : process.main = .serverExit .timerDelete)
    (made : process.serverExit build .timerDelete done = .ok after) : after.Discharged := by
  have told := discharged.told (by rw [main]; rfl)
  simp only [Process.serverExit] at made
  split at made
  · cases made
    refine ⟨unasked rfl, ?_, fun _past => rfl, unasked rfl, unasked rfl, unasked rfl, unasked rfl,
      ?_, not_returned⟩
    · intro armed
      cases done with
      | true =>
          change (process.armed && false) = true at armed
          rw [Bool.and_false] at armed
          cases armed
      | false => exact Or.inr rfl
    · cases done <;> exact fun _exits => told
  · rename_i untimed
    cases made
    exact discharged.onward (by rw [main]; rfl) rfl id rfl
      (fun _past => Bool.eq_false_iff.mpr untimed) (unasked rfl) (unasked rfl) (unasked rfl)
      (unasked rfl) not_returned

/-- What the calls in front of the stream take away counts nowhere else. -/
theorem Discharged.before (discharged : process.Discharged) {call next : ExitCall}
    (main : process.main = .serverExit call) (timer : call ≠ .timerDelete)
    (behind : after.main = .serverExit next)
    (open_ : (MainThread.serverExit next).pastOutputFile = false)
    (same : (after.timer, after.armed, after.started, after.shouldStop) =
      (process.timer, process.armed, process.started, process.shouldStop))
    (exitRet : process.exitRet = .err → after.exitRet = .err) : after.Discharged := by
  have early : ∀ past : MainThread → Bool,
      past (.serverExit next) = false → past after.main = true → False := by
    intro past unpast impossible
    rw [behind, unpast] at impossible
    cases impossible
  have past : process.main.pastTimer = true := by
    rw [main]
    cases call <;> first | exact absurd rfl timer | rfl
  refine discharged.onward (by rw [main]; rfl) same exitRet ?_ (fun _past => discharged.timer past)
    (fun late => (early _ open_ late).elim) ?_ ?_ ?_ ?_
  · rw [behind]
    rfl
  · intro late
    cases next <;> first | exact (early MainThread.pastMutex rfl late).elim | cases open_
  · intro late
    cases next <;>
      first | exact (early MainThread.pastFinishedSignal rfl late).elim | cases open_
  · intro late
    cases next <;> first | exact (early MainThread.pastClockSem rfl late).elim | cases open_
  · rw [behind]
    exact nofun

theorem Discharged.closeOutputFile (discharged : process.Discharged)
    (main : process.main = .serverExit .closeOutputFile)
    (made : process.serverExit build .closeOutputFile done = .ok after) : after.Discharged := by
  have exits : process.main.exits = true := by rw [main]; rfl
  have timer := discharged.timer (by rw [main]; rfl)
  simp only [Process.serverExit] at made
  split at made
  · cases made
    cases done <;> exact discharged.onward exits rfl (process.checked_exitRet _).2 rfl
      (fun _past => timer) (fun _past => gone_not_present) (unasked rfl) (unasked rfl) (unasked rfl)
      not_returned
  · rename_i unopened
    cases made
    exact discharged.onward exits rfl id rfl (fun _past => timer) (fun _past => unopened)
      (unasked rfl) (unasked rfl) (unasked rfl) not_returned

theorem Discharged.destroyMutex (discharged : process.Discharged)
    (main : process.main = .serverExit .destroyMutex)
    (made : process.serverExit build .destroyMutex done = .ok after) : after.Discharged := by
  have exits : process.main.exits = true := by rw [main]; rfl
  have timer := discharged.timer (by rw [main]; rfl)
  have file := discharged.outputFile (by rw [main]; rfl)
  simp only [Process.serverExit] at made
  split at made
  · cases made
    cases done with
    | true =>
        exact discharged.onward exits rfl id rfl (fun _past => timer) (fun _past => file)
          (fun _past _ok => rfl) (unasked rfl) (unasked rfl) not_returned
    | false =>
        exact discharged.onward exits rfl (fun _failed => rfl) rfl (fun _past => timer)
          (fun _past => file) (fun _past => err_not_ok) (unasked rfl) (unasked rfl) not_returned
  · cases made
    exact discharged.onward exits rfl (fun _failed => rfl) rfl (fun _past => timer)
      (fun _past => file) (fun _past => err_not_ok) (unasked rfl) (unasked rfl) not_returned

theorem Discharged.destroyFinishedSignal (discharged : process.Discharged)
    (main : process.main = .serverExit .destroyFinishedSignal)
    (made : process.serverExit build .destroyFinishedSignal done = .ok after) :
    after.Discharged := by
  have exits : process.main.exits = true := by rw [main]; rfl
  have timer := discharged.timer (by rw [main]; rfl)
  have file := discharged.outputFile (by rw [main]; rfl)
  have mutex := discharged.mutex (by rw [main]; rfl)
  simp only [Process.serverExit] at made
  split at made
  · cases made
    have kept := process.checked_exitRet done
    cases done <;> exact discharged.onward exits rfl kept.2 rfl (fun _past => timer)
      (fun _past => file) (fun _past ok => mutex (kept.1 ok))
      (fun _past _posts => gone_not_present) (unasked rfl) not_returned
  · rename_i absent
    cases made
    exact discharged.onward exits rfl id rfl (fun _past => timer) (fun _past => file)
      (fun _past => mutex) (fun _past => absent) (unasked rfl) not_returned

theorem Discharged.destroyClockSem (discharged : process.Discharged)
    (main : process.main = .serverExit .destroyClockSem)
    (made : process.serverExit build .destroyClockSem done = .ok after) : after.Discharged := by
  have exits : process.main.exits = true := by rw [main]; rfl
  have timer := discharged.timer (by rw [main]; rfl)
  have file := discharged.outputFile (by rw [main]; rfl)
  have mutex := discharged.mutex (by rw [main]; rfl)
  have signal := discharged.finishedSignal (by rw [main]; rfl)
  simp only [Process.serverExit] at made
  split at made
  · cases made
    have kept := process.checked_exitRet done
    cases done <;> exact discharged.onward exits rfl kept.2 rfl (fun _past => timer)
      (fun _past => file) (fun _past ok => mutex (kept.1 ok)) (fun _past => signal)
      (fun _past _value => gone_not_present) not_returned
  · rename_i absent
    cases made
    exact discharged.onward exits rfl id rfl (fun _past => timer) (fun _past => file)
      (fun _past => mutex) (fun _past => signal) (fun _past => absent) not_returned

theorem ends_status (started exitRet : Ret) :
    MainThread.returned (if started = .ok ∧ exitRet = .ok then .ok else .err) = .returned .ok →
      started = .ok ∧ exitRet = .ok := by
  intro same
  by_contra failed
  rw [if_neg failed] at same
  cases same

/-- The last calls take nothing away that server_exit still looks at. -/
theorem Discharged.last (discharged : process.Discharged) {call : ExitCall}
    (main : process.main = .serverExit call) (late : call = .freeThreadList ∨ call = .unlink)
    (made : process.serverExit build call done = .ok after) : after.Discharged := by
  have exits : process.main.exits = true := by rw [main]; rfl
  have timer := discharged.timer (by rw [main]; rcases late with rfl | rfl <;> rfl)
  have file := discharged.outputFile (by rw [main]; rcases late with rfl | rfl <;> rfl)
  have mutex := discharged.mutex (by rw [main]; rcases late with rfl | rfl <;> rfl)
  have signal := discharged.finishedSignal (by rw [main]; rcases late with rfl | rfl <;> rfl)
  have sem := discharged.clockSem (by rw [main]; rcases late with rfl | rfl <;> rfl)
  rcases late with rfl | rfl
  · cases build with
    | regularFile =>
        cases made
        exact discharged.onward exits rfl id rfl (fun _past => timer) (fun _past => file)
          (fun _past => mutex) (fun _past => signal) (fun _past => sem) not_returned
    | aesdCharDevice =>
        cases made
        exact discharged.onward exits rfl id rfl (fun _past => timer) (fun _past => file)
          (fun _past => mutex) (fun _past => signal) (fun _past => sem) (ends_status _ _)
  · cases made
    have kept := process.checked_exitRet done
    cases done <;> exact discharged.onward exits rfl kept.2 rfl (fun _past => timer)
      (fun _past => file) (fun _past ok => mutex (kept.1 ok)) (fun _past => signal)
      (fun _past => sem) (ends_status _ _)

theorem Discharged.serverExit {call : ExitCall} (discharged : process.Discharged)
    (main : process.main = .serverExit call)
    (made : process.serverExit build call done = .ok after) : after.Discharged := by
  have effect := serverExit_effect made
  cases call with
  | timerDelete => exact discharged.timerDelete main made
  | postFinishedSignal =>
      have other : ExitCall.postFinishedSignal ≠ .timerDelete := by decide
      rcases effect with ⟨_initialized, posts, _present, rfl⟩ | ⟨_initialized, rfl⟩ <;>
        exact discharged.before main other rfl rfl rfl id
  | joinCleanupThread =>
      obtain ⟨_returned, rfl⟩ := effect
      exact discharged.before main nofun rfl rfl rfl id
  | joinClockThread =>
      obtain ⟨_returned, rfl⟩ := effect
      exact discharged.before main nofun rfl rfl rfl id
  | closeSocket =>
      have kept := (process.checked_exitRet done).2
      have other : ExitCall.closeSocket ≠ .timerDelete := by decide
      simp only [Process.serverExit] at made
      split at made
      · cases made
        cases done <;> exact discharged.before main other rfl rfl rfl kept
      · cases made
        exact discharged.before main other rfl rfl rfl id
  | closeOutputFile => exact discharged.closeOutputFile main made
  | destroyMutex => exact discharged.destroyMutex main made
  | destroyFinishedSignal => exact discharged.destroyFinishedSignal main made
  | destroyClockSem => exact discharged.destroyClockSem main made
  | freeThreadList => exact discharged.last main (Or.inl rfl) made
  | unlink => exact discharged.last main (Or.inr rfl) made

/-! ### The other threads -/

/-- A thread that only uses what is there brings nothing back. -/
theorem Discharged.aside (discharged : process.Discharged)
    (same : (after.main, after.timer, after.armed, after.exitRet, after.started, after.outputFile) =
      (process.main, process.timer, process.armed, process.exitRet, process.started,
        process.outputFile))
    (shouldStop : process.shouldStop = true → after.shouldStop = true)
    (mutex : process.outputFileMutex = .gone → after.outputFileMutex = .gone)
    (finishedSignal : (∀ posts, process.threadFinishedSignal ≠ .present posts) →
      ∀ posts, after.threadFinishedSignal ≠ .present posts)
    (clockSem : (∀ value, process.clockSem ≠ .present value) →
      ∀ value, after.clockSem ≠ .present value) : after.Discharged := by
  obtain ⟨main, timer, armed, exitRet, started, outputFile⟩ :
      after.main = process.main ∧ after.timer = process.timer ∧ after.armed = process.armed ∧
        after.exitRet = process.exitRet ∧ after.started = process.started ∧
        after.outputFile = process.outputFile := by
    simpa only [Prod.mk.injEq] using same
  constructor
  · rw [main, timer]
    exact discharged.timed
  · rw [armed, timer, exitRet]
    exact discharged.armed
  · rw [main, timer]
    exact discharged.timer
  · rw [main, outputFile]
    exact discharged.outputFile
  · rw [main, exitRet]
    exact fun past ok => mutex (discharged.mutex past ok)
  · rw [main]
    exact fun past => finishedSignal (discharged.finishedSignal past)
  · rw [main]
    exact fun past => clockSem (discharged.clockSem past)
  · rw [main, started]
    exact fun exits ok => shouldStop (discharged.told exits ok)
  · rw [main, started, exitRet]
    exact discharged.status

theorem Discharged.clientThread {info : Nat} {more : Bool} (discharged : process.Discharged)
    (made : process.clientThread info more = .ok after) : after.Discharged := by
  obtain ⟨thread, _found, effect⟩ := clientThread_cases made
  cases thread with
  | locking =>
      obtain ⟨free, rfl⟩ := effect
      refine discharged.aside rfl id ?_ id id
      rw [free]
      exact nofun
  | talking =>
      obtain ⟨_opened, rfl⟩ := effect
      exact discharged.aside rfl id id id id
  | unlocking =>
      obtain ⟨⟨holder, held⟩, rfl⟩ := effect
      refine discharged.aside rfl id ?_ id id
      rw [held]
      exact nofun
  | closing =>
      subst effect
      exact discharged.aside rfl id id id id
  | finishing =>
      subst effect
      exact discharged.aside rfl id id id id
  | posting =>
      obtain ⟨posts, present, rfl⟩ := effect
      exact discharged.aside rfl id id (fun absent => absurd present (absent posts)) id
  | returned => exact effect.elim

theorem Discharged.cleanupThread (discharged : process.Discharged)
    (made : process.cleanupThread done = .ok after) : after.Discharged := by
  have effect := cleanupThread_cases made
  cases place : process.cleanup with
  | notStarted =>
      rw [place] at effect
      exact effect.elim
  | waiting =>
      rw [place] at effect
      rcases effect with ⟨_failed, rfl⟩ | ⟨poster, posts, present, rfl⟩
      · exact discharged.aside rfl id id id id
      · exact discharged.aside rfl id id (fun absent => absurd present (absent _)) id
  | searching =>
      rw [place] at effect
      rcases effect with ⟨_none, rfl⟩ | ⟨info, _found, rfl⟩ <;>
        exact discharged.aside rfl id id id id
  | joining info =>
      rw [place] at effect
      obtain ⟨_returned, rfl⟩ := effect
      exact discharged.aside rfl id id id id
  | removing info =>
      rw [place] at effect
      subst effect
      exact discharged.aside rfl id id id id
  | returned ret =>
      rw [place] at effect
      exact effect.elim

theorem Discharged.clockThread (discharged : process.Discharged)
    (made : process.clockThread build done = .ok after) : after.Discharged := by
  have effect := clockThread_cases made
  cases place : process.clock with
  | notStarted =>
      rw [place] at effect
      exact effect.elim
  | waiting =>
      rw [place] at effect
      rcases effect with ⟨_failed, rfl⟩ | ⟨value, present, rfl⟩
      · exact discharged.aside rfl id id id id
      · exact discharged.aside rfl id id id (fun absent => absurd present (absent _))
  | checking =>
      rw [place] at effect
      rcases effect with ⟨_stops, rfl⟩ | ⟨_goesOn, ⟨_device, rfl⟩ | ⟨_regular, rfl⟩⟩ <;>
        exact discharged.aside rfl id id id id
  | locking =>
      rw [place] at effect
      obtain ⟨free, rfl⟩ := effect
      refine discharged.aside rfl id ?_ id id
      rw [free]
      exact nofun
  | writing =>
      rw [place] at effect
      obtain ⟨_opened, rfl⟩ := effect
      exact discharged.aside rfl id id id id
  | unlocking written =>
      rw [place] at effect
      obtain ⟨⟨holder, held⟩, rfl⟩ := effect
      refine discharged.aside rfl id ?_ id id
      rw [held]
      exact nofun
  | returned ret =>
      rw [place] at effect
      exact effect.elim

/-! ### Runs -/

theorem Discharged.step {event : Event} {reply : Unit} (discharged : process.Discharged)
    (made : process.step build event = .ok (reply, after)) : after.Discharged := by
  have advanced := step_cases made
  cases event with
  | main done =>
      rcases mainThread_cases advanced with
        ⟨call, main, rfl⟩ | ⟨call, _main, rfl⟩ | ⟨call, main, exits⟩
      · exact discharged.serverInit main
      · exact discharged.serverRun
      · exact discharged.serverExit main exits
  | interrupted =>
      obtain ⟨_main, ⟨stops, rfl⟩ | rfl⟩ := interrupted_cases advanced
      · exact discharged.returns (fun _ok => stops)
      · exact discharged
  | stop =>
      cases advanced
      exact discharged.aside rfl (fun _stop => rfl) id id id
  | stopPost =>
      obtain ⟨_called, value, present, rfl⟩ := stopPost_cases advanced
      exact discharged.aside rfl id id id (fun absent => absurd present (absent value))
  | expire =>
      rw [expire_cases advanced]
      exact discharged.aside rfl id id id id
  | timerCallback =>
      rcases timerCallback_cases advanced with ⟨value, present, rfl⟩ | rfl
      · exact discharged.aside rfl id id id (fun absent => absurd present (absent value))
      · exact discharged.aside rfl id id id id
  | client info more => exact discharged.clientThread advanced
  | cleanup done => exact discharged.cleanupThread advanced
  | clock done => exact discharged.clockThread advanced

theorem zeroData_discharged : zeroData.Discharged := .early rfl nofun nofun

theorem discharged_run {events : List Event} {replies : List Unit}
    (ran : runCalls (Process.step build) .zeroData events = .ok (replies, process)) :
    process.Discharged :=
  runCalls_keeps (fun _process _event _reply _after discharged _any made => discharged.step made)
    zeroData_discharged (runMeets_any events _) ran

/-- However main has come to return, it leaves no timer, no stream, no semaphore
and no service thread.  Where it reports success a signal has told it to stop,
the timer is stopped, the mutex is destroyed and no session is under way. -/
theorem main_returns_released (events : List Event) (replies : List Unit)
    (ran : runCalls (Process.step build) .zeroData events = .ok (replies, process)) (ret : Ret)
    (returned : process.main = .returned ret) :
    process.timer = false ∧ process.CleanupOver ∧ process.ClockOver ∧
    process.outputFile ≠ .present () ∧ (∀ posts, process.threadFinishedSignal ≠ .present posts) ∧
    (∀ value, process.clockSem ≠ .present value) ∧ process.threadList = [] ∧
    (ret = .ok → .stop ∈ events ∧ process.armed = false ∧ process.outputFileMutex = .gone ∧
      ∀ info, ¬process.ClientInside info) := by
  have discharged : process.Discharged := discharged_run ran
  have attended : process.Attended := attended_run ran
  have timer := discharged.timer (by rw [returned]; rfl)
  refine ⟨timer, attended.ordered.cleanupJoined (by rw [returned]; rfl),
    attended.ordered.clockJoined (by rw [returned]; rfl),
    discharged.outputFile (by rw [returned]; rfl),
    discharged.finishedSignal (by rw [returned]; rfl),
    discharged.clockSem (by rw [returned]; rfl), attended.unlisted.empty, ?_⟩
  rintro rfl
  obtain ⟨started, exitRet⟩ := discharged.status returned
  have stop := discharged.told (by rw [returned]; rfl) started
  have gone := discharged.mutex (by rw [returned]; rfl) exitRet
  refine ⟨(stopKnown_run ran).signalled.signal stop, ?_, gone, ?_⟩
  · by_contra armed
    rcases discharged.armed (Bool.eq_true_of_not_eq_false armed) with timed | failed
    · rw [timer] at timed
      cases timed
    · rw [exitRet] at failed
      cases failed
  · intro info inside
    rw [← (exclusive_run ran).client info, gone] at inside
    cases inside

end Process

/-- A stop before any connection, up to the end of server_exit. -/
theorem main_returns_released_stopped : ∃ replies process,
    runCalls (Process.step .regularFile) .zeroData
        (startup ++ stopSignal ++ joins ++ List.replicate 7 (.main true)) =
      .ok (replies, process) ∧
    process.main = .returned .ok ∧ process.clockSem ≠ .present 0 ∧
      process.outputFileMutex = .gone := by
  have computed : (runCalls (Process.step .regularFile) .zeroData
      (startup ++ stopSignal ++ joins ++ List.replicate 7 (.main true))).map
        (fun result => result.2.main) = .ok (.returned .ok) := by decide +kernel
  obtain ⟨⟨replies, process⟩, ran, main⟩ := ok_of_map computed
  obtain ⟨_timer, _cleanup, _clock, _file, _signal, sem, _list, success⟩ :=
    Process.main_returns_released _ replies ran .ok main
  exact ⟨replies, process, ran, main, sem 0, (success rfl).2.2.1⟩

end Aesd.Lifecycle
