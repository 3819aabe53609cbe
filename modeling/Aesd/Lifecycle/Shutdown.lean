/-
How the server ends.

Behind a server_stop that has run to its end the process cannot get stuck: from
every state some steps bring main to its end, past both joins.  Then, whatever
server_init had come to, the timer, the stream, the semaphores and the two
service threads are gone, and a main that reports success was told to stop.
-/

import Aesd.Lifecycle.ClientEnd
import Aesd.Lifecycle.Reclaiming

set_option autoImplicit false

namespace Aesd.Lifecycle

open BoundedLoop CallRun Server

/-- The calls that main has before it, from server_init to the end. -/
def MainThread.left : MainThread → Nat
  | .serverInit .initFinishedSignal => 25
  | .serverInit .initClockSem => 24
  | .serverInit .openOutputFile => 23
  | .serverInit .createCleanupThread => 22
  | .serverInit .createClockThread => 21
  | .serverInit .socket => 20
  | .serverInit .bind => 19
  | .serverInit .listen => 18
  | .serverInit .timerCreate => 17
  | .serverInit .timerSettime => 16
  | .serverRun .accept => 15
  | .serverRun .openDevice => 14
  | .serverRun .createClientThread => 13
  | .serverRun .select => 12
  | .serverExit .timerDelete => 11
  | .serverExit .postFinishedSignal => 10
  | .serverExit .joinCleanupThread => 9
  | .serverExit .joinClockThread => 8
  | .serverExit .closeSocket => 7
  | .serverExit .closeOutputFile => 6
  | .serverExit .destroyMutex => 5
  | .serverExit .destroyFinishedSignal => 4
  | .serverExit .destroyClockSem => 3
  | .serverExit .freeThreadList => 2
  | .serverExit .unlink => 1
  | .returned _ret => 0

/-- main does not wait for another thread or for a signal. -/
def MainThread.Free : MainThread → Prop
  | .serverRun .select => False
  | .serverExit .joinCleanupThread => False
  | .serverExit .joinClockThread => False
  | .returned _ret => False
  | _ => True

namespace Process

/-- At its join cleanup_thread has been started, and has a post to take. -/
def Woken (process : Process) : Prop :=
  process.main = .serverExit .joinCleanupThread → process.cleanup ≠ .notStarted ∧
    (process.cleanup = .waiting →
      ∃ poster posts, process.threadFinishedSignal = .present (poster :: posts))

/-- Some steps take main on. -/
def Lowers (build : Build) (process : Process) : Prop :=
  ∃ later replies after, runCalls (Process.step build) process later = .ok (replies, after) ∧
    after.main.left < process.main.left

variable {build : Build} {process after : Process} {done : Bool}

/-! ### main goes on -/

theorem serverInit_left {call : InitCall} (main : process.main = .serverInit call) :
    (process.serverInit build call true).main.left < process.main.left := by
  rw [main]
  cases call with
  | initClockSem => cases build <;> exact Nat.le_of_ble_eq_true rfl
  | _ => exact Nat.le_of_ble_eq_true rfl

theorem serverRun_left {call : RunCall} (main : process.main = .serverRun call)
    (free : call ≠ .select) :
    (process.serverRun build call true).main.left < process.main.left := by
  rw [main]
  cases call with
  | select => exact absurd rfl free
  | accept =>
      simp only [Process.serverRun, if_true]
      split <;> exact Nat.le_of_ble_eq_true rfl
  | openDevice => exact Nat.le_of_ble_eq_true rfl
  | createClientThread => exact Nat.le_of_ble_eq_true rfl

theorem Sound.serverExit_left (sound : process.Sound build) {call : ExitCall}
    (main : process.main = .serverExit call) (free : process.main.Free) :
    ∃ reached, process.serverExit build call true = .ok reached ∧
      reached.main.left < process.main.left := by
  rw [main] at free ⊢
  cases call with
  | postFinishedSignal =>
      simp only [Process.serverExit]
      split
      · rename_i initialized
        have unclosed := sound.available.shared (by rw [main]; rfl)
        have started := sound.ordered.cleanupStarted.mp initialized
        obtain ⟨posts, present⟩ := sound.signal_present unclosed (Or.inr (Or.inl started))
        rw [present]
        exact ⟨_, rfl, Nat.le_of_ble_eq_true rfl⟩
      · exact ⟨_, rfl, Nat.le_of_ble_eq_true rfl⟩
  | joinCleanupThread => exact free.elim
  | joinClockThread => exact free.elim
  | timerDelete =>
      simp only [Process.serverExit]
      split <;> exact ⟨_, rfl, Nat.le_of_ble_eq_true rfl⟩
  | closeSocket => exact ⟨_, rfl, Nat.le_of_ble_eq_true rfl⟩
  | closeOutputFile =>
      simp only [Process.serverExit]
      split <;> exact ⟨_, rfl, Nat.le_of_ble_eq_true rfl⟩
  | destroyMutex =>
      simp only [Process.serverExit]
      split <;> exact ⟨_, rfl, Nat.le_of_ble_eq_true rfl⟩
  | destroyFinishedSignal =>
      simp only [Process.serverExit]
      split <;> exact ⟨_, rfl, Nat.le_of_ble_eq_true rfl⟩
  | destroyClockSem =>
      simp only [Process.serverExit]
      split <;> exact ⟨_, rfl, Nat.le_of_ble_eq_true rfl⟩
  | freeThreadList => cases build <;> exact ⟨_, rfl, Nat.le_of_ble_eq_true rfl⟩
  | unlink => exact ⟨_, rfl, Nat.le_of_ble_eq_true rfl⟩

theorem Lowers.of_step {event : Event} (made : process.advance build event = .ok after)
    (lower : after.main.left < process.main.left) : process.Lowers build :=
  ⟨[event], [()], after, runCalls_cons (step_of_advance made) rfl, lower⟩

theorem Lowers.of_run {events : List Event} {replies : List Unit}
    (ran : runCalls (Process.step build) process events = .ok (replies, after))
    (main : after.main = process.main) (rest : after.Lowers build) : process.Lowers build := by
  obtain ⟨later, others, last, behind, lower⟩ := rest
  rw [main] at lower
  exact ⟨events ++ later, replies ++ others, last, runCalls_append ran behind, lower⟩

theorem Sound.lowers_free (sound : process.Sound build) (free : process.main.Free) :
    process.Lowers build := by
  cases main : process.main with
  | serverInit call =>
      have made : process.advance build (.main true) =
          .ok (process.serverInit build call true) := by
        simp only [Process.advance, Process.mainThread, main]
      exact .of_step made (serverInit_left main)
  | serverRun call =>
      have made : process.advance build (.main true) =
          .ok (process.serverRun build call true) := by
        simp only [Process.advance, Process.mainThread, main]
      refine .of_step made (serverRun_left main ?_)
      intro selects
      rw [main, selects] at free
      exact free
  | serverExit call =>
      obtain ⟨reached, exits, lower⟩ := sound.serverExit_left main free
      have made : process.advance build (.main true) = .ok reached := by
        simp only [Process.advance, Process.mainThread, main, exits]
      exact .of_step made lower
  | returned ret =>
      rw [main] at free
      exact free.elim

theorem lowers_select (main : process.main = .serverRun .select)
    (stop : process.shouldStop = true) : process.Lowers build := by
  have made : process.advance build .interrupted = .ok (process.returns .ok) := by
    simp only [Process.advance, Process.interrupted, main, stop, if_true]
  refine .of_step made ?_
  rw [main]
  exact Nat.le_of_ble_eq_true rfl

/-! ### The join of cleanup_thread -/

theorem serverInit_not_joins {call : InitCall} :
    (process.serverInit build call done).main ≠ .serverExit .joinCleanupThread := by
  cases done with
  | false => exact nofun
  | true => cases call <;> cases build <;> exact nofun

theorem run_not_joins {call : RunCall} :
    MainThread.serverRun call ≠ .serverExit .joinCleanupThread := by
  intro impossible
  cases impossible

theorem timer_not_joins : MainThread.serverExit .timerDelete ≠ .serverExit .joinCleanupThread := by
  intro impossible
  cases impossible

theorem serverRun_not_joins {call : RunCall} :
    (process.serverRun build call done).main ≠ .serverExit .joinCleanupThread := by
  cases done with
  | false => exact timer_not_joins
  | true =>
      cases call with
      | accept =>
          simp only [Process.serverRun, if_true]
          split <;> exact run_not_joins
      | select => exact run_not_joins
      | openDevice => exact run_not_joins
      | createClientThread => exact run_not_joins

theorem Woken.serverExit {call : ExitCall} (ordered : process.Ordered)
    (made : process.serverExit build call done = .ok after) : after.Woken := by
  have effect := serverExit_effect made
  cases call with
  | postFinishedSignal =>
      rcases effect with ⟨initialized, posts, _present, rfl⟩ | ⟨_initialized, rfl⟩
      · intro _joins
        refine ⟨ordered.cleanupStarted.mp initialized, fun _waiting => ?_⟩
        cases posts with
        | nil => exact ⟨_, _, rfl⟩
        | cons poster posts => exact ⟨poster, _, rfl⟩
      · exact nofun
  | timerDelete =>
      obtain ⟨exitRet, timer, armed, rfl⟩ := effect
      exact nofun
  | joinCleanupThread =>
      obtain ⟨_returned, rfl⟩ := effect
      exact nofun
  | joinClockThread =>
      obtain ⟨_returned, rfl⟩ := effect
      exact nofun
  | closeSocket =>
      obtain ⟨exitRet, rfl⟩ := effect
      exact nofun
  | closeOutputFile =>
      obtain ⟨exitRet, outputFile, _closed, rfl⟩ := effect
      exact nofun
  | destroyMutex =>
      obtain ⟨exitRet, outputFileMutex, _destroyed, rfl⟩ := effect
      exact nofun
  | destroyFinishedSignal =>
      obtain ⟨exitRet, threadFinishedSignal, _freed, rfl⟩ := effect
      exact nofun
  | destroyClockSem =>
      obtain ⟨exitRet, clockSem, _freed, rfl⟩ := effect
      exact nofun
  | freeThreadList =>
      obtain ⟨main, rfl | ⟨ret, rfl⟩, rfl⟩ := effect <;> exact nofun
  | unlink =>
      obtain ⟨exitRet, ret, rfl⟩ := effect
      exact nofun

theorem Woken.clientThread {info : Nat} {more : Bool} (woken : process.Woken)
    (made : process.clientThread info more = .ok after) : after.Woken := by
  have main := (clientThread_aside made).main
  obtain ⟨thread, _found, effect⟩ := clientThread_cases made
  intro joins
  obtain ⟨started, waits⟩ := woken (main.symm.trans joins)
  cases thread with
  | locking =>
      obtain ⟨_free, rfl⟩ := effect
      exact ⟨started, waits⟩
  | talking =>
      obtain ⟨_opened, rfl⟩ := effect
      exact ⟨started, waits⟩
  | unlocking =>
      obtain ⟨_held, rfl⟩ := effect
      exact ⟨started, waits⟩
  | closing =>
      subst effect
      exact ⟨started, waits⟩
  | finishing =>
      subst effect
      exact ⟨started, waits⟩
  | posting =>
      obtain ⟨posts, _present, rfl⟩ := effect
      refine ⟨started, fun _waiting => ?_⟩
      cases posts with
      | nil => exact ⟨_, _, rfl⟩
      | cons poster posts => exact ⟨poster, _, rfl⟩
  | returned => exact effect.elim

/-- cleanup_thread does not wait again. -/
theorem Woken.cleanupThread (unlisted : process.Unlisted)
    (made : process.cleanupThread done = .ok after) : after.Woken := by
  have effect := cleanupThread_cases made
  intro _joins
  cases place : process.cleanup with
  | notStarted =>
      rw [place] at effect
      exact effect.elim
  | waiting =>
      rw [place] at effect
      rcases effect with ⟨_failed, rfl⟩ | ⟨poster, posts, _present, rfl⟩ <;> exact ⟨nofun, nofun⟩
  | searching =>
      rw [place] at effect
      rcases effect with ⟨_none, rfl⟩ | ⟨info, _found, rfl⟩ <;> exact ⟨nofun, nofun⟩
  | joining info => exact absurd place (unlisted.idle info).1
  | removing info => exact absurd place (unlisted.idle info).2
  | returned ret =>
      rw [place] at effect
      exact effect.elim

theorem Woken.step {event : Event} {reply : Unit} (woken : process.Woken)
    (ordered : process.Ordered) (unlisted : process.Unlisted)
    (made : process.step build event = .ok (reply, after)) : after.Woken := by
  have advanced := step_cases made
  cases event with
  | main done =>
      rcases mainThread_cases advanced with
        ⟨call, _main, rfl⟩ | ⟨call, _main, rfl⟩ | ⟨call, _main, exits⟩
      · exact fun joins => absurd joins serverInit_not_joins
      · exact fun joins => absurd joins serverRun_not_joins
      · exact Woken.serverExit ordered exits
  | interrupted =>
      obtain ⟨_main, ⟨_stops, rfl⟩ | rfl⟩ := interrupted_cases advanced
      · exact nofun
      · exact woken
  | stop =>
      cases advanced
      exact woken
  | stopPost =>
      obtain ⟨_called, value, _present, rfl⟩ := stopPost_cases advanced
      exact woken
  | expire =>
      rw [expire_cases advanced]
      exact woken
  | timerCallback =>
      rcases timerCallback_cases advanced with ⟨value, _present, rfl⟩ | rfl <;> exact woken
  | client info more => exact woken.clientThread advanced
  | cleanup done => exact Woken.cleanupThread unlisted advanced
  | clock done =>
      obtain ⟨_started, clockSem, mutex, clock, _mutexKept, rfl⟩ := clockThread_frame advanced
      exact woken

/-- What is known of cleanup_thread in every reachable state. -/
structure Attended (process : Process) : Prop where
  ordered : process.Ordered
  unlisted : process.Unlisted
  woken : process.Woken

theorem attended_run {events : List Event} {replies : List Unit}
    (ran : runCalls (Process.step build) .zeroData events = .ok (replies, process)) :
    process.Attended :=
  runCalls_keeps (fun _process _event _reply _after attended _any made =>
      ⟨attended.ordered.step made, attended.unlisted.step made,
        attended.woken.step attended.ordered attended.unlisted made⟩)
    (⟨zeroData_ordered, zeroData_unlisted, nofun⟩ : zeroData.Attended) (runMeets_any events _) ran

theorem lowers_joined (main : process.main = .serverExit .joinCleanupThread) {ret : Ret}
    (returned : process.cleanup = .returned ret) : process.Lowers build := by
  have made : process.advance build (.main true) = .ok (process.goesOn .joinClockThread) := by
    simp only [Process.advance, Process.mainThread, main, Process.serverExit, returned]
  refine .of_step made ?_
  rw [main]
  exact Nat.le_of_ble_eq_true rfl

theorem Attended.lowers_searching (attended : process.Attended)
    (main : process.main = .serverExit .joinCleanupThread)
    (place : process.cleanup = .searching) : process.Lowers build := by
  have nothing : process.finishedNode = none := by
    rw [finishedNode, attended.unlisted.empty]
    rfl
  have made : process.cleanupThread true = .ok { process with cleanup := .returned .ok } := by
    simp only [Process.cleanupThread, place, nothing]
  have stepped : runCalls (Process.step build) process [.cleanup true] =
      .ok ([()], { process with cleanup := .returned .ok }) :=
    runCalls_cons (step_of_advance made) rfl
  exact .of_run stepped rfl (lowers_joined main rfl)

/-- server_exit has posted, so the join of cleanup_thread comes to its end. -/
theorem Attended.lowers_cleanup (attended : process.Attended)
    (main : process.main = .serverExit .joinCleanupThread) : process.Lowers build := by
  obtain ⟨started, waits⟩ := attended.woken main
  cases place : process.cleanup with
  | notStarted => exact absurd place started
  | searching => exact attended.lowers_searching main place
  | joining info => exact absurd place (attended.unlisted.idle info).1
  | removing info => exact absurd place (attended.unlisted.idle info).2
  | returned ret => exact lowers_joined main place
  | waiting =>
      obtain ⟨poster, posts, present⟩ := waits place
      have made : process.cleanupThread true = .ok { process with
          threadFinishedSignal := .present posts
          consumed := process.consumed ++ [poster]
          cleanup := .searching } := by
        simp only [Process.cleanupThread, place, present, if_true]
      have stepped : process.step build (.cleanup true) = .ok ((), _) := step_of_advance made
      have behind : ({ process with
          threadFinishedSignal := .present posts
          consumed := process.consumed ++ [poster]
          cleanup := .searching } : Process).Attended :=
        ⟨attended.ordered.step stepped, attended.unlisted.step stepped,
          attended.woken.step attended.ordered attended.unlisted stepped⟩
      have ran := runCalls_cons stepped (rfl : runCalls (Process.step build) _ [] = _)
      exact .of_run ran rfl (behind.lowers_searching main rfl)

/-! ### The join of clock_thread -/

theorem lowers_clock (main : process.main = .serverExit .joinClockThread)
    (joinable : process.clockThreadInitialized = true → process.ClockReturned) :
    process.Lowers build := by
  have made : process.advance build (.main true) = .ok (process.goesOn .closeSocket) := by
    simp only [Process.advance, Process.mainThread, main, Process.serverExit]
    by_cases initialized : process.clockThreadInitialized = true
    · obtain ⟨ret, returned⟩ := joinable initialized
      simp only [if_pos initialized, returned]
    · simp only [if_neg initialized]
  refine .of_step made ?_
  rw [main]
  exact Nat.le_of_ble_eq_true rfl

/-- clock_thread's own steps leave main where it is. -/
theorem lowers_runsOut (main : process.main = .serverExit .joinClockThread)
    (runsOut : process.RunsOut build) : process.Lowers build := by
  obtain ⟨count, replies, after, ran, returned⟩ := runsOut
  let Stays (reached : Process) : Prop := reached.main = process.main
  let Ticks (_reached : Process) (event : Event) : Prop := event = .clock true
  have one : ∀ reached event reply after, Stays reached → Ticks reached event →
      reached.step build event = .ok (reply, after) → Stays after := by
    intro reached event reply after stays ticks made
    subst ticks
    obtain ⟨aside, _threads, _started⟩ := clockThread_aside (step_cases made)
    exact aside.main.trans stays
  have ticks : RunMeets (Process.step build) Ticks process (List.replicate count (.clock true)) :=
    runMeets_of_forall (fun _reached _event member => List.eq_of_mem_replicate member) process
  have stays : Stays after := runCalls_keeps one (rfl : Stays process) ticks ran
  exact .of_run ran stays (lowers_clock (stays.trans main) (fun _initialized => returned))

/-- Behind a stop clock_thread can end, unless it comes to a mutex that is held. -/
theorem lowers_unlocked {events : List Event} {replies : List Unit}
    (ran : runCalls (Process.step build) .zeroData events = .ok (replies, process))
    (posted : .stopPost ∈ events) (main : process.main = .serverExit .joinClockThread)
    (free : process.clock = .locking → process.outputFileMutex = .present none) :
    process.Lowers build := by
  by_cases initialized : process.clockThreadInitialized = true
  · have known : process.StopKnown build events := stopKnown_run ran
    have ends : process.ClockEnds := by
      obtain ⟨stop, returned | checking | present | past⟩ := known.stopped posted
      · exact Or.inl returned
      · exact Or.inr ⟨stop, Or.inl checking⟩
      · exact Or.inr ⟨stop, Or.inr present⟩
      · rw [main] at past
        cases past
    exact lowers_runsOut main (ends.runsOut known.order (available_run ran) main initialized free)
  · exact lowers_clock main (fun impossible => absurd impossible initialized)

theorem lowers_joinClock {events : List Event} {replies : List Unit}
    (ran : runCalls (Process.step build) .zeroData events = .ok (replies, process))
    (posted : .stopPost ∈ events) (main : process.main = .serverExit .joinClockThread) :
    process.Lowers build := by
  have sound : process.Sound build := sound_run ran
  have unclosed := sound.available.shared (by rw [main]; rfl)
  obtain ⟨holder, mutex⟩ := sound.mutex_present unclosed
  cases holder with
  | none => exact lowers_unlocked ran posted main (fun _locking => mutex)
  | some holder =>
      cases holder with
      | clock =>
          have inside := sound.exclusive.clock.mp mutex
          refine lowers_unlocked ran posted main (fun locking => ?_)
          rw [locking] at inside
          exact inside.elim
      | client info =>
          -- The session that has the mutex ends first.
          obtain ⟨count, others, threadInfos, released, _closing, _same⟩ :=
            sound.client_releases unclosed ((sound.exclusive.client info).mp mutex)
          exact .of_run released rfl (lowers_unlocked (runCalls_append ran released)
            (List.mem_append_left _ posted) main (fun _locking => rfl))

/-! ### The end of main -/

theorem lowers {events : List Event} {replies : List Unit}
    (ran : runCalls (Process.step build) .zeroData events = .ok (replies, process))
    (posted : .stopPost ∈ events) (runs : ∀ ret, process.main ≠ .returned ret) :
    process.Lowers build := by
  have sound : process.Sound build := sound_run ran
  cases main : process.main with
  | serverInit call =>
      exact sound.lowers_free (by rw [main]; exact True.intro)
  | serverRun call =>
      cases call with
      | select => exact lowers_select main ((stopKnown_run ran).stopped posted).1
      | accept => exact sound.lowers_free (by rw [main]; exact True.intro)
      | openDevice => exact sound.lowers_free (by rw [main]; exact True.intro)
      | createClientThread => exact sound.lowers_free (by rw [main]; exact True.intro)
  | serverExit call =>
      cases call with
      | joinCleanupThread => exact (attended_run ran).lowers_cleanup main
      | joinClockThread => exact lowers_joinClock ran posted main
      | timerDelete => exact sound.lowers_free (by rw [main]; exact True.intro)
      | postFinishedSignal => exact sound.lowers_free (by rw [main]; exact True.intro)
      | closeSocket => exact sound.lowers_free (by rw [main]; exact True.intro)
      | closeOutputFile => exact sound.lowers_free (by rw [main]; exact True.intro)
      | destroyMutex => exact sound.lowers_free (by rw [main]; exact True.intro)
      | destroyFinishedSignal => exact sound.lowers_free (by rw [main]; exact True.intro)
      | destroyClockSem => exact sound.lowers_free (by rw [main]; exact True.intro)
      | freeThreadList => exact sound.lowers_free (by rw [main]; exact True.intro)
      | unlink => exact sound.lowers_free (by rw [main]; exact True.intro)
  | returned ret => exact absurd main (runs ret)

/-- Behind a server_stop that has run to its end, main can return from every
state that is reached, whatever the other threads are doing. -/
theorem stop_ends_server (events : List Event) (replies : List Unit)
    (ran : runCalls (Process.step build) .zeroData events = .ok (replies, process))
    (posted : .stopPost ∈ events) : ∃ later others after ret,
      runCalls (Process.step build) process later = .ok (others, after) ∧
        after.main = .returned ret := by
  generalize size : process.main.left = left
  induction left using Nat.strong_induction_on generalizing events replies process with
  | _ left ih =>
      by_cases ended : ∃ ret, process.main = .returned ret
      · obtain ⟨ret, main⟩ := ended
        exact ⟨[], [], process, ret, rfl, main⟩
      · obtain ⟨first, others, reached, onward, lower⟩ :=
          lowers ran posted (fun ret main => ended ⟨ret, main⟩)
        obtain ⟨rest, more, after, ret, behind, main⟩ :=
          ih _ (size ▸ lower) (events ++ first) (replies ++ others) (runCalls_append ran onward)
            (List.mem_append_left _ posted) rfl
        exact ⟨first ++ rest, others ++ more, after, ret, runCalls_append onward behind, main⟩

end Process

/-- The run `mutexKept`, in which clock_thread comes to a mutex that a client has. -/
theorem stop_ends_server_kept : ∃ replies process,
    runCalls (Process.step .regularFile) .zeroData mutexKept = .ok (replies, process) ∧
      process.outputFileMutex = .present (some (.client 0)) ∧
      ∃ later others after ret,
        runCalls (Process.step .regularFile) process later = .ok (others, after) ∧
          after.main = .returned ret := by
  have computed : (runCalls (Process.step .regularFile) .zeroData mutexKept).map
      (fun result => result.2.outputFileMutex) = .ok (.present (some (.client 0))) := by
    decide +kernel
  obtain ⟨⟨replies, process⟩, ran, mutex⟩ := ok_of_map computed
  exact ⟨replies, process, ran, mutex,
    Process.stop_ends_server _ replies ran (by decide)⟩

end Aesd.Lifecycle
