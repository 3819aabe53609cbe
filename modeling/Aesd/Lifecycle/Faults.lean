/-
Where a step of the process can fault.

server_exit joins cleanup_thread and clock_thread before it takes anything
away, and a semaphore is there before the threads that wait for it.  So a null
pointer is met only by server_stop, outside the life of clock_sem, and only a
client thread uses an object that is gone, once server_exit has come past the
output file.
-/

import Aesd.Lifecycle.MutexHolder

set_option autoImplicit false

namespace Aesd.Lifecycle

open BoundedLoop CallRun Server

/-- server_init has made thread_finished_signal, as far as main's place tells. -/
def MainThread.madeFinishedSignal : MainThread → Bool
  | .serverInit .initFinishedSignal => false
  | .serverInit _call => true
  | .serverRun _call => true
  | _ => false

/-- server_init has made clock_sem, as far as main's place tells. -/
def MainThread.madeClockSem : MainThread → Bool
  | .serverInit .initFinishedSignal => false
  | .serverInit .initClockSem => false
  | .serverInit _call => true
  | .serverRun _call => true
  | _ => false

/-- server_exit has come past the join of cleanup_thread. -/
def MainThread.pastCleanupThread : MainThread → Bool
  | .serverExit .joinClockThread => true
  | main => main.pastClockThread

/-- server_exit has come past clock_sem. -/
def MainThread.pastClockSem : MainThread → Bool
  | .serverExit .freeThreadList => true
  | .serverExit .unlink => true
  | .returned _ret => true
  | _ => false

theorem MainThread.joined_of_pastOutputFile {main : MainThread} (past : main.pastOutputFile = true) :
    main.pastCleanupThread = true ∧ main.pastClockThread = true := by
  cases main with
  | serverInit call => cases past
  | serverRun call => cases past
  | serverExit call => cases call <;> first | exact ⟨rfl, rfl⟩ | cases past
  | returned ret => exact ⟨rfl, rfl⟩

theorem MainThread.joined_of_pastClockSem {main : MainThread} (past : main.pastClockSem = true) :
    main.pastClockThread = true := by
  cases main with
  | serverInit call => cases past
  | serverRun call => cases past
  | serverExit call => cases call <;> first | rfl | cases past
  | returned ret => rfl

namespace Process

def CleanupOver (process : Process) : Prop :=
  process.cleanup = .notStarted ∨ ∃ ret, process.cleanup = .returned ret

def ClockOver (process : Process) : Prop :=
  process.clock = .notStarted ∨ ∃ ret, process.clock = .returned ret

/-- The semaphores are there before the threads, and the threads are over
behind their joins. -/
structure Ordered (process : Process) : Prop where
  finishedSignal : process.main.madeFinishedSignal = true ∨ process.cleanup ≠ .notStarted ∨
    process.threadInfos ≠ [] → process.threadFinishedSignal ≠ .absent
  clockSem : process.main.madeClockSem = true ∨ process.clock ≠ .notStarted →
    process.clockSem ≠ .absent
  freed : process.clockSem = .gone → process.main.pastClockSem = true
  cleanupStarted : process.cleanupThreadInitialized = true ↔ process.cleanup ≠ .notStarted
  clockStarted : process.clockThreadInitialized = true ↔ process.clock ≠ .notStarted
  cleanupJoined : process.main.pastCleanupThread = true → process.CleanupOver
  clockJoined : process.main.pastClockThread = true → process.ClockOver

/-- All that is known of a state that the process reaches. -/
structure Sound (build : Build) (process : Process) : Prop where
  order : process.ClockOrder build
  available : process.Available build
  exclusive : process.Exclusive
  ordered : process.Ordered

/-- The next call of a client thread is on an object that is gone. -/
def Dangles (process : Process) : Event → Prop
  | .client info _more =>
      (process.threadOf info = some .locking ∧ process.outputFileMutex = .gone) ∨
      (process.threadOf info = some .talking ∧ process.outputFile = .gone) ∨
      (process.threadOf info = some .posting ∧ process.threadFinishedSignal = .gone)
  | _ => False

/-- server_stop is about to post a clock_sem that is not there. -/
def Unheard (process : Process) : Event → Prop
  | .stopPost => process.stopping ≠ 0 ∧ ∀ value, process.clockSem ≠ .present value
  | _ => False

variable {build : Build} {process after : Process} {done : Bool}

/-! ### The main thread -/

/-- Only the main thread goes on, and starts no thread. -/
theorem Ordered.onward (ordered : process.Ordered)
    (threads : (after.cleanup, after.clock, after.cleanupThreadInitialized,
        after.clockThreadInitialized) =
      (process.cleanup, process.clock, process.cleanupThreadInitialized,
        process.clockThreadInitialized))
    (infos : after.threadInfos ≠ [] → process.threadInfos ≠ [])
    (signal : process.threadFinishedSignal ≠ .absent → after.threadFinishedSignal ≠ .absent)
    (sem : process.clockSem ≠ .absent → after.clockSem ≠ .absent)
    (madeSignal : after.main.madeFinishedSignal = true → after.threadFinishedSignal ≠ .absent)
    (madeSem : after.main.madeClockSem = true → after.clockSem ≠ .absent)
    (freed : after.clockSem = .gone → after.main.pastClockSem = true)
    (cleanupJoined : after.main.pastCleanupThread = true → process.CleanupOver)
    (clockJoined : after.main.pastClockThread = true → process.ClockOver) : after.Ordered := by
  obtain ⟨cleanup, clock, cleanupFlag, clockFlag⟩ :
      after.cleanup = process.cleanup ∧ after.clock = process.clock ∧
        after.cleanupThreadInitialized = process.cleanupThreadInitialized ∧
        after.clockThreadInitialized = process.clockThreadInitialized := by
    simpa only [Prod.mk.injEq] using threads
  refine ⟨?_, ?_, freed, ?_, ?_, ?_, ?_⟩
  · rintro (made | started | some)
    · exact madeSignal made
    · rw [cleanup] at started
      exact signal (ordered.finishedSignal (Or.inr (Or.inl started)))
    · exact signal (ordered.finishedSignal (Or.inr (Or.inr (infos some))))
  · rintro (made | started)
    · exact madeSem made
    · rw [clock] at started
      exact sem (ordered.clockSem (Or.inr started))
  · rw [cleanupFlag, cleanup]
    exact ordered.cleanupStarted
  · rw [clockFlag, clock]
    exact ordered.clockStarted
  · rw [CleanupOver, cleanup]
    exact cleanupJoined
  · rw [ClockOver, clock]
    exact clockJoined

theorem Ordered.ungone (ordered : process.Ordered) (early : process.main.pastClockSem = false) :
    process.clockSem ≠ .gone := by
  intro gone
  rw [ordered.freed gone] at early
  cases early

theorem Ordered.returns (ordered : process.Ordered) (early : process.main.pastClockSem = false)
    (ret : Ret) : (process.returns ret).Ordered :=
  ordered.onward rfl id id id nofun nofun (fun gone => absurd gone (ordered.ungone early)) nofun nofun

theorem Ordered.serverInit {call : InitCall} (ordered : process.Ordered)
    (main : process.main = .serverInit call) : (process.serverInit build call done).Ordered := by
  have early : process.main.pastClockSem = false := by
    rw [main]
    rfl
  have ungone := ordered.ungone early
  cases done with
  | false => exact ordered.returns early .err
  | true =>
      have made := ordered.finishedSignal
      have madeSem := ordered.clockSem
      rw [main] at made madeSem
      cases call with
      | initFinishedSignal =>
          exact ordered.onward rfl id (fun _absent => nofun) id (fun _made => nofun) nofun
            (fun gone => absurd gone ungone) nofun nofun
      | initClockSem =>
          cases build <;> exact ordered.onward rfl id id (fun _absent => nofun)
            (fun _made => made (Or.inl rfl)) (fun _made => nofun) nofun nofun nofun
      | openOutputFile =>
          exact ordered.onward rfl id id id (fun _made => made (Or.inl rfl))
            (fun _made => madeSem (Or.inl rfl)) (fun gone => absurd gone ungone) nofun nofun
      | createCleanupThread =>
          exact ⟨fun _made => made (Or.inl rfl), fun _made => madeSem (Or.inl rfl),
            fun gone => absurd gone ungone, iff_of_true rfl nofun, ordered.clockStarted, nofun,
            nofun⟩
      | createClockThread =>
          exact ⟨fun _made => made (Or.inl rfl), fun _made => madeSem (Or.inl rfl),
            fun gone => absurd gone ungone, ordered.cleanupStarted, iff_of_true rfl nofun, nofun,
            nofun⟩
      | socket =>
          exact ordered.onward rfl id id id (fun _made => made (Or.inl rfl))
            (fun _made => madeSem (Or.inl rfl)) (fun gone => absurd gone ungone) nofun nofun
      | bind =>
          exact ordered.onward rfl id id id (fun _made => made (Or.inl rfl))
            (fun _made => madeSem (Or.inl rfl)) (fun gone => absurd gone ungone) nofun nofun
      | listen =>
          exact ordered.onward rfl id id id (fun _made => made (Or.inl rfl))
            (fun _made => madeSem (Or.inl rfl)) (fun gone => absurd gone ungone) nofun nofun
      | timerCreate =>
          exact ordered.onward rfl id id id (fun _made => made (Or.inl rfl))
            (fun _made => madeSem (Or.inl rfl)) (fun gone => absurd gone ungone) nofun nofun
      | timerSettime =>
          exact ordered.onward rfl id id id (fun _made => made (Or.inl rfl))
            (fun _made => madeSem (Or.inl rfl)) (fun gone => absurd gone ungone) nofun nofun

theorem Ordered.serverRun {call : RunCall} (ordered : process.Ordered)
    (main : process.main = .serverRun call) : (process.serverRun build call done).Ordered := by
  have early : process.main.pastClockSem = false := by
    rw [main]
    rfl
  have ungone := ordered.ungone early
  have made := ordered.finishedSignal (Or.inl (by rw [main]; rfl))
  have madeSem := ordered.clockSem (Or.inl (by rw [main]; rfl))
  cases done with
  | false => exact ordered.returns early .err
  | true =>
      cases call with
      | select =>
          exact ⟨fun _made => made, fun _made => madeSem, fun gone => absurd gone ungone,
            ordered.cleanupStarted, ordered.clockStarted, unasked rfl, unasked rfl⟩
      | accept =>
          simp only [Process.serverRun, if_true]
          split <;> exact ordered.onward rfl id id id (fun _made => made) (fun _made => madeSem)
            (fun gone => absurd gone ungone) (unasked rfl) (unasked rfl)
      | openDevice =>
          exact ordered.onward rfl id id id (fun _made => made) (fun _made => madeSem)
            (fun gone => absurd gone ungone) (unasked rfl) (unasked rfl)
      | createClientThread =>
          exact ⟨fun _made => made, fun _made => madeSem, fun gone => absurd gone ungone,
            ordered.cleanupStarted, ordered.clockStarted, unasked rfl, unasked rfl⟩

theorem infos_freeInfos (list : List Nat) (infos : List ThreadInfo) :
    list.foldl freeInfo infos ≠ [] → infos ≠ [] := by
  intro some nothing
  have sameThreads := threads_freeInfos list infos
  rw [nothing, List.map_nil, List.map_eq_nil_iff] at sameThreads
  rw [nothing] at some
  exact some sameThreads

theorem Ordered.serverExit {call : ExitCall} (ordered : process.Ordered)
    (main : process.main = .serverExit call)
    (made : process.serverExit build call done = .ok after) : after.Ordered := by
  have freed := ordered.freed
  have cleanupJoined := ordered.cleanupJoined
  have clockJoined := ordered.clockJoined
  rw [main] at freed cleanupJoined clockJoined
  have effect := serverExit_effect made
  cases call with
  | timerDelete =>
      obtain ⟨exitRet, timer, armed, rfl⟩ := effect
      exact ordered.onward rfl id id id nofun nofun (fun gone => nomatch freed gone) nofun nofun
  | postFinishedSignal =>
      rcases effect with ⟨_initialized, posts, _present, rfl⟩ | ⟨uninitialized, rfl⟩
      · exact ordered.onward rfl id (fun _absent => nofun) id nofun nofun
          (fun gone => nomatch freed gone) nofun nofun
      · refine ordered.onward rfl id id id nofun nofun (fun gone => nomatch freed gone) ?_ nofun
        intro _past
        left
        by_contra started
        rw [ordered.cleanupStarted.mpr started] at uninitialized
        cases uninitialized
  | joinCleanupThread =>
      obtain ⟨returned, rfl⟩ := effect
      exact ordered.onward rfl id id id nofun nofun (fun gone => nomatch freed gone)
        (fun _past => Or.inr returned) nofun
  | joinClockThread =>
      obtain ⟨returned, rfl⟩ := effect
      refine ordered.onward rfl id id id nofun nofun (fun gone => nomatch freed gone)
        (fun _past => cleanupJoined rfl) ?_
      intro _past
      by_cases initialized : process.clockThreadInitialized = true
      · exact Or.inr (returned initialized)
      · left
        by_contra started
        exact initialized (ordered.clockStarted.mpr started)
  | closeSocket =>
      obtain ⟨exitRet, rfl⟩ := effect
      exact ordered.onward rfl id id id nofun nofun (fun gone => nomatch freed gone)
        (fun _past => cleanupJoined rfl) (fun _past => clockJoined rfl)
  | closeOutputFile =>
      obtain ⟨exitRet, outputFile, _closed, rfl⟩ := effect
      exact ordered.onward rfl id id id nofun nofun (fun gone => nomatch freed gone)
        (fun _past => cleanupJoined rfl) (fun _past => clockJoined rfl)
  | destroyMutex =>
      obtain ⟨exitRet, outputFileMutex, _destroyed, rfl⟩ := effect
      exact ordered.onward rfl id id id nofun nofun (fun gone => nomatch freed gone)
        (fun _past => cleanupJoined rfl) (fun _past => clockJoined rfl)
  | destroyFinishedSignal =>
      obtain ⟨exitRet, threadFinishedSignal, rfl | rfl, rfl⟩ := effect
      · exact ordered.onward rfl id id id nofun nofun (fun gone => nomatch freed gone)
          (fun _past => cleanupJoined rfl) (fun _past => clockJoined rfl)
      · exact ordered.onward rfl id (fun _there => nofun) id nofun nofun
          (fun gone => nomatch freed gone) (fun _past => cleanupJoined rfl)
          (fun _past => clockJoined rfl)
  | destroyClockSem =>
      obtain ⟨exitRet, clockSem, rfl | rfl, rfl⟩ := effect
      · exact ordered.onward rfl id id id nofun nofun (fun _gone => rfl)
          (fun _past => cleanupJoined rfl) (fun _past => clockJoined rfl)
      · exact ordered.onward rfl id id (fun _there => nofun) nofun nofun (fun _gone => rfl)
          (fun _past => cleanupJoined rfl) (fun _past => clockJoined rfl)
  | freeThreadList =>
      have infos := infos_freeInfos process.threadList process.threadInfos
      obtain ⟨main, rfl | ⟨ret, rfl⟩, rfl⟩ := effect <;>
        exact ordered.onward rfl infos id id nofun nofun (fun _gone => rfl)
          (fun _past => cleanupJoined rfl) (fun _past => clockJoined rfl)
  | unlink =>
      obtain ⟨exitRet, ret, rfl⟩ := effect
      exact ordered.onward rfl id id id nofun nofun (fun _gone => rfl)
        (fun _past => cleanupJoined rfl) (fun _past => clockJoined rfl)

/-! ### The other threads -/

/-- The main thread and clock_thread stay where they are. -/
theorem Ordered.cleanupMoves (ordered : process.Ordered) (running : ¬process.CleanupOver)
    (made : process.cleanupThread done = .ok after) : after.Ordered := by
  have started : process.cleanup ≠ .notStarted := fun not => running (Or.inl not)
  have early : process.main.pastCleanupThread = false := by
    by_contra past
    exact running (ordered.cleanupJoined (Bool.eq_true_of_not_eq_false past))
  have goesOn : after.cleanup ≠ .notStarted := by
    have effect := cleanupThread_cases made
    cases place : process.cleanup with
    | notStarted => exact absurd place started
    | waiting =>
        rw [place] at effect
        rcases effect with ⟨_failed, rfl⟩ | ⟨poster, posts, _present, rfl⟩ <;> exact nofun
    | searching =>
        rw [place] at effect
        rcases effect with ⟨_none, rfl⟩ | ⟨info, _found, rfl⟩ <;> exact nofun
    | joining info =>
        rw [place] at effect
        obtain ⟨_returned, rfl⟩ := effect
        exact nofun
    | removing info =>
        rw [place] at effect
        rw [effect]
        exact nofun
    | returned ret =>
        rw [place] at effect
        exact effect.elim
  have initialized := ordered.cleanupStarted.mpr started
  have signal := ordered.finishedSignal (Or.inr (Or.inl started))
  obtain ⟨threadFinishedSignal, consumed, cleanup, infos, list, kept, _threads, rfl⟩ :=
    cleanupThread_frame made
  refine ⟨fun _made => kept.not_absent signal, ordered.clockSem, ordered.freed,
    iff_of_true initialized goesOn, ordered.clockStarted, ?_, ordered.clockJoined⟩
  intro past
  change process.main.pastCleanupThread = true at past
  rw [early] at past
  cases past

theorem Ordered.cleanupThread (ordered : process.Ordered)
    (made : process.cleanupThread done = .ok after) : after.Ordered := by
  refine ordered.cleanupMoves ?_ made
  have effect := cleanupThread_cases made
  rintro (notStarted | ⟨ret, returned⟩)
  · rw [notStarted] at effect
    exact effect
  · rw [returned] at effect
    exact effect

theorem clockThread_keeps (made : process.clockThread build done = .ok after) :
    ¬process.ClockOver ∧ after.clock ≠ .notStarted ∧ process.clockSem.Kept after.clockSem := by
  have effect := clockThread_cases made
  rw [ClockOver]
  cases place : process.clock with
  | notStarted =>
      rw [place] at effect
      exact effect.elim
  | waiting =>
      rw [place] at effect
      rcases effect with ⟨_failed, rfl⟩ | ⟨value, _present, rfl⟩
      · exact ⟨by simp, nofun, .same _⟩
      · exact ⟨by simp, nofun, .there _ _⟩
  | checking =>
      rw [place] at effect
      rcases effect with ⟨_stops, rfl⟩ | ⟨_goesOn, ⟨_device, rfl⟩ | ⟨_regular, rfl⟩⟩
      · exact ⟨by simp, nofun, .same _⟩
      · exact ⟨by simp, nofun, .same _⟩
      · cases done <;> exact ⟨by simp, nofun, .same _⟩
  | locking =>
      rw [place] at effect
      obtain ⟨_free, rfl⟩ := effect
      exact ⟨by simp, nofun, .same _⟩
  | writing =>
      rw [place] at effect
      obtain ⟨_opened, rfl⟩ := effect
      exact ⟨by simp, nofun, .same _⟩
  | unlocking written =>
      rw [place] at effect
      obtain ⟨_held, rfl⟩ := effect
      cases written <;> exact ⟨by simp, nofun, .same _⟩
  | returned ret =>
      rw [place] at effect
      exact effect.elim

theorem Ordered.clockThread (ordered : process.Ordered)
    (made : process.clockThread build done = .ok after) : after.Ordered := by
  obtain ⟨running, goesOn, kept⟩ := clockThread_keeps made
  have started : process.clock ≠ .notStarted := fun not => running (Or.inl not)
  have early : process.main.pastClockThread = false := by
    by_contra past
    exact running (ordered.clockJoined (Bool.eq_true_of_not_eq_false past))
  have initialized := ordered.clockStarted.mpr started
  have sem := ordered.clockSem (Or.inr started)
  have ungone : process.clockSem ≠ .gone := by
    intro gone
    rw [MainThread.joined_of_pastClockSem (ordered.freed gone)] at early
    cases early
  obtain ⟨_started, clockSem, outputFileMutex, clock, _mutex, rfl⟩ := clockThread_frame made
  refine ⟨ordered.finishedSignal, fun _made => kept.not_absent sem,
    fun gone => absurd gone (kept.not_gone ungone), ordered.cleanupStarted,
    iff_of_true initialized goesOn, ordered.cleanupJoined, ?_⟩
  intro past
  change process.main.pastClockThread = true at past
  rw [early] at past
  cases past

/-! ### Runs -/

/-- A step that leaves the main thread and the two service threads alone. -/
theorem Ordered.aside (ordered : process.Ordered) (main : after.main = process.main)
    (threads : (after.cleanup, after.clock, after.cleanupThreadInitialized,
        after.clockThreadInitialized) =
      (process.cleanup, process.clock, process.cleanupThreadInitialized,
        process.clockThreadInitialized))
    (infos : after.threadInfos ≠ [] → process.threadInfos ≠ [])
    (signal : process.threadFinishedSignal.Kept after.threadFinishedSignal)
    (sem : process.clockSem.Kept after.clockSem) : after.Ordered := by
  refine ordered.onward threads infos signal.not_absent sem.not_absent ?_ ?_ ?_ ?_ ?_
  · intro made
    rw [main] at made
    exact signal.not_absent (ordered.finishedSignal (Or.inl made))
  · intro made
    rw [main] at made
    exact sem.not_absent (ordered.clockSem (Or.inl made))
  · intro gone
    rw [main]
    rcases sem with same | ⟨value, present⟩
    · exact ordered.freed (same.symm.trans gone)
    · rw [present] at gone
      cases gone
  · rw [main]
    exact ordered.cleanupJoined
  · rw [main]
    exact ordered.clockJoined

theorem Ordered.step {event : Event} {reply : Unit} (ordered : process.Ordered)
    (made : process.step build event = .ok (reply, after)) : after.Ordered := by
  have advanced := step_cases made
  cases event with
  | main done =>
      rcases mainThread_cases advanced with
        ⟨call, main, rfl⟩ | ⟨call, main, rfl⟩ | ⟨call, main, exits⟩
      · exact ordered.serverInit main
      · exact ordered.serverRun main
      · exact ordered.serverExit main exits
  | interrupted =>
      obtain ⟨main, ⟨_stops, rfl⟩ | rfl⟩ := interrupted_cases advanced
      · exact ordered.returns (by rw [main]; rfl) .ok
      · exact ordered
  | stop =>
      cases advanced
      exact ordered.aside rfl rfl id (.same _) (.same _)
  | stopPost =>
      obtain ⟨_called, value, _present, rfl⟩ := stopPost_cases advanced
      exact ordered.aside rfl rfl id (.same _) (.there _ _)
  | expire =>
      rw [expire_cases advanced]
      exact ordered.aside rfl rfl id (.same _) (.same _)
  | timerCallback =>
      rcases timerCallback_cases advanced with ⟨value, _present, rfl⟩ | rfl
      · exact ordered.aside rfl rfl id (.same _) (.there _ _)
      · exact ordered.aside rfl rfl id (.same _) (.same _)
  | client info more =>
      obtain ⟨thread, found, _effect⟩ := clientThread_cases advanced
      have some : process.threadInfos ≠ [] :=
        List.ne_nil_of_length_pos (Nat.zero_lt_of_lt (inside_of_threadOf found))
      obtain ⟨signal, mutex, infos, signalKept, _mutexKept, rfl⟩ := clientThread_frame advanced
      exact ordered.aside rfl rfl (fun _some => some) signalKept (.same _)
  | cleanup done => exact ordered.cleanupThread advanced
  | clock done => exact ordered.clockThread advanced

theorem zeroData_ordered : zeroData.Ordered where
  finishedSignal := by rintro (impossible | impossible | impossible) <;> contradiction
  clockSem := by rintro (impossible | impossible) <;> contradiction
  freed := nofun
  cleanupStarted := iff_of_false nofun (fun started => started rfl)
  clockStarted := iff_of_false nofun (fun started => started rfl)
  cleanupJoined := nofun
  clockJoined := nofun

theorem ordered_run {events : List Event} {replies : List Unit}
    (ran : runCalls (Process.step build) .zeroData events = .ok (replies, process)) :
    process.Ordered :=
  runCalls_keeps (fun _process _event _reply _after ordered _any made => ordered.step made)
    zeroData_ordered (runMeets_any events _) ran

theorem sound_run {events : List Event} {replies : List Unit}
    (ran : runCalls (Process.step build) .zeroData events = .ok (replies, process)) :
    process.Sound build :=
  ⟨(stopKnown_run ran).order, available_run ran, exclusive_run ran, ordered_run ran⟩

/-! ### What a thread that cannot go on meets -/

theorem Sound.unclosed (sound : process.Sound build) (running : ¬process.ClockOver ∨
    ¬process.CleanupOver) : ¬process.Closed := by
  apply sound.available.shared
  by_contra past
  obtain ⟨cleanup, clock⟩ :=
    MainThread.joined_of_pastOutputFile (Bool.eq_true_of_not_eq_false past)
  rcases running with running | running
  · exact running (sound.ordered.clockJoined clock)
  · exact running (sound.ordered.cleanupJoined cleanup)

theorem Sound.mutex_present (sound : process.Sound build) (unclosed : ¬process.Closed) :
    ∃ holder, process.outputFileMutex = .present holder := by
  cases mutex : process.outputFileMutex with
  | absent => exact absurd mutex sound.order.mutex
  | gone => exact absurd (Or.inr (Or.inl mutex)) unclosed
  | present holder => exact ⟨holder, rfl⟩

theorem Sound.file_present (sound : process.Sound build) (unclosed : ¬process.Closed)
    (uses : process.UsesFile build) : process.outputFile = .present () := by
  cases file : process.outputFile with
  | absent => exact absurd file (sound.available.used uses)
  | gone => exact absurd (Or.inl file) unclosed
  | present handle => rfl

theorem Sound.signal_present (sound : process.Sound build) (unclosed : ¬process.Closed)
    (made : process.main.madeFinishedSignal = true ∨ process.cleanup ≠ .notStarted ∨
      process.threadInfos ≠ []) : ∃ posts, process.threadFinishedSignal = .present posts := by
  cases signal : process.threadFinishedSignal with
  | absent => exact absurd signal (sound.ordered.finishedSignal made)
  | gone => exact absurd (Or.inr (Or.inr signal)) unclosed
  | present posts => exact ⟨posts, rfl⟩

theorem step_error_iff {event : Event} {halt : Halt} :
    process.step build event = .error halt ↔ process.advance build event = .error halt := by
  rw [Process.step]
  cases process.advance build event with
  | error other =>
      change Except.error other = _ ↔ _
      rw [Except.error.injEq, Except.error.injEq]
  | ok reached =>
      constructor <;>
        · intro impossible
          cases impossible

theorem Dangles.fault {event : Event} (dangles : process.Dangles event) :
    process.step build event = .error .useAfterFree := by
  apply step_error_iff.mpr
  cases event with
  | client info more =>
      rcases dangles with ⟨found, gone⟩ | ⟨found, gone⟩ | ⟨found, gone⟩
      · simp only [Process.advance, Process.clientThread, found, lockMutex, gone, error_bind]
      · simp only [Process.advance, Process.clientThread, found, gone]
      · simp only [Process.advance, Process.clientThread, found, gone]
  | _ => exact dangles.elim

theorem Unheard.fault {event : Event} (unheard : process.Unheard event) :
    process.step build event = .error .nullPointer := by
  apply step_error_iff.mpr
  cases event with
  | stopPost =>
      obtain ⟨called, absent⟩ := unheard
      change process.stopPost = _
      unfold Process.stopPost
      rw [if_neg called]
      split
      · rename_i value present
        exact absurd present (absent value)
      · rfl
  | _ => exact unheard.elim

theorem Dangles.closed {event : Event} (dangles : process.Dangles event) : process.Closed := by
  cases event with
  | client info more =>
      rcases dangles with ⟨_found, gone⟩ | ⟨_found, gone⟩ | ⟨_found, gone⟩
      · exact Or.inr (Or.inl gone)
      · exact Or.inl gone
      · exact Or.inr (Or.inr gone)
  | _ => exact dangles.elim

end Process

end Aesd.Lifecycle
