/-
Who has output_file_mutex.

In every run of the process the mutex belongs to the thread that is between
its lock and its unlock, and server_exit destroys it only while it is free.
Whoever has it can give it back by steps of its own, so that a client thread
can come to its end wherever the other threads are.
-/

import Aesd.Lifecycle.Sessions

set_option autoImplicit false

namespace Aesd.Lifecycle

open BoundedLoop CallRun Server

/-- Between pthread_mutex_lock and pthread_mutex_unlock. -/
def ClientThread.Inside : ClientThread → Prop
  | .talking => True
  | .unlocking => True
  | _ => False

def ClockThread.Inside : ClockThread → Prop
  | .writing => True
  | .unlocking _written => True
  | _ => False

/-- server_run has a thread_info for which there is no thread yet. -/
def MainThread.admits : MainThread → Bool
  | .serverRun .select => false
  | .serverRun _call => true
  | _ => false

namespace Process

def ClientInside (process : Process) (info : Nat) : Prop :=
  ∃ thread, process.threadOf info = some thread ∧ thread.Inside

/-- The mutex names the thread that is inside. -/
structure Exclusive (process : Process) : Prop where
  client : ∀ info,
    process.outputFileMutex = .present (some (.client info)) ↔ process.ClientInside info
  clock : process.outputFileMutex = .present (some .clock) ↔ process.clock.Inside
  fresh : process.main.admits = true → process.threadOf (process.threadInfos.length - 1) = none

variable {build : Build} {process after : Process} {done : Bool}

/-- Nothing is asked behind a call that has not been made. -/
theorem unasked {past : Bool} {Asked : Prop} (ahead : past = false) (behind : past = true) :
    Asked := by
  rw [ahead] at behind
  cases behind

theorem threadOf_eq (process : Process) (info : Nat) :
    process.threadOf info = process.threads[info]?.join := by
  rw [threads, List.getElem?_map, threadOf]
  cases process.threadInfos[info]? <;> rfl

theorem threadOf_of_threads (same : after.threads = process.threads) (info : Nat) :
    after.threadOf info = process.threadOf info := by
  rw [threadOf_eq, threadOf_eq, same]

theorem threads_length (process : Process) : process.threads.length = process.threadInfos.length :=
  List.length_map ..

theorem clientInside_iff {info : Nat} {thread : ClientThread}
    (found : process.threadOf info = some thread) : process.ClientInside info ↔ thread.Inside := by
  constructor
  · rintro ⟨other, also, inside⟩
    rw [found] at also
    cases also
    exact inside
  · exact fun inside => ⟨thread, found, inside⟩

theorem clientInside_congr {info : Nat} (same : after.threadOf info = process.threadOf info) :
    after.ClientInside info ↔ process.ClientInside info := by
  rw [ClientInside, ClientInside, same]

theorem inside_of_threadOf {info : Nat} {thread : ClientThread}
    (found : process.threadOf info = some thread) : info < process.threadInfos.length := by
  obtain ⟨record, present, _same⟩ := Option.bind_eq_some_iff.mp found
  exact (List.getElem?_eq_some_iff.mp present).1

/-! ### One step of one thread -/

theorem Exclusive.kept (exclusive : process.Exclusive)
    (mutex : after.outputFileMutex = process.outputFileMutex)
    (threads : after.threads = process.threads) (clock : after.clock.Inside ↔ process.clock.Inside)
    (admits : after.main.admits = true → process.main.admits = true) : after.Exclusive where
  client := by
    intro info
    rw [mutex, clientInside_congr (threadOf_of_threads threads info)]
    exact exclusive.client info
  clock := by
    rw [mutex, clock]
    exact exclusive.clock
  fresh := by
    intro allocated
    rw [threadOf_of_threads threads, ← threads_length, threads, threads_length]
    exact exclusive.fresh (admits allocated)

/-- A client thread goes on, and says whether it is inside now. -/
theorem Exclusive.clientMoves (exclusive : process.Exclusive) {info : Nat}
    {before next : ClientThread} (found : process.threadOf info = some before)
    (goes : after.threadOf info = some next)
    (others : ∀ other, other ≠ info → after.threadOf other = process.threadOf other)
    (allocated : after.threadInfos.length = process.threadInfos.length)
    (main : after.main = process.main) (clock : after.clock = process.clock)
    (mine : after.outputFileMutex = .present (some (.client info)) ↔ next.Inside)
    (theirs : ∀ holder, holder ≠ .client info →
      (after.outputFileMutex = .present (some holder) ↔
        process.outputFileMutex = .present (some holder))) : after.Exclusive where
  client := by
    intro other
    by_cases same : other = info
    · subst same
      rw [clientInside_iff goes]
      exact mine
    · rw [clientInside_congr (others other same),
        theirs _ (fun equal => same (Holder.client.inj equal))]
      exact exclusive.client other
  clock := by
    have unnamed : Holder.clock ≠ .client info := nofun
    rw [theirs .clock unnamed, clock]
    exact exclusive.clock
  fresh := by
    intro admits
    rw [main] at admits
    have last := exclusive.fresh admits
    rw [allocated]
    by_cases same : process.threadInfos.length - 1 = info
    · rw [same, found] at last
      cases last
    · rw [others _ same]
      exact last

theorem Exclusive.clockMoves (exclusive : process.Exclusive)
    (threads : after.threads = process.threads) (main : after.main = process.main)
    (mine : after.outputFileMutex = .present (some .clock) ↔ after.clock.Inside)
    (theirs : ∀ info, after.outputFileMutex = .present (some (.client info)) ↔
      process.outputFileMutex = .present (some (.client info))) : after.Exclusive where
  client := by
    intro info
    rw [theirs, clientInside_congr (threadOf_of_threads threads info)]
    exact exclusive.client info
  clock := mine
  fresh := by
    intro admits
    rw [main] at admits
    rw [threadOf_of_threads threads, ← threads_length, threads, threads_length]
    exact exclusive.fresh admits

theorem threadOf_modify_self {info : Nat} {thread next : ClientThread}
    {change : ThreadInfo → ThreadInfo} (found : process.threadOf info = some thread)
    (infos : after.threadInfos = process.threadInfos.modify info change)
    (goes : ∀ record, (change record).thread = some next) : after.threadOf info = some next := by
  obtain ⟨record, present, _same⟩ := Option.bind_eq_some_iff.mp found
  simp only [threadOf, infos, List.getElem?_modify, present]
  exact goes record

theorem threadOf_modify_other {info other : Nat} {change : ThreadInfo → ThreadInfo}
    (different : other ≠ info)
    (infos : after.threadInfos = process.threadInfos.modify info change) :
    after.threadOf other = process.threadOf other := by
  simp only [threadOf, infos, List.getElem?_modify, if_neg different.symm]
  rw [Option.map_eq_map, Option.map_id']

theorem Exclusive.clientThread {info : Nat} {more : Bool} (exclusive : process.Exclusive)
    (made : process.clientThread info more = .ok after) : after.Exclusive := by
  obtain ⟨thread, found, effect⟩ := clientThread_cases made
  have owns := (exclusive.client info).trans (clientInside_iff found)
  have moves : ∀ {next : ClientThread} {change : ThreadInfo → ThreadInfo},
      after.threadInfos = process.threadInfos.modify info change →
      (∀ record, (change record).thread = some next) →
      after.main = process.main → after.clock = process.clock →
      (after.outputFileMutex = .present (some (.client info)) ↔ next.Inside) →
      (∀ holder, holder ≠ .client info → (after.outputFileMutex = .present (some holder) ↔
        process.outputFileMutex = .present (some holder))) → after.Exclusive := by
    intro next change infos goes main clock mine theirs
    refine exclusive.clientMoves found (threadOf_modify_self found infos goes)
      (fun other different => threadOf_modify_other different infos) ?_ main clock mine theirs
    rw [infos, List.length_modify]
  cases thread with
  | locking =>
      obtain ⟨free, rfl⟩ := effect
      refine moves rfl (fun _record => rfl) rfl rfl (iff_of_true rfl True.intro) ?_
      intro holder different
      rw [free]
      refine iff_of_false ?_ nofun
      intro same
      cases same
      exact different rfl
  | talking =>
      obtain ⟨_opened, rfl⟩ := effect
      refine moves rfl (fun _record => rfl) rfl rfl ?_ (fun _holder _different => Iff.rfl)
      refine iff_of_true (owns.mpr True.intro) ?_
      cases more <;> exact True.intro
  | unlocking =>
      obtain ⟨_held, rfl⟩ := effect
      refine moves rfl (fun _record => rfl) rfl rfl (iff_of_false nofun id) ?_
      intro holder different
      rw [owns.mpr True.intro]
      refine iff_of_false nofun ?_
      intro same
      cases same
      exact different rfl
  | closing =>
      subst effect
      exact moves rfl (fun _record => rfl) rfl rfl owns (fun _holder _different => Iff.rfl)
  | finishing =>
      subst effect
      exact moves rfl (fun _record => rfl) rfl rfl owns (fun _holder _different => Iff.rfl)
  | posting =>
      obtain ⟨posts, _present, rfl⟩ := effect
      exact moves rfl (fun _record => rfl) rfl rfl owns (fun _holder _different => Iff.rfl)
  | returned => exact effect.elim

theorem Exclusive.clockThread (exclusive : process.Exclusive)
    (made : process.clockThread build done = .ok after) : after.Exclusive := by
  have owns := exclusive.clock
  have effect := clockThread_cases made
  have unnamed : ∀ info, process.outputFileMutex = .present (some .clock) →
      process.outputFileMutex ≠ .present (some (.client info)) := by
    intro info held same
    rw [held] at same
    cases same
  cases place : process.clock with
  | notStarted =>
      rw [place] at effect
      exact effect.elim
  | waiting =>
      rw [place] at effect owns
      rcases effect with ⟨_failed, rfl⟩ | ⟨value, _present, rfl⟩ <;>
        exact exclusive.clockMoves rfl rfl owns (fun _info => Iff.rfl)
  | checking =>
      rw [place] at effect owns
      rcases effect with ⟨_stops, rfl⟩ | ⟨_goesOn, ⟨_device, rfl⟩ | ⟨_regular, rfl⟩⟩
      · exact exclusive.clockMoves rfl rfl owns (fun _info => Iff.rfl)
      · exact exclusive.clockMoves rfl rfl owns (fun _info => Iff.rfl)
      · cases done <;> exact exclusive.clockMoves rfl rfl owns (fun _info => Iff.rfl)
  | locking =>
      rw [place] at effect
      obtain ⟨free, rfl⟩ := effect
      refine exclusive.clockMoves rfl rfl (iff_of_true rfl True.intro) (fun info => ?_)
      rw [free]
      exact iff_of_false nofun nofun
  | writing =>
      rw [place] at effect owns
      obtain ⟨_opened, rfl⟩ := effect
      exact exclusive.clockMoves rfl rfl owns (fun _info => Iff.rfl)
  | unlocking written =>
      rw [place] at effect owns
      obtain ⟨_held, rfl⟩ := effect
      have outside : ¬(if written then ClockThread.waiting else .returned .err).Inside := by
        cases written <;> exact id
      exact exclusive.clockMoves rfl rfl (iff_of_false nofun outside)
        (fun info => iff_of_false nofun (unnamed info (owns.mpr True.intro)))
  | returned ret =>
      rw [place] at effect
      exact effect.elim

theorem Exclusive.serverInit {call : InitCall} (exclusive : process.Exclusive)
    (order : process.ClockOrder build) (main : process.main = .serverInit call) :
    (process.serverInit build call done).Exclusive := by
  cases done with
  | false => exact exclusive.kept rfl rfl Iff.rfl nofun
  | true =>
      cases call with
      | initClockSem => cases build <;> exact exclusive.kept rfl rfl Iff.rfl nofun
      | createClockThread =>
          have notStarted := order.threadLater (by rw [main]; rfl)
          have outside : ¬process.clock.Inside := by
            rw [notStarted]
            exact id
          exact exclusive.kept rfl rfl (iff_of_false id outside) nofun
      | initFinishedSignal => exact exclusive.kept rfl rfl Iff.rfl nofun
      | openOutputFile => exact exclusive.kept rfl rfl Iff.rfl nofun
      | createCleanupThread => exact exclusive.kept rfl rfl Iff.rfl nofun
      | socket => exact exclusive.kept rfl rfl Iff.rfl nofun
      | bind => exact exclusive.kept rfl rfl Iff.rfl nofun
      | listen => exact exclusive.kept rfl rfl Iff.rfl nofun
      | timerCreate => exact exclusive.kept rfl rfl Iff.rfl nofun
      | timerSettime => exact exclusive.kept rfl rfl Iff.rfl nofun

/-- A new thread starts outside. -/
theorem Exclusive.serverRun {call : RunCall} (exclusive : process.Exclusive)
    (main : process.main = .serverRun call) : (process.serverRun build call done).Exclusive := by
  cases done with
  | false => exact exclusive.kept rfl rfl Iff.rfl (unasked rfl)
  | true =>
      cases call with
      | select =>
          have earlier : ∀ info, info ≠ process.threadInfos.length →
              (process.serverRun build .select true).threadOf info = process.threadOf info := by
            intro info different
            simp only [threadOf, Process.serverRun, if_true]
            rw [List.getElem?_append]
            split
            · rfl
            · rename_i beyond
              have past : process.threadInfos.length < info := by omega
              rw [List.getElem?_eq_none (Nat.le_of_lt past), List.getElem?_eq_none]
              rw [List.length_singleton]
              omega
          have last : (process.serverRun build .select true).threadOf
              process.threadInfos.length = none := by
            simp only [threadOf, Process.serverRun, if_true, List.getElem?_concat_length]
            rfl
          refine ⟨?_, exclusive.clock, ?_⟩
          · intro info
            refine (exclusive.client info).trans ?_
            by_cases new : info = process.threadInfos.length
            · subst new
              refine iff_of_false ?_ ?_
              · rintro ⟨thread, found, _inside⟩
                exact absurd (inside_of_threadOf found) (Nat.lt_irrefl _)
              · rintro ⟨thread, found, _inside⟩
                rw [last] at found
                cases found
            · exact (clientInside_congr (earlier info new)).symm
          · intro _admits
            change (process.serverRun build .select true).threadOf
              ((process.threadInfos ++ [ThreadInfo.allocated]).length - 1) = none
            rw [List.length_append, List.length_singleton, Nat.add_sub_cancel]
            exact last
      | accept =>
          have admits : process.main.admits = true := by
            rw [main]
            rfl
          simp only [Process.serverRun, if_true]
          split <;> exact exclusive.kept rfl rfl Iff.rfl (fun _late => admits)
      | openDevice =>
          have admits : process.main.admits = true := by
            rw [main]
            rfl
          exact exclusive.kept rfl rfl Iff.rfl (fun _late => admits)
      | createClientThread =>
          have nobody := exclusive.fresh (by rw [main]; rfl)
          refine ⟨?_, exclusive.clock, unasked rfl⟩
          intro info
          refine (exclusive.client info).trans ?_
          by_cases new : info = process.threadInfos.length - 1
          · subst new
            refine iff_of_false ?_ ?_
            · rintro ⟨thread, found, _inside⟩
              rw [nobody] at found
              cases found
            · rintro ⟨thread, found, inside⟩
              have place : (process.setThread (process.threadInfos.length - 1) .locking).threadOf
                  (process.threadInfos.length - 1) = some thread := found
              have bound := inside_of_threadOf place
              rw [started_goTo rfl] at bound
              rw [threadOf_setThread_self bound] at place
              cases place
              exact inside
          · exact (clientInside_congr (threadOf_setThread_other new .locking)).symm

/-- Only a free mutex is destroyed. -/
theorem destroyMutex_cases (made : process.serverExit build .destroyMutex done = .ok after) :
    after.outputFileMutex = process.outputFileMutex ∨
      (process.outputFileMutex = .present none ∧ after.outputFileMutex = .gone) := by
  simp only [Process.serverExit] at made
  split at made
  · rename_i free
    cases made
    cases done
    · exact Or.inl free.symm
    · exact Or.inr ⟨free, rfl⟩
  · cases made
    exact Or.inl rfl

theorem Exclusive.destroyed (exclusive : process.Exclusive)
    (free : process.outputFileMutex = .present none) (gone : after.outputFileMutex = .gone)
    (threads : after.threads = process.threads) (clock : after.clock = process.clock)
    (admits : after.main.admits = false) : after.Exclusive where
  client := by
    intro info
    rw [gone, clientInside_congr (threadOf_of_threads threads info), ← exclusive.client, free]
    exact iff_of_false nofun nofun
  clock := by
    rw [gone, clock, ← exclusive.clock, free]
    exact iff_of_false nofun nofun
  fresh := by
    intro impossible
    rw [admits] at impossible
    cases impossible

theorem Exclusive.serverExit {call : ExitCall} (exclusive : process.Exclusive)
    (made : process.serverExit build call done = .ok after) : after.Exclusive := by
  have effect := serverExit_effect made
  cases call with
  | timerDelete =>
      obtain ⟨exitRet, timer, armed, rfl⟩ := effect
      exact exclusive.kept rfl rfl Iff.rfl nofun
  | postFinishedSignal =>
      rcases effect with ⟨_initialized, posts, _present, rfl⟩ | ⟨_initialized, rfl⟩ <;>
        exact exclusive.kept rfl rfl Iff.rfl nofun
  | joinCleanupThread =>
      obtain ⟨_returned, rfl⟩ := effect
      exact exclusive.kept rfl rfl Iff.rfl nofun
  | joinClockThread =>
      obtain ⟨_returned, rfl⟩ := effect
      exact exclusive.kept rfl rfl Iff.rfl nofun
  | closeSocket =>
      obtain ⟨exitRet, rfl⟩ := effect
      exact exclusive.kept rfl rfl Iff.rfl nofun
  | closeOutputFile =>
      obtain ⟨exitRet, outputFile, _closed, rfl⟩ := effect
      exact exclusive.kept rfl rfl Iff.rfl nofun
  | destroyMutex =>
      have destroys := destroyMutex_cases made
      obtain ⟨exitRet, outputFileMutex, _destroyed, rfl⟩ := effect
      rcases destroys with same | ⟨free, gone⟩
      · exact exclusive.kept same rfl Iff.rfl nofun
      · exact exclusive.destroyed free gone rfl rfl rfl
  | destroyFinishedSignal =>
      obtain ⟨exitRet, threadFinishedSignal, _freed, rfl⟩ := effect
      exact exclusive.kept rfl rfl Iff.rfl nofun
  | destroyClockSem =>
      obtain ⟨exitRet, clockSem, _freed, rfl⟩ := effect
      exact exclusive.kept rfl rfl Iff.rfl nofun
  | freeThreadList =>
      have sameThreads := threads_freeInfos process.threadList process.threadInfos
      obtain ⟨main, rfl | ⟨ret, rfl⟩, rfl⟩ := effect <;>
        exact exclusive.kept rfl sameThreads Iff.rfl nofun
  | unlink =>
      obtain ⟨exitRet, ret, rfl⟩ := effect
      exact exclusive.kept rfl rfl Iff.rfl nofun

/-! ### Runs -/

theorem Exclusive.step {event : Event} {reply : Unit} (exclusive : process.Exclusive)
    (order : process.ClockOrder build)
    (made : process.step build event = .ok (reply, after)) : after.Exclusive := by
  have advanced := step_cases made
  cases event with
  | main done =>
      rcases mainThread_cases advanced with
        ⟨call, main, rfl⟩ | ⟨call, main, rfl⟩ | ⟨call, _main, exits⟩
      · exact exclusive.serverInit order main
      · exact exclusive.serverRun main
      · exact exclusive.serverExit exits
  | interrupted =>
      obtain ⟨_main, ⟨_stops, rfl⟩ | rfl⟩ := interrupted_cases advanced
      · exact exclusive.kept rfl rfl Iff.rfl nofun
      · exact exclusive
  | stop =>
      cases advanced
      exact exclusive.kept rfl rfl Iff.rfl id
  | stopPost =>
      obtain ⟨_called, value, _present, rfl⟩ := stopPost_cases advanced
      exact exclusive.kept rfl rfl Iff.rfl id
  | expire =>
      rw [expire_cases advanced]
      exact exclusive.kept rfl rfl Iff.rfl id
  | timerCallback =>
      rcases timerCallback_cases advanced with ⟨value, _present, rfl⟩ | rfl <;>
        exact exclusive.kept rfl rfl Iff.rfl id
  | client info more => exact exclusive.clientThread advanced
  | cleanup done =>
      obtain ⟨signal, consumed, cleanup, infos, list, _signal, threads, rfl⟩ :=
        cleanupThread_frame advanced
      exact exclusive.kept rfl threads Iff.rfl id
  | clock done => exact exclusive.clockThread advanced

theorem zeroData_exclusive : zeroData.Exclusive where
  client := by
    intro info
    refine iff_of_false nofun ?_
    rintro ⟨_thread, impossible, _inside⟩
    cases impossible
  clock := iff_of_false nofun id
  fresh := nofun

theorem exclusive_run {events : List Event} {replies : List Unit}
    (ran : runCalls (Process.step build) .zeroData events = .ok (replies, process)) :
    process.Exclusive := by
  let Both (process : Process) : Prop := process.Exclusive ∧ process.ClockOrder build
  have one : ∀ process event reply after, Both process → True →
      process.step build event = .ok (reply, after) → Both after :=
    fun _process _event _reply _after both _any made =>
      ⟨both.1.step both.2 made, both.2.step made⟩
  have initially : Both .zeroData := ⟨zeroData_exclusive, zeroData_clockOrder build⟩
  exact (runCalls_keeps one initially (runMeets_any events _) ran).1

end Process

end Aesd.Lifecycle
