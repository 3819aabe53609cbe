/-
What becomes of the thread_infos.

server_run never inserts a thread_info into thread_list, so cleanup_thread
finds no finished node at its first wake-up and takes that for the stop: no
client thread is joined, no thread_info is freed.  As long as there is no
client, cleanup_thread waits for server_exit.
-/

import Aesd.Lifecycle.SharedResources

set_option autoImplicit false

namespace Aesd.Lifecycle

open BoundedLoop CallRun Server

/-- server_exit has posted thread_finished_signal. -/
def MainThread.posted : MainThread → Bool
  | .serverInit _call => false
  | .serverRun _call => false
  | .serverExit .timerDelete => false
  | .serverExit .postFinishedSignal => false
  | .serverExit _call => true
  | .returned _ret => true

/-- cleanup_thread is not on its way from a sem_wait to the next. -/
def CleanupThread.Resting : CleanupThread → Prop
  | .waiting => True
  | .returned _ret => True
  | _ => False

namespace Process

/-- cleanup_thread outlasts the clients, each client whose post it has taken is
joined, removed and freed once, and none is left behind server_exit. -/
structure Reclaims (process : Process) : Prop where
  lasts : ∀ ret, process.cleanup = .returned ret → process.main.posted = true
  each : process.cleanup.Resting → ∀ index info, process.threadInfos[index]? = some info →
    info.threadFinished = true → .client index ∈ process.consumed →
    info.joined = 1 ∧ index ∉ process.threadList ∧ info.freed = 1
  all : ∀ ret, process.main = .returned ret → process.ClientsReturned →
    ∀ info, info ∈ process.threadInfos →
      (info.thread ≠ none → info.joined = 1) ∧ info.freed = 1

/-- The condition on a step: select reports no connection, and the sem_wait of
cleanup_thread does not fail. -/
def Unvisited (process : Process) : Event → Prop
  | .main done => process.main = .serverRun .select → done = false
  | .cleanup done => process.cleanup = .waiting → done = true
  | _ => True

instance (process : Process) (event : Event) : Decidable (process.Unvisited event) :=
  match event with
  | .main done => inferInstanceAs (Decidable (process.main = .serverRun .select → done = false))
  | .cleanup done => inferInstanceAs (Decidable (process.cleanup = .waiting → done = true))
  | .interrupted => isTrue True.intro
  | .stop => isTrue True.intro
  | .stopPost => isTrue True.intro
  | .expire => isTrue True.intro
  | .timerCallback => isTrue True.intro
  | .client _info _more => isTrue True.intro
  | .clock _done => isTrue True.intro

/-- The posts that no sem_wait has taken yet. -/
def pending (process : Process) : List Poster :=
  match process.threadFinishedSignal with
  | .present posts => posts
  | _ => []

def Finished (process : Process) (index : Nat) : Prop :=
  ∃ info, process.threadInfos[index]? = some info ∧ info.threadFinished = true

/-- No thread_info is ever listed, joined or freed; a client posts behind its flag. -/
structure Unlisted (process : Process) : Prop where
  empty : process.threadList = []
  idle : ∀ info, process.cleanup ≠ .joining info ∧ process.cleanup ≠ .removing info
  untouched : ∀ info, info ∈ process.threadInfos → info.joined = 0 ∧ info.freed = 0
  flagged : ∀ info, info ∈ process.threadInfos → info.thread = some .posting →
    info.threadFinished = true
  posts : ∀ index, .client index ∈ process.pending ∨ .client index ∈ process.consumed →
    process.Finished index

/-- Nobody has posted, and cleanup_thread waits. -/
def Asleep (process : Process) : Prop :=
  process.pending = [] ∧ (process.cleanup = .notStarted ∨ process.cleanup = .waiting)

/-- There is no client, and nobody posts but server_exit. -/
structure Alone (process : Process) : Prop where
  nobody : process.threadInfos = []
  asleep : process.main.posted = false → process.Asleep

end Process

/-- What holds of all items still holds after one has been changed. -/
theorem forall_modify {Item : Type} {good : Item → Prop} {items : List Item} {index : Nat}
    {change : Item → Item} (all : ∀ item, item ∈ items → good item)
    (changed : ∀ item, items[index]? = some item → good item → good (change item)) :
    ∀ item, item ∈ items.modify index change → good item := by
  intro item member
  obtain ⟨place, found⟩ := List.mem_iff_getElem?.mp member
  rw [List.getElem?_modify] at found
  obtain ⟨before, present, same⟩ := Option.map_eq_some_iff.mp found
  have fine := all before (List.mem_of_getElem? present)
  by_cases here : index = place
  · rw [if_pos here] at same
    rw [← same]
    exact changed before (here ▸ present) fine
  · rw [if_neg here] at same
    rw [← same]
    exact fine

namespace Process

variable {build : Build} {process after : Process} {done : Bool}

theorem Finished.modify {index : Nat} (finished : process.Finished index) {place : Nat}
    {change : ThreadInfo → ThreadInfo}
    (kept : ∀ info, info.threadFinished = true → (change info).threadFinished = true)
    (infos : after.threadInfos = process.threadInfos.modify place change) :
    after.Finished index := by
  obtain ⟨info, found, flag⟩ := finished
  rw [Finished, infos, List.getElem?_modify, found]
  by_cases here : place = index
  · exact ⟨change info, congrArg some (if_pos here), kept info flag⟩
  · exact ⟨info, congrArg some (if_neg here), flag⟩

/-! ### The main thread -/

theorem Unlisted.serverInit (unlisted : process.Unlisted) (call : InitCall) :
    (process.serverInit build call done).Unlisted := by
  obtain ⟨empty, idle, untouched, flagged, posts⟩ := unlisted
  cases done with
  | false => exact ⟨empty, idle, untouched, flagged, posts⟩
  | true =>
      cases call with
      | initFinishedSignal =>
          refine ⟨empty, idle, untouched, flagged, ?_⟩
          rintro index (impossible | taken)
          · cases impossible
          · exact posts index (Or.inr taken)
      | createCleanupThread => exact ⟨empty, fun _info => ⟨nofun, nofun⟩, untouched, flagged, posts⟩
      | initClockSem => exact ⟨empty, idle, untouched, flagged, posts⟩
      | openOutputFile => exact ⟨empty, idle, untouched, flagged, posts⟩
      | createClockThread => exact ⟨empty, idle, untouched, flagged, posts⟩
      | socket => exact ⟨empty, idle, untouched, flagged, posts⟩
      | bind => exact ⟨empty, idle, untouched, flagged, posts⟩
      | listen => exact ⟨empty, idle, untouched, flagged, posts⟩
      | timerCreate => exact ⟨empty, idle, untouched, flagged, posts⟩
      | timerSettime => exact ⟨empty, idle, untouched, flagged, posts⟩

theorem Unlisted.goTo (unlisted : process.Unlisted) (index : Nat) (thread : ClientThread)
    (other : thread ≠ .posting) : (process.setThread index thread).Unlisted := by
  obtain ⟨empty, idle, untouched, flagged, posts⟩ := unlisted
  refine ⟨empty, idle, forall_modify untouched (fun _info _present fine => fine), ?_, ?_⟩
  · apply forall_modify flagged
    intro info _present _fine posting
    exact absurd (Option.some.inj posting) other
  · intro poster posted
    have kept : ∀ info : ThreadInfo, info.threadFinished = true →
        (ThreadInfo.goTo thread info).threadFinished = true := fun _info flag => flag
    exact (posts poster posted).modify kept rfl

theorem Unlisted.serverRun (unlisted : process.Unlisted) (call : RunCall) :
    (process.serverRun build call done).Unlisted := by
  cases done with
  | false =>
      obtain ⟨empty, idle, untouched, flagged, posts⟩ := unlisted
      exact ⟨empty, idle, untouched, flagged, posts⟩
  | true =>
      cases call with
      | select =>
          obtain ⟨empty, idle, untouched, flagged, posts⟩ := unlisted
          refine ⟨empty, idle, ?_, ?_, ?_⟩
          · intro info member
            rcases List.mem_append.mp member with before | new
            · exact untouched info before
            · rw [List.mem_singleton.mp new]
              exact ⟨rfl, rfl⟩
          · intro info member
            rcases List.mem_append.mp member with before | new
            · exact flagged info before
            · rw [List.mem_singleton.mp new]
              exact nofun
          · intro index posted
            obtain ⟨info, found, flag⟩ := posts index posted
            refine ⟨info, ?_, flag⟩
            obtain ⟨inside, _here⟩ := List.getElem?_eq_some_iff.mp found
            exact (List.getElem?_append_left inside).trans found
      | accept =>
          obtain ⟨empty, idle, untouched, flagged, posts⟩ := unlisted
          exact ⟨empty, idle, untouched, flagged, posts⟩
      | openDevice =>
          obtain ⟨empty, idle, untouched, flagged, posts⟩ := unlisted
          exact ⟨empty, idle, untouched, flagged, posts⟩
      | createClientThread =>
          obtain ⟨empty, idle, untouched, flagged, posts⟩ :=
            unlisted.goTo (process.threadInfos.length - 1) .locking nofun
          exact ⟨empty, idle, untouched, flagged, posts⟩

theorem mem_posts {posts : List Poster} (present : process.threadFinishedSignal = .present posts) :
    process.pending = posts := by
  rw [pending, present]

theorem Unlisted.serverExit (unlisted : process.Unlisted) {call : ExitCall}
    (made : process.serverExit build call done = .ok after) : after.Unlisted := by
  obtain ⟨empty, idle, untouched, flagged, posts⟩ := unlisted
  have effect := serverExit_effect made
  cases call with
  | timerDelete =>
      obtain ⟨exitRet, timer, armed, rfl⟩ := effect
      exact ⟨empty, idle, untouched, flagged, posts⟩
  | postFinishedSignal =>
      rcases effect with ⟨_initialized, before, present, rfl⟩ | ⟨_initialized, rfl⟩
      · refine ⟨empty, idle, untouched, flagged, ?_⟩
        rw [mem_posts present] at posts
        rintro index (waits | taken)
        · have earlier := (List.mem_append.mp waits).resolve_right (by simp)
          exact posts index (Or.inl earlier)
        · exact posts index (Or.inr taken)
      · exact ⟨empty, idle, untouched, flagged, posts⟩
  | joinCleanupThread =>
      obtain ⟨_returned, rfl⟩ := effect
      exact ⟨empty, idle, untouched, flagged, posts⟩
  | joinClockThread =>
      obtain ⟨_returned, rfl⟩ := effect
      exact ⟨empty, idle, untouched, flagged, posts⟩
  | closeSocket =>
      obtain ⟨exitRet, rfl⟩ := effect
      exact ⟨empty, idle, untouched, flagged, posts⟩
  | closeOutputFile =>
      obtain ⟨exitRet, outputFile, _closed, rfl⟩ := effect
      exact ⟨empty, idle, untouched, flagged, posts⟩
  | destroyMutex =>
      obtain ⟨exitRet, outputFileMutex, _destroyed, rfl⟩ := effect
      exact ⟨empty, idle, untouched, flagged, posts⟩
  | destroyFinishedSignal =>
      obtain ⟨exitRet, threadFinishedSignal, rfl | rfl, rfl⟩ := effect
      · exact ⟨empty, idle, untouched, flagged, posts⟩
      · refine ⟨empty, idle, untouched, flagged, ?_⟩
        rintro index (impossible | taken)
        · cases impossible
        · exact posts index (Or.inr taken)
  | destroyClockSem =>
      obtain ⟨exitRet, clockSem, _freed, rfl⟩ := effect
      exact ⟨empty, idle, untouched, flagged, posts⟩
  | freeThreadList =>
      obtain ⟨main, _last, rfl⟩ := effect
      rw [empty]
      exact ⟨rfl, idle, untouched, flagged, posts⟩
  | unlink =>
      obtain ⟨exitRet, ret, rfl⟩ := effect
      exact ⟨empty, idle, untouched, flagged, posts⟩

/-! ### The other threads -/

theorem Unlisted.clientThread {info : Nat} {more : Bool} (unlisted : process.Unlisted)
    (made : process.clientThread info more = .ok after) : after.Unlisted := by
  obtain ⟨thread, found, effect⟩ := clientThread_cases made
  cases thread with
  | locking =>
      obtain ⟨_free, rfl⟩ := effect
      obtain ⟨empty, idle, untouched, flagged, posts⟩ := unlisted.goTo info .talking nofun
      exact ⟨empty, idle, untouched, flagged, posts⟩
  | talking =>
      obtain ⟨_opened, rfl⟩ := effect
      cases more
      · exact unlisted.goTo info .unlocking nofun
      · exact unlisted.goTo info .talking nofun
  | unlocking =>
      obtain ⟨_held, rfl⟩ := effect
      obtain ⟨empty, idle, untouched, flagged, posts⟩ := unlisted.goTo info .closing nofun
      exact ⟨empty, idle, untouched, flagged, posts⟩
  | closing =>
      subst effect
      exact unlisted.goTo info .finishing nofun
  | finishing =>
      subst effect
      obtain ⟨empty, idle, untouched, flagged, posts⟩ := unlisted
      have kept : ∀ info : ThreadInfo, info.threadFinished = true →
          info.finish.threadFinished = true := fun _info _flag => rfl
      exact ⟨empty, idle, forall_modify untouched (fun _info _present fine => fine),
        forall_modify flagged (fun _info _present _fine _posting => rfl),
        fun index posted => (posts index posted).modify kept rfl⟩
  | posting =>
      obtain ⟨before, present, rfl⟩ := effect
      obtain ⟨record, here, same⟩ := Option.bind_eq_some_iff.mp found
      have flag := unlisted.flagged record (List.mem_of_getElem? here) same
      have poster : process.Finished info := ⟨record, here, flag⟩
      have kept : ∀ info : ThreadInfo, info.threadFinished = true →
          (ThreadInfo.goTo .returned info).threadFinished = true := fun _info flag => flag
      have earlier := unlisted.posts
      rw [mem_posts present] at earlier
      obtain ⟨empty, idle, untouched, flagged, _posts⟩ := unlisted.goTo info .returned nofun
      refine ⟨empty, idle, untouched, flagged, ?_⟩
      rintro index (waits | taken)
      · rcases List.mem_append.mp waits with before | new
        · exact (earlier index (Or.inl before)).modify kept rfl
        · cases List.mem_singleton.mp new
          exact poster.modify kept rfl
      · exact (earlier index (Or.inr taken)).modify kept rfl
  | returned => exact effect.elim

theorem Unlisted.cleanupThread (unlisted : process.Unlisted)
    (made : process.cleanupThread done = .ok after) : after.Unlisted := by
  obtain ⟨empty, idle, untouched, flagged, posts⟩ := unlisted
  have effect := cleanupThread_cases made
  cases place : process.cleanup with
  | notStarted =>
      rw [place] at effect
      exact effect.elim
  | waiting =>
      rw [place] at effect
      rcases effect with ⟨_failed, rfl⟩ | ⟨poster, later, present, rfl⟩
      · exact ⟨empty, fun _info => ⟨nofun, nofun⟩, untouched, flagged, posts⟩
      · refine ⟨empty, fun _info => ⟨nofun, nofun⟩, untouched, flagged, ?_⟩
        rw [mem_posts present] at posts
        rintro index (waits | taken)
        · exact posts index (Or.inl (List.mem_cons_of_mem poster waits))
        · rcases List.mem_append.mp taken with before | new
          · exact posts index (Or.inr before)
          · rw [List.mem_singleton] at new
            exact posts index (Or.inl (new ▸ List.mem_cons_self))
  | searching =>
      rw [place] at effect
      have nothing : process.finishedNode = none := by
        rw [finishedNode, empty]
        rfl
      rw [nothing] at effect
      rcases effect with ⟨_none, rfl⟩ | ⟨info, impossible, _after⟩
      · exact ⟨empty, fun _info => ⟨nofun, nofun⟩, untouched, flagged, posts⟩
      · cases impossible
  | joining info => exact absurd place (idle info).1
  | removing info => exact absurd place (idle info).2
  | returned ret =>
      rw [place] at effect
      exact effect.elim

theorem Unlisted.step {event : Event} {reply : Unit} (unlisted : process.Unlisted)
    (made : process.step build event = .ok (reply, after)) : after.Unlisted := by
  have advanced := step_cases made
  obtain ⟨empty, idle, untouched, flagged, posts⟩ := id unlisted
  cases event with
  | main done =>
      rcases mainThread_cases advanced with
        ⟨call, _main, rfl⟩ | ⟨call, _main, rfl⟩ | ⟨call, _main, exits⟩
      · exact unlisted.serverInit call
      · exact unlisted.serverRun call
      · exact unlisted.serverExit exits
  | interrupted =>
      obtain ⟨_main, ⟨_stops, rfl⟩ | rfl⟩ := interrupted_cases advanced
      · exact ⟨empty, idle, untouched, flagged, posts⟩
      · exact unlisted
  | stop =>
      cases advanced
      exact ⟨empty, idle, untouched, flagged, posts⟩
  | stopPost =>
      obtain ⟨_called, value, _present, rfl⟩ := stopPost_cases advanced
      exact ⟨empty, idle, untouched, flagged, posts⟩
  | expire =>
      rw [expire_cases advanced]
      exact ⟨empty, idle, untouched, flagged, posts⟩
  | timerCallback =>
      rcases timerCallback_cases advanced with ⟨value, _present, rfl⟩ | rfl <;>
        exact ⟨empty, idle, untouched, flagged, posts⟩
  | client info more => exact unlisted.clientThread advanced
  | cleanup done => exact unlisted.cleanupThread advanced
  | clock done =>
      obtain ⟨_started, clockSem, mutex, clock, _mutexKept, rfl⟩ := clockThread_frame advanced
      exact ⟨empty, idle, untouched, flagged, posts⟩

theorem zeroData_unlisted : zeroData.Unlisted where
  empty := rfl
  idle := fun _info => ⟨nofun, nofun⟩
  untouched := nofun
  flagged := nofun
  posts := by
    rintro index (impossible | impossible) <;> cases impossible

/-! ### Without a client -/

theorem Alone.serverInit (alone : process.Alone) {call : InitCall}
    (main : process.main = .serverInit call) : (process.serverInit build call done).Alone := by
  obtain ⟨nobody, asleep⟩ := alone
  rw [main] at asleep
  obtain ⟨nothing, sleeps⟩ := asleep rfl
  cases done with
  | false => exact ⟨nobody, fun _early => ⟨nothing, sleeps⟩⟩
  | true =>
      cases call with
      | initFinishedSignal => exact ⟨nobody, fun _early => ⟨rfl, sleeps⟩⟩
      | createCleanupThread => exact ⟨nobody, fun _early => ⟨nothing, Or.inr rfl⟩⟩
      | initClockSem => exact ⟨nobody, fun _early => ⟨nothing, sleeps⟩⟩
      | openOutputFile => exact ⟨nobody, fun _early => ⟨nothing, sleeps⟩⟩
      | createClockThread => exact ⟨nobody, fun _early => ⟨nothing, sleeps⟩⟩
      | socket => exact ⟨nobody, fun _early => ⟨nothing, sleeps⟩⟩
      | bind => exact ⟨nobody, fun _early => ⟨nothing, sleeps⟩⟩
      | listen => exact ⟨nobody, fun _early => ⟨nothing, sleeps⟩⟩
      | timerCreate => exact ⟨nobody, fun _early => ⟨nothing, sleeps⟩⟩
      | timerSettime => exact ⟨nobody, fun _early => ⟨nothing, sleeps⟩⟩

theorem Alone.serverRun (alone : process.Alone) {call : RunCall}
    (main : process.main = .serverRun call) (unvisited : call = .select → done = false) :
    (process.serverRun build call done).Alone := by
  obtain ⟨nobody, asleep⟩ := alone
  rw [main] at asleep
  obtain ⟨nothing, sleeps⟩ := asleep rfl
  cases done with
  | false => exact ⟨nobody, fun _early => ⟨nothing, sleeps⟩⟩
  | true =>
      cases call with
      | select => cases unvisited rfl
      | accept => exact ⟨nobody, fun _early => ⟨nothing, sleeps⟩⟩
      | openDevice => exact ⟨nobody, fun _early => ⟨nothing, sleeps⟩⟩
      | createClientThread =>
          refine ⟨?_, fun _early => ⟨nothing, sleeps⟩⟩
          change process.threadInfos.modify _ _ = []
          rw [nobody, List.modify_nil]

theorem Alone.serverExit (alone : process.Alone) {call : ExitCall}
    (main : process.main = .serverExit call)
    (made : process.serverExit build call done = .ok after) : after.Alone := by
  obtain ⟨nobody, asleep⟩ := alone
  rw [main] at asleep
  have effect := serverExit_effect made
  cases call with
  | timerDelete =>
      obtain ⟨exitRet, timer, armed, rfl⟩ := effect
      exact ⟨nobody, fun _early => asleep rfl⟩
  | postFinishedSignal =>
      rcases effect with ⟨_initialized, posts, _present, rfl⟩ | ⟨_initialized, rfl⟩ <;>
        exact ⟨nobody, nofun⟩
  | joinCleanupThread =>
      obtain ⟨_returned, rfl⟩ := effect
      exact ⟨nobody, nofun⟩
  | joinClockThread =>
      obtain ⟨_returned, rfl⟩ := effect
      exact ⟨nobody, nofun⟩
  | closeSocket =>
      obtain ⟨exitRet, rfl⟩ := effect
      exact ⟨nobody, nofun⟩
  | closeOutputFile =>
      obtain ⟨exitRet, outputFile, _closed, rfl⟩ := effect
      exact ⟨nobody, nofun⟩
  | destroyMutex =>
      obtain ⟨exitRet, outputFileMutex, _destroyed, rfl⟩ := effect
      exact ⟨nobody, nofun⟩
  | destroyFinishedSignal =>
      obtain ⟨exitRet, threadFinishedSignal, _freed, rfl⟩ := effect
      exact ⟨nobody, nofun⟩
  | destroyClockSem =>
      obtain ⟨exitRet, clockSem, _freed, rfl⟩ := effect
      exact ⟨nobody, nofun⟩
  | freeThreadList =>
      have stays : process.threadList.foldl freeInfo process.threadInfos = [] := by
        have threads := threads_freeInfos process.threadList process.threadInfos
        rw [nobody, List.map_nil, List.map_eq_nil_iff] at threads
        rw [nobody]
        exact threads
      obtain ⟨main, rfl | ⟨ret, rfl⟩, rfl⟩ := effect
      · exact ⟨stays, nofun⟩
      · exact ⟨stays, nofun⟩
  | unlink =>
      obtain ⟨exitRet, ret, rfl⟩ := effect
      exact ⟨nobody, nofun⟩

theorem Alone.cleanupThread (alone : process.Alone)
    (waits : process.cleanup = .waiting → done = true)
    (made : process.cleanupThread done = .ok after) : after.Alone := by
  obtain ⟨nobody, asleep⟩ := alone
  obtain ⟨aside, threads, _clock⟩ := cleanupThread_aside made
  have nobodyAfter : after.threadInfos = [] := by
    rw [Process.threads, Process.threads, nobody, List.map_nil, List.map_eq_nil_iff] at threads
    exact threads
  refine ⟨nobodyAfter, ?_⟩
  rw [aside.main]
  intro early
  obtain ⟨nothing, notStarted | waiting⟩ := asleep early
  · have effect := cleanupThread_cases made
    rw [notStarted] at effect
    exact effect.elim
  · have effect := cleanupThread_cases made
    rw [waiting] at effect
    rcases effect with ⟨failed, _after⟩ | ⟨poster, posts, present, _after⟩
    · rw [waits waiting] at failed
      cases failed
    · rw [mem_posts present] at nothing
      cases nothing

theorem Alone.step {event : Event} {reply : Unit} (alone : process.Alone)
    (unvisited : process.Unvisited event)
    (made : process.step build event = .ok (reply, after)) : after.Alone := by
  have advanced := step_cases made
  obtain ⟨nobody, asleep⟩ := id alone
  cases event with
  | main done =>
      rcases mainThread_cases advanced with
        ⟨call, main, rfl⟩ | ⟨call, main, rfl⟩ | ⟨call, main, exits⟩
      · exact alone.serverInit main
      · refine alone.serverRun main ?_
        intro selects
        exact unvisited (main.trans (congrArg _ selects))
      · exact alone.serverExit main exits
  | interrupted =>
      obtain ⟨main, ⟨_stops, rfl⟩ | rfl⟩ := interrupted_cases advanced
      · exact ⟨nobody, fun _early => asleep (by rw [main]; rfl)⟩
      · exact alone
  | stop =>
      cases advanced
      exact ⟨nobody, asleep⟩
  | stopPost =>
      obtain ⟨_called, value, _present, rfl⟩ := stopPost_cases advanced
      exact ⟨nobody, asleep⟩
  | expire =>
      rw [expire_cases advanced]
      exact ⟨nobody, asleep⟩
  | timerCallback =>
      rcases timerCallback_cases advanced with ⟨value, _present, rfl⟩ | rfl <;>
        exact ⟨nobody, asleep⟩
  | client info more =>
      obtain ⟨thread, found, _effect⟩ := clientThread_cases advanced
      rw [threadOf, nobody] at found
      cases found
  | cleanup done => exact alone.cleanupThread unvisited advanced
  | clock done =>
      obtain ⟨_started, clockSem, mutex, clock, _mutexKept, rfl⟩ := clockThread_frame advanced
      exact ⟨nobody, asleep⟩

theorem Alone.reclaims (alone : process.Alone) : process.Reclaims where
  lasts := by
    intro ret returned
    by_contra early
    obtain ⟨_nothing, notStarted | waiting⟩ := alone.asleep (Bool.eq_false_iff.mpr early)
    · rw [returned] at notStarted
      cases notStarted
    · rw [returned] at waiting
      cases waiting
  each := by
    intro _resting index info found
    rw [alone.nobody] at found
    cases found
  all := by
    intro _ret _main _returned info member
    rw [alone.nobody] at member
    cases member

/-- Without a connection cleanup_thread lasts until server_exit.  With one, the
first post it takes from a client goes unanswered, and whatever server_run has
allocated is still there when server_exit has returned. -/
theorem clients_reclaimed (events : List Event) (replies : List Unit)
    (ran : runCalls (Process.step build) .zeroData events = .ok (replies, process)) :
    (RunMeets (Process.step build) Unvisited .zeroData events → process.Reclaims) ∧
    (∀ index, process.cleanup.Resting → .client index ∈ process.consumed →
      ¬process.Reclaims) ∧
    (∀ ret, process.main = .returned ret → process.ClientsReturned → process.threadInfos ≠ [] →
      ¬process.Reclaims) := by
  have unlisted : process.Unlisted :=
    runCalls_keeps (fun _process _event _reply _after unlisted _any made => unlisted.step made)
      zeroData_unlisted (runMeets_any events _) ran
  refine ⟨?_, ?_, ?_⟩
  · intro unvisited
    have initially : zeroData.Alone := ⟨rfl, fun _early => ⟨rfl, Or.inl rfl⟩⟩
    have alone : process.Alone :=
      runCalls_keeps (fun _process _event _reply _after alone unvisited made =>
        alone.step unvisited made) initially unvisited ran
    exact alone.reclaims
  · intro index resting taken reclaims
    obtain ⟨info, found, flag⟩ := unlisted.posts index (Or.inr taken)
    have once := (reclaims.each resting index info found flag taken).1
    have never := (unlisted.untouched info (List.mem_of_getElem? found)).1
    rw [never] at once
    cases once
  · intro ret main returned allocated reclaims
    obtain ⟨info, member⟩ := List.exists_mem_of_ne_nil _ allocated
    have once := (reclaims.all ret main returned info member).2
    have never := (unlisted.untouched info member).2
    rw [never] at once
    cases once

end Process

/-- A stop before any connection, up to the end of server_exit. -/
theorem clients_reclaimed_none : ∃ replies process,
    runCalls (Process.step .regularFile) .zeroData
        (startup ++ stopSignal ++ joins ++ List.replicate 7 (.main true)) =
      .ok (replies, process) ∧
    process.main = .returned .ok ∧ process.Reclaims := by
  have computed : (runCalls (Process.step .regularFile) .zeroData
      (startup ++ stopSignal ++ joins ++ List.replicate 7 (.main true))).map
        (fun result => result.2.main) = .ok (.returned .ok) := by decide +kernel
  obtain ⟨⟨replies, process⟩, ran, main⟩ := ok_of_map computed
  refine ⟨replies, process, ran, main, ?_⟩
  exact (Process.clients_reclaimed _ replies ran).1 (by decide +kernel)

/-- One client that finishes: cleanup_thread returns although server_exit has not
posted, and the thread_info is neither joined nor freed, also behind server_exit. -/
theorem client_not_reclaimed :
    (runCalls (Process.step .regularFile) .zeroData
        (startup ++ connection ++ session 0 ++ [.cleanup true, .cleanup true])).map (fun result =>
          (result.2.cleanup, result.2.main.posted, result.2.threadInfos)) =
      .ok (.returned .ok, false, [⟨some .returned, true, 0, 0⟩]) ∧
    (runCalls (Process.step .regularFile) .zeroData
        (startup ++ connection ++ session 0 ++ stopSignal ++ joins ++
          List.replicate 7 (.main true))).map (fun result =>
          (result.2.main, decide result.2.ClientsReturned, result.2.threadInfos)) =
      .ok (.returned .ok, true, [⟨some .returned, true, 0, 0⟩]) := by
  constructor <;> decide +kernel

end Aesd.Lifecycle
