/-
How a client thread ends.

Whoever has output_file_mutex gives it back by steps of its own.  So as long
as server_exit has closed nothing, every client thread can come to its end,
wherever the clock and the other clients are.
-/

import Aesd.Lifecycle.Faults

set_option autoImplicit false

namespace Aesd.Lifecycle

open BoundedLoop CallRun Server

/-- A step of a client thread or of clock_thread. -/
def Event.ofSession : Event → Prop
  | .client _info _more => True
  | .clock _done => True
  | _ => False

namespace Process

/-- Steps of the client threads and of clock_thread bring this one to its end. -/
def CanFinish (build : Build) (info : Nat) (process : Process) : Prop :=
  ∃ events replies after, (∀ event, event ∈ events → event.ofSession) ∧
    runCalls (Process.step build) process events = .ok (replies, after) ∧
    after.threadOf info = some .returned

variable {build : Build} {process after : Process} {info : Nat}

theorem CanFinish.of_run {events : List Event} {replies : List Unit}
    (session : ∀ event, event ∈ events → event.ofSession)
    (ran : runCalls (Process.step build) process events = .ok (replies, after))
    (rest : after.CanFinish build info) : process.CanFinish build info := by
  obtain ⟨later, others, last, alike, behind, returned⟩ := rest
  refine ⟨events ++ later, replies ++ others, last, ?_, runCalls_append ran behind, returned⟩
  intro event member
  exact (List.mem_append.mp member).elim (session event) (alike event)

theorem CanFinish.of_step {more : Bool} (made : process.clientThread info more = .ok after)
    (rest : after.CanFinish build info) : process.CanFinish build info := by
  have stepped : runCalls (Process.step build) process [.client info more] = .ok ([()], after) :=
    runCalls_cons (step_of_advance made) rfl
  refine .of_run ?_ stepped rest
  intro event member
  cases List.mem_singleton.mp member
  exact True.intro

/-! ### Behind the mutex -/

theorem canFinish_returned (found : process.threadOf info = some .returned) :
    process.CanFinish build info :=
  ⟨[], [], process, nofun, rfl, found⟩

theorem canFinish_posting (found : process.threadOf info = some .posting) {posts : List Poster}
    (signal : process.threadFinishedSignal = .present posts) : process.CanFinish build info := by
  have made : process.clientThread info false = .ok ({ process with
      threadFinishedSignal := .present (posts ++ [Poster.client info]) }.setThread info .returned) := by
    simp only [Process.clientThread, found, signal]
  exact .of_step made (canFinish_returned (threadOf_modify_self found rfl fun _record => rfl))

theorem canFinish_finishing (found : process.threadOf info = some .finishing) {posts : List Poster}
    (signal : process.threadFinishedSignal = .present posts) : process.CanFinish build info := by
  have made : process.clientThread info false = .ok { process with
      threadInfos := process.threadInfos.modify info ThreadInfo.finish } := by
    simp only [Process.clientThread, found]
  exact .of_step made
    (canFinish_posting (threadOf_modify_self found rfl fun _record => rfl) signal)

theorem canFinish_closing (found : process.threadOf info = some .closing) {posts : List Poster}
    (signal : process.threadFinishedSignal = .present posts) : process.CanFinish build info := by
  have made : process.clientThread info false = .ok (process.setThread info .finishing) := by
    simp only [Process.clientThread, found]
  exact .of_step made
    (canFinish_finishing (threadOf_modify_self found rfl fun _record => rfl) signal)

/-! ### The mutex comes free -/

theorem unlocks (found : process.threadOf info = some .unlocking) {holder : Option Holder}
    (mutex : process.outputFileMutex = .present holder) :
    process.clientThread info false =
      .ok ({ process with outputFileMutex := .present none }.setThread info .closing) := by
  simp only [Process.clientThread, found, unlockMutex, mutex]
  rfl

/-- A session ends after this round. -/
theorem talks (found : process.threadOf info = some .talking)
    (file : process.outputFile = .present ()) :
    process.clientThread info false = .ok (process.setThread info .unlocking) := by
  simp only [Process.clientThread, found, file]
  rfl

/-- The client that has the mutex unlocks it. -/
theorem Sound.client_releases (sound : process.Sound build) (unclosed : ¬process.Closed)
    (inside : process.ClientInside info) : ∃ count replies threadInfos,
      runCalls (Process.step build) process (List.replicate count (.client info false)) =
        .ok (replies, { process with outputFileMutex := .present none, threadInfos }) ∧
      ({ process with threadInfos } : Process).threadOf info = some .closing ∧
      ∀ other, other ≠ info →
        ({ process with threadInfos } : Process).threadOf other = process.threadOf other := by
  obtain ⟨holder, mutex⟩ := sound.mutex_present unclosed
  obtain ⟨thread, found, stays⟩ := inside
  have uses : process.UsesFile build := Or.inl ⟨thread, mem_threads found⟩
  cases thread with
  | talking =>
      have first := talks found (sound.file_present unclosed uses)
      have unlocking : (process.setThread info .unlocking).threadOf info = some .unlocking :=
        threadOf_modify_self found rfl fun _record => rfl
      have second := unlocks unlocking mutex
      refine ⟨2, _, _, runCalls_cons (step_of_advance first)
        (runCalls_cons (step_of_advance second) rfl),
        threadOf_modify_self unlocking rfl fun _record => rfl, ?_⟩
      intro other different
      exact (threadOf_modify_other different rfl).trans (threadOf_modify_other different rfl)
  | unlocking =>
      exact ⟨1, _, _, runCalls_cons (step_of_advance (unlocks found mutex)) rfl,
        threadOf_modify_self found rfl fun _record => rfl,
        fun other different => threadOf_modify_other different rfl⟩
  | locking => exact stays.elim
  | closing => exact stays.elim
  | finishing => exact stays.elim
  | posting => exact stays.elim
  | returned => exact stays.elim

theorem clock_unlocks {written : Bool} (place : process.clock = .unlocking written)
    {holder : Option Holder} (mutex : process.outputFileMutex = .present holder) :
    process.clockThread build true = .ok { process with
      outputFileMutex := .present none
      clock := if written then .waiting else .returned .err } := by
  simp only [Process.clockThread, place, unlockMutex, mutex]
  rfl

/-- clock_thread unlocks the mutex, whether its write has succeeded or not. -/
theorem Sound.clock_releases (sound : process.Sound build) (inside : process.clock.Inside) :
    ∃ count replies clock,
      runCalls (Process.step build) process (List.replicate count (.clock true)) =
        .ok (replies, { process with outputFileMutex := .present none, clock }) := by
  have mutex := sound.exclusive.clock.mpr inside
  cases place : process.clock with
  | writing =>
      have running : ¬process.ClockOver := by simp [ClockOver, place]
      have started : process.clock ≠ .notStarted := fun not => running (Or.inl not)
      have regular : build = .regularFile := sound.order.regular (place ▸ True.intro)
      have file := sound.file_present (sound.unclosed (Or.inl running))
        (Or.inr ⟨regular, started⟩)
      have first : process.clockThread build true =
          .ok { process with clock := .unlocking true } := by
        simp only [Process.clockThread, place, file]
      have second : ({ process with clock := .unlocking true } : Process).clockThread build true =
          .ok _ := clock_unlocks rfl mutex
      exact ⟨2, _, _, runCalls_cons (step_of_advance first)
        (runCalls_cons (step_of_advance second) rfl)⟩
  | unlocking written =>
      exact ⟨1, _, _, runCalls_cons (step_of_advance (clock_unlocks place mutex)) rfl⟩
  | notStarted =>
      rw [place] at inside
      exact inside.elim
  | waiting =>
      rw [place] at inside
      exact inside.elim
  | checking =>
      rw [place] at inside
      exact inside.elim
  | locking =>
      rw [place] at inside
      exact inside.elim
  | returned ret =>
      rw [place] at inside
      exact inside.elim

/-! ### Any client -/

theorem Sound.step {event : Event} {reply : Unit} (sound : process.Sound build)
    (made : process.step build event = .ok (reply, after)) : after.Sound build :=
  ⟨sound.order.step made, sound.available.step made, sound.exclusive.step sound.order made,
    sound.ordered.step made⟩

theorem Sound.run {events : List Event} {replies : List Unit} (sound : process.Sound build)
    (ran : runCalls (Process.step build) process events = .ok (replies, after)) :
    after.Sound build :=
  runCalls_keeps (fun _process _event _reply _after sound _any made => sound.step made) sound
    (runMeets_any events _) ran

theorem some_infos {thread : ClientThread} (found : process.threadOf info = some thread) :
    process.threadInfos ≠ [] :=
  List.ne_nil_of_length_pos (Nat.zero_lt_of_lt (inside_of_threadOf found))

theorem Sound.canFinish_inside (sound : process.Sound build) (unclosed : ¬process.Closed)
    (inside : process.ClientInside info) : process.CanFinish build info := by
  obtain ⟨thread, found, _inside⟩ := id inside
  obtain ⟨posts, signal⟩ := sound.signal_present unclosed (Or.inr (Or.inr (some_infos found)))
  obtain ⟨count, replies, threadInfos, ran, closing, _others⟩ :=
    sound.client_releases unclosed inside
  refine .of_run ?_ ran (canFinish_closing closing signal)
  intro event member
  rw [List.eq_of_mem_replicate member]
  exact True.intro

theorem Sound.canFinish_free (sound : process.Sound build) (unclosed : ¬process.Closed)
    (found : process.threadOf info = some .locking)
    (free : process.outputFileMutex = .present none) : process.CanFinish build info := by
  have made : process.clientThread info false = .ok ({ process with
      outputFileMutex := .present (some (.client info)) }.setThread info .talking) := by
    simp only [Process.clientThread, found, lockMutex, free]
    rfl
  have still : ¬({ process with
      outputFileMutex := .present (some (.client info)) }.setThread info .talking).Closed :=
    not_closed_of unclosed (.same _) (.there _ _) (.same _)
  have stepped : process.step build (.client info false) = .ok ((), _) := step_of_advance made
  exact .of_step made ((sound.step stepped).canFinish_inside still
    ⟨.talking, threadOf_modify_self found rfl fun _record => rfl, True.intro⟩)

/-- Whoever has the mutex unlocks it first. -/
theorem Sound.canFinish_locking (sound : process.Sound build) (unclosed : ¬process.Closed)
    (found : process.threadOf info = some .locking) : process.CanFinish build info := by
  obtain ⟨holder, mutex⟩ := sound.mutex_present unclosed
  have session : ∀ (event : Event) {count : Nat}, event.ofSession →
      ∀ other, other ∈ List.replicate count event → other.ofSession := by
    intro event count alike other member
    rw [List.eq_of_mem_replicate member]
    exact alike
  cases holder with
  | none => exact sound.canFinish_free unclosed found mutex
  | some holder =>
      cases holder with
      | client other =>
          have inside := (sound.exclusive.client other).mp mutex
          have different : info ≠ other := by
            intro same
            subst same
            exact (clientInside_iff found).mp inside
          obtain ⟨count, replies, threadInfos, ran, _closing, others⟩ :=
            sound.client_releases unclosed inside
          have still : ¬({ process with
              outputFileMutex := .present none, threadInfos } : Process).Closed :=
            not_closed_of unclosed (.same _) (.there _ _) (.same _)
          exact .of_run (session (.client other false) True.intro) ran
            ((sound.run ran).canFinish_free still ((others info different).trans found) rfl)
      | clock =>
          obtain ⟨count, replies, clock, ran⟩ :=
            sound.clock_releases (sound.exclusive.clock.mp mutex)
          have still : ¬({ process with
              outputFileMutex := .present none, clock } : Process).Closed :=
            not_closed_of unclosed (.same _) (.there _ _) (.same _)
          exact .of_run (session (.clock true) True.intro) ran
            ((sound.run ran).canFinish_free still found rfl)

/-- In every run, until server_exit closes the output file, each client thread
can be brought to its end by steps of the clients and the clock alone. -/
theorem clients_can_finish (events : List Event) (replies : List Unit)
    (ran : runCalls (Process.step build) .zeroData events = .ok (replies, process))
    (early : process.main.pastOutputFile = false) (info : Nat) (thread : ClientThread)
    (found : process.threadOf info = some thread) : process.CanFinish build info := by
  have sound : process.Sound build := sound_run ran
  have unclosed := sound.available.shared early
  obtain ⟨posts, signal⟩ := sound.signal_present unclosed (Or.inr (Or.inr (some_infos found)))
  cases thread with
  | locking => exact sound.canFinish_locking unclosed found
  | talking => exact sound.canFinish_inside unclosed ⟨_, found, True.intro⟩
  | unlocking => exact sound.canFinish_inside unclosed ⟨_, found, True.intro⟩
  | closing => exact canFinish_closing found signal
  | finishing => exact canFinish_finishing found signal
  | posting => exact canFinish_posting found signal
  | returned => exact canFinish_returned found

end Process

/-- The first of two clients talks when the second one comes to the mutex. -/
def clientWaits : List Event := startup ++ connection ++ connection ++ [.client 0 true]

theorem clients_can_finish_second : ∃ replies process,
    runCalls (Process.step .regularFile) .zeroData clientWaits = .ok (replies, process) ∧
      process.threadOf 1 = some .locking ∧
      process.outputFileMutex = .present (some (.client 0)) ∧
      process.CanFinish .regularFile 1 := by
  have computed : (runCalls (Process.step .regularFile) .zeroData clientWaits).map
      (fun result => (result.2.main, result.2.threadOf 1, result.2.outputFileMutex)) =
    .ok (.serverRun .select, some .locking, .present (some (.client 0))) := by decide +kernel
  obtain ⟨⟨replies, process⟩, ran, shown⟩ := ok_of_map computed
  obtain ⟨main, rest⟩ := Prod.mk.inj shown
  obtain ⟨found, mutex⟩ := Prod.mk.inj rest
  have early : process.main.pastOutputFile = false := congrArg MainThread.pastOutputFile main
  exact ⟨replies, process, ran, found, mutex,
    Process.clients_can_finish _ replies ran early 1 .locking found⟩

end Aesd.Lifecycle
