/-
The threads of examples/threading come to their ends.

A thread inside a mutex can always go on, so it lets in whoever waits.  Only a
thread that returns without unlocking stops others, and it stops for good all
those that still wait for its mutex.
-/

import Aesd.Threading.ObtainingMutex

set_option autoImplicit false

namespace Aesd.Threading

open BoundedLoop CallRun

namespace Program

variable {program after : Program} {id : Nat} {thread next : ThreadData}

/-! ### Coming to an end -/

/-- Calls that succeed, of this thread and others, bring the thread to its end. -/
def CanReturn (program : Program) (id : Nat) : Prop :=
  ∃ later replies after, runCalls Program.step program later = .ok (replies, after) ∧
    (∀ event ∈ later, ∃ other, event = .thread other true) ∧
    ∃ thread, after.threads[id]? = some thread ∧ thread.place = .returned

theorem CanReturn.of_step {other : Nat} {reply : Reply}
    (made : program.step (.thread other true) = .ok (reply, after)) (rest : after.CanReturn id) :
    program.CanReturn id := by
  obtain ⟨later, replies, last, ran, calls, ended⟩ := rest
  refine ⟨.thread other true :: later, reply :: replies, last, runCalls_cons made ran, ?_, ended⟩
  intro event member
  rcases List.mem_cons.mp member with rfl | behind
  · exact ⟨other, rfl⟩
  · exact calls event behind

theorem canReturn_returned (found : program.threads[id]? = some thread)
    (place : thread.place = .returned) : program.CanReturn id := by
  refine ⟨[], [], program, rfl, ?_, thread, found, place⟩
  intro event impossible
  cases impossible

theorem step_obtaining (found : program.threads[id]? = some thread)
    (place : thread.place = .obtaining) :
    program.step (.thread id true) = .ok (.made (.usleep (microseconds thread.waitToObtainMs)),
      program.setThread id { thread with
      threadCompleteSuccess := some true
      place := .locking }) := by
  simp only [step, found, Program.threadfunc, place]
  rfl

theorem step_locking (found : program.threads[id]? = some thread)
    (place : thread.place = .locking) (free : program.holder thread.mutex = none) :
    program.step (.thread id true) = .ok (.made (.pthreadMutexLock thread.mutex),
      (program.setHolder thread.mutex (some id)).setThread id { thread with
        place := .releasing }) := by
  simp only [step, found, Program.threadfunc, place, free]
  rfl

theorem step_releasing (found : program.threads[id]? = some thread)
    (place : thread.place = .releasing) :
    program.step (.thread id true) = .ok (.made (.usleep (microseconds thread.waitToReleaseMs)),
      program.setThread id { thread with place := .unlocking }) := by
  simp only [step, found, Program.threadfunc, place]
  rfl

theorem step_unlocking (found : program.threads[id]? = some thread)
    (place : thread.place = .unlocking) :
    program.step (.thread id true) = .ok (.made (.pthreadMutexUnlock thread.mutex),
      (program.setHolder thread.mutex none).setThread id { thread with place := .returned }) := by
  simp only [step, found, Program.threadfunc, place]
  rfl

theorem canReturn_unlocking (found : program.threads[id]? = some thread)
    (place : thread.place = .unlocking) : program.CanReturn id :=
  .of_step (step_unlocking found place) (canReturn_returned (setThread_self found _) rfl)

theorem canReturn_releasing (found : program.threads[id]? = some thread)
    (place : thread.place = .releasing) : program.CanReturn id :=
  .of_step (step_releasing found place) (canReturn_unlocking (setThread_self found _) rfl)

theorem canReturn_free (found : program.threads[id]? = some thread)
    (place : thread.place = .locking) (free : program.holder thread.mutex = none) :
    program.CanReturn id :=
  .of_step (step_locking found place free) (canReturn_releasing (setThread_self found _) rfl)

/-- The thread that has the mutex gives it back first. -/
theorem canReturn_behind_unlocking {other : Nat} {second : ThreadData}
    (found : program.threads[id]? = some thread) (place : thread.place = .locking)
    (different : other ≠ id) (foundOther : program.threads[other]? = some second)
    (unlocking : second.place = .unlocking) (same : second.mutex = thread.mutex) :
    program.CanReturn id := by
  refine .of_step (step_unlocking foundOther unlocking) (canReturn_free ?_ place ?_)
  · exact (setThread_other different.symm _).trans found
  · rw [same]
    exact Function.update_self ..

theorem canReturn_behind {other : Nat} {second : ThreadData}
    (found : program.threads[id]? = some thread) (place : thread.place = .locking)
    (different : other ≠ id) (foundOther : program.threads[other]? = some second)
    (inside : second.Inside) (same : second.mutex = thread.mutex) : program.CanReturn id := by
  rcases inside with releasing | unlocking
  · refine .of_step (step_releasing foundOther releasing)
      (canReturn_behind_unlocking ?_ place different (setThread_self foundOther _) rfl same)
    exact (setThread_other different.symm _).trans found
  · exact canReturn_behind_unlocking found place different foundOther unlocking same

/-- A thread that returned has not given its mutex back. -/
def Kept (program : Program) (mutex : Nat) : Prop :=
  ∃ other second, program.holder mutex = some other ∧ program.threads[other]? = some second ∧
    second.place = .returned

theorem Locked.canReturn_locking (locked : program.Locked)
    (found : program.threads[id]? = some thread) (place : thread.place = .locking)
    (given : ¬program.Kept thread.mutex) : program.CanReturn id := by
  cases held : program.holder thread.mutex with
  | none => exact canReturn_free found place held
  | some other =>
      obtain ⟨second, foundOther, same, inside | ⟨returned, _failed⟩⟩ := locked.owner _ other held
      · refine canReturn_behind found place ?_ foundOther inside same
        rintro rfl
        rw [found] at foundOther
        cases foundOther
        rcases inside with there | there <;>
          · rw [place] at there
            cases there
      · exact absurd ⟨other, second, held, foundOther, returned⟩ given

theorem Locked.canReturn (locked : program.Locked) (found : program.threads[id]? = some thread)
    (created : thread.place ≠ .notCreated) (given : ¬program.Kept thread.mutex) :
    program.CanReturn id := by
  cases place : thread.place with
  | notCreated => exact absurd place created
  | obtaining =>
      have made := step_obtaining found place
      refine .of_step made
        ((locked.step made).canReturn_locking (setThread_self found _) rfl ?_)
      rintro ⟨other, second, held, foundOther, returned⟩
      by_cases same : other = id
      · subst same
        rw [setThread_self found] at foundOther
        cases foundOther
        cases returned
      · rw [setThread_other same] at foundOther
        exact given ⟨other, second, held, foundOther, returned⟩
  | locking => exact locked.canReturn_locking found place given
  | releasing => exact canReturn_releasing found place
  | unlocking => exact canReturn_unlocking found place
  | returned => exact canReturn_returned found place

/-! ### A mutex that is not given back -/

theorem Kept.moves {mutex other : Nat} (kept : program.Kept mutex)
    (found : program.threads[other]? = some thread) (runs : thread.place ≠ .returned)
    (threads : after.threads = program.threads.set other next)
    (holder : after.holder mutex = program.holder mutex) : after.Kept mutex := by
  obtain ⟨keeper, second, held, foundKeeper, returned⟩ := kept
  have different : keeper ≠ other := by
    rintro rfl
    rw [found] at foundKeeper
    cases foundKeeper
    exact runs returned
  refine ⟨keeper, second, holder.trans held, ?_, returned⟩
  rw [threads]
  exact (setThread_other different next).trans foundKeeper

/-- The thread waits for a mutex that a returned thread has kept. -/
structure Blocked (program : Program) (id : Nat) : Prop where
  locked : program.Locked
  waits : ∃ thread, program.threads[id]? = some thread ∧
    (thread.place = .obtaining ∨ thread.place = .locking) ∧ program.Kept thread.mutex

/-- A step of another thread, or from the first usleep to the lock. -/
theorem Blocked.moves {other : Nat} (blocked : program.Blocked id) (locked : after.Locked)
    (found : program.threads[other]? = some thread) (runs : thread.place ≠ .returned)
    (threads : after.threads = program.threads.set other next)
    (mine : other = id → next.place = .locking ∧ next.mutex = thread.mutex)
    (holder : ∀ mutex, program.Kept mutex → after.holder mutex = program.holder mutex) :
    after.Blocked id := by
  obtain ⟨_locked, waiting, foundWaiting, place, kept⟩ := blocked
  have keptAfter := kept.moves found runs threads (holder _ kept)
  refine ⟨locked, ?_⟩
  by_cases same : other = id
  · subst same
    rw [found] at foundWaiting
    cases foundWaiting
    obtain ⟨locking, mutex⟩ := mine rfl
    refine ⟨next, ?_, Or.inr locking, mutex ▸ keptAfter⟩
    rw [threads]
    exact setThread_self found next
  · refine ⟨waiting, ?_, place, keptAfter⟩
    rw [threads]
    exact (setThread_other (Ne.symm same) next).trans foundWaiting

theorem Blocked.step {other : Nat} {reply : Reply} (blocked : program.Blocked id)
    (made : program.step (.thread other true) = .ok (reply, after)) : after.Blocked id := by
  have locked := blocked.locked.step made
  obtain ⟨thread, call, found, rfl, advanced⟩ := step_thread_cases made
  have effect := threadfunc_cases advanced
  have elsewhere {place : Place} (there : thread.place = place) (waited : place ≠ .obtaining)
      (through : place ≠ .locking) : other ≠ id := by
    rintro rfl
    obtain ⟨_locked, waiting, foundWaiting, waits, _kept⟩ := blocked
    rw [found] at foundWaiting
    cases foundWaiting
    rcases waits with here | here
    · exact waited (there.symm.trans here)
    · exact through (there.symm.trans here)
  cases place : thread.place with
  | notCreated =>
      rw [place] at effect
      exact effect.elim
  | obtaining =>
      rw [place] at effect
      subst effect
      exact blocked.moves locked found (by rw [place]; decide) rfl (fun _same => ⟨rfl, rfl⟩)
        (fun _mutex _kept => rfl)
  | locking =>
      rw [place] at effect
      rcases effect with ⟨impossible, _same⟩ | ⟨_locked, free, rfl⟩
      · cases impossible
      · -- Nobody has the mutex that is locked now.
        have unkept : ∀ mutex, program.Kept mutex → mutex ≠ thread.mutex := by
          rintro mutex ⟨keeper, _second, held, _rest⟩ rfl
          rw [free] at held
          cases held
        refine blocked.moves locked found (by rw [place]; decide) rfl ?_
          (fun mutex kept => Function.update_of_ne (unkept mutex kept) ..)
        rintro rfl
        obtain ⟨_locked, waiting, foundWaiting, _waits, kept⟩ := blocked
        rw [found] at foundWaiting
        cases foundWaiting
        exact absurd rfl (unkept _ kept)
  | releasing =>
      rw [place] at effect
      subst effect
      exact blocked.moves locked found (by rw [place]; decide) rfl
        (fun same => absurd same (elsewhere place (by decide) (by decide)))
        (fun _mutex _kept => rfl)
  | unlocking =>
      have held := blocked.locked.inside other thread found (Or.inr place)
      rw [place] at effect
      rcases effect with ⟨impossible, _same⟩ | ⟨_unlocked, rfl⟩
      · cases impossible
      · have unkept : ∀ mutex, program.Kept mutex → mutex ≠ thread.mutex := by
          rintro mutex ⟨keeper, second, heldBy, foundKeeper, returned⟩ rfl
          rw [held] at heldBy
          cases heldBy
          rw [found] at foundKeeper
          cases foundKeeper
          rw [place] at returned
          cases returned
        exact blocked.moves locked found (by rw [place]; decide) rfl
          (fun same => absurd same (elsewhere place (by decide) (by decide)))
          (fun mutex kept => Function.update_of_ne (unkept mutex kept) ..)
  | returned =>
      rw [place] at effect
      exact effect.elim

theorem Blocked.not_canReturn (blocked : program.Blocked id) : ¬program.CanReturn id := by
  rintro ⟨later, replies, after, ran, calls, thread, found, returned⟩
  let Succeeds (_program : Program) (event : Event) : Prop := ∃ other, event = .thread other true
  have one : ∀ program event reply after, Blocked program id → Succeeds program event →
      program.step event = .ok (reply, after) → after.Blocked id := by
    rintro program event reply after blocked ⟨other, rfl⟩ made
    exact blocked.step made
  have meets : RunMeets Program.step Succeeds program later :=
    runMeets_of_forall (fun _program event member => calls event member) program
  obtain ⟨_locked, waiting, foundWaiting, place, _kept⟩ := runCalls_keeps one blocked meets ran
  rw [found] at foundWaiting
  cases foundWaiting
  rcases place with here | here <;>
    · rw [returned] at here
      cases here

/-- In every run a thread that was created can be brought to its end, unless it
still waits for a mutex that a thread has kept which could not unlock it. -/
theorem threads_can_return (events : List Event) (replies : List Reply)
    (ran : runCalls Program.step .empty events = .ok (replies, program)) (id : Nat)
    (thread : ThreadData) (found : program.threads[id]? = some thread)
    (created : thread.place ≠ .notCreated) :
    program.CanReturn id ↔
      ¬((thread.place = .obtaining ∨ thread.place = .locking) ∧ program.Kept thread.mutex) := by
  have locked := (sound_run ran).locked
  constructor
  · rintro ends ⟨waits, kept⟩
    exact Blocked.not_canReturn ⟨locked, thread, found, waits, kept⟩ ends
  · intro free
    by_cases kept : program.Kept thread.mutex
    · cases place : thread.place with
      | notCreated => exact absurd place created
      | obtaining => exact absurd ⟨Or.inl place, kept⟩ free
      | locking => exact absurd ⟨Or.inr place, kept⟩ free
      | releasing => exact canReturn_releasing found place
      | unlocking => exact canReturn_unlocking found place
      | returned => exact canReturn_returned found place
    · exact locked.canReturn found created kept

end Program

/-- The second thread comes to the mutex while the first one has it. -/
def twoThreads : List Event :=
  [.start 0 10 20 true true, .start 0 10 20 true true, .thread 0 true, .thread 1 true,
    .thread 0 true]

theorem threads_can_return_second : ∃ replies program,
    runCalls Program.step .empty twoThreads = .ok (replies, program) ∧
      program.holder 0 = some 0 ∧ program.CanReturn 1 := by
  have computed : (runCalls Program.step .empty twoThreads).map
      (fun result => (result.2.threads.map ThreadData.place, result.2.threads[1]?,
        result.2.holder 0)) =
    .ok ([.releasing, .locking], some ⟨0, 10, 20, some true, .locking, false⟩, some 0) := by
    decide +kernel
  obtain ⟨⟨replies, program⟩, ran, shown⟩ := ok_of_map computed
  obtain ⟨places, rest⟩ := Prod.mk.inj shown
  obtain ⟨found, held⟩ := Prod.mk.inj rest
  refine ⟨replies, program, ran, held, ?_⟩
  refine (Program.threads_can_return twoThreads replies ran 1 _ found (by decide)).mpr ?_
  rintro ⟨_waits, keeper, second, heldBy, foundKeeper, returned⟩
  change program.holder 0 = some keeper at heldBy
  rw [held] at heldBy
  cases heldBy
  have place : (program.threads.map ThreadData.place)[0]? = some .releasing := by
    rw [places]
    rfl
  rw [List.getElem?_map, foundKeeper, Option.map_some, returned] at place
  cases place

end Aesd.Threading
