/-
Threads that obtain their mutexes.

In every interleaving a mutex lets in one thread at a time, and a thread that
reports success has slept, locked, slept and unlocked, in that order.
-/

import Aesd.Threading.Program

set_option autoImplicit false

namespace Aesd.Threading

open BoundedLoop CallRun

namespace Program

/-! ### Who has a mutex -/

/-- A mutex is held by the thread inside, or by one that could not unlock it. -/
structure Locked (program : Program) : Prop where
  owner : ∀ mutex id, program.holder mutex = some id → ∃ thread,
    program.threads[id]? = some thread ∧ thread.mutex = mutex ∧
      (thread.Inside ∨ (thread.place = .returned ∧ thread.threadCompleteSuccess = some false))
  inside : ∀ id thread, program.threads[id]? = some thread → thread.Inside →
    program.holder thread.mutex = some id

variable {program after : Program} {id : Nat} {thread next : ThreadData} {done : Bool}
  {call : LibraryCall} {reply : Reply} {replies : List Reply}

/-- A thread moves on, and what it does to its mutex fits where it is then. -/
theorem Locked.moves (locked : program.Locked) (found : program.threads[id]? = some thread)
    (same : next.mutex = thread.mutex) {holder : Option Nat}
    (kept : holder = program.holder thread.mutex ∨
      (program.holder thread.mutex = none ∧ holder = some id) ∨
      (program.holder thread.mutex = some id ∧ holder = none))
    (owner : holder = some id → next.Inside ∨
      (next.place = .returned ∧ next.threadCompleteSuccess = some false))
    (inside : next.Inside → holder = some id) :
    ((program.setHolder thread.mutex holder).setThread id next).Locked := by
  constructor
  · intro mutex other held
    change Function.update program.holder thread.mutex holder mutex = some other at held
    by_cases mine : other = id
    · subst mine
      by_cases here : mutex = thread.mutex
      · subst here
        rw [Function.update_self] at held
        exact ⟨next, setThread_self found next, same, owner held⟩
      · rw [Function.update_of_ne here] at held
        obtain ⟨known, same, mutexOf, _place⟩ := locked.owner mutex other held
        rw [found] at same
        cases same
        exact absurd mutexOf.symm here
    · have before : program.holder mutex = some other := by
        by_cases here : mutex = thread.mutex
        · subst here
          rw [Function.update_self] at held
          rcases kept with unchanged | ⟨_free, taken⟩ | ⟨_held, released⟩
          · rw [← unchanged]
            exact held
          · rw [taken] at held
            exact absurd (Option.some.inj held).symm mine
          · rw [released] at held
            cases held
        · rw [Function.update_of_ne here] at held
          exact held
      obtain ⟨known, foundOther, rest⟩ := locked.owner mutex other before
      exact ⟨known, (setThread_other mine next).trans foundOther, rest⟩
  · intro other known foundOther isInside
    change (program.setThread id next).threads[other]? = some known at foundOther
    change Function.update program.holder thread.mutex holder known.mutex = some other
    by_cases mine : other = id
    · subst mine
      rw [setThread_self found] at foundOther
      cases foundOther
      rw [same, Function.update_self]
      exact inside isInside
    · rw [setThread_other mine] at foundOther
      have held := locked.inside other known foundOther isInside
      by_cases here : known.mutex = thread.mutex
      · rw [here] at held ⊢
        rw [Function.update_self]
        rcases kept with unchanged | ⟨free, _taken⟩ | ⟨others, _released⟩
        · rw [unchanged]
          exact held
        · rw [free] at held
          cases held
        · rw [others] at held
          exact absurd (Option.some.inj held).symm mine
      · rw [Function.update_of_ne here]
        exact held

/-- The thread leaves its mutex as it is. -/
theorem Locked.aside (locked : program.Locked) (found : program.threads[id]? = some thread)
    (same : next.mutex = thread.mutex)
    (owner : program.holder thread.mutex = some id → next.Inside ∨
      (next.place = .returned ∧ next.threadCompleteSuccess = some false))
    (inside : next.Inside → program.holder thread.mutex = some id) :
    (program.setThread id next).Locked := by
  have moved := locked.moves found same (Or.inl rfl) owner inside
  rw [setHolder, Function.update_eq_self] at moved
  exact moved

/-- Outside its mutex a thread that has not returned does not have it. -/
theorem Locked.outside (locked : program.Locked) (found : program.threads[id]? = some thread)
    (outside : ¬thread.Inside) (runs : thread.place ≠ .returned) :
    program.holder thread.mutex ≠ some id := by
  intro held
  obtain ⟨known, same, _mutex, inside | ⟨returned, _failed⟩⟩ := locked.owner _ id held
  · rw [found] at same
    cases same
    exact outside inside
  · rw [found] at same
    cases same
    exact runs returned

theorem Locked.threadfunc (locked : program.Locked)
    (found : program.threads[id]? = some thread)
    (made : program.threadfunc id thread done = .ok (call, after)) : after.Locked := by
  have effect := threadfunc_cases made
  have absent {place : Place} (there : thread.place = place) (outside : place ≠ .releasing)
      (other : place ≠ .unlocking) (runs : place ≠ .returned) :
      program.holder thread.mutex ≠ some id := by
    refine locked.outside found ?_ (there ▸ runs)
    rintro (inside | inside)
    · exact outside (there.symm.trans inside)
    · exact other (there.symm.trans inside)
  cases place : thread.place with
  | notCreated =>
      rw [place] at effect
      exact effect.elim
  | obtaining =>
      have without := absent place (by decide) (by decide) (by decide)
      rw [place] at effect
      subst effect
      refine locked.aside found rfl (fun held => absurd held without) ?_
      cases done <;> rintro (inside | inside) <;> cases inside
  | locking =>
      have without := absent place (by decide) (by decide) (by decide)
      rw [place] at effect
      rcases effect with ⟨_failed, rfl⟩ | ⟨_locked, free, rfl⟩
      · refine locked.aside found rfl (fun held => absurd held without) ?_
        rintro (inside | inside) <;> cases inside
      · let next := { thread with place := .releasing }
        have same : next.mutex = thread.mutex := rfl
        exact locked.moves found same (Or.inr (Or.inl ⟨free, rfl⟩))
          (fun _held => Or.inl (Or.inl rfl)) (fun _inside => rfl)
  | releasing =>
      have held := locked.inside id thread found (Or.inl place)
      rw [place] at effect
      subst effect
      exact locked.aside found rfl (fun _held => Or.inl (Or.inr rfl)) (fun _inside => held)
  | unlocking =>
      have held := locked.inside id thread found (Or.inr place)
      rw [place] at effect
      rcases effect with ⟨_failed, rfl⟩ | ⟨_unlocked, rfl⟩
      · refine locked.aside found rfl (fun _held => Or.inr ⟨rfl, rfl⟩) (fun _inside => held)
      · let next := { thread with place := .returned }
        have same : next.mutex = thread.mutex := rfl
        refine locked.moves found same (Or.inr (Or.inr ⟨held, rfl⟩)) ?_ ?_
        · intro impossible
          cases impossible
        · rintro (inside | inside) <;> cases inside
  | returned =>
      rw [place] at effect
      exact effect.elim

theorem Locked.started (locked : program.Locked) (mutex : Nat)
    (waitToObtainMs waitToReleaseMs : Int32) (allocated created : Bool) :
    (program.startThreadObtainingMutex mutex waitToObtainMs waitToReleaseMs allocated
      created).2.Locked := by
  unfold startThreadObtainingMutex
  cases allocated with
  | false => exact locked
  | true =>
      constructor
      · intro other id held
        obtain ⟨known, found, rest⟩ := locked.owner other id held
        exact ⟨known, (List.getElem?_append_left (List.getElem?_eq_some_iff.mp found).1).trans found,
          rest⟩
      · intro id known found inside
        rcases allocated_cases found with before | ⟨_last, rfl⟩
        · exact locked.inside id known before inside
        · cases created <;> rcases inside with impossible | impossible <;> cases impossible

theorem Locked.step {event : Event} (locked : program.Locked)
    (made : program.step event = .ok (reply, after)) : after.Locked := by
  cases event with
  | start mutex waitToObtainMs waitToReleaseMs allocated created =>
      cases made
      exact locked.started mutex waitToObtainMs waitToReleaseMs allocated created
  | thread id done =>
      obtain ⟨thread, call, found, rfl, advanced⟩ := step_thread_cases made
      exact locked.threadfunc found advanced
  | join id =>
      obtain ⟨thread, found, rfl, returned, _unfreed, rfl⟩ := step_join_cases made
      refine locked.aside found rfl ?_ (locked.inside id thread found)
      intro held
      obtain ⟨known, same, _mutex, rest⟩ := locked.owner _ id held
      rw [found] at same
      cases same
      exact rest

/-! ### What a thread says of its success -/

/-- A thread reports success as long as none of its calls has failed. -/
structure Told (program : Program) (events : List Event) : Prop where
  success : ∀ id thread, program.threads[id]? = some thread → thread.Begun →
    thread.threadCompleteSuccess = some (decide (.thread id false ∉ events))
  begun : ∀ id done, .thread id done ∈ events → ∃ thread, program.threads[id]? = some thread ∧
    thread.Begun

variable {events : List Event}

theorem Told.silent (told : program.Told events) (found : program.threads[id]? = some thread)
    (early : ¬thread.Begun) (done : Bool) : .thread id done ∉ events := by
  intro member
  obtain ⟨known, same, begun⟩ := told.begun id done member
  rw [found] at same
  cases same
  exact early begun

/-- One call of a thread, and how it changes what the thread reports. -/
theorem Told.moves (told : program.Told events) (found : program.threads[id]? = some thread)
    (threads : after.threads = program.threads.set id next) (begun : next.Begun) {done : Bool}
    (first : ¬thread.Begun → next.threadCompleteSuccess = some done)
    (later : thread.Begun → next.threadCompleteSuccess =
      if done then thread.threadCompleteSuccess else some false) :
    after.Told (events ++ [.thread id done]) := by
  have others : ∀ other, other ≠ id → after.threads[other]? = program.threads[other]? := by
    intro other different
    rw [threads]
    exact setThread_other different next
  have mine : after.threads[id]? = some next := by
    rw [threads]
    exact setThread_self found next
  constructor
  · intro other known foundOther begunOther
    by_cases same : other = id
    · subst same
      rw [mine] at foundOther
      cases foundOther
      by_cases early : thread.Begun
      · rw [later early]
        cases done with
        | true =>
            rw [if_pos rfl, told.success other thread found early]
            simp
        | false => simp
      · rw [first early]
        have silent := told.silent found early false
        cases done <;> simp [silent]
    · rw [others other same] at foundOther
      rw [told.success other known foundOther begunOther]
      simp [same]
  · intro other flag member
    by_cases same : other = id
    · subst same
      exact ⟨next, mine, begun⟩
    · rw [others other same]
      rcases List.mem_append.mp member with before | new
      · exact told.begun other flag before
      · cases List.mem_singleton.mp new
        exact absurd rfl same

/-- An event that is no call of a thread. -/
theorem Told.aside (told : program.Told events) {event : Event}
    (quiet : ∀ id done, event ≠ .thread id done)
    (success : ∀ (id : Nat) (thread : ThreadData), after.threads[id]? = some thread →
      thread.Begun → ∃ known, program.threads[id]? = some known ∧ known.Begun ∧
        thread.threadCompleteSuccess = known.threadCompleteSuccess)
    (begun : ∀ (id : Nat) (thread : ThreadData), program.threads[id]? = some thread →
      thread.Begun → ∃ known, after.threads[id]? = some known ∧ known.Begun) :
    after.Told (events ++ [event]) := by
  have same : ∀ id done, .thread id done ∈ events ++ [event] ↔ .thread id done ∈ events := by
    intro id done
    rw [List.mem_append, List.mem_singleton]
    exact or_iff_left (quiet id done).symm
  constructor
  · intro id thread found begunHere
    obtain ⟨known, before, begunBefore, sameReport⟩ := success id thread found begunHere
    rw [sameReport, told.success id known before begunBefore, decide_eq_decide.mpr]
    exact not_congr (same id false).symm
  · intro id done member
    obtain ⟨thread, found, begunBefore⟩ := told.begun id done ((same id done).mp member)
    exact begun id thread found begunBefore

theorem Told.threadfunc (told : program.Told events)
    (found : program.threads[id]? = some thread)
    (made : program.threadfunc id thread done = .ok (call, after)) :
    after.Told (events ++ [.thread id done]) := by
  have effect := threadfunc_cases made
  cases place : thread.place with
  | notCreated =>
      rw [place] at effect
      exact effect.elim
  | obtaining =>
      rw [place] at effect
      subst effect
      refine told.moves found rfl ?_ (fun _early => rfl) (fun begun => absurd place begun.2)
      cases done with
      | false => exact ThreadData.begun_at .returned rfl (by decide) (by decide)
      | true => exact ThreadData.begun_at .locking rfl (by decide) (by decide)
  | locking =>
      have begun := ThreadData.begun_at _ place (by decide) (by decide)
      rw [place] at effect
      rcases effect with ⟨rfl, rfl⟩ | ⟨rfl, _free, rfl⟩
      · exact told.moves found rfl (ThreadData.begun_at .returned rfl (by decide) (by decide))
          (fun early => absurd begun early) (fun _begun => rfl)
      · let next := { thread with place := .releasing }
        have moved : next.Begun := ThreadData.begun_at .releasing rfl (by decide) (by decide)
        exact told.moves found rfl moved (fun early => absurd begun early) (fun _begun => rfl)
  | releasing =>
      have begun := ThreadData.begun_at _ place (by decide) (by decide)
      rw [place] at effect
      subst effect
      exact told.moves found rfl (ThreadData.begun_at .unlocking rfl (by decide) (by decide))
        (fun early => absurd begun early) (fun _begun => rfl)
  | unlocking =>
      have begun := ThreadData.begun_at _ place (by decide) (by decide)
      rw [place] at effect
      rcases effect with ⟨rfl, rfl⟩ | ⟨rfl, rfl⟩
      · exact told.moves found rfl (ThreadData.begun_at .returned rfl (by decide) (by decide))
          (fun early => absurd begun early) (fun _begun => rfl)
      · let next := { thread with place := .returned }
        have moved : next.Begun := ThreadData.begun_at .returned rfl (by decide) (by decide)
        exact told.moves found rfl moved (fun early => absurd begun early) (fun _begun => rfl)
  | returned =>
      rw [place] at effect
      exact effect.elim

theorem Told.step {event : Event} (told : program.Told events)
    (made : program.step event = .ok (reply, after)) : after.Told (events ++ [event]) := by
  cases event with
  | start mutex waitToObtainMs waitToReleaseMs allocated created =>
      cases made
      refine told.aside (fun _id _done same => by cases same) ?_ ?_
      · intro id thread found begun
        cases allocated with
        | false => exact ⟨thread, found, begun, rfl⟩
        | true =>
            rcases allocated_cases found with before | ⟨_last, rfl⟩
            · exact ⟨thread, before, begun, rfl⟩
            · cases created with
              | false => exact absurd rfl begun.1
              | true => exact absurd rfl begun.2
      · intro id thread found begun
        cases allocated with
        | false => exact ⟨thread, found, begun⟩
        | true =>
            have inside := (List.getElem?_eq_some_iff.mp found).1
            exact ⟨thread, (List.getElem?_append_left inside).trans found, begun⟩
  | thread id done =>
      obtain ⟨thread, call, found, rfl, advanced⟩ := step_thread_cases made
      exact told.threadfunc found advanced
  | join id =>
      obtain ⟨thread, found, rfl, returned, _unfreed, rfl⟩ := step_join_cases made
      refine told.aside (fun _id _done same => by cases same) ?_ ?_
      · intro other known foundOther begun
        by_cases same : other = id
        · subst same
          rw [setThread_self found] at foundOther
          cases foundOther
          exact ⟨thread, found, begun, rfl⟩
        · rw [setThread_other same] at foundOther
          exact ⟨known, foundOther, begun, rfl⟩
      · intro other known foundOther begun
        by_cases same : other = id
        · subst same
          rw [found] at foundOther
          cases foundOther
          exact ⟨_, setThread_self found _, begun⟩
        · exact ⟨known, (setThread_other same _).trans foundOther, begun⟩

/-! ### What is allocated -/

/-- Every thread_data comes from a start and goes with a join. -/
structure Counted (program : Program) (events : List Event) : Prop where
  leaked : program.threads.countP ThreadData.leaked = events.countP Event.leaks
  allocated : program.threads.length = events.countP Event.allocates
  joined : program.threads.countP ThreadData.freed = events.countP Event.joins
  freed : ∀ (id : Nat) (thread : ThreadData), program.threads[id]? = some thread →
    thread.freed = true → thread.place = .returned

theorem countP_set_same {Item : Type} {holds : Item → Bool} {items : List Item} {index : Nat}
    {before after : Item} (found : items[index]? = some before) (same : holds after = holds before) :
    (items.set index after).countP holds = items.countP holds := by
  obtain ⟨inside, here⟩ := List.getElem?_eq_some_iff.mp found
  rw [List.countP_set inside, here, same]
  split
  · rename_i holdsBefore
    have some_ := List.countP_pos_iff.mpr ⟨before, List.mem_of_getElem? found, holdsBefore⟩
    omega
  · rfl

/-- threadfunc frees nothing. -/
theorem threadfunc_moves (made : program.threadfunc id thread done = .ok (call, after)) :
    thread.place ≠ .returned ∧ ∃ next, after.threads = program.threads.set id next ∧
      next.leaked = thread.leaked ∧ next.freed = thread.freed := by
  have effect := threadfunc_cases made
  have moved {place : Place} (there : thread.place = place) (created : place ≠ .notCreated) :
      thread.leaked = false := by
    rw [ThreadData.leaked, there]
    exact decide_eq_false created
  cases place : thread.place with
  | notCreated =>
      rw [place] at effect
      exact effect.elim
  | obtaining =>
      have unleaked := moved place (by decide)
      rw [place] at effect
      subst effect
      refine ⟨by decide, _, rfl, ?_, rfl⟩
      rw [unleaked]
      cases done <;> rfl
  | locking =>
      have unleaked := moved place (by decide)
      rw [place] at effect
      rcases effect with ⟨_failed, rfl⟩ | ⟨_locked, _free, rfl⟩ <;>
        exact ⟨by decide, _, rfl, unleaked.symm, rfl⟩
  | releasing =>
      have unleaked := moved place (by decide)
      rw [place] at effect
      subst effect
      exact ⟨by decide, _, rfl, unleaked.symm, rfl⟩
  | unlocking =>
      have unleaked := moved place (by decide)
      rw [place] at effect
      rcases effect with ⟨_failed, rfl⟩ | ⟨_unlocked, rfl⟩ <;>
        exact ⟨by decide, _, rfl, unleaked.symm, rfl⟩
  | returned =>
      rw [place] at effect
      exact effect.elim

theorem Counted.threadfunc (counted : program.Counted events)
    (found : program.threads[id]? = some thread)
    (made : program.threadfunc id thread done = .ok (call, after)) :
    after.Counted (events ++ [.thread id done]) := by
  obtain ⟨runs, next, threads, unleaked, unfreed⟩ := threadfunc_moves made
  constructor
  · rw [threads, countP_set_same found unleaked, counted.leaked, List.countP_append]
    rfl
  · rw [threads, List.length_set, counted.allocated, List.countP_append]
    rfl
  · rw [threads, countP_set_same found unfreed, counted.joined, List.countP_append]
    rfl
  · intro other known foundOther freed
    rw [threads] at foundOther
    by_cases same : other = id
    · subst same
      have mine := setThread_self found next
      rw [setThread, foundOther] at mine
      cases mine
      exact absurd (counted.freed other thread found (unfreed ▸ freed)) runs
    · rw [List.getElem?_set_ne (Ne.symm same)] at foundOther
      exact counted.freed other known foundOther freed

theorem Counted.step {event : Event} (counted : program.Counted events)
    (made : program.step event = .ok (reply, after)) : after.Counted (events ++ [event]) := by
  obtain ⟨leaked, allocated, joined, freed⟩ := id counted
  cases event with
  | start mutex waitToObtainMs waitToReleaseMs granted created =>
      have threads := step_start_threads made
      constructor
      · rw [threads, List.countP_append, List.countP_append, leaked]
        cases granted <;> cases created <;> rfl
      · rw [threads, List.length_append, List.countP_append, allocated]
        cases granted <;> rfl
      · rw [threads, List.countP_append, List.countP_append, joined]
        cases granted <;> rfl
      · intro id known found isFreed
        rw [threads] at found
        cases granted with
        | false =>
            rw [if_neg Bool.false_ne_true, List.append_nil] at found
            exact freed id known found isFreed
        | true =>
            rcases allocated_cases found with before | ⟨_last, rfl⟩
            · exact freed id known before isFreed
            · cases isFreed
  | thread id done =>
      obtain ⟨thread, call, found, rfl, advanced⟩ := step_thread_cases made
      exact counted.threadfunc found advanced
  | join id =>
      obtain ⟨thread, found, rfl, returned, unfreed, rfl⟩ := step_join_cases made
      obtain ⟨inside, here⟩ := List.getElem?_eq_some_iff.mp found
      constructor
      · have same : ThreadData.leaked { thread with freed := true } = thread.leaked := rfl
        rw [setThread, countP_set_same found same, leaked, List.countP_append]
        rfl
      · rw [setThread, List.length_set, allocated, List.countP_append]
        rfl
      · rw [setThread, List.countP_set inside, here, unfreed, joined, List.countP_append]
        rfl
      · intro other known foundOther isFreed
        by_cases same : other = id
        · subst same
          rw [setThread_self found] at foundOther
          cases foundOther
          exact returned
        · rw [setThread_other same] at foundOther
          exact freed other known foundOther isFreed

/-! ### What a thread calls -/

theorem callsOf_concat {events : List Event} (lengths : events.length = replies.length) (id : Nat)
    (event : Event) (reply : Reply) :
    callsOf id (events ++ [event]) (replies ++ [reply]) =
      callsOf id events replies ++ (callOf id (event, reply)).toList := by
  unfold callsOf
  rw [List.zip_append lengths, List.filterMap_append]
  cases shown : callOf id (event, reply) <;> simp [shown]

/-- A thread has made the calls in front of its place, or fewer if it returned
without success. -/
structure Made (thread : ThreadData) (calls : List LibraryCall) : Prop where
  front : calls <+: thread.described
  whole : (thread.place = .returned → thread.threadCompleteSuccess = some true) →
    calls = thread.described.take thread.place.behind

variable {calls : List LibraryCall}

theorem Made.moves (before : Made thread calls)
    (advanced : program.threadfunc id thread done = .ok (call, after))
    (running : thread.place ≠ .returned) (same : next.described = thread.described)
    (further : next.place.behind = thread.place.behind + 1 ∨
      (next.place = .returned ∧ next.threadCompleteSuccess = some false)) :
    Made next (calls ++ [call]) := by
  have whole : calls ++ [call] = thread.described.take (thread.place.behind + 1) := by
    rw [before.whole (fun returned => absurd returned running), List.take_add_one,
      threadfunc_call advanced]
    rfl
  constructor
  · rw [same, whole]
    exact List.take_prefix _ _
  · intro success
    rcases further with further | ⟨returned, failed⟩
    · rw [same, further]
      exact whole
    · rw [success returned] at failed
      cases failed

theorem Made.threadfunc (before : Made thread calls)
    (advanced : program.threadfunc id thread done = .ok (call, after)) :
    ∃ next, after.threads = program.threads.set id next ∧ next.described = thread.described ∧
      Made next (calls ++ [call]) := by
  have effect := threadfunc_cases advanced
  cases place : thread.place with
  | notCreated =>
      rw [place] at effect
      exact effect.elim
  | obtaining =>
      have running : thread.place ≠ .returned := by rw [place]; decide
      rw [place] at effect
      subst effect
      refine ⟨_, rfl, rfl, before.moves advanced running rfl ?_⟩
      rw [place]
      cases done with
      | false => exact Or.inr ⟨rfl, rfl⟩
      | true => exact Or.inl rfl
  | locking =>
      have running : thread.place ≠ .returned := by rw [place]; decide
      rw [place] at effect
      rcases effect with ⟨_failed, rfl⟩ | ⟨_locked, _free, rfl⟩
      · exact ⟨_, rfl, rfl, before.moves advanced running rfl (Or.inr ⟨rfl, rfl⟩)⟩
      · refine ⟨_, rfl, rfl, before.moves advanced running rfl ?_⟩
        rw [place]
        exact Or.inl rfl
  | releasing =>
      have running : thread.place ≠ .returned := by rw [place]; decide
      rw [place] at effect
      subst effect
      refine ⟨_, rfl, rfl, before.moves advanced running rfl ?_⟩
      rw [place]
      exact Or.inl rfl
  | unlocking =>
      have running : thread.place ≠ .returned := by rw [place]; decide
      rw [place] at effect
      rcases effect with ⟨_failed, rfl⟩ | ⟨_unlocked, rfl⟩
      · exact ⟨_, rfl, rfl, before.moves advanced running rfl (Or.inr ⟨rfl, rfl⟩)⟩
      · refine ⟨_, rfl, rfl, before.moves advanced running rfl ?_⟩
        rw [place]
        exact Or.inl rfl
  | returned =>
      rw [place] at effect
      exact effect.elim

/-- What the threads are to call is what the starts asked of them, and they have
called no more. -/
structure Called (program : Program) (events : List Event) (replies : List Reply) : Prop where
  lengths : events.length = replies.length
  described : program.threads.map ThreadData.described = events.filterMap Event.described
  made : ∀ (id : Nat) (thread : ThreadData), program.threads[id]? = some thread →
    Made thread (callsOf id events replies)
  silent : ∀ id, program.threads[id]? = none → callsOf id events replies = []

/-- A step of one thread, or its end. -/
theorem Called.moves {event : Event} (called : program.Called events replies)
    (found : program.threads[id]? = some thread)
    (threads : after.threads = program.threads.set id next)
    (same : next.described = thread.described) (unasked : event.described = none)
    (others : ∀ other, id ≠ other → callOf other (event, reply) = none)
    (moved : Made next (callsOf id events replies ++ (callOf id (event, reply)).toList)) :
    after.Called (events ++ [event]) (replies ++ [reply]) := by
  obtain ⟨lengths, described, before, silent⟩ := called
  have elsewhere : ∀ other, id ≠ other →
      callsOf other (events ++ [event]) (replies ++ [reply]) = callsOf other events replies := by
    intro other different
    rw [callsOf_concat lengths, others other different]
    exact List.append_nil _
  refine ⟨?_, ?_, ?_, ?_⟩
  · rw [List.length_append, List.length_append, lengths]
    rfl
  · obtain ⟨inside, here⟩ := List.getElem?_eq_some_iff.mp found
    rw [threads, List.map_set, same, ← here, ← List.map_set, List.set_getElem_self, described,
      List.filterMap_append, List.filterMap_cons_none unasked]
    exact (List.append_nil _).symm
  · intro other known foundOther
    rw [threads] at foundOther
    by_cases mine : id = other
    · subst mine
      have here := setThread_self found next
      rw [setThread, foundOther] at here
      cases here
      rw [callsOf_concat lengths]
      exact moved
    · rw [List.getElem?_set_ne mine] at foundOther
      rw [elsewhere other mine]
      exact before other known foundOther
  · intro other absent
    rw [threads, List.getElem?_eq_none_iff, List.length_set, ← List.getElem?_eq_none_iff] at absent
    have different : id ≠ other := by
      rintro rfl
      rw [found] at absent
      cases absent
    rw [elsewhere other different]
    exact silent other absent

theorem Called.step {event : Event} (called : program.Called events replies)
    (made : program.step event = .ok (reply, after)) :
    after.Called (events ++ [event]) (replies ++ [reply]) := by
  cases event with
  | start mutex waitToObtainMs waitToReleaseMs allocated created =>
      obtain ⟨lengths, described, before, silent⟩ := called
      have threads := step_start_threads made
      have same : ∀ id, callsOf id (events ++ [.start mutex waitToObtainMs waitToReleaseMs allocated
          created]) (replies ++ [reply]) = callsOf id events replies := by
        intro id
        rw [callsOf_concat lengths]
        exact List.append_nil _
      refine ⟨?_, ?_, ?_, ?_⟩
      · rw [List.length_append, List.length_append, lengths]
        rfl
      · rw [threads, List.map_append, described, List.filterMap_append]
        cases allocated <;> rfl
      · intro id thread found
        rw [same]
        rw [threads] at found
        cases allocated with
        | false =>
            rw [if_neg Bool.false_ne_true, List.append_nil] at found
            exact before id thread found
        | true =>
            rcases allocated_cases found with earlier | ⟨last, rfl⟩
            · exact before id thread earlier
            · have unheard := silent id (List.getElem?_eq_none (Nat.le_of_eq last.symm))
              rw [unheard]
              refine ⟨List.nil_prefix, fun _success => ?_⟩
              cases created <;> rfl
      · intro id absent
        rw [same]
        rw [threads, List.getElem?_eq_none_iff, List.length_append] at absent
        exact silent id (List.getElem?_eq_none (Nat.le_trans (Nat.le_add_right _ _) absent))
  | thread id done =>
      obtain ⟨thread, call, found, rfl, advanced⟩ := step_thread_cases made
      obtain ⟨next, threads, same, moved⟩ := (called.made id thread found).threadfunc advanced
      refine called.moves found threads same rfl (fun _other different => if_neg different) ?_
      rw [callOf, if_pos rfl]
      exact moved
  | join id =>
      obtain ⟨thread, found, rfl, _returned, _unfreed, rfl⟩ := step_join_cases made
      obtain ⟨front, whole⟩ := called.made id thread found
      have same : callsOf id events replies ++
          (callOf id (.join id, .joined thread.threadCompleteSuccess)).toList =
        callsOf id events replies := List.append_nil _
      refine called.moves found rfl rfl rfl (fun _other _different => rfl) ?_
      rw [same]
      exact ⟨front, whole⟩

/-! ### All runs -/

structure Sound (program : Program) (events : List Event) (replies : List Reply) : Prop where
  locked : program.Locked
  told : program.Told events
  counted : program.Counted events
  called : program.Called events replies

theorem empty_locked : empty.Locked := by
  constructor
  · intro mutex id impossible
    cases impossible
  · intro id thread impossible
    cases impossible

theorem empty_told : empty.Told [] := by
  constructor
  · intro id thread impossible
    cases impossible
  · intro id done impossible
    cases impossible

theorem empty_counted : empty.Counted [] := by
  refine ⟨rfl, rfl, rfl, ?_⟩
  intro id thread impossible
  cases impossible

theorem empty_called : empty.Called [] [] := by
  refine ⟨rfl, rfl, ?_, fun _id _absent => rfl⟩
  intro id thread impossible
  cases impossible

theorem sound_run (ran : runCalls Program.step .empty events = .ok (replies, program)) :
    program.Sound events replies := by
  have one : ∀ program earlier before event reply after, Sound program earlier before → True →
      program.step event = .ok (reply, after) →
      after.Sound (earlier ++ [event]) (before ++ [reply]) :=
    fun _program _earlier _before _event _reply _after sound _any made =>
      ⟨sound.locked.step made, sound.told.step made, sound.counted.step made,
        sound.called.step made⟩
  exact runCalls_traces [] [] one ⟨empty_locked, empty_told, empty_counted, empty_called⟩
    (runMeets_any events _) ran

/-- In every interleaving at most one thread is between its lock and its unlock
of a mutex.  Each thread calls what its start asked for, in that order; when it
returns it reports success exactly if none of its calls failed, and then it has
made them all and given its mutex back.  Of what was allocated only that is left
which was not joined, in the end that of the threads never created. -/
theorem threads_obtain_mutex (events : List Event) (replies : List Reply)
    (ran : runCalls Program.step .empty events = .ok (replies, program)) :
    (∀ (id other : Nat) (first second : ThreadData), program.threads[id]? = some first →
      program.threads[other]? = some second → first.Inside → second.Inside →
      first.mutex = second.mutex → id = other) ∧
    (∀ (id : Nat) (thread : ThreadData), program.threads[id]? = some thread →
      ∃ asked, (events.filterMap Event.described)[id]? = some asked ∧
        callsOf id events replies <+: asked ∧
        (thread.place = .returned →
          thread.threadCompleteSuccess = some (decide (.thread id false ∉ events)) ∧
          (thread.threadCompleteSuccess = some true →
            callsOf id events replies = asked ∧
              program.holder thread.mutex ≠ some id))) ∧
    program.threads.countP (!ThreadData.freed ·) + events.countP Event.joins =
      events.countP Event.allocates ∧
    ((∀ thread ∈ program.threads, thread.leaked = false → thread.freed = true) →
      program.threads.countP (!ThreadData.freed ·) = events.countP Event.leaks) := by
  obtain ⟨locked, told, counted, called⟩ := sound_run ran
  refine ⟨?_, ?_, ?_, ?_⟩
  · intro id other first second foundFirst foundSecond insideFirst insideSecond same
    have held := locked.inside id first foundFirst insideFirst
    have heldOther := locked.inside other second foundSecond insideSecond
    rw [same, heldOther] at held
    exact (Option.some.inj held).symm
  · intro id thread found
    obtain ⟨front, whole⟩ := called.made id thread found
    refine ⟨thread.described, ?_, front, ?_⟩
    · rw [← called.described, List.getElem?_map, found]
      rfl
    · intro returned
      have begun := ThreadData.begun_at _ returned (by decide) (by decide)
      refine ⟨told.success id thread found begun, ?_⟩
      intro success
      refine ⟨?_, ?_⟩
      · rw [whole (fun _returned => success), returned]
        rfl
      · intro held
        obtain ⟨known, same, _mutex, inside | ⟨_returned, failed⟩⟩ := locked.owner _ id held
        · rw [found] at same
          cases same
          rcases inside with inside | inside <;>
            · rw [returned] at inside
              cases inside
        · rw [found] at same
          cases same
          rw [success] at failed
          cases failed
  · have split := counted.allocated
    rw [List.length_eq_countP_add_countP ThreadData.freed, counted.joined] at split
    simp only [decide_not, Bool.decide_eq_true] at split
    omega
  · intro joined
    rw [← counted.leaked]
    refine List.countP_congr ?_
    intro thread member
    obtain ⟨id, found⟩ := List.mem_iff_getElem?.mp member
    rw [Bool.not_eq_true']
    constructor
    · intro unfreed
      by_contra created
      rw [joined thread member (Bool.eq_false_iff.mpr created)] at unfreed
      cases unfreed
    · intro leaked
      by_contra freed
      have returned := counted.freed id thread found (Bool.eq_true_of_not_eq_false freed)
      rw [ThreadData.leaked, returned] at leaked
      cases leaked

end Program

/-- One thread is created, has its mutex and is joined; another one is not created. -/
def joinedThread : List Event :=
  [.start 0 10 20 true true, .start 0 10 20 true false] ++ List.replicate 4 (.thread 0 true) ++
    [.join 0]

theorem threads_obtain_mutex_joined : ∃ replies program,
    runCalls Program.step .empty joinedThread = .ok (replies, program) ∧
      program.threads.countP (!ThreadData.freed ·) = 1 := by
  have computed : (runCalls Program.step .empty joinedThread).map
      (fun result => result.2.threads) =
    .ok [⟨0, 10, 20, some true, .returned, true⟩, ⟨0, 10, 20, none, .notCreated, false⟩] := by
    decide +kernel
  obtain ⟨⟨replies, program⟩, ran, threads⟩ := ok_of_map computed
  obtain ⟨_exclude, _report, _blocks, left⟩ :=
    Program.threads_obtain_mutex joinedThread replies ran
  refine ⟨replies, program, ran, left ?_⟩
  change program.threads = _ at threads
  rw [threads]
  decide

end Aesd.Threading
