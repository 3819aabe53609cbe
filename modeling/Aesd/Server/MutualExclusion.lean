/-
What the mutex guards.

Of all threads at most one is inside, and it is the one that took the mutex
last.  So a property of the output file that one writer after another keeps is
kept by every interleaving of the threads.  `Guards` is such a property, given
by what holds while the mutex is free, while a session runs, and of a session
that has ended; `Guarded` is the invariant of the threads that comes from it.
-/

import Aesd.Server.Threads

set_option autoImplicit false

namespace Aesd.Server

open BoundedLoop CallRun Driver UnlessStopped

/-- The writers are listed in the order in which they took the mutex. -/
structure Guards {ι File : Type} (ops : OutputFile File) (clients : ι → Client)
    (allowed : ι → Session → File → Prop) where
  Free : List (Writer ι) → File → Prop
  Talks : List (Writer ι) → ι → Session → File → Prop
  Answered : List (Writer ι) → ι → Outcome → Session → Prop
  start : ∀ {writers file} i, Free writers file →
    Talks (writers ++ [.client i]) i (.initial (clients i)) file
  round : ∀ {writers i session file}, Talks writers i session file → allowed i session file →
    Unless Any (protocolRound ops (clients i) (session, file))
      (RoundMeets (fun next => Talks writers i next.1 next.2)
        (fun served => Free writers served.2.2 ∧ Answered writers i served.1 served.2.1))
  tick : ∀ {writers file} (text : Timestamp), Free writers file →
    Unless Any (ops.fwrite file text.bytes) (fun written => Free (writers ++ [.clock text]) written.2)

def ClientState.Inside : ClientState → Prop
  | .talking _ => True
  | .unlocking _ _ => True
  | _ => False

def ClockState.Inside : ClockState → Prop
  | .writing _ => True
  | .unlocking _ => True
  | _ => False

/-- The condition on a step: rounds of a session are allowed ones. -/
def AllowedStep {ι File : Type} (allowed : ι → Session → File → Prop) (world : World ι File) :
    Event ι → Prop
  | .round i => ∀ session, world.clients i = .talking session → allowed i session world.file
  | _ => True

section Invariant

variable {ι File : Type} {ops : OutputFile File} {clients : ι → Client}
  {allowed : ι → Session → File → Prop} (guards : Guards ops clients allowed)

/-- The state of the output file, by the owner of the mutex. -/
def Guards.Resource (world : World ι File) (writers : List (Writer ι)) : Prop :=
  match world.owner with
  | none => guards.Free writers world.file
  | some (.client i) =>
      match world.clients i with
      | .talking session => guards.Talks writers i session world.file
      | .unlocking outcome session =>
          guards.Free writers world.file ∧ guards.Answered writers i outcome session
      | _ => False
  | some (.clock text) =>
      match world.clock with
      | .writing held =>
          held = text ∧ ∃ before, writers = before ++ [.clock text] ∧ guards.Free before world.file
      | .unlocking _ => guards.Free writers world.file
      | _ => False

/-- The session has ended, behind these writers. -/
def Guards.Done (writers : List (Writer ι)) (i : ι) (outcome : Outcome) (session : Session) : Prop :=
  ∃ before, before ++ [.client i] <+: writers ∧
    guards.Answered (before ++ [.client i]) i outcome session

def Guards.Left (writers : List (Writer ι)) (i : ι) : ClientState → Prop
  | .closing outcome session => guards.Done writers i outcome session
  | .finished ret session =>
      ∃ outcome, ret = clientRet (clients i) outcome ∧ guards.Done writers i outcome session
  | _ => True

structure Guarded (world : World ι File) (writers : List (Writer ι)) : Prop where
  resource : guards.Resource world writers
  last : ∀ writer, world.owner = some writer → ∃ before, writers = before ++ [writer]
  inside : ∀ i, (world.clients i).Inside → world.owner = some (.client i)
  clockInside : world.clock.Inside → ∃ text, world.owner = some (.clock text)
  waits : ∀ i, world.clients i = .waiting → .client i ∉ writers
  once : (writers.filterMap Writer.client?).Nodup
  left : ∀ i, guards.Left writers i (world.clients i)

variable {guards}

theorem Guards.Done.later {writers : List (Writer ι)} {i : ι} {outcome : Outcome}
    {session : Session} (done : guards.Done writers i outcome session) (added : List (Writer ι)) :
    guards.Done (writers ++ added) i outcome session := by
  obtain ⟨before, earlier, answered⟩ := done
  exact ⟨before, earlier.trans (List.prefix_append writers added), answered⟩

theorem Guards.Left.later {writers : List (Writer ι)} {i : ι} {state : ClientState}
    (left : guards.Left writers i state) (added : List (Writer ι)) :
    guards.Left (writers ++ added) i state := by
  cases state with
  | waiting => exact True.intro
  | talking session => exact True.intro
  | unlocking outcome session => exact True.intro
  | closing outcome session => exact Guards.Done.later left added
  | finished ret session =>
      obtain ⟨outcome, same, done⟩ := left
      exact ⟨outcome, same, done.later added⟩

theorem guarded_start {file : File} (free : guards.Free [] file) :
    Guarded guards (.start file) [] where
  resource := free
  last := by intro writer impossible; cases impossible
  inside := by intro i impossible; cases impossible
  clockInside := by intro impossible; cases impossible
  waits := by intro i _waiting; exact List.not_mem_nil
  once := List.nodup_nil
  left := fun _i => True.intro

variable {world after : World ι File} {writers : List (Writer ι)} {reply : Option (Writer ι)}

/-- Nobody is inside while the mutex is free. -/
theorem Guarded.nobody (guarded : Guarded guards world writers) (free : world.owner = none) (i : ι) :
    ¬(world.clients i).Inside := by
  intro inside
  rw [guarded.inside i inside] at free
  cases free

theorem Guarded.clock_outside (guarded : Guarded guards world writers)
    (free : world.owner = none) : ¬world.clock.Inside := by
  intro inside
  obtain ⟨text, owns⟩ := guarded.clockInside inside
  rw [owns] at free
  cases free

/-! ### The clock -/

theorem Guarded.tick (guarded : Guarded guards world writers) {text : Timestamp}
    (sleeping : world.clock = .sleeping) :
    Guarded guards { world with clock := .ticked text } writers := by
  have outside : ∀ held, world.owner ≠ some (.clock held) := by
    intro held owns
    have resource := guarded.resource
    rw [Guards.Resource, owns] at resource
    simp only [sleeping] at resource
  refine ⟨?_, guarded.last, guarded.inside, fun impossible => impossible.elim, guarded.waits,
    guarded.once, guarded.left⟩
  have resource := guarded.resource
  unfold Guards.Resource at resource ⊢
  cases owns : world.owner with
  | none =>
      rw [owns] at resource
      exact resource
  | some writer =>
      rw [owns] at resource
      cases writer with
      | client i => exact resource
      | clock held => exact absurd owns (outside held)

theorem Guarded.clockLock (guarded : Guarded guards world writers) {text : Timestamp}
    (free : world.owner = none) :
    Guarded guards { world with owner := some (.clock text), clock := .writing text }
      (writers ++ [.clock text]) := by
  have resource := guarded.resource
  rw [Guards.Resource, free] at resource
  constructor
  · exact ⟨rfl, writers, rfl, resource⟩
  · intro writer same
    cases same
    exact ⟨writers, rfl⟩
  · intro i inside
    exact absurd inside (guarded.nobody free i)
  · exact fun _inside => ⟨text, rfl⟩
  · intro i waiting member
    rcases List.mem_append.mp member with before | new
    · exact guarded.waits i waiting before
    · exact nomatch List.mem_singleton.mp new
  · rw [List.filterMap_append]
    exact (List.append_nil _).symm ▸ guarded.once
  · exact fun i => (guarded.left i).later _

theorem Guarded.clockWrite (guarded : Guarded guards world writers) {text : Timestamp}
    (writing : world.clock = .writing text) {writeRet : Nat} {file : File}
    (made : ops.fwrite world.file text.bytes = .ok (writeRet, file)) (written : Bool) :
    Guarded guards { world with file, clock := .unlocking written } writers := by
  obtain ⟨held, owns⟩ := guarded.clockInside (by rw [writing]; exact True.intro)
  have resource := guarded.resource
  rw [Guards.Resource, owns] at resource
  simp only [writing] at resource
  obtain ⟨rfl, before, same, free⟩ := resource
  refine ⟨?_, guarded.last, guarded.inside, fun _inside => ⟨text, owns⟩, guarded.waits,
    guarded.once, guarded.left⟩
  rw [Guards.Resource, owns, same]
  exact (guards.tick text free).of_ok made

theorem Guarded.clockUnlock (guarded : Guarded guards world writers) {written : Bool}
    (unlocking : world.clock = .unlocking written) :
    Guarded guards { world with
      owner := none
      clock := if written then .sleeping else .stopped } writers := by
  obtain ⟨held, owns⟩ := guarded.clockInside (by rw [unlocking]; exact True.intro)
  have resource := guarded.resource
  rw [Guards.Resource, owns] at resource
  simp only [unlocking] at resource
  refine ⟨resource, fun _writer impossible => (nomatch impossible), ?_, ?_, guarded.waits,
    guarded.once, guarded.left⟩
  · intro i inside
    have mine := guarded.inside i inside
    rw [owns] at mine
    cases mine
  · intro inside
    cases written <;> exact inside.elim

/-! ### The clients -/

variable [DecidableEq ι] {i : ι}

/-- A step of one client's thread leaves the states of the others alone. -/
theorem setClient_cases (world : World ι File) (i : ι) (state : ClientState) (other : ι) :
    (other = i ∧ (world.setClient i state).clients other = state) ∨
      (other ≠ i ∧ (world.setClient i state).clients other = world.clients other) := by
  by_cases same : other = i
  · subst same
    exact Or.inl ⟨rfl, world.setClient_self other state⟩
  · exact Or.inr ⟨same, world.setClient_other state same⟩

theorem Guarded.lock (guarded : Guarded guards world writers)
    (waiting : world.clients i = .waiting) (free : world.owner = none) :
    Guarded guards ({ world with owner := some (.client i) }.setClient i
        (.talking (.initial (clients i)))) (writers ++ [.client i]) := by
  have resource := guarded.resource
  rw [Guards.Resource, free] at resource
  have states := setClient_cases { world with owner := some (.client i) } i
    (.talking (.initial (clients i)))
  constructor
  · change match (World.setClient _ i _).clients i with
      | .talking session => guards.Talks (writers ++ [.client i]) i session world.file
      | .unlocking outcome session =>
          guards.Free (writers ++ [.client i]) world.file ∧
            guards.Answered (writers ++ [.client i]) i outcome session
      | _ => False
    rw [World.setClient_self]
    exact guards.start i resource
  · intro writer same
    cases same
    exact ⟨writers, rfl⟩
  · intro other inside
    rcases states other with ⟨rfl, _state⟩ | ⟨_different, unchanged⟩
    · rfl
    · rw [unchanged] at inside
      exact absurd inside (guarded.nobody free other)
  · intro inside
    exact absurd inside (guarded.clock_outside free)
  · intro other waits member
    rcases states other with ⟨rfl, talking⟩ | ⟨different, unchanged⟩
    · rw [talking] at waits
      cases waits
    · rw [unchanged] at waits
      rcases List.mem_append.mp member with before | new
      · exact guarded.waits other waits before
      · cases List.mem_singleton.mp new
        exact different rfl
  · rw [List.filterMap_append]
    apply List.Nodup.append guarded.once (List.nodup_singleton i)
    intro other before new
    cases List.mem_singleton.mp new
    obtain ⟨writer, present, same⟩ := List.mem_filterMap.mp before
    cases writer with
    | client mine =>
        cases same
        exact guarded.waits _ waiting present
    | clock text => cases same
  · intro other
    rcases states other with ⟨rfl, talking⟩ | ⟨_different, unchanged⟩
    · rw [talking]
      exact True.intro
    · rw [unchanged]
      exact (guarded.left other).later _

/-- What the owner's thread keeps of the invariant while it changes its own state. -/
theorem Guarded.inner (guarded : Guarded guards world writers)
    (inside : (world.clients i).Inside) {file : File} {state : ClientState}
    (stays : state.Inside)
    (resource : guards.Resource ({ world with file }.setClient i state) writers) :
    Guarded guards ({ world with file }.setClient i state) writers := by
  have owns := guarded.inside i inside
  have states := setClient_cases { world with file } i state
  refine ⟨resource, guarded.last, ?_, guarded.clockInside, ?_, guarded.once, ?_⟩
  · intro other entered
    rcases states other with ⟨rfl, _state⟩ | ⟨_different, unchanged⟩
    · exact owns
    · rw [unchanged] at entered
      exact guarded.inside other entered
  · intro other waits
    rcases states other with ⟨rfl, now⟩ | ⟨_different, unchanged⟩
    · rw [now] at waits
      rw [waits] at stays
      exact stays.elim
    · rw [unchanged] at waits
      exact guarded.waits other waits
  · intro other
    rcases states other with ⟨rfl, now⟩ | ⟨_different, unchanged⟩
    · rw [now]
      cases state with
      | waiting => exact True.intro
      | talking session => exact True.intro
      | unlocking outcome session => exact True.intro
      | closing outcome session => exact stays.elim
      | finished ret session => exact stays.elim
    · rw [unchanged]
      exact guarded.left other

theorem Guarded.round (guarded : Guarded guards world writers)
    (calm : AllowedStep allowed world (.round i))
    (made : world.round ops clients i = .ok (reply, after)) :
    reply = none ∧ Guarded guards after writers := by
  obtain ⟨rfl, session, talking, result⟩ := World.round_cases made
  have inside : (world.clients i).Inside := by
    rw [talking]
    exact True.intro
  have owns := guarded.inside i inside
  have resource := guarded.resource
  rw [Guards.Resource, owns] at resource
  simp only [talking] at resource
  have onward := guards.round resource (calm session talking)
  refine ⟨rfl, ?_⟩
  rcases result with ⟨next, file, decided, rfl⟩ | ⟨outcome, last, file, decided, rfl⟩
  · have stays : (ClientState.talking next).Inside := True.intro
    have kept : guards.Talks writers i next file := onward.of_ok decided
    apply guarded.inner inside stays
    simp only [Guards.Resource, World.setClient, owns, Function.update_self]
    exact kept
  · have stays : (ClientState.unlocking outcome last).Inside := True.intro
    have served : guards.Free writers file ∧ guards.Answered writers i outcome last :=
      onward.of_ok decided
    apply guarded.inner inside stays
    simp only [Guards.Resource, World.setClient, owns, Function.update_self]
    exact served

theorem Guarded.unlock (guarded : Guarded guards world writers) {outcome : Outcome}
    {session : Session} (unlocking : world.clients i = .unlocking outcome session) :
    Guarded guards ({ world with owner := none }.setClient i (.closing outcome session))
      writers := by
  have owns := guarded.inside i (by rw [unlocking]; exact True.intro)
  have resource := guarded.resource
  rw [Guards.Resource, owns] at resource
  simp only [unlocking] at resource
  obtain ⟨free, answered⟩ := resource
  obtain ⟨before, same⟩ := guarded.last _ owns
  have states := setClient_cases { world with owner := none } i (.closing outcome session)
  refine ⟨free, fun _writer impossible => (nomatch impossible), ?_, ?_, ?_, guarded.once, ?_⟩
  · intro other inside
    rcases states other with ⟨rfl, now⟩ | ⟨different, unchanged⟩
    · rw [now] at inside
      exact inside.elim
    · rw [unchanged] at inside
      have also := guarded.inside other inside
      rw [owns] at also
      cases also
      exact absurd rfl different
  · intro inside
    obtain ⟨text, also⟩ := guarded.clockInside inside
    rw [owns] at also
    cases also
  · intro other waits
    rcases states other with ⟨rfl, now⟩ | ⟨_different, unchanged⟩
    · rw [now] at waits
      cases waits
    · rw [unchanged] at waits
      exact guarded.waits other waits
  · intro other
    rcases states other with ⟨rfl, now⟩ | ⟨_different, unchanged⟩
    · rw [now]
      exact ⟨before, same ▸ List.prefix_refl _, same ▸ answered⟩
    · rw [unchanged]
      exact guarded.left other

theorem Guarded.close (guarded : Guarded guards world writers) {outcome : Outcome}
    {session : Session} (closing : world.clients i = .closing outcome session) :
    Guarded guards (world.setClient i (.finished (clientRet (clients i) outcome) session))
      writers := by
  have done := guarded.left i
  rw [closing] at done
  have states := setClient_cases world i (.finished (clientRet (clients i) outcome) session)
  refine ⟨?_, guarded.last, ?_, guarded.clockInside, ?_, guarded.once, ?_⟩
  · have resource := guarded.resource
    unfold Guards.Resource at resource ⊢
    cases owns : world.owner with
    | none =>
        simp only [World.setClient, owns] at resource ⊢
        exact resource
    | some writer =>
        cases writer with
        | clock text =>
            simp only [World.setClient, owns] at resource ⊢
            exact resource
        | client other =>
            have different : other ≠ i := by
              intro same
              subst same
              simp only [owns, closing] at resource
            simp only [World.setClient, owns, Function.update_of_ne different] at resource ⊢
            exact resource
  · intro other inside
    rcases states other with ⟨rfl, now⟩ | ⟨_different, unchanged⟩
    · rw [now] at inside
      exact inside.elim
    · rw [unchanged] at inside
      exact guarded.inside other inside
  · intro other waits
    rcases states other with ⟨rfl, now⟩ | ⟨_different, unchanged⟩
    · rw [now] at waits
      cases waits
    · rw [unchanged] at waits
      exact guarded.waits other waits
  · intro other
    rcases states other with ⟨rfl, now⟩ | ⟨_different, unchanged⟩
    · rw [now]
      exact ⟨outcome, rfl, done⟩
    · rw [unchanged]
      exact guarded.left other

/-! ### Steps and runs -/

variable {build : Build} {event : Event ι}

theorem Guarded.step (guarded : Guarded guards world writers)
    (calm : AllowedStep allowed world event)
    (made : world.step ops build clients event = .ok (reply, after)) :
    Guarded guards after (writers ++ reply.toList) := by
  have none_added : writers ++ (none : Option (Writer ι)).toList = writers := List.append_nil _
  cases event with
  | lock i =>
      obtain ⟨waiting, free, rfl, rfl⟩ := World.lock_cases made
      exact guarded.lock waiting free
  | round i =>
      obtain ⟨rfl, kept⟩ := guarded.round calm made
      rw [none_added]
      exact kept
  | unlock i =>
      obtain ⟨rfl, outcome, session, unlocking, rfl⟩ := World.unlock_cases made
      rw [none_added]
      exact guarded.unlock unlocking
  | close i =>
      obtain ⟨rfl, outcome, session, closing, rfl⟩ := World.close_cases made
      rw [none_added]
      exact guarded.close closing
  | tick text =>
      obtain ⟨rfl, sleeping, rfl | rfl⟩ := World.tick_cases made
      · rw [none_added]
        exact guarded
      · rw [none_added]
        exact guarded.tick sleeping
  | clockLock =>
      obtain ⟨text, _ticked, free, rfl, rfl⟩ := World.clockLock_cases made
      exact guarded.clockLock free
  | clockWrite =>
      obtain ⟨rfl, text, writeRet, file, writing, written, rfl⟩ := World.clockWrite_cases made
      rw [none_added]
      exact guarded.clockWrite writing written _
  | clockUnlock =>
      obtain ⟨rfl, written, unlocking, rfl⟩ := World.clockUnlock_cases made
      rw [none_added]
      exact guarded.clockUnlock unlocking

/-- Every run of allowed steps keeps the invariant. -/
theorem Guarded.run (guarded : Guarded guards world writers) {events : List (Event ι)}
    {replies : List (Option (Writer ι))}
    (calm : RunMeets (fun world event => world.step ops build clients event)
      (AllowedStep allowed) world events)
    (ran : runCalls (fun world event => world.step ops build clients event) world events =
      .ok (replies, after)) : Guarded guards after (writers ++ acquisitions replies) := by
  let Known (world : World ι File) (replies : List (Option (Writer ι))) : Prop :=
    Guarded guards world (writers ++ acquisitions replies)
  have one : ∀ world replies event reply after, Known world replies →
      AllowedStep allowed world event → world.step ops build clients event = .ok (reply, after) →
      Known after (replies ++ [reply]) := by
    intro world replies event reply after known calm made
    change Guarded guards after (writers ++ acquisitions (replies ++ [reply]))
    rw [acquisitions_concat, ← List.append_assoc]
    exact known.step calm made
  have initially : Known world [] := by
    change Guarded guards world (writers ++ [])
    rw [List.append_nil]
    exact guarded
  exact runCalls_replies [] one initially calm ran

theorem guarded_run {file : File} (free : guards.Free [] file) {events : List (Event ι)}
    {replies : List (Option (Writer ι))}
    (calm : RunMeets (fun world event => world.step ops build clients event)
      (AllowedStep allowed) (.start file) events)
    (ran : runCalls (fun world event => world.step ops build clients event) (.start file) events =
      .ok (replies, world)) : Guarded guards world (acquisitions replies) :=
  (guarded_start free).run calm ran

omit [DecidableEq ι] in
/-- From a session's lock to its end no other thread takes the mutex. -/
theorem Guarded.alone {later : List (Writer ι)}
    (guarded : Guarded guards world (writers ++ .client i :: later))
    (inside : (world.clients i).Inside) : later = [] := by
  obtain ⟨before, same⟩ := guarded.last _ (guarded.inside i inside)
  rcases later.eq_nil_or_concat with nothing | ⟨rest, final, rfl⟩
  · exact nothing
  · rw [List.concat_eq_append, ← List.cons_append, ← List.append_assoc] at same
    have final_eq : final = .client i := by
      have ends := (List.append_inj' same rfl).2
      cases ends
      rfl
    have once := guarded.once
    rw [final_eq, List.concat_eq_append, List.filterMap_append] at once
    change (_ ++ i :: (rest ++ [Writer.client i]).filterMap Writer.client?).Nodup at once
    have alone := (List.nodup_cons.mp once.of_append_right).1
    have twice : i ∈ (rest ++ [Writer.client i]).filterMap Writer.client? :=
      List.mem_filterMap.mpr ⟨_, List.mem_concat_self, rfl⟩
    exact absurd twice alone

end Invariant

end Aesd.Server
