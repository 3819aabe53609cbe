/-
Calls whose bodies run under one lock.

A body works on shared data in small steps; it starts when its thread has the
lock, and with its last step it gives the lock back and returns.  Threads take
their steps in any order.  The calls that have returned are then calls made one
after another, in the order of their returns, and if every body comes to an end
on its own, every call does beside the others.
-/

import Aesd.CallRun
import Mathlib.Logic.Relation

set_option autoImplicit false

namespace Aesd.LockedSections

open BoundedLoop CallRun Relation

/-- What a call does with the lock: taking it, then one small step after another. -/
structure Body (Data Request Phase Result Error : Type) where
  start : Request → Data → Phase × Data
  small : Phase → Data → Except Error (Round Phase Result × Data)

inductive Place (Request Phase : Type) where
  | away
  | waiting (request : Request)
  | inside (request : Request) (phase : Phase)

/-- The thread has a call under way. -/
def Place.begun {Request Phase : Type} : Place Request Phase → Bool
  | .away => false
  | _ => true

structure World (Thread Data Request Phase : Type) where
  data : Data
  holder : Option Thread
  place : Thread → Place Request Phase

inductive Event (Thread Request : Type) where
  | call (thread : Thread) (request : Request)
  | lock (thread : Thread)
  | work (thread : Thread)

inductive Reply (Thread Request Result : Type) where
  | moved
  | returned (thread : Thread) (request : Request) (result : Result)

inductive Halt (Error : Type) where
  | waits
  | fault (error : Error)
  deriving DecidableEq

/-- The calls that have returned, with their results, in the order of the returns. -/
def history {Thread Request Result : Type} (replies : List (Reply Thread Request Result)) :
    List (Request × Result) :=
  replies.filterMap fun
    | .moved => none
    | .returned _thread request result => some (request, result)

variable {Data Request Phase Result Error : Type}

section Steps

variable {Thread : Type} [DecidableEq Thread]

namespace World

def start (data : Data) : World Thread Data Request Phase where
  data := data
  holder := none
  place := fun _thread => .away

def goTo (world : World Thread Data Request Phase) (thread : Thread)
    (place : Place Request Phase) : World Thread Data Request Phase :=
  { world with place := Function.update world.place thread place }

theorem goTo_self (world : World Thread Data Request Phase) (thread : Thread)
    (place : Place Request Phase) : (world.goTo thread place).place thread = place :=
  Function.update_self ..

theorem goTo_other (world : World Thread Data Request Phase) {thread other : Thread}
    (different : other ≠ thread) (place : Place Request Phase) :
    (world.goTo thread place).place other = world.place other :=
  Function.update_of_ne different ..

end World

def Body.step (body : Body Data Request Phase Result Error) (world : World Thread Data Request Phase) :
    Event Thread Request →
      Except (Halt Error) (Reply Thread Request Result × World Thread Data Request Phase)
  | .call thread request =>
      match world.place thread with
      | .away => .ok (.moved, world.goTo thread (.waiting request))
      | _ => .error .waits
  | .lock thread =>
      match world.place thread, world.holder with
      | .waiting request, none =>
          let (phase, data) := body.start request world.data
          .ok (.moved, { world with data, holder := some thread }.goTo thread
            (.inside request phase))
      | _, _ => .error .waits
  | .work thread =>
      match world.place thread with
      | .inside request phase =>
          match body.small phase world.data with
          | .error error => .error (.fault error)
          | .ok (.next following, data) =>
              .ok (.moved, { world with data }.goTo thread (.inside request following))
          | .ok (.leave result, data) =>
              .ok (.returned thread request result,
                { world with data, holder := none }.goTo thread .away)
      | _ => .error .waits

end Steps

namespace Body

/-! ### A body on its own -/

section Alone

variable (body : Body Data Request Phase Result Error)

def Next (before after : Phase × Data) : Prop :=
  body.small before.1 before.2 = .ok (.next after.1, after.2)

/-- From here the body comes to its end, with this result and this data. -/
def Ends (state : Phase × Data) (result : Result) (after : Data) : Prop :=
  ∃ last, ReflTransGen body.Next state last ∧ body.small last.1 last.2 = .ok (.leave result, after)

/-- Calls one after another. -/
inductive Sequence (first : Data) : List (Request × Result) → Data → Prop where
  | none : Sequence first [] first
  | later {calls : List (Request × Result)} {data after : Data} {request : Request}
      {result : Result} (earlier : Sequence first calls data)
      (ends : body.Ends (body.start request data) result after) :
      Sequence first (calls ++ [(request, result)]) after

end Alone

variable {body : Body Data Request Phase Result Error} {state next : Phase × Data}
  {after : Data} {result : Result}

theorem Ends.leave {phase : Phase} {data : Data}
    (made : body.small phase data = .ok (.leave result, after)) :
    body.Ends (phase, data) result after :=
  ⟨(phase, data), .refl, made⟩

theorem Ends.of_path (path : ReflTransGen body.Next state next)
    (ends : body.Ends next result after) : body.Ends state result after := by
  obtain ⟨last, rest, left⟩ := ends
  exact ⟨last, path.trans rest, left⟩

theorem Ends.further {phase following : Phase} {data middle : Data}
    (made : body.small phase data = .ok (.next following, middle))
    (ends : body.Ends (following, middle) result after) : body.Ends (phase, data) result after := by
  have first : body.Next (phase, data) (following, middle) := made
  exact .of_path (.single first) ends

theorem Ends.cases (ends : body.Ends state result after) :
    body.small state.1 state.2 = .ok (.leave result, after) ∨
      ∃ next, body.Next state next ∧ body.Ends next result after := by
  obtain ⟨last, path, left⟩ := ends
  rcases path.cases_head with same | ⟨next, first, rest⟩
  · subst same
    exact Or.inl left
  · exact Or.inr ⟨next, first, last, rest, left⟩

theorem Ends.behind (ends : body.Ends state result after) (first : body.Next state next) :
    body.Ends next result after := by
  rcases ends.cases with left | ⟨other, same, rest⟩
  · rw [Next, left] at first
    cases first
  · rw [Next, first] at same
    obtain ⟨samePhase, sameData⟩ := Prod.mk.inj (Except.ok.inj same)
    have equal : next = other := Prod.ext (Round.next.inj samePhase) sameData
    exact equal ▸ rest

/-- A body does one thing only: from any place on its path it ends as it ends. -/
theorem Ends.rest (ends : body.Ends state result after)
    (path : ReflTransGen body.Next state next) : body.Ends next result after := by
  induction path with
  | refl => exact ends
  | tail _path last ih => exact ih.behind last

theorem Ends.unique {otherResult : Result} {other : Data} (ends : body.Ends state result after)
    (again : body.Ends state otherResult other) : otherResult = result ∧ other = after := by
  obtain ⟨last, path, left⟩ := ends
  rcases (again.rest path).cases with same | ⟨next, first, _rest⟩
  · rw [left] at same
    cases same
    exact ⟨rfl, rfl⟩
  · rw [Next, left] at first
    cases first

/-! ### Bodies of many threads -/

variable {Thread : Type}

/-- The one body that runs started where the calls before it have ended. -/
structure Orderly (body : Body Data Request Phase Result Error) (first : Data)
    (world : World Thread Data Request Phase) (calls : List (Request × Result)) : Prop where
  outside : ∀ thread request phase, world.place thread = .inside request phase →
    world.holder = some thread
  free : world.holder = none → body.Sequence first calls world.data
  held : ∀ thread, world.holder = some thread → ∃ request phase data,
    world.place thread = .inside request phase ∧ body.Sequence first calls data ∧
      ReflTransGen body.Next (body.start request data) (phase, world.data)

variable {first : Data} {world later : World Thread Data Request Phase}
  {calls : List (Request × Result)} {thread : Thread}

theorem start_orderly (body : Body Data Request Phase Result Error) (first : Data) :
    Orderly body first (World.start first : World Thread Data Request Phase) [] where
  outside := by
    intro thread request phase impossible
    cases impossible
  free := fun _free => .none
  held := by
    intro thread impossible
    cases impossible

/-- Every body comes to its end where the data is good, and leaves good data behind. -/
def Total (body : Body Data Request Phase Result Error) (Good : Data → Prop) : Prop :=
  ∀ data request, Good data → ∃ result after,
    body.Ends (body.start request data) result after ∧ Good after

variable {Good : Data → Prop}

theorem Sequence.good {data : Data} (sequence : body.Sequence first calls data)
    (total : body.Total Good) (initially : Good first) : Good data := by
  induction sequence with
  | none => exact initially
  | later _earlier ends ih =>
      obtain ⟨_result, _after, again, good⟩ := total _ _ ih
      exact (ends.unique again).2 ▸ good

theorem Orderly.reached (orderly : Orderly body first world calls) {request : Request}
    {phase : Phase} (inside : world.place thread = .inside request phase) :
    ∃ begun, body.Sequence first calls begun ∧
      ReflTransGen body.Next (body.start request begun) (phase, world.data) := by
  obtain ⟨asked, reached, begun, same, sequence, path⟩ :=
    orderly.held thread (orderly.outside thread request phase inside)
  rw [inside] at same
  cases same
  exact ⟨begun, sequence, path⟩

/-- The body that runs comes to its end. -/
theorem Orderly.ends (orderly : Orderly body first world calls) (total : body.Total Good)
    (initially : Good first) {request : Request} {phase : Phase}
    (inside : world.place thread = .inside request phase) :
    ∃ result after, body.Ends (phase, world.data) result after := by
  obtain ⟨begun, sequence, path⟩ := orderly.reached inside
  obtain ⟨result, after, ends, _good⟩ := total begun request (sequence.good total initially)
  exact ⟨result, after, ends.rest path⟩

/-! ### What holds at each phase -/

/-- What holds of the data between the calls, and at each phase of a call. -/
structure Keeps (body : Body Data Request Phase Result Error) (between : Data → Prop)
    (during : Phase → Data → Prop) : Prop where
  start : ∀ request data, between data →
    during (body.start request data).1 (body.start request data).2
  next : ∀ phase data following after, during phase data →
    body.small phase data = .ok (.next following, after) → during following after
  leave : ∀ phase data result after, during phase data →
    body.small phase data = .ok (.leave result, after) → between after

variable {between : Data → Prop} {during : Phase → Data → Prop}

theorem Keeps.path (keeps : body.Keeps between during) (path : ReflTransGen body.Next state next)
    (here : during state.1 state.2) : during next.1 next.2 := by
  induction path with
  | refl => exact here
  | tail _path last ih => exact keeps.next _ _ _ _ ih last

theorem Keeps.sequence (keeps : body.Keeps between during) (initially : between first) {data : Data}
    (sequence : body.Sequence first calls data) : between data := by
  induction sequence with
  | none => exact initially
  | later _earlier ends ih =>
      obtain ⟨last, path, left⟩ := ends
      exact keeps.leave _ _ _ _ (keeps.path path (keeps.start _ _ ih)) left

theorem Keeps.free (keeps : body.Keeps between during) (initially : between first)
    (orderly : Orderly body first world calls) (free : world.holder = none) : between world.data :=
  keeps.sequence initially (orderly.free free)

theorem Keeps.inside (keeps : body.Keeps between during) (initially : between first)
    (orderly : Orderly body first world calls) {request : Request} {phase : Phase}
    (inside : world.place thread = .inside request phase) : during phase world.data := by
  obtain ⟨_begun, sequence, path⟩ := orderly.reached inside
  exact keeps.path path (keeps.start _ _ (keeps.sequence initially sequence))

/-! ### The steps of the threads -/

theorem works_quiet (works : Nat) (thread other : Thread) (request : Request) :
    .call other request ∉ List.replicate works (Event.work thread) := by
  intro member
  cases List.eq_of_mem_replicate member

variable [DecidableEq Thread]

/-- A thread that is not inside comes or waits. -/
theorem Orderly.outer (orderly : Orderly body first world calls) {place : Place Request Phase}
    (before : ∀ request phase, world.place thread ≠ .inside request phase)
    (behind : ∀ request phase, place ≠ .inside request phase) :
    Orderly body first (world.goTo thread place) calls where
  outside := by
    intro other request phase inside
    by_cases same : other = thread
    · subst same
      rw [world.goTo_self] at inside
      exact absurd inside (behind request phase)
    · rw [world.goTo_other same] at inside
      exact orderly.outside other request phase inside
  free := orderly.free
  held := by
    intro other holds
    obtain ⟨request, phase, data, inside, rest⟩ := orderly.held other holds
    have different : other ≠ thread := by
      rintro rfl
      exact before request phase inside
    exact ⟨request, phase, data, (world.goTo_other different place).trans inside, rest⟩

theorem Orderly.locks (orderly : Orderly body first world calls) (free : world.holder = none)
    (request : Request) :
    Orderly body first ({ world with
      data := (body.start request world.data).2
      holder := some thread }.goTo thread
        (.inside request (body.start request world.data).1)) calls where
  outside := by
    intro other asked phase inside
    by_cases same : other = thread
    · subst same
      rfl
    · rw [World.goTo_other _ same] at inside
      have held := orderly.outside other asked phase inside
      rw [free] at held
      cases held
  free := by
    intro impossible
    cases impossible
  held := by
    intro other holds
    cases holds
    exact ⟨request, _, world.data, World.goTo_self .., orderly.free free, .refl⟩

theorem Orderly.works (orderly : Orderly body first world calls) {request : Request}
    {phase following : Phase} {data : Data} (inside : world.place thread = .inside request phase)
    (made : body.small phase world.data = .ok (.next following, data)) :
    Orderly body first ({ world with data }.goTo thread (.inside request following)) calls := by
  have holds := orderly.outside thread request phase inside
  constructor
  · intro other asked reached insideOther
    by_cases same : other = thread
    · subst same
      exact holds
    · rw [World.goTo_other _ same] at insideOther
      exact orderly.outside other asked reached insideOther
  · intro free
    have free : world.holder = none := free
    rw [holds] at free
    cases free
  · intro other holdsToo
    have holdsToo : world.holder = some other := holdsToo
    rw [holds] at holdsToo
    cases holdsToo
    obtain ⟨begun, sequence, path⟩ := orderly.reached inside
    exact ⟨request, following, begun, World.goTo_self .., sequence, path.tail made⟩

theorem Orderly.leaves (orderly : Orderly body first world calls) {request : Request}
    {phase : Phase} {data : Data} (inside : world.place thread = .inside request phase)
    (made : body.small phase world.data = .ok (.leave result, data)) :
    Orderly body first ({ world with data, holder := none }.goTo thread .away)
      (calls ++ [(request, result)]) := by
  have holds := orderly.outside thread request phase inside
  constructor
  · intro other asked reached insideOther
    by_cases same : other = thread
    · subst same
      rw [World.goTo_self] at insideOther
      cases insideOther
    · rw [World.goTo_other _ same] at insideOther
      have holdsToo := orderly.outside other asked reached insideOther
      rw [holds] at holdsToo
      exact absurd (Option.some.inj holdsToo).symm same
  · intro _free
    obtain ⟨_begun, sequence, path⟩ := orderly.reached inside
    exact .later sequence ⟨_, path, made⟩
  · intro other impossible
    cases impossible

theorem Orderly.step (orderly : Orderly body first world calls) {event : Event Thread Request}
    {reply : Reply Thread Request Result} (made : body.step world event = .ok (reply, later)) :
    Orderly body first later (calls ++ history [reply]) := by
  cases event with
  | call thread request =>
      simp only [Body.step] at made
      cases place : world.place thread with
      | away =>
          rw [place] at made
          cases made
          refine (List.append_nil calls).symm ▸ orderly.outer ?_ ?_
          · intro asked phase inside
            rw [place] at inside
            cases inside
          · intro asked phase impossible
            cases impossible
      | waiting asked =>
          rw [place] at made
          cases made
      | inside asked phase =>
          rw [place] at made
          cases made
  | lock thread =>
      simp only [Body.step] at made
      split at made
      · rename_i request _place free
        cases made
        exact (List.append_nil calls).symm ▸ orderly.locks free request
      · cases made
  | work thread =>
      simp only [Body.step] at made
      split at made
      · rename_i request phase inside
        split at made
        · cases made
        · rename_i following data worked
          cases made
          exact (List.append_nil calls).symm ▸ orderly.works inside worked
        · rename_i result data worked
          cases made
          exact orderly.leaves inside worked
      · cases made

theorem Orderly.onward (orderly : Orderly body first world calls)
    {events : List (Event Thread Request)} {replies : List (Reply Thread Request Result)}
    (ran : runCalls body.step world events = .ok (replies, later)) :
    Orderly body first later (calls ++ history replies) := by
  have one : ∀ (world : World Thread Data Request Phase) before event reply after,
      Orderly body first world (calls ++ history before) → True →
      body.step world event = .ok (reply, after) →
      Orderly body first after (calls ++ history (before ++ [reply])) := by
    intro world before event reply after orderly _any made
    rw [history, List.filterMap_append, ← List.append_assoc]
    exact orderly.step made
  have start : Orderly body first world (calls ++ history ([] : List (Reply Thread Request Result))) :=
    (List.append_nil calls).symm ▸ orderly
  exact runCalls_replies [] one start (runMeets_any events _) ran

/-- In every run the calls that have returned were made one after another. -/
theorem orderly_run {events : List (Event Thread Request)}
    {replies : List (Reply Thread Request Result)}
    (ran : runCalls body.step (.start first) events = .ok (replies, world)) :
    Orderly body first world (history replies) :=
  (start_orderly body first).onward ran

/-! ### Coming to an end -/

/-- No step of any thread meets a fault. -/
theorem Orderly.not_fault (orderly : Orderly body first world calls) (total : body.Total Good)
    (initially : Good first) (event : Event Thread Request) (error : Error) :
    body.step world event ≠ .error (.fault error) := by
  intro made
  cases event with
  | call thread request =>
      simp only [Body.step] at made
      split at made <;> cases made
  | lock thread =>
      simp only [Body.step] at made
      split at made <;> cases made
  | work thread =>
      simp only [Body.step] at made
      split at made
      · rename_i request phase inside
        obtain ⟨result, after, ends⟩ := orderly.ends total initially inside
        rcases ends.cases with left | ⟨next, first, _rest⟩
        · dsimp only at left
          rw [left] at made
          cases made
        · rw [Next] at first
          dsimp only at first
          rw [first] at made
          cases made
      · cases made

/-- Locks and small steps of threads that have begun bring the call to its return. -/
def CanReturn (body : Body Data Request Phase Result Error)
    (world : World Thread Data Request Phase) (thread : Thread) : Prop :=
  ∃ events replies after, runCalls body.step world events = .ok (replies, after) ∧
    (∀ other request, .call other request ∉ events) ∧ after.place thread = .away

theorem goTo_goTo (world : World Thread Data Request Phase) (thread : Thread)
    (first second : Place Request Phase) :
    (world.goTo thread first).goTo thread second = world.goTo thread second := by
  simp only [World.goTo, Function.update_idem]

/-- The thread inside goes through to its return and leaves the others where they are. -/
theorem Ends.runs (ends : body.Ends state result after) {request : Request}
    (inside : world.place thread = .inside request state.1) (same : world.data = state.2) :
    ∃ works replies, runCalls body.step world (List.replicate works (.work thread)) =
      .ok (replies, { world with data := after, holder := none }.goTo thread .away) := by
  obtain ⟨last, path, left⟩ := ends
  induction path using ReflTransGen.head_induction_on generalizing world with
  | refl =>
      have made : body.step world (.work thread) = .ok (.returned thread request result,
          { world with data := after, holder := none }.goTo thread .away) := by
        simp only [Body.step, inside, same, left]
      exact ⟨1, _, runCalls_cons made rfl⟩
  | @head here next first _rest ih =>
      have made : body.step world (.work thread) = .ok (.moved,
          { world with data := next.2 }.goTo thread (.inside request next.1)) := by
        rw [Next] at first
        simp only [Body.step, inside, same, first]
      let reached : World Thread Data Request Phase :=
        { world with data := next.2 }.goTo thread (.inside request next.1)
      have there : reached.place thread = .inside request next.1 := World.goTo_self ..
      have moved : reached.data = next.2 := rfl
      obtain ⟨works, replies, ran⟩ := ih there moved
      refine ⟨works + 1, .moved :: replies, runCalls_cons made (ran.trans ?_)⟩
      exact congrArg (fun world => Except.ok (replies, world))
        (goTo_goTo { world with data := after, holder := none } thread _ .away)

theorem CanReturn.of_run {events : List (Event Thread Request)}
    {replies : List (Reply Thread Request Result)}
    (ran : runCalls body.step world events = .ok (replies, later))
    (quiet : ∀ other request, .call other request ∉ events) (rest : body.CanReturn later thread) :
    body.CanReturn world thread := by
  obtain ⟨further, more, last, onward, quietToo, away⟩ := rest
  refine ⟨events ++ further, replies ++ more, last, runCalls_append ran onward, ?_, away⟩
  intro other request member
  rcases List.mem_append.mp member with before | behind
  · exact quiet other request before
  · exact quietToo other request behind

variable {first : Data} {calls : List (Request × Result)}

theorem Orderly.canReturn_inside (orderly : Orderly body first world calls)
    (total : body.Total Good) (initially : Good first) {request : Request} {phase : Phase}
    (inside : world.place thread = .inside request phase) : body.CanReturn world thread := by
  obtain ⟨result, after, ends⟩ := orderly.ends total initially inside
  obtain ⟨works, replies, ran⟩ := ends.runs inside rfl
  exact ⟨_, replies, _, ran, works_quiet works thread, World.goTo_self ..⟩

theorem Orderly.canReturn_free (orderly : Orderly body first world calls)
    (total : body.Total Good) (initially : Good first) (free : world.holder = none)
    {request : Request} (waits : world.place thread = .waiting request) :
    body.CanReturn world thread := by
  have made : body.step world (.lock thread) = .ok (.moved, { world with
      data := (body.start request world.data).2
      holder := some thread }.goTo thread
        (.inside request (body.start request world.data).1)) := by
    simp only [Body.step, waits, free]
  refine .of_run (runCalls_cons made (runCalls_nil _)) ?_
    ((orderly.step made).canReturn_inside total initially (World.goTo_self ..))
  intro other asked member
  cases List.mem_singleton.mp member

/-- A thread that waits lets the one inside return first. -/
theorem Orderly.canReturn (orderly : Orderly body first world calls) (total : body.Total Good)
    (initially : Good first) (begun : world.place thread ≠ .away) :
    body.CanReturn world thread := by
  cases place : world.place thread with
  | away => exact absurd place begun
  | inside request phase => exact orderly.canReturn_inside total initially place
  | waiting request =>
      cases holder : world.holder with
      | none => exact orderly.canReturn_free total initially holder place
      | some other =>
          obtain ⟨asked, phase, _data, inside, _rest⟩ := orderly.held other holder
          obtain ⟨result, after, ends⟩ := orderly.ends total initially inside
          obtain ⟨works, replies, ran⟩ := ends.runs inside rfl
          have different : thread ≠ other := by
            rintro rfl
            rw [place] at inside
            cases inside
          exact .of_run ran (works_quiet works other)
            ((orderly.onward ran).canReturn_free total initially rfl
              ((World.goTo_other _ different _).trans place))

end Body

end Aesd.LockedSections
