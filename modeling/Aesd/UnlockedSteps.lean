/-
Steps on the data of locked calls that take no lock.

They may come in anywhere, also while a call is inside.  Where they change only
what the bodies do not look at, the locked calls run as they would without them.
-/

import Aesd.LockedSections
import Mathlib.Data.List.ReduceOption

set_option autoImplicit false

namespace Aesd.UnlockedSteps

open BoundedLoop CallRun LockedSections

variable {Thread Data Request Phase Result Error Move Local : Type}

/-- `locals` is what the steps without the lock have for themselves. -/
structure Mixed (Thread Data Request Phase Local : Type) where
  world : World Thread Data Request Phase
  locals : Local

inductive MixedEvent (Thread Request Move : Type) where
  | locked (event : Event Thread Request)
  | unlocked (move : Move)

def MixedEvent.locked? : MixedEvent Thread Request Move → Option (Event Thread Request)
  | .locked event => some event
  | .unlocked _move => none

def lockedOf (events : List (MixedEvent Thread Request Move)) : List (Event Thread Request) :=
  events.filterMap MixedEvent.locked?

theorem lockedOf_append (first second : List (MixedEvent Thread Request Move)) :
    lockedOf (first ++ second) = lockedOf first ++ lockedOf second :=
  List.filterMap_append ..

theorem lockedOf_singleton (event : MixedEvent Thread Request Move) :
    lockedOf [event] = event.locked?.toList := by
  cases event <;> rfl

/-- The same world with other data. -/
def mapData (view : Data → Data) (world : World Thread Data Request Phase) :
    World Thread Data Request Phase :=
  { world with data := view world.data }

section Steps

variable [DecidableEq Thread]

/-- A step of a locked call, or one without the lock. -/
def mixedStep (body : Body Data Request Phase Result Error)
    (unlocked : Move → Local → Data → Except Error (Local × Data))
    (mixed : Mixed Thread Data Request Phase Local) :
    MixedEvent Thread Request Move → Except (Halt Error)
      (Option (Reply Thread Request Result) × Mixed Thread Data Request Phase Local)
  | .locked event => do
      let (reply, world) ← body.step mixed.world event
      return (some reply, { mixed with world })
  | .unlocked move =>
      match unlocked move mixed.locals mixed.world.data with
      | .error error => .error (.fault error)
      | .ok (locals, data) => .ok (none, ⟨{ mixed.world with data }, locals⟩)

end Steps

/-- The bodies do not look at what `view` forgets. -/
structure Blind (body : Body Data Request Phase Result Error) (view : Data → Data) : Prop where
  start : ∀ request data, body.start request (view data) =
    ((body.start request data).1, view (body.start request data).2)
  small : ∀ phase data, body.small phase (view data) =
    (body.small phase data).map (Prod.map id view)

/-- What a step without the lock changes, `view` forgets. -/
def Quiet (unlocked : Move → Local → Data → Except Error (Local × Data)) (view : Data → Data) :
    Prop :=
  ∀ move locals data after reached, unlocked move locals data = .ok (after, reached) →
    view reached = view data

section Rules

variable [DecidableEq Thread] {body : Body Data Request Phase Result Error}
  {unlocked : Move → Local → Data → Except Error (Local × Data)} {view : Data → Data}
  {mixed after : Mixed Thread Data Request Phase Local}

theorem Blind.step (blind : Blind body view) (world : World Thread Data Request Phase)
    (event : Event Thread Request) :
    body.step (mapData view world) event = (body.step world event).map (Prod.map id (mapData view)) := by
  cases event with
  | call thread request =>
      simp only [Body.step, mapData]
      cases world.place thread <;> rfl
  | lock thread =>
      simp only [Body.step, mapData, blind.start]
      cases world.place thread with
      | waiting request => cases world.holder <;> rfl
      | _ => rfl
  | work thread =>
      simp only [Body.step, mapData]
      cases world.place thread with
      | inside request phase =>
          simp only [blind.small]
          cases body.small phase world.data with
          | error error => rfl
          | ok answer =>
              obtain ⟨round, data⟩ := answer
              cases round <;> rfl
      | _ => rfl

/-- The world of the locked calls after a step of either kind. -/
theorem Blind.mixed_step (blind : Blind body view) (quiet : Quiet unlocked view)
    {event : MixedEvent Thread Request Move} {reply : Option (Reply Thread Request Result)}
    (made : mixedStep body unlocked mixed event = .ok (reply, after)) :
    runCalls body.step (mapData view mixed.world) event.locked?.toList =
      .ok (reply.toList, mapData view after.world) := by
  cases event with
  | locked event =>
      obtain ⟨⟨answer, world⟩, here, same⟩ := ok_of_bind made
      cases same
      refine runCalls_cons ?_ (runCalls_nil _)
      rw [blind.step, here]
      rfl
  | unlocked move =>
      simp only [mixedStep] at made
      split at made
      · cases made
      · rename_i locals data moved
        cases made
        simp only [MixedEvent.locked?, Option.toList_none, runCalls_nil, mapData,
          quiet _ _ _ _ _ moved]

/-- The locked calls run as they would without the other steps. -/
theorem Blind.mixed_run (blind : Blind body view) (quiet : Quiet unlocked view)
    {events : List (MixedEvent Thread Request Move)}
    {replies : List (Option (Reply Thread Request Result))}
    (ran : runCalls (mixedStep body unlocked) mixed events = .ok (replies, after)) :
    runCalls body.step (mapData view mixed.world) (lockedOf events) =
      .ok (replies.reduceOption, mapData view after.world) := by
  let Projected (reached : Mixed Thread Data Request Phase Local)
      (earlier : List (MixedEvent Thread Request Move))
      (before : List (Option (Reply Thread Request Result))) : Prop :=
    runCalls body.step (mapData view mixed.world) (lockedOf earlier) =
      .ok (before.reduceOption, mapData view reached.world)
  have one : ∀ reached earlier before event reply following, Projected reached earlier before →
      True → mixedStep body unlocked reached event = .ok (reply, following) →
      Projected following (earlier ++ [event]) (before ++ [reply]) := by
    intro reached earlier before event reply following projected _any made
    have whole := runCalls_append projected (blind.mixed_step quiet made)
    change runCalls _ _ (lockedOf (earlier ++ [event])) = .ok ((before ++ [reply]).reduceOption, _)
    rw [lockedOf_append, lockedOf_singleton, List.reduceOption_append, List.reduceOption_singleton]
    exact whole
  have start : Projected mixed [] [] := rfl
  exact runCalls_traces [] [] one start (runMeets_any events mixed) ran

variable {first : Data} {calls : List (Request × Result)} {Good : Data → Prop}

theorem Blind.orderly_step (blind : Blind body view) (quiet : Quiet unlocked view)
    (orderly : body.Orderly first (mapData view mixed.world) calls)
    {event : MixedEvent Thread Request Move} {reply : Option (Reply Thread Request Result)}
    (made : mixedStep body unlocked mixed event = .ok (reply, after)) :
    ∃ later, body.Orderly first (mapData view after.world) later :=
  ⟨_, orderly.onward (blind.mixed_step quiet made)⟩

/-- No step of a locked call meets a fault. -/
theorem Blind.not_fault (blind : Blind body view)
    (orderly : body.Orderly first (mapData view mixed.world) calls) (total : body.Total Good)
    (initially : Good first) (event : Event Thread Request) (error : Error) :
    mixedStep body unlocked mixed (.locked event) ≠ .error (.fault error) := by
  intro made
  apply orderly.not_fault total initially event error
  rw [blind.step]
  cases here : body.step mixed.world event with
  | error halt =>
      simp only [mixedStep, here, error_bind] at made
      cases made
      rfl
  | ok answer =>
      simp only [mixedStep, here, ok_bind] at made
      cases made

end Rules

end Aesd.UnlockedSteps
