/-
Loading, using and unloading the module.

aesd_init_module registers a device number, sets the device up and adds it;
aesd_cleanup_module frees what the device holds and takes both registrations
back.  However often this happens and whatever fails, nothing stays registered
behind an unloaded module, and every life of the module starts with an empty
command store.
-/

import Aesd.Driver.BlockOwnership
import Aesd.Driver.CommandStore

set_option autoImplicit false

namespace Aesd.Driver

open BlockHeap BoundedLoop CallRun KernelMemory RecentWindow AesdCircularBuffer

/-- The kernel's answers to alloc_chrdev_region, with the major number it
picked, and to cdev_add. -/
structure LoadOutcome where
  region : Int
  major : Nat
  cdev : Int
  region_le : region ≤ 0
  cdev_le : cdev ≤ 0

inductive ModuleEvent where
  | insmod (outcome : LoadOutcome)
  | rmmod
  | openFile (file : Nat)
  | release (file : Nat)
  | call (call : Call)

/-- Why the kernel's side of the module does not go on. -/
inductive ModuleStop where
  | notNow
  | notRegistered (major : Nat)
  | fault (fault : Fault)
  deriving DecidableEq, Repr

/-- `registered` are the device numbers of all drivers, by their majors, and
`cdevs` those at which this driver's device was added. -/
structure ModuleHost where
  machine : Machine
  aesdMajor : Nat
  registered : List Nat
  cdevs : List Nat
  loaded : Bool
  opened : List Nat

def Call.file : Call → Nat
  | .write call => call.file
  | .read call => call.file
  | .llseek file _ _ => file
  | .ioctl file _ _ _ => file

/-- Both return 0 and do nothing else. -/
def aesdOpen : Int := 0
def aesdRelease : Int := 0

namespace ModuleHost

def booted (others : List Nat) (fPos : Nat → Int) : ModuleHost where
  machine := .unloaded fPos
  aesdMajor := 0
  registered := others
  cdevs := []
  loaded := false
  opened := []

/-- unregister_chrdev_region and cdev_del, of a number that must be there. -/
def withdraw (majors : List Nat) (major : Nat) : Except ModuleStop (List Nat) :=
  if major ∈ majors then .ok (majors.erase major) else .error (.notRegistered major)

/-- aesd_init_module, with aesd_setup_cdev. -/
def initModule (host : ModuleHost) (outcome : LoadOutcome) :
    Except ModuleStop (Int × ModuleHost) :=
  let (result, machine) := host.machine.aesdInitModule outcome.region outcome.cdev
  if outcome.region < 0 then .ok (result, { host with machine, aesdMajor := 0 })
  else do
    let host := { host with
      machine
      aesdMajor := outcome.major
      registered := outcome.major :: host.registered }
    if result ≠ 0 then do
      let registered ← withdraw host.registered outcome.major
      return (result, { host with registered })
    else return (result, { host with cdevs := outcome.major :: host.cdevs })

/-- aesd_cleanup_module. -/
def cleanupModule (host : ModuleHost) : Except ModuleStop ModuleHost := do
  let machine ← match host.machine.aesdCleanupModule with
    | .error fault => .error (ModuleStop.fault fault)
    | .ok machine => .ok machine
  let cdevs ← withdraw host.cdevs host.aesdMajor
  let registered ← withdraw host.registered host.aesdMajor
  return { host with machine, cdevs, registered }

/-- The kernel picks a free major, unloads a module only when no file of it is
open, and passes on the calls of open files. -/
def step (host : ModuleHost) : ModuleEvent → Except ModuleStop (Reply × ModuleHost)
  | .insmod outcome =>
      if host.loaded ∨ (0 ≤ outcome.region ∧ outcome.major ∈ host.registered) then .error .notNow
      else do
        let (result, host) ← host.initModule outcome
        return (⟨result, []⟩, { host with loaded := decide (0 ≤ result) })
  | .rmmod =>
      if ¬host.loaded ∨ host.opened ≠ [] then .error .notNow
      else do
        let host ← host.cleanupModule
        return (⟨0, []⟩, { host with loaded := false })
  | .openFile file =>
      if ¬host.loaded ∨ file ∈ host.opened then .error .notNow
      else .ok (⟨aesdOpen, []⟩,
        { host with machine := host.machine.setFPos file 0, opened := file :: host.opened })
  | .release file =>
      if ¬host.loaded ∨ file ∉ host.opened then .error .notNow
      else .ok (⟨aesdRelease, []⟩, { host with opened := host.opened.erase file })
  | .call call =>
      if ¬host.loaded ∨ call.file ∉ host.opened then .error .notNow
      else
        match host.machine.call call with
        | .error fault => .error (.fault fault)
        | .ok (reply, machine) => .ok (reply, { host with machine })

def run (host : ModuleHost) (events : List ModuleEvent) :
    Except ModuleStop (List Reply × ModuleHost) :=
  runCalls step host events

end ModuleHost

/-! ### What the users of the module see -/

/-- A command store that is there while the module is loaded, and empty otherwise. -/
structure ModuleView where
  store : CommandStore
  loaded : Bool
  opened : List Nat

namespace ModuleView

def initial (fPos : Nat → Int) : ModuleView where
  store := .empty fPos
  loaded := false
  opened := []

def step (others : List Nat) (view : ModuleView) :
    Bool × ModuleEvent → Except ModuleStop (Reply × ModuleView)
  | (_, .insmod outcome) =>
      if view.loaded ∨ (0 ≤ outcome.region ∧ outcome.major ∈ others) then .error .notNow
      else if outcome.region < 0 then .ok (⟨outcome.region, []⟩, view)
      else if outcome.cdev < 0 then .ok (⟨outcome.cdev, []⟩, view)
      else .ok (⟨0, []⟩, { view with loaded := true })
  | (_, .rmmod) =>
      if ¬view.loaded ∨ view.opened ≠ [] then .error .notNow
      else .ok (⟨0, []⟩, { view with store := .empty view.store.fPos, loaded := false })
  | (_, .openFile file) =>
      if ¬view.loaded ∨ file ∈ view.opened then .error .notNow
      else .ok (⟨0, []⟩,
        { view with store := view.store.setFPos file 0, opened := file :: view.opened })
  | (_, .release file) =>
      if ¬view.loaded ∨ file ∉ view.opened then .error .notNow
      else .ok (⟨0, []⟩, { view with opened := view.opened.erase file })
  | (granted, .call call) =>
      if ¬view.loaded ∨ call.file ∉ view.opened then .error .notNow
      else
        match view.store.call (granted, call) with
        | .error fault => .error (.fault fault)
        | .ok (reply, store) => .ok (reply, { view with store })

def run (others : List Nat) (view : ModuleView) (requests : List (Bool × ModuleEvent)) :
    Except ModuleStop (List Reply × ModuleView) :=
  runCalls (step others) view requests

end ModuleView

/-! ### One life after another -/

/-- Between two lives only lost blocks are left. -/
structure Resting (machine : Machine) (store : CommandStore) : Prop where
  accounts : ∃ lost, machine.heap.Accounts lost
  room : machine.heap.used < 2 ^ 63
  empty : store = .empty machine.fPos

structure Hosted (others : List Nat) (host : ModuleHost) (view : ModuleView) : Prop where
  sameLoaded : host.loaded = view.loaded
  sameOpened : host.opened = view.opened
  registered : host.registered = if host.loaded then host.aesdMajor :: others else others
  cdevs : host.cdevs = if host.loaded then [host.aesdMajor] else []
  living : host.loaded = true → Refines host.machine view.store
  resting : host.loaded = false → Resting host.machine view.store

section Life

variable {others : List Nat} {host : ModuleHost} {view : ModuleView} {machine : Machine}
  {store : CommandStore}

theorem booted_hosted (others : List Nat) (fPos : Nat → Int) :
    Hosted others (.booted others fPos) (.initial fPos) where
  sameLoaded := rfl
  sameOpened := rfl
  registered := rfl
  cdevs := rfl
  living := fun impossible => (nomatch impossible)
  resting := fun _unloaded => ⟨⟨[], Heap.accounts_empty⟩, Nat.two_pow_pos 63, rfl⟩

/-- aesd_init_module forgets what the device held before. -/
theorem Resting.init (resting : Resting machine store) {cdev region : Int}
    (registered : ¬region < 0) : Refines (machine.aesdInitModule region cdev).2 store := by
  obtain ⟨⟨lost, accounts⟩, room, rfl⟩ := resting
  rw [Machine.aesdInitModule, if_neg registered]
  refine ⟨⟨[], lost, ⟨⟨init_holds, .nil, Or.inl ⟨rfl, rfl⟩, accounts, ?_, ?_, room⟩, rfl⟩⟩, rfl, rfl⟩
  · exact List.forall_mem_nil _
  · exact Nat.two_pow_pos 62

/-- A device that could not be added is at rest again. -/
theorem Resting.init_failed (resting : Resting machine store) (cdev region : Int) :
    Resting (machine.aesdInitModule region cdev).2 store := by
  unfold Machine.aesdInitModule
  split
  · exact resting
  · exact ⟨resting.accounts, resting.room, resting.empty⟩

/-! ### Unloading -/

theorem kfree_used {heap after : Heap Byte} {buffptr : Option Nat}
    (freed : kfree heap buffptr = .ok after) : after.used ≤ heap.used := by
  unfold kfree at freed
  split at freed
  · cases freed
    exact le_refl _
  · split at freed
    · cases freed
    · cases freed
      exact Heap.used_release_le _ _

/-- Freeing takes no room and moves no file. -/
def FreedFrom (machine after : Machine) : Prop :=
  after.heap.used ≤ machine.heap.used ∧ after.fPos = machine.fPos

theorem cleanupSlot_freed {ringCount i : Nat} {after : Machine}
    (cleared : Machine.cleanupSlot ringCount machine i = .ok after) : FreedFrom machine after := by
  unfold Machine.cleanupSlot at cleared
  split at cleared
  · cases cleared
  · obtain ⟨entry, _found, onward⟩ := ok_of_bind cleared
    obtain ⟨heap, freed, onward⟩ := ok_of_bind onward
    obtain ⟨buffer, _set, same⟩ := ok_of_bind onward
    cases same
    exact ⟨kfree_used freed, rfl⟩

theorem cleanupSlots_freed {ringCount : Nat} (slots : List Nat) {machine after : Machine}
    (cleared : slots.foldlM (Machine.cleanupSlot ringCount) machine = .ok after) :
    FreedFrom machine after := by
  induction slots generalizing machine with
  | nil =>
      cases cleared
      exact ⟨le_refl _, rfl⟩
  | cons slot slots ih =>
      rw [List.foldlM_cons] at cleared
      obtain ⟨middle, first, rest⟩ := ok_of_bind cleared
      obtain ⟨less, samePos⟩ := cleanupSlot_freed first
      obtain ⟨lesser, stillSame⟩ := ih rest
      exact ⟨Nat.le_trans lesser less, stillSame.trans samePos⟩

theorem aesdCleanupModule_freed {after : Machine}
    (cleaned : machine.aesdCleanupModule = .ok after) : FreedFrom machine after := by
  obtain ⟨heap, freed, rest⟩ := ok_of_bind cleaned
  obtain ⟨lesser, samePos⟩ := cleanupSlots_freed _ rest
  exact ⟨Nat.le_trans lesser (kfree_used freed), samePos⟩

theorem Refines.cleanup (refines : Refines machine store) :
    ∃ cleaned, machine.aesdCleanupModule = .ok cleaned ∧
      Resting cleaned (.empty store.fPos) := by
  obtain ⟨entries, lost, settled⟩ := refines.settled
  obtain ⟨cleaned, ran, accounts⟩ := settled.toLedger.cleanup_spec
  obtain ⟨less, samePos⟩ := aesdCleanupModule_freed ran
  refine ⟨cleaned, ran, ⟨lost, accounts⟩, Nat.lt_of_le_of_lt less settled.room, ?_⟩
  rw [samePos, refines.samePos]

theorem withdraw_own (major : Nat) (majors : List Nat) :
    ModuleHost.withdraw (major :: majors) major = .ok majors := by
  rw [ModuleHost.withdraw, if_pos List.mem_cons_self, List.erase_cons_head]

/-! ### Steps -/

theorem Hosted.insmod (hosted : Hosted others host view) (granted : Bool)
    (outcome : LoadOutcome) :
    Alike (Hosted others) (host.step (.insmod outcome))
      (view.step others (granted, .insmod outcome)) := by
  have guard : (host.loaded = true ∨ (0 ≤ outcome.region ∧ outcome.major ∈ host.registered)) ↔
      (view.loaded = true ∨ (0 ≤ outcome.region ∧ outcome.major ∈ others)) := by
    rw [← hosted.sameLoaded]
    by_cases loaded : host.loaded = true
    · exact iff_of_true (Or.inl loaded) (Or.inl loaded)
    · rw [hosted.registered, if_neg loaded]
  simp only [ModuleHost.step, ModuleView.step, guard]
  by_cases blocked : view.loaded = true ∨ (0 ≤ outcome.region ∧ outcome.major ∈ others)
  · rw [if_pos blocked, if_pos blocked]
    exact .stopped _
  rw [if_neg blocked, if_neg blocked]
  have unloaded : host.loaded = false := by
    rw [hosted.sameLoaded]
    exact Bool.eq_false_iff.mpr (fun loaded => blocked (Or.inl loaded))
  have resting := hosted.resting unloaded
  have registered := hosted.registered
  have cdevs := hosted.cdevs
  rw [if_neg (Bool.eq_false_iff.mp unloaded)] at registered cdevs
  -- What a load that fails leaves behind.
  have failed : ∀ (aesdMajor : Nat) (machine : Machine), Resting machine view.store →
      Hosted others { host with machine, aesdMajor, loaded := false } view := by
    intro aesdMajor machine still
    refine ⟨unloaded ▸ hosted.sameLoaded, hosted.sameOpened, registered, cdevs, ?_,
      fun _unloaded => still⟩
    intro impossible
    cases impossible
  have stays := resting.init_failed outcome.cdev outcome.region
  by_cases refused : outcome.region < 0
  · have result : (host.machine.aesdInitModule outcome.region outcome.cdev).1 = outcome.region := by
      rw [Machine.aesdInitModule, if_pos refused]
    simp only [ModuleHost.initModule, if_pos refused, ok_bind, result]
    rw [decide_eq_false (Int.not_le.mpr refused)]
    exact .answered _ (failed 0 _ stays)
  have result : (host.machine.aesdInitModule outcome.region outcome.cdev).1 = outcome.cdev := by
    rw [Machine.aesdInitModule, if_neg refused]
  by_cases absent : outcome.cdev < 0
  · have nonzero : outcome.cdev ≠ 0 := Int.ne_of_lt absent
    simp only [ModuleHost.initModule, if_neg refused, result, if_pos nonzero, withdraw_own,
      ok_bind, pure_bind, if_pos absent]
    rw [decide_eq_false (Int.not_le.mpr absent)]
    exact .answered _ (failed outcome.major _ stays)
  · have zero : outcome.cdev = 0 := Int.le_antisymm outcome.cdev_le (Int.not_lt.mp absent)
    have made : Refines (host.machine.aesdInitModule outcome.region outcome.cdev).2 view.store :=
      resting.init refused
    have succeeded := result.trans zero
    simp only [ModuleHost.initModule, if_neg refused, succeeded, ne_eq, not_true_eq_false,
      if_false, pure_bind, if_neg absent]
    refine .answered _ ⟨rfl, hosted.sameOpened, ?_, ?_, fun _loaded => made, ?_⟩
    · exact congrArg (outcome.major :: ·) registered
    · exact congrArg (outcome.major :: ·) cdevs
    · intro impossible
      cases impossible

theorem Hosted.rmmod (hosted : Hosted others host view) (granted : Bool) :
    Alike (Hosted others) (host.step .rmmod) (view.step others (granted, .rmmod)) := by
  simp only [ModuleHost.step, ModuleView.step, hosted.sameLoaded, hosted.sameOpened]
  by_cases blocked : ¬view.loaded = true ∨ view.opened ≠ []
  · rw [if_pos blocked, if_pos blocked]
    exact .stopped _
  rw [if_neg blocked, if_neg blocked]
  have loaded : host.loaded = true := by
    rw [hosted.sameLoaded]
    exact not_not.mp (fun unloaded => blocked (Or.inl unloaded))
  obtain ⟨cleaned, ran, resting⟩ := (hosted.living loaded).cleanup
  have registered := hosted.registered
  have cdevs := hosted.cdevs
  rw [if_pos loaded] at registered cdevs
  simp only [ModuleHost.cleanupModule, ran, ok_bind, cdevs, registered, withdraw_own]
  refine .answered _ ⟨rfl, hosted.sameOpened, rfl, rfl, ?_, fun _unloaded => ?_⟩
  · intro impossible
    cases impossible
  · exact ⟨resting.accounts, resting.room, by rw [← resting.empty]⟩

theorem Hosted.openFile (hosted : Hosted others host view) (granted : Bool) (file : Nat) :
    Alike (Hosted others) (host.step (.openFile file)) (view.step others (granted, .openFile file)) := by
  obtain ⟨sameLoaded, sameOpened, registered, cdevs, living, resting⟩ := hosted
  have guard : (¬host.loaded = true ∨ file ∈ host.opened) ↔
      (¬view.loaded = true ∨ file ∈ view.opened) := by
    rw [sameLoaded, sameOpened]
  simp only [ModuleHost.step, ModuleView.step, guard]
  by_cases blocked : ¬view.loaded = true ∨ file ∈ view.opened
  · rw [if_pos blocked, if_pos blocked]
    exact .stopped _
  rw [if_neg blocked, if_neg blocked]
  refine .answered _ ⟨sameLoaded, congrArg (file :: ·) sameOpened, registered, cdevs, ?_, ?_⟩
  · intro loaded
    exact (living loaded).setFPos file 0
  · intro unloaded
    exact absurd (Or.inl (by rw [← sameLoaded, unloaded]; exact Bool.false_ne_true)) blocked

theorem Hosted.release (hosted : Hosted others host view) (granted : Bool) (file : Nat) :
    Alike (Hosted others) (host.step (.release file)) (view.step others (granted, .release file)) := by
  obtain ⟨sameLoaded, sameOpened, registered, cdevs, living, resting⟩ := hosted
  have guard : (¬host.loaded = true ∨ file ∉ host.opened) ↔
      (¬view.loaded = true ∨ file ∉ view.opened) := by
    rw [sameLoaded, sameOpened]
  simp only [ModuleHost.step, ModuleView.step, guard]
  by_cases blocked : ¬view.loaded = true ∨ file ∉ view.opened
  · rw [if_pos blocked, if_pos blocked]
    exact .stopped _
  · rw [if_neg blocked, if_neg blocked]
    exact .answered _ ⟨sameLoaded, congrArg (·.erase file) sameOpened, registered, cdevs, living,
      resting⟩

theorem Hosted.passCall (hosted : Hosted others host view) (call : Call) :
    ∃ granted, Alike (Hosted others) (host.step (.call call))
      (view.step others (granted, .call call)) := by
  obtain ⟨sameLoaded, sameOpened, registered, cdevs, living, resting⟩ := hosted
  have guard : (¬host.loaded = true ∨ call.file ∉ host.opened) ↔
      (¬view.loaded = true ∨ call.file ∉ view.opened) := by
    rw [sameLoaded, sameOpened]
  simp only [ModuleHost.step, ModuleView.step, guard]
  by_cases blocked : ¬view.loaded = true ∨ call.file ∉ view.opened
  · refine ⟨true, ?_⟩
    rw [if_pos blocked, if_pos blocked]
    exact .stopped _
  have loaded : host.loaded = true := by
    rw [sameLoaded]
    exact not_not.mp (fun unloaded => blocked (Or.inl unloaded))
  obtain ⟨⟨granted, other⟩, same, alike⟩ := (living loaded).call call
  change other = call at same
  subst same
  refine ⟨granted, ?_⟩
  rw [if_neg blocked, if_neg blocked]
  generalize host.machine.call other = mine at alike ⊢
  generalize view.store.call (granted, other) = theirs at alike ⊢
  cases alike with
  | stopped fault => exact .stopped _
  | answered reply refines =>
      refine .answered reply ⟨sameLoaded, sameOpened, registered, cdevs, fun _loaded => refines, ?_⟩
      intro unloaded
      exact absurd (loaded.symm.trans unloaded) Bool.true_eq_false.mp

theorem Hosted.step (hosted : Hosted others host view) (event : ModuleEvent) :
    ∃ request : Bool × ModuleEvent, request.2 = event ∧
      Alike (Hosted others) (host.step event) (view.step others request) := by
  cases event with
  | insmod outcome => exact ⟨(true, _), rfl, hosted.insmod true outcome⟩
  | rmmod => exact ⟨(true, _), rfl, hosted.rmmod true⟩
  | openFile file => exact ⟨(true, _), rfl, hosted.openFile true file⟩
  | release file => exact ⟨(true, _), rfl, hosted.release true file⟩
  | call call =>
      obtain ⟨granted, alike⟩ := hosted.passCall call
      exact ⟨(granted, _), rfl, alike⟩

end Life

/-- Whatever is loaded, opened, called and unloaded, and whatever fails in
between, the module behaves as a store that is empty at each load, it takes
back nothing that is not registered, and behind a failed load or an unload
only the other drivers' numbers are left. -/
theorem module_lives_are_fresh (others : List Nat) (fPos : Nat → Int)
    (events : List ModuleEvent) :
    ∃ requests : List (Bool × ModuleEvent), requests.map Prod.snd = events ∧
      ((ModuleHost.booted others fPos).run events).map Prod.fst =
        ((ModuleView.initial fPos).run others requests).map Prod.fst ∧
      ∀ replies host, (ModuleHost.booted others fPos).run events = .ok (replies, host) →
        host.registered = (if host.loaded then host.aesdMajor :: others else others) ∧
        host.cdevs = (if host.loaded then [host.aesdMajor] else []) ∧
        ∃ view, (ModuleView.initial fPos).run others requests = .ok (replies, view) ∧
          view.loaded = host.loaded ∧
          (host.loaded = true → host.machine.storedCommands = view.store.visible ∧
            host.machine.pendingBytes = view.store.pending) := by
  let Answers (event : ModuleEvent) (request : Bool × ModuleEvent) : Prop := request.2 = event
  have one : ∀ host view event, Hosted others host view → ∃ request, Answers event request ∧
      Alike (Hosted others) (host.step event) (view.step others request) :=
    fun _host _view event hosted => Hosted.step hosted event
  obtain ⟨requests, same, alike⟩ := runCalls_alike one events (booted_hosted others fPos)
  refine ⟨requests, ?_, alike.replies_eq, ?_⟩
  · exact matching_map same
  intro replies host ran
  unfold ModuleHost.run at ran
  rw [ran] at alike
  obtain ⟨view, matched, hosted⟩ := alike.of_ok
  refine ⟨hosted.registered, hosted.cdevs, view, matched, hosted.sameLoaded.symm, ?_⟩
  intro loaded
  obtain ⟨entries, lost, settled⟩ := (hosted.living loaded).settled
  exact ⟨settled.toLedger.storedCommands_eq, settled.toLedger.pendingBytes_eq⟩

end Aesd.Driver
