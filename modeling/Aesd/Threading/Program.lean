/-
The threads of examples/threading: each waits, obtains its mutex, holds it for
a while and gives it back.

Any number of threads on any mutexes take one step at a time, in any order, and
any call may fail.  How long a usleep takes is left open.  The caller gets the
thread_data from pthread_join and frees it.
-/

import Aesd.CallRun

set_option autoImplicit false

namespace Aesd.Threading

open BoundedLoop CallRun

/-- Where threadfunc is: the call it makes next. -/
inductive Place where
  | notCreated
  | obtaining
  | locking
  | releasing
  | unlocking
  | returned
  deriving DecidableEq, Repr

/-- struct thread_data, and where its thread is.  malloc leaves
`threadCompleteSuccess` as it is. -/
structure ThreadData where
  mutex : Nat
  waitToObtainMs : Int32
  waitToReleaseMs : Int32
  threadCompleteSuccess : Option Bool
  place : Place
  freed : Bool
  deriving DecidableEq, Repr

/-- Between pthread_mutex_lock and pthread_mutex_unlock. -/
def ThreadData.Inside (thread : ThreadData) : Prop :=
  thread.place = .releasing ∨ thread.place = .unlocking

/-- The first usleep is behind the thread. -/
def ThreadData.Begun (thread : ThreadData) : Prop :=
  thread.place ≠ .notCreated ∧ thread.place ≠ .obtaining

theorem ThreadData.begun_at {thread : ThreadData} (place : Place) (there : thread.place = place)
    (created : place ≠ .notCreated) (waited : place ≠ .obtaining) : thread.Begun := by
  subst there
  exact ⟨created, waited⟩

/-- All thread_data that was allocated, and which thread has which mutex. -/
structure Program where
  threads : List ThreadData
  holder : Nat → Option Nat

/-- What threadfunc calls. -/
inductive LibraryCall where
  | usleep (usec : UInt32)
  | pthreadMutexLock (mutex : Nat)
  | pthreadMutexUnlock (mutex : Nat)
  deriving DecidableEq, Repr

/-- usleep takes an unsigned number. -/
def microseconds (ms : Int32) : UInt32 := (ms * 1000).toUInt32

/-- `done` tells whether the next call of the thread succeeds. -/
inductive Event where
  | start (mutex : Nat) (waitToObtainMs waitToReleaseMs : Int32) (allocated created : Bool)
  | thread (id : Nat) (done : Bool)
  | join (id : Nat)
  deriving DecidableEq, Repr

/-- What start_thread_obtaining_mutex returns, the call that a thread has made, or
what the joined thread says of its success. -/
inductive Reply where
  | started (ret : Bool)
  | made (call : LibraryCall)
  | joined (threadCompleteSuccess : Option Bool)
  deriving DecidableEq, Repr

/-- Wait, obtain the mutex, hold it, release it. -/
def script (mutex : Nat) (waitToObtainMs waitToReleaseMs : Int32) : List LibraryCall :=
  [.usleep (microseconds waitToObtainMs), .pthreadMutexLock mutex,
    .usleep (microseconds waitToReleaseMs), .pthreadMutexUnlock mutex]

/-- What thread_data describes. -/
def ThreadData.described (thread : ThreadData) : List LibraryCall :=
  script thread.mutex thread.waitToObtainMs thread.waitToReleaseMs

/-- What the start asks of the thread whose thread_data it allocates. -/
def Event.described : Event → Option (List LibraryCall)
  | .start mutex waitToObtainMs waitToReleaseMs true _created =>
      some (script mutex waitToObtainMs waitToReleaseMs)
  | _ => none

/-- How many calls are behind a thread there, if it goes through all of them. -/
def Place.behind : Place → Nat
  | .notCreated => 0
  | .obtaining => 0
  | .locking => 1
  | .releasing => 2
  | .unlocking => 3
  | .returned => 4

def callOf (id : Nat) : Event × Reply → Option LibraryCall
  | (.thread other _done, .made call) => if other = id then some call else none
  | _ => none

/-- The calls that the thread has made, in the order it made them. -/
def callsOf (id : Nat) (events : List Event) (replies : List Reply) : List LibraryCall :=
  (events.zip replies).filterMap (callOf id)

def Event.allocates : Event → Bool
  | .start _mutex _obtain _release allocated _created => allocated
  | _ => false

/-- start_thread_obtaining_mutex fails behind its malloc. -/
def Event.leaks : Event → Bool
  | .start _mutex _obtain _release allocated created => allocated && !created
  | _ => false

def Event.joins : Event → Bool
  | .join _id => true
  | _ => false

/-- There is no thread that the caller could join. -/
def ThreadData.leaked (thread : ThreadData) : Bool := thread.place = .notCreated

/-- The thread waits for another one. -/
inductive Halt where
  | waits
  deriving DecidableEq, Repr

namespace Program

def empty : Program where
  threads := []
  holder := fun _mutex => none

def setThread (program : Program) (id : Nat) (thread : ThreadData) : Program :=
  { program with threads := program.threads.set id thread }

def setHolder (program : Program) (mutex : Nat) (holder : Option Nat) : Program :=
  { program with holder := Function.update program.holder mutex holder }

/-- thread_data is not freed where pthread_create fails. -/
def startThreadObtainingMutex (program : Program) (mutex : Nat)
    (waitToObtainMs waitToReleaseMs : Int32) (allocated created : Bool) : Bool × Program :=
  if allocated then
    (created, { program with
      threads := program.threads ++ [{
        mutex
        waitToObtainMs
        waitToReleaseMs
        threadCompleteSuccess := none
        place := if created then .obtaining else .notCreated
        freed := false }] })
  else (false, program)

/-- The next call of threadfunc, and what follows from its result. -/
def threadfunc (program : Program) (id : Nat) (thread : ThreadData) (done : Bool) :
    Except Halt (LibraryCall × Program) :=
  match thread.place with
  | .notCreated => .error .waits
  | .obtaining =>
      .ok (.usleep (microseconds thread.waitToObtainMs), program.setThread id { thread with
        threadCompleteSuccess := some done
        place := if done then .locking else .returned })
  | .locking =>
      if done then
        match program.holder thread.mutex with
        | some _other => .error .waits
        | none =>
            .ok (.pthreadMutexLock thread.mutex,
              (program.setHolder thread.mutex (some id)).setThread id { thread with
                place := .releasing })
      else
        .ok (.pthreadMutexLock thread.mutex, program.setThread id { thread with
          threadCompleteSuccess := some false
          place := .returned })
  | .releasing =>
      -- The lock is given back even where usleep fails.
      .ok (.usleep (microseconds thread.waitToReleaseMs), program.setThread id { thread with
        threadCompleteSuccess := if done then thread.threadCompleteSuccess else some false
        place := .unlocking })
  | .unlocking =>
      if done then
        .ok (.pthreadMutexUnlock thread.mutex,
          (program.setHolder thread.mutex none).setThread id { thread with place := .returned })
      else
        .ok (.pthreadMutexUnlock thread.mutex, program.setThread id { thread with
          threadCompleteSuccess := some false
          place := .returned })
  | .returned => .error .waits

/-- pthread_join and free, once for each thread. -/
def join (program : Program) (id : Nat) (thread : ThreadData) :
    Except Halt (Option Bool × Program) :=
  if thread.place = .returned ∧ thread.freed = false then
    .ok (thread.threadCompleteSuccess, program.setThread id { thread with freed := true })
  else .error .waits

def step (program : Program) : Event → Except Halt (Reply × Program)
  | .start mutex waitToObtainMs waitToReleaseMs allocated created =>
      let (ret, after) := program.startThreadObtainingMutex mutex waitToObtainMs waitToReleaseMs
        allocated created
      .ok (.started ret, after)
  | .thread id done =>
      match program.threads[id]? with
      | none => .error .waits
      | some thread =>
          (program.threadfunc id thread done).map fun (call, after) => (.made call, after)
  | .join id =>
      match program.threads[id]? with
      | none => .error .waits
      | some thread => (program.join id thread).map fun (success, after) => (.joined success, after)

section Effects

variable {program after : Program} {id : Nat} {thread next : ThreadData} {done : Bool}
  {call : LibraryCall}

theorem setThread_self (found : program.threads[id]? = some thread) (next : ThreadData) :
    (program.setThread id next).threads[id]? = some next := by
  have inside := (List.getElem?_eq_some_iff.mp found).1
  exact List.getElem?_set_self inside

theorem setThread_other {other : Nat} (different : other ≠ id) (next : ThreadData) :
    (program.setThread id next).threads[other]? = program.threads[other]? :=
  List.getElem?_set_ne different.symm

/-- What follows from one call of threadfunc. -/
theorem threadfunc_cases (made : program.threadfunc id thread done = .ok (call, after)) :
    match thread.place with
    | .notCreated => False
    | .obtaining =>
        after = program.setThread id { thread with
          threadCompleteSuccess := some done
          place := if done then .locking else .returned }
    | .locking =>
        (done = false ∧ after = program.setThread id { thread with
          threadCompleteSuccess := some false
          place := .returned }) ∨
        (done = true ∧ program.holder thread.mutex = none ∧
          after = (program.setHolder thread.mutex (some id)).setThread id { thread with
            place := .releasing })
    | .releasing =>
        after = program.setThread id { thread with
          threadCompleteSuccess := if done then thread.threadCompleteSuccess else some false
          place := .unlocking }
    | .unlocking =>
        (done = false ∧ after = program.setThread id { thread with
          threadCompleteSuccess := some false
          place := .returned }) ∨
        (done = true ∧
          after = (program.setHolder thread.mutex none).setThread id { thread with
            place := .returned })
    | .returned => False := by
  unfold threadfunc at made
  cases place : thread.place with
  | notCreated =>
      rw [place] at made
      cases made
  | obtaining =>
      rw [place] at made
      cases made
      rfl
  | locking =>
      rw [place] at made
      dsimp only at made
      split at made
      · split at made
        · cases made
        · cases made
          exact Or.inr ⟨‹_›, ‹_›, rfl⟩
      · cases made
        exact Or.inl ⟨Bool.eq_false_iff.mpr ‹_›, rfl⟩
  | releasing =>
      rw [place] at made
      cases made
      rfl
  | unlocking =>
      rw [place] at made
      dsimp only at made
      split at made
      · cases made
        exact Or.inr ⟨‹_›, rfl⟩
      · cases made
        exact Or.inl ⟨Bool.eq_false_iff.mpr ‹_›, rfl⟩
  | returned =>
      rw [place] at made
      cases made

/-- Each thread makes the call that is next in its script. -/
theorem threadfunc_call (made : program.threadfunc id thread done = .ok (call, after)) :
    thread.described[thread.place.behind]? = some call := by
  unfold threadfunc at made
  cases place : thread.place with
  | notCreated =>
      rw [place] at made
      cases made
  | obtaining =>
      rw [place] at made
      cases made
      rfl
  | locking =>
      rw [place] at made
      dsimp only at made
      split at made
      · split at made <;> cases made
        rfl
      · cases made
        rfl
  | releasing =>
      rw [place] at made
      cases made
      rfl
  | unlocking =>
      rw [place] at made
      dsimp only at made
      split at made <;> cases made <;> rfl
  | returned =>
      rw [place] at made
      cases made

theorem step_thread_cases {reply : Reply}
    (made : program.step (.thread id done) = .ok (reply, after)) :
    ∃ thread call, program.threads[id]? = some thread ∧ reply = .made call ∧
      program.threadfunc id thread done = .ok (call, after) := by
  simp only [step] at made
  cases found : program.threads[id]? with
  | none =>
      rw [found] at made
      cases made
  | some thread =>
      rw [found] at made
      obtain ⟨⟨call, reached⟩, advanced, same⟩ := ok_of_map made
      cases same
      exact ⟨thread, call, rfl, rfl, advanced⟩

theorem step_join_cases {reply : Reply} (made : program.step (.join id) = .ok (reply, after)) :
    ∃ thread, program.threads[id]? = some thread ∧ reply = .joined thread.threadCompleteSuccess ∧
      thread.place = .returned ∧ thread.freed = false ∧
      after = program.setThread id { thread with freed := true } := by
  simp only [step] at made
  cases found : program.threads[id]? with
  | none =>
      rw [found] at made
      cases made
  | some thread =>
      rw [found] at made
      obtain ⟨⟨success, reached⟩, joined, same⟩ := ok_of_map made
      cases same
      unfold join at joined
      split at joined
      · rename_i ready
        cases joined
        exact ⟨thread, rfl, rfl, ready.1, ready.2, rfl⟩
      · cases joined

theorem allocated_cases {new : ThreadData}
    (found : (program.threads ++ [new])[id]? = some thread) :
    program.threads[id]? = some thread ∨
      (id = program.threads.length ∧ thread = new) := by
  rcases Nat.lt_or_ge id program.threads.length with inside | beyond
  · rw [List.getElem?_append_left inside] at found
    exact Or.inl found
  · rw [List.getElem?_append_right beyond] at found
    have single := (List.getElem?_eq_some_iff.mp found).1
    have last : id - program.threads.length = 0 := by
      rw [List.length_singleton] at single
      omega
    rw [last] at found
    cases found
    exact Or.inr ⟨by omega, rfl⟩

theorem step_start_threads {mutex : Nat} {waitToObtainMs waitToReleaseMs : Int32}
    {allocated created : Bool} {reply : Reply}
    (made : program.step (.start mutex waitToObtainMs waitToReleaseMs allocated created) =
      .ok (reply, after)) :
    after.threads = program.threads ++ if allocated then [{
      mutex
      waitToObtainMs
      waitToReleaseMs
      threadCompleteSuccess := none
      place := if created then .obtaining else .notCreated
      freed := false }] else [] := by
  cases made
  cases allocated with
  | false => exact (List.append_nil _).symm
  | true => rfl

end Effects

end Program

end Aesd.Threading
