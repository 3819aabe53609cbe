/-
The posts of clock_sem.

SIGALRM and server_stop post clock_sem, and clock_thread goes round its loop
once for each post.  No post is lost on the way and none is served twice, as
long as clock_thread does not leave its loop: what has been posted has been
served, is being served, or is in the semaphore.
-/

import Aesd.Lifecycle.ClockEnd

set_option autoImplicit false

namespace Aesd.Lifecycle

open BoundedLoop CallRun Server

/-- clock_thread has taken a post that it has not served yet. -/
def ClockThread.taken : ClockThread → Nat
  | .checking => 1
  | .locking => 1
  | .writing => 1
  | _ => 0

/-- clock_thread has not left its loop, and is not about to. -/
def ClockThread.loops : ClockThread → Bool
  | .unlocking written => written
  | .returned _ret => false
  | _ => true

namespace Process

/-- Whether the event posts clock_sem. -/
def posted (process : Process) : Event → Nat
  | .stopPost => 1
  | .timerCallback =>
      match process.clockSem with
      | .present _value => 1
      | _ => 0
  | _ => 0

/-- Whether the event ends a round of clock_thread: with a timestamp that is
written, or, built for the device, without one. -/
def served (build : Build) (process : Process) : Event → Nat
  | .clock done =>
      match process.clock, build with
      | .writing, _build => if done then 1 else 0
      | .checking, .aesdCharDevice => if process.shouldStop then 0 else 1
      | _, _ => 0
  | _ => 0

/-- Where the posts are. -/
structure Ticked (build : Build) (process : Process) (posts rounds : Nat) : Prop where
  order : process.ClockOrder build
  bound : rounds + process.clock.taken ≤ posts
  fresh : process.clockSem = .absent → posts = 0
  exact : process.clock.loops = true → ∀ value, process.clockSem = .present value →
    posts = rounds + process.clock.taken + value

variable {build : Build} {process after : Process} {done : Bool} {posts rounds : Nat}

/-- Neither the semaphore nor clock_thread has moved. -/
theorem Ticked.aside (ticked : process.Ticked build posts rounds) (order : after.ClockOrder build)
    (clock : after.clock = process.clock)
    (sem : after.clockSem = process.clockSem ∨ after.clockSem = .gone) :
    after.Ticked build posts rounds := by
  refine ⟨order, ?_, ?_, ?_⟩
  · rw [clock]
    exact ticked.bound
  · intro absent
    rcases sem with same | gone
    · exact ticked.fresh (same ▸ absent)
    · rw [gone] at absent
      cases absent
  · intro loops value present
    rcases sem with same | gone
    · rw [clock] at loops ⊢
      exact ticked.exact loops value (same ▸ present)
    · rw [gone] at present
      cases present

/-- A post raises the semaphore. -/
theorem Ticked.post (ticked : process.Ticked build posts rounds) (order : after.ClockOrder build)
    (clock : after.clock = process.clock) {value : Nat} (before : process.clockSem = .present value)
    (raised : after.clockSem = .present (value + 1)) : after.Ticked build (posts + 1) rounds := by
  refine ⟨order, ?_, ?_, ?_⟩
  · rw [clock]
    exact Nat.le_succ_of_le ticked.bound
  · intro absent
    rw [raised] at absent
    cases absent
  · intro loops other present
    rw [raised] at present
    cases present
    rw [clock] at loops ⊢
    rw [ticked.exact loops value before]
    exact Nat.add_assoc ..

/-- clock_thread goes on without the semaphore. -/
theorem Ticked.onward (ticked : process.Ticked build posts rounds) (order : after.ClockOrder build)
    (sem : after.clockSem = process.clockSem) (loops : process.clock.loops = true) {more : Nat}
    (taken : after.clock.taken + more = process.clock.taken) :
    after.Ticked build posts (rounds + more) := by
  have bound := ticked.bound
  refine ⟨order, by omega, ?_, ?_⟩
  · rw [sem]
    exact ticked.fresh
  · intro _loops value present
    have exactly := ticked.exact loops value (sem ▸ present)
    omega

/-- Behind its loop clock_thread serves nothing more. -/
theorem Ticked.left (ticked : process.Ticked build posts rounds) (order : after.ClockOrder build)
    (sem : after.clockSem = process.clockSem) (left : after.clock.loops = false)
    (taken : after.clock.taken = 0) : after.Ticked build posts rounds := by
  have bound := ticked.bound
  refine ⟨order, by omega, ?_, ?_⟩
  · rw [sem]
    exact ticked.fresh
  · intro loops
    rw [left] at loops
    cases loops

/-! ### The main thread -/

theorem Ticked.serverInit {call : InitCall} (ticked : process.Ticked build posts rounds)
    (main : process.main = .serverInit call)
    (order : (process.serverInit build call done).ClockOrder build) :
    (process.serverInit build call done).Ticked build posts rounds := by
  cases done with
  | false => exact ticked.aside order rfl (Or.inl rfl)
  | true =>
      cases call with
      | initClockSem =>
          have absent := ticked.order.semLater (by rw [main]; rfl)
          have still := ticked.order.threadLater (by rw [main]; rfl)
          have nothing := ticked.fresh absent
          have bound := ticked.bound
          rw [still, nothing] at bound
          obtain rfl : rounds = 0 := Nat.eq_zero_of_le_zero bound
          have clock : (process.serverInit build .initClockSem true).clock = .notStarted := still
          refine ⟨order, ?_, fun _absent => nothing, ?_⟩
          · rw [clock]
            exact Nat.zero_le _
          · intro _loops value present
            cases present
            rw [clock, nothing]
            rfl
      | createClockThread =>
          have still := ticked.order.threadLater (by rw [main]; rfl)
          have more := ticked.bound
          have exactly := ticked.exact (by rw [still]; rfl)
          rw [still] at more exactly
          exact ⟨order, more, ticked.fresh, fun _loops => exactly⟩
      | initFinishedSignal => exact ticked.aside order rfl (Or.inl rfl)
      | openOutputFile => exact ticked.aside order rfl (Or.inl rfl)
      | createCleanupThread => exact ticked.aside order rfl (Or.inl rfl)
      | socket => exact ticked.aside order rfl (Or.inl rfl)
      | bind => exact ticked.aside order rfl (Or.inl rfl)
      | listen => exact ticked.aside order rfl (Or.inl rfl)
      | timerCreate => exact ticked.aside order rfl (Or.inl rfl)
      | timerSettime => exact ticked.aside order rfl (Or.inl rfl)

theorem Ticked.serverRun {call : RunCall} (ticked : process.Ticked build posts rounds)
    (order : (process.serverRun build call done).ClockOrder build) :
    (process.serverRun build call done).Ticked build posts rounds := by
  cases done with
  | false => exact ticked.aside order rfl (Or.inl rfl)
  | true => cases call <;> exact ticked.aside order rfl (Or.inl rfl)

theorem Ticked.serverExit {call : ExitCall} (ticked : process.Ticked build posts rounds)
    (made : process.serverExit build call done = .ok after) (order : after.ClockOrder build) :
    after.Ticked build posts rounds := by
  have effect := serverExit_effect made
  cases call with
  | timerDelete =>
      obtain ⟨exitRet, timer, armed, rfl⟩ := effect
      exact ticked.aside order rfl (Or.inl rfl)
  | postFinishedSignal =>
      rcases effect with ⟨_initialized, posts, _present, rfl⟩ | ⟨_initialized, rfl⟩ <;>
        exact ticked.aside order rfl (Or.inl rfl)
  | joinCleanupThread =>
      obtain ⟨_returned, rfl⟩ := effect
      exact ticked.aside order rfl (Or.inl rfl)
  | joinClockThread =>
      obtain ⟨_returned, rfl⟩ := effect
      exact ticked.aside order rfl (Or.inl rfl)
  | closeSocket =>
      obtain ⟨exitRet, rfl⟩ := effect
      exact ticked.aside order rfl (Or.inl rfl)
  | closeOutputFile =>
      obtain ⟨exitRet, outputFile, _closed, rfl⟩ := effect
      exact ticked.aside order rfl (Or.inl rfl)
  | destroyMutex =>
      obtain ⟨exitRet, outputFileMutex, _destroyed, rfl⟩ := effect
      exact ticked.aside order rfl (Or.inl rfl)
  | destroyFinishedSignal =>
      obtain ⟨exitRet, threadFinishedSignal, _destroyed, rfl⟩ := effect
      exact ticked.aside order rfl (Or.inl rfl)
  | destroyClockSem =>
      obtain ⟨exitRet, clockSem, destroyed, rfl⟩ := effect
      exact ticked.aside order rfl destroyed
  | freeThreadList =>
      obtain ⟨main, _next, rfl⟩ := effect
      exact ticked.aside order rfl (Or.inl rfl)
  | unlink =>
      obtain ⟨exitRet, ret, rfl⟩ := effect
      exact ticked.aside order rfl (Or.inl rfl)

/-! ### clock_thread -/

theorem Ticked.clockThread (ticked : process.Ticked build posts rounds)
    (made : process.clockThread build done = .ok after) (order : after.ClockOrder build) :
    after.Ticked build posts (rounds + process.served build (.clock done)) := by
  have effect := clockThread_cases made
  cases place : process.clock with
  | notStarted =>
      rw [place] at effect
      exact effect.elim
  | waiting =>
      have nothing : process.served build (.clock done) = 0 := by
        simp only [served, place]
      rw [nothing]
      rw [place] at effect
      rcases effect with ⟨_failed, rfl⟩ | ⟨value, present, rfl⟩
      · exact ticked.left order rfl rfl rfl
      · -- The post goes from the semaphore to clock_thread.
        have exactly := ticked.exact (by rw [place]; rfl) _ present
        rw [place] at exactly
        change posts = rounds + 0 + (value + 1) at exactly
        refine ⟨order, ?_, fun absent => ?_, ?_⟩
        · change rounds + 0 + 1 ≤ posts
          omega
        · cases absent
        · intro _loops other same
          cases same
          change posts = rounds + 0 + 1 + value
          omega
  | checking =>
      have loops : process.clock.loops = true := by rw [place]; rfl
      rw [place] at effect
      rcases effect with ⟨stops, rfl⟩ | ⟨goesOn, ⟨rfl, rfl⟩ | ⟨rfl, rfl⟩⟩
      · have nothing : process.served build (.clock done) = 0 := by
          cases build <;> simp only [served, place, stops, if_true]
        rw [nothing]
        exact ticked.left order rfl rfl rfl
      · have one : process.served .aesdCharDevice (.clock done) = 1 := by
          simp only [served, place, goesOn, Bool.false_eq_true, if_false]
        rw [one]
        exact ticked.onward order rfl loops (by rw [place]; rfl)
      · have nothing : process.served .regularFile (.clock done) = 0 := by
          simp only [served, place]
        rw [nothing]
        cases done with
        | true => exact ticked.onward order rfl loops (by rw [place]; rfl)
        | false => exact ticked.left order rfl rfl rfl
  | locking =>
      have loops : process.clock.loops = true := by rw [place]; rfl
      have nothing : process.served build (.clock done) = 0 := by
        simp only [served, place]
      rw [nothing]
      rw [place] at effect
      obtain ⟨_free, rfl⟩ := effect
      exact ticked.onward order rfl loops (by rw [place]; rfl)
  | writing =>
      have loops : process.clock.loops = true := by rw [place]; rfl
      have round : process.served build (.clock done) = if done then 1 else 0 := by
        simp only [served, place]
      rw [round]
      rw [place] at effect
      obtain ⟨_opened, rfl⟩ := effect
      cases done with
      | true => exact ticked.onward order rfl loops (by rw [place]; rfl)
      | false => exact ticked.left order rfl rfl rfl
  | unlocking written =>
      have nothing : process.served build (.clock done) = 0 := by
        simp only [served, place]
      rw [nothing]
      rw [place] at effect
      obtain ⟨_held, rfl⟩ := effect
      cases written with
      | true => exact ticked.onward order rfl (by rw [place]; rfl) (by rw [place]; rfl)
      | false => exact ticked.left order rfl rfl rfl
  | returned ret =>
      rw [place] at effect
      exact effect.elim

/-! ### Runs -/

theorem Ticked.step {event : Event} {reply : Unit} (ticked : process.Ticked build posts rounds)
    (made : process.step build event = .ok (reply, after)) :
    after.Ticked build (posts + process.posted event) (rounds + process.served build event) := by
  have order := ticked.order.step made
  have advanced := step_cases made
  cases event with
  | main done =>
      rcases mainThread_cases advanced with
        ⟨call, main, rfl⟩ | ⟨call, _main, rfl⟩ | ⟨call, _main, exits⟩
      · exact ticked.serverInit main order
      · exact ticked.serverRun order
      · exact ticked.serverExit exits order
  | interrupted =>
      obtain ⟨_main, ⟨_stops, rfl⟩ | rfl⟩ := interrupted_cases advanced <;>
        exact ticked.aside order rfl (Or.inl rfl)
  | stop =>
      cases advanced
      exact ticked.aside order rfl (Or.inl rfl)
  | stopPost =>
      obtain ⟨_called, value, present, rfl⟩ := stopPost_cases advanced
      exact ticked.post order rfl present rfl
  | expire =>
      rw [expire_cases advanced] at order ⊢
      exact ticked.aside order rfl (Or.inl rfl)
  | timerCallback =>
      simp only [advance, timerCallback] at advanced
      split at advanced
      · simp only [posted]
        cases sem : process.clockSem with
        | present value =>
            rw [sem] at advanced
            cases advanced
            exact ticked.post order rfl sem rfl
        | absent =>
            rw [sem] at advanced
            cases advanced
            exact ticked.aside order rfl (Or.inl sem.symm)
        | gone =>
            rw [sem] at advanced
            cases advanced
            exact ticked.aside order rfl (Or.inl sem.symm)
      · cases advanced
  | client info more =>
      obtain ⟨signal, outputFileMutex, infos, _signal, _mutex, rfl⟩ := clientThread_frame advanced
      exact ticked.aside order rfl (Or.inl rfl)
  | cleanup done =>
      obtain ⟨signal, consumed, cleanup, infos, list, _signal, _threads, rfl⟩ :=
        cleanupThread_frame advanced
      exact ticked.aside order rfl (Or.inl rfl)
  | clock done => exact ticked.clockThread advanced order

theorem zeroData_ticked (build : Build) : zeroData.Ticked build 0 0 where
  order := zeroData_clockOrder build
  bound := Nat.le_refl 0
  fresh := fun _absent => rfl
  exact := by
    intro _loops value impossible
    cases impossible

/-- In every run clock_thread has served no more than was posted, and while it
has not left its loop what it has not served is in its hand or in the semaphore. -/
theorem ticks_served_once (events : List Event) (replies : List Unit)
    (ran : runCalls (Process.step build) .zeroData events = .ok (replies, process)) :
    tally (Process.step build) (served build) .zeroData events + process.clock.taken ≤
      tally (Process.step build) posted .zeroData events ∧
    (process.clock.loops = true → ∀ value, process.clockSem = .present value →
      tally (Process.step build) posted .zeroData events =
        tally (Process.step build) (served build) .zeroData events + process.clock.taken +
          value) := by
  have one : ∀ process event reply after posts rounds, process.Ticked build posts rounds →
      Process.step build process event = .ok (reply, after) →
      after.Ticked build (posts + process.posted event) (rounds + process.served build event) :=
    fun _process _event _reply _after _posts _rounds ticked made => ticked.step made
  have ticked := runCalls_tallies posted (served build) 0 0 one (zeroData_ticked build) ran
  rw [Nat.zero_add, Nat.zero_add] at ticked
  exact ⟨ticked.bound, ticked.exact⟩

end Process

/-- Two ticks, and one round of clock_thread up to its unlock. -/
def twoTicks : List Event :=
  startup ++ [.expire, .timerCallback, .expire, .timerCallback] ++ List.replicate 4 (.clock true)

theorem ticks_served_once_two : ∃ replies process,
    runCalls (Process.step .regularFile) .zeroData twoTicks = .ok (replies, process) ∧
      process.clockSem = .present 1 ∧
      tally (Process.step .regularFile) Process.posted .zeroData twoTicks = 2 ∧
      tally (Process.step .regularFile) (Process.served .regularFile) .zeroData twoTicks = 1 := by
  have computed : (runCalls (Process.step .regularFile) .zeroData twoTicks).map
      (fun result => (result.2.clock, result.2.clockSem)) =
    .ok (.unlocking true, .present 1) := by decide +kernel
  have posts : tally (Process.step .regularFile) Process.posted .zeroData twoTicks = 2 := by
    decide +kernel
  obtain ⟨⟨replies, process⟩, ran, shown⟩ := ok_of_map computed
  obtain ⟨clock, sem⟩ := Prod.mk.inj shown
  obtain ⟨_bound, exactly⟩ := Process.ticks_served_once twoTicks replies ran
  have balance := exactly (by rw [clock]; rfl) 1 sem
  rw [posts, clock] at balance
  exact ⟨replies, process, ran, sem, posts, (Nat.succ.inj balance).symm⟩

end Aesd.Lifecycle
