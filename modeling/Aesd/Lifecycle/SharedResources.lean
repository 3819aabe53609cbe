/-
What server_exit takes from under the clients.

server_exit waits for cleanup_thread and for clock_thread, but for no client
thread.  Where every client thread happens to have returned when server_exit
comes to close the output file, the stream, the mutex and the semaphore outlive
all of them; otherwise this very call closes the stream of a running client.
-/

import Aesd.Lifecycle.Process

set_option autoImplicit false

namespace Aesd.Lifecycle

open BoundedLoop CallRun Server

/-- server_exit has come past the output file. -/
def MainThread.pastOutputFile : MainThread → Bool
  | .serverExit .destroyMutex => true
  | .serverExit .destroyFinishedSignal => true
  | .serverExit .destroyClockSem => true
  | .serverExit .freeThreadList => true
  | .serverExit .unlink => true
  | .returned _ret => true
  | _ => false

/-- The output file has been opened, as far as main's place tells. -/
def MainThread.opened (build : Build) : MainThread → Bool
  | .serverInit .initFinishedSignal => false
  | .serverInit .initClockSem => false
  | .serverInit .openOutputFile => false
  | .serverInit _call => build = .regularFile
  | .serverRun .createClientThread => true
  | .serverRun _call => build = .regularFile
  | _ => false

namespace Process

/-- server_exit has closed the stream, destroyed the mutex or freed the semaphore. -/
def Closed (process : Process) : Prop :=
  process.outputFile = .gone ∨ process.outputFileMutex = .gone ∨
    process.threadFinishedSignal = .gone

def threads (process : Process) : List (Option ClientThread) :=
  process.threadInfos.map ThreadInfo.thread

/-- Every client thread that was started has finished client_thread. -/
def ClientsReturned (process : Process) : Prop :=
  ∀ thread, thread ∈ process.threads → thread = none ∨ thread = some .returned

instance (process : Process) : Decidable process.ClientsReturned :=
  inferInstanceAs (Decidable (∀ thread, thread ∈ process.threads → _))

/-- The condition on a step: where server_exit is about to close the output
file, the client threads have returned. -/
def ClosesLast (process : Process) : Event → Prop
  | .main _done => process.main = .serverExit .closeOutputFile → process.ClientsReturned
  | _ => True

instance (process : Process) (event : Event) : Decidable (process.ClosesLast event) :=
  match event with
  | .main _done =>
      inferInstanceAs (Decidable (process.main = .serverExit .closeOutputFile → _))
  | .interrupted => isTrue True.intro
  | .stop => isTrue True.intro
  | .stopPost => isTrue True.intro
  | .expire => isTrue True.intro
  | .timerCallback => isTrue True.intro
  | .client _info _more => isTrue True.intro
  | .cleanup _done => isTrue True.intro
  | .clock _done => isTrue True.intro

/-- Some thread has been given the output file. -/
def UsesFile (build : Build) (process : Process) : Prop :=
  (∃ thread, some thread ∈ process.threads) ∨ (build = .regularFile ∧ process.clock ≠ .notStarted)

/-- Before server_exit closes anything all is there, and a thread that was
given the output file was given an open one. -/
structure Available (build : Build) (process : Process) : Prop where
  shared : process.main.pastOutputFile = false → ¬process.Closed
  ready : process.main.opened build = true → process.outputFile ≠ .absent
  used : process.UsesFile build → process.outputFile ≠ .absent

/-- What the steps of all threads but the main one leave alone. -/
structure Aside (process after : Process) : Prop where
  main : after.main = process.main
  outputFile : after.outputFile = process.outputFile
  shared : ¬process.Closed → ¬after.Closed

/-- Behind the output file no client is left. -/
def Outlived (process : Process) : Prop :=
  process.main.pastOutputFile = true → process.ClientsReturned

variable {build : Build} {process after : Process} {done : Bool}

/-- A new file, mutex or semaphore closes nothing. -/
theorem not_closed_of (shared : ¬process.Closed)
    (outputFile : process.outputFile.Kept after.outputFile)
    (outputFileMutex : process.outputFileMutex.Kept after.outputFileMutex)
    (threadFinishedSignal : process.threadFinishedSignal.Kept after.threadFinishedSignal) :
    ¬after.Closed := by
  rintro (closed | destroyed | freed)
  · exact outputFile.not_gone (fun before => shared (Or.inl before)) closed
  · exact outputFileMutex.not_gone (fun before => shared (Or.inr (Or.inl before))) destroyed
  · exact threadFinishedSignal.not_gone (fun before => shared (Or.inr (Or.inr before))) freed

/-! ### The main thread -/

theorem Available.returns (available : process.Available build)
    (early : process.main.pastOutputFile = false) (ret : Ret) :
    (process.returns ret).Available build where
  shared := fun _early => available.shared early
  ready := nofun
  used := available.used

theorem Available.serverInit {call : InitCall} (available : process.Available build)
    (main : process.main = .serverInit call) :
    (process.serverInit build call done).Available build := by
  have shared := available.shared (by rw [main]; rfl)
  have ready := available.ready
  rw [main] at ready
  cases done with
  | false => exact available.returns (by rw [main]; rfl) .err
  | true =>
      cases call with
      | initFinishedSignal =>
          exact ⟨fun _early => not_closed_of shared (.same _) (.same _) (.there _ _),
            nofun, available.used⟩
      | initClockSem =>
          cases build with
          | regularFile => exact ⟨fun _early => shared, nofun, available.used⟩
          | aesdCharDevice => exact ⟨fun _early => shared, nofun, available.used⟩
      | openOutputFile =>
          exact ⟨fun _early => not_closed_of shared (.there _ _) (.same _) (.same _),
            fun _opened => nofun, fun _uses => nofun⟩
      | createClockThread =>
          refine ⟨fun _early => shared, ready, ?_⟩
          rintro (client | ⟨regular, _started⟩)
          · exact available.used (Or.inl client)
          · exact ready (decide_eq_true regular)
      | createCleanupThread => exact ⟨fun _early => shared, ready, available.used⟩
      | socket => exact ⟨fun _early => shared, ready, available.used⟩
      | bind => exact ⟨fun _early => shared, ready, available.used⟩
      | listen => exact ⟨fun _early => shared, ready, available.used⟩
      | timerCreate => exact ⟨fun _early => shared, ready, available.used⟩
      | timerSettime => exact ⟨fun _early => shared, ready, available.used⟩

theorem Available.serverRun {call : RunCall} (available : process.Available build)
    (main : process.main = .serverRun call) :
    (process.serverRun build call done).Available build := by
  have shared := available.shared (by rw [main]; rfl)
  have ready := available.ready
  rw [main] at ready
  cases done with
  | false => exact available.returns (by rw [main]; rfl) .err
  | true =>
      cases call with
      | select =>
          refine ⟨fun _early => shared, ready, ?_⟩
          rintro (⟨thread, member⟩ | clock)
          · apply available.used (Or.inl ⟨thread, ?_⟩)
            change some thread ∈ (process.threadInfos ++ [ThreadInfo.allocated]).map _ at member
            rw [List.map_append] at member
            exact (List.mem_append.mp member).resolve_right (by simp [ThreadInfo.allocated])
          · exact available.used (Or.inr clock)
      | accept =>
          by_cases missing : build = .aesdCharDevice ∧ process.outputFile = .absent
          · simp only [Process.serverRun, if_true, if_pos missing]
            refine ⟨fun _early => shared, ?_, available.used⟩
            intro opened
            rw [missing.1] at opened
            cases opened
          · simp only [Process.serverRun, if_true, if_neg missing]
            refine ⟨fun _early => shared, ?_, available.used⟩
            intro _opened absent
            cases build with
            | regularFile => exact ready rfl absent
            | aesdCharDevice => exact missing ⟨rfl, absent⟩
      | openDevice =>
          exact ⟨fun _early => not_closed_of shared (.there _ _) (.same _) (.same _),
            fun _opened => nofun, fun _uses => nofun⟩
      | createClientThread =>
          exact ⟨fun _early => shared, fun _opened => ready rfl, fun _uses => ready rfl⟩

theorem threads_freeInfos (list : List Nat) (infos : List ThreadInfo) :
    (list.foldl freeInfo infos).map ThreadInfo.thread = infos.map ThreadInfo.thread := by
  induction list generalizing infos with
  | nil => rfl
  | cons node list ih =>
      have kept : ∀ info : ThreadInfo, info.free.thread = info.thread := fun _info => rfl
      exact (ih _).trans (map_modify_of_same kept infos node)

theorem Available.serverExit {call : ExitCall} (available : process.Available build)
    (main : process.main = .serverExit call)
    (made : process.serverExit build call done = .ok after) : after.Available build := by
  have shared := available.shared
  rw [main] at shared
  have effect := serverExit_effect made
  cases call with
  | timerDelete =>
      obtain ⟨exitRet, timer, armed, rfl⟩ := effect
      exact ⟨fun _early => shared rfl, nofun, available.used⟩
  | postFinishedSignal =>
      rcases effect with ⟨_initialized, posts, _present, rfl⟩ | ⟨_initialized, rfl⟩
      · exact ⟨fun _early => not_closed_of (shared rfl) (.same _) (.same _) (.there _ _),
          nofun, available.used⟩
      · exact ⟨fun _early => shared rfl, nofun, available.used⟩
  | joinCleanupThread =>
      obtain ⟨_returned, rfl⟩ := effect
      exact ⟨fun _early => shared rfl, nofun, available.used⟩
  | joinClockThread =>
      obtain ⟨_returned, rfl⟩ := effect
      exact ⟨fun _early => shared rfl, nofun, available.used⟩
  | closeSocket =>
      obtain ⟨exitRet, rfl⟩ := effect
      exact ⟨fun _early => shared rfl, nofun, available.used⟩
  | closeOutputFile =>
      obtain ⟨exitRet, outputFile, rfl, rfl⟩ := effect
      refine ⟨nofun, nofun, ?_⟩
      intro uses
      have there := available.used uses
      dsimp only
      split
      · exact nofun
      · exact there
  | destroyMutex =>
      obtain ⟨exitRet, outputFileMutex, _destroyed, rfl⟩ := effect
      exact ⟨nofun, nofun, available.used⟩
  | destroyFinishedSignal =>
      obtain ⟨exitRet, threadFinishedSignal, _freed, rfl⟩ := effect
      exact ⟨nofun, nofun, available.used⟩
  | destroyClockSem =>
      obtain ⟨exitRet, clockSem, _freed, rfl⟩ := effect
      exact ⟨nofun, nofun, available.used⟩
  | freeThreadList =>
      have sameThreads := threads_freeInfos process.threadList process.threadInfos
      obtain ⟨main, last, rfl⟩ := effect
      have uses : (∃ thread, some thread ∈ (process.threadList.foldl freeInfo
          process.threadInfos).map ThreadInfo.thread) ∨
            (build = .regularFile ∧ process.clock ≠ .notStarted) →
          process.outputFile ≠ .absent := by
        rw [sameThreads]
        exact available.used
      rcases last with rfl | ⟨ret, rfl⟩
      · exact ⟨nofun, nofun, uses⟩
      · exact ⟨nofun, nofun, uses⟩
  | unlink =>
      obtain ⟨exitRet, ret, rfl⟩ := effect
      exact ⟨nofun, nofun, available.used⟩

theorem Available.mainThread (available : process.Available build)
    (made : process.mainThread build done = .ok after) : after.Available build := by
  rcases mainThread_cases made with ⟨call, main, rfl⟩ | ⟨call, main, rfl⟩ | ⟨call, main, exits⟩
  · exact available.serverInit main
  · exact available.serverRun main
  · exact available.serverExit main exits

/-! ### The other threads -/

theorem mem_threads {info : Nat} {thread : ClientThread}
    (found : process.threadOf info = some thread) : some thread ∈ process.threads := by
  obtain ⟨record, present, same⟩ := Option.bind_eq_some_iff.mp found
  exact List.mem_map.mpr ⟨record, List.mem_of_getElem? present, same⟩

theorem clientThread_aside {info : Nat} {more : Bool}
    (made : process.clientThread info more = .ok after) : process.Aside after := by
  obtain ⟨signal, mutex, infos, signalKept, mutexKept, rfl⟩ := clientThread_frame made
  exact ⟨rfl, rfl, fun shared => not_closed_of shared (.same _) mutexKept signalKept⟩

theorem cleanupThread_aside (made : process.cleanupThread done = .ok after) :
    process.Aside after ∧ after.threads = process.threads ∧ after.clock = process.clock := by
  obtain ⟨signal, consumed, cleanup, infos, list, signalKept, threads, rfl⟩ :=
    cleanupThread_frame made
  exact ⟨⟨rfl, rfl, fun shared => not_closed_of shared (.same _) (.same _) signalKept⟩, threads, rfl⟩

/-- The clock thread has been started before its first step. -/
theorem clockThread_aside (made : process.clockThread build done = .ok after) :
    process.Aside after ∧ after.threads = process.threads ∧ process.clock ≠ .notStarted := by
  obtain ⟨started, clockSem, mutex, clock, mutexKept, rfl⟩ := clockThread_frame made
  exact ⟨⟨rfl, rfl, fun shared => not_closed_of shared (.same _) mutexKept (.same _)⟩, rfl, started⟩

theorem Available.aside (available : process.Available build) (aside : process.Aside after)
    (uses : after.UsesFile build → process.UsesFile build) : after.Available build := by
  constructor
  · intro early
    rw [aside.main] at early
    exact aside.shared (available.shared early)
  · intro opened
    rw [aside.main] at opened
    rw [aside.outputFile]
    exact available.ready opened
  · intro used
    rw [aside.outputFile]
    exact available.used (uses used)

/-! ### Runs -/

theorem Available.step {event : Event} {reply : Unit} (available : process.Available build)
    (made : process.step build event = .ok (reply, after)) : after.Available build := by
  have advanced := step_cases made
  cases event with
  | main done => exact available.mainThread advanced
  | interrupted =>
      obtain ⟨main, ⟨_stops, rfl⟩ | rfl⟩ := interrupted_cases advanced
      · exact available.returns (by rw [main]; rfl) .ok
      · exact available
  | stop =>
      cases advanced
      exact available.aside ⟨rfl, rfl, id⟩ id
  | stopPost =>
      obtain ⟨_called, value, _present, rfl⟩ := stopPost_cases advanced
      exact available.aside ⟨rfl, rfl, id⟩ id
  | expire =>
      rw [expire_cases advanced]
      exact available.aside ⟨rfl, rfl, id⟩ id
  | timerCallback =>
      rcases timerCallback_cases advanced with ⟨value, _present, rfl⟩ | rfl <;>
        exact available.aside ⟨rfl, rfl, id⟩ id
  | client info more =>
      obtain ⟨thread, found, _effect⟩ := clientThread_cases advanced
      exact available.aside (clientThread_aside advanced)
        (fun _uses => Or.inl ⟨thread, mem_threads found⟩)
  | cleanup done =>
      obtain ⟨aside, threads, clock⟩ := cleanupThread_aside advanced
      apply available.aside aside
      rw [UsesFile, threads, clock]
      exact id
  | clock done =>
      obtain ⟨aside, threads, started⟩ := clockThread_aside advanced
      apply available.aside aside
      rintro (client | ⟨regular, _started⟩)
      · rw [threads] at client
        exact Or.inl client
      · exact Or.inr ⟨regular, started⟩

theorem zeroData_available (build : Build) : zeroData.Available build where
  shared := by
    rintro _early (impossible | impossible | impossible) <;> cases impossible
  ready := nofun
  used := by
    rintro (⟨_thread, impossible⟩ | ⟨_regular, started⟩)
    · cases impossible
    · exact absurd rfl started

theorem available_run {events : List Event} {replies : List Unit}
    (ran : runCalls (Process.step build) .zeroData events = .ok (replies, process)) :
    process.Available build :=
  runCalls_keeps (fun _process _event _reply _after available _any made => available.step made)
    (zeroData_available build) (runMeets_any events _) ran

/-- Where all clients have returned none takes a step. -/
theorem ClientsReturned.no_step {info : Nat} {more : Bool} (returned : process.ClientsReturned)
    (made : process.clientThread info more = .ok after) : False := by
  obtain ⟨thread, found, effect⟩ := clientThread_cases made
  rcases returned (some thread) (mem_threads found) with impossible | same
  · cases impossible
  · cases same
    exact effect

theorem Outlived.kept (outlived : process.Outlived) (main : after.main = process.main)
    (threads : after.threads = process.threads) : after.Outlived := by
  intro late
  rw [main] at late
  have returned := outlived late
  rw [ClientsReturned, ← threads] at returned
  exact returned

theorem Outlived.early (early : process.main.pastOutputFile = false) : process.Outlived := by
  intro late
  rw [early] at late
  cases late

theorem serverInit_early (process : Process) (call : InitCall) :
    (process.serverInit build call done).main.pastOutputFile = false := by
  cases done with
  | false => rfl
  | true => cases call <;> cases build <;> rfl

theorem serverRun_early (process : Process) (call : RunCall) :
    (process.serverRun build call done).main.pastOutputFile = false := by
  cases done with
  | false => rfl
  | true =>
      cases call with
      | accept =>
          simp only [serverRun, if_true]
          split <;> rfl
      | select => rfl
      | openDevice => rfl
      | createClientThread => rfl

theorem Outlived.serverExit {call : ExitCall} (outlived : process.Outlived)
    (main : process.main = .serverExit call)
    (last : call = .closeOutputFile → process.ClientsReturned)
    (made : process.serverExit build call done = .ok after) : after.Outlived := by
  have behind := outlived
  rw [Outlived, main] at behind
  have effect := serverExit_effect made
  cases call with
  | timerDelete =>
      obtain ⟨exitRet, timer, armed, rfl⟩ := effect
      exact Outlived.early rfl
  | postFinishedSignal =>
      rcases effect with ⟨_initialized, posts, _present, rfl⟩ | ⟨_initialized, rfl⟩ <;>
        exact Outlived.early rfl
  | joinCleanupThread =>
      obtain ⟨_returned, rfl⟩ := effect
      exact Outlived.early rfl
  | joinClockThread =>
      obtain ⟨_returned, rfl⟩ := effect
      exact Outlived.early rfl
  | closeSocket =>
      obtain ⟨exitRet, rfl⟩ := effect
      exact Outlived.early rfl
  | closeOutputFile =>
      obtain ⟨exitRet, outputFile, _closed, rfl⟩ := effect
      exact fun _late => last rfl
  | destroyMutex =>
      obtain ⟨exitRet, outputFileMutex, _destroyed, rfl⟩ := effect
      exact fun _late => behind rfl
  | destroyFinishedSignal =>
      obtain ⟨exitRet, threadFinishedSignal, _freed, rfl⟩ := effect
      exact fun _late => behind rfl
  | destroyClockSem =>
      obtain ⟨exitRet, clockSem, _freed, rfl⟩ := effect
      exact fun _late => behind rfl
  | freeThreadList =>
      obtain ⟨main, last, rfl⟩ := effect
      intro _late thread
      change thread ∈ (process.threadList.foldl freeInfo _).map _ → _
      rw [threads_freeInfos]
      exact behind rfl thread
  | unlink =>
      obtain ⟨exitRet, ret, rfl⟩ := effect
      exact fun _late => behind rfl

theorem Outlived.step {event : Event} {reply : Unit} (outlived : process.Outlived)
    (last : process.ClosesLast event)
    (made : process.step build event = .ok (reply, after)) : after.Outlived := by
  have advanced := step_cases made
  cases event with
  | main done =>
      rcases mainThread_cases advanced with
        ⟨call, _main, rfl⟩ | ⟨call, _main, rfl⟩ | ⟨call, main, exits⟩
      · exact Outlived.early (process.serverInit_early call)
      · exact Outlived.early (process.serverRun_early call)
      · refine outlived.serverExit main ?_ exits
        intro closing
        exact last (main.trans (congrArg _ closing))
  | interrupted =>
      obtain ⟨main, ⟨_stops, rfl⟩ | rfl⟩ := interrupted_cases advanced
      · exact Outlived.early rfl
      · exact outlived
  | stop =>
      cases advanced
      exact outlived.kept rfl rfl
  | stopPost =>
      obtain ⟨_called, value, _present, rfl⟩ := stopPost_cases advanced
      exact outlived.kept rfl rfl
  | expire =>
      rw [expire_cases advanced]
      exact outlived.kept rfl rfl
  | timerCallback =>
      rcases timerCallback_cases advanced with ⟨value, _present, rfl⟩ | rfl <;>
        exact outlived.kept rfl rfl
  | client info more =>
      intro late
      rw [(clientThread_aside advanced).main] at late
      exact ((outlived late).no_step advanced).elim
  | cleanup done =>
      obtain ⟨aside, threads, _clock⟩ := cleanupThread_aside advanced
      exact outlived.kept aside.main threads
  | clock done =>
      obtain ⟨aside, threads, _started⟩ := clockThread_aside advanced
      exact outlived.kept aside.main threads

/-- A client thread that runs on still has the stream that closeOutputFile closes. -/
theorem closes_under_client (available : process.Available build)
    (main : process.main = .serverExit .closeOutputFile) (running : ¬process.ClientsReturned)
    (done : Bool) : ∃ after, process.step build (.main done) = .ok ((), after) ∧ after.Closed ∧
      ¬after.ClientsReturned := by
  have started : ∃ thread, some thread ∈ process.threads := by
    by_contra nobody
    apply running
    intro thread member
    cases thread with
    | none => exact Or.inl rfl
    | some thread => exact absurd ⟨thread, member⟩ nobody
  have absent := available.used (Or.inl started)
  have closed := available.shared (by rw [main]; rfl)
  cases file : process.outputFile with
  | absent => exact absurd file absent
  | gone => exact absurd (Or.inl file) closed
  | present handle =>
      cases handle
      refine ⟨{ process.checked done with outputFile := .gone }.goesOn .destroyMutex, ?_,
        Or.inl rfl, ?_⟩
      · apply step_of_advance
        simp only [advance, Process.mainThread, main, Process.serverExit, file]
      · cases done <;> exact running

/-- In a run in which the clients have returned when server_exit is about to
close the output file, nothing that is shared goes before its last user.  Any
other run has reached the call that closes the stream of a running client. -/
theorem shared_outlives_clients (events : List Event) (replies : List Unit)
    (ran : runCalls (Process.step build) .zeroData events = .ok (replies, process)) :
    (RunMeets (Process.step build) ClosesLast .zeroData events → process.Closed →
      process.ClientsReturned) ∧
    (process.main = .serverExit .closeOutputFile → ¬process.ClientsReturned → ∀ done,
      ∃ after, process.step build (.main done) = .ok ((), after) ∧ after.Closed ∧
        ¬after.ClientsReturned) := by
  have available : process.Available build := available_run ran
  refine ⟨?_, closes_under_client available⟩
  intro last closed
  have initially : zeroData.Outlived := Outlived.early rfl
  have outlived : process.Outlived :=
    runCalls_keeps (fun _process _event _reply _after outlived last made =>
      outlived.step last made) initially last ran
  apply outlived
  by_contra early
  exact available.shared (Bool.eq_false_iff.mpr early) closed

end Process

/-- server_init. -/
def startup : List Event := List.replicate 10 (.main true)

/-- A connection, up to its thread. -/
def connection : List Event := List.replicate 3 (.main true)

/-- All of client_thread, with two rounds. -/
def session (info : Nat) : List Event :=
  List.replicate 2 (.client info true) ++ List.replicate 5 (.client info false)

/-- A stop signal, up to the end of server_run. -/
def stopSignal : List Event := [.stop, .stopPost, .interrupted]

/-- server_exit, up to and with the two joins. -/
def joins : List Event :=
  [.main true, .main true, .cleanup true, .cleanup true, .main true, .clock true, .clock true,
    .main true]

/-- The client has returned when the signal comes. -/
theorem shared_outlives_clients_returned : ∃ replies process,
    runCalls (Process.step .regularFile) .zeroData
        (startup ++ connection ++ session 0 ++ stopSignal ++ joins ++
          List.replicate 4 (.main true)) = .ok (replies, process) ∧
      process.Closed ∧ process.ClientsReturned := by
  have computed : (runCalls (Process.step .regularFile) .zeroData
      (startup ++ connection ++ session 0 ++ stopSignal ++ joins ++
        List.replicate 4 (.main true))).map (fun result => result.2.outputFile) =
      .ok .gone := by decide +kernel
  obtain ⟨⟨replies, process⟩, ran, outputFile⟩ := ok_of_map computed
  have closed : process.Closed := Or.inl outputFile
  refine ⟨replies, process, ran, closed, ?_⟩
  exact (Process.shared_outlives_clients _ replies ran).1 (by decide +kernel) closed

/-- The signal comes while the client is talking; its next round uses the
stream that is gone. -/
theorem shared_gone_under_client :
    (runCalls (Process.step .regularFile) .zeroData
        (startup ++ connection ++ [.client 0 true] ++ stopSignal ++ joins ++
          List.replicate 2 (.main true))).map (fun result =>
            (decide result.2.ClientsReturned, result.2.outputFile, result.2.threads)) =
      .ok (false, .gone, [some .talking]) ∧
    runCalls (Process.step .regularFile) .zeroData
        (startup ++ connection ++ [.client 0 true] ++ stopSignal ++ joins ++
          List.replicate 2 (.main true) ++ [.client 0 true]) = .error .useAfterFree := by
  constructor <;> decide +kernel

end Aesd.Lifecycle
