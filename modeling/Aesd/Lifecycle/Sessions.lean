/-
The sessions in the process.

`Server.World` follows the data of the sessions and knows nothing of the rest
of the server's life; in `Process` a session is a number of rounds.  Here the
two are brought together: whatever the threads of a world do, the threads of
the process can do, so that no order of steps is missing from its runs.
-/

import Aesd.Lifecycle.ClockEnd
import Aesd.Server.RegularFile

set_option autoImplicit false

namespace Aesd.Lifecycle

open BoundedLoop CallRun Server

/-- Where client_thread is. -/
def clientPlace : ClientState → ClientThread
  | .waiting => .locking
  | .talking _session => .talking
  | .unlocking _outcome _session => .unlocking
  | .closing _outcome _session => .closing
  | .finished _ret _session => .finishing

/-- Where clock_thread is. -/
def clockPlace : ClockState → ClockThread
  | .sleeping => .waiting
  | .ticked _text => .locking
  | .writing _text => .writing
  | .unlocking written => .unlocking written
  | .stopped => .returned .err

def holderOf {count : Nat} : Writer (Fin count) → Holder
  | .client i => .client i
  | .clock _text => .clock

/-- The threads of the world are those of a process that accepts connections. -/
structure Hosts {count : Nat} {File : Type} (build : Build) (world : World (Fin count) File)
    (process : Process) : Prop where
  main : process.main = .serverRun .select
  started : process.threadInfos.length = count
  clients : ∀ i : Fin count, process.threadOf i = some (clientPlace (world.clients i))
  owner : process.outputFileMutex = .present (world.owner.map holderOf)
  clock : process.clock = clockPlace world.clock
  writes : process.clock.Writes → build = .regularFile
  file : process.outputFile = .present () ∨
    (build = .aesdCharDevice ∧ count = 0 ∧ process.outputFile = .absent)
  armed : process.armed = true
  goesOn : process.shouldStop = false
  clockSem : ∃ value, process.clockSem = .present value

namespace Process

variable {build : Build} {process after : Process}

theorem threadOf_setThread_self {info : Nat} (inside : info < process.threadInfos.length)
    (thread : ClientThread) : (process.setThread info thread).threadOf info = some thread := by
  simp only [threadOf, setThread, List.getElem?_modify, if_true, List.getElem?_eq_getElem inside]
  rfl

theorem threadOf_setThread_other {info other : Nat} (different : other ≠ info)
    (thread : ClientThread) :
    (process.setThread info thread).threadOf other = process.threadOf other := by
  simp only [threadOf, setThread, List.getElem?_modify, if_neg different.symm]
  rw [Option.map_eq_map, Option.map_id']

end Process

variable {count : Nat} {File : Type} {ops : OutputFile File} {build : Build}
  {clients : Fin count → Client} {world after : World (Fin count) File} {process : Process}
  {reply : Option (Writer (Fin count))} {i : Fin count}

theorem clients_goTo (started : process.threadInfos.length = count)
    (places : ∀ i : Fin count, process.threadOf i = some (clientPlace (world.clients i)))
    (i : Fin count) (state : ClientState) (other : Fin count) :
    (process.setThread i (clientPlace state)).threadOf other =
      some (clientPlace ((world.setClient i state).clients other)) := by
  by_cases same : other = i
  · subst same
    rw [World.setClient_self]
    exact Process.threadOf_setThread_self (other.isLt.trans_eq started.symm) _
  · rw [World.setClient_other world state same,
      Process.threadOf_setThread_other (fun equal => same (Fin.ext equal))]
    exact places other

theorem started_goTo (started : process.threadInfos.length = count) (info : Nat)
    (thread : ClientThread) : (process.setThread info thread).threadInfos.length = count :=
  (List.length_modify ..).trans started

/-! ### client_thread -/

theorem Hosts.lock (hosts : Hosts build world process)
    (made : world.lock clients i = .ok (reply, after)) :
    ∃ reached, process.clientThread i true = .ok reached ∧ Hosts build after reached := by
  obtain ⟨waiting, unowned, _reply, rfl⟩ := World.lock_cases made
  obtain ⟨main, started, places, owner, clock, writes, file, armed, goesOn, clockSem⟩ := hosts
  have place := places i
  rw [waiting] at place
  rw [unowned] at owner
  refine ⟨{ process with
    outputFileMutex := .present (some (.client i)) }.setThread i .talking, ?_, ?_⟩
  · simp only [Process.clientThread, place, clientPlace, Process.lockMutex, owner, Option.map_none]
    rfl
  · exact ⟨main, started_goTo started i _,
      clients_goTo started places i (.talking (.initial (clients i))), rfl, clock, writes, file, armed,
      goesOn, clockSem⟩

theorem Hosts.round (hosts : Hosts build world process)
    (made : world.round ops clients i = .ok (reply, after)) :
    ∃ more reached, process.clientThread i more = .ok reached ∧ Hosts build after reached := by
  obtain ⟨_reply, session, talking, decided⟩ := World.round_cases made
  obtain ⟨main, started, places, owner, clock, writes, file, armed, goesOn, clockSem⟩ := hosts
  have place := places i
  rw [talking] at place
  have opened : process.outputFile = .present () := by
    rcases file with opened | ⟨_device, nobody, _absent⟩
    · exact opened
    · exact absurd i.pos (Nat.not_lt_of_le (Nat.le_of_eq nobody))
  have goes : ∀ more, process.clientThread i more =
      .ok (process.setThread i (if more then .talking else .unlocking)) := by
    intro more
    simp only [Process.clientThread, place, clientPlace, opened]
  rcases decided with ⟨next, content, _decided, rfl⟩ | ⟨outcome, last, content, _decided, rfl⟩
  · exact ⟨true, _, goes true, main, started_goTo started i _, clients_goTo started places i (.talking next),
      owner, clock, writes, file, armed, goesOn, clockSem⟩
  · exact ⟨false, _, goes false, main, started_goTo started i _,
      clients_goTo started places i (.unlocking outcome last), owner, clock, writes, file, armed, goesOn,
      clockSem⟩

theorem Hosts.unlock (hosts : Hosts build world process)
    (made : world.unlock i = .ok (reply, after)) :
    ∃ reached, process.clientThread i true = .ok reached ∧ Hosts build after reached := by
  obtain ⟨_reply, outcome, session, unlocking, rfl⟩ := World.unlock_cases made
  obtain ⟨main, started, places, owner, clock, writes, file, armed, goesOn, clockSem⟩ := hosts
  have place := places i
  rw [unlocking] at place
  refine ⟨{ process with outputFileMutex := .present none }.setThread i .closing, ?_, ?_⟩
  · simp only [Process.clientThread, place, clientPlace, Process.unlockMutex, owner]
    rfl
  · exact ⟨main, started_goTo started i _, clients_goTo started places i (.closing outcome session), rfl,
      clock, writes, file, armed, goesOn, clockSem⟩

theorem Hosts.close (hosts : Hosts build world process)
    (made : world.close clients i = .ok (reply, after)) :
    ∃ reached, process.clientThread i true = .ok reached ∧ Hosts build after reached := by
  obtain ⟨_reply, outcome, session, closing, rfl⟩ := World.close_cases made
  obtain ⟨main, started, places, owner, clock, writes, file, armed, goesOn, clockSem⟩ := hosts
  have place := places i
  rw [closing] at place
  refine ⟨process.setThread i .finishing, ?_, ?_⟩
  · simp only [Process.clientThread, place, clientPlace]
  · exact ⟨main, started_goTo started i _,
      clients_goTo started places i (.finished (clientRet (clients i) outcome) session), owner, clock,
      writes, file, armed, goesOn, clockSem⟩

/-! ### clock_thread -/

theorem Hosts.clockLock (hosts : Hosts build world process)
    (made : world.clockLock = .ok (reply, after)) :
    ∃ reached, process.clockThread build true = .ok reached ∧ Hosts build after reached := by
  obtain ⟨text, ticked, unowned, _reply, rfl⟩ := World.clockLock_cases made
  obtain ⟨main, started, places, owner, clock, writes, file, armed, goesOn, clockSem⟩ := hosts
  rw [ticked] at clock
  rw [unowned] at owner
  have regular : build = .regularFile := writes (by rw [clock]; exact True.intro)
  refine ⟨{ process with
    outputFileMutex := .present (some .clock)
    clock := .writing }, ?_, ?_⟩
  · simp only [Process.clockThread, clock, clockPlace, Process.lockMutex, owner, Option.map_none]
    rfl
  · exact ⟨main, started, places, rfl, rfl, fun _writes => regular, file, armed, goesOn, clockSem⟩

theorem Hosts.clockWrite (hosts : Hosts build world process)
    (made : world.clockWrite ops = .ok (reply, after)) :
    ∃ done reached, process.clockThread build done = .ok reached ∧ Hosts build after reached := by
  obtain ⟨_reply, text, writeRet, content, writing, _written, rfl⟩ := World.clockWrite_cases made
  obtain ⟨main, started, places, owner, clock, writes, file, armed, goesOn, clockSem⟩ := hosts
  rw [writing] at clock
  have regular : build = .regularFile := writes (by rw [clock]; exact True.intro)
  have opened : process.outputFile = .present () := by
    rcases file with opened | ⟨device, _nobody, _absent⟩
    · exact opened
    · rw [regular] at device
      cases device
  refine ⟨decide (writeRet = text.bytes.length), { process with
    clock := .unlocking (decide (writeRet = text.bytes.length)) }, ?_, ?_⟩
  · simp only [Process.clockThread, clock, clockPlace, opened]
  · exact ⟨main, started, places, owner, rfl, fun _writes => regular, file, armed, goesOn, clockSem⟩

theorem Hosts.clockUnlock (hosts : Hosts build world process)
    (made : world.clockUnlock = .ok (reply, after)) :
    ∃ reached, process.clockThread build true = .ok reached ∧ Hosts build after reached := by
  obtain ⟨_reply, written, unlocking, rfl⟩ := World.clockUnlock_cases made
  obtain ⟨main, started, places, owner, clock, writes, file, armed, goesOn, clockSem⟩ := hosts
  rw [unlocking] at clock
  refine ⟨{ process with
    outputFileMutex := .present none
    clock := if written then .waiting else .returned .err }, ?_, ?_⟩
  · simp only [Process.clockThread, clock, clockPlace, Process.unlockMutex, owner]
    rfl
  · cases written with
    | true => exact ⟨main, started, places, rfl, rfl, False.elim, file, armed, goesOn, clockSem⟩
    | false => exact ⟨main, started, places, rfl, rfl, False.elim, file, armed, goesOn, clockSem⟩

/-- Where a tick takes clock_thread. -/
def behindTick : Build → ClockThread
  | .regularFile => .locking
  | .aesdCharDevice => .waiting

/-- SIGALRM, its handler, and clock_thread behind its sem_wait. -/
def tickCalls : List Event := [.expire, .timerCallback, .clock true, .clock true]

theorem ticks {value : Nat} (armed : process.armed = true) (goesOn : process.shouldStop = false)
    (clockSem : process.clockSem = .present value) (clock : process.clock = .waiting) :
    runCalls (Process.step build) process tickCalls = .ok ([(), (), (), ()], { process with
      alarm := false
      clockSem := .present value
      clock := behindTick build }) := by
  have expired : process.step build .expire = .ok ((), { process with alarm := true }) :=
    Process.step_of_advance (by simp only [Process.advance, Process.expire, armed, if_true])
  have posted : ({ process with alarm := true } : Process).step build .timerCallback =
      .ok ((), { process with alarm := false, clockSem := .present (value + 1) }) :=
    Process.step_of_advance (by
      simp only [Process.advance, Process.timerCallback, clockSem, if_true])
  have woken : ({ process with alarm := false, clockSem := .present (value + 1) } : Process).step
      build (.clock true) = .ok ((), { process with
        alarm := false
        clockSem := .present value
        clock := .checking }) :=
    Process.step_of_advance (by
      simp only [Process.advance, Process.clockThread, clock, if_true])
  have checked : ({ process with
      alarm := false
      clockSem := .present value
      clock := .checking } : Process).step build (.clock true) = .ok ((), { process with
        alarm := false
        clockSem := .present value
        clock := behindTick build }) := by
    apply Process.step_of_advance
    cases build <;> simp [Process.advance, Process.clockThread, goesOn, behindTick]
  exact runCalls_cons expired (runCalls_cons posted (runCalls_cons woken (runCalls_cons checked rfl)))

theorem Hosts.tick {text : Timestamp} (hosts : Hosts build world process)
    (made : world.tick build text = .ok (reply, after)) :
    ∃ replies reached, runCalls (Process.step build) process tickCalls = .ok (replies, reached) ∧
      Hosts build after reached := by
  obtain ⟨main, started, places, owner, clock, writes, file, armed, goesOn, value, present⟩ := hosts
  unfold World.tick at made
  split at made
  · rename_i sleeping
    cases made
    rw [sleeping] at clock
    exact ⟨_, _, ticks armed goesOn present clock, main, started, places, owner, rfl,
      fun _writes => rfl, file, armed, goesOn, value, rfl⟩
  · rename_i sleeping
    cases made
    rw [sleeping] at clock
    exact ⟨_, _, ticks armed goesOn present clock, main, started, places, owner,
      (congrArg clockPlace sleeping).symm, nofun, file, armed, goesOn, value, rfl⟩
  · cases made

/-! ### Connections -/

/-- server_run with one more thread_info, and the output file open. -/
def admitted (process : Process) (call : RunCall) : Process :=
  { process with
    threadInfos := process.threadInfos ++ [ThreadInfo.allocated]
    outputFile := .present ()
    main := .serverRun call }

/-- server_run, from one select to the next. -/
def connected (process : Process) : Process :=
  (admitted process .select).setThread process.threadInfos.length .locking

theorem creates (process : Process) :
    (admitted process .createClientThread).step build (.main true) =
      .ok ((), connected process) := by
  apply Process.step_of_advance
  simp only [Process.advance, Process.mainThread, admitted, Process.serverRun, if_true,
    List.length_append, List.length_singleton, Nat.add_sub_cancel]
  rfl

theorem connects (main : process.main = .serverRun .select)
    (file : process.outputFile = .present () ∨
      (build = .aesdCharDevice ∧ process.outputFile = .absent)) :
    ∃ calls replies, runCalls (Process.step build) process calls =
      .ok (replies, connected process) := by
  have selected : process.step build (.main true) = .ok ((), { process with
      threadInfos := process.threadInfos ++ [ThreadInfo.allocated]
      main := .serverRun .accept }) := by
    apply Process.step_of_advance
    simp only [Process.advance, Process.mainThread, main, Process.serverRun, if_true]
  have created : runCalls (Process.step build) (admitted process .createClientThread)
      [.main true] = .ok ([()], connected process) := runCalls_cons (creates process) rfl
  rcases file with opened | ⟨device, absent⟩
  · have accepted : ({ process with
        threadInfos := process.threadInfos ++ [ThreadInfo.allocated]
        main := .serverRun .accept } : Process).step build (.main true) =
          .ok ((), admitted process .createClientThread) := by
      apply Process.step_of_advance
      simp only [Process.advance, Process.mainThread, Process.serverRun, admitted, if_true, opened,
        reduceCtorEq, and_false, if_false]
    exact ⟨_, _, runCalls_cons selected (runCalls_cons accepted created)⟩
  · have accepted : ({ process with
        threadInfos := process.threadInfos ++ [ThreadInfo.allocated]
        main := .serverRun .accept } : Process).step build (.main true) =
          .ok ((), { process with
            threadInfos := process.threadInfos ++ [ThreadInfo.allocated]
            main := .serverRun .openDevice }) := by
      apply Process.step_of_advance
      simp only [Process.advance, Process.mainThread, Process.serverRun, if_true, device, absent,
        and_self]
    have opened : ({ process with
        threadInfos := process.threadInfos ++ [ThreadInfo.allocated]
        main := .serverRun .openDevice } : Process).step build (.main true) =
          .ok ((), admitted process .createClientThread) :=
      Process.step_of_advance rfl
    exact ⟨_, _, runCalls_cons selected (runCalls_cons accepted (runCalls_cons opened created))⟩

theorem connected_clients (started : process.threadInfos.length = count)
    (places : ∀ i : Fin count, process.threadOf i = some .locking) (i : Fin (count + 1)) :
    (connected process).threadOf i = some .locking := by
  by_cases last : i.val = process.threadInfos.length
  · rw [last]
    apply Process.threadOf_setThread_self
    simp only [admitted, List.length_append, List.length_singleton, Nat.lt_add_one]
  · have earlier : i.val < count := by omega
    rw [connected, Process.threadOf_setThread_other last]
    refine Eq.trans ?_ (places ⟨i.val, earlier⟩)
    simp only [Process.threadOf, admitted, List.getElem?_append_left (earlier.trans_eq started.symm)]

/-! ### Runs -/

theorem Hosts.step {event : Server.Event (Fin count)} (hosts : Hosts build world process)
    (made : world.step ops build clients event = .ok (reply, after)) :
    ∃ calls replies reached, runCalls (Process.step build) process calls = .ok (replies, reached) ∧
      Hosts build after reached := by
  have one : ∀ (call : Event) (reached : Process), process.advance build call = .ok reached →
      runCalls (Process.step build) process [call] = .ok ([()], reached) :=
    fun call reached advanced => runCalls_cons (Process.step_of_advance advanced) rfl
  cases event with
  | lock i =>
      obtain ⟨reached, stepped, following⟩ := hosts.lock made
      exact ⟨[.client i true], _, reached, one _ _ stepped, following⟩
  | round i =>
      obtain ⟨more, reached, stepped, following⟩ := hosts.round made
      exact ⟨[.client i more], _, reached, one _ _ stepped, following⟩
  | unlock i =>
      obtain ⟨reached, stepped, following⟩ := hosts.unlock made
      exact ⟨[.client i true], _, reached, one _ _ stepped, following⟩
  | close i =>
      obtain ⟨reached, stepped, following⟩ := hosts.close made
      exact ⟨[.client i true], _, reached, one _ _ stepped, following⟩
  | tick text =>
      obtain ⟨replies, reached, ran, following⟩ := hosts.tick made
      exact ⟨tickCalls, replies, reached, ran, following⟩
  | clockLock =>
      obtain ⟨reached, stepped, following⟩ := hosts.clockLock made
      exact ⟨[.clock true], _, reached, one _ _ stepped, following⟩
  | clockWrite =>
      obtain ⟨done, reached, stepped, following⟩ := hosts.clockWrite made
      exact ⟨[.clock done], _, reached, one _ _ stepped, following⟩
  | clockUnlock =>
      obtain ⟨reached, stepped, following⟩ := hosts.clockUnlock made
      exact ⟨[.clock true], _, reached, one _ _ stepped, following⟩

theorem Hosts.connection {file : File}
    (hosts : Hosts build (.start file : World (Fin count) File) process) :
    ∃ calls replies reached, runCalls (Process.step build) process calls = .ok (replies, reached) ∧
      Hosts build (.start file : World (Fin (count + 1)) File) reached := by
  obtain ⟨main, started, places, owner, clock, writes, file, armed, goesOn, clockSem⟩ := hosts
  have reachable : process.outputFile = .present () ∨
      (build = .aesdCharDevice ∧ process.outputFile = .absent) :=
    file.imp_right fun unopened => ⟨unopened.1, unopened.2.2⟩
  obtain ⟨calls, replies, ran⟩ := connects main reachable
  refine ⟨calls, replies, _, ran, rfl, ?_, connected_clients started places, owner, clock, writes,
    Or.inl rfl, armed, goesOn, clockSem⟩
  rw [connected, started_goTo rfl, admitted, List.length_append, List.length_singleton, started]

/-- server_init, and no connection yet. -/
theorem hosts_nobody (build : Build) (file : File) : ∃ calls replies process,
    runCalls (Process.step build) .zeroData calls = .ok (replies, process) ∧
      Hosts build (.start file : World (Fin 0) File) process := by
  cases build with
  | regularFile =>
      exact ⟨List.replicate 10 (.main true), _, _, rfl, rfl, rfl, nofun, rfl, rfl, nofun,
        Or.inl rfl, rfl, rfl, 0, rfl⟩
  | aesdCharDevice =>
      exact ⟨List.replicate 9 (.main true), _, _, rfl, rfl, rfl, nofun, rfl, rfl, nofun,
        Or.inr ⟨rfl, rfl, rfl⟩, rfl, rfl, 0, rfl⟩

theorem hosts_start (build : Build) (count : Nat) (file : File) : ∃ calls replies process,
    runCalls (Process.step build) .zeroData calls = .ok (replies, process) ∧
      Hosts build (.start file : World (Fin count) File) process := by
  induction count with
  | zero => exact hosts_nobody build file
  | succ count ih =>
      obtain ⟨calls, replies, process, ran, hosts⟩ := ih
      obtain ⟨others, answers, reached, connected, following⟩ := hosts.connection
      exact ⟨calls ++ others, replies ++ answers, reached, runCalls_append ran connected, following⟩

/-- Whatever any number of clients and the clock do in a world, the threads of
the server's process do in one of its runs. -/
theorem sessions_hosted (build : Build) (file : File) (events : List (Server.Event (Fin count)))
    (replies : List (Option (Writer (Fin count)))) (world : World (Fin count) File)
    (ran : runCalls (World.step ops build clients) (.start file) events = .ok (replies, world)) :
    ∃ calls answers process, runCalls (Process.step build) .zeroData calls =
      .ok (answers, process) ∧ Hosts build world process := by
  obtain ⟨calls, answers, process, opened, hosts⟩ := hosts_start build count file
  have one : ∀ world event reply after process, Hosts build world process →
      World.step ops build clients world event = .ok (reply, after) →
      ∃ calls replies reached, runCalls (Process.step build) process calls =
        .ok (replies, reached) ∧ Hosts build after reached :=
    fun _world _event _reply _after _process hosts made => hosts.step made
  obtain ⟨others, later, reached, behind, following⟩ := runCalls_simulated one hosts ran
  exact ⟨calls ++ others, answers ++ later, reached, runCalls_append opened behind, following⟩

/-- A client that has just taken the mutex of a world. -/
theorem sessions_hosted_locked : ∃ calls answers process,
    runCalls (Process.step .regularFile) .zeroData calls = .ok (answers, process) ∧
      process.outputFileMutex = .present (some (.client 0)) := by
  have ran : runCalls (World.step regularFile .regularFile
      fun _client : Fin 1 => politeClient [97, Driver.newline]) (.start .opened) [.lock 0] =
        .ok ([some (.client 0)], _) := rfl
  obtain ⟨calls, answers, process, made, hosts⟩ :=
    sessions_hosted .regularFile RegularFile.opened [.lock 0] _ _ ran
  exact ⟨calls, answers, process, made, hosts.owner⟩

end Aesd.Lifecycle
