/-
The order of the records in the regular file.

Where every client sends a line and nothing fails, the file is the
concatenation of the records in the order in which their writers took the
mutex, each client gets everything up to its own record, and every session
that has the mutex comes to its end.
-/

import Aesd.Server.AppendOnly
import Aesd.Server.DeviceSessions
import Aesd.Server.Records

set_option autoImplicit false

namespace Aesd.Server

open BoundedLoop CallRun Driver EndedGroups UnlessStopped

variable {ι : Type} [DecidableEq ι] {clients : ι → Client} {line : ι → List Byte}

/-- The one record of each writer. -/
def Writer.record (line : ι → List Byte) : Writer ι → List Byte
  | .client i => line i
  | .clock text => text.bytes

omit [DecidableEq ι] in
theorem recordsOf_lines (line : ι → List Byte) (writers : List (Writer ι)) :
    recordsOf (fun i => [line i]) writers = writers.map (Writer.record line) := by
  induction writers with
  | nil => rfl
  | cons writer writers ih =>
      rw [List.map_cons, ← ih]
      cases writer <;> rfl

omit [DecidableEq ι] in
theorem texts_bring (texts : ∀ i, SendsText (clients i) (line i)) (i : ι) :
    Brings (clients i) [line i] := by
  obtain ⟨extra, sends⟩ := (texts i).sendsLine
  exact .line sends

/-! ### A session comes to its end -/

theorem round_next {world : World ι RegularFile} {i : ι} {session next : Session}
    {file : RegularFile} (talking : world.clients i = .talking session)
    (decided : protocolRound regularFile (clients i) (session, world.file) =
      .ok (.next (next, file))) :
    fileStep clients world (.round i) =
      .ok (none, { world with file }.setClient i (.talking next)) := by
  simp only [fileStep, World.step, World.round, talking, decided]
  rfl

theorem round_leave {world : World ι RegularFile} {i : ι} {session last : Session}
    {outcome : Outcome} {file : RegularFile} (talking : world.clients i = .talking session)
    (decided : protocolRound regularFile (clients i) (session, world.file) =
      .ok (.leave (outcome, last, file))) :
    fileStep clients world (.round i) =
      .ok (none, { world with file }.setClient i (.unlocking outcome last)) := by
  simp only [fileStep, World.step, World.round, talking, decided]
  rfl

/-- The thread that has the mutex reaches its unlock, however long its line and
the file are. -/
theorem session_reaches_unlock {i : ι} {log : Log} {text extra : List Byte}
    (sends : SendsLine (clients i) text extra) (plain : log.Plain)
    (accepts : ∀ reply, (clients i).accepts reply = true) (left : Nat) :
    ∀ (world : World ι RegularFile) (session : Session), world.clients i = .talking session →
      ServingLine keepsRegular log text extra left session world.file →
      ∃ rounds replies after outcome last,
        runCalls (fileStep clients) world (List.replicate rounds (.round i)) =
          .ok (replies, after) ∧
        after.clients i = .unlocking outcome last ∧ outcome = .retOk := by
  induction left using Nat.strong_induction_on with
  | _ left ih =>
      intro world session talking serving
      obtain ⟨decision, decided, reached⟩ :=
        (serving.round sends plain (Calm.of_accepts accepts)).exists_ok
          (fun _stop _made never => never)
      cases decision with
      | leave served =>
          obtain ⟨outcome, last, file⟩ := served
          refine ⟨1, [none], _, outcome, last, runCalls_cons (round_leave talking decided) rfl,
            World.setClient_self .., (reached.answered accepts).1⟩
      | next following =>
          obtain ⟨next, file⟩ := following
          obtain ⟨fewer, decreased, onward⟩ := reached
          obtain ⟨rounds, replies, after, outcome, last, ran, ended⟩ :=
            ih fewer decreased ({ world with file }.setClient i (.talking next)) next
              (World.setClient_self ..) onward
          exact ⟨rounds + 1, none :: replies, after, outcome, last,
            runCalls_cons (round_next talking decided) ran, ended⟩

theorem unlock_and_close (clients : ι → Client) {world : World ι RegularFile} {i : ι} {outcome : Outcome}
    {session : Session} (unlocking : world.clients i = .unlocking outcome session) :
    ∃ replies after, runCalls (fileStep clients) world [.unlock i, .close i] =
        .ok (replies, after) ∧
      after.clients i = .finished (clientRet (clients i) outcome) session := by
  have first := unlock_step clients unlocking
  have second : fileStep clients
      ({ world with owner := none }.setClient i (.closing outcome session)) (.close i) =
        .ok (none, ({ world with owner := none }.setClient i (.closing outcome session)).setClient i
          (.finished (clientRet (clients i) outcome) session)) := by
    simp only [fileStep, World.step, World.close, World.setClient_self]
  exact ⟨_, _, runCalls_cons first (runCalls_cons second rfl), World.setClient_self ..⟩

/-! ### All runs -/

theorem clientRet_ok {client : Client} (closesInput : client.closesInput = true)
    (closesOutput : client.closesOutput = true) : clientRet client .retOk = .ok :=
  if_pos ⟨rfl, closesInput, closesOutput⟩

/-- In every interleaving each client gets the records up to its own, none is
lost, repeated or split, and each session that has begun can end. -/
theorem clients_receive_records_in_order (texts : ∀ i, SendsText (clients i) (line i))
    (closesInput : ∀ i, (clients i).closesInput = true)
    (closesOutput : ∀ i, (clients i).closesOutput = true) (events : List (Event ι))
    (replies : List (Option (Writer ι))) (world : World ι RegularFile)
    (ran : runCalls (fileStep clients) (.start .opened) events = .ok (replies, world)) :
    (∀ i ret session, world.clients i = .finished ret session →
      ∃ before, before ++ [.client i] <+: acquisitions replies ∧ ret = .ok ∧
        session.output = (before ++ [.client i]).flatMap (Writer.record line)) ∧
    ((acquisitions replies).filterMap Writer.client?).Nodup ∧
    (world.owner = none →
      world.file.content = (acquisitions replies).flatMap (Writer.record line) ∧
      groups EndsLine [] world.file.content = (acquisitions replies).map (Writer.record line)) ∧
    (∀ i session, world.clients i = .talking session →
      ∃ rounds later after, runCalls (fileStep clients) world
          (List.replicate rounds (.round i) ++ [.unlock i, .close i]) = .ok (later, after) ∧
        ∃ last, after.clients i = .finished .ok last) := by
  have brings := texts_bring texts
  have calm : RunMeets (fileStep clients)
      (AllowedStep (fun i session file => Calm keepsRegular (clients i) session file))
      (.start .opened) events := by
    apply runMeets_of_forall
    intro world event _member
    cases event with
    | round i => exact fun _session _talking => Calm.of_accepts (texts i).accepts
    | _ => exact True.intro
  have guarded : Guarded (recordGuards keepsRegular brings) world (acquisitions replies) :=
    guarded_run opened_free calm ran
  have bytes := writersLog_bytes brings (acquisitions replies)
  have lines := (writersLog_lines brings (acquisitions replies)).1
  rw [recordsOf_lines] at bytes lines
  refine ⟨?_, guarded.once, ?_, ?_⟩
  · intro i ret session finished
    have left := guarded.left i
    rw [finished] at left
    obtain ⟨outcome, rfl, before, earlier, others, same, answered⟩ := left
    obtain ⟨rfl, _client⟩ := List.append_inj' same rfl
    obtain ⟨rfl, output⟩ := answered.whole (line i) rfl (texts i).accepts
    refine ⟨before, earlier, clientRet_ok (closesInput i) (closesOutput i), ?_⟩
    rw [output]
    change ((writersLog _ before).write (line i)).bytes = _
    rw [Log.bytes_write, writersLog_bytes brings, recordsOf_lines, ← List.flatMap_def,
      List.flatMap_append, List.flatMap_singleton]
    rfl
  · intro free
    have ready := guarded.resource
    rw [Guards.Resource, free] at ready
    obtain ⟨same, _atEnd⟩ := ready
    rw [same]
    exact ⟨bytes, (Log.groups_bytes _).trans lines⟩
  · intro i session talking
    have owns := guarded.inside i (by rw [talking]; exact True.intro)
    have resource := guarded.resource
    rw [Guards.Resource, owns] at resource
    simp only [talking] at resource
    obtain ⟨before, _same, talks⟩ := resource
    cases talks with
    | line sends serving =>
        obtain ⟨rounds, replies, middle, outcome, last, ran, unlocking, rfl⟩ :=
          session_reaches_unlock sends (writersLog_plain brings before) (texts i).accepts _ world
            session talking serving
        obtain ⟨others, after, closed, finished⟩ := unlock_and_close clients unlocking
        rw [clientRet_ok (closesInput i) (closesOutput i)] at finished
        exact ⟨rounds, _, after, runCalls_append ran closed, last, finished⟩

/-- The lines of two clients. -/
def lineOf (second : Bool) : List Byte := [if second then 98 else 97, newline]

/-- Both sessions, and a tick that arrives while the first client has the mutex. -/
def twoSessions : List (Event Bool) :=
  [.lock false, .round false,
    .tick shortText] ++
  List.replicate 3 (.round false) ++
  [.unlock false, .clockLock, .clockWrite, .clockUnlock, .lock true, .close false] ++
  List.replicate 6 (.round true) ++ [.unlock true, .close true]

theorem clients_receive_records_in_order_two : ∃ replies world,
    runCalls (fileStep fun second => politeClient (lineOf second)) (.start .opened) twoSessions =
        .ok (replies, world) ∧
      world.file.content = [97, newline, 116, newline, 98, newline] ∧
      groups EndsLine [] world.file.content =
        [[97, newline], [116, newline], [98, newline]] := by
  have texts : ∀ second, SendsText (politeClient (lineOf second)) (lineOf second) := by
    intro second
    cases second with
    | false =>
        exact ⟨List.prefix_refl _, by decide, by decide, by decide,
          fun _reply => rfl⟩
    | true =>
        exact ⟨List.prefix_refl _, by decide, by decide, by decide,
          fun _reply => rfl⟩
  have computed : (runCalls (fileStep fun second => politeClient (lineOf second))
      (.start .opened) twoSessions).map (fun result =>
        (result.2.owner.isNone, (acquisitions result.1).map (Writer.record lineOf))) =
      .ok (true, [[97, newline], [116, newline], [98, newline]]) := by decide +kernel
  obtain ⟨⟨replies, world⟩, ran, shown⟩ := ok_of_map computed
  obtain ⟨free, records⟩ := Prod.mk.inj shown
  obtain ⟨_answered, _once, whole, _ends⟩ := clients_receive_records_in_order texts
    (fun _second => rfl) (fun _second => rfl) twoSessions replies world ran
  obtain ⟨content, found⟩ := whole (Option.isNone_iff_eq_none.mp free)
  refine ⟨replies, world, ran, ?_, found.trans records⟩
  rw [content, List.flatMap_def, records]
  rfl

end Aesd.Server
