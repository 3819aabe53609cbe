/-
Sessions one after another on the device.

Each session cuts its line into pieces, the driver glues the pieces into one
command and drops the oldest command when it has ten, and the session reads
all commands back.  Seen from outside, the device is a log of which the last
ten lines are shown.
-/

import Aesd.CallRun
import Aesd.Server.DeviceStream

set_option autoImplicit false

namespace Aesd.Server

open BoundedLoop CallRun Driver EndedGroups RecentWindow UnlessStopped

/-- One session: what server_protocol returned and what the client got. -/
def serve {File : Type} (ops : OutputFile File) (rounds : Nat) (file : File) (client : Client) :
    Except Stop ((Outcome × List Byte) × File) := do
  let (outcome, session, file) ← serverProtocol ops client rounds file
  return ((outcome, session.output), file)

/-- The stream starts with a line of text in which the seek command's name does
not occur, and no write to the socket fails. -/
structure SendsText (client : Client) (line : List Byte) : Prop where
  starts : line <+: client.sent
  closed : Closed EndsLine line
  plain : (0 : Byte) ∉ line
  absent : ¬seekPrefix <:+: line
  accepts : ∀ reply, client.accepts reply = true

theorem SendsText.sendsLine {client : Client} {line : List Byte} (text : SendsText client line) :
    ∃ extra, SendsLine client line extra := by
  obtain ⟨extra, sent⟩ := text.starts
  refine ⟨extra, sent.symm, text.closed, text.plain, ?_⟩
  intro step
  exact seekCommand_eq_none text.absent
    ((List.take_prefix _ _).isInfix.trans (List.drop_suffix _ _).isInfix)

theorem serve_text {File : Type} {stops : Stop → Prop} {ops : OutputFile File}
    (keeps : KeepsLog stops ops) {client : Client} {line : List Byte}
    (text : SendsText client line) {log : Log} (plain : log.Plain) {rounds : Nat}
    (enough : line.length + ((keeps.window (log.write line)).length + 1) < rounds) {file : File}
    (ready : keeps.Ready file log) :
    Unless stops (serve ops rounds file client) (fun served =>
      served.1 = (.retOk, keeps.window (log.write line)) ∧
        keeps.Ready served.2 (log.write line)) := by
  obtain ⟨extra, sends⟩ := text.sendsLine
  refine (sends.serverProtocol plain ready text.accepts enough).bind ?_
  rintro ⟨outcome, session, after⟩ served
  obtain ⟨rfl, output⟩ := served.answered text.accepts
  exact ⟨congrArg (Outcome.retOk, ·) output, served.ready⟩

/-- The answers to a list of lines, behind lines that were there before. -/
def AnsweredFrom (before lines : List (List Byte)) (replies : List (Outcome × List Byte)) : Prop :=
  replies.length = lines.length ∧
    ∀ index, index < lines.length → replies[index]? = some (.retOk,
      (recent aesdcharMaxWriteOperationsSupported (before ++ lines.take (index + 1))).flatten)

theorem AnsweredFrom.cons {before lines : List (List Byte)} {line : List Byte}
    {replies : List (Outcome × List Byte)} (later : AnsweredFrom (before ++ [line]) lines replies) :
    AnsweredFrom before (line :: lines) ((.retOk,
      (recent aesdcharMaxWriteOperationsSupported (before ++ [line])).flatten) :: replies) := by
  obtain ⟨sameLength, each⟩ := later
  refine ⟨congrArg Nat.succ sameLength, ?_⟩
  intro index inside
  cases index with
  | zero => rfl
  | succ index =>
      rw [List.getElem?_cons_succ, each index (Nat.lt_of_succ_lt_succ inside),
        List.take_succ_cons, List.append_assoc]
      rfl

/-- From any log without a begun line on, the sessions are answered in order. -/
theorem serve_texts (kernel : Kernel) {clients : List Client} {lines : List (List Byte)}
    (texts : List.Forall₂ SendsText clients lines) {log : Log} (plain : log.Plain)
    (nothing : log.begun = []) :
    ∃ enough, ∀ rounds, enough ≤ rounds → ∀ stream : DeviceStream, stream.Ready kernel log →
      Unless Refused (runCalls (serve (deviceStream kernel) rounds) stream clients) (fun ran =>
        AnsweredFrom log.lines lines ran.1 ∧ ran.2.Ready kernel (log.write lines.flatten)) := by
  induction texts generalizing log with
  | nil =>
      refine ⟨0, fun _rounds _enough stream ready => ⟨⟨rfl, ?_⟩, ?_⟩⟩
      · intro index impossible
        exact absurd impossible (Nat.not_lt_zero index)
      · rw [List.flatten_nil, Log.write_nil]
        exact ready
  | @cons client line clients lines text _texts ih =>
      have written := Log.lines_write_line nothing text.closed
      obtain ⟨enough, later⟩ := ih (plain.write text.plain) (log.begun_write_line text.closed)
      refine ⟨max enough (line.length + ((recentLines (log.write line)).length + 1) + 1), ?_⟩
      intro rounds large stream ready
      have inside : line.length + ((recentLines (log.write line)).length + 1) < rounds :=
        Nat.lt_of_succ_le (Nat.le_trans (Nat.le_max_right _ _) large)
      refine (serve_text (keepsDevice kernel) text plain inside ready).bind ?_
      rintro ⟨reply, middle⟩ ⟨rfl, kept⟩
      refine (later rounds (Nat.le_trans (Nat.le_max_left _ _) large) middle kept).bind ?_
      rintro ⟨replies, last⟩ ⟨answered, reached⟩
      rw [written] at answered
      refine ⟨?_, ?_⟩
      · have whole := answered.cons
        rw [← written] at whole
        exact whole
      · rw [Log.write_write] at reached
        exact reached

theorem texts_closed {clients : List Client} {lines : List (List Byte)}
    (texts : List.Forall₂ SendsText clients lines) :
    ∀ line, line ∈ lines → Closed EndsLine line := by
  induction texts with
  | nil =>
      intro line impossible
      cases impossible
  | cons text _texts ih =>
      intro line member
      rcases List.mem_cons.mp member with same | later
      · rw [same]
        exact text.closed
      · exact ih line later

theorem opened_ready (kernel : Kernel) (fPos : Nat → Int) :
    (DeviceStream.opened fPos).Ready kernel .empty where
  holds := ⟨[], [], initialized_settled fPos⟩
  behind := Or.inl rfl

/-- A freshly loaded driver behind the server: session k gets the last ten of
the first k lines, and the driver keeps exactly these as its commands. -/
theorem sessions_answer_recent_lines (kernel : Kernel) (fPos : Nat → Int) (clients : List Client)
    (lines : List (List Byte)) (texts : List.Forall₂ SendsText clients lines) :
    ∃ enough, ∀ rounds, enough ≤ rounds →
      (∀ stop, runCalls (serve (deviceStream kernel) rounds) (.opened fPos) clients =
        .error stop → ¬Refused stop) →
      ∃ replies stream,
        runCalls (serve (deviceStream kernel) rounds) (.opened fPos) clients =
          .ok (replies, stream) ∧
        replies.length = lines.length ∧
        (∀ index, index < lines.length → replies[index]? = some (.retOk,
          (recent aesdcharMaxWriteOperationsSupported (lines.take (index + 1))).flatten)) ∧
        stream.machine.storedCommands = recent aesdcharMaxWriteOperationsSupported lines ∧
        stream.machine.pendingBytes = [] := by
  obtain ⟨enough, served⟩ := serve_texts kernel texts Log.empty_plain rfl
  refine ⟨enough, ?_⟩
  intro rounds large granted
  obtain ⟨⟨replies, stream⟩, ran, ⟨sameLength, answered⟩, ready⟩ :=
    (served rounds large _ (opened_ready kernel fPos)).exists_ok granted
  obtain ⟨entries, lost, settled⟩ := ready.holds
  obtain ⟨whole, nothing⟩ := groups_of_all_closed (texts_closed texts)
  refine ⟨replies, stream, ran, sameLength, answered, ?_, ?_⟩
  · rw [settled.toLedger.storedCommands_eq]
    exact congrArg _ whole
  · rw [settled.toLedger.pendingBytes_eq]
    exact nothing

theorem serve_of_le {File : Type} {ops : OutputFile File} {rounds more : Nat}
    (enough : rounds ≤ more) {file : File} {client : Client}
    {answer : (Outcome × List Byte) × File} (served : serve ops rounds file client = .ok answer) :
    serve ops more file client = .ok answer := by
  unfold serve serverProtocol at served ⊢
  obtain ⟨result, ended, same⟩ := ok_of_bind served
  rw [repeatRounds_of_le ended enough]
  exact same

/-- A kernel that grants everything, behind a stdio buffer of 4096 bytes. -/
def generousKernel : Kernel where
  file := 0
  bufferSize := 4096
  bufferSize_pos := by decide
  outcome := fun _call => ⟨⟨true, fun _position => 0⟩, 0⟩
  uncopied := fun _call => 0

/-- Two sessions on a fresh driver. -/
theorem sessions_answer_recent_lines_two : ∃ rounds replies stream,
    runCalls (serve (deviceStream generousKernel) rounds) (.opened fun _file => 0)
        [politeClient [97, newline], politeClient [98, newline]] = .ok (replies, stream) ∧
      replies[1]? = some (.retOk, [97, newline, 98, newline]) ∧
      stream.machine.storedCommands = [[97, newline], [98, newline]] := by
  obtain ⟨enough, served⟩ := sessions_answer_recent_lines generousKernel (fun _file => 0)
    [politeClient [97, newline], politeClient [98, newline]] [[97, newline], [98, newline]]
    (.cons ⟨List.prefix_refl _, by decide, by decide, by decide,
        fun _reply => rfl⟩
      (.cons ⟨List.prefix_refl _, by decide, by decide, by decide,
        fun _reply => rfl⟩ .nil))
  have ended : (runCalls (serve (deviceStream generousKernel) 8) (.opened fun _file => 0)
      [politeClient [97, newline], politeClient [98, newline]]).isOk = true := by decide +kernel
  cases ran : runCalls (serve (deviceStream generousKernel) 8) (.opened fun _file => 0)
      [politeClient [97, newline], politeClient [98, newline]] with
  | error stop =>
      rw [ran] at ended
      cases ended
  | ok result =>
      have longer := runCalls_agree
        (fun _stream _client _answer made => serve_of_le (Nat.le_max_right enough 8) made) ran
      obtain ⟨replies, stream, run, _length, answered, stored, _pending⟩ :=
        served (max enough 8) (Nat.le_max_left enough 8) (by
          intro stop impossible
          rw [longer] at impossible
          cases impossible)
      exact ⟨_, replies, stream, run, answered 1 (by decide), stored⟩

end Aesd.Server
