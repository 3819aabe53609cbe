/-
What one session does to the log.

A client either sends an ordinary line first, or nothing that is written: its
first piece is missing or is a seek command.  The first kind of session adds
its line to the log and returns the window behind it; the second kind leaves
the log as it was.  Each phase of a session has its own relation to the log,
and each round leads from one to the next.
-/

import Aesd.Server.LineLog

set_option autoImplicit false

namespace Aesd.Server

open BoundedLoop Driver EndedGroups LineInput UnlessStopped

/-- The stream starts with a line of text, and no piece of the line is taken
as a seek command. -/
structure SendsLine (client : Client) (line extra : List Byte) : Prop where
  sent : client.sent = line ++ extra
  closed : Closed EndsLine line
  plain : (0 : Byte) ∉ line
  ordinary : ∀ step, seekCommand ((line.drop (step * pieceSize)).take pieceSize) = none

/-- The first fgets returns NULL or a seek command. -/
def Client.Quiet (client : Client) : Prop :=
  ∃ found unread, fgets EndsLine (getcFrom client.ending.fetched) bufferSize client.sent =
      (.ok (found, unread) : Except Stop _) ∧
    ∀ bytes, found = some bytes → seekCommand (cString bytes) ≠ none

section Session

variable {File : Type} {stops : Stop → Prop} {ops : OutputFile File} (keeps : KeepsLog stops ops)
  (client : Client)

/-- If the next write to the socket fails, the read-back may be left there. -/
def Calm (session : Session) (file : File) : Prop :=
  session.phase = .readingBack → client.accepts session.replies = false →
    ∀ log ahead, keeps.Reading file log ahead →
      cString (cut EndsLine pieceSize ahead).1 ≠ [] →
        keeps.MayLeave (cut EndsLine pieceSize ahead).2

theorem Calm.of_accepts {keeps : KeepsLog stops ops} {client : Client}
    (accepts : ∀ reply, client.accepts reply = true) {session : Session} {file : File} :
    Calm keeps client session file := by
  intro _phase refuses
  rw [accepts] at refuses
  cases refuses

/-- A session of a client that sends a line, on the log from before it; the
number bounds the rounds to come. -/
inductive ServingLine (log : Log) (line extra : List Byte) : Nat → Session → File → Prop where
  | receiving {file : File} (step : Nat) (inside : step * pieceSize < line.length)
      (ready : keeps.Ready file (log.write (line.take (step * pieceSize)))) :
      ServingLine log line extra
        (line.length - step * pieceSize + ((keeps.window (log.write line)).length + 1))
        ⟨.receiving, line.drop (step * pieceSize) ++ extra, [], 0⟩ file
  | positioning {file : File} (unread : List Byte) (ready : keeps.Ready file (log.write line)) :
      ServingLine log line extra ((keeps.window (log.write line)).length + 1)
        ⟨.positioning false, unread, [], 0⟩ file
  | readingBack {file : File} (unread output ahead : List Byte) (replies : Nat)
      (reading : keeps.Reading file (log.write line) ahead)
      (whole : output ++ ahead = keeps.window (log.write line)) :
      ServingLine log line extra ahead.length ⟨.readingBack, unread, output, replies⟩ file

/-- A session of a quiet client. -/
inductive ServingQuiet (log : Log) : Session → File → Prop where
  | receiving {file : File} (ready : keeps.Ready file log) :
      ServingQuiet log (.initial client) file
  | positioning {file : File} (unread : List Byte) (seeking : keeps.Seeking file log) :
      ServingQuiet log ⟨.positioning true, unread, [], 0⟩ file
  | readingBack {file : File} (unread output ahead : List Byte) (replies : Nat)
      (reading : keeps.Reading file log ahead) :
      ServingQuiet log ⟨.readingBack, unread, output, replies⟩ file

/-- RET_ERR because the stream ended before its newline. -/
def Outcome.MissedNewline (outcome : Outcome) : Prop :=
  outcome = .retErr .errorReadingSocket ∨ outcome = .retErr .missingNewline

/-- How such a session ends. -/
structure ServedLine (log : Log) (line : List Byte) (outcome : Outcome) (session : Session)
    (file : File) : Prop where
  ready : keeps.Ready file (log.write line)
  complete : ¬outcome.MissedNewline
  answered : (∀ reply, client.accepts reply = true) →
    outcome = .retOk ∧ session.output = keeps.window (log.write line)

/-- What a round may come to, when `left` bounds the rounds to come. -/
def RoundLine (log : Log) (line extra : List Byte) (left : Nat) :
    Round (Session × File) (Outcome × Session × File) → Prop :=
  RoundMeets
    (fun next => ∃ fewer, fewer < left ∧ ServingLine keeps log line extra fewer next.1 next.2)
    (fun served => ServedLine keeps client log line served.1 served.2.1 served.2.2)

def RoundQuiet (log : Log) : Round (Session × File) (Outcome × Session × File) → Prop :=
  RoundMeets (fun next => ServingQuiet keeps client log next.1 next.2)
    (fun served => keeps.Ready served.2.2 log)

variable {keeps client} {log : Log} {line extra : List Byte} {file : File}

/-! ### Receiving -/

theorem SendsLine.piece_chunk (sends : SendsLine client line extra) {step : Nat}
    (inside : step * pieceSize < line.length) :
    Chunk EndsLine ((line.drop (step * pieceSize)).take pieceSize) := by
  have cutOff := cut_chunk EndsLine pieceSize (line.drop (step * pieceSize) ++ extra)
  rw [cut_line _ (closed_drop sends.closed inside)] at cutOff
  exact cutOff

theorem piece_plain (plain : (0 : Byte) ∉ line) (step : Nat) :
    (0 : Byte) ∉ (line.drop (step * pieceSize)).take pieceSize :=
  fun member => plain (List.mem_of_mem_drop (List.mem_of_mem_take member))

theorem take_piece (line : List Byte) (step : Nat) :
    line.take (step * pieceSize) ++ (line.drop (step * pieceSize)).take pieceSize =
      line.take ((step + 1) * pieceSize) := by
  rw [← List.take_add, Nat.succ_mul]

theorem pieceSize_pos : 0 < pieceSize := by decide

theorem next_piece (step : Nat) : (step + 1) * pieceSize = step * pieceSize + pieceSize :=
  Nat.succ_mul step pieceSize

/-- The last byte of a piece tells whether the line is complete. -/
theorem lastByte_piece (client : Client) (closed : Closed EndsLine line) {step : Nat}
    (inside : step * pieceSize < line.length) (unread : Nat) :
    lastByte client ((line.drop (step * pieceSize)).take pieceSize) unread = newline ↔
      line.length ≤ (step + 1) * pieceSize := by
  have restClosed := closed_drop closed inside
  have restLength : (line.drop (step * pieceSize)).length = line.length - step * pieceSize :=
    List.length_drop
  have onward := next_piece step
  by_cases last : line.length ≤ (step + 1) * pieceSize
  · refine iff_of_true ?_ last
    rw [List.take_of_length_le (by rw [restLength]; omega)]
    obtain ⟨front, final, whole, isEnd, _earlier⟩ := restClosed
    rw [lastByte, whole, List.getLast?_concat]
    exact isEnd
  · refine iff_of_false ?_ last
    have open_ := unended_take restClosed (show pieceSize < _ by rw [restLength]; omega)
    have something : (line.drop (step * pieceSize)).take pieceSize ≠ [] := by
      apply List.ne_nil_of_length_pos
      rw [List.length_take, restLength]
      exact Nat.lt_min.mpr ⟨pieceSize_pos, Nat.sub_pos_of_lt inside⟩
    rw [lastByte, List.getLast?_eq_some_getLast something]
    exact open_ _ (List.getLast_mem something)

theorem SendsLine.receiveRound (sends : SendsLine client line extra) {step : Nat}
    (inside : step * pieceSize < line.length)
    (ready : keeps.Ready file (log.write (line.take (step * pieceSize)))) :
    Unless stops
      (receiveRound ops client ⟨.receiving, line.drop (step * pieceSize) ++ extra, [], 0⟩ file)
      (RoundLine keeps client log line extra
        (line.length - step * pieceSize + ((keeps.window (log.write line)).length + 1))) := by
  have arrived : fgets EndsLine (getcFrom client.ending.fetched) bufferSize
      (line.drop (step * pieceSize) ++ extra) =
        (.ok (some ((line.drop (step * pieceSize)).take pieceSize),
          line.drop ((step + 1) * pieceSize) ++ extra) : Except Stop _) := by
    rw [fgets_line _ (by decide) (closed_drop sends.closed inside), List.drop_drop, Nat.succ_mul]
  have buffer := cString_eq_self (piece_plain sends.plain step)
  simp only [Server.receiveRound, arrived, ok_bind, buffer, sends.ordinary step]
  refine (keeps.write ready (sends.piece_chunk inside) (List.length_take_le _ _)).bind ?_
  rintro ⟨writeRet, after⟩ ⟨rfl, written⟩
  rw [Log.write_write, take_piece] at written
  simp only [ne_eq, not_true_eq_false, if_false,
    lastByte_piece client sends.closed inside]
  have positive := pieceSize_pos
  by_cases last : line.length ≤ (step + 1) * pieceSize
  · rw [if_pos last]
    rw [List.take_of_length_le last] at written
    exact ⟨_, by omega, .positioning _ written⟩
  · rw [if_neg last]
    refine ⟨_, ?_, .receiving (step + 1) (by omega) written⟩
    rw [next_piece]
    omega

/-! ### Positioning and reading back -/

theorem ServingLine.positionRound (unread : List Byte)
    (ready : keeps.Ready file (log.write line)) :
    Unless stops (positionRound ops false ⟨.positioning false, unread, [], 0⟩ file)
      (RoundLine keeps client log line extra ((keeps.window (log.write line)).length + 1)) := by
  refine (keeps.rewind ready).bind ?_
  intro after reading
  exact ⟨_, Nat.lt_succ_self _, .readingBack unread [] _ 0 reading (List.nil_append _)⟩

theorem KeepsLog.window_plain (plain : log.Plain) : (0 : Byte) ∉ keeps.window log :=
  fun member => plain (keeps.window_subset log 0 member)

theorem ServingLine.readBackRound (sends : SendsLine client line extra) (plain : log.Plain)
    (unread output ahead : List Byte) (replies : Nat)
    (reading : keeps.Reading file (log.write line) ahead)
    (whole : output ++ ahead = keeps.window (log.write line))
    (calm : Calm keeps client ⟨.readingBack, unread, output, replies⟩ file) :
    Unless stops (readBackRound ops client ⟨.readingBack, unread, output, replies⟩ file)
      (RoundLine keeps client log line extra ahead.length) := by
  refine (fgets_unless (keeps.getc (log.write line)) (by decide) reading).bind ?_
  rintro ⟨found, after⟩ ⟨rfl, kept, ended⟩
  by_cases nothing : ahead = []
  · subst nothing
    rw [List.append_nil] at whole
    simp only [if_true, ended rfl]
    refine ⟨keeps.leave kept keeps.mayLeave_end, ?_, fun _accepts => ⟨rfl, whole⟩⟩
    rintro (impossible | impossible) <;> cases impossible
  · have front := cut_append EndsLine pieceSize ahead
    have buffer : cString (cut EndsLine pieceSize ahead).1 = (cut EndsLine pieceSize ahead).1 := by
      apply cString_eq_self
      intro member
      have inWindow : (0 : Byte) ∈ keeps.window (log.write line) := by
        rw [← whole, ← front]
        exact List.mem_append_right _ (List.mem_append_left _ member)
      exact keeps.window_plain (plain.write sends.plain) inWindow
    simp only [if_neg nothing, buffer]
    split
    · refine ⟨_, cut_rest_length_lt pieceSize_pos nothing, .readingBack _ _ _ _ kept ?_⟩
      rw [List.append_assoc, front]
      exact whole
    · rename_i failed
      rw [not_or, Bool.not_eq_true] at failed
      have sent : cString (cut EndsLine pieceSize ahead).1 ≠ [] := buffer.symm ▸ failed.1
      refine ⟨keeps.leave kept (calm rfl failed.2 _ _ reading sent), ?_, ?_⟩
      · rintro (impossible | impossible) <;> cases impossible
      · intro accepts
        rw [accepts replies] at failed
        cases failed.2

/-- Each round of a line's session leads on to the next. -/
theorem ServingLine.round {left : Nat} {session : Session}
    (serving : ServingLine keeps log line extra left session file)
    (sends : SendsLine client line extra) (plain : log.Plain)
    (calm : Calm keeps client session file) :
    Unless stops (protocolRound ops client (session, file))
      (RoundLine keeps client log line extra left) := by
  cases serving with
  | receiving step inside ready => exact sends.receiveRound inside ready
  | positioning unread ready => exact ServingLine.positionRound unread ready
  | readingBack unread output ahead replies reading whole =>
      exact ServingLine.readBackRound sends plain unread output ahead replies reading whole calm

theorem SendsLine.initial (sends : SendsLine client line extra) (ready : keeps.Ready file log) :
    ServingLine keeps log line extra
      (line.length + ((keeps.window (log.write line)).length + 1)) (.initial client) file := by
  have start : ServingLine keeps log line extra _ _ file :=
    .receiving 0 (by
      rw [Nat.zero_mul]
      exact List.length_pos_iff.mpr (fun empty => not_closed_nil (empty ▸ sends.closed))) (by
      rw [Nat.zero_mul, List.take_zero, Log.write_nil]
      exact ready)
  rw [Nat.zero_mul, List.drop_zero, Nat.sub_zero, ← sends.sent] at start
  exact start

/-- With enough rounds server_protocol answers such a client. -/
theorem SendsLine.serverProtocol (sends : SendsLine client line extra) (plain : log.Plain)
    (ready : keeps.Ready file log) (accepts : ∀ reply, client.accepts reply = true)
    {rounds : Nat}
    (enough : line.length + ((keeps.window (log.write line)).length + 1) < rounds) :
    Unless stops (serverProtocol ops client rounds file) (fun served =>
      ServedLine keeps client log line served.1 served.2.1 served.2.2) := by
  let invariant (left : Nat) (state : Session × File) : Prop :=
    ServingLine keeps log line extra left state.1 state.2
  have one : ∀ left state, invariant left state →
      Unless stops (protocolRound ops client state) (RoundLine keeps client log line extra left) :=
    fun _left _state serving => ServingLine.round serving sends plain (Calm.of_accepts accepts)
  have initially : invariant _ (.initial client, file) := sends.initial ready
  exact Unless.repeatRounds one initially enough

/-! ### Quiet clients -/

theorem ServingQuiet.round {session : Session}
    (serving : ServingQuiet keeps client log session file) (quiet : client.Quiet)
    (calm : Calm keeps client session file) :
    Unless Any (protocolRound ops client (session, file)) (RoundQuiet keeps client log) := by
  cases serving with
  | receiving ready =>
      obtain ⟨found, unread, arrived, noLine⟩ := quiet
      cases found with
      | none =>
          simp only [protocolRound, Session.initial, receiveRound, arrived, ok_bind]
          cases client.ending <;> exact ready
      | some bytes =>
          cases command : seekCommand (cString bytes) with
          | none => exact absurd command (noLine bytes rfl)
          | some seekTo =>
              simp only [protocolRound, Session.initial, receiveRound, arrived, ok_bind, command]
              refine (keeps.ioctlSeekto seekTo ready).bind ?_
              rintro ⟨ret, after⟩ kept
              by_cases failed : ret = -1
              · simp only [if_pos failed] at kept ⊢
                exact kept
              · simp only [if_neg failed] at kept ⊢
                exact .positioning unread kept
  | positioning unread seeking =>
      refine (keeps.seekCur seeking).bind ?_
      rintro after ⟨ahead, reading⟩
      exact .readingBack unread [] ahead 0 reading
  | readingBack unread output ahead replies reading =>
      refine (fgets_unless (keeps.getc log) (by decide) reading).whenever.bind ?_
      rintro ⟨found, after⟩ ⟨rfl, kept, ended⟩
      by_cases nothing : ahead = []
      · subst nothing
        simp only [if_true, ended rfl]
        exact keeps.leave kept keeps.mayLeave_end
      · simp only [if_neg nothing]
        split
        · exact .readingBack _ _ _ _ kept
        · rename_i failed
          rw [not_or, Bool.not_eq_true] at failed
          exact keeps.leave kept (calm rfl failed.2 _ _ reading failed.1)

/-! ### Any client -/

/-- Whatever a client sends, the file stands for some log while it is served. -/
def Holds (keeps : KeepsLog stops ops) (log : Log) (session : Session) (file : File) : Prop :=
  match session.phase with
  | .receiving => keeps.Ready file log
  | .positioning true => keeps.Seeking file log
  | .positioning false => keeps.Ready file log
  | .readingBack => ∃ ahead, keeps.Reading file log ahead

/-- A round only adds to the log. -/
def RoundAdds (keeps : KeepsLog stops ops) (log : Log) :
    Round (Session × File) (Outcome × Session × File) → Prop :=
  RoundMeets (fun next => ∃ added, Holds keeps (log.write added) next.1 next.2)
    (fun served => ∃ added, keeps.Ready served.2.2 (log.write added))

theorem RoundAdds.unchanged {session : Session} (holds : Holds keeps log session file) :
    RoundAdds keeps log (.next (session, file)) := ⟨[], by rwa [Log.write_nil]⟩

theorem KeepsLog.left (ready : keeps.Ready file log) :
    ∃ added, keeps.Ready file (log.write added) := ⟨[], by rwa [Log.write_nil]⟩

theorem Ending.fetched_ne_item (ending : Ending) (byte : Byte) : ending.fetched ≠ .item byte := by
  cases ending <;> exact fun impossible => nomatch impossible

theorem KeepsLog.receiveRound (unread output : List Byte) (replies : Nat)
    (ready : keeps.Ready file log) :
    Unless Any (receiveRound ops client ⟨.receiving, unread, output, replies⟩ file)
      (RoundAdds keeps log) := by
  obtain ⟨found, arrived, front⟩ : ∃ found, fgets EndsLine (getcFrom client.ending.fetched)
      bufferSize unread = (.ok (found, (cut EndsLine pieceSize unread).2) : Except Stop _) ∧
      ∀ chunk, found = some chunk → chunk = (cut EndsLine pieceSize unread).1 ∧ chunk ≠ [] :=
    fgets_getcFrom _ _ client.ending.fetched_ne_item
  simp only [Server.receiveRound, arrived, ok_bind]
  cases found with
  | none => cases client.ending <;> exact keeps.left ready
  | some bytes =>
      have chunk : Chunk EndsLine (cString bytes) := by
        rw [(front bytes rfl).1]
        exact chunk_of_isPrefix (cut_chunk EndsLine _ _) (cString_isPrefix _)
      have short : (cString bytes).length ≤ pieceSize := by
        apply Nat.le_trans (cString_isPrefix _).length_le
        rw [(front bytes rfl).1]
        exact cut_length_le EndsLine _ _
      cases command : seekCommand (cString bytes) with
      | some seekTo =>
          simp only [command]
          refine (keeps.ioctlSeekto seekTo ready).bind ?_
          rintro ⟨ret, after⟩ kept
          by_cases failed : ret = -1
          · simp only [if_pos failed] at kept ⊢
            exact keeps.left kept
          · simp only [if_neg failed] at kept ⊢
            exact RoundAdds.unchanged kept
      | none =>
          simp only [command]
          refine (keeps.write ready chunk short).whenever.bind ?_
          rintro ⟨writeRet, after⟩ ⟨rfl, written⟩
          simp only [ne_eq, not_true_eq_false, if_false]
          split <;> exact ⟨cString bytes, written⟩

theorem KeepsLog.positionRound (isSeekSetCommand : Bool) (unread output : List Byte)
    (replies : Nat)
    (holds : Holds keeps log ⟨.positioning isSeekSetCommand, unread, output, replies⟩ file) :
    Unless Any (positionRound ops isSeekSetCommand
        ⟨.positioning isSeekSetCommand, unread, output, replies⟩ file)
      (RoundAdds keeps log) := by
  cases isSeekSetCommand with
  | true =>
      refine (keeps.seekCur holds).bind ?_
      intro after reading
      exact RoundAdds.unchanged reading
  | false =>
      refine (keeps.rewind holds).whenever.bind ?_
      intro after reading
      exact RoundAdds.unchanged ⟨_, reading⟩

theorem KeepsLog.readBackRound (unread output ahead : List Byte) (replies : Nat)
    (reading : keeps.Reading file log ahead)
    (calm : Calm keeps client ⟨.readingBack, unread, output, replies⟩ file) :
    Unless Any (readBackRound ops client ⟨.readingBack, unread, output, replies⟩ file)
      (RoundAdds keeps log) := by
  refine (fgets_unless (keeps.getc log) (by decide) reading).whenever.bind ?_
  rintro ⟨found, after⟩ ⟨rfl, kept, ended⟩
  by_cases nothing : ahead = []
  · subst nothing
    simp only [if_true, ended rfl]
    exact keeps.left (keeps.leave kept keeps.mayLeave_end)
  · simp only [if_neg nothing]
    split
    · exact RoundAdds.unchanged ⟨_, kept⟩
    · rename_i failed
      rw [not_or, Bool.not_eq_true] at failed
      exact keeps.left (keeps.leave kept (calm rfl failed.2 _ _ reading failed.1))

theorem Holds.round {session : Session} (holds : Holds keeps log session file)
    (calm : Calm keeps client session file) :
    Unless Any (protocolRound ops client (session, file)) (RoundAdds keeps log) := by
  obtain ⟨phase, unread, output, replies⟩ := session
  cases phase with
  | receiving => exact keeps.receiveRound unread output replies holds
  | positioning isSeekSetCommand =>
      exact keeps.positionRound isSeekSetCommand unread output replies holds
  | readingBack =>
      obtain ⟨ahead, reading⟩ := holds
      exact keeps.readBackRound unread output ahead replies reading calm

end Session

end Aesd.Server
