/-
Requests that are not seek commands.

A request is cut into pieces of BUFFER_SIZE - 1 bytes, and each piece is
tested for a seek command and measured with strlen.  A line is stored as it
was sent exactly when no later piece looks like a seek command and no byte is
a NUL; the read-back is complete exactly when no byte ahead of it is a NUL.
-/

import Aesd.Server.FileCalls

set_option autoImplicit false

namespace Aesd.Server

open BoundedLoop Driver EndedGroups LineInput UnlessStopped

/-- What the loop reads of a line in its round `step`. -/
def pieceOf (line : List Byte) (step : Nat) : List Byte :=
  (line.drop (step * pieceSize)).take pieceSize

/-- No piece of the line behind its first one is taken as a seek command. -/
def LaterPiecesOrdinary (line : List Byte) : Prop :=
  ∀ step, 0 < step → step * pieceSize < line.length → seekCommand (pieceOf line step) = none

/-- The client's stream begins with a line, or it ends before its first newline. -/
inductive Request (client : Client) (line extra : List Byte) : Prop where
  | line (closed : Closed EndsLine line)
  | unfinished (unended : Unended EndsLine line) (nothing : extra = [])
      (closes : client.ending = .closes)

section Request

variable {File : Type} {ops : OutputFile File} {Good : File → Prop} {rest : File → List Byte}
  {client : Client} {line extra : List Byte}

theorem cString_piece (plain : (0 : Byte) ∉ line) (step : Nat) :
    cString (pieceOf line step) = pieceOf line step :=
  cString_eq_self (piece_plain plain step)

theorem take_pieceOf (line : List Byte) (step : Nat) :
    line.take (step * pieceSize) ++ pieceOf line step = line.take ((step + 1) * pieceSize) :=
  take_piece line step

theorem pieceOf_ne_nil {step : Nat} (inside : step * pieceSize < line.length) :
    pieceOf line step ≠ [] := by
  apply List.ne_nil_of_length_pos
  rw [pieceOf, List.length_take, List.length_drop]
  exact Nat.lt_min.mpr ⟨pieceSize_pos, Nat.sub_pos_of_lt inside⟩

/-- What fgets finds behind the pieces before `step`. -/
theorem Request.cut_at (request : Request client line extra) {step : Nat}
    (inside : step * pieceSize < line.length) :
    cut EndsLine pieceSize (line.drop (step * pieceSize) ++ extra) =
      (pieceOf line step, line.drop ((step + 1) * pieceSize) ++ extra) := by
  cases request with
  | line closed =>
      rw [cut_line _ (closed_drop closed inside), List.drop_drop, next_piece]
      rfl
  | unfinished unended nothing closes =>
      have restUnended : Unended EndsLine (line.drop (step * pieceSize)) :=
        fun byte member => unended byte (List.mem_of_mem_drop member)
      rw [nothing, List.append_nil, List.append_nil, cut_unended _ restUnended, List.drop_drop,
        next_piece]
      rfl

theorem Request.arrives (request : Request client line extra) {step : Nat}
    (inside : step * pieceSize < line.length) :
    Arrives EndsLine client.ending.fetched (line.drop (step * pieceSize) ++ extra) := by
  cases request with
  | line closed => exact arrives_closed _ (closed_drop closed inside) extra
  | unfinished unended nothing closes =>
      rw [closes]
      exact Or.inl rfl

theorem unread_ne_nil {step : Nat} (inside : step * pieceSize < line.length) :
    line.drop (step * pieceSize) ++ extra ≠ [] := by
  intro nothing
  have short := List.drop_eq_nil_iff.mp (List.append_eq_nil_iff.mp nothing).1
  omega

/-- The loop ends behind the last piece of a line, and nowhere else. -/
theorem Request.lastByte_iff (request : Request client line extra) {step : Nat}
    (inside : step * pieceSize < line.length) (unread : Nat) :
    lastByte client (pieceOf line step) unread = newline ↔
      Closed EndsLine line ∧ line.length ≤ (step + 1) * pieceSize := by
  cases request with
  | line closed =>
      rw [and_iff_right closed]
      exact lastByte_piece client closed inside unread
  | unfinished unended nothing closes =>
      refine iff_of_false ?_ ?_
      · have something := pieceOf_ne_nil inside
        rw [lastByte, List.getLast?_eq_some_getLast something]
        exact unended _ (List.mem_of_mem_drop (List.mem_of_mem_take (List.getLast_mem something)))
      · rintro ⟨⟨front, last, rfl, isEnd, _earlier⟩, _short⟩
        exact unended last List.mem_concat_self isEnd

/-! ### Requests without a NUL -/

/-- The calls store a text in pieces that are not empty, and do nothing else. -/
structure StoredPieces (text : List Byte) (calls : List (FileCall File)) : Prop where
  commands : commands calls = []
  written : written calls = text
  some_bytes : ∀ call, call ∈ calls → ∀ bytes, call = .fwrite bytes → bytes ≠ []
  unpositioned : ∀ start, .positioned start ∉ calls

theorem storedPieces_nil : StoredPieces [] ([] : List (FileCall File)) :=
  ⟨rfl, rfl, List.forall_mem_nil _, fun _start => List.not_mem_nil⟩

theorem StoredPieces.concat {text piece : List Byte} {calls : List (FileCall File)}
    (stored : StoredPieces text calls) (nonempty : piece ≠ []) :
    StoredPieces (text ++ piece) (calls ++ [.fwrite piece]) where
  commands := by
    rw [commands_concat, stored.commands]
    rfl
  written := by
    rw [written_concat, stored.written]
    rfl
  some_bytes := by
    intro call member bytes same
    rcases List.mem_append.mp member with before | new
    · exact stored.some_bytes call before bytes same
    · cases (List.mem_singleton.mp new).symm.trans same
      exact nonempty
  unpositioned := by
    intro start member
    rcases List.mem_append.mp member with before | new
    · exact stored.unpositioned start before
    · cases List.mem_singleton.mp new

/-- How the session of a request without a NUL ends, when its first piece is
not a seek command. -/
inductive RequestServed (rest : File → List Byte) (line extra : List Byte)
    (served : Outcome × Session × File × List (FileCall File)) : Prop where
  | answered (calls : List (FileCall File)) (closed : Closed EndsLine line)
      (ordinary : LaterPiecesOrdinary line) (stored : StoredPieces line calls)
      (answer : Answered rest extra calls served)
  | unfinished (unended : Unended EndsLine line) (ordinary : LaterPiecesOrdinary line)
      (stored : StoredPieces line served.2.2.2)
  | disguised (text unread : List Byte) (calls : List (FileCall File)) (seekTo : AesdSeekto)
      (disguised : ¬LaterPiecesOrdinary line) (stored : StoredPieces text calls)
      (short : text.length < line.length)
      (sought : Sought rest unread (calls ++ [.ioctlSeekto seekTo]) served)

/-- The pieces before `step` were stored as they were sent. -/
structure Storing (Good : File → Prop) (line extra : List Byte) (step : Nat)
    (state : Session × File × List (FileCall File)) : Prop where
  inside : step * pieceSize < line.length
  session : state.1 = ⟨.receiving, line.drop (step * pieceSize) ++ extra, [], 0⟩
  good : Good state.2.1
  stored : StoredPieces (line.take (step * pieceSize)) state.2.2
  ordinary : ∀ earlier, earlier < step → seekCommand (pieceOf line earlier) = none

theorem Storing.start (nonempty : line ≠ []) (sent : client.sent = line ++ extra) {file : File}
    (good : Good file) : Storing Good line extra 0 (.initial client, file, []) where
  inside := by
    rw [Nat.zero_mul]
    exact List.length_pos_iff.mpr nonempty
  session := by
    rw [Nat.zero_mul, List.drop_zero, ← sent]
    rfl
  good := good
  stored := by
    rw [Nat.zero_mul, List.take_zero]
    exact storedPieces_nil
  ordinary := fun earlier impossible => absurd impossible (Nat.not_lt_zero earlier)

/-- A piece that is a seek command ends the request early. -/
theorem Storing.disguised (serves : Serves ops Good rest)
    (accepts : ∀ reply, client.accepts reply = true) (request : Request client line extra)
    (plain : (0 : Byte) ∉ line) (first : seekCommand (pieceOf line 0) = none) {step : Nat}
    {state : Session × File × List (FileCall File)}
    (storing : Storing Good line extra step state) {seekTo : AesdSeekto}
    (command : seekCommand (pieceOf line step) = some seekTo) :
    Finishes .endless (protocolRound (traced ops) client) state
      (RequestServed rest line extra) := by
  obtain ⟨session, here, calls⟩ := state
  obtain ⟨inside, rfl, good, stored, _ordinary⟩ := storing
  have positive : 0 < step := by
    rcases Nat.eq_zero_or_pos step with rfl | positive
    · rw [first] at command
      cases command
    · exact positive
  have sought := serves.receive_seek accepts (unread_ne_nil inside)
    (request.arrives inside)
    (by rw [request.cut_at inside, cString_piece plain]; exact command) good calls
  refine sought.mono (fun served ended =>
    .disguised _ _ calls seekTo ?_ stored (by rw [List.length_take]; omega) ended)
  intro later
  rw [later step positive inside] at command
  cases command

/-- From a piece on, the session ends, or the next piece is stored. -/
theorem Storing.round (serves : Serves ops Good rest)
    (accepts : ∀ reply, client.accepts reply = true) (request : Request client line extra)
    (plain : (0 : Byte) ∉ line) (first : seekCommand (pieceOf line 0) = none) {step : Nat}
    {state : Session × File × List (FileCall File)}
    (storing : Storing Good line extra step state) :
    Finishes .endless (protocolRound (traced ops) client) state (RequestServed rest line extra) ∨
      ∃ following, protocolRound (traced ops) client state = .ok (.next following) ∧
        Storing Good line extra (step + 1) following ∧
        following.1.unread.length < state.1.unread.length := by
  cases command : seekCommand (pieceOf line step) with
  | some seekTo => exact Or.inl (storing.disguised serves accepts request plain first command)
  | none =>
      obtain ⟨session, here, calls⟩ := state
      obtain ⟨inside, rfl, good, before, earlier⟩ := storing
      have ordinary : ∀ earlier, earlier < step + 1 →
          seekCommand (pieceOf line earlier) = none := by
        intro number bound
        rcases Nat.lt_succ_iff_lt_or_eq.mp bound with sooner | rfl
        · exact earlier number sooner
        · exact command
      have stored := before.concat (pieceOf_ne_nil inside)
      rw [take_pieceOf] at stored
      have front := request.cut_at inside
      have nonempty : line.drop (step * pieceSize) ++ extra ≠ [] := unread_ne_nil inside
      have untested : seekCommand (cString (cut EndsLine pieceSize
          (line.drop (step * pieceSize) ++ extra)).1) = none := by
        rw [front, cString_piece plain]
        exact command
      by_cases last : Closed EndsLine line ∧ line.length ≤ (step + 1) * pieceSize
      · have answered := serves.receive_last accepts nonempty (request.arrives inside) untested
          (by
            rw [front, cString_piece plain]
            exact (request.lastByte_iff inside _).mpr last) good calls
        rw [front, cString_piece plain, List.drop_of_length_le last.2, List.nil_append] at answered
        rw [List.take_of_length_le last.2] at stored
        refine Or.inl (answered.mono (fun served answer =>
          .answered _ last.1 ?_ stored answer))
        intro later _positive within
        exact ordinary later (Nat.lt_of_mul_lt_mul_right (within.trans_le last.2))
      · obtain ⟨after, kept, made⟩ := serves.receive_write nonempty (request.arrives inside)
          untested good calls
        have unfinished : ¬lastByte client (pieceOf line step)
            (line.drop ((step + 1) * pieceSize) ++ extra).length = newline :=
          fun same => last ((request.lastByte_iff inside _).mp same)
        rw [front, cString_piece plain, if_neg unfinished] at made
        rcases Nat.lt_or_ge ((step + 1) * pieceSize) line.length with more | none
        · refine Or.inr ⟨_, made, ⟨more, rfl, kept, stored, ordinary⟩, ?_⟩
          have positive := pieceSize_pos
          have onward := next_piece step
          simp only [List.length_append, List.length_drop]
          omega
        · cases request with
          | line closed => exact absurd ⟨closed, none⟩ last
          | unfinished unended nothing closes =>
              subst nothing
              have noMore : line.drop ((step + 1) * pieceSize) ++ [] = [] := by
                rw [List.drop_of_length_le none, List.append_nil]
              rw [noMore] at made
              rw [List.take_of_length_le none] at stored
              obtain ⟨report, left⟩ := receive_end ops client after
                (calls ++ [.fwrite (pieceOf line step)])
              refine Or.inl (.of_next made (.of_leave left (.unfinished unended ?_ stored)))
              intro later _positive within
              exact ordinary later (Nat.lt_of_mul_lt_mul_right (within.trans_le none))

theorem Serves.request (serves : Serves ops Good rest)
    (accepts : ∀ reply, client.accepts reply = true) (request : Request client line extra)
    (sent : client.sent = line ++ extra) (plain : (0 : Byte) ∉ line)
    (first : seekCommand (pieceOf line 0) = none) {file : File} (good : Good file) :
    Finishes .endless (protocolRound (traced ops) client) (.initial client, file, [])
      (RequestServed rest line extra) := by
  by_cases nothing : line = []
  · cases request with
    | line closed => exact absurd (nothing ▸ closed) not_closed_nil
    | unfinished unended noMore closes =>
        subst nothing noMore
        obtain ⟨report, left⟩ := receive_end ops client file []
        have start : Session.initial client = ⟨.receiving, [], [], 0⟩ := by
          rw [Session.initial, sent]
          rfl
        rw [start]
        refine Finishes.of_leave left (.unfinished unended ?_ storedPieces_nil)
        intro step _positive within
        exact absurd within (Nat.not_lt_zero _)
  let invariant (state : Session × File × List (FileCall File)) : Prop :=
    ∃ step, Storing Good line extra step state
  have initially : invariant (.initial client, file, []) := ⟨0, .start nothing sent good⟩
  refine Finishes.of_measure (fun state => state.1.unread.length) ?_ initially
  rintro state ⟨step, storing⟩
  rcases storing.round serves accepts request plain first with
    finishes | ⟨following, made, kept, smaller⟩
  · exact Or.inl finishes
  · exact Or.inr ⟨following, made, ⟨step + 1, kept⟩, smaller⟩

/-! ### Lines stored verbatim -/

end Request

/-- The first piece is taken as a seek command. -/
def SeekRequest (sent : List Byte) : Prop :=
  seekCommand (cString (cut EndsLine pieceSize sent).1) ≠ none

instance : DecidablePred SeekRequest :=
  fun sent => inferInstanceAs (Decidable (seekCommand (cString (cut EndsLine pieceSize sent).1) ≠ none))

section Arbitrary

variable {File : Type} {ops : OutputFile File} {Good : File → Prop} {rest : File → List Byte}
  {client : Client}

end Arbitrary

end Aesd.Server
