/-
What a session asks of its output file.

`traced` records every write to the output file, every seek command passed to
its driver, and the state in which the read-back starts.  `Serves` describes a
file whose operations all succeed; a session of a client that takes every
answer then comes to its end, and its second half adds nothing to the record.
-/

import Aesd.Server.RegularFile

set_option autoImplicit false

namespace Aesd.Server

open BoundedLoop Driver EndedGroups LineInput UnlessStopped

inductive FileCall (File : Type) where
  | fwrite (bytes : List Byte)
  | ioctlSeekto (seekTo : AesdSeekto)
  | positioned (start : File)
  deriving DecidableEq, Repr

/-- The output file together with a record of what was asked of it. -/
def traced {File : Type} (ops : OutputFile File) : OutputFile (File × List (FileCall File)) where
  getc := fun (file, calls) => do
    let (fetched, after) ← ops.getc file
    return (fetched, after, calls)
  fwrite := fun (file, calls) bytes => do
    let (written, after) ← ops.fwrite file bytes
    return (written, after, calls ++ [.fwrite bytes])
  rewind := fun (file, calls) => do
    let after ← ops.rewind file
    return (after, calls ++ [.positioned after])
  seekCur := fun (file, calls) => do
    let after ← ops.seekCur file
    return (after, calls ++ [.positioned after])
  ioctlSeekto := fun (file, calls) seekTo => do
    let (ret, after) ← ops.ioctlSeekto file seekTo
    return (ret, after, calls ++ [.ioctlSeekto seekTo])
  feof := fun (file, _calls) => ops.feof file

section Records

variable {File : Type}

/-- The bytes of a call that writes. -/
def FileCall.written : FileCall File → List Byte
  | .fwrite bytes => bytes
  | _ => []

def FileCall.command : FileCall File → Option AesdSeekto
  | .ioctlSeekto seekTo => some seekTo
  | _ => none

/-- All bytes written to the output file, in order. -/
def written (calls : List (FileCall File)) : List Byte := calls.flatMap FileCall.written

/-- The arguments of the AESDCHAR_IOCSEEKTO calls, in order. -/
def commands (calls : List (FileCall File)) : List AesdSeekto := calls.filterMap FileCall.command

@[simp] theorem written_nil : written ([] : List (FileCall File)) = [] := rfl

@[simp] theorem commands_nil : commands ([] : List (FileCall File)) = [] := rfl

@[simp] theorem written_concat (calls : List (FileCall File)) (call : FileCall File) :
    written (calls ++ [call]) = written calls ++ call.written := by
  rw [written, written, List.flatMap_append, List.flatMap_singleton]

@[simp] theorem commands_concat (calls : List (FileCall File)) (call : FileCall File) :
    commands (calls ++ [call]) = commands calls ++ call.command.toList := by
  rw [commands, commands, List.filterMap_append]
  cases call <;> rfl

end Records

/-- A file whose operations succeed in every `Good` state; `rest` is what lies
between its position and its end. -/
structure Serves {File : Type} (ops : OutputFile File) (Good : File → Prop)
    (rest : File → List Byte) : Prop where
  fwrite : ∀ file bytes, Good file → bytes.length ≤ pieceSize →
    Unless Never (ops.fwrite file bytes) (fun answer => answer.1 = bytes.length ∧ Good answer.2)
  rewind : ∀ file, Good file → Unless Never (ops.rewind file) Good
  seekCur : ∀ file, Good file → Unless Never (ops.seekCur file) Good
  ioctlSeekto : ∀ file seekTo, Good file →
    Unless Never (ops.ioctlSeekto file seekTo) (fun answer => Good answer.2)
  getc : Supplies Never ops.getc (fun file ahead => Good file ∧ rest file = ahead)
    (fun file => ops.feof file = true)

theorem succeeds_of_never {First : Type} {result : Except Stop First} {post : First → Prop}
    (holds : Unless Never result post) : ∃ value, result = .ok value ∧ post value :=
  holds.exists_ok (fun _error _same => id)

section Session

variable {File : Type} {ops : OutputFile File} {Good : File → Prop} {rest : File → List Byte}
  {client : Client}

/-! ### The second half of a session -/

/-- What the read-back of `ahead` bytes returns: all of them if none is a NUL. -/
structure Returned (ahead returned : List Byte) : Prop where
  plain : (0 : Byte) ∉ returned
  whole : (0 : Byte) ∉ ahead → returned = ahead

theorem cString_plain (bytes : List Byte) : (0 : Byte) ∉ cString bytes := by
  intro member
  have kept := List.mem_takeWhile_imp member
  rw [decide_eq_true_eq] at kept
  exact kept rfl

theorem Serves.fgets_traced (serves : Serves ops Good rest) {file : File} (good : Good file)
    (calls : List (FileCall File)) :
    ∃ after, fgets EndsLine (traced ops).getc bufferSize (file, calls) =
        .ok (if rest file = [] then none else some (cut EndsLine pieceSize (rest file)).1,
          after, calls) ∧
      Good after ∧ rest after = (cut EndsLine pieceSize (rest file)).2 ∧
      (rest file = [] → ops.feof after = true) := by
  have supplies : Supplies Never (traced ops).getc
      (fun source ahead => (Good source.1 ∧ rest source.1 = ahead) ∧ source.2 = calls)
      (fun source => (traced ops).feof source = true) := by
    rintro ⟨source, recorded⟩ ahead ⟨known, rfl⟩
    refine (serves.getc source ahead known).bind ?_
    rintro ⟨fetched, after⟩ taken
    cases ahead with
    | nil =>
        obtain ⟨rfl, kept, ended⟩ := taken
        exact ⟨rfl, ⟨kept, rfl⟩, ended⟩
    | cons byte bytes =>
        obtain ⟨rfl, kept⟩ := taken
        exact ⟨rfl, kept, rfl⟩
  let source : File × List (FileCall File) := (file, calls)
  have known : (Good source.1 ∧ rest source.1 = rest file) ∧ source.2 = calls :=
    ⟨⟨good, rfl⟩, rfl⟩
  have read : Unless Never (fgets EndsLine (traced ops).getc bufferSize source) _ :=
    fgets_unless supplies (by decide) known
  obtain ⟨⟨found, after, recorded⟩, result, rfl, ⟨⟨kept, same⟩, rfl⟩, ended⟩ :=
    succeeds_of_never read
  exact ⟨after, result, kept, same, ended⟩

/-- How a session ends that had reached its read-back. -/
structure ReadsBack (ahead : List Byte) (session : Session) (calls : List (FileCall File))
    (served : Outcome × Session × File × List (FileCall File)) : Prop where
  outcome : served.1 = .retOk
  unread : served.2.1.unread = session.unread
  returned : ∃ returned, served.2.1.output = session.output ++ returned ∧ Returned ahead returned
  calls : served.2.2.2 = calls

theorem Serves.readBack (serves : Serves ops Good rest)
    (accepts : ∀ reply, client.accepts reply = true) {session : Session}
    (phase : session.phase = .readingBack) {file : File} (good : Good file)
    (calls : List (FileCall File)) :
    Finishes .endless (protocolRound (traced ops) client) (session, file, calls)
      (ReadsBack (rest file) session calls) := by
  let invariant (state : Session × File × List (FileCall File)) : Prop :=
    state.1.phase = .readingBack ∧ state.1.unread = session.unread ∧ Good state.2.1 ∧
      state.2.2 = calls ∧ ∃ front returned, front ++ rest state.2.1 = rest file ∧
        state.1.output = session.output ++ returned ∧ Returned front returned
  have initially : invariant (session, file, calls) :=
    ⟨phase, rfl, good, rfl, [], [], rfl, (List.append_nil _).symm, List.not_mem_nil, fun _ => rfl⟩
  refine Finishes.of_measure (fun state => (rest state.2.1).length) ?_ initially
  rintro ⟨⟨phase, unread, output, replies⟩, here, recorded⟩
    ⟨rfl, rfl, kept, rfl, front, returned, whole, rfl, answer⟩
  dsimp only at *
  obtain ⟨after, read, goodAfter, onward, ended⟩ := serves.fgets_traced kept recorded
  by_cases nothing : rest here = []
  · have atEnd : (traced ops).feof (after, recorded) = true := ended nothing
    rw [nothing, List.append_nil] at whole
    have left : protocolRound (traced ops) client
        (⟨.readingBack, session.unread, session.output ++ returned, replies⟩, here, recorded) =
          .ok (.leave (.retOk, ⟨.readingBack, session.unread, session.output ++ returned, replies⟩,
            after, recorded)) := by
      simp only [protocolRound, readBackRound, read, ok_bind, if_pos nothing, atEnd, if_true]
      rfl
    exact Or.inl (Finishes.of_leave left ⟨rfl, rfl, ⟨returned, rfl, whole ▸ answer⟩, rfl⟩)
  · have next : protocolRound (traced ops) client
        (⟨.readingBack, session.unread, session.output ++ returned, replies⟩, here, recorded) =
          .ok (.next (⟨.readingBack, session.unread, session.output ++ returned ++
            cString (cut EndsLine pieceSize (rest here)).1, replies + 1⟩, after, recorded)) := by
      simp only [protocolRound, readBackRound, read, ok_bind, if_neg nothing, accepts, or_true,
        if_true]
      rfl
    refine Or.inr ⟨_, next, ⟨rfl, rfl, goodAfter, rfl,
      front ++ (cut EndsLine pieceSize (rest here)).1,
      returned ++ cString (cut EndsLine pieceSize (rest here)).1, ?_, ?_, ?_, ?_⟩, ?_⟩
    · rw [List.append_assoc, onward, cut_append]
      exact whole
    · rw [List.append_assoc]
    · rw [List.mem_append]
      exact fun either => either.elim answer.plain (cString_plain _)
    · intro plain
      rw [List.mem_append, not_or] at plain
      rw [answer.whole plain.1, cString_eq_self plain.2]
    · dsimp only
      rw [onward]
      exact cut_rest_length_lt pieceSize_pos nothing

/-- The rest of a session behind its request. -/
theorem Serves.answer (serves : Serves ops Good rest)
    (accepts : ∀ reply, client.accepts reply = true) (isSeekSetCommand : Bool)
    (unread : List Byte) {file : File} (good : Good file) (calls : List (FileCall File)) :
    ∃ start, Finishes .endless (protocolRound (traced ops) client)
      (⟨.positioning isSeekSetCommand, unread, [], 0⟩, file, calls)
      (ReadsBack (rest start) ⟨.readingBack, unread, [], 0⟩ (calls ++ [.positioned start])) := by
  cases isSeekSetCommand with
  | true =>
      obtain ⟨start, sought, kept⟩ := succeeds_of_never (serves.seekCur file good)
      refine ⟨start, Finishes.of_next ?_ (serves.readBack accepts rfl kept _)⟩
      simp only [protocolRound, positionRound, traced, sought, ok_bind, if_true]
      rfl
  | false =>
      obtain ⟨start, sought, kept⟩ := succeeds_of_never (serves.rewind file good)
      refine ⟨start, Finishes.of_next ?_ (serves.readBack accepts rfl kept _)⟩
      simp only [protocolRound, positionRound, traced, sought, ok_bind, Bool.false_eq_true,
        if_false]
      rfl

/-! ### The rounds of the first half -/

/-- The session answers its request, with the record `calls` before it. -/
def Answered (rest : File → List Byte) (unread : List Byte) (calls : List (FileCall File))
    (served : Outcome × Session × File × List (FileCall File)) : Prop :=
  ∃ start, ReadsBack (rest start) ⟨.readingBack, unread, [], 0⟩ (calls ++ [.positioned start]) served

/-- The session has passed a seek command on; it answers it, or the command was refused. -/
def Sought (rest : File → List Byte) (unread : List Byte) (calls : List (FileCall File))
    (served : Outcome × Session × File × List (FileCall File)) : Prop :=
  (served.1 = .retErr .ioctlFailed ∧ served.2.2.2 = calls) ∨ Answered rest unread calls served

theorem receive_end (ops : OutputFile File) (client : Client) (file : File)
    (calls : List (FileCall File)) :
    ∃ report, protocolRound (traced ops) client (⟨.receiving, [], [], 0⟩, file, calls) =
      .ok (.leave (.retErr report, ⟨.receiving, [], [], 0⟩, file, calls)) := by
  cases ended : client.ending with
  | closes => exact ⟨.missingNewline, by simp only [protocolRound, receiveRound, ended]; rfl⟩
  | fails => exact ⟨.errorReadingSocket, by simp only [protocolRound, receiveRound, ended]; rfl⟩

theorem Serves.receive_seek (serves : Serves ops Good rest)
    (accepts : ∀ reply, client.accepts reply = true) {unread : List Byte} (nonempty : unread ≠ [])
    (arrives : Arrives EndsLine client.ending.fetched unread) {seekTo : AesdSeekto}
    (command : seekCommand (cString (cut EndsLine pieceSize unread).1) = some seekTo)
    {file : File} (good : Good file) (calls : List (FileCall File)) :
    Finishes .endless (protocolRound (traced ops) client)
      (⟨.receiving, unread, [], 0⟩, file, calls)
      (Sought rest (cut EndsLine pieceSize unread).2 (calls ++ [.ioctlSeekto seekTo])) := by
  obtain ⟨⟨ret, after⟩, passed, kept⟩ :=
    succeeds_of_never (serves.ioctlSeekto file seekTo good)
  have arrived : fgets EndsLine (getcFrom client.ending.fetched) bufferSize unread =
      (.ok (_, _) : Except Stop _) := fgets_arrives (by decide) arrives
  rw [if_neg nonempty] at arrived
  by_cases failed : ret = -1
  · have left : protocolRound (traced ops) client (⟨.receiving, unread, [], 0⟩, file, calls) =
        .ok (.leave (.retErr .ioctlFailed,
          ⟨.receiving, (cut EndsLine pieceSize unread).2, [], 0⟩, after,
          calls ++ [.ioctlSeekto seekTo])) := by
      simp only [protocolRound, receiveRound, arrived, ok_bind, command, traced, passed, pure_bind]
      rw [if_pos failed]
      rfl
    exact Finishes.of_leave left (Or.inl ⟨rfl, rfl⟩)
  · obtain ⟨start, finishes⟩ := serves.answer accepts true (cut EndsLine pieceSize unread).2 kept
      (calls ++ [.ioctlSeekto seekTo])
    refine Finishes.of_next ?_ (finishes.mono (fun _served answered => Or.inr ⟨start, answered⟩))
    simp only [protocolRound, receiveRound, arrived, ok_bind, command, traced, passed, pure_bind]
    rw [if_neg failed]
    rfl

theorem Serves.receive_write (serves : Serves ops Good rest) {unread : List Byte}
    (nonempty : unread ≠ []) (arrives : Arrives EndsLine client.ending.fetched unread)
    (command : seekCommand (cString (cut EndsLine pieceSize unread).1) = none)
    {file : File} (good : Good file) (calls : List (FileCall File)) :
    ∃ after, Good after ∧ protocolRound (traced ops) client
        (⟨.receiving, unread, [], 0⟩, file, calls) =
      .ok (.next (⟨if lastByte client (cString (cut EndsLine pieceSize unread).1)
          (cut EndsLine pieceSize unread).2.length = newline then .positioning false else .receiving,
        (cut EndsLine pieceSize unread).2, [], 0⟩, after,
        calls ++ [.fwrite (cString (cut EndsLine pieceSize unread).1)])) := by
  have short := (cString_isPrefix (cut EndsLine pieceSize unread).1).length_le.trans
    (cut_length_le EndsLine pieceSize unread)
  obtain ⟨⟨count, after⟩, stored, rfl, kept⟩ :=
    succeeds_of_never (serves.fwrite file _ good short)
  have arrived : fgets EndsLine (getcFrom client.ending.fetched) bufferSize unread =
      (.ok (_, _) : Except Stop _) := fgets_arrives (by decide) arrives
  rw [if_neg nonempty] at arrived
  refine ⟨after, kept, ?_⟩
  simp only [protocolRound, receiveRound, arrived, ok_bind, command, traced, stored]
  change (if _ ≠ _ then _ else _) = _
  rw [if_neg (fun impossible => impossible rfl)]
  split <;> rfl

/-- Behind the last piece of a line the session answers. -/
theorem Serves.receive_last (serves : Serves ops Good rest)
    (accepts : ∀ reply, client.accepts reply = true) {unread : List Byte} (nonempty : unread ≠ [])
    (arrives : Arrives EndsLine client.ending.fetched unread)
    (command : seekCommand (cString (cut EndsLine pieceSize unread).1) = none)
    (last : lastByte client (cString (cut EndsLine pieceSize unread).1)
      (cut EndsLine pieceSize unread).2.length = newline)
    {file : File} (good : Good file) (calls : List (FileCall File)) :
    Finishes .endless (protocolRound (traced ops) client)
      (⟨.receiving, unread, [], 0⟩, file, calls)
      (Answered rest (cut EndsLine pieceSize unread).2
        (calls ++ [.fwrite (cString (cut EndsLine pieceSize unread).1)])) := by
  obtain ⟨after, kept, made⟩ := serves.receive_write nonempty arrives command good calls
  rw [if_pos last] at made
  obtain ⟨start, finishes⟩ := serves.answer accepts false _ kept _
  exact Finishes.of_next made (finishes.mono (fun _served answered => ⟨start, answered⟩))

theorem Answered.record {unread : List Byte} {calls : List (FileCall File)}
    {served : Outcome × Session × File × List (FileCall File)}
    (answered : Answered rest unread calls served) :
    written served.2.2.2 = written calls ∧ commands served.2.2.2 = commands calls := by
  obtain ⟨start, back⟩ := answered
  rw [back.calls, written_concat, commands_concat]
  exact ⟨List.append_nil _, List.append_nil _⟩

/-- Behind a seek command nothing more is written or passed on. -/
theorem Sought.record {unread : List Byte} {calls : List (FileCall File)}
    {served : Outcome × Session × File × List (FileCall File)}
    (sought : Sought rest unread calls served) :
    written served.2.2.2 = written calls ∧ commands served.2.2.2 = commands calls := by
  rcases sought with ⟨_outcome, same⟩ | answered
  · rw [same]
    exact ⟨rfl, rfl⟩
  · exact answered.record

end Session

end Aesd.Server
