/-
The output file of the build without USE_AESD_CHAR_DEVICE.

The stream was opened with "w+": it is one array of bytes with one position,
which reads and writes share.  The end-of-file indicator stays set until the
stream is positioned.
-/

import Aesd.Server.SessionLog

set_option autoImplicit false

namespace Aesd.Server

open Driver EndedGroups LineInput UnlessStopped

/-- Nothing stops an operation on a regular file. -/
def Never (_stop : Stop) : Prop := False

structure RegularFile where
  content : List Byte
  pos : Nat
  eof : Bool
  deriving DecidableEq, Repr

namespace RegularFile

/-- After fopen with "w+". -/
def opened : RegularFile where
  content := []
  pos := 0
  eof := false

def getc (file : RegularFile) : Except Stop (Fetched Byte × RegularFile) :=
  if file.eof then .ok (.endOfFile, file)
  else
    match file.content[file.pos]? with
    | none => .ok (.endOfFile, { file with eof := true })
    | some byte => .ok (.item byte, { file with pos := file.pos + 1 })

/-- Bytes from the position on are overwritten. -/
def fwrite (file : RegularFile) (bytes : List Byte) : Except Stop (Nat × RegularFile) :=
  .ok (bytes.length, { file with
    content := file.content.take file.pos ++ bytes ++ file.content.drop (file.pos + bytes.length)
    pos := file.pos + bytes.length })

end RegularFile

/-- A regular file is not a device: its ioctl fails with ENOTTY. -/
def regularFile : OutputFile RegularFile where
  getc := RegularFile.getc
  fwrite := RegularFile.fwrite
  rewind := fun file => .ok { file with pos := 0, eof := false }
  seekCur := fun file => .ok { file with eof := false }
  ioctlSeekto := fun file _seekTo => .ok (-1, file)
  feof := RegularFile.eof

namespace RegularFile

def AtEnd (file : RegularFile) : Prop := file.pos = file.content.length

/-- The bytes from the position on. -/
def ahead (file : RegularFile) : List Byte := file.content.drop file.pos

structure Reads (file : RegularFile) (content ahead : List Byte) : Prop where
  same : file.content = content
  inside : file.pos ≤ file.content.length
  rest : file.ahead = ahead
  ended : file.eof = true → ahead = []

theorem fwrite_atEnd {file : RegularFile} (atEnd : file.AtEnd) (bytes : List Byte) :
    file.fwrite bytes = .ok (bytes.length,
      { file with content := file.content ++ bytes, pos := (file.content ++ bytes).length }) := by
  have nothing : file.content.drop (file.pos + bytes.length) = [] :=
    List.drop_of_length_le (by rw [atEnd]; omega)
  have everything : file.content.take file.pos = file.content :=
    List.take_of_length_le (Nat.le_of_eq atEnd.symm)
  rw [fwrite, nothing, everything, List.append_nil, List.length_append, atEnd]

theorem Reads.atEnd {file : RegularFile} {content : List Byte} (reads : file.Reads content []) :
    file.AtEnd := by
  have nothing := List.drop_eq_nil_iff.mp reads.rest
  exact Nat.le_antisymm reads.inside nothing

theorem getc_supplies (content : List Byte) :
    Supplies Never regularFile.getc (fun file ahead => Reads file content ahead)
      (fun file => regularFile.feof file = true) := by
  intro file ahead reads
  change Unless Never file.getc _
  unfold getc
  cases set : file.eof with
  | true =>
      obtain rfl := reads.ended set
      exact ⟨rfl, reads, set⟩
  | false =>
      have front : ahead.head? = file.content[file.pos]? := by
        rw [← reads.rest, RegularFile.ahead, List.head?_drop]
      cases ahead with
      | nil =>
          rw [← front, List.head?_nil]
          exact ⟨rfl, ⟨reads.same, reads.inside, reads.rest, fun _set => rfl⟩, rfl⟩
      | cons byte rest =>
          rw [← front, List.head?_cons]
          obtain ⟨within, _byte⟩ := List.getElem?_eq_some_iff.mp front.symm
          refine ⟨rfl, reads.same, within, ?_, ?_⟩
          · have dropped := congrArg List.tail reads.rest
            rwa [RegularFile.ahead, List.tail_drop] at dropped
          · intro impossible
            cases impossible

end RegularFile

/-- A regular file shows the whole log; a reader may leave it at its end only. -/
def keepsRegular : KeepsLog Never regularFile where
  window := Log.bytes
  MayLeave := fun ahead => ahead = []
  Ready := fun file log => file.content = log.bytes ∧ file.AtEnd
  Seeking := fun file log => file.content = log.bytes ∧ file.AtEnd
  Reading := fun file log ahead => file.Reads log.bytes ahead
  window_subset := fun _log _byte member => member
  write := by
    rintro file log chunk ⟨same, atEnd⟩ _chunk _short
    change Unless Never (file.fwrite chunk) _
    rw [RegularFile.fwrite_atEnd atEnd]
    refine ⟨rfl, ?_, rfl⟩
    rw [Log.bytes_write, ← same]
  rewind := by
    rintro file log ⟨same, _atEnd⟩
    exact ⟨same, Nat.zero_le _, same, fun impossible => (nomatch impossible)⟩
  seekCur := by
    rintro file log ⟨same, atEnd⟩
    exact ⟨_, same, Nat.le_of_eq atEnd, rfl, fun impossible => (nomatch impossible)⟩
  ioctlSeekto := fun _seekTo ready => ready
  getc := fun log => RegularFile.getc_supplies log.bytes
  leave := by
    rintro file log ahead reads rfl
    exact ⟨reads.same, reads.atEnd⟩
  mayLeave_end := rfl

/-- The session's next write to the socket fails while bytes of the output
file are still unread. -/
def BreaksOff (client : Client) (session : Session) (file : RegularFile) : Prop :=
  session.phase = .readingBack ∧ client.accepts session.replies = false ∧
    cString (cut EndsLine pieceSize file.ahead).1 ≠ [] ∧ (cut EndsLine pieceSize file.ahead).2 ≠ []

theorem calm_of_not_breaksOff {client : Client} {session : Session} {file : RegularFile}
    (continues : ¬BreaksOff client session file) : Calm keepsRegular client session file := by
  intro phase refuses log ahead reads sent
  change (cut EndsLine pieceSize ahead).2 = []
  rw [← reads.rest] at sent ⊢
  by_contra unread
  exact continues ⟨phase, refuses, sent, unread⟩

end Aesd.Server
