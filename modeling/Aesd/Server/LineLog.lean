/-
The log of lines behind an output file.

A log is what all writers together have written: complete lines and the line
that is still open.  `KeepsLog` says what an output file owes to its users in
terms of such a log; a regular file and the device both keep one, and show
different windows of it.
-/

import Aesd.Server.Protocol

set_option autoImplicit false

namespace Aesd.Server

open Driver EndedGroups LineInput UnlessStopped

@[ext] structure Log where
  lines : List (List Byte)
  begun : List Byte
  closed : ∀ line, line ∈ lines → Closed EndsLine line
  unended : Unended EndsLine begun

namespace Log

def empty : Log where
  lines := []
  begun := []
  closed := by intro line impossible; cases impossible
  unended := unended_nil

/-- All bytes ever written, in order. -/
def bytes (log : Log) : List Byte := log.lines.flatten ++ log.begun

def write (log : Log) (bytes : List Byte) : Log where
  lines := log.lines ++ groups EndsLine log.begun bytes
  begun := remainder EndsLine log.begun bytes
  closed := by
    intro line member
    rcases List.mem_append.mp member with before | new
    · exact log.closed line before
    · exact closed_of_mem_groups log.unended new
  unended := remainder_unended log.unended bytes

/-- No byte of the log is a NUL. -/
def Plain (log : Log) : Prop := (0 : Byte) ∉ log.bytes

theorem empty_plain : empty.Plain := List.not_mem_nil

@[simp] theorem write_nil (log : Log) : log.write [] = log := by
  apply Log.ext
  · exact List.append_nil _
  · rfl

theorem write_write (log : Log) (first second : List Byte) :
    (log.write first).write second = log.write (first ++ second) := by
  apply Log.ext
  · change (log.lines ++ groups EndsLine log.begun first) ++ _ = log.lines ++ _
    rw [groups_append, List.append_assoc]
    rfl
  · exact (remainder_append log.begun first second).symm

theorem bytes_write (log : Log) (bytes : List Byte) : (log.write bytes).bytes = log.bytes ++ bytes := by
  change (log.lines ++ groups EndsLine log.begun bytes).flatten ++
    remainder EndsLine log.begun bytes = _
  rw [List.flatten_append, List.append_assoc, groups_flatten, ← List.append_assoc]
  rfl

theorem Plain.write {log : Log} (plain : log.Plain) {bytes : List Byte}
    (added : (0 : Byte) ∉ bytes) : (log.write bytes).Plain := by
  unfold Plain
  rw [bytes_write, List.mem_append]
  exact fun either => either.elim plain added

/-- The lines are found again in the bytes. -/
theorem groups_bytes (log : Log) : groups EndsLine [] log.bytes = log.lines :=
  (groups_unique log.closed log.unended).1

theorem lines_write_line {log : Log} (nothing : log.begun = []) {line : List Byte}
    (closed : Closed EndsLine line) : (log.write line).lines = log.lines ++ [line] := by
  change log.lines ++ groups EndsLine log.begun line = _
  rw [groups_of_closed _ closed, nothing]
  rfl

theorem begun_write_line (log : Log) {line : List Byte} (closed : Closed EndsLine line) :
    (log.write line).begun = [] := remainder_of_closed log.begun closed

end Log

/-- The number of bytes that fgets puts into the buffer at most. -/
abbrev pieceSize : Nat := bufferSize - 1

/-- An output file that keeps a log.  `Ready` is the state in which writers
take it over, `Seeking` the one behind a seek command, and `Reading` the state
between two fgets of the read-back, with the bytes that lie ahead.  `MayLeave`
tells in front of which bytes a reader may stop, `stops` which errors may end
the operations of a session without a seek command. -/
structure KeepsLog {File : Type} (stops : Stop → Prop) (ops : OutputFile File) where
  window : Log → List Byte
  MayLeave : List Byte → Prop
  Ready : File → Log → Prop
  Seeking : File → Log → Prop
  Reading : File → Log → List Byte → Prop
  window_subset : ∀ log byte, byte ∈ window log → byte ∈ log.bytes
  write : ∀ {file log chunk}, Ready file log → Chunk EndsLine chunk → chunk.length ≤ pieceSize →
    Unless stops (ops.fwrite file chunk) (fun written =>
      written.1 = chunk.length ∧ Ready written.2 (log.write chunk))
  rewind : ∀ {file log}, Ready file log →
    Unless stops (ops.rewind file) (fun after => Reading after log (window log))
  ioctlSeekto : ∀ {file log} seekTo, Ready file log →
    Unless Any (ops.ioctlSeekto file seekTo) (fun answer =>
      if answer.1 = -1 then Ready answer.2 log else Seeking answer.2 log)
  seekCur : ∀ {file log}, Seeking file log →
    Unless Any (ops.seekCur file) (fun after => ∃ ahead, Reading after log ahead)
  getc : ∀ log, Supplies stops ops.getc (fun file ahead => Reading file log ahead)
    (fun file => ops.feof file = true)
  leave : ∀ {file log ahead}, Reading file log ahead → MayLeave ahead → Ready file log
  mayLeave_end : MayLeave []

end Aesd.Server
