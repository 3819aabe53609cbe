/-
One client session, server_protocol in server_impl.c.

A session receives a request piece by piece and writes it to the output file,
or hands a seek command to the driver; then it reads the output file back and
sends it to the client.  The output file is known through its stdio operations
only.  Each round of the session touches it at most once.
-/

import Aesd.LineInput
import Aesd.Server.CStrings

set_option autoImplicit false

namespace Aesd.Server

open BoundedLoop Driver LineInput

/-- Why a modelled run does not go on: a loop has used up its rounds, a system
call on the output file failed and returned `ret`, a thread cannot take this
step now, or the driver faulted. -/
inductive Stop where
  | endless
  | refused (ret : Int)
  | blocked
  | fault (fault : Fault)
  deriving DecidableEq, Repr

/-- The stdio operations on `output_file`.  `fwrite` includes the fflush behind
it; `ioctlSeekto` returns what ioctl(2) returns. -/
structure OutputFile (File : Type) where
  getc : File → Except Stop (Fetched Byte × File)
  fwrite : File → List Byte → Except Stop (Nat × File)
  rewind : File → Except Stop File
  seekCur : File → Except Stop File
  ioctlSeekto : File → AesdSeekto → Except Stop (Int × File)
  feof : File → Bool

/-- How a client's stream ends behind what it sent. -/
inductive Ending where
  | closes
  | fails
  deriving DecidableEq, Repr

def Ending.fetched : Ending → Fetched Byte
  | .closes => .endOfFile
  | .fails => .failed

/-- A client as the server sees it.  `accepts` tells which writes to its socket
succeed; `below` is what the memory in front of the receive buffer holds when
a given number of bytes is still to come. -/
structure Client where
  sent : List Byte
  ending : Ending
  accepts : Nat → Bool
  below : Nat → Byte
  closesInput : Bool
  closesOutput : Bool

/-- What server_protocol reports when it returns RET_ERR. -/
inductive Report where
  | errorReadingSocket
  | missingNewline
  | ioctlFailed
  | failedWritingOutputFile
  | failedWritingSocket
  | failedReadingOutputFile
  deriving DecidableEq, Repr

inductive Outcome where
  | retOk
  | retErr (report : Report)
  deriving DecidableEq, Repr

inductive Phase where
  | receiving
  | positioning (isSeekSetCommand : Bool)
  | readingBack
  deriving DecidableEq, Repr

/-- `output` is what was written to the client's socket, in `replies` writes. -/
structure Session where
  phase : Phase
  unread : List Byte
  output : List Byte
  replies : Nat
  deriving DecidableEq, Repr

def Session.initial (client : Client) : Session where
  phase := .receiving
  unread := client.sent
  output := []
  replies := 0

def bufferSize : Nat := 256

/-- The byte that ends a line. -/
abbrev EndsLine (byte : Byte) : Prop := byte = newline

section Rounds

variable {File : Type} (ops : OutputFile File) (client : Client)

/-- `buffer[length-1]`; for an empty string it lies in front of the buffer. -/
def lastByte (buffer : List Byte) (unread : Nat) : Byte :=
  buffer.getLast?.getD (client.below unread)

/-- One round of the loop that reads from the socket. -/
def receiveRound (session : Session) (file : File) :
    Except Stop (Round (Session × File) (Outcome × Session × File)) := do
  let (found, unread) ← fgets EndsLine (getcFrom client.ending.fetched) bufferSize session.unread
  let session := { session with unread }
  match found with
  | none =>
      match client.ending with
      | .fails => return .leave (.retErr .errorReadingSocket, session, file)
      | .closes => return .leave (.retErr .missingNewline, session, file)
  | some bytes =>
      let buffer := cString bytes
      match seekCommand buffer with
      | some seekTo =>
          let (ret, file) ← ops.ioctlSeekto file seekTo
          if ret = -1 then return .leave (.retErr .ioctlFailed, session, file)
          else return .next ({ session with phase := .positioning true }, file)
      | none =>
          let (writeRet, file) ← ops.fwrite file buffer
          if buffer.length ≠ writeRet then
            return .leave (.retErr .failedWritingOutputFile, session, file)
          else if lastByte client buffer unread.length = newline then
            return .next ({ session with phase := .positioning false }, file)
          else return .next (session, file)

/-- The step between the loops. -/
def positionRound (isSeekSetCommand : Bool) (session : Session) (file : File) :
    Except Stop (Round (Session × File) (Outcome × Session × File)) := do
  let file ← if isSeekSetCommand then ops.seekCur file else ops.rewind file
  return .next ({ session with phase := .readingBack }, file)

/-- One round of the loop that sends the output file. -/
def readBackRound (session : Session) (file : File) :
    Except Stop (Round (Session × File) (Outcome × Session × File)) := do
  let (found, file) ← fgets EndsLine ops.getc bufferSize file
  match found with
  | none =>
      if ops.feof file then return .leave (.retOk, session, file)
      else return .leave (.retErr .failedReadingOutputFile, session, file)
  | some bytes =>
      let buffer := cString bytes
      -- An fwrite of no bytes cannot fail.
      if buffer = [] ∨ client.accepts session.replies = true then
        return .next ({ session with
          output := session.output ++ buffer
          replies := session.replies + 1 }, file)
      else return .leave (.retErr .failedWritingSocket, session, file)

def protocolRound : Session × File →
    Except Stop (Round (Session × File) (Outcome × Session × File))
  | (session, file) =>
      match session.phase with
      | .receiving => receiveRound ops client session file
      | .positioning isSeekSetCommand => positionRound ops isSeekSetCommand session file
      | .readingBack => readBackRound ops client session file

/-- server_protocol, with a bound on its rounds. -/
def serverProtocol (rounds : Nat) (file : File) : Except Stop (Outcome × Session × File) :=
  repeatRounds .endless (protocolRound ops client) rounds (.initial client, file)

end Rounds

/-- A client that sends `bytes` and closes, and takes every answer. -/
def politeClient (bytes : List Byte) : Client where
  sent := bytes
  ending := .closes
  accepts := fun _reply => true
  below := fun _unread => 0
  closesInput := true
  closesOutput := true

end Aesd.Server
