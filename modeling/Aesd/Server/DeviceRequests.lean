/-
What concurrent clients of the device get.

A client sends a line, a seek command or nothing that is written.  However the
threads interleave, each gets the answer that a plain list of lines gives to
its request, taken in the order in which the clients took the mutex.
-/

import Aesd.Server.RecordIntegrity
import Aesd.Server.RingDevice

set_option autoImplicit false

namespace Aesd.Server

open BoundedLoop CallRun Driver EndedGroups LineInput RecentWindow UnlessStopped

inductive ClientRequest where
  | line (text : List Byte)
  | seek (seekTo : AesdSeekto)
  | nothing (ending : Ending)
  deriving DecidableEq, Repr

namespace ClientRequest

def records : ClientRequest → List (List Byte)
  | .line text => [text]
  | .seek _ => []
  | .nothing _ => []

/-- The answer behind the earlier lines: what server_protocol returns, and what
the client gets. -/
def answer (earlier : List (List Byte)) : ClientRequest → Outcome × List Byte
  | .line text =>
      (.retOk, (recent aesdcharMaxWriteOperationsSupported (earlier ++ [text])).flatten)
  | .seek seekTo =>
      match seekPlace earlier seekTo with
      | none => (.retErr .ioctlFailed, [])
      | some place =>
          (.retOk, (recent aesdcharMaxWriteOperationsSupported earlier).flatten.drop place)
  | .nothing .closes => (.retErr .missingNewline, [])
  | .nothing .fails => (.retErr .errorReadingSocket, [])

end ClientRequest

/-- The client's stream begins with the request, and no write to its socket fails. -/
inductive Asks (client : Client) : ClientRequest → Prop where
  | line {text : List Byte} (sends : SendsText client text) : Asks client (.line text)
  | seek {bytes unread : List Byte} {seekTo : AesdSeekto}
      (arrives : fgets EndsLine (getcFrom client.ending.fetched) bufferSize client.sent =
        (.ok (some bytes, unread) : Except Stop _))
      (command : seekCommand (cString bytes) = some seekTo)
      (accepts : ∀ reply, client.accepts reply = true) : Asks client (.seek seekTo)
  | nothing {unread : List Byte}
      (ends : fgets EndsLine (getcFrom client.ending.fetched) bufferSize client.sent =
        (.ok (none, unread) : Except Stop _)) : Asks client (.nothing client.ending)

theorem Asks.brings {client : Client} {request : ClientRequest} (asks : Asks client request) :
    Brings client request.records := by
  cases asks with
  | line sends =>
      obtain ⟨extra, line⟩ := sends.sendsLine
      exact .line line
  | seek arrives command _accepts =>
      refine .quiet ⟨_, _, arrives, ?_⟩
      intro bytes same
      cases same
      rw [command]
      exact Option.some_ne_none _
  | nothing ends => exact .quiet ⟨none, _, ends, fun _bytes impossible => (nomatch impossible)⟩

/-- What may stop a session: the kernel refuses memory, or the driver leaves
its array. -/
def Stopped (stop : Stop) : Prop := Refused stop ∨ LeavesArray stop

section Session

variable (kernel : Kernel) (log : Log) (client : Client)

/-- A session on the log from before it; the number bounds the rounds to come. -/
inductive Conversing : ClientRequest → Nat → Session → DeviceStream → Prop where
  | line {text extra : List Byte} {left : Nat} {session : Session} {stream : DeviceStream}
      (sends : SendsLine client text extra) (accepts : ∀ reply, client.accepts reply = true)
      (serving : ServingLine (keepsRing kernel) log text extra left session stream) :
      Conversing (.line text) left session stream
  | asking {request : ClientRequest} {stream : DeviceStream} (quiet : request.records = [])
      (ready : RingReady kernel stream log) :
      Conversing request ((recentLines log).length + 2) (.initial client) stream
  | placed {seekTo : AesdSeekto} {place : Nat} {stream : DeviceStream} (unread : List Byte)
      (found : seekPlace log.lines seekTo = some place)
      (placed : RingPlaced kernel stream log place) :
      Conversing (.seek seekTo) ((recentLines log).length + 1)
        ⟨.positioning true, unread, [], 0⟩ stream
  | reading {seekTo : AesdSeekto} {place : Nat} {stream : DeviceStream}
      (unread output ahead : List Byte) (replies : Nat)
      (found : seekPlace log.lines seekTo = some place)
      (reads : RingReads kernel stream log ahead)
      (whole : output ++ ahead = (recentLines log).drop place) :
      Conversing (.seek seekTo) ahead.length ⟨.readingBack, unread, output, replies⟩ stream

variable {kernel log client} {request : ClientRequest} {stream : DeviceStream} {session : Session}

/-- What a round may come to. -/
def RoundConverses (kernel : Kernel) (log : Log) (client : Client) (request : ClientRequest)
    (left : Nat) : Round (Session × DeviceStream) (Outcome × Session × DeviceStream) → Prop :=
  RoundMeets
    (fun next => ∃ fewer, fewer < left ∧ Conversing kernel log client request fewer next.1 next.2)
    (fun served => RingReady kernel served.2.2 (log.write request.records.flatten) ∧
      (served.1, served.2.1.output) = request.answer log.lines)

theorem Asks.initial (asks : Asks client request) (ready : RingReady kernel stream log) :
    ∃ left, Conversing kernel log client request left (.initial client) stream := by
  cases asks with
  | line sends =>
      obtain ⟨extra, line⟩ := sends.sendsLine
      exact ⟨_, .line line sends.accepts (line.initial ready)⟩
  | seek arrives command accepts => exact ⟨_, .asking rfl ready⟩
  | nothing ends => exact ⟨_, .asking rfl ready⟩

theorem ready_write_nothing (quiet : request.records = [])
    (ready : RingReady kernel stream log) :
    RingReady kernel stream (log.write request.records.flatten) := by
  rw [quiet, List.flatten_nil, Log.write_nil]
  exact ready

/-- The first round of a client that sends no line. -/
theorem Conversing.askRound (asks : Asks client request) (quiet : request.records = [])
    (copies : ∀ call, kernel.uncopied call = 0) (ready : RingReady kernel stream log) :
    Unless Stopped (receiveRound (deviceStream kernel) client (.initial client) stream)
      (RoundConverses kernel log client request ((recentLines log).length + 2)) := by
  cases asks with
  | line sends => cases quiet
  | @seek bytes unread seekTo arrives command accepts =>
      simp only [receiveRound, Session.initial, arrives, ok_bind, command]
      have sought : Unless Stopped ((deviceStream kernel).ioctlSeekto stream seekTo) _ :=
        (ready.ioctlSeekto (copies _) seekTo).allow fun _stop leaves => Or.inr leaves
      refine sought.bind ?_
      rintro ⟨ret, after⟩ found
      cases place : seekPlace log.lines seekTo with
      | none =>
          rw [place] at found
          obtain ⟨failed, still⟩ := found
          change ret = -1 at failed
          simp only [if_pos failed]
          refine ⟨ready_write_nothing rfl still, ?_⟩
          simp only [ClientRequest.answer, place]
      | some byte =>
          rw [place] at found
          obtain ⟨zero, placed⟩ := found
          change ret = 0 at zero
          have succeeded : ¬ret = -1 := by
            rw [zero]
            decide
          simp only [if_neg succeeded]
          exact ⟨_, Nat.lt_succ_self _, .placed unread place placed⟩
  | nothing ends =>
      simp only [receiveRound, Session.initial, ends, ok_bind]
      cases ended : client.ending <;>
        exact ⟨ready_write_nothing rfl ready, rfl⟩

theorem Conversing.readRound {seekTo : AesdSeekto} {place : Nat} (unread output ahead : List Byte)
    (replies : Nat) (accepts : ∀ reply, client.accepts reply = true) (plain : log.Plain)
    (found : seekPlace log.lines seekTo = some place)
    (reads : RingReads kernel stream log ahead)
    (whole : output ++ ahead = (recentLines log).drop place) :
    Unless Stopped (readBackRound (deviceStream kernel) client
        ⟨.readingBack, unread, output, replies⟩ stream)
      (RoundConverses kernel log client (.seek seekTo) ahead.length) := by
  have read : Unless Refused (fgets EndsLine (deviceStream kernel).getc bufferSize stream) _ :=
    fgets_unless (ringReads_supplies log) (by decide) reads
  refine (read.allow fun _stop refused => (Or.inl refused : Stopped _)).bind ?_
  rintro ⟨fetched, after⟩ ⟨rfl, kept, ended⟩
  by_cases nothing : ahead = []
  · subst nothing
    rw [List.append_nil] at whole
    simp only [if_true, ended rfl]
    refine ⟨ready_write_nothing rfl kept.leave, ?_⟩
    simp only [ClientRequest.answer, found]
    exact congrArg (Outcome.retOk, ·) whole
  · have front := cut_append EndsLine pieceSize ahead
    have buffer : cString (cut EndsLine pieceSize ahead).1 = (cut EndsLine pieceSize ahead).1 := by
      apply cString_eq_self
      intro member
      have inWindow : (0 : Byte) ∈ (recentLines log).drop place := by
        rw [← whole, ← front]
        exact List.mem_append_right _ (List.mem_append_left _ member)
      exact (keepsRing kernel).window_plain plain (List.mem_of_mem_drop inWindow)
    have taken : (cut EndsLine pieceSize ahead).1 = [] ∨ client.accepts replies = true :=
      Or.inr (accepts replies)
    simp only [if_neg nothing, buffer, if_pos taken]
    refine ⟨_, cut_rest_length_lt pieceSize_pos nothing, .reading _ _ _ _ found kept ?_⟩
    rw [List.append_assoc, front]
    exact whole

theorem Conversing.round {left : Nat}
    (conversing : Conversing kernel log client request left session stream)
    (asks : Asks client request) (copies : ∀ call, kernel.uncopied call = 0)
    (plain : log.Plain) (whole : log.begun = []) :
    Unless Stopped (protocolRound (deviceStream kernel) client (session, stream))
      (RoundConverses kernel log client request left) := by
  cases conversing with
  | @line text extra _left _session _stream sends accepts serving =>
      have onward := (serving.round sends plain (Calm.of_accepts accepts)).allow
        fun _stop refused => (Or.inl refused : Stopped _)
      apply onward.mono
      rintro (next | served) reached
      · obtain ⟨fewer, decreased, rest⟩ := reached
        exact ⟨fewer, decreased, .line sends accepts rest⟩
      · have flat : (ClientRequest.line text).records.flatten = text := List.append_nil text
        obtain ⟨succeeded, output⟩ := reached.answered accepts
        refine ⟨flat.symm ▸ reached.ready, ?_⟩
        rw [succeeded, output]
        change (_, recentLines (log.write text)) = _
        rw [recentLines, Log.lines_write_line whole sends.closed]
        rfl
  | asking quiet ready => exact askRound asks quiet copies ready
  | placed unread found placed =>
      have sought := placed.seekCur.allow fun _stop refused => (Or.inl refused : Stopped _)
      refine sought.bind ?_
      intro after reads
      refine ⟨_, ?_, .reading unread [] _ 0 found reads (List.nil_append _)⟩
      rw [List.length_drop]
      omega
  | reading unread output ahead replies found reads rest =>
      cases asks with
      | seek arrives command accepts =>
          exact readRound unread output ahead replies accepts plain found reads rest

end Session

/-! ### Under the mutex -/

section Requests

variable {ι : Type} {clients : ι → Client} {request : ι → ClientRequest}

variable [DecidableEq ι] {kernel : Kernel}

end Requests

def ClientState.returned : ClientState → Option Ret
  | .finished ret _session => some ret
  | _ => none

end Aesd.Server
