/-
The records of clean clients.

Where every client either sends a whole line or is quiet, each writer adds its
own records to the log and nothing else, whatever the order of the writers.
-/

import Aesd.Server.MutualExclusion

set_option autoImplicit false

namespace Aesd.Server

open BoundedLoop Driver EndedGroups LineInput UnlessStopped

/-- The records that a client adds: its line, or none. -/
inductive Brings (client : Client) : List (List Byte) → Prop where
  | line {line extra : List Byte} (sends : SendsLine client line extra) : Brings client [line]
  | quiet (quiet : client.Quiet) : Brings client []

section Records

variable {ι : Type} (bring : ι → List (List Byte))

def Writer.records : Writer ι → List (List Byte)
  | .client i => bring i
  | .clock text => [text.bytes]

def recordsOf (writers : List (Writer ι)) : List (List Byte) :=
  writers.flatMap (Writer.records bring)

/-- The log after these writers. -/
def writersLog (writers : List (Writer ι)) : Log :=
  Log.empty.write (recordsOf bring writers).flatten

theorem recordsOf_concat (writers : List (Writer ι)) (writer : Writer ι) :
    recordsOf bring (writers ++ [writer]) = recordsOf bring writers ++ writer.records bring := by
  rw [recordsOf, List.flatMap_append, List.flatMap_singleton]
  rfl

theorem writersLog_concat (writers : List (Writer ι)) (writer : Writer ι) :
    writersLog bring (writers ++ [writer]) =
      (writersLog bring writers).write (writer.records bring).flatten := by
  rw [writersLog, recordsOf_concat, List.flatten_append, ← Log.write_write]
  rfl

variable {bring} {clients : ι → Client} (brings : ∀ i, Brings (clients i) (bring i))
include brings

theorem records_line {writer : Writer ι} {record : List Byte}
    (member : record ∈ writer.records bring) :
    Closed EndsLine record ∧ (0 : Byte) ∉ record := by
  cases writer with
  | client i =>
      have client := brings i
      change record ∈ bring i at member
      generalize bring i = records at client member
      cases client with
      | line sends =>
          rw [List.mem_singleton.mp member]
          exact ⟨sends.closed, sends.plain⟩
      | quiet quiet => cases member
  | clock text =>
      rw [List.mem_singleton.mp member]
      exact ⟨text.closed, text.plain⟩

theorem recordsOf_line {writers : List (Writer ι)} {record : List Byte}
    (member : record ∈ recordsOf bring writers) :
    Closed EndsLine record ∧ (0 : Byte) ∉ record := by
  obtain ⟨writer, _present, mine⟩ := List.mem_flatMap.mp member
  exact records_line brings mine

theorem writersLog_lines (writers : List (Writer ι)) :
    (writersLog bring writers).lines = recordsOf bring writers ∧
      (writersLog bring writers).begun = [] :=
  groups_of_all_closed (fun _record member => (recordsOf_line brings member).1)

theorem writersLog_bytes (writers : List (Writer ι)) :
    (writersLog bring writers).bytes = (recordsOf bring writers).flatten := by
  obtain ⟨lines, begun⟩ := writersLog_lines brings writers
  rw [Log.bytes, lines, begun, List.append_nil]

theorem writersLog_plain (writers : List (Writer ι)) : (writersLog bring writers).Plain := by
  rw [Log.Plain, writersLog_bytes brings]
  intro member
  obtain ⟨record, present, zero⟩ := List.mem_flatten.mp member
  exact (recordsOf_line brings present).2 zero

end Records

section Sessions

variable {ι File : Type} {stops : Stop → Prop} {ops : OutputFile File}
  (keeps : KeepsLog stops ops)

/-- A session on the log from before it, by what its client brings. -/
inductive TalksOn (log : Log) (client : Client) : List (List Byte) → Session → File → Prop where
  | line {line extra : List Byte} {left : Nat} {session : Session} {file : File}
      (sends : SendsLine client line extra)
      (serving : ServingLine keeps log line extra left session file) :
      TalksOn log client [line] session file
  | quiet {session : Session} {file : File} (quiet : client.Quiet)
      (serving : ServingQuiet keeps client log session file) :
      TalksOn log client [] session file

/-- How a session that brought `records` has ended. -/
structure AnsweredOn (log : Log) (client : Client) (records : List (List Byte)) (outcome : Outcome)
    (session : Session) : Prop where
  complete : outcome.MissedNewline → records = []
  whole : ∀ line, records = [line] → (∀ reply, client.accepts reply = true) →
    outcome = .retOk ∧ session.output = keeps.window (log.write line)

variable {keeps} {log : Log} {client : Client} {records : List (List Byte)} {session : Session}
  {file : File}

theorem Brings.initial (brings : Brings client records) (ready : keeps.Ready file log) :
    TalksOn keeps log client records (.initial client) file := by
  cases brings with
  | line sends => exact .line sends (sends.initial ready)
  | quiet quiet => exact .quiet quiet (.receiving ready)

theorem TalksOn.round (talks : TalksOn keeps log client records session file)
    (plain : log.Plain) (calm : Calm keeps client session file) :
    Unless Any (protocolRound ops client (session, file))
      (RoundMeets (fun next => TalksOn keeps log client records next.1 next.2)
        (fun served => keeps.Ready served.2.2 (log.write records.flatten) ∧
          AnsweredOn keeps log client records served.1 served.2.1)) := by
  cases talks with
  | @line line extra left _session _file sends serving =>
      apply (serving.round sends plain calm).whenever.mono
      rintro (next | served) reached
      · obtain ⟨fewer, _decreased, onward⟩ := reached
        exact .line sends onward
      · have flat : [line].flatten = line := List.append_nil line
        refine ⟨flat.symm ▸ reached.ready, fun missed => absurd missed reached.complete, ?_⟩
        intro other same accepts
        cases same
        exact reached.answered accepts
  | quiet quiet serving =>
      apply (serving.round quiet calm).mono
      rintro (next | served) reached
      · exact .quiet quiet reached
      · refine ⟨?_, fun _missed => rfl, fun line impossible => (nomatch impossible)⟩
        rw [List.flatten_nil, Log.write_nil]
        exact reached

variable (keeps) {clients : ι → Client} {bring : ι → List (List Byte)}

/-- Under the mutex the output file stands for the log of all writers so far. -/
def recordGuards (brings : ∀ i, Brings (clients i) (bring i)) :
    Guards ops clients (fun i session file => Calm keeps (clients i) session file) where
  Free := fun writers file => keeps.Ready file (writersLog bring writers)
  Talks := fun writers i session file => ∃ before, writers = before ++ [.client i] ∧
    TalksOn keeps (writersLog bring before) (clients i) (bring i) session file
  Answered := fun writers i outcome session => ∃ before, writers = before ++ [.client i] ∧
    AnsweredOn keeps (writersLog bring before) (clients i) (bring i) outcome session
  start := fun i ready => ⟨_, rfl, (brings i).initial ready⟩
  round := by
    rintro writers i session file ⟨before, rfl, talks⟩ calm
    apply (talks.round (writersLog_plain brings before) calm).mono
    rintro (next | served) reached
    · exact ⟨before, rfl, reached⟩
    · obtain ⟨ready, answered⟩ := reached
      refine ⟨?_, before, rfl, answered⟩
      rw [writersLog_concat]
      exact ready
  tick := by
    intro writers file text ready
    apply (keeps.write ready (Or.inr text.closed) text.short).whenever.mono
    rintro written ⟨_counted, kept⟩
    rw [writersLog_concat]
    change keeps.Ready _ ((writersLog bring writers).write ([text.bytes].flatten))
    rw [List.flatten_singleton]
    exact kept

end Sessions

end Aesd.Server
