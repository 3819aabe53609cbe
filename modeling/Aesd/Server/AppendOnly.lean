/-
When the regular file is append-only.

Nobody seeks before writing, so everything rests on where the previous user of
the stream left it.  A session leaves it at the end of the file unless a write
to its socket fails while bytes are still unread; the next writer then
overwrites what is there.
-/

import Aesd.Server.MutualExclusion
import Aesd.Server.RegularFile

set_option autoImplicit false

namespace Aesd.Server

open BoundedLoop CallRun Driver EndedGroups LineInput UnlessStopped

/-- A step of the server that keeps a regular file. -/
abbrev fileStep {ι : Type} [DecidableEq ι] (clients : ι → Client) (world : World ι RegularFile)
    (event : Event ι) : Except Stop (Option (Writer ι) × World ι RegularFile) :=
  world.step regularFile .regularFile clients event

theorem opened_free : keepsRegular.Ready .opened .empty := ⟨rfl, rfl⟩

/-- No session is broken off in this step. -/
abbrev ReadsToEnd {ι : Type} (clients : ι → Client) : World ι RegularFile → Event ι → Prop :=
  AllowedStep (fun i session file => ¬BreaksOff (clients i) session file)

section Sessions

variable {log : Log} {client : Client} {session : Session} {file : RegularFile}

theorem Holds.content (holds : Holds keepsRegular log session file) :
    file.content = log.bytes := by
  obtain ⟨phase, unread, output, replies⟩ := session
  cases phase with
  | receiving => exact holds.1
  | positioning isSeekSetCommand => cases isSeekSetCommand <;> exact holds.1
  | readingBack =>
      obtain ⟨ahead, reads⟩ := holds
      exact reads.same

/-- A session that is broken off leaves the position in front of unread bytes. -/
theorem breaksOff_leaves (holds : Holds keepsRegular log session file)
    (breaks : BreaksOff client session file) :
    ∃ after, protocolRound regularFile client (session, file) =
        .ok (.leave (.retErr .failedWritingSocket, session, after)) ∧ ¬after.AtEnd := by
  obtain ⟨phase, unread, output, replies⟩ := session
  obtain ⟨rfl, refuses, sent, unfinished⟩ := breaks
  obtain ⟨ahead, reads⟩ := holds
  have rest := reads.rest
  subst rest
  have something : file.ahead ≠ [] := by
    intro nothing
    rw [nothing, cut_nil] at unfinished
    exact unfinished rfl
  have reading : Unless Never (fgets EndsLine regularFile.getc bufferSize file) _ :=
    fgets_unless (keepsRegular.getc log) (by decide) reads
  obtain ⟨⟨found, after⟩, read, rfl, kept, _ended⟩ := reading.exists_ok
    (fun _stop _made never => never)
  refine ⟨after, ?_, ?_⟩
  · simp only [protocolRound, readBackRound, read, ok_bind, if_neg something]
    rw [if_neg (not_or.mpr ⟨sent, Bool.not_eq_true _ ▸ refuses⟩)]
    rfl
  · intro atEnd
    have nothing := kept.rest
    rw [RegularFile.ahead, atEnd, List.drop_length] at nothing
    exact unfinished nothing.symm

end Sessions

section Guards

variable {ι : Type} (clients : ι → Client)

/-- Under the mutex the file stands for some log, whatever the clients send. -/
def appendGuards :
    Guards regularFile clients (fun i session file => ¬BreaksOff (clients i) session file) where
  Free := fun _writers file => ∃ log, keepsRegular.Ready file log
  Talks := fun _writers _i session file => ∃ log, Holds keepsRegular log session file
  Answered := fun _writers _i _outcome _session => True
  start := fun _i ready => ready
  round := by
    rintro writers i session file ⟨log, holds⟩ continues
    apply (holds.round (calm_of_not_breaksOff continues)).mono
    rintro (next | served) reached
    · obtain ⟨added, onward⟩ := reached
      exact ⟨log.write added, onward⟩
    · obtain ⟨added, ready⟩ := reached
      exact ⟨⟨log.write added, ready⟩, True.intro⟩
  tick := by
    rintro writers file text ⟨log, ready⟩
    apply (keepsRegular.write ready (Or.inr text.closed) text.short).whenever.mono
    rintro written ⟨_counted, kept⟩
    exact ⟨log.write text.bytes, kept⟩

variable {clients} [DecidableEq ι] {world after : World ι RegularFile} {writers : List (Writer ι)}
  {event : Event ι} {reply : Option (Writer ι)}

theorem round_extends {i : ι} {session : Session} (talking : world.clients i = .talking session)
    {log : Log} (holds : Holds keepsRegular log session world.file)
    (continues : ¬BreaksOff (clients i) session world.file)
    (made : world.round regularFile clients i = .ok (reply, after)) :
    world.file.content <+: after.file.content := by
  have onward := holds.round (calm_of_not_breaksOff continues)
  obtain ⟨_none, other, talks, result⟩ := World.round_cases made
  rw [talking] at talks
  cases talks
  rw [holds.content]
  rcases result with ⟨next, file, decided, rfl⟩ | ⟨outcome, last, file, decided, rfl⟩
  · obtain ⟨added, kept⟩ := onward.of_ok decided
    change log.bytes <+: file.content
    rw [Holds.content kept, Log.bytes_write]
    exact List.prefix_append _ _
  · obtain ⟨added, ready⟩ := onward.of_ok decided
    change log.bytes <+: file.content
    rw [ready.1, Log.bytes_write]
    exact List.prefix_append _ _

/-- A step in which no session is broken off extends the file or leaves it. -/
theorem Guarded.extends (guarded : Guarded (appendGuards clients) world writers)
    (continues : ReadsToEnd clients world event)
    (made : fileStep clients world event = .ok (reply, after)) :
    world.file.content <+: after.file.content := by
  have resource := guarded.resource
  cases event with
  | lock i =>
      obtain ⟨_waiting, _free, _reply, rfl⟩ := World.lock_cases made
      exact List.prefix_refl _
  | round i =>
      obtain ⟨_none, session, talking, _result⟩ := World.round_cases made
      have owns := guarded.inside i (by rw [talking]; exact True.intro)
      rw [Guards.Resource, owns] at resource
      simp only [talking] at resource
      obtain ⟨log, holds⟩ := resource
      exact round_extends talking holds (continues session talking) made
  | unlock i =>
      obtain ⟨_none, outcome, session, _unlocking, rfl⟩ := World.unlock_cases made
      exact List.prefix_refl _
  | close i =>
      obtain ⟨_none, outcome, session, _closing, rfl⟩ := World.close_cases made
      exact List.prefix_refl _
  | tick text =>
      obtain ⟨_none, _sleeping, rfl | rfl⟩ := World.tick_cases made <;> exact List.prefix_refl _
  | clockLock =>
      obtain ⟨text, _ticked, _free, _reply, rfl⟩ := World.clockLock_cases made
      exact List.prefix_refl _
  | clockWrite =>
      obtain ⟨_none, text, writeRet, file, writing, written, rfl⟩ := World.clockWrite_cases made
      obtain ⟨held, owns⟩ := guarded.clockInside (by rw [writing]; exact True.intro)
      rw [Guards.Resource, owns] at resource
      simp only [writing] at resource
      obtain ⟨rfl, before, _same, log, ready⟩ := resource
      have stored := (keepsRegular.write ready (Or.inr text.closed) text.short).of_ok written
      change world.file.content <+: file.content
      rw [stored.2.1, ready.1, Log.bytes_write]
      exact List.prefix_append _ _
  | clockUnlock =>
      obtain ⟨_none, written, _unlocking, rfl⟩ := World.clockUnlock_cases made
      exact List.prefix_refl _

theorem unlock_step (clients : ι → Client) {world : World ι RegularFile} {i : ι}
    {outcome : Outcome} {session : Session}
    (unlocking : world.clients i = .unlocking outcome session) :
    fileStep clients world (.unlock i) =
      .ok (none, { world with owner := none }.setClient i (.closing outcome session)) := by
  simp only [fileStep, World.step, World.unlock, unlocking]

/-- Breaking a session off leaves the mutex free with bytes behind the position. -/
theorem Guarded.broken_off (guarded : Guarded (appendGuards clients) world writers) {i : ι}
    {session : Session} (talking : world.clients i = .talking session)
    (breaks : BreaksOff (clients i) session world.file) :
    ∃ replies after, runCalls (fileStep clients) world [.round i, .unlock i] =
        .ok (replies, after) ∧ after.owner = none ∧ ¬after.file.AtEnd := by
  have owns := guarded.inside i (by rw [talking]; exact True.intro)
  have resource := guarded.resource
  rw [Guards.Resource, owns] at resource
  simp only [talking] at resource
  obtain ⟨log, holds⟩ := resource
  obtain ⟨file, decided, unfinished⟩ := breaksOff_leaves holds breaks
  have first : fileStep clients world (.round i) = .ok (none,
      { world with file }.setClient i (.unlocking (.retErr .failedWritingSocket) session)) := by
    simp only [fileStep, World.step, World.round, talking, decided]
    rfl
  have second := unlock_step clients (World.setClient_self { world with file } i
    (.unlocking (.retErr .failedWritingSocket) session))
  exact ⟨_, _, runCalls_cons first (runCalls_cons second rfl), rfl, unfinished⟩

/-- Where no session of the run is broken off, the position is at the end
whenever the mutex is free, and each step extends the file.  A session that is
broken off behind such a run leaves the mutex free and the position elsewhere. -/
theorem file_append_only (events : List (Event ι)) (replies : List (Option (Writer ι)))
    (world : World ι RegularFile)
    (continues : RunMeets (fileStep clients) (ReadsToEnd clients) (.start .opened) events)
    (ran : runCalls (fileStep clients) (.start .opened) events = .ok (replies, world)) :
    (world.owner = none → world.file.AtEnd) ∧
      (∀ event reply after, ReadsToEnd clients world event →
        fileStep clients world event = .ok (reply, after) →
        world.file.content <+: after.file.content) ∧
      ∀ i session, world.clients i = .talking session →
        BreaksOff (clients i) session world.file →
        ∃ later after, runCalls (fileStep clients) world [.round i, .unlock i] =
          .ok (later, after) ∧ after.owner = none ∧ ¬after.file.AtEnd := by
  have free : (appendGuards clients).Free [] RegularFile.opened := ⟨.empty, opened_free⟩
  have guarded : Guarded (appendGuards clients) world (acquisitions replies) :=
    guarded_run free continues ran
  refine ⟨?_, fun event reply after => guarded.extends, fun i session => guarded.broken_off⟩
  intro free
  have resource := guarded.resource
  rw [Guards.Resource, free] at resource
  obtain ⟨log, ready⟩ := resource
  exact ready.2

end Guards

/-- The first session of two polite clients. -/
theorem file_append_only_one_session : ∃ replies world,
    runCalls (fileStep fun second : Bool => politeClient [if second then 98 else 97, newline])
        (.start .opened) ([.lock false] ++ List.replicate 4 (.round false) ++ [.unlock false]) =
      .ok (replies, world) ∧ world.owner = none ∧ world.file.AtEnd := by
  have computed : (runCalls
      (fileStep fun second : Bool => politeClient [if second then 98 else 97, newline])
      (.start .opened) ([.lock false] ++ List.replicate 4 (.round false) ++ [.unlock false])).map
        (fun result => result.2.owner.isNone) = .ok true := by decide +kernel
  obtain ⟨⟨replies, world⟩, ran, shown⟩ := ok_of_map computed
  have free : world.owner = none := Option.isNone_iff_eq_none.mp shown
  refine ⟨replies, world, ran, free, (file_append_only _ replies world ?_ ran).1 free⟩
  apply runMeets_of_forall
  intro world event _member
  cases event with
  | round i =>
      rintro session _talking ⟨_phase, refuses, _rest⟩
      cases refuses
  | _ => exact True.intro

/-- A client whose line is `a`, and one whose line is `b` and whose first answer is refused. -/
def refusingClient (second : Bool) : Client :=
  { politeClient [if second then 98 else 97, newline] with accepts := fun _reply => !second }

/-- A timestamp of one letter. -/
def shortText : Timestamp := ⟨[116, newline], by decide, by decide, by decide⟩

/-- The first session, the second one up to the refused write, and a tick. -/
def brokenOff : List (Event Bool) :=
  [.lock false] ++ List.replicate 4 (.round false) ++ [.unlock false, .lock true] ++
  List.replicate 3 (.round true) ++ [.unlock true,
    .tick shortText,
    .clockLock, .clockWrite]

/-- The tick overwrites the record of the second client. -/
theorem file_overwritten :
    (runCalls (fileStep refusingClient) (.start .opened) (brokenOff.take 11)).map
        (fun result => (result.2.owner.isNone, result.2.file.content, result.2.file.pos)) =
      .ok (true, [97, newline, 98, newline], 2) ∧
    (runCalls (fileStep refusingClient) (.start .opened) brokenOff).map
        (fun result => result.2.file.content) =
      .ok [97, newline, 116, newline] := by
  constructor <;> decide +kernel

end Aesd.Server
