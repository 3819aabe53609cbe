/-
The device with the rotation of its ring.

How far the ring is rotated tells which stored lines the seek command finds, so
the device is followed here with its rotation: every line more than ten turns
it by one slot.  Nothing is read ahead when a session begins, and the seek
command puts the next reader at the byte it asks for.
-/

import Aesd.Driver.CommandStore
import Aesd.Server.DeviceStream

set_option autoImplicit false

namespace Aesd.Server

open BoundedLoop CallRun Driver EndedGroups LineInput RecentWindow SegmentedBytes UnlessStopped

/-- What the device holds of a log, as a command store. -/
def Log.store (log : Log) (fPos : Nat → Int) : CommandStore where
  completed := log.lines
  pending := log.begun
  fPos := fPos

/-- How far a log of these lines rotates the ring. -/
def rotation (lines : List (List Byte)) : Nat :=
  (lines.length - aesdcharMaxWriteOperationsSupported) % aesdcharMaxWriteOperationsSupported

def Rotated (stream : DeviceStream) (log : Log) : Prop :=
  stream.machine.dev.buffer.outOffs = rotation log.lines

/-- The ring is the same one, whatever became of the file's position. -/
def SameRing (stream after : DeviceStream) : Prop :=
  after.machine.dev.buffer = stream.machine.dev.buffer

variable {kernel : Kernel} {stream after : DeviceStream} {log : Log}

theorem Rotated.same (rotated : Rotated stream log) (same : SameRing stream after) :
    Rotated after log := (congrArg AesdCircularBuffer.outOffs same).trans rotated

theorem refines_of_rotated {machine : Machine} (holds : DeviceHolds machine log)
    (rotated : machine.dev.buffer.outOffs = rotation log.lines) :
    Refines machine (log.store machine.fPos) := ⟨holds, rotated, rfl⟩

/-! ### Calls that leave the ring alone -/

theorem ofDriver_eq_ok {Value : Type} {result : Except Fault Value} {value : Value}
    (made : ofDriver result = .ok value) : result = .ok value := by
  cases result with
  | error fault => cases made
  | ok other =>
      cases made
      rfl

theorem llseek_buffer {machine reached : Machine} {file : Nat} {offset ret : Int}
    {whence : Whence} (sought : machine.llseek file offset whence = .ok (ret, reached)) :
    reached.dev.buffer = machine.dev.buffer := by
  obtain ⟨fullSize, _size, same⟩ := ok_of_bind sought
  cases same
  rfl

theorem DeviceStream.lseek_sameRing {offset : Int} {whence : Whence}
    (sought : stream.lseek kernel offset whence = .ok after) : SameRing stream after := by
  obtain ⟨⟨ret, machine⟩, made, onward⟩ := ok_of_bind sought
  have same := llseek_buffer (ofDriver_eq_ok made)
  dsimp only at onward
  split at onward
  · cases onward
  · cases onward
    exact same

theorem DeviceStream.rewind_sameRing (made : stream.rewind kernel = .ok after) :
    SameRing stream after := by
  obtain ⟨middle, sought, same⟩ := ok_of_bind made
  cases same
  have ring : SameRing stream middle := DeviceStream.lseek_sameRing sought
  exact ring

theorem DeviceStream.seekCur_sameRing (made : stream.seekCur kernel = .ok after) :
    SameRing stream after := by
  obtain ⟨middle, sought, same⟩ := ok_of_bind made
  cases same
  have ring : SameRing stream middle := DeviceStream.lseek_sameRing sought
  exact ring

theorem DeviceStream.giveBack_sameRing (given : stream.giveBack kernel = .ok after) :
    SameRing stream after := by
  unfold DeviceStream.giveBack at given
  split at given
  · cases given
    rfl
  · exact DeviceStream.lseek_sameRing given

theorem DeviceStream.getc_sameRing (holds : DeviceHolds stream.machine log)
    {fetched : Fetched Byte} (got : stream.getc kernel = .ok (fetched, after)) :
    SameRing stream after := by
  unfold DeviceStream.getc at got
  split at got
  · cases got
    rfl
  split at got
  · cases got
    rfl
  obtain ⟨entries, lost, settled⟩ := holds
  have read := settled.read_eq ⟨kernel.file, kernel.bufferSize, kernel.uncopied stream.calls⟩
  simp only [DeviceStream.fill, read, ofDriver_ok, ok_bind] at got
  split at got
  · cases got
  split at got
  · cases got
    rfl
  · cases got
    rfl

/-! ### Writing -/

/-- A write that returns its count does to the store what it does to the log. -/
theorem store_write_counted {fPos : Nat → Int} {granted : Bool} {call : WriteCall}
    (chunk : Chunk EndsLine call.buf.bytes)
    (counted : ((log.store fPos).write granted call).1.ret = call.buf.bytes.length) :
    ((log.store fPos).write granted call).2 = (log.write call.buf.bytes).store fPos := by
  unfold CommandStore.write at counted ⊢
  by_cases empty : call.buf.bytes = []
  · simp only [empty, if_true, Log.write_nil]
  simp only [if_neg empty] at counted ⊢
  by_cases refused : granted = false
  · simp only [if_pos refused] at counted
    unfold enomem at counted
    omega
  simp only [if_neg refused] at counted ⊢
  by_cases partly : call.outcome.uncopied ≠ 0
  · simp only [if_pos partly] at counted
    unfold efault at counted
    omega
  simp only [if_neg partly]
  rcases chunk with unended | closed
  · have inside : call.buf.bytes.getLast? ≠ some newline := by
      intro last
      exact unended newline (List.mem_of_getLast? last) rfl
    have lines : (log.write call.buf.bytes).lines = log.lines := by
      change log.lines ++ groups EndsLine log.begun call.buf.bytes = _
      rw [groups_of_unended _ unended, List.append_nil]
    have begun : (log.write call.buf.bytes).begun = log.begun ++ call.buf.bytes :=
      remainder_of_unended _ unended
    simp only [if_neg inside]
    rw [Log.store, Log.store, lines, begun]
  · have ended : call.buf.bytes.getLast? = some newline := by
      obtain ⟨front, last, same, isEnd, _earlier⟩ := closed
      rw [same, List.getLast?_concat, isEnd]
    have lines : (log.write call.buf.bytes).lines = log.lines ++ [log.begun ++ call.buf.bytes] :=
      congrArg (log.lines ++ ·) (groups_of_closed log.begun closed)
    simp only [if_pos ended]
    rw [Log.store, Log.store, lines, log.begun_write_line closed]

theorem DeviceStream.write_rotated (holds : DeviceHolds stream.machine log)
    (rotated : Rotated stream log) {bytes : List Byte} (chunk : Chunk EndsLine bytes)
    (short : bytes.length ≤ pieceSize) {count : Nat}
    (written : stream.write kernel bytes = .ok (count, after)) :
    Rotated after (log.write bytes) := by
  have whole : bytes.take maxRwCount = bytes :=
    List.take_of_length_le (Nat.le_trans short (by decide))
  obtain ⟨⟨reply, machine⟩, made, onward⟩ := ok_of_bind written
  have made := ofDriver_eq_ok made
  obtain ⟨granted, reached, same, refines⟩ := (refines_of_rotated holds rotated).write
    ⟨kernel.file, ⟨bytes.take maxRwCount, take_maxRwCount_capped bytes⟩,
      kernel.outcome stream.calls⟩
  rw [made] at same
  cases same
  dsimp only at onward
  split at onward
  · cases onward
  · rename_i counted
    cases onward
    have sameLength : (bytes.length : Int) = (bytes.take maxRwCount).length := by rw [whole]
    have counted := (not_not.mp counted).trans sameLength
    rw [store_write_counted (by dsimp only; rw [whole]; exact chunk) counted] at refines
    dsimp only at refines
    rw [whole] at refines
    exact refines.rotated

theorem DeviceStream.fwrite_rotated (ready : stream.Ready kernel log)
    (rotated : Rotated stream log) {bytes : List Byte} (chunk : Chunk EndsLine bytes)
    (short : bytes.length ≤ pieceSize) {count : Nat}
    (written : stream.fwrite kernel bytes = .ok (count, after)) :
    Rotated after (log.write bytes) := by
  unfold DeviceStream.fwrite at written
  by_cases empty : bytes = []
  · rw [if_pos empty] at written
    cases written
    rw [empty, Log.write_nil]
    exact rotated
  · obtain ⟨middle, given, holds, _used⟩ := ready.giveBack
    rw [if_neg empty, given, ok_bind] at written
    exact DeviceStream.write_rotated holds (rotated.same (DeviceStream.giveBack_sameRing given))
      chunk short written

theorem DeviceStream.fwrite_used (used : stream.unread = []) {bytes : List Byte} {count : Nat}
    (written : stream.fwrite kernel bytes = .ok (count, after)) : after.unread = [] := by
  unfold DeviceStream.fwrite at written
  split at written
  · cases written
    exact used
  · rw [DeviceStream.giveBack, if_pos used, ok_bind] at written
    obtain ⟨⟨reply, machine⟩, _made, onward⟩ := ok_of_bind written
    dsimp only at onward
    split at onward
    · cases onward
    · cases onward
      exact used

/-! ### The log with the rotation -/

structure RingReady (kernel : Kernel) (stream : DeviceStream) (log : Log) : Prop where
  ready : stream.Ready kernel log
  rotated : Rotated stream log
  used : stream.unread = []

structure RingReads (kernel : Kernel) (stream : DeviceStream) (log : Log) (ahead : List Byte) :
    Prop where
  reads : stream.Reads kernel log ahead
  rotated : Rotated stream log

/-- The seek command has put the file at a byte of the stored lines. -/
structure RingPlaced (kernel : Kernel) (stream : DeviceStream) (log : Log) (place : Nat) :
    Prop where
  holds : DeviceHolds stream.machine log
  rotated : Rotated stream log
  used : stream.unread = []
  position : stream.machine.fPos kernel.file = (place : Int)
  inside : place ≤ (recentLines log).length

theorem RingReads.leave (reads : RingReads kernel stream log []) :
    RingReady kernel stream log where
  ready := reads.reads.toReady
  rotated := reads.rotated
  used := (List.append_eq_nil_iff.mp reads.reads.rest).1

theorem ringReads_supplies (log : Log) :
    Supplies Refused (deviceStream kernel).getc
      (fun stream ahead => RingReads kernel stream log ahead)
      (fun stream => (deviceStream kernel).feof stream = true) := by
  rintro stream ahead ⟨reads, rotated⟩
  have supplied := (DeviceStream.getc_supplies log stream ahead reads).also
    (fun answer got => rotated.same (DeviceStream.getc_sameRing reads.holds got))
  apply supplied.mono
  rintro ⟨fetched, after⟩ ⟨taken, turned⟩
  cases ahead with
  | nil =>
      obtain ⟨same, kept, ended⟩ := taken
      exact ⟨same, ⟨kept, turned⟩, ended⟩
  | cons byte rest =>
      obtain ⟨same, kept⟩ := taken
      exact ⟨same, ⟨kept, turned⟩⟩

theorem ioctlSeekto_sameRing {seekTo : AesdSeekto} {ret : Int}
    (made : stream.ioctlSeekto kernel seekTo = .ok (ret, after)) :
    SameRing stream after ∧ after.unread = stream.unread := by
  obtain ⟨⟨answer, machine⟩, sought, same⟩ := ok_of_bind made
  cases same
  rcases Machine.unlockedIoctl_moves (ofDriver_eq_ok sought) with unmoved | ⟨_zero, fPos, moved⟩
  · rw [unmoved]
    exact ⟨rfl, rfl⟩
  · rw [moved]
    exact ⟨rfl, rfl⟩

/-- A reader has been through all that was stored. -/
def ReadAll (ahead : List Byte) : Prop := ahead = []

theorem readAll_nil : ReadAll [] := rfl

/-- The device keeps its log and the rotation, as long as every reader goes to
the end. -/
def keepsRing (kernel : Kernel) : KeepsLog Refused (deviceStream kernel) where
  window := recentLines
  MayLeave := ReadAll
  Ready := fun stream log => RingReady kernel stream log
  Seeking := fun stream log => DeviceHolds stream.machine log ∧ Rotated stream log
  Reading := fun stream log ahead => RingReads kernel stream log ahead
  window_subset := (keepsDevice kernel).window_subset
  write := by
    rintro stream log bytes ⟨ready, rotated, used⟩ chunk short
    have written := (ready.fwrite chunk short).also (fun answer made =>
      And.intro (DeviceStream.fwrite_rotated ready rotated chunk short made)
        (DeviceStream.fwrite_used used made))
    exact written.mono (fun _answer both =>
      ⟨both.1.1, both.1.2, both.2.1, both.2.2⟩)
  rewind := by
    rintro stream log ⟨ready, rotated, _used⟩
    have sought := ready.rewind.also (fun after made =>
      rotated.same (DeviceStream.rewind_sameRing made))
    exact sought.mono (fun _after both => ⟨both.1, both.2⟩)
  ioctlSeekto := by
    rintro stream log seekTo ⟨ready, rotated, used⟩
    have turned : ∀ answer, stream.ioctlSeekto kernel seekTo = .ok answer →
        SameRing stream answer.2 ∧ answer.2.unread = stream.unread := by
      rintro ⟨ret, after⟩ made
      exact ioctlSeekto_sameRing made
    apply ((DeviceStream.ioctlSeekto_unless ready seekTo).also turned).mono
    rintro ⟨ret, after⟩ ⟨kept, ring, sameUnread⟩
    by_cases failed : ret = -1
    · simp only [if_pos failed] at kept ⊢
      exact ⟨kept, rotated.same ring, sameUnread.trans used⟩
    · simp only [if_neg failed] at kept ⊢
      exact ⟨kept, rotated.same ring⟩
  seekCur := by
    rintro stream log ⟨holds, rotated⟩
    have sought : Unless Any (stream.seekCur kernel) _ := DeviceHolds.seekCur holds
    apply (sought.also fun after made => rotated.same (DeviceStream.seekCur_sameRing made)).mono
    rintro after ⟨⟨ahead, reads⟩, turned⟩
    exact ⟨ahead, reads, turned⟩
  getc := ringReads_supplies
  leave := by
    rintro stream log ahead reads rfl
    exact reads.leave
  mayLeave_end := readAll_nil

/-! ### The seek command -/

/-- The byte that a seek command asks for, behind these lines. -/
def seekPlace (lines : List (List Byte)) (seekTo : AesdSeekto) : Option Nat :=
  let visible := recent aesdcharMaxWriteOperationsSupported lines
  match visible[seekTo.writeCmd]? with
  | none => none
  | some line =>
      if seekTo.writeCmdOffset < line.length then
        some (positionOf (visible.map List.length) seekTo.writeCmd seekTo.writeCmdOffset)
      else none

/-- The driver leaves its array. -/
def LeavesArray (stop : Stop) : Prop :=
  ∃ slot, aesdcharMaxWriteOperationsSupported ≤ slot ∧ stop = .fault (.entryIndex slot)

theorem seekPlace_eq {lines : List (List Byte)} {seekTo : AesdSeekto} {line : List Byte}
    (found : (recent aesdcharMaxWriteOperationsSupported lines)[seekTo.writeCmd]? = some line) :
    seekPlace lines seekTo = if seekTo.writeCmdOffset < line.length then
      some (positionOf ((recent aesdcharMaxWriteOperationsSupported lines).map List.length)
        seekTo.writeCmd seekTo.writeCmdOffset) else none := by
  simp only [seekPlace, found]

theorem seekPlace_absent {lines : List (List Byte)} {seekTo : AesdSeekto}
    (found : (recent aesdcharMaxWriteOperationsSupported lines)[seekTo.writeCmd]? = none) :
    seekPlace lines seekTo = none := by
  simp only [seekPlace, found]

/-- The answer of a store's seek, and what it makes of the position. -/
def SeekAnswered (log : Log) (fPos : Nat → Int) (file : Nat) (answer : Int × CommandStore) :
    Option Nat → Prop
  | none => answer = (-einval, log.store fPos)
  | some place => answer = (0, (log.store fPos).setFPos file place) ∧
      place ≤ (recentLines log).length

theorem store_seekto (fPos : Nat → Int) (file : Nat) (seekTo : AesdSeekto) :
    Unless (fun fault => LeavesArray (.fault fault))
      ((log.store fPos).seekto file seekTo.writeCmd seekTo.writeCmdOffset)
      (fun answer => SeekAnswered log fPos file answer (seekPlace log.lines seekTo)) := by
  have visible : (log.store fPos).visible =
      recent aesdcharMaxWriteOperationsSupported log.lines := rfl
  simp only [CommandStore.seekto, visible]
  cases found : (recent aesdcharMaxWriteOperationsSupported log.lines)[seekTo.writeCmd]? with
  | none =>
      rw [seekPlace_absent found]
      exact rfl
  | some line =>
      rw [seekPlace_eq found]
      dsimp only
      split
      · rename_i beyond
        exact ⟨_, beyond, rfl⟩
      · by_cases inside : seekTo.writeCmdOffset < line.length
        · rw [if_pos inside, if_pos inside]
          exact ⟨rfl, Nat.le_of_lt (positionOf_lt_flatten found inside)⟩
        · rw [if_neg inside, if_neg inside]
          exact rfl

/-- What ioctl(2) returned, and where the stream is then. -/
def StreamSought (kernel : Kernel) (log : Log) (answer : Int × DeviceStream) : Option Nat → Prop
  | none => answer.1 = -1 ∧ RingReady kernel answer.2 log
  | some place => answer.1 = 0 ∧ RingPlaced kernel answer.2 log place

theorem RingReady.ioctlSeekto (ready : RingReady kernel stream log)
    (copied : kernel.uncopied stream.calls = 0) (seekTo : AesdSeekto) :
    Unless LeavesArray (stream.ioctlSeekto kernel seekTo)
      (fun answer => StreamSought kernel log answer (seekPlace log.lines seekTo)) := by
  obtain ⟨ready, rotated, used⟩ := ready
  have alike := (refines_of_rotated ready.holds rotated).seekto kernel.file seekTo.writeCmd
    seekTo.writeCmdOffset
  have known : Unless (fun fault => LeavesArray (.fault fault)) ((log.store _).seekto _ _ _) _ :=
    store_seekto stream.machine.fPos kernel.file seekTo
  have passed : stream.machine.unlockedIoctl kernel.file Machine.aesdcharIocseekto seekTo 0 =
      stream.machine.aesdAdjustFileOffset kernel.file seekTo.writeCmd seekTo.writeCmdOffset :=
    unlockedIoctl_seekto ..
  cases sought : stream.machine.aesdAdjustFileOffset kernel.file seekTo.writeCmd
      seekTo.writeCmdOffset with
  | error fault =>
      rw [sought] at alike
      rw [alike.of_error] at known
      simp only [DeviceStream.ioctlSeekto, copied, passed, sought]
      exact known
  | ok answer =>
      obtain ⟨ret, machine⟩ := answer
      rw [sought] at alike passed
      obtain ⟨store, found, refines⟩ := alike.of_ok
      rw [found] at known
      have made : stream.ioctlSeekto kernel seekTo = .ok (if ret < 0 then -1 else ret,
          { stream with machine, calls := stream.calls + 1 }) := by
        simp only [DeviceStream.ioctlSeekto, copied, passed, ofDriver_ok, ok_bind]
        rfl
      obtain ⟨ring, _unread⟩ := ioctlSeekto_sameRing made
      have turned := rotated.same ring
      rw [made]
      change SeekAnswered log _ _ (ret, store) _ at known
      change StreamSought kernel log (_, _) _
      cases place : seekPlace log.lines seekTo with
      | none =>
          rw [place] at known
          cases known
          have code : (if -einval < 0 then (-1 : Int) else -einval) = -1 := by decide
          exact ⟨code, ⟨refines.settled, Or.inl used⟩, turned, used⟩
      | some byte =>
          rw [place] at known
          obtain ⟨same, inside⟩ := known
          cases same
          have code : (if (0 : Int) < 0 then (-1 : Int) else 0) = 0 := by decide
          refine ⟨code, refines.settled, turned, used, ?_, inside⟩
          rw [refines.samePos]
          exact Function.update_self ..

theorem RingPlaced.seekCur {place : Nat} (placed : RingPlaced kernel stream log place) :
    Unless Refused (stream.seekCur kernel) (fun after =>
      RingReads kernel after log ((recentLines log).drop place)) := by
  have total := recentLines_length_lt placed.holds
  have small := Nat.lt_of_le_of_lt placed.inside total
  have still : fixedSizeLlseek (stream.machine.fPos kernel.file)
      (-(stream.unread.length : Int)) .seekCur (recentLines log).length =
        ((place : Int), (place : Int)) := by
    rw [placed.used, placed.position]
    rfl
  have made := DeviceStream.lseek_eq placed.holds still (Int.natCast_nonneg place)
  rw [DeviceStream.seekCur, made, ok_bind]
  have unended : false ≠ true := Bool.false_ne_true
  refine ⟨⟨⟨placed.holds.setFPos _ _, Or.inl rfl⟩, ?_, fun ended => absurd ended unended⟩,
    placed.rotated⟩
  change [] ++ (recentLines log).drop
    (sizeOfLoff ((stream.machine.setFPos kernel.file place).fPos kernel.file)) = _
  rw [Machine.setFPos_at, sizeOfLoff_natCast (by omega), List.nil_append]

end Aesd.Server
