/-
The output file of the build with USE_AESD_CHAR_DEVICE: a stdio stream on the
driver.

fgets takes bytes from the stream's buffer and refills it by one read(2); an
fwrite and the fflush behind it are one write(2), before which bytes read ahead
are given back by an lseek(2).  What the kernel makes of each call is an input.
The model ends where a call of the stream fails.
-/

import Aesd.Driver.DeviceCalls
import Aesd.Server.SessionLog

set_option autoImplicit false

namespace Aesd.Server

open BoundedLoop Driver EndedGroups LineInput RecentWindow SegmentedBytes UnlessStopped

/-- The open file, stdio's buffer, and the kernel's part in each call. -/
structure Kernel where
  file : Nat
  bufferSize : Nat
  bufferSize_pos : 0 < bufferSize
  outcome : Nat → WriteOutcome
  uncopied : Nat → Nat

structure DeviceStream where
  machine : Machine
  unread : List Byte
  eof : Bool
  calls : Nat

def ofDriver {Value : Type} : Except Fault Value → Except Stop Value
  | .ok value => .ok value
  | .error fault => .error (.fault fault)

@[simp] theorem ofDriver_ok {Value : Type} (value : Value) :
    ofDriver (.ok value) = .ok value := rfl

/-- The most that one write(2) takes. -/
def maxRwCount : Nat := 0x7ffff000

theorem take_maxRwCount_capped (bytes : List Byte) : (bytes.take maxRwCount).length < 2 ^ 31 :=
  Nat.lt_of_le_of_lt (List.length_take_le _ _) (by decide)

namespace DeviceStream

/-- fopen with "w+" on a fresh driver. -/
def opened (fPos : Nat → Int) : DeviceStream where
  machine := .initialized fPos
  unread := []
  eof := false
  calls := 0

variable (kernel : Kernel)

/-- Refill the buffer and take its first byte. -/
def fill (stream : DeviceStream) : Except Stop (Fetched Byte × DeviceStream) := do
  let (reply, machine) ← ofDriver (stream.machine.read
    ⟨kernel.file, kernel.bufferSize, kernel.uncopied stream.calls⟩)
  if reply.ret < 0 then .error (.refused reply.ret)
  else
    match reply.data with
    | [] => return (.endOfFile, { stream with machine, eof := true, calls := stream.calls + 1 })
    | byte :: rest =>
        return (.item byte, { stream with machine, unread := rest, calls := stream.calls + 1 })

def getc (stream : DeviceStream) : Except Stop (Fetched Byte × DeviceStream) :=
  match stream.unread with
  | byte :: rest => .ok (.item byte, { stream with unread := rest })
  | [] => if stream.eof then .ok (.endOfFile, stream) else stream.fill kernel

def lseek (stream : DeviceStream) (offset : Int) (whence : Whence) : Except Stop DeviceStream := do
  let (ret, machine) ← ofDriver (stream.machine.llseek kernel.file offset whence)
  if ret < 0 then .error (.refused ret)
  else return { stream with machine, unread := [] }

/-- Give back what was read ahead. -/
def giveBack (stream : DeviceStream) : Except Stop DeviceStream :=
  if stream.unread = [] then .ok stream
  else stream.lseek kernel (-(stream.unread.length : Int)) .seekCur

def write (stream : DeviceStream) (bytes : List Byte) : Except Stop (Nat × DeviceStream) := do
  let (reply, machine) ← ofDriver (stream.machine.write
    { file := kernel.file
      buf := ⟨bytes.take maxRwCount, take_maxRwCount_capped bytes⟩
      outcome := kernel.outcome stream.calls })
  if reply.ret ≠ bytes.length then .error (.refused reply.ret)
  else return (bytes.length, { stream with machine, calls := stream.calls + 1 })

def fwrite (stream : DeviceStream) (bytes : List Byte) : Except Stop (Nat × DeviceStream) :=
  if bytes = [] then .ok (0, stream)
  else do
    let stream ← stream.giveBack kernel
    stream.write kernel bytes

def rewind (stream : DeviceStream) : Except Stop DeviceStream := do
  let stream ← stream.lseek kernel 0 .seekSet
  return { stream with eof := false }

/-- fseek( output_file, 0, SEEK_CUR ) -/
def seekCur (stream : DeviceStream) : Except Stop DeviceStream := do
  let stream ← stream.lseek kernel (-(stream.unread.length : Int)) .seekCur
  return { stream with eof := false }

def ioctlSeekto (stream : DeviceStream) (seekTo : AesdSeekto) :
    Except Stop (Int × DeviceStream) := do
  let (ret, machine) ← ofDriver (stream.machine.unlockedIoctl kernel.file
    Machine.aesdcharIocseekto seekTo (kernel.uncopied stream.calls))
  return (if ret < 0 then -1 else ret, { stream with machine, calls := stream.calls + 1 })

end DeviceStream

def deviceStream (kernel : Kernel) : OutputFile DeviceStream where
  getc := DeviceStream.getc kernel
  fwrite := DeviceStream.fwrite kernel
  rewind := DeviceStream.rewind kernel
  seekCur := DeviceStream.seekCur kernel
  ioctlSeekto := DeviceStream.ioctlSeekto kernel
  feof := DeviceStream.eof

/-- An allocation or a copy of the kernel has failed. -/
def Refused (stop : Stop) : Prop := stop = .refused (-enomem) ∨ stop = .refused (-efault)

/-! ### The log behind the device -/

/-- The device holds the last ten lines of the log and the line begun. -/
def DeviceHolds (machine : Machine) (log : Log) : Prop :=
  ∃ entries lost, Settled machine entries
    (recent aesdcharMaxWriteOperationsSupported log.lines) log.begun lost

def recentLines (log : Log) : List Byte :=
  (recent aesdcharMaxWriteOperationsSupported log.lines).flatten

variable {kernel : Kernel} {stream : DeviceStream} {log : Log}

/-- What was read ahead lies just before the position of the file. -/
def DeviceStream.Behind (kernel : Kernel) (stream : DeviceStream) (log : Log) : Prop :=
  stream.unread = [] ∨
    ((stream.unread.length : Int) ≤ stream.machine.fPos kernel.file ∧
      stream.machine.fPos kernel.file ≤ (recentLines log).length)

structure DeviceStream.Ready (kernel : Kernel) (stream : DeviceStream) (log : Log) : Prop where
  holds : DeviceHolds stream.machine log
  behind : stream.Behind kernel log

structure DeviceStream.Reads (kernel : Kernel) (stream : DeviceStream) (log : Log)
    (ahead : List Byte) : Prop extends DeviceStream.Ready kernel stream log where
  rest : stream.unread ++ (recentLines log).drop (sizeOfLoff (stream.machine.fPos kernel.file)) =
    ahead
  ended : stream.eof = true → ahead = []

theorem DeviceHolds.setFPos {machine : Machine} (holds : DeviceHolds machine log) (file : Nat)
    (fPos : Int) : DeviceHolds (machine.setFPos file fPos) log := by
  obtain ⟨entries, lost, settled⟩ := holds
  exact ⟨entries, lost, settled.setFPos file fPos⟩

theorem recentLines_length_lt {machine : Machine} (holds : DeviceHolds machine log) :
    (recentLines log).length < 2 ^ 63 := by
  obtain ⟨entries, lost, settled⟩ := holds
  exact settled.toLedger.total_lt

/-- A position within the stored bytes survives its conversions. -/
theorem sizeOfLoff_loffT {position : Nat} (small : position < 2 ^ 63) :
    sizeOfLoff (loffT position) = position := by
  rw [loffT_natCast small, sizeOfLoff_natCast (by omega)]

theorem DeviceStream.Reads.fill {ahead : List Byte} (reads : stream.Reads kernel log ahead)
    (used : stream.unread = []) (more : stream.eof = false) :
    Unless Refused (stream.fill kernel)
      (Takes (fun after ahead => DeviceStream.Reads kernel after log ahead)
        (fun after => after.eof = true) ahead) := by
  obtain ⟨⟨holds, _behind⟩, rest, _ended⟩ := reads
  have total := recentLines_length_lt holds
  obtain ⟨entries, lost, settled⟩ := id holds
  rw [used, List.nil_append] at rest
  have read := settled.read_eq ⟨kernel.file, kernel.bufferSize, kernel.uncopied stream.calls⟩
  simp only [DeviceStream.fill, read, ofDriver_ok, ok_bind, readAt]
  have front := slice_isPrefix (recent aesdcharMaxWriteOperationsSupported log.lines)
    (sizeOfLoff (stream.machine.fPos kernel.file)) kernel.bufferSize
  cases bytes : slice (recent aesdcharMaxWriteOperationsSupported log.lines)
      (sizeOfLoff (stream.machine.fPos kernel.file)) kernel.bufferSize with
  | nil =>
      -- At the end read(2) returns 0 and the position stays.
      have past := ((slice_eq_nil_iff _ _ _).mp bytes).resolve_left
        (Nat.ne_of_gt kernel.bufferSize_pos)
      have nothing : ahead = [] := by
        rw [← rest]
        exact List.drop_eq_nil_of_le past
      subst nothing
      simp only [if_true, lt_irrefl, if_false, Machine.setFPos_fPos_self]
      exact ⟨rfl, ⟨⟨holds, Or.inl used⟩, by rw [used, List.nil_append]; exact rest,
        fun _set => rfl⟩, rfl⟩
  | cons byte taken =>
      simp only [reduceCtorEq, if_false]
      by_cases complete : kernel.uncopied stream.calls = 0
      · obtain ⟨later, whole⟩ := front
        rw [bytes] at whole
        have aheadEq : ahead = (byte :: taken) ++ later := rest.symm.trans whole.symm
        have position : sizeOfLoff (stream.machine.fPos kernel.file) + (taken.length + 1) ≤
            (recentLines log).length := by
          have lengths := congrArg List.length whole
          rw [List.length_append, List.length_drop, List.length_cons] at lengths
          unfold recentLines
          omega
        have small := Nat.lt_of_le_of_lt position total
        have onward := sizeOfLoff_loffT small
        have stays := loffT_natCast small
        push_cast at onward stays
        simp only [complete, ne_eq, not_true_eq_false, if_false, aheadEq, List.length_cons]
        push_cast
        rw [if_neg (by omega)]
        refine ⟨rfl, ⟨⟨holds.setFPos _ _, Or.inr ?_⟩, ?_,
          fun set => absurd set (by rw [more]; decide)⟩⟩
        · dsimp only
          rw [Machine.setFPos_at, stays]
          omega
        · dsimp only
          rw [Machine.setFPos_at, onward, ← List.drop_drop, recentLines, ← whole]
          exact congrArg (taken ++ ·) List.drop_left
      · simp only [ne_eq, complete, not_false_eq_true, if_true]
        rw [if_pos (by decide)]
        exact Or.inr rfl

theorem DeviceStream.getc_supplies (log : Log) :
    Supplies Refused (deviceStream kernel).getc
      (fun stream ahead => DeviceStream.Reads kernel stream log ahead)
      (fun stream => (deviceStream kernel).feof stream = true) := by
  intro stream ahead reads
  change Unless Refused (stream.getc kernel) _
  unfold DeviceStream.getc
  cases buffered : stream.unread with
  | nil =>
      cases set : stream.eof with
      | true =>
          obtain rfl := reads.ended set
          exact ⟨rfl, reads, set⟩
      | false => exact reads.fill buffered set
  | cons byte taken =>
      obtain ⟨⟨holds, behind⟩, rest, ended⟩ := reads
      rw [DeviceStream.Behind, buffered, List.length_cons] at behind
      rw [buffered, List.cons_append] at rest
      subst rest
      refine ⟨rfl, ⟨holds, Or.inr ?_⟩, rfl, fun set => nomatch ended set⟩
      obtain ⟨before, within⟩ := behind.resolve_left (List.cons_ne_nil _ _)
      push_cast at before
      exact ⟨by dsimp only; omega, within⟩

/-! ### Writing and positioning -/

/-- An lseek(2) to a place within the stored bytes. -/
theorem DeviceStream.lseek_eq (holds : DeviceHolds stream.machine log) {offset target : Int}
    {whence : Whence}
    (inside : fixedSizeLlseek (stream.machine.fPos kernel.file) offset whence
      (recentLines log).length = (target, target)) (nonneg : 0 ≤ target) :
    stream.lseek kernel offset whence =
      .ok { stream with machine := stream.machine.setFPos kernel.file target, unread := [] } := by
  obtain ⟨entries, lost, settled⟩ := holds
  have made := settled.llseek_eq kernel.file offset whence
  change stream.machine.llseek _ _ _ = .ok ((fixedSizeLlseek _ _ _ (recentLines log).length).1,
    stream.machine.setFPos _ (fixedSizeLlseek _ _ _ (recentLines log).length).2) at made
  rw [inside] at made
  simp only [DeviceStream.lseek, made, ofDriver_ok, ok_bind]
  rw [if_neg (by omega)]
  rfl

theorem DeviceStream.Ready.giveBack (ready : stream.Ready kernel log) :
    ∃ after, stream.giveBack kernel = .ok after ∧ DeviceHolds after.machine log ∧
      after.unread = [] := by
  by_cases nothing : stream.unread = []
  · exact ⟨stream, if_pos nothing, ready.holds, nothing⟩
  obtain ⟨before, within⟩ := ready.behind.resolve_left nothing
  have positive := List.length_pos_iff.mpr nothing
  have total := recentLines_length_lt ready.holds
  -- The target is a natural number below 2^63.
  obtain ⟨target, same⟩ := Int.eq_ofNat_of_zero_le (Int.sub_nonneg_of_le before)
  have stays := loffT_natCast (show target < 2 ^ 63 by omega)
  have inside : fixedSizeLlseek (stream.machine.fPos kernel.file) (-(stream.unread.length : Int))
      .seekCur (recentLines log).length = ((target : Int), (target : Int)) := by
    rw [fixedSizeLlseek, if_neg (by omega), ← Int.sub_eq_add_neg, same]
    rw [stays, vfsSetpos, if_neg (by omega), if_neg (by omega)]
  have given : stream.giveBack kernel = .ok { stream with
      machine := stream.machine.setFPos kernel.file target
      unread := [] } := by
    rw [DeviceStream.giveBack, if_neg nothing]
    exact DeviceStream.lseek_eq ready.holds inside (Int.natCast_nonneg target)
  exact ⟨_, given, ready.holds.setFPos kernel.file target, rfl⟩

/-- What the device keeps of a log. -/
def storedOf (log : Log) : Stored where
  commands := recent aesdcharMaxWriteOperationsSupported log.lines
  pending := log.begun

theorem storedOf_write_closed {bytes : List Byte} (closed : Closed EndsLine bytes) :
    storedOf (log.write bytes) =
      { commands := recent aesdcharMaxWriteOperationsSupported
          ((storedOf log).commands ++ [(storedOf log).pending ++ bytes])
        pending := [] } := by
  have lines : (log.write bytes).lines = log.lines ++ [log.begun ++ bytes] :=
    congrArg (log.lines ++ ·) (groups_of_closed log.begun closed)
  rw [storedOf, lines, Log.begun_write_line log closed]
  exact congrArg (Stored.mk · []) (recent_concat _ _ _).symm

theorem storedOf_write_unended {bytes : List Byte} (unended : Unended EndsLine bytes) :
    storedOf (log.write bytes) =
      { storedOf log with pending := (storedOf log).pending ++ bytes } := by
  have lines : (log.write bytes).lines = log.lines := by
    change log.lines ++ groups EndsLine log.begun bytes = _
    rw [groups_of_unended _ unended, List.append_nil]
  have begun : (log.write bytes).begun = log.begun ++ bytes := remainder_of_unended _ unended
  rw [storedOf, lines, begun]
  rfl

/-- A write that returns its count does to the device what it does to the log. -/
theorem Stored.write_counted {bytes : List Byte} (chunk : Chunk EndsLine bytes)
    {allocated : Bool} {uncopied : Nat}
    (counted : (Stored.write (storedOf log) allocated bytes uncopied).1 = bytes.length) :
    (Stored.write (storedOf log) allocated bytes uncopied).2 = storedOf (log.write bytes) := by
  unfold Stored.write at counted ⊢
  by_cases empty : bytes = []
  · rw [if_pos empty, empty, Log.write_nil]
  rw [if_neg empty] at counted ⊢
  by_cases refused : allocated = false
  · rw [if_pos refused] at counted
    unfold enomem at counted
    omega
  rw [if_neg refused] at counted ⊢
  by_cases partly : uncopied ≠ 0
  · rw [if_pos partly] at counted
    unfold efault at counted
    omega
  rw [if_neg partly]
  rcases chunk with unended | closed
  · rw [if_neg, storedOf_write_unended unended]
    intro last
    exact unended newline (List.mem_of_getLast? last) rfl
  · rw [if_pos, storedOf_write_closed closed]
    obtain ⟨front, last, rfl, isEnd, _earlier⟩ := closed
    rw [List.getLast?_concat, isEnd]

theorem Stored.write_ret (stored : Stored) (allocated : Bool) (bytes : List Byte)
    (uncopied : Nat) :
    (Stored.write stored allocated bytes uncopied).1 = bytes.length ∨
      (Stored.write stored allocated bytes uncopied).1 = -enomem ∨
      (Stored.write stored allocated bytes uncopied).1 = -efault := by
  unfold Stored.write
  split_ifs with empty
  · exact Or.inl (by rw [empty]; rfl)
  · exact Or.inr (Or.inl rfl)
  · exact Or.inr (Or.inr rfl)
  · exact Or.inl rfl
  · exact Or.inl rfl

/-- write(2) on the device: it takes all bytes, and the log has them, or it fails. -/
theorem DeviceHolds.write {machine : Machine} (holds : DeviceHolds machine log)
    (call : WriteCall) (chunk : Chunk EndsLine call.buf.bytes) :
    ∃ reply after, machine.write call = .ok (reply, after) ∧
      ((reply.ret = call.buf.bytes.length ∧ DeviceHolds after (log.write call.buf.bytes)) ∨
        reply.ret = -enomem ∨ reply.ret = -efault) := by
  obtain ⟨entries, lost, settled⟩ := holds
  obtain ⟨after, added, leftover, made, kept, _effect⟩ := settled.write_spec call
  refine ⟨_, after, made, ?_⟩
  rcases Stored.write_ret (storedOf log)
      (machine.allocates call.buf.bytes.length call.outcome.allocation) call.buf.bytes
      call.outcome.uncopied with counted | failed
  · have stored := Stored.write_counted chunk counted
    change Settled _ _ (Stored.write (storedOf log) _ _ _).2.commands
      (Stored.write (storedOf log) _ _ _).2.pending _ at kept
    rw [stored] at kept
    exact Or.inl ⟨counted, added, leftover, kept⟩
  · exact Or.inr failed

theorem DeviceStream.write_unless (holds : DeviceHolds stream.machine log)
    (used : stream.unread = []) {bytes : List Byte} (chunk : Chunk EndsLine bytes)
    (short : bytes.length ≤ pieceSize) :
    Unless Refused (stream.write kernel bytes) (fun written =>
      written.1 = bytes.length ∧ written.2.Ready kernel (log.write bytes)) := by
  have whole : bytes.take maxRwCount = bytes :=
    List.take_of_length_le (Nat.le_trans short (by decide))
  obtain ⟨reply, after, made, answer⟩ := holds.write ⟨kernel.file,
    ⟨bytes.take maxRwCount, take_maxRwCount_capped bytes⟩, kernel.outcome stream.calls⟩
    (by dsimp only; rw [whole]; exact chunk)
  simp only [whole] at answer
  simp only [DeviceStream.write, made, ofDriver_ok, ok_bind]
  rcases answer with ⟨counted, written⟩ | failed
  · simp only [counted, ne_eq, not_true_eq_false, if_false]
    exact ⟨rfl, written, Or.inl used⟩
  · have short : reply.ret ≠ bytes.length := by
      unfold enomem efault at failed
      omega
    rw [if_pos short]
    rcases failed with refused | refused <;> rw [refused]
    · exact Or.inl rfl
    · exact Or.inr rfl

theorem DeviceStream.Ready.fwrite (ready : stream.Ready kernel log) {bytes : List Byte}
    (chunk : Chunk EndsLine bytes) (short : bytes.length ≤ pieceSize) :
    Unless Refused (stream.fwrite kernel bytes) (fun written =>
      written.1 = bytes.length ∧ written.2.Ready kernel (log.write bytes)) := by
  unfold DeviceStream.fwrite
  by_cases empty : bytes = []
  · rw [if_pos empty, empty, Log.write_nil]
    exact ⟨rfl, ready⟩
  · obtain ⟨after, given, holds, used⟩ := ready.giveBack
    rw [if_neg empty, given, ok_bind]
    exact DeviceStream.write_unless holds used chunk short

theorem DeviceStream.Ready.rewind (ready : stream.Ready kernel log) :
    Unless Refused (stream.rewind kernel) (fun after =>
      after.Reads kernel log (recentLines log)) := by
  have position : fixedSizeLlseek (stream.machine.fPos kernel.file) 0 .seekSet
      (recentLines log).length = (0, 0) := by
    rw [fixedSizeLlseek, vfsSetpos, if_neg (lt_irrefl 0), if_neg (by omega)]
  rw [DeviceStream.rewind, DeviceStream.lseek_eq ready.holds position (le_refl 0), ok_bind]
  refine ⟨⟨ready.holds.setFPos _ _, Or.inl rfl⟩, ?_, fun impossible => (nomatch impossible)⟩
  change [] ++ (recentLines log).drop (sizeOfLoff ((stream.machine.setFPos _ 0).fPos _)) = _
  rw [Machine.setFPos_at]
  rfl

theorem DeviceStream.ioctlSeekto_unless (ready : stream.Ready kernel log) (seekTo : AesdSeekto) :
    Unless Any (stream.ioctlSeekto kernel seekTo) (fun answer =>
      if answer.1 = -1 then answer.2.Ready kernel log else DeviceHolds answer.2.machine log) := by
  unfold DeviceStream.ioctlSeekto
  cases made : stream.machine.unlockedIoctl kernel.file Machine.aesdcharIocseekto seekTo
      (kernel.uncopied stream.calls) with
  | error fault => exact True.intro
  | ok answer =>
      obtain ⟨ret, after⟩ := answer
      change if (if ret < 0 then -1 else ret) = -1 then DeviceStream.Ready kernel
        { stream with machine := after, calls := stream.calls + 1 } log else DeviceHolds after log
      rcases Machine.unlockedIoctl_moves made with same | ⟨zero, fPos, same⟩
      · rw [same]
        by_cases failed : (if ret < 0 then -1 else ret) = -1
        · rw [if_pos failed]
          exact ⟨ready.holds, ready.behind⟩
        · rw [if_neg failed]
          exact ready.holds
      · rw [zero, same]
        exact ready.holds.setFPos _ fPos

theorem DeviceHolds.seekCur (holds : DeviceHolds stream.machine log) :
    Unless Any (stream.seekCur kernel) (fun after => ∃ ahead, after.Reads kernel log ahead) := by
  obtain ⟨entries, lost, settled⟩ := id holds
  have made := settled.llseek_eq kernel.file (-(stream.unread.length : Int)) .seekCur
  simp only [DeviceStream.seekCur, DeviceStream.lseek, made, ofDriver_ok, ok_bind]
  split
  · exact True.intro
  · exact ⟨_, ⟨holds.setFPos _ _, Or.inl rfl⟩, rfl, fun impossible => (nomatch impossible)⟩

/-- The device shows the last ten lines of its log; a reader may leave it
anywhere. -/
def keepsDevice (kernel : Kernel) : KeepsLog Refused (deviceStream kernel) where
  window := recentLines
  MayLeave := fun _ahead => True
  Ready := fun stream log => stream.Ready kernel log
  Seeking := fun stream log => DeviceHolds stream.machine log
  Reading := fun stream log ahead => stream.Reads kernel log ahead
  window_subset := by
    intro log byte member
    obtain ⟨line, recentLine, inside⟩ := List.mem_flatten.mp member
    exact List.mem_append_left _
      (List.mem_flatten.mpr ⟨line, mem_of_mem_recent recentLine, inside⟩)
  write := fun ready chunk short => ready.fwrite chunk short
  rewind := fun ready => ready.rewind
  ioctlSeekto := fun seekTo ready => DeviceStream.ioctlSeekto_unless ready seekTo
  seekCur := fun holds => DeviceHolds.seekCur holds
  getc := DeviceStream.getc_supplies
  leave := fun reads _mayLeave => reads.toReady
  mayLeave_end := True.intro

end Aesd.Server
