import IscsiTarget.Answers.Settings
import IscsiTarget.Commands.UnmapTruth
import IscsiTarget.Disk.CompareWrite
import IscsiTarget.Disk.Rests
import IscsiTarget.Disk.Storing
import IscsiTarget.Lib.Disk
import IscsiTarget.Read.Returns

/-!
# Tasks

A `Task` is a command of an initiator with the Data-Outs it sends for it, under the tag
it is told. `Task.Asks` tells which tasks ask something of the disk, and what: the
commands inside the device that the code is up to. One constructor stands for each kind of
request, with the conditions under which the target does what it is asked.

`Idle` is the connection between two tasks. `Task.Asks.run` takes a task from
one idle connection to the next: unless something failed, the medium has the effect of the
request, and the initiator has been sent the answer.
-/

namespace IscsiTarget

variable {β : Type}

/-- A command, and the Data-Outs an initiator sends for it once it knows the
tag. -/
structure Task where
  command : Pdu
  dataOuts : UInt32 → List Pdu := fun _ => []

namespace Task

/-- The PDUs of the task, on a connection. -/
def pdus (T : Target β) (c : Conn β) (x : Task) : List Pdu :=
  x.command :: x.dataOuts (commandTag T c x.command)

/-! ### What a task asks -/

/-- A WRITE of the payload, in any pieces of whole blocks and in any order, the
last one with the F bit. Together with what has come at once they cover what the
command asks for, each byte once. -/
structure IsStore (T : Target β) (size : ℕ) (x : Task) (payload : Bytes) : Prop where
  write : x.command.IsWrite
  fua : x.command.bhs.getCdb.opcode ≠ .write6 → x.command.fua = false
  protect : x.command.bhs.getCdb.opcode ≠ .write6 →
    getElem x.command.bhs.getCdb 1 Cdb.lt1 >>> 5 = 0
  inside : x.command.lba.toNat + x.command.nBlocks.toNat ≤ size
  expDatLen : x.command.bhs.getExpDatLen.toNat = nBytesOf T x.command
  length : payload.length = nBytesOf T x.command
  immediate : x.command.data <+: payload
  carries : ∀ tag, ∀ d ∈ x.dataOuts tag, Carries T payload tag d
  tiles : ∀ tag, Extent.Tiles ((x.dataOuts tag).map Pdu.extent)
    (immediateBlocks T x.command * T.blockSize) (nBytesOf T x.command)
  final : ∀ tag d, (x.dataOuts tag).getLast? = some d → d.bhs.getF = true
  /-- A WRITE(6) whose address has the bit that is FUA in the longer commands
  brings all its data at once. -/
  lands : x.command.fua = true → x.command.data.length = nBytesOf T x.command

/-- A READ whose segments hold whole blocks, but for the last one, which may be
shorter than a block. With other segments the loop loses its place on the
medium. -/
structure IsLoad (T : Target β) (seg : UInt32) (size : ℕ) (q : Pdu) (len : ℕ) : Prop where
  opcode : q.bhs.getOpcode = .scsiCmd
  read : q.bhs.getCdb.opcode = .read6 ∨ q.bhs.getCdb.opcode = .read10 ∨
    q.bhs.getCdb.opcode = .read12 ∨ q.bhs.getCdb.opcode = .read16
  blocks : 0 < q.bhs.getCdb.range.2.toNat
  inside : q.bhs.getCdb.range.1.toNat + q.bhs.getCdb.range.2.toNat ≤ size
  protect : ¬ Situation.RdProtected q.bhs.getCdb
  segment : 0 < seg.toNat
  len_eq : len = min (q.bhs.getCdb.range.2.toNat * T.blockSize) q.bhs.getExpDatLen.toNat
  /-- The product is kept in 32 bits. -/
  fits : min (q.bhs.getCdb.range.2.toNat * T.blockSize % 2 ^ 32) q.bhs.getExpDatLen.toNat = len
  aligned : ∀ history, (len ≤ min seg.toNat (bufferN T history) ∨
      T.blockSize ∣ min seg.toNat (bufferN T history)) ∧
    (Segments.lastLength (min seg.toNat (bufferN T history)) len < T.blockSize ∨
      T.blockSize ∣ Segments.lastLength (min seg.toNat (bufferN T history)) len)

/-- An UNMAP with complete and valid descriptors. An invalid one would be
refused while the others are carried out. -/
structure IsClear (T : Target β) (size : ℕ) (q : Pdu) : Prop where
  opcode : q.bhs.getOpcode = .scsiCmd
  unmap : q.bhs.getCdb.opcode = .unmap
  length : ∃ k, q.data.length = 8 + 16 * k
  valid : ∀ d ∈ Scsi.unmapDescriptors (q.data.drop 8),
    d.1.toNat + d.2.toNat ≤ size ∧ d.2 ≤ T.build.maxUnmapBlocks

/-- A COMPARE AND WRITE of at most one block, with both buffers, on a device
that is not empty. -/
structure IsSwap (T : Target β) (size : ℕ) (q : Pdu) : Prop where
  opcode : q.bhs.getOpcode = .scsiCmd
  compareAndWrite : q.bhs.getCdb.opcode = .compareAndWrite
  size_pos : 0 < size
  count : q.compareCount.toNat ≤ 1
  inside : q.compareLba.toNat + q.compareCount.toNat ≤ size
  data : T.nBytes q.compareCount * 2 ≤ q.data.length

/-- The ranges of an UNMAP, in bytes. -/
def ranges (T : Target β) (q : Pdu) : List (ℕ × ℕ) :=
  (Scsi.unmapDescriptors (q.data.drop 8)).map fun d =>
    (d.1.toNat * T.blockSize, d.2.toNat * T.blockSize)

/-- What a task asks of the disk, on a device of `size` blocks and in a session
with segments of `seg` bytes. -/
inductive Asks (T : Target β) (seg : UInt32) (size : ℕ) :
    Task → Disk.Request UInt8 → Prop
  | store {x : Task} {payload : Bytes} (h : x.IsStore T size payload) :
    Asks T seg size x (.store (x.command.lba.toNat * T.blockSize) payload)
  | load {q : Pdu} {len : ℕ} (h : IsLoad T seg size q len) :
    Asks T seg size ⟨q, fun _ => []⟩ (.load (q.bhs.getCdb.range.1.toNat * T.blockSize) len)
  | clear {q : Pdu} (h : IsClear T size q) :
    Asks T seg size ⟨q, fun _ => []⟩ (.clear (ranges T q))
  | swap {q : Pdu} (h : IsSwap T size q) :
    Asks T seg size ⟨q, fun _ => []⟩
      (.swap (q.compareLba.toNat * T.blockSize) (q.compared T) (q.replacement T))
  /-- A quiet PDU that is neither a login nor a command that streams. -/
  | rest {q : Pdu} (h : q.Quiet) (h_login : q.bhs.getOpcode ≠ .loginReq)
    (h_read : q.bhs.getOpcode = .scsiCmd → q.bhs.getCdb.opcode ≠ .read6 ∧
      q.bhs.getCdb.opcode ≠ .read10 ∧ q.bhs.getCdb.opcode ≠ .read12 ∧
      q.bhs.getCdb.opcode ≠ .read16) :
    Asks T seg size ⟨q, fun _ => []⟩ .rest

/-! ### What the initiator sees -/

/-- All calls and sends of the task have succeeded. A COMPARE AND WRITE has been
answered with GOOD or with MISCOMPARE. -/
def Undisturbed (T : Target β) (q : Pdu) (es : List Event) : Prop :=
  (q.bhs.getCdb.opcode ≠ .compareAndWrite → ∀ e ∈ es, e.Succeeds) ∧
    (q.bhs.getCdb.opcode = .compareAndWrite → .sent (statusPdu T q [] none) true ∈ es ∨
      .sent (statusPdu T q errorMiscompare none) true ∈ es)

instance (T : Target β) (q : Pdu) (es : List Event) : Decidable (Undisturbed T q es) := by
  unfold Undisturbed
  infer_instance

/-- The answer, in what has been sent to the initiator. A READ shows the
payloads of its Data-Ins one after the other, and everything else shows a
status. -/
def Shows (T : Target β) (q : Pdu) (es : List Event) : Disk.Answer UInt8 → Prop
  | .stored => ∃ p ok, .sent (.scsiResponse p) ok ∈ es ∧ p.status = 0
  | .loaded d => dataIns es = d
  | .cleared => ∃ ok, .sent (statusPdu T q [] none) ok ∈ es
  | .swapped true => ∃ ok, .sent (statusPdu T q [] none) ok ∈ es
  | .swapped false => ∃ ok, .sent (statusPdu T q errorMiscompare none) ok ∈ es
  | .rested => True

end Task

/-- The connection between two tasks. Nobody else has the reservation, no R2T
session is open, and the segment length is the one the READs reckon with. -/
structure Idle (T : Target β) (seg : UInt32) (size : ℕ) (c : Conn β) : Prop where
  maxSegLen : c.ses.maxSegLen = seg
  size_eq : c.scsi.size T = size
  unlocked : c.scsi.lockingStatus T ≠ .lockedOther
  table : ∀ t, c.ses.getR2tSesion t = none

end IscsiTarget
