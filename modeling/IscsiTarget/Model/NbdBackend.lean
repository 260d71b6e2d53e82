import IscsiTarget.Model.RangeLock
import IscsiTarget.Model.ScsiCommands

/-!
# The NBD backend

`backend_nbd` is a proxy: it sends every call to a server, over one connection that all
threads share. `invoke_nbd` sends the header of a request, for a write its payload, reads
the header of the reply, and for a read the data; when something goes wrong it closes the
connection and starts again.

The model follows the bytes. What the threads have sent and the server has not read yet is
`Wire.up`, what the server has answered and nobody has read yet is `Wire.down`. Every byte
carries a number that neither side can see: that of the request it belongs to. The server
reads requests in the order they arrive and answers each of them; that is the step of the
environment.
-/

namespace IscsiTarget

open LockedSections

/-! ### Messages -/

/-- A number, most significant byte first. -/
def beNat (bytes : Bytes) : ℕ := bytes.foldl (fun v b => v * 256 + b.toNat) 0

/-- `nbd_request`, without its magic number. The handle is zero in all requests
of the program. -/
structure NbdRequest where
  type : ℕ
  handle : ℕ := 0
  offset : ℕ
  length : ℕ
  deriving DecidableEq, Repr

/-- `NBD_CMD_READ`, and the other commands. -/
def nbdCmdRead : ℕ := 0
def nbdCmdWrite : ℕ := 1
def nbdCmdFlush : ℕ := 3
def nbdCmdTrim : ℕ := 4

def nbdRequestMagic : ℕ := 0x25609513

def nbdReplyMagic : ℕ := 0x67446698

/-- The bytes of a request header. -/
def NbdRequest.encode (r : NbdRequest) : Bytes :=
  be32 nbdRequestMagic ++ be32 r.type ++ be64 r.handle ++ be64 r.offset ++ be32 r.length

/-- A request header, as the server reads it: 28 bytes that begin with the magic
number, everything with the most significant byte first. -/
def NbdRequest.decode (bytes : Bytes) : Option NbdRequest :=
  if bytes.length = 28 ∧ beNat (bytes.take 4) = nbdRequestMagic then
    some
      { type := beNat ((bytes.drop 4).take 4)
        handle := beNat ((bytes.drop 8).take 8)
        offset := beNat ((bytes.drop 16).take 8)
        length := beNat ((bytes.drop 24).take 4) }
  else none

/-- The length of the payload behind a request header. -/
def NbdRequest.payloadLength (r : NbdRequest) : ℕ := if r.type = nbdCmdWrite then r.length else 0

/-- The reply to a request: its header and, for a read that works, the data. -/
def NbdRequest.reply (r : NbdRequest) (error : UInt32) (contents : Medium UInt8) : Bytes :=
  be32 nbdReplyMagic ++ be32 error.toNat ++ be64 r.handle ++
    if r.type = nbdCmdRead ∧ error = 0 then contents.slice r.offset r.length else []

/-! ### What is shared -/

/-- A byte, and the number of the request it belongs to. -/
abbrev Stamped : Type := UInt8 × ℕ

/-- The bytes of one request. -/
def stamp (id : ℕ) (bytes : Bytes) : List Stamped := bytes.map fun b => (b, id)

/-- The connection, with the bytes under way. -/
structure Wire where
  up : List Stamped := []
  down : List Stamped := []
  deriving DecidableEq, Repr

/-- What the threads share, and what is at the other end. The numbers of the
requests are not in the source; they tell whose bytes are on the way. -/
structure NbdShared where
  /-- What the server stores. -/
  contents : Medium UInt8
  /-- The connection behind `fd`, unless `fd` is -1. -/
  conn : Option Wire := none
  /-- The number of the next request. -/
  nextId : ℕ := 0
  /-- For every reply header that a thread has read: the thread's request, and
  the requests the bytes belong to. -/
  consumed : List (ℕ × List ℕ) := []

/-- How a step ends: a socket call works, or fails after moving some bytes; or
the server answers a request. -/
inductive NbdLabel
  | ok
  | fail (moved : ℕ)
  | serve (error : UInt32) (cleared : Bool)
  deriving DecidableEq, Repr

/-! ### Calls -/

/-- A virtual function of `backend_nbd`, with its arguments. For `read`,
`buffer` is what the caller's buffer holds. -/
inductive NbdSection
  | sync
  | write (blockNr : UInt64) (nBlocks : UInt32) (data : Bytes)
  | trim (blockNr : UInt64) (nBlocks : UInt32)
  | read (blockNr : UInt64) (nBlocks : UInt32) (buffer : Bytes)
  | cmpwrite (blockNr : UInt64) (nBlocks : UInt32) (dataWrite dataCompare : Bytes)
  deriving DecidableEq, Repr

/-- Where a thread is in the loop of `invoke_nbd`. Between two of them there is
one call that may block or fail. -/
inductive NbdStage
  /-- At the top: connect, or send the request header. -/
  | start
  | headerSent (id : ℕ)
  /-- Waiting for the reply header. -/
  | waiting (id : ℕ)
  /-- Waiting for the data of a read. -/
  | replied (id : ℕ)
  /-- At the condition of the loop. -/
  | check
  /-- Behind the loop. -/
  | leaving
  deriving DecidableEq, Repr

/-- How far a thread is with its function. -/
inductive NbdWork
  /-- In the `i`-th call of `invoke_nbd`. -/
  | invoke (i : ℕ) (buffer : Bytes) (stage : NbdStage)
  | done (ok : Bool) (buffer : Bytes)
  | compared (result : CmpwriteResult)
  deriving DecidableEq, Repr

/-- `backend_nbd::get_block_size`. -/
def nbdBlockSize : ℕ := 4096

namespace NbdSection

/-- The offset of a block, as `invoke_nbd` is given it. -/
def offset (blockNr : UInt64) : ℕ := (blockNr * UInt64.ofNat nbdBlockSize).toNat

/-- The number of bytes of a range, as `invoke_nbd` is given it: in 32 bits. -/
def nBytes (nBlocks : UInt32) : ℕ := nBlocks.toNat * nbdBlockSize % 2 ^ 32

/-- The request of the `i`-th call of `invoke_nbd`. `cmpwrite` reads its blocks
one by one, and writes them all at once in the last call. -/
def request : NbdSection → ℕ → NbdRequest
  | sync, _ => { type := nbdCmdFlush, offset := 0, length := 0 }
  | write blockNr nBlocks _, _ =>
    { type := nbdCmdWrite, offset := offset blockNr, length := nBytes nBlocks }
  | trim blockNr nBlocks, _ =>
    { type := nbdCmdTrim, offset := offset blockNr, length := nBytes nBlocks }
  | read blockNr nBlocks _, _ =>
    { type := nbdCmdRead, offset := offset blockNr, length := nBytes nBlocks }
  | cmpwrite blockNr nBlocks _ _, i =>
    if i < nBlocks.toNat then
      { type := nbdCmdRead, offset := offset (blockNr + UInt64.ofNat i), length := nbdBlockSize }
    else { type := nbdCmdWrite, offset := offset blockNr, length := nBytes nBlocks }

/-- The data of its write requests. -/
def payload : NbdSection → Bytes
  | write _ _ data => data
  | cmpwrite _ _ dataWrite _ => dataWrite
  | _ => []

/-- The beginning: a buffer, and the first call. -/
def start : NbdSection → NbdWork
  | read _ _ buffer => .invoke 0 buffer .start
  | cmpwrite _ _ _ _ => .invoke 0 (zeros nbdBlockSize) .start
  | _ => .invoke 0 [] .start

/-- What the function does when the `i`-th call of `invoke_nbd` returns. Only
`cmpwrite` goes on: with the next block, or with the write. -/
def returned (sec : NbdSection) (i : ℕ) (rc : Bool) (buffer : Bytes) : NbdWork :=
  match sec with
  | cmpwrite _ nBlocks _ dataCompare =>
    if i < nBlocks.toNat then
      if rc then
        if buffer = (dataCompare.drop (i * nbdBlockSize)).take nbdBlockSize then
          .invoke (i + 1) buffer .start
        else .compared .mismatch
      else .compared .readError
    else .compared (if rc then .ok else .writeError)
  | _ => .done rc buffer

end NbdSection

/-- `close(fd)`. -/
def NbdShared.close (s : NbdShared) : NbdShared := { s with conn := none }

/-- One step of `invoke_nbd`. A call on a closed socket can only fail. -/
def nbdAct (l : NbdLabel) (sec : NbdSection) (w : NbdWork) (s : NbdShared) :
    Option (NbdWork × NbdShared) :=
  match w with
  | .invoke i buffer stage =>
    let r := sec.request i
    match stage, l, s.conn with
    | .start, .ok, none => some (.invoke i buffer .start, { s with conn := some {} })
    | .start, .fail _, none => some (.invoke i buffer .start, s)
    | .start, .ok, some wire =>
      some (.invoke i buffer (if r.type = nbdCmdWrite then .headerSent s.nextId
          else .waiting s.nextId),
        { s with
          conn := some { wire with up := wire.up ++ stamp s.nextId r.encode }
          nextId := s.nextId + 1 })
    | .headerSent id, .ok, some wire =>
      some (.invoke i buffer (.waiting id),
        { s with
          conn := some { wire with up := wire.up ++ stamp id (sec.payload.take r.length) } })
    | .waiting id, .ok, some wire =>
      if 16 ≤ wire.down.length then
        let header := (wire.down.take 16).map Prod.fst
        let s' := { s with
          conn := some { wire with down := wire.down.drop 16 }
          consumed := s.consumed ++ [(id, (wire.down.take 16).map Prod.snd)] }
        if beNat (header.take 4) ≠ nbdReplyMagic then some (.invoke i buffer .check, s'.close)
        else if beNat ((header.drop 4).take 4) ≠ 0 then
          some (sec.returned i false buffer, s')
        else if r.type = nbdCmdRead then some (.invoke i buffer (.replied id), s')
        else some (.invoke i buffer .check, s')
      else none
    | .replied _, .ok, some wire =>
      if r.length ≤ wire.down.length then
        some (.invoke i ((wire.down.take r.length).map Prod.fst) .check,
          { s with conn := some { wire with down := wire.down.drop r.length } })
      else none
    | .check, .ok, none => some (.invoke i buffer .start, s)
    | .check, .ok, some _ => some (.invoke i buffer .leaving, s)
    | .leaving, .ok, conn => some (sec.returned i conn.isSome buffer, s)
    | .start, .fail _, some _ => some (.invoke i buffer .check, s.close)
    | .headerSent _, .fail _, _ => some (.invoke i buffer .check, s.close)
    | .waiting _, .fail _, _ => some (.invoke i buffer .check, s.close)
    | .replied _, .fail moved, conn =>
      -- a part of the data may have arrived
      let part := (((conn.getD {}).down.take (min moved r.length)).map Prod.fst)
      some (.invoke i (poke 0 part buffer) .check, s.close)
    | _, _, _ => none
  | _ => none

/-- The server answers the oldest request, when all of it is there. It may leave
a trimmed range as it is, and does nothing when it reports an error. -/
def nbdServe (l : NbdLabel) (s : NbdShared) : Option NbdShared :=
  match l, s.conn with
  | .serve error cleared, some wire =>
    match NbdRequest.decode ((wire.up.take 28).map Prod.fst) with
    | none => none
    | some r =>
      if wire.up.length < 28 + r.payloadLength then none
      else
        let payload := ((wire.up.drop 28).take r.payloadLength).map Prod.fst
        let contents :=
          if error ≠ 0 then s.contents
          else if r.type = nbdCmdWrite then s.contents.store r.offset payload
          else if r.type = nbdCmdTrim ∧ cleared then s.contents.clear r.offset r.length
          else s.contents
        let id := (wire.up.head?.map Prod.snd).getD 0
        some { s with
          contents := contents
          conn := some
            { up := wire.up.drop (28 + r.payloadLength)
              down := wire.down ++ stamp id (r.reply error contents) } }
  | _, _ => none

/-- The functions of `backend_nbd`, as threads call them. `sync` locks no range. -/
def nbdProgram (b : Build) :
    Program (Fin b.nBackendLocks) NbdSection NbdWork NbdShared NbdLabel where
  locks
    | .sync => ⟨[], .nil⟩
    | .write blockNr nBlocks _ => b.lockRange blockNr nBlocks
    | .trim blockNr nBlocks => b.lockRange blockNr nBlocks
    | .read blockNr nBlocks _ => b.lockRange blockNr nBlocks
    | .cmpwrite blockNr nBlocks _ _ => b.lockRange blockNr nBlocks
  start := NbdSection.start
  act := nbdAct
  finished
    | .invoke _ _ _ => false
    | _ => true
  goesOn _ := true
  env := nbdServe

end IscsiTarget
