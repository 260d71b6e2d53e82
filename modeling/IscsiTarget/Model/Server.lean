import IscsiTarget.Model.Reply

/-!
# The server

`pushResponse` is the whole way from a PDU to the PDUs that answer it: the
Data-Out branch with its R2T sessions, the response sets of the other PDU
classes, and the loop that streams the data of a READ. `replyToFailure` is the
part of the connection handler that answers a PDU for which a failure was
reported, and `serve` is one PDU through both.

The streaming loop ends when the whole answer is sent, a read fails or a send
fails; `fuel` is the number of turns it is given.
-/

namespace IscsiTarget

/-- `iscsi_fail_reason`: what went wrong with a PDU, from its reception to the
sending of the last answer. -/
inductive FailReason
  | ok
  | connection
  | invalidField
  | digest
  | ioError
  | misc
  | invalidCommand
  deriving DecidableEq, Repr

variable {β : Type} (T : Target β)

/-! ### Sending -/

/-- `com_client::send` of one PDU. -/
def sendPdu (s : Scsi β) (p : PduOut) : Bool × Scsi β :=
  let ok := T.send s.history
  (ok, s.note (.sent p ok))

/-- The inner loop of `push_response` over the blobs of one PDU object: after a
send that fails nothing more is sent. -/
def emitPdus : List PduOut → FailReason → Scsi β → FailReason × Scsi β
  | [], ifr, s => (ifr, s)
  | p :: ps, ifr, s =>
    if ifr = .ok then
      let (sentOk, s') := sendPdu T s p
      emitPdus ps (if sentOk then .ok else .connection) s'
    -- the blobs that are left are only deleted
    else emitPdus ps ifr s

/-- The loop of `push_response` over the response set. Behind a send that has
failed nothing is sent, but the objects are still gone through. -/
def emitReplies : List Reply → FailReason → Conn β → FailReason × Conn β
  | [], ifr, c => (ifr, c)
  | r :: rs, ifr, c =>
    let (pdus, ses') := r.get T c.ses
    let (ifr', scsi') := emitPdus T pdus ifr c.scsi
    emitReplies rs ifr' { scsi := scsi', ses := ses' }

/-! ### Streaming -/

/-- `buffer_n`. -/
def bufferN (history : List Event) : ℕ :=
  -- `std::max(uint32_t(MAX_DATA_SEGMENT_SIZE), get_free_heap_space() / 2)`
  if T.build.arduino then max T.build.maxDataSegmentSize ((T.freeHeap history).toNat / 2)
  else T.build.maxDataSegmentSize

/-- What the streaming loop keeps from turn to turn, and what it was started
with: the header that is answered, the bytes the command is about, the bytes
that are expected and the size of the buffer. -/
structure StreamParams where
  replyTo : Header
  scsiHas : UInt32
  iscsiWants : UInt32
  bufferN : ℕ

/-- `offset_end`. -/
def StreamParams.offsetEnd (p : StreamParams) : UInt32 := min p.scsiHas p.iscsiWants

/-- `current_n` at a turn that starts at `offset`. -/
def StreamParams.currentN (p : StreamParams) (ses : Session) (offset : UInt32) : UInt32 :=
  UInt32.ofNat
    (min ses.maxSegLen.toNat (min (p.offsetEnd - offset).toNat p.bufferN))

/-- The data of one turn: a whole block is read for a part of one. -/
def streamRead (s : Scsi β) (currentLba : UInt64) (currentN : UInt32) :
    Except RwResult Bytes × Scsi β :=
  -- a part of a block is copied out of `temp_buffer`
  if currentN.toNat < T.blockSize then
    match s.read T currentLba 1 with
    | (.ok tempBuffer, s') => (.ok (tempBuffer.take currentN.toNat), s')
    | (.error rc, s') => (.error rc, s')
  else
    match s.read T currentLba (UInt32.ofNat (currentN.toNat / T.blockSize)) with
    -- what the whole blocks do not cover stays zero
    | (.ok data, s') => (.ok (poke 0 data (zeros currentN.toNat)), s')
    | (.error rc, s') => (.error rc, s')

/-- `while(offset < offset_end)`: one Data-In a turn, of a segment of the
session, the rest or a buffer, whichever is least. The loop is left in the
middle when a read or a send fails. Where `current_n` is zero a turn changes
nothing, and the fuel runs out. -/
def streamLoop (p : StreamParams) :
    ℕ → FailReason → UInt32 → UInt64 → Conn β → Except Fault (FailReason × Conn β)
  | 0, _, _, _, _ => .error .outOfFuel
  | fuel + 1, ifr, offset, currentLba, c =>
    if offset < p.offsetEnd then
      let currentN := p.currentN c.ses offset
      let isNBlocks := UInt32.ofNat (currentN.toNat / T.blockSize)
      let lastBlock := offset + currentN == p.offsetEnd
      let hasResidual :=
        if lastBlock then residualOf p.scsiHas.toNat p.iscsiWants.toNat else none
      -- `gen_data_in_pdu` has taken its DataSN before the read, whether that works or not
      match streamRead T c.scsi currentLba currentN with
      | (.error _, scsi') =>
        let (_, ses') := genDataInPdu T c.ses p.replyTo hasResidual offset currentN lastBlock []
        .ok (.ioError, { scsi := scsi', ses := ses' })
      | (.ok payload, scsi') =>
        let (pdu, ses') :=
          genDataInPdu T c.ses p.replyTo hasResidual offset currentN lastBlock payload
        match sendPdu T scsi' (.dataIn pdu) with
        -- `break`: the rest of the answer is not sent
        | (false, scsi'') => .ok (.connection, { scsi := scsi'', ses := ses' })
        | (true, scsi'') =>
          streamLoop p fuel ifr (offset + currentN) (currentLba + isNBlocks.toUInt64)
            { scsi := scsi'', ses := ses' }
    else .ok (ifr, c)

/-- The part of `push_response` that streams the data of a READ. With nothing to
send it makes one SCSI Response instead, which has the residual; else the loop
starts at the first block of the range. -/
def streamData (fuel : ℕ) (ifr : FailReason) (c : Conn β) (replyTo : Header)
    (streamParameters : DataDescriptor) : Except Fault (FailReason × Conn β) :=
  let p : StreamParams :=
    { replyTo := replyTo
      -- the product is taken in 32 bits
      scsiHas := UInt32.ofNat (T.nBytes streamParameters.nSectors)
      iscsiWants := replyTo.getExpDatLen
      bufferN := bufferN T c.scsi.history }
  -- nothing to send, or nothing expected
  if p.offsetEnd = 0 then
    match sendPdu T c.scsi (.scsiResponse
      (.set T replyTo [] (residualOf p.scsiHas.toNat p.iscsiWants.toNat) none)) with
    | (sentOk, scsi') => .ok (if sentOk then ifr else .connection, { c with scsi := scsi' })
  else streamLoop T p fuel ifr 0 streamParameters.lba c

/-! ### Data-Out -/

/-- The tag under which a Data-Out is looked up: its target transfer tag, or the
initiator's tag for data nobody asked for, whose transfer tag has all bits set. -/
def dataOutTag (bhs : Header) : UInt32 :=
  if bhs.getTtt = 0xffffffff then bhs.getItasktag else bhs.getTtt

/-- The write a Data-Out ends in. For a WRITE SAME the data is one block for all
the blocks that are left, or a trim of these; for a WRITE it goes to the address
of the session moved on by the offset of the Data-Out. -/
def writeDataOut (s : Scsi β) (session : R2tSession) (offset : UInt32) (data : Bytes) :
    RwResult × Scsi β :=
  let lba := session.bufferLba + UInt64.ofNat (offset.toNat / T.blockSize)
  if session.isWriteSame then
    -- all that is left, and not what the Data-Out holds
    let nBlocks := UInt32.ofNat (session.bytesLeft.toNat / T.blockSize)
    if session.writeSameIsUnmap then s.trim T session.bufferLba nBlocks
    else Scsi.writeSameBlocks T false data nBlocks.toNat lba s
  else s.write T lba (UInt32.ofNat (data.length / T.blockSize)) data

/-- The counters of an R2T session, moved on by `n` bytes. -/
def R2tSession.advance (session : R2tSession) (n : UInt32) : R2tSession :=
  { session with
    bytesDone := session.bytesDone + n
    bytesLeft := session.bytesLeft - n }

/-- The part of `push_response` that brings the data of a Data-Out to the
backend: the R2T session with its counters moved on, or the reason to give up.
`scsi::sync` returns an enumerator, and the code compares it with `false`. -/
def storeDataOut (s : Scsi β) (session : R2tSession) (offset : UInt32) (data : Bytes) :
    Except FailReason R2tSession × Scsi β :=
  if offset.toNat % T.blockSize ≠ 0 then (.error .invalidField, s)
  else if data.length % T.blockSize ≠ 0 then (.error .invalidField, s)
  else
    let written := writeDataOut T s session offset data
    if written.1 ≠ .ok then (.error .ioError, written.2)
    else if session.fua then
      let synced := written.2.sync T
      -- `s->sync(...) == false`, which is true of the enumerator for success
      if synced.1.eqFalse then (.error .ioError, synced.2)
      else (.ok (session.advance (UInt32.ofNat data.length)), synced.2)
    else (.ok (session.advance (UInt32.ofNat data.length)), written.2)

/-- The end of a burst: the answer to the command, and an R2T for what is still
missing. -/
def endOfBatch (c : Conn β) (session : R2tSession) (transferTag : UInt32) :
    ResponseSet × Conn β :=
  let response := scsiCmdGetResponseAfterData T session.pduInitiator
  -- the answer is made before it is known whether anything is missing
  if session.bytesLeft = 0 then (response, { c with ses := c.ses.removeR2tSession transferTag })
  else
    ({ response with
        responses := response.responses ++
          [.r2t (.set T session.pduInitiator transferTag session.bytesDone session.bytesLeft)] }, c)

/-- The Data-Out branch of `push_response`. There is an R2T session for the tag
or the Data-Out is an invalid field. Data is stored and counted, and a Data-Out
with F ends the burst; one that has neither data nor F is an invalid field as
well. -/
def handleDataOut (c : Conn β) (q : Pdu) : Except FailReason (Option ResponseSet) × Conn β :=
  let transferTag := dataOutTag q.bhs
  match c.ses.getR2tSesion transferTag with
  | none => (.error .invalidField, c)
  | some session =>
    if q.data ≠ [] then
      match storeDataOut T c.scsi session q.bhs.getBufferOffset q.data with
      | (.error ifr, scsi') => (.error ifr, { c with scsi := scsi' })
      | (.ok session', scsi') =>
        -- the counters are moved in the session itself, F or not
        let c' : Conn β := { scsi := scsi', ses := c.ses.setR2tSession transferTag session' }
        if q.bhs.getF then
          let (response, c'') := endOfBatch T c' session' transferTag
          (.ok (some response), c'')
        else (.ok none, c')
    else if q.bhs.getF then
      let (response, c') := endOfBatch T c session transferTag
      (.ok (some response), c')
    -- neither data nor F
    else (.error .invalidField, c)

/-! ### One PDU -/

/-- `push_response` once the response set is there: all of its PDUs are sent,
and then the data of a READ is streamed, also when a send has failed before. -/
def emitResponseSet (fuel : ℕ) (c : Conn β) (q : Pdu) (responseSet : ResponseSet) :
    Except Fault (FailReason × Conn β) :=
  let (ifr, c') := emitReplies T responseSet.responses .ok c
  match responseSet.toStream with
  | none => .ok (ifr, c')
  | some streamParameters => streamData T fuel ifr c' q.bhs streamParameters

/-- `push_response` after `get_response`: no response set means that there is
nothing to send. -/
def finishResponse (fuel : ℕ) (q : Pdu) :
    Option ResponseSet × Conn β → Except Fault (FailReason × Conn β)
  | (none, c) => .ok (.ok, c)
  | (some responseSet, c) => emitResponseSet T fuel c q responseSet

/-- `push_response`. -/
def pushResponse (fuel : ℕ) (c : Conn β) (q : Pdu) : Except Fault (FailReason × Conn β) :=
  let c : Conn β := { c with scsi := c.scsi.note (.received q) }
  if q.bhs.getOpcode = .scsiDataOut then
    match handleDataOut T c q with
    | (.error ifr, c') => .ok (ifr, c')
    | (.ok responseSet, c') => finishResponse T fuel q (responseSet, c')
  else
    match getResponse T fuel c q with
    | .error f => .error f
    | .ok r => finishResponse T fuel q r

/-! ### Failures -/

/-- `generate_reject_pdu`. -/
def generateRejectPdu (about : Pdu) (reason : Option UInt8) : Option PduOut :=
  about.get.map fun raw => .reject { reason := reason.getD 0x09, problemPdu := raw }

/-- The reason code the handler puts into a reject. An I/O error is answered
with a SCSI Response instead. -/
def FailReason.rejectReason : FailReason → Option UInt8
  | .invalidField => some 0x09
  | .misc => some 0x09
  | .digest => some 0x02
  | .invalidCommand => some 0x05
  | .ok => none
  | .connection => none
  | .ioError => none

/-- What the handler did about a failure. It decides whether the count of
failures is looked at in this turn. -/
inductive FailureReply
  /-- There was nothing to answer. -/
  | notNeeded
  /-- No reject can be made of the PDU: the handler goes on with the next one. -/
  | skipped
  | sent (ok : Bool)
  deriving DecidableEq, Repr

/-- The blob the handler has built when it reaches `reject.value()`: a reject or
a SCSI Response, none because of a `continue`, or an empty optional. -/
inductive RejectBlob
  | built (p : PduOut)
  | skipped
  | empty
  deriving DecidableEq, Repr

/-- The part of the handler that builds the reject. Without a PDU it builds
nothing, and goes on to the send all the same. -/
def buildReject (pdu : Option Pdu) (ifr : FailReason) : RejectBlob :=
  match pdu with
  | none => .empty
  | some q =>
    if ifr = .ioError then .built (.scsiResponse (.set T q.bhs errorReadError none (some 0x09)))
    else
      match generateRejectPdu q ifr.rejectReason with
      | some p => .built p
      | none => .skipped

/-- The part of the handler that answers a failed PDU. A lost connection is not
answered, since there is nobody to answer to. -/
def replyToFailure (c : Conn β) (pdu : Option Pdu) (ifr : FailReason) :
    Except Fault (FailureReply × Conn β) :=
  if ifr ≠ .ok ∧ ifr ≠ .connection then
    match buildReject T pdu ifr with
    | .empty => .error .badOptionalAccess
    | .skipped => .ok (.skipped, c)
    | .built p =>
      match sendPdu T c.scsi p with
      | (sentOk, scsi') => .ok (.sent sentOk, { c with scsi := scsi' })
  else .ok (.notNeeded, c)

/-- One PDU that `receive_pdu` has delivered, through `push_response` and the
error branch of the handler. -/
def serve (fuel : ℕ) (c : Conn β) (q : Pdu) : Except Fault (Conn β) :=
  match pushResponse T fuel c q with
  | .error f => .error f
  | .ok (ifr, c') => (replyToFailure T c' (some q) ifr).map (·.2)

end IscsiTarget
