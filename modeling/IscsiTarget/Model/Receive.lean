import IscsiTarget.Model.Crc32c
import IscsiTarget.Model.Server

/-!
# Receiving PDUs

`receivePdu` reads one PDU off the connection, stage by stage: the header, the
additional header segments, the header digest, the data segment with its
padding, the data digest. A stage that fails notes so and lets the later ones
run. `Handler.iterate` is one turn of the connection handler around it.

A connection delivers the bytes the initiator sends and may end: `eof` is the
number of bytes it delivers before every `recv` fails.
-/

namespace IscsiTarget

/-! ### The connection -/

/-- A connection: what it delivers, where it ends, how much of it is read. -/
structure Link where
  bytes : ℕ → UInt8
  eof : Option ℕ := none
  pos : ℕ := 0

namespace Link

variable (l : Link)

/-- The connection still delivers `n` bytes. -/
def Delivers (n : ℕ) : Prop := ∀ e, l.eof = some e → l.pos + n ≤ e

instance (n : ℕ) : Decidable (l.Delivers n) :=
  match h : l.eof with
  | none => isTrue (by simp [Delivers, h])
  | some e => decidable_of_iff (l.pos + n ≤ e) (by simp [Delivers, h])

/-- `com_client::recv` of `n` bytes: all of them, or nothing. The bytes that
were there are gone when the connection ends before the last one. -/
def recv (n : ℕ) : Option Bytes × Link :=
  if l.Delivers n then
    (some ((List.range n).map fun i => l.bytes (l.pos + i)), { l with pos := l.pos + n })
  -- what is left of the connection is lost with it
  else (none, { l with pos := max l.pos (l.eof.getD 0) })

end Link

/-! ### Additional header segments -/

/-- `iscsi_pdu_ahs::set`, the bytes it keeps. -/
def ahsSet (input : Bytes) (n : ℕ) : Option Bytes :=
  if n < 3 then none
  else if (input.getD 0 0).toNat * 256 + (input.getD 1 0).toNat + 3 ≠ n then none
  else some (input.take n)

/-- `iscsi_pdu_ahs::get`: the header of the segment, and as many bytes as it
says. -/
def ahsGet (ahs : Bytes) : Bytes :=
  ahs.take (3 + ((ahs.getD 0 0).toNat * 256 + (ahs.getD 1 0).toNat))

/-- The loop of `set_ahs_segment`: as long as there is room for the header of a
segment, its length is read and the segment made. It returns whether the bytes
have been used up, and the segments so far. -/
def setAhsLoop (ahsIn : Bytes) : ℕ → ℕ → List Bytes → Except Fault (Bool × List Bytes)
  -- `offset` is never moved, so a segment that is skipped is looked at again
  | 0, _, _ => .error .outOfFuel
  | fuel + 1, offset, ahsList =>
    if offset + 3 < ahsIn.length then
      let ahsLength := (ahsIn.getD offset 0).toNat * 256 + (ahsIn.getD (offset + 1) 0).toNat
      if offset + 3 + ahsLength > ahsIn.length then .ok (offset == ahsIn.length, ahsList)
      else if ahsLength > 0 then
        -- `set` is given the length of the content, and expects that of the segment
        match ahsSet (ahsIn.drop offset) ahsLength with
        | none => .ok (offset == ahsIn.length, ahsList)
        | some instance' => setAhsLoop ahsIn fuel offset (ahsList ++ [instance'])
      else setAhsLoop ahsIn fuel offset ahsList
    else .ok (offset == ahsIn.length, ahsList)

/-- `set_ahs_segment`. -/
def Pdu.setAhsSegment (fuel : ℕ) (q : Pdu) (ahsIn : Bytes) : Except Fault (Bool × Pdu) :=
  (setAhsLoop ahsIn fuel 0 q.ahsList).map fun r => (r.1, { q with ahsList := r.2 })

/-! ### Data segments -/

/-- The variables of the loop over the parameters of a login. -/
structure LoginParams where
  maxBurst : UInt32
  maxSegLen : UInt32
  ses : Session

/-- `std::min(v, uint32_t(std::stoi(value)))`. A negative number becomes a large
one, and what is no number is an exception. -/
def minStoi (v : UInt32) (value : Bytes) : Except Fault UInt32 :=
  match stoi value with
  | .ok i => .ok (min v (intToUint32 i))
  -- nothing catches what `std::stoi` throws
  | .error _ => .error .uncaught

/-- One parameter of a login, a key and a value with `=` between them. Keys the
target does not know are passed over. -/
def loginParam (p : LoginParams) (kv : Bytes) : Except Fault LoginParams :=
  match split kv (ascii "=") with
  | key :: value :: _ =>
    if key = ascii "MaxBurstLength" then
      (minStoi p.maxBurst value).map fun v => { p with maxBurst := v }
    -- both go into `max_burst`
    else if key = ascii "FirstBurstLength" then
      (minStoi p.maxBurst value).map fun v => { p with maxBurst := v }
    else if key = ascii "MaxRecvDataSegmentLength" then
      (minStoi p.maxSegLen value).map fun v => { p with maxSegLen := v }
    else if key = ascii "HeaderDigest" then
      .ok { p with ses := { p.ses with headerDigest := hasCRC32C value } }
    else if key = ascii "DataDigest" then
      .ok { p with ses := { p.ses with dataDigest := hasCRC32C value } }
    else .ok p
  | _ => .ok p

/-- The loop over the parameters of a login. -/
def loginParams : List Bytes → LoginParams → Except Fault LoginParams
  | [], p => .ok p
  | kv :: kvs, p =>
    match loginParam p kv with
    | .ok p' => loginParams kvs p'
    | .error f => .error f

/-- What `iscsi_pdu_login_request::set_data` does to the session. The digests
are set on the way, the segment length and the interval at the end. -/
def loginSetData (ses : Session) (data : Bytes) : Except Fault Session :=
  match loginParams (dataToTextArray data)
      { maxBurst := 0xffffffff, maxSegLen := ses.maxSegLen, ses := ses } with
  | .error f => .error f
  | .ok p =>
    .ok { p.ses with
      maxSegLen := p.maxSegLen
      ackInterval := if p.maxBurst < 0xffffffff then some p.maxBurst else p.ses.ackInterval }

/-- `iscsi_pdu_login_request::set_data`: what it returns, and the session after
it. A data segment without bytes, or with more than the length field can say, is
refused. -/
def loginRequestSetData (ses : Session) (data : Bytes) : Except Fault (Bool × Session) :=
  if data.length = 0 ∨ data.length > 16777215 then .ok (false, ses)
  else (loginSetData ses data).map fun ses' => (true, ses')

/-! ### The stages of `receive_pdu` -/

/-- The variables of `receive_pdu`: what is left of the connection, the session
that a login may change, the PDU as far as it is read, whether all has gone
well, and the checksum of the header that is continued over the additional
header segments. -/
structure Reception where
  link : Link
  ses : Session
  pdu : Pdu
  ok : Bool := true
  pduError : FailReason
  /-- `incoming_crc32c`. -/
  crc : UInt32 × UInt32

/-- `has_digest`. -/
def Pdu.hasDigest (q : Pdu) : Bool := q.bhs.getOpcode != .loginReq

namespace Reception

variable {β : Type} (T : Target β) (r : Reception)

/-- A `recv` failed. -/
def connectionLost (link : Link) : Reception :=
  { r with link := link, ok := false, pduError := .connection }

/-- The additional header segments. They are read as a whole, and it is not
asked whether `set_ahs_segment` could take them. -/
def readAhs (fuel : ℕ) : Except Fault Reception :=
  let ahsLen := r.pdu.bhs.getAhsLength
  if ahsLen ≠ 0 then
    match r.link.recv ahsLen with
    | (none, link) => .ok (r.connectionLost link)
    | (some ahsTemp, link) =>
      (r.pdu.setAhsSegment fuel ahsTemp).map fun res =>
        { r with link := link, pdu := res.2, crc := crc32c ahsTemp (some r.crc.2) }
  else .ok r

/-- A digest of four bytes, compared with the one computed from the data. With
`digest_chk` off it is read and does not matter. -/
def readDigest (crc : UInt32) : Reception :=
  match r.link.recv 4 with
  | (none, link) => r.connectionLost link
  | (some d, link) =>
    -- the four bytes are compared as a word in the order of the machine
    if nativeUint32 (d.getD 0 0) (d.getD 1 0) (d.getD 2 0) (d.getD 3 0) ≠ crc ∧
        T.digestChk = true then
      { r with link := link, ok := false, pduError := .digest }
    else { r with link := link }

/-- The header digest. -/
def readHeaderDigest : Reception :=
  if r.ses.getHeaderDigest ∧ r.pdu.hasDigest then r.readDigest T r.crc.1 else r

/-- The loop that is to skip a data segment that is too long. It reads 32 bytes
a turn and never changes `temp_len`, so it ends with the connection only; what
comes behind the segment is skipped too. -/
def drain (tempLen : ℕ) : ℕ → Link → Except Fault Link
  | 0, _ => .error .outOfFuel
  | fuel + 1, link =>
    match link.recv (min tempLen 32) with
    | (none, link') => .ok link'
    | (some _, link') => drain tempLen fuel link'

/-- `data_length` rounded up to a multiple of four. -/
def padded (n : ℕ) : ℕ := (n + 3) / 4 * 4

/-- `set_data`, by the class of the PDU. Only that of a login looks at the data,
and changes the session. -/
def setData (data : Bytes) (h : data.length < 2 ^ 24) : Except Fault Reception :=
  let r' := { r with pdu := { r.pdu with data := data, data_lt := h } }
  match r.pdu.bhs.getOpcode with
  | .loginReq => (loginSetData r.ses data).map fun ses => { r' with ses := ses }
  | _ => .ok r'

/-- What is kept of the padded data segment fits the length field. -/
theorem length_take_dataLength (h : Header) (b : Bytes) :
    (b.take h.getDataLength).length < 2 ^ 24 :=
  (List.length_take_le _ _).trans_lt h.getDataLength_lt

/-- The data digest. -/
def readDataDigest (crc : UInt32) : Reception :=
  if r.ses.getDataDigest ∧ r.pdu.hasDigest then r.readDigest T crc else r

/-- The data segment, with its padding and its digest. A segment above the limit
is drained and the connection given up. One that is empty has no digest either. -/
def readData (fuel : ℕ) : Except Fault Reception :=
  let dataLength := r.pdu.bhs.getDataLength
  -- more than fits in a segment: the data is to be skipped
  if dataLength > T.build.maxDataSegmentSize then
    match drain dataLength fuel r.link with
    | .error f => .error f
    | .ok link => .ok (r.connectionLost link)
  else if dataLength ≠ 0 then
    match r.link.recv (padded dataLength) with
    -- the digest is asked for all the same
    | (none, link) => .ok ((r.connectionLost link).readDataDigest T 0)
    | (some dataTemp, link) =>
      -- the checksum is that of the padded data
      let crc := if T.digestChk then (crc32c dataTemp none).1 else 0
      match ({ r with link := link }).setData (dataTemp.take dataLength)
          (length_take_dataLength _ _) with
      | .error f => .error f
      | .ok r' => .ok (r'.readDataDigest T crc)
  else .ok r

end Reception

/-- What `receive_pdu` returns, and what it leaves behind: the connection is
further on, and a login has changed the session. -/
structure Received where
  pdu : Option Pdu
  failReason : FailReason
  link : Link
  ses : Session

/-- The variables once the header is there. The checksum has begun with it, and
an opcode without a class is noted as an error. -/
def firstReception (link : Link) (ses : Session) (bhs : Header) : Reception :=
  { link := link
    ses := ses
    pdu := { bhs := bhs, data_lt := Pdu.nil_lt }
    pduError := if bhs.getOpcode = .other then .invalidCommand else .ok
    crc := crc32c bhs.toList none }

/-- The return statement: a PDU with which something is wrong is deleted, and
the reason is returned without it. -/
def Reception.received (r : Reception) : Received :=
  { pdu := if r.ok then some r.pdu else none
    failReason := r.pduError
    link := r.link
    ses := r.ses }

/-- The header of the 48 bytes that were read. -/
def Header.ofBytes (b : Bytes) : Header := Vector.ofFn fun i => b.getD i.val 0

variable {β : Type} (T : Target β)

/-- `receive_pdu` once the header is there. -/
def receiveBody (fuel : ℕ) (link : Link) (ses : Session) (bhs : Header) :
    Except Fault Received :=
  ((firstReception link ses bhs).readAhs fuel).bind fun r =>
    ((r.readHeaderDigest T).readData T fuel).map Reception.received

/-- `receive_pdu`. The 48 bytes of the header decide which class the PDU gets,
and how much is to be read after it; a connection that does not deliver as much
is lost. -/
def receivePdu (fuel : ℕ) (link : Link) (ses : Session) : Except Fault Received :=
  match link.recv 48 with
  | (none, link) => .ok { pdu := none, failReason := .connection, link := link, ses := ses }
  | (some pdu, link) => receiveBody T fuel link ses (Header.ofBytes pdu)

/-- The session `receive_pdu` makes for a new connection. -/
def newSession : Session :=
  { maxSegLen := UInt32.ofNat T.build.maxDataSegmentSize, allowDigest := T.digestChk }

/-! ### The connection handler -/

/-- The variables of the loop of `handler`: the connection, the session, the
count of failures in a row, and the flag that keeps it going. -/
structure Handler (β : Type) where
  link : Link
  conn : Conn β
  failCounter : ℕ := 0
  ok : Bool := true

/-- What `receive_pdu` delivered goes to `push_response` when nothing is wrong
with it. -/
def pushReceived (fuel : ℕ) (c : Conn β) (pdu : Option Pdu) (ifr : FailReason) :
    Except Fault (FailReason × Conn β) :=
  if ifr = .ok then
    match pdu with
    | some q => pushResponse T fuel c q
    | none => .error .outOfBounds
  else .ok (ifr, c)

/-- One turn of the loop of `handler`: a PDU is received and answered, and a
failure is told to the initiator. A `continue` leaves the count as it is. -/
def Handler.iterate (fuel : ℕ) (h : Handler β) : Except Fault (Handler β) :=
  match receivePdu T fuel h.link h.conn.ses with
  | .error f => .error f
  | .ok incoming =>
    match pushReceived T fuel { h.conn with ses := incoming.ses } incoming.pdu
        incoming.failReason with
    | .error f => .error f
    | .ok (ifr, c) =>
      match replyToFailure T c incoming.pdu ifr with
      | .error f => .error f
      | .ok (.skipped, c') => .ok { h with link := incoming.link, conn := c' }
      | .ok (reply, c') =>
        let failCounter := if ifr = .ok then 0 else h.failCounter + 1
        .ok
          { link := incoming.link
            conn := c'
            failCounter := failCounter
            ok := reply != .sent false && decide (failCounter < 16) && ifr != .connection }

/-- The loop of `handler` goes on while `ok` is set. -/
def Handler.step (fuel : ℕ) (h : Handler β) (_ : Unit) : Except Fault (Handler β) :=
  if h.ok then h.iterate T fuel else .ok h

end IscsiTarget
