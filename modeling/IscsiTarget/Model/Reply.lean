import IscsiTarget.Model.ScsiCommands

/-!
# Answers to PDUs

What `get_response` of each PDU class builds: a response set of PDU objects, and
for a READ the place on the medium to stream from. A PDU object is turned into
PDUs on the wire by its `get`, which `push_response` calls later; only a Data-In
object becomes more or fewer than one PDU, and only there does `get` touch the
session (it hands out DataSNs).
-/

namespace IscsiTarget

/-- What a connection works on: `scsi`, shared with the other connections, and
its own session. -/
structure Conn (β : Type) where
  scsi : Scsi β
  ses : Session

/-- A PDU object in a response set, after its `set`. A Data-In object may become
several PDUs, and every other one becomes one. -/
inductive Reply
  | scsiResponse (p : ScsiResponsePdu)
  /-- `iscsi_pdu_scsi_data_in`, after `set`. -/
  | dataIn (replyTo : Header) (data : Bytes)
  | r2t (p : R2tPdu)
  | nopIn (p : NopInPdu)
  | loginReply (p : LoginReplyPdu)
  | textReply (p : TextReplyPdu)
  | logoutReply (p : ShortReplyPdu)
  | taskmanReply (p : ShortReplyPdu)
  deriving DecidableEq, Repr

/-- `iscsi_response_set`. -/
structure ResponseSet where
  responses : List Reply := []
  toStream : Option DataDescriptor := none
  deriving DecidableEq, Repr

variable {β : Type} (T : Target β)

/-- The sequence numbers of an answer to the PDU with this header. They are all
copied from it: the StatSN from its ExpStatSN, and the window from its CmdSN. -/
def numbersFor (replyTo : Header) : Numbers :=
  { statSN := replyTo.getExpStatSN
    expCmdSN := replyTo.getCmdSN + 1
    maxCmdSN := replyTo.getCmdSN + T.build.maxMsgDepth }

/-! ### SCSI Response and R2T -/

/-- `iscsi_pdu_scsi_response::set`. With sense data the status is CHECK
CONDITION unless another one is given, and else it is GOOD. -/
def ScsiResponsePdu.set (replyTo : Header) (senseData : Bytes)
    (hasResidual : Option (Residual × UInt32)) (iscsiStatus : Option UInt8) : ScsiResponsePdu :=
  { overflow := hasResidual.any (·.1 == .overflow)
    underflow := hasResidual.any (·.1 == .underflow)
    response := if senseData = [] then 0 else 0x01
    status := if senseData = [] then 0 else iscsiStatus.getD 0x02
    itasktag := replyTo.getItasktag
    numbers := numbersFor T replyTo
    residualCt := (hasResidual.map (·.2)).getD 0
    data := if senseData = [] then [] else be16 senseData.length ++ senseData }

/-- `iscsi_pdu_scsi_r2t::set`. It answers the command, or the Data-Out that
ended a burst, with the tag the data is to come under. -/
def R2tPdu.set (replyTo : Header) (ttt bufferOffset dataLength : UInt32) : R2tPdu :=
  { lun := replyTo.getLun
    itasktag := replyTo.getItasktag
    ttt := ttt
    numbers := numbersFor T replyTo
    bufferoff := bufferOffset
    ddtf := dataLength }

/-! ### Data-In -/

/-- The loop of `iscsi_pdu_scsi_data_in::get`, with `turns` blocks of the
`nToDo` to go: one Data-In for every block of the answer, with a DataSN of the
session. -/
def dataInGetLoop (replyTo : Header) (data : Bytes) (usePduDataSize nToDo : ℕ) :
    ℕ → ℕ → Session → List DataInPdu × Session
  | 0, _, ses => ([], ses)
  | turns + 1, count, ses =>
    let i := count * T.blockSize
    if i < usePduDataSize then
      let lastBlock := count + 1 == nToDo
      let curLen := min (usePduDataSize - i) T.blockSize
      let (dataSN, ses') := ses.getIncDatasn replyTo.getItasktag
      let p : DataInPdu :=
        { final := lastBlock
          statusBit := lastBlock
          -- `has_residual`, of the last Data-In
          underflow := lastBlock && decide (data.length < replyTo.getExpDatLen.toNat)
          overflow := lastBlock && decide (data.length > replyTo.getExpDatLen.toNat)
          dataSegmentLength := curLen % 2 ^ 24
          lun := replyTo.getLun
          itasktag := replyTo.getItasktag
          numbers := numbersFor T replyTo
          dataSN := dataSN
          bufferoff := UInt32.ofNat i
          -- this replaces the residual that was computed before
          residualCt := UInt32.ofNat (usePduDataSize - i)
          payload := (data.drop i).take curLen }
      let (rest, ses'') := dataInGetLoop replyTo data usePduDataSize nToDo turns (count + 1) ses'
      (p :: rest, ses'')
    else ([], ses)

/-- `iscsi_pdu_scsi_data_in::get`. -/
def dataInGet (replyTo : Header) (data : Bytes) (ses : Session) : List DataInPdu × Session :=
  let usePduDataSize := min data.length replyTo.getExpDatLen.toNat
  let nToDo := (usePduDataSize + T.blockSize - 1) / T.blockSize
  dataInGetLoop T replyTo data usePduDataSize nToDo nToDo 0 ses

/-- `gen_data_in_pdu`, with the payload the caller fills in afterwards. It says
whether it is the last one and what the residual is as it is told, and cuts the
length down to 24 bits. -/
def genDataInPdu (ses : Session) (replyTo : Header) (hasResidual : Option (Residual × UInt32))
    (offsetInData dataIsNBytes : UInt32) (isLastBlock : Bool) (payload : Bytes) :
    DataInPdu × Session :=
  let (dataSN, ses') := ses.getIncDatasn replyTo.getItasktag
  ({ final := isLastBlock
     statusBit := isLastBlock
     overflow := hasResidual.any (·.1 == .overflow)
     underflow := hasResidual.any (·.1 == .underflow)
     dataSegmentLength := dataIsNBytes.toNat % 2 ^ 24
     lun := replyTo.getLun
     itasktag := replyTo.getItasktag
     numbers := numbersFor T replyTo
     dataSN := dataSN
     bufferoff := offsetInData
     residualCt := (hasResidual.map (·.2)).getD 0
     payload := payload }, ses')

/-- `get` of a PDU object. Only a Data-In asks the session for anything: a
DataSN for each of its PDUs. -/
def Reply.get (ses : Session) : Reply → List PduOut × Session
  | .scsiResponse p => ([.scsiResponse p], ses)
  | .dataIn replyTo data =>
    let (pdus, ses') := dataInGet T replyTo data ses
    (pdus.map .dataIn, ses')
  | .r2t p => ([.r2t p], ses)
  | .nopIn p => ([.nopIn p], ses)
  | .loginReply p => ([.loginReply p], ses)
  | .textReply p => ([.textReply p], ses)
  | .logoutReply p => ([.logoutReply p], ses)
  | .taskmanReply p => ([.taskmanReply p], ses)

/-! ### SCSI Command -/

/-- The tag of the data transfer `get_response` asks for, and whether it could
be chosen: the initiator's own tag, or a random one for the reserved tag. -/
def chooseTtt (history : List Event) (itt : UInt32) : UInt32 × Bool :=
  if itt ≠ 0xffffffff then (itt, true)
  else
    match T.random history 0 with
    | some v => (v, true)
    | none => (0, false)

/-- The residual of a command for which `iscsiExpected` bytes were announced and
`scsiExpected` bytes belong to it. -/
def residualOf (scsiExpected iscsiExpected : ℕ) : Option (Residual × UInt32) :=
  if scsiExpected < iscsiExpected then
    some (.underflow, UInt32.ofNat (iscsiExpected - scsiExpected))
  else if scsiExpected > iscsiExpected then
    some (.overflow, UInt32.ofNat (scsiExpected - iscsiExpected))
  else none

/-- The second PDU of the answer to a SCSI Command: a SCSI Response, an R2T, or
none. The last component is `ok`. An R2T opens its session; where the initiator
expects another amount of data than the command is about, a SCSI Response with
the residual is sent instead. -/
def statusReply (c : Conn β) (replyTo : Header) (reply : ScsiResponse) :
    Except Fault (Option Reply × Conn β × Bool) :=
  match reply.type with
  | .asIs | .emptySense =>
    -- an answer as it is has no status of its own without sense data
    if reply.senseData ≠ [] ∨ reply.type = .emptySense then
      let iscsiStatus : Option UInt8 :=
        if reply.senseData = errorReservationConflict1 then some 0x18 else none
      .ok (some (.scsiResponse (.set T replyTo reply.senseData none iscsiStatus)), c, true)
    else .ok (none, c, true)
  | .r2t =>
    match reply.amountOfDataExpected with
    -- `value()` of an optional that is not set
    | none => .error .badOptionalAccess
    | some scsiExpected =>
      let iscsiExpected := replyTo.getExpDatLen.toUInt64
      -- the two sides do not agree: no data is asked for
      if scsiExpected ≠ iscsiExpected then
        .ok (some (.scsiResponse
          (.set T replyTo [] (residualOf scsiExpected.toNat iscsiExpected.toNat) none)), c, true)
      else
        let (ttt, ok) := chooseTtt T c.scsi.history replyTo.getItasktag
        .ok (some (.r2t (.set T replyTo ttt reply.r2t.bytesDone reply.r2t.bytesLeft)),
          { c with ses := c.ses.initR2tSession reply.r2t reply.r2t.fua replyTo ttt }, ok)

/-- `iscsi_pdu_scsi_cmd::get_response`: inline data first, then the second PDU;
a place on the medium is streamed when there is no inline data. -/
def scsiCmdGetResponse (fuel : ℕ) (c : Conn β) (q : Pdu) :
    Except Fault (Option ResponseSet × Conn β) :=
  match c.scsi.send T fuel q.bhs.getLunNr q.bhs.getCdb q.data with
  | .error f => .error f
  | .ok (reply, scsi') =>
    match statusReply T { c with scsi := scsi' } q.bhs reply with
    | .error f => .error f
    -- the random number for the tag could not be had
    | .ok (_, c', false) => .ok (none, c')
    | .ok (second, c', true) =>
      .ok (some
        { responses := (reply.inlineData.map (Reply.dataIn q.bhs)).toList ++ second.toList
          toStream :=
            if reply.inlineData = none ∧ reply.location.nSectors > 0 then some reply.location
            else none }, c')

/-- `iscsi_pdu_scsi_cmd::get_response` after one or more Data-Out PDUs; the
status it is given is not used. -/
def scsiCmdGetResponseAfterData (replyTo : Header) : ResponseSet :=
  { responses := [.scsiResponse (.set T replyTo [] none none)] }

/-! ### The other classes -/

/-- `text_array_to_data`. -/
def textArrayToData (kvs : List Bytes) : Bytes := kvs.flatMap (· ++ [0])

/-- `std::to_string`, and `%d`, of a number that is not negative. -/
def decimalDigits (n : ℕ) : Bytes := ascii (toString n)

/-- The text parameters of a login reply: those of the security stage, or those
of the operational one with the digests that are in force. -/
def loginReplyKvs (ses : Session) (nsg : UInt8) : List Bytes :=
  -- the next stage is the operational one, whose parameters come then
  if nsg = 1 then
    [ascii "TargetPortalGroupTag=1", ascii "AuthMethod=None", ascii "ErrorRecoveryLevel=0"]
  else
    let maximum := decimalDigits T.build.maxDataSegmentSize
    [if ses.getHeaderDigest then ascii "HeaderDigest=CRC32C" else ascii "HeaderDigest=None",
      if ses.getDataDigest then ascii "DataDigest=CRC32C" else ascii "DataDigest=None",
      ascii "DefaultTime2Wait=2",
      ascii "DefaultTime2Retain=20",
      ascii "InitialR2T=Yes",
      ascii "FirstBurstLength=" ++ maximum,
      ascii "MaxBurstLength=" ++ maximum,
      ascii "MaxRecvDataSegmentLength=" ++ maximum]

/-- The loop that draws a TSIH until it is not zero: `none` when the generator
fails. -/
def drawTsih (history : List Event) : ℕ → ℕ → Except Fault (Option UInt16)
  | 0, _ => .error .outOfFuel
  | fuel + 1, i =>
    match T.random history i with
    | none => .ok none
    | some v => if v.toUInt16 = 0 then drawTsih history fuel (i + 1) else .ok (some v.toUInt16)

/-- `iscsi_pdu_login_reply::set`. The session handle is drawn in the last stage;
when there is no random number, no reply is made. -/
def LoginReplyPdu.set (fuel : ℕ) (c : Conn β) (replyTo : Header) :
    Except Fault (Option LoginReplyPdu) :=
  let tsih := if replyTo.getNsg = 3 then drawTsih T c.scsi.history fuel 0 else .ok (some 0)
  tsih.map fun t => t.map fun t =>
    { csg := replyTo.getCsg
      nsg := replyTo.getNsg
      version := replyTo.getVersionmin
      isid := replyTo.getIsid
      tsih := t
      itasktag := replyTo.getItasktag
      numbers :=
        { statSN := if replyTo.getCsg = 0 then 0 else 1
          expCmdSN := replyTo.getCmdSN
          maxCmdSN := replyTo.getCmdSN + 1 }
      data := textArrayToData (loginReplyKvs T c.ses replyTo.getNsg) }

/-- `iscsi_pdu_nop_in::set`: the ping data comes back with the LUN and both tags
of the Nop-Out. -/
def NopInPdu.set (q : Pdu) : NopInPdu :=
  { lun := q.bhs.getLun
    itasktag := q.bhs.getItasktag
    ttt := q.bhs.getTtt
    numbers := numbersFor T q.bhs
    data := q.data }

/-- `iscsi_pdu_text_reply::set`. Every parameter has to have a value, and the
only one that is answered is `SendTargets=All`. -/
def TextReplyPdu.set (q : Pdu) : Option TextReplyPdu :=
  if q.data = [] then none
  else
    let kvs := (dataToTextArray q.data).map fun kv => split kv (ascii "=")
    if kvs.any fun parts => decide (parts.length < 2) then none
    else
      let sendTargets := kvs.any fun parts =>
        parts[0]? == some (ascii "SendTargets") && parts[1]? == some (ascii "All")
      some
        { lun := q.bhs.getLun
          ttt := q.bhs.getTtt
          itasktag := q.bhs.getItasktag
          numbers := numbersFor T q.bhs
          data :=
            if sendTargets then
              textArrayToData
                [ascii "TargetName=" ++ T.targetName,
                  ascii "TargetAddress=" ++ T.localAddress ++ ascii ",1"]
            else [] }

/-- `iscsi_pdu_logout_reply::set`. Its ExpCmdSN is the CmdSN it answers, and not
one more. -/
def logoutReplySet (replyTo : Header) : ShortReplyPdu :=
  { itasktag := replyTo.getItasktag
    numbers :=
      { statSN := replyTo.getExpStatSN
        expCmdSN := replyTo.getCmdSN
        maxCmdSN := replyTo.getCmdSN } }

/-- `iscsi_pdu_taskman_reply::set`. -/
def taskmanReplySet (replyTo : Header) : ShortReplyPdu :=
  { itasktag := replyTo.getItasktag
    numbers := numbersFor T replyTo }

/-- `iscsi_pdu_taskman_request::get_response`. The three reset functions give
the reservation back first. -/
def taskmanGetResponse (c : Conn β) (q : Pdu) : ResponseSet × Conn β :=
  let f := q.bhs.getTaskFunc
  -- logical unit, warm and cold reset
  let c' := if f = 5 ∨ f = 6 ∨ f = 7 then { c with scsi := (c.scsi.unlockDevice T).2 } else c
  ({ responses := [.taskmanReply (taskmanReplySet T q.bhs)] }, c')

/-- The virtual function `get_response`, by the class `receive_pdu` has chosen
for the opcode. A class without one of its own inherits that of `iscsi_pdu_bhs`,
which returns nothing (its `assert` is compiled out, the project builds with
`RelWithDebInfo`). -/
def getResponse (fuel : ℕ) (c : Conn β) (q : Pdu) : Except Fault (Option ResponseSet × Conn β) :=
  match q.bhs.getOpcode with
  | .scsiCmd => scsiCmdGetResponse T fuel c q
  | .loginReq =>
    (LoginReplyPdu.set T fuel c q.bhs).map fun r =>
      (r.map fun p => { responses := [.loginReply p] }, c)
  | .nopOut => .ok (some { responses := [.nopIn (.set T q)] }, c)
  | .textReq => .ok ((TextReplyPdu.set T q).map fun p => { responses := [.textReply p] }, c)
  | .logoutReq => .ok (some { responses := [.logoutReply (logoutReplySet q.bhs)] }, c)
  | .scsiTaskman =>
    let (r, c') := taskmanGetResponse T c q
    .ok (some r, c')
  | .scsiDataOut | .r2t | .other => .ok (none, c)

end IscsiTarget
