import IscsiTarget.Model.Header

/-!
# PDUs

`Pdu` is what `receive_pdu` builds from the wire: the header as it came, the
additional header segments and the data segment. `PduOut` is what the target
sends: one constructor for each class that is ever handed to
`com_client::send`, with the fields its `set` fills in. A field no `set` writes
stays zero in the source and is left out here.
-/

namespace IscsiTarget

/-- A PDU of the initiator (`iscsi_pdu_bhs` and the classes derived from it).
The source keeps `data.first` null exactly while `data.second` is zero, so the
list is empty exactly when there is no data segment; it is never longer than the
24-bit length field can say. -/
structure Pdu where
  bhs : Header
  ahsList : List Bytes := []
  data : Bytes := []
  data_lt : data.length < 2 ^ 24 := by decide
  deriving DecidableEq, Repr

theorem Pdu.nil_lt : ([] : Bytes).length < 2 ^ 24 := by decide

/-- `iscsi_pdu_bhs::get` and its overrides, as far as `generate_reject_pdu`
reads the result: the first blob starts with the header. A Data-Out has an
override of its own that returns no blob at all. -/
def Pdu.get (q : Pdu) : Option Header :=
  match q.bhs.getOpcode with
  | .scsiDataOut => none
  | _ => some q.bhs

/-- `residual`, with the count that goes with it. -/
inductive Residual
  | overflow
  | underflow
  deriving DecidableEq, Repr

/-- The three sequence numbers every answer carries. They are what an initiator
orders commands and answers by. -/
structure Numbers where
  statSN : UInt32
  expCmdSN : UInt32
  maxCmdSN : UInt32
  deriving DecidableEq, Repr

/-- `__pdu_response__`: a SCSI Response. -/
structure ScsiResponsePdu where
  overflow : Bool := false
  underflow : Bool := false
  response : UInt8 := 0
  status : UInt8 := 0
  itasktag : UInt32
  numbers : Numbers
  expDataSN : UInt32 := 0
  residualCt : UInt32 := 0
  /-- The data segment: the length of the sense data and the sense data. -/
  data : Bytes := []
  deriving DecidableEq, Repr

/-- `__pdu_data_in__`: a Data-In with its payload. -/
structure DataInPdu where
  final : Bool
  statusBit : Bool
  overflow : Bool := false
  underflow : Bool := false
  /-- The 24-bit length field of the header. -/
  dataSegmentLength : ℕ
  lun : Bytes
  itasktag : UInt32
  numbers : Numbers
  dataSN : UInt32
  bufferoff : UInt32
  residualCt : UInt32 := 0
  payload : Bytes
  deriving DecidableEq, Repr

/-- `__pdu_scsi_r2t__`: the request for data, with the place in the buffer of
the command and the number of bytes that are wanted. -/
structure R2tPdu where
  lun : Bytes
  itasktag : UInt32
  ttt : UInt32
  numbers : Numbers
  bufferoff : UInt32
  ddtf : UInt32
  deriving DecidableEq, Repr

/-- `__nop_in__`, the answer to a ping. Both tags and the data come from the
NOP-Out. -/
structure NopInPdu where
  lun : Bytes
  itasktag : UInt32
  ttt : UInt32
  numbers : Numbers
  data : Bytes
  deriving DecidableEq, Repr

/-- `__login_reply__`. -/
structure LoginReplyPdu where
  csg : UInt8
  nsg : UInt8
  version : UInt8
  isid : Bytes
  tsih : UInt16
  itasktag : UInt32
  numbers : Numbers
  data : Bytes
  deriving DecidableEq, Repr

/-- `__text_reply__`. -/
structure TextReplyPdu where
  lun : Bytes
  ttt : UInt32
  itasktag : UInt32
  numbers : Numbers
  data : Bytes
  deriving DecidableEq, Repr

/-- `__logout_reply__` and `__taskman_reply__`, which are filled in alike. -/
structure ShortReplyPdu where
  itasktag : UInt32
  numbers : Numbers
  deriving DecidableEq, Repr

/-- `__reject__`. -/
structure RejectPdu where
  reason : UInt8
  problemPdu : Header
  deriving DecidableEq, Repr

/-- A PDU of the target. Each class has its own fields, and `Frame` says how
they lie in memory. -/
inductive PduOut
  | scsiResponse (p : ScsiResponsePdu)
  | dataIn (p : DataInPdu)
  | r2t (p : R2tPdu)
  | nopIn (p : NopInPdu)
  | loginReply (p : LoginReplyPdu)
  | textReply (p : TextReplyPdu)
  | logoutReply (p : ShortReplyPdu)
  | taskmanReply (p : ShortReplyPdu)
  | reject (p : RejectPdu)
  deriving DecidableEq, Repr

end IscsiTarget
