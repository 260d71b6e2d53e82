import IscsiTarget.Model.Pdu

/-!
# Sessions

One `session` object lives as long as its connection. What the rest of the code
reads back from it is here: the negotiated segment length and digests, the
DataSN counter, and the table of R2T sessions, the WRITE tasks that still wait
for Data-Out PDUs.
-/

namespace IscsiTarget

/-- `r2t_session`: where the data of a command goes, how much of it is missing,
and the header of the command it belongs to. -/
structure R2tSession where
  bufferLba : UInt64 := 0
  bytesLeft : UInt32 := 0
  bytesDone : UInt32 := 0
  pduInitiator : Header := Vector.replicate 48 0
  isWriteSame : Bool := false
  writeSameIsUnmap : Bool := false
  fua : Bool := false
  deriving DecidableEq, Repr

/-- `session`, without the statistics. The map of R2T sessions is a function
that is `none` where there is no entry. -/
structure Session where
  dataSnItt : UInt32 := 0
  dataSn : UInt32 := 0
  maxSegLen : UInt32
  allowDigest : Bool
  headerDigest : Bool := false
  dataDigest : Bool := false
  ackInterval : Option UInt32 := none
  r2tSessions : UInt32 → Option R2tSession := fun _ => none

namespace Session

variable (ses : Session)

def getHeaderDigest : Bool := ses.headerDigest && ses.allowDigest

def getDataDigest : Bool := ses.dataDigest && ses.allowDigest

/-- `get_inc_datasn`: the DataSN for the next Data-In of this tag, and the
session after handing it out. -/
def getIncDatasn (itt : UInt32) : UInt32 × Session :=
  if itt = ses.dataSnItt then (ses.dataSn, { ses with dataSn := ses.dataSn + 1 })
  else (0, { ses with dataSnItt := itt, dataSn := 1 })

/-- `init_r2t_session`: an entry that is there already is kept, whatever command
it was made for. -/
def initR2tSession (rs : R2tSession) (fua : Bool) (pdu : Header) (transferTag : UInt32) :
    Session :=
  match ses.r2tSessions transferTag with
  | some _ => ses
  | none =>
    { ses with
      r2tSessions := Function.update ses.r2tSessions transferTag
        (some { rs with fua := fua, pduInitiator := pdu }) }

/-- `get_r2t_sesion`. -/
def getR2tSesion (ttt : UInt32) : Option R2tSession := ses.r2tSessions ttt

/-- The assignments `push_response` makes through the pointer it was given. -/
def setR2tSession (ttt : UInt32) (rs : R2tSession) : Session :=
  { ses with r2tSessions := Function.update ses.r2tSessions ttt (some rs) }

/-- `remove_r2t_session`. -/
def removeR2tSession (ttt : UInt32) : Session :=
  { ses with r2tSessions := Function.update ses.r2tSessions ttt none }

/-! ### What the table operations do to a lookup -/

@[simp] theorem getR2tSesion_setR2tSession (ttt : UInt32) (rs : R2tSession) :
    (ses.setR2tSession ttt rs).getR2tSesion ttt = some rs := by
  simp [setR2tSession, getR2tSesion]

theorem getR2tSesion_setR2tSession_of_ne {ttt t : UInt32} (h : t ≠ ttt) (rs : R2tSession) :
    (ses.setR2tSession ttt rs).getR2tSesion t = ses.getR2tSesion t := by
  simp [setR2tSession, getR2tSesion, h]

@[simp] theorem getR2tSesion_removeR2tSession (ttt : UInt32) :
    (ses.removeR2tSession ttt).getR2tSesion ttt = none := by
  simp [removeR2tSession, getR2tSesion]

theorem getR2tSesion_removeR2tSession_of_ne {ttt t : UInt32} (h : t ≠ ttt) :
    (ses.removeR2tSession ttt).getR2tSesion t = ses.getR2tSesion t := by
  simp [removeR2tSession, getR2tSesion, h]

/-- A fresh tag gets the new entry. -/
theorem getR2tSesion_initR2tSession_of_none {rs : R2tSession} {fua : Bool} {pdu : Header}
    {ttt : UInt32} (h : ses.getR2tSesion ttt = none) :
    (ses.initR2tSession rs fua pdu ttt).getR2tSesion ttt =
      some { rs with fua := fua, pduInitiator := pdu } := by
  rw [getR2tSesion] at h
  simp [initR2tSession, h, getR2tSesion]

/-- A tag in use keeps the entry it has. -/
theorem getR2tSesion_initR2tSession_of_some {rs old : R2tSession} {fua : Bool} {pdu : Header}
    {ttt : UInt32} (h : ses.getR2tSesion ttt = some old) :
    (ses.initR2tSession rs fua pdu ttt).getR2tSesion ttt = some old := by
  rw [getR2tSesion] at h
  simp [initR2tSession, h, getR2tSesion]

end Session

end IscsiTarget
