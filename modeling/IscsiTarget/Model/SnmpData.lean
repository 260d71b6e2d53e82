import IscsiTarget.Model.SnmpElem

/-!
# The SNMP tree

`snmp_data` holds what the target answers SNMP requests with: a tree of
`snmp_data_type` nodes, each with the whole OID that leads to it as text. `register_oid`
adds a node, `find_by_oid` and `find_next_oid` look one up, and `init_snmp` registers what
the target offers.
-/

namespace IscsiTarget

/-- What the registered counters are read from. A reading is a number, and where
it comes from does not matter here. -/
inductive SnmpSource
  | ssnFailures
  | ssnDigestErrors
  | ssnFormatErrors
  | loginAccepts
  | logoutNormals
  | ssnCmdPDUs
  | ssnTxDataOctets
  | ssnRxDataOctets
  | ioWaitTicks
  | bytesRead
  | bytesWritten
  | nReads
  | nWrites
  | ramFreeKb
  | percentageDiskspace
  | cpuUsage
  | runningSince
  deriving DecidableEq, Repr

/-- What the sources hold while a reply is put together, as the `uint64_t` an
`snmp_integer` is made from. -/
abbrev SnmpReadings := SnmpSource → UInt64

/-- The classes derived from `snmp_data_type`: they differ in what `get_data`
returns. -/
inductive SnmpKind
  /-- `snmp_data_type` itself. -/
  | plain
  /-- `snmp_data_type_static` with a text. -/
  | staticText (content : Bytes)
  /-- `snmp_data_type_static` with a number. -/
  | staticInt (type : SnmpIntegerType) (content : UInt64)
  /-- `snmp_data_type_stats` and the classes like it. -/
  | stats (type : SnmpIntegerType) (source : SnmpSource)
  deriving DecidableEq, Repr

/-- `get_data`; `none` is the null pointer. A counter is read when it is asked
for, and the other kinds have their content with them. -/
def SnmpKind.getData (readings : SnmpReadings) : SnmpKind → Option SnmpElem
  | .plain => none
  | .staticText content => some (snmpOctetString content)
  | .staticInt type content => some (snmpInteger type content)
  | .stats type source => some (snmpInteger type (readings source))

/-- `snmp_data_type`: a node of the tree. -/
inductive SnmpDataType
  | node (oid : Bytes) (oidIdx : ℤ) (kind : SnmpKind) (children : List SnmpDataType)
  deriving Repr

namespace SnmpDataType

/-- `get_oid`. -/
def getOid : SnmpDataType → Bytes
  | node oid _ _ _ => oid

/-- `get_oid_idx`. -/
def getOidIdx : SnmpDataType → ℤ
  | node _ oidIdx _ _ => oidIdx

def kind : SnmpDataType → SnmpKind
  | node _ _ kind _ => kind

/-- `get_children`. -/
def getChildren : SnmpDataType → List SnmpDataType
  | node _ _ _ children => children

/-- A node with other children. -/
def setChildren : SnmpDataType → List SnmpDataType → SnmpDataType
  | node oid oidIdx kind _, children => node oid oidIdx kind children

/-- The index `set_tree_data` computes: the number after the last dot, 0 without
one. -/
def treeIdx (oid : Bytes) : ℤ :=
  match rfindChar 46 oid with
  | some dot => atoi (oid.drop (dot + 1))
  | none => 0

/-- A new node, after `set_tree_data`. -/
def setTreeData (kind : SnmpKind) (oid : Bytes) (children : List SnmpDataType) : SnmpDataType :=
  node oid (treeIdx oid) kind children

end SnmpDataType

open SnmpDataType

/-- `find_oid_in_vector`. -/
def findOidInVector (vec : List SnmpDataType) (oid : Bytes) : Option ℕ :=
  vec.findIdx? (fun n => n.getOid == oid)

/-- The OID of a node from that of its parent (`cur_oid`) and its own part. -/
def curOid (cur part : Bytes) : Bytes := (if cur = [] then [] else cur ++ [46]) ++ part

/-- Where `register_oid` puts a new node: before the first one with a larger
index. -/
def insertNode (e : SnmpDataType) : List SnmpDataType → List SnmpDataType
  | [] => [e]
  | n :: lut => if e.getOidIdx < n.getOidIdx then e :: n :: lut else n :: insertNode e lut

/-- The loop of `register_oid`, over the parts that are left. The node for the
last part gets the data, a node made on the way to it has none. -/
def registerLoop (e : SnmpKind) : List Bytes → Bytes → List SnmpDataType → List SnmpDataType
  | [], _, lut => lut
  | part :: parts, cur, lut =>
    let cur := curOid cur part
    match findOidInVector lut cur with
    | none =>
      let kind := if parts = [] then e else .plain
      insertNode (setTreeData kind cur (registerLoop e parts cur [])) lut
    | some idx =>
      lut.modify idx fun n => n.setChildren (registerLoop e parts cur n.getChildren)

/-- `snmp_data`: the top level of the tree. -/
structure SnmpData where
  data : List SnmpDataType := []
  deriving Repr

namespace SnmpData

/-- `register_oid`. -/
def registerOid (sd : SnmpData) (oid : Bytes) (e : SnmpKind) : SnmpData :=
  ⟨registerLoop e (split oid (ascii ".")) [] sd.data⟩

/-- The loop of `find_by_oid`. It goes down along the parts of the text, and the
node has to be there for each of them. -/
def findByLoop (readings : SnmpReadings) :
    List Bytes → Bytes → List SnmpDataType → Option (Option SnmpElem)
  | [], _, _ => none
  | part :: parts, cur, lut =>
    let cur := curOid cur part
    match lut.find? (fun n => n.getOid == cur) with
    | none => none
    | some n =>
      if parts = [] then some (n.kind.getData readings)
      else findByLoop readings parts cur n.getChildren

/-- `find_by_oid`: `none` when there is no such node, `some none` when it has no
data. -/
def findByOid (sd : SnmpData) (readings : SnmpReadings) (oid : Bytes) : Option (Option SnmpElem) :=
  findByLoop readings (split oid (ascii ".")) [] sd.data

/-- The stack of `find_next_oid`: a node and the index of the child that was
taken below it, the last one pushed first. At the top level there is no node. -/
abbrev Branch := List (Option SnmpDataType × ℕ)

/-- The first loop of `find_next_oid`: down along the parts, as far as there are
nodes. -/
def matchLoop : List Bytes → Bytes → Option SnmpDataType → List SnmpDataType → Branch →
    Option SnmpDataType × List SnmpDataType × Branch
  | [], _, parent, lut, branch => (parent, lut, branch)
  | part :: parts, cur, parent, lut, branch =>
    let cur := curOid cur part
    match findOidInVector lut cur with
    | none => (parent, lut, branch)
    | some idx =>
      match lut[idx]? with
      | none => (parent, lut, branch)
      | some n => matchLoop parts cur (some n) n.getChildren ((parent, idx) :: branch)

/-- The second loop: down to the first leaf. -/
def descendLoop : Option SnmpDataType → List SnmpDataType → Branch → Option SnmpDataType × Branch
  | parent, [], branch => (parent, branch)
  | parent, .node oid oidIdx kind children :: _, branch =>
    descendLoop (some (.node oid oidIdx kind children)) children ((parent, 0) :: branch)

/-- The `do` loop of `find_next_oid`, after its first turn. -/
def firstLeaf : SnmpDataType → SnmpDataType
  | .node oid oidIdx kind [] => .node oid oidIdx kind []
  | .node _ _ _ (n :: _) => firstLeaf n

/-- The third loop of `find_next_oid`: back up the stack to the first node that
has a next child, and down to its first leaf. -/
def siblingLoop : Branch → Bytes
  | [] => []
  | (none, _) :: _ => []
  | (some element, index) :: branch =>
    match element.getChildren[index + 1]? with
    | some n => (firstLeaf n).getOid
    | none => siblingLoop branch

/-- `find_next_oid`. It is `none` where the source follows a null pointer, which
takes an empty tree. -/
def findNextOid (sd : SnmpData) (oid : Bytes) : Option Bytes :=
  let (parent, lut, branch) := matchLoop (split oid (ascii ".")) [] none sd.data []
  match descendLoop parent lut branch with
  | (none, _) => none
  | (some parent, branch) =>
    if parent.getOid ≠ oid then some parent.getOid
    else some (siblingLoop ((some parent, 0) :: branch))

end SnmpData

/-- What `__DATE__` expands to. -/
structure BuildDate where
  text : Bytes
  length_eq : text.length = 11

/-- The registrations of `init_snmp` on a POSIX host, in its order. -/
def initRegistrations (date : BuildDate) : List (String × SnmpKind) :=
  [ ("1.3.6.1.2.1.1.1.0", .staticText (ascii "iESP")),
    ("1.3.6.1.2.1.1.3.0", .stats .ticks .runningSince),
    ("1.3.6.1.2.1.1.4.0", .staticText (ascii "Folkert van Heusden <mail@vanheusden.com>")),
    ("1.3.6.1.2.1.1.5.0", .staticText (ascii "iESP")),
    ("1.3.6.1.2.1.1.6.0", .staticText (ascii "The Netherlands, Europe, Earth")),
    ("1.3.6.1.2.1.1.7.0", .staticInt .integer 254),
    ("1.3.6.1.2.1.1.8.0", .staticInt .ticks 0),
    ("1.3.6.1.2.1.142.1.1.1.1.10", .stats .counter32 .ssnFailures),
    ("1.3.6.1.2.1.142.1.1.2.1.1", .stats .counter32 .ssnDigestErrors),
    ("1.3.6.1.2.1.142.1.1.2.1.3", .stats .counter32 .ssnFormatErrors),
    ("1.3.6.1.2.1.142.1.6.2.1.1", .stats .counter32 .loginAccepts),
    ("1.3.6.1.2.1.142.1.6.3.1.1", .stats .counter32 .logoutNormals),
    ("1.3.6.1.2.1.142.1.10.2.1.1", .stats .counter32 .ssnCmdPDUs),
    ("1.3.6.1.2.1.142.1.10.2.1.3", .stats .counter64 .ssnTxDataOctets),
    ("1.3.6.1.2.1.142.1.10.2.1.4", .stats .counter64 .ssnRxDataOctets),
    ("1.3.6.1.4.1.2021.11.54", .stats .integer .ioWaitTicks),
    ("1.3.6.1.4.1.2021.13.15.1.1.2", .staticText (ascii "iESP")),
    ("1.3.6.1.4.1.2021.100.1", .staticInt .integer 1),
    ("1.3.6.1.4.1.2021.100.3", .staticText date.text),
    ("1.3.6.1.4.1.2021.13.15.1.1.3", .stats .counter64 .bytesRead),
    ("1.3.6.1.4.1.2021.13.15.1.1.4", .stats .counter64 .bytesWritten),
    ("1.3.6.1.4.1.2021.13.15.1.1.5", .stats .counter64 .nReads),
    ("1.3.6.1.4.1.2021.13.15.1.1.6", .stats .counter64 .nWrites),
    ("1.3.6.1.4.1.2021.4.11.0", .stats .integer .ramFreeKb),
    ("1.3.6.1.4.1.2021.9.1.9.1", .stats .integer .percentageDiskspace),
    ("1.3.6.1.4.1.2021.11.9.0", .stats .integer .cpuUsage) ]

/-- `init_snmp`: the tree it builds. -/
def initSnmp (date : BuildDate) : SnmpData :=
  (initRegistrations date).foldl (fun sd r => sd.registerOid (ascii r.1) r.2) {}

end IscsiTarget
