import IscsiTarget.Model.Receive

/-!
# A small target

A target to run the model on: a device in memory with 16-byte blocks, served by
thread 0 over a connection on which every send succeeds. The concrete runs of
the other files use it.
-/

namespace IscsiTarget.Sample

/-- The settings: an ordinary host, nothing negotiated, every send succeeds. -/
def setup : Setup where
  build := .posix
  trimLevel := 1
  serial := ascii "12345678"
  targetName := ascii "t"
  localAddress := ascii "a"
  digestChk := true
  thread := 0
  send _ := true
  random _ _ := some 7
  freeHeap _ := 0

theorem blockSize_pos : 0 < 16 := by decide

theorem blockSize_lt : 16 < 2 ^ 32 := by decide

/-- A device of `size` blocks of 16 bytes. -/
def target (size : UInt64) : Target Ram :=
  { setup with backend := ramBackend 16 blockSize_pos blockSize_lt size }

/-- An empty medium, with the outcomes of the next backend calls. -/
def ram (script : List Bool) : Ram := { contents := fun _ => 0, script := script }

/-- A new connection. -/
def conn (size : UInt64) (script : List Bool) : Conn Ram :=
  { scsi := { disk := ram script }, ses := newSession (target size) }

/-- A header: the first two bytes, the tag, the expected data transfer length
and the last 16 bytes. Everything else is zero. -/
def header (opcode flags tag expDatLen : UInt8) (cdb : Vector UInt8 16) : Header :=
  (#v[opcode, flags, 0, 0, 0, 0, 0, 0, 0, 0, 0, 0, 0, 0, 0, 0,
    tag, 0, 0, 0, 0, 0, 0, expDatLen, 0, 0, 0, 0, 0, 0, 0, 0] : Vector UInt8 32) ++ cdb

/-- A SCSI Command. -/
def command (tag expDatLen : UInt8) (cdb : Cdb) (data : Bytes)
    (h : data.length < 2 ^ 24 := by decide) : Pdu :=
  { bhs := header 0x01 0x80 tag expDatLen cdb, data := data, data_lt := h }

/-- A 10-byte CDB: opcode, flags, LBA and block count. -/
def cdb10 (opcode flags lba n : UInt8) : Cdb :=
  #v[opcode, flags, 0, 0, 0, lba, 0, 0, n, 0, 0, 0, 0, 0, 0, 0]

/-- A 6-byte CDB: opcode, LBA and block count. -/
def cdb6 (opcode lbaHigh lba n : UInt8) : Cdb :=
  #v[opcode, lbaHigh, 0, lba, n, 0, 0, 0, 0, 0, 0, 0, 0, 0, 0, 0]

/-- A Data-Out for the tag, at a buffer offset. -/
def dataOut (tag offset : UInt8) (final : Bool) (data : Bytes)
    (h : data.length < 2 ^ 24 := by decide) : Pdu :=
  { bhs :=
      (#v[0x05, if final then 0x80 else 0, 0, 0, 0, 0, 0, 0, 0, 0, 0, 0, 0, 0, 0, 0,
        tag, 0, 0, 0, tag, 0, 0, 0, 0, 0, 0, 0, 0, 0, 0, 0,
        0, 0, 0, 0, 0, 0, 0, 0, 0, 0, 0, offset, 0, 0, 0, 0] : Vector UInt8 48)
    data := data
    data_lt := h }

/-- A block of 16 equal bytes. -/
def block (b : UInt8) : Bytes := List.replicate 16 b

theorem block_lt (b : UInt8) : (block b).length < 2 ^ 24 := by
  rw [block, List.length_replicate]
  decide

/-- WRITE(10) of two blocks to address 2, whose data follows in Data-Outs. -/
def twoBlocks : Pdu := command 5 32 (cdb10 0x2a 0 2 2) [] Pdu.nil_lt

end IscsiTarget.Sample
