import IscsiTarget.Answers.CmdSN
import IscsiTarget.Answers.Command
import IscsiTarget.Answers.Echo
import IscsiTarget.Answers.Reply
import IscsiTarget.Answers.Sent
import IscsiTarget.Answers.Settings
import IscsiTarget.Answers.StatSN
import IscsiTarget.Answers.Status
import IscsiTarget.Answers.Step
import IscsiTarget.Answers.Stream
import IscsiTarget.Commands.Bounds
import IscsiTarget.Commands.Capacity
import IscsiTarget.Commands.Forms
import IscsiTarget.Commands.Lun
import IscsiTarget.Commands.Refusal
import IscsiTarget.Commands.SameTruth
import IscsiTarget.Commands.Unmap
import IscsiTarget.Commands.UnmapTruth
import IscsiTarget.Commands.WriteSame
import IscsiTarget.DataIn.Emitted
import IscsiTarget.DataIn.Layout
import IscsiTarget.DataIn.LengthField
import IscsiTarget.DataIn.Numbering
import IscsiTarget.DataIn.Residual
import IscsiTarget.DataIn.Streamed
import IscsiTarget.DataIn.Termination
import IscsiTarget.Digest
import IscsiTarget.Disk.CompareWrite
import IscsiTarget.Disk.File
import IscsiTarget.Disk.Refinement
import IscsiTarget.Disk.Rests
import IscsiTarget.Disk.Storing
import IscsiTarget.Disk.Task
import IscsiTarget.Emit
import IscsiTarget.Frame.Emitters
import IscsiTarget.Frame.Layout
import IscsiTarget.Frame.RoundTrip
import IscsiTarget.Io
import IscsiTarget.Lib.BigEndian
import IscsiTarget.Lib.Buffer
import IscsiTarget.Lib.Burst
import IscsiTarget.Lib.Crc
import IscsiTarget.Lib.Disk
import IscsiTarget.Lib.Extent
import IscsiTarget.Lib.Forest
import IscsiTarget.Lib.LockedSections
import IscsiTarget.Lib.Medium
import IscsiTarget.Lib.Occurrence
import IscsiTarget.Lib.Run
import IscsiTarget.Lib.Segments
import IscsiTarget.Lib.Simulation
import IscsiTarget.Lib.Trace
import IscsiTarget.Lib.Traced
import IscsiTarget.Model.Backend
import IscsiTarget.Model.Build
import IscsiTarget.Model.Crc32c
import IscsiTarget.Model.FileBackend
import IscsiTarget.Model.Frame
import IscsiTarget.Model.Header
import IscsiTarget.Model.NbdBackend
import IscsiTarget.Model.NbdSocket
import IscsiTarget.Model.Pdu
import IscsiTarget.Model.RangeLock
import IscsiTarget.Model.Receive
import IscsiTarget.Model.Reply
import IscsiTarget.Model.Sample
import IscsiTarget.Model.Scsi
import IscsiTarget.Model.ScsiCommands
import IscsiTarget.Model.SdBackend
import IscsiTarget.Model.SdTransfer
import IscsiTarget.Model.Server
import IscsiTarget.Model.Session
import IscsiTarget.Model.Sessions
import IscsiTarget.Model.Snmp
import IscsiTarget.Model.SnmpData
import IscsiTarget.Model.SnmpElem
import IscsiTarget.Model.SnmpTrace
import IscsiTarget.Model.SoftwareTrim
import IscsiTarget.Model.Target
import IscsiTarget.Model.Text
import IscsiTarget.Numerals
import IscsiTarget.Range
import IscsiTarget.Read.Returns
import IscsiTarget.Read.Stream
import IscsiTarget.Receive.Agreement
import IscsiTarget.Receive.Ahs
import IscsiTarget.Receive.Framing
import IscsiTarget.Receive.Handler
import IscsiTarget.Receive.Integrity
import IscsiTarget.Receive.Login
import IscsiTarget.Receive.Negotiation
import IscsiTarget.Receive.Serving
import IscsiTarget.Receive.Socket
import IscsiTarget.Receive.Stages
import IscsiTarget.Sessions.Locked
import IscsiTarget.Sessions.Reservation
import IscsiTarget.Snmp.Dotted
import IscsiTarget.Snmp.Malformed
import IscsiTarget.Snmp.Mib
import IscsiTarget.Snmp.Oid
import IscsiTarget.Snmp.OidCodec
import IscsiTarget.Snmp.Parse
import IscsiTarget.Snmp.Payload
import IscsiTarget.Snmp.Register
import IscsiTarget.Snmp.Reply
import IscsiTarget.Snmp.RequestId
import IscsiTarget.Snmp.Sequence
import IscsiTarget.Snmp.Tree
import IscsiTarget.Snmp.Walk
import IscsiTarget.Split
import IscsiTarget.Storage.AllOrNothing
import IscsiTarget.Storage.Contract
import IscsiTarget.Storage.Deadlock
import IscsiTarget.Storage.FileCmpwrite
import IscsiTarget.Storage.Isolation
import IscsiTarget.Storage.NbdCmpwrite
import IscsiTarget.Storage.Pairing
import IscsiTarget.Storage.Reconnect
import IscsiTarget.Storage.Retry
import IscsiTarget.Storage.SdCmpwrite
import IscsiTarget.Storage.SoftwareTrim
import IscsiTarget.Storage.TrimLevel
import IscsiTarget.TextArray
import IscsiTarget.Write.Accounting
import IscsiTarget.Write.Command
import IscsiTarget.Write.Completion
import IscsiTarget.Write.Containment
import IscsiTarget.Write.DataOut
import IscsiTarget.Write.Durability
import IscsiTarget.Write.Identity
import IscsiTarget.Write.Immediate
import IscsiTarget.Write.Refinement
import IscsiTarget.Write.Surplus
import IscsiTarget.Write.Task
