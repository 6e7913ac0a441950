import PseFw.Lib.Transition
import PseFw.Lib.Table
import PseFw.Lib.Chunks
import PseFw.Lib.Brackets
import PseFw.Lib.Memory
import PseFw.Lib.Packed
import PseFw.Heci.Types
import PseFw.Heci.HostIo
import PseFw.Heci.Dma
import PseFw.Heci.Bus
import PseFw.Heci.ClientMsg
import PseFw.Heci.Send
import PseFw.Heci.Step
import PseFw.Heci.ConnTable
import PseFw.Heci.Cases
import PseFw.Heci.Effect
import PseFw.Heci.ConnLife
import PseFw.Heci.Disconnect
import PseFw.Heci.Addresses
import PseFw.Heci.Clients
import PseFw.Heci.RxEffect
import PseFw.Heci.RxBuffer
import PseFw.Heci.Reassembly
import PseFw.Heci.Fragment
import PseFw.Heci.Slots
import PseFw.Heci.Threads
import PseFw.Heci.Credit
import PseFw.Heci.DeadConn
import PseFw.Heci.Isolation
import PseFw.Heci.Pages
import PseFw.Heci.Pairing
import PseFw.Heci.HostView
import PseFw.Heci.Delivery
import PseFw.Heci.ClientView
import PseFw.Heci.Mailbox
import PseFw.Heci.Waiters
import PseFw.Heci.Complete
import PseFw.Heci.HostBuffer
import PseFw.Heci.Smhi
import PseFw.Mng.HostAccess
import PseFw.Mng.Rtd3
import PseFw.Mng.Handler
import PseFw.Mng.Doorbell
import PseFw.Sec.Context
import PseFw.Sec.Request
import PseFw.Sec.Command
import PseFw.Sec.Parsing
import PseFw.Sec.Tlv
import PseFw.Sec.Termination
import PseFw.Sec.Frame
import PseFw.Sec.Sealing
import PseFw.Sec.Credentials
import PseFw.Sec.Provision
import PseFw.Sec.RoundTrip
import PseFw.Sec.Nonce
import PseFw.Sec.Integrity
import PseFw.Sec.Compose
import PseFw.Sec.Handling
import PseFw.Sec.Gating
import PseFw.Sec.Replies
import PseFw.Sec.Rejected
import PseFw.Sec.Freshness
import PseFw.Sec.Entropy
import PseFw.Sec.Start
import PseFw.Sec.Mutex
import PseFw.Sec.Reprovision
import PseFw.Sec.SeedTable
import PseFw.Eclite.Opregion
import PseFw.Eclite.HostComm
import PseFw.Eclite.Fan
import PseFw.Eclite.Dispatcher
import PseFw.Eclite.Charger
import PseFw.Eclite.Residue
import PseFw.Eclite.FlowControl
import PseFw.Eclite.Gpio
import PseFw.Eclite.Battery
import PseFw.Lib.LinkedQueue
import PseFw.Lib.CString
import PseFw.Oob.Adapter
import PseFw.Oob.Rpc
import PseFw.Oob.Telit
import PseFw.Oob.Classify
import PseFw.Oob.Service
import PseFw.Oob.Fifo
import PseFw.Oob.PowerTrans
import PseFw.Oob.Commands
import PseFw.Pmc.Service
import PseFw.Pmc.Replies
import PseFw.Lib.Image
import PseFw.ImageTool.Stitch
import PseFw.ImageTool.Layout
import PseFw.Lib.Dict
import PseFw.ImageTool.LoadAddr
import PseFw.UserApp.Grants
import PseFw.Lib.Ring
import PseFw.Trace.Dump
import PseFw.Trace.Refine
import PseFw.Eclite.Thermal
import PseFw.Eclite.ThermalSlots
import PseFw.Eclite.CpuTemp
import PseFw.Eclite.Gauge
import PseFw.Eclite.Ccg
import PseFw.Oob.Publish
import PseFw.Oob.TelitAck
import PseFw.Sec.Stored
import PseFw.Lib.Stages
import PseFw.Oob.Populate
import PseFw.Oob.PopulateStored
import PseFw.Eclite.Tacho
import PseFw.Lib.Bitmap
import PseFw.Heci.FirstFit
import PseFw.Heci.SendLength
import PseFw.Lib.Pattern
import PseFw.ImageTool.MapCheck
import PseFw.Oob.PubTopics
import PseFw.Lib.Overlay
import PseFw.Tsn.GateControl
import PseFw.Lib.Placement
import PseFw.Tsn.AddressText
import PseFw.Tsn.IpRegion
import PseFw.Lib.Ranked
import PseFw.ImageTool.Listing
import PseFw.ImageTool.Segments
import PseFw.Sys.Wol
import PseFw.Sys.HostIpc
import PseFw.Heci.Enumerate
import PseFw.Heci.Recovery
import PseFw.Heci.Announce
import PseFw.Oob.Decommission
import PseFw.Eclite.UcsiRelay
import PseFw.Tsn.MacRegion
import PseFw.Eclite.Tmp102
