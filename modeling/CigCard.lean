import CigCard.Interaction.RelyGuarantee
import CigCard.Mailbox.Handshake
import CigCard.Mailbox.Command
import CigCard.Mailbox.CommandReply
import CigCard.Mailbox.CommandMatching
import CigCard.Mailbox.FileDownload
import CigCard.Mailbox.FileEncoding
import CigCard.Mailbox.FileHandshake
import CigCard.Mailbox.FileDelivery
import CigCard.LinkMargin.Sweep
import CigCard.LinkMargin.Provenance
import CigCard.Video.Buffers
import CigCard.Video.SendFrame
import CigCard.Video.Fpga
import CigCard.Video.TripleBuffer
import CigCard.Video.FrameRun
import CigCard.Video.WholeFrames
import CigCard.Video.Decode
import CigCard.Ledger.Registry
import CigCard.Xdma.Interrupts
import CigCard.Xdma.IrqLines
import CigCard.Xdma.IrqAlternation
import CigCard.Xdma.IrqRestore
import CigCard.Xdma.UserIrq
import CigCard.Xdma.Engine
import CigCard.Xdma.EngineSpec
import CigCard.Xdma.Driver
import CigCard.Xdma.Stranded
import CigCard.Xdma.FailedForCause
import CigCard.Xdma.Offline
import CigCard.Xdma.Dangling
import CigCard.Ring.Reservations
import CigCard.Xdma.RingRanges
import CigCard.Xdma.Writers
import CigCard.Xdma.WriterDescriptors
import CigCard.Xdma.ByteExact
import CigCard.Xdma.Cdev
import CigCard.Xdma.VectoredWrite
import CigCard.Xdma.AsyncIo
import CigCard.Xdma.CompletesOnce
import CigCard.Mailbox.CommandEncoding
import CigCard.Mailbox.PathField
import CigCard.Mailbox.ResultCopy
import CigCard.Mailbox.ResultText
import CigCard.Mailbox.ChunkTimeout
import CigCard.Video.Readiness
import CigCard.Video.Replay
import CigCard.SerDes.ElementTable
import CigCard.SerDes.Playback
import CigCard.LinkMargin.Descent
import CigCard.Xdma.PollThreads
import CigCard.Ledger.Heap
import CigCard.Video.DecodeBuffers
import CigCard.Video.OverRead
import CigCard.Video.Placement
import CigCard.Ring.Slots
import CigCard.Xdma.Chain
import CigCard.Xdma.Aperture
import CigCard.Xdma.ApertureHost
import CigCard.Xdma.ApertureProgress
import CigCard.Xdma.ApertureExact
import CigCard.Xdma.ApertureDevice
import CigCard.Xdma.NowaitSlots
import CigCard.Xdma.UserPages
import CigCard.Ring.InTurn
import CigCard.Xdma.Aligned
import CigCard.Xdma.SdescTable
import CigCard.Xdma.CallAccounts
import CigCard.Xdma.DmaUnmapping
import CigCard.Xdma.PerfStart
import CigCard.ByteMemory.Bits
import CigCard.Xdma.BarAccess
import CigCard.Xdma.Xvc
import CigCard.Xdma.EopFlush
import CigCard.Xdma.EventReads
import CigCard.Xdma.WorkAssignment
import CigCard.Xdma.XvcShift
import CigCard.Interaction.Unwinding
import CigCard.Xdma.CharDevices
import CigCard.Xdma.InterfacesUndone
import CigCard.Xdma.DeviceOpen
import CigCard.Xdma.OpenBooks
import CigCard.Xdma.OpenBars
import CigCard.Xdma.OpenEngines
import CigCard.Xdma.OpenReleases
import CigCard.Xdma.DeviceLifetime
import CigCard.Xdma.InterfacesMade
import CigCard.Xdma.ChannelIrq
import CigCard.Xdma.InterfacesRemoved
import CigCard.Xdma.MsixVectors
import CigCard.Xdma.PciRecovery
import CigCard.Tools.Numerals
import CigCard.Tools.RegRw
import CigCard.Xdma.Bypass
import CigCard.Xdma.DeviceList
import CigCard.Xdma.PerfSession
import CigCard.Xdma.ThreadStop
import CigCard.Tools.Descriptor
import CigCard.Tools.DmaFromDevice
import CigCard.Tools.DmaToDevice
import CigCard.Xdma.EngineNumbers
import CigCard.LinkMargin.Aftermath
import CigCard.Xdma.AddressMode
