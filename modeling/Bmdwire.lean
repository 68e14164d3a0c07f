import Bmdwire.Analysis.ClearStill
import Bmdwire.Analysis.UploadMacro
import Bmdwire.Analysis.Downloads
import Bmdwire.Analysis.LockBelief
import Bmdwire.Analysis.LaneOutcomes
import Bmdwire.Analysis.Courtesy
import Bmdwire.Analysis.Progress
import Bmdwire.Analysis.RunLength
import Bmdwire.Analysis.ResendTimer
import Bmdwire.Analysis.PulledPackets
import Bmdwire.Analysis.PoolCounts
import Bmdwire.Analysis.PoolSessions
import Bmdwire.Analysis.DrainKept
import Bmdwire.Analysis.Outstanding
import Bmdwire.Analysis.MacroRoundTrip
import Bmdwire.Analysis.UploadChunks
import Bmdwire.Analysis.UploadDelivery
import Bmdwire.Analysis.Reconnects
import Bmdwire.Analysis.Answers
import Bmdwire.Analysis.Notifications
import Bmdwire.Analysis.PacketCodec
import Bmdwire.Analysis.PayloadFraming
import Bmdwire.Analysis.MixerMerge
import Bmdwire.Analysis.CommandBatches
import Bmdwire.Analysis.WorkerWakes
import Bmdwire.Analysis.UploadSteps
import Bmdwire.Analysis.UploadBudget
import Bmdwire.Analysis.UploadMetadata
import Bmdwire.Analysis.UploadProgress
import Bmdwire.Analysis.DownloadBuffer
import Bmdwire.Program.Listings
import Bmdwire.Library.Words
import Bmdwire.Analysis.ListingRows
import Bmdwire.Library.TextLines
import Bmdwire.Program.Preamble
import Bmdwire.Analysis.FileLists
import Bmdwire.Program.BinaryChannel
import Bmdwire.Program.UnitArchive
import Bmdwire.Analysis.ArchiveRestore
import Bmdwire.Library.Polling
import Bmdwire.Library.Json
import Bmdwire.Program.UnitNetwork
import Bmdwire.Program.DeckSetup
import Bmdwire.Analysis.NetworkSetters
import Bmdwire.Library.Utf8Encode
import Bmdwire.Library.Splice
import Bmdwire.Program.Layouts
import Bmdwire.Analysis.LayoutPacking
import Bmdwire.Analysis.TextFields
import Bmdwire.Library.Clamping
import Bmdwire.Program.FairlightSetters
import Bmdwire.Analysis.FairlightWire
import Bmdwire.Analysis.FairlightCalls
import Bmdwire.Analysis.MacroFaults
import Bmdwire.Analysis.SavedProfiles
import Bmdwire.Analysis.EncoderRoom
import Bmdwire.Analysis.DuplicateWindow
import Bmdwire.Analysis.SocketQueueRuns
import Bmdwire.Analysis.InOrder
import Bmdwire.Analysis.SessionIdentity
import Bmdwire.Analysis.AckSafety
import Bmdwire.Program.PacketLoop
import Bmdwire.Interface.PacketTurns
import Bmdwire.Analysis.Readiness
import Bmdwire.Program.LoopErrors
import Bmdwire.Analysis.SignalErrors
import Bmdwire.Analysis.Containment
import Bmdwire.Analysis.MacroWaits
import Bmdwire.Program.ConnectionWorker
import Bmdwire.Analysis.SessionReady
import Bmdwire.Program.PixelFormat
import Bmdwire.Analysis.StillJourney
import Bmdwire.Program.Client
import Bmdwire.Analysis.ClientRuns
import Bmdwire.Program.Lifecycle
import Bmdwire.Analysis.WorkerLives
import Bmdwire.Program.Commands
import Bmdwire.Analysis.CommandSet
import Bmdwire.Program.MacroRestore
import Bmdwire.Analysis.MacroRestores
import Bmdwire.Library.Streams
import Bmdwire.Program.UnitSockets
import Bmdwire.Analysis.UnitSegments
import Bmdwire.Program.Rates
import Bmdwire.Analysis.RateRoundTrip
import Bmdwire.Library.FixedDecimal
import Bmdwire.Program.ProfileSections
import Bmdwire.Analysis.WireNumbers
import Bmdwire.Analysis.SectionRestores
import Bmdwire.Analysis.MixEffectRestores
