import Musubi.Lib.Runs
import Musubi.Lib.Bytes
import Musubi.Lib.Sha256
import Musubi.Lib.PrefixCode
import Musubi.Lib.Checked
import Musubi.Lib.BitField
import Musubi.Lib.Substr
import Musubi.Lib.Xml
import Musubi.Core.Canonical
import Musubi.Core.Digest
import Musubi.Core.CausalSort
import Musubi.Core.StoreAndForward
import Musubi.Core.Accounting
import Musubi.Core.OrderUnknown
import Musubi.Core.AntiReplay
import Musubi.Core.DrainOrder
import Musubi.Core.ReplayKey
import Musubi.Core.ClockLattice
import Musubi.Core.DerivedMark
import Musubi.Core.Nesting
import Musubi.Conformance.Mavlink
import Musubi.Mavlink.RoundTrip
import Musubi.Mavlink.Demux
import Musubi.Reference.AbsenceExact
import Musubi.Reference.FrozenExact
import Musubi.Reference.Reader
import Musubi.Reference.RelativeRate
import Musubi.Reference.AlignmentBound
import Musubi.Reference.SignatureMatch
import Musubi.Reference.CueSources
import Musubi.Reference.CueChannels
import Musubi.Reference.Digests
import Musubi.Reference.EdgeTxAgreement
import Musubi.Reference.MavlogFrames
import Musubi.Reference.MseedWaveform
import Musubi.Reference.TlogLossless
import Musubi.Reference.TlogPartition
import Musubi.Reference.BinRecords
import Musubi.Reference.RowCells
import Musubi.Northbound.CotFidelity
import Musubi.Northbound.WellFormed
import Musubi.Northbound.FanOut
import Musubi.Northbound.HumanLane
import Musubi.Contracts.SealChain
import Musubi.Contracts.Ndjson
import Musubi.Contracts.Registry
import Musubi.IntegrationCase.Replay
import Musubi.IntegrationCase.AdapterHold
import Musubi.IntegrationCase.Overlap
import Musubi.Miniseed2.Tiling
import Musubi.Miniseed2.SteimRoundTrip
import Musubi.Fanout.Run
import Musubi.Fanout.MarkerIds
import Musubi.Pipeline.Isolation
import Musubi.Pipeline.Reasons
import Musubi.Pipeline.TopK
import Musubi.Pipeline.InjectedTime
import Musubi.Lib.Utf8
import Musubi.Northbound.NvgLabel
import Musubi.Northbound.NvgCompleteness
import Musubi.Northbound.Times
import Musubi.Calendars
import Musubi.FloatRange
import Musubi.DecodedCsv
import Musubi.Northbound.HostStateRead
import Musubi.Writers.Mavlink
import Musubi.Adapter.IngestAccounting
import Musubi.Adapter.ProfileWrapper
import Musubi.UsvJson.TimeExact
import Musubi.Pipeline.AxisConversion
import Musubi.Pipeline.ExportRoundTrip
import Musubi.Lib.LastWrite
import Musubi.Reference.Ulog
import Musubi.Reference.UlogRecords
import Musubi.Fanout.ReasonTokens
import Musubi.Conformance.TextAdapters
import Musubi.Writers.BinOrder
import Musubi.Writers.TlogReadBack
import Musubi.Writers.Failsafes
