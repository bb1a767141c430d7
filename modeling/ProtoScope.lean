import ProtoScope.Proofs.App.RawCaptureWindow
import ProtoScope.Proofs.App.ReplayOrder
import ProtoScope.Proofs.App.ReplaySeek
import ProtoScope.Proofs.App.TxExclusivity
import ProtoScope.Proofs.App.TxTerminalEvents
import ProtoScope.Proofs.Data.CsvLookAhead
import ProtoScope.Proofs.Data.Psrec
import ProtoScope.Proofs.Data.RecordCsv
import ProtoScope.Proofs.Plot.BitTransitions
import ProtoScope.Proofs.Plot.NearestSample
import ProtoScope.Proofs.Plot.DigitalSegments
import ProtoScope.Proofs.Plot.StableEdges
import ProtoScope.Proofs.Plot.TraceIndices
import ProtoScope.Proofs.Plot.EventRecords
import ProtoScope.Proofs.Plot.EventStreams
import ProtoScope.Proofs.Plot.WaveIndex
import ProtoScope.Proofs.Scripting.ByteConservation
import ProtoScope.Proofs.Scripting.MutualWait
import ProtoScope.Proofs.Scripting.RingRuns
import ProtoScope.Proofs.Scripting.RxDelivery
import ProtoScope.Proofs.Scripting.SharedHeaders
import ProtoScope.Library.CrashProgram
import ProtoScope.Proofs.Config.DockSettings
import ProtoScope.Proofs.Config.FileSaves
import ProtoScope.Proofs.Config.ConfigRoundTrip
import ProtoScope.Proofs.Session.Readers
import ProtoScope.Proofs.Storage.RecordAnswers
import ProtoScope.Proofs.Storage.CacheCoherence
import ProtoScope.Proofs.Storage.KeyValues
import ProtoScope.Proofs.Data.LiveTable
import ProtoScope.Proofs.Storage.Calls
import ProtoScope.Proofs.Storage.Retirement
import ProtoScope.Proofs.Storage.StorePublication
import ProtoScope.Proofs.App.HistorySlices
import ProtoScope.Proofs.App.PlotOrder
import ProtoScope.Proofs.Scripting.DataTables
import ProtoScope.Proofs.Scripting.FieldBounds
import ProtoScope.Proofs.Scripting.ResidualBound
import ProtoScope.Proofs.Transport.ServerWrites
import ProtoScope.Proofs.App.SessionEntries
import ProtoScope.Proofs.App.DataTransferTask
import ProtoScope.Proofs.App.RangeExport
import ProtoScope.Proofs.Scripting.RxAccounting
import ProtoScope.Proofs.Scripting.FileSendJobs
import ProtoScope.Proofs.App.LiveRx
import ProtoScope.Proofs.Storage.Retention
import ProtoScope.Proofs.Storage.RecordImport
import ProtoScope.Proofs.Plot.BitSnap
import ProtoScope.Proofs.Scripting.Timers
import ProtoScope.Proofs.Plot.VisibleRange
import ProtoScope.Proofs.Plot.Measurement
import ProtoScope.Proofs.App.Dialogs
import ProtoScope.Proofs.Scripting.ControlUpdates
import ProtoScope.Proofs.Scripting.ControlValues
import ProtoScope.Proofs.Plot.WaveBuckets
import ProtoScope.Proofs.Plot.MeasureWindow
import ProtoScope.Proofs.Plot.WaveDownsample
import ProtoScope.Proofs.Plot.Viewport
import ProtoScope.Proofs.Plot.WaveFft
import ProtoScope.Proofs.Data.Checksums
import ProtoScope.Proofs.ProtocolUtils.HexText
