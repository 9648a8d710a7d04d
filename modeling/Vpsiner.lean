import Vpsiner.Lib.KeyedTable
import Vpsiner.Lib.PartitionPoint
import Vpsiner.Lib.GroupedFold
import Vpsiner.Lib.HashOrder
import Vpsiner.Lib.Machine
import Vpsiner.Lib.Watch
import Vpsiner.Lib.CrossSection
import Vpsiner.Lib.Calendar
import Vpsiner.Lib.Text
import Vpsiner.Model.Basic
import Vpsiner.Model.Metrics
import Vpsiner.Model.Logs
import Vpsiner.Metrics.Downsampling
import Vpsiner.Metrics.Schema
import Vpsiner.Metrics.DownsamplingProperties
import Vpsiner.Metrics.Rollup
import Vpsiner.Metrics.RollupProperties
import Vpsiner.Metrics.ContainerRollup
import Vpsiner.Metrics.Store
import Vpsiner.Metrics.StoreProperties
import Vpsiner.Metrics.QueryProperties
import Vpsiner.Metrics.HostHistory
import Vpsiner.Metrics.CoarseComplete
import Vpsiner.Metrics.BucketWatcher
import Vpsiner.Api.HostStream
import Vpsiner.Api.HostStreamProperties
import Vpsiner.Api.ContainerStreams
import Vpsiner.Api.ContainerStreamsProperties
import Vpsiner.Logs.Helpers
import Vpsiner.Logs.HelpersProperties
import Vpsiner.Lib.Base64
import Vpsiner.Lib.Paging
import Vpsiner.Logs.AppendProperties
import Vpsiner.Logs.AppendRetry
import Vpsiner.Logs.CursorCodec
import Vpsiner.Logs.Paging
import Vpsiner.Logs.Backlog
import Vpsiner.Logs.Replay
import Vpsiner.Api.LogTailDelivery
import Vpsiner.Api.LogTailRefinement
import Vpsiner.Metadata.ServicesProperties
import Vpsiner.Metadata.ServiceRegistryProperties
import Vpsiner.Metadata.Watermarks
import Vpsiner.Metadata.WatermarkLag
import Vpsiner.Logs.Isolation
import Vpsiner.Metadata.CallByCall
import Vpsiner.Metrics.RowSources
import Vpsiner.Retention.References
import Vpsiner.Startup.DbVersionProperties
import Vpsiner.Frontend.UseLogsProperties
import Vpsiner.Frontend.DiffStreams
import Vpsiner.Logs.OperationLocksProperties
import Vpsiner.Docker.ContainerRegistry
import Vpsiner.Logs.QuerySpec
import Vpsiner.Logs.QuerySafety
import Vpsiner.Logs.AnsiEscapesProperties
import Vpsiner.Metrics.CounterConservation
import Vpsiner.Metrics.GaugeBuckets
import Vpsiner.Metrics.IdleEviction
import Vpsiner.Metrics.BucketNesting
import Vpsiner.Logs.WeekFiles
import Vpsiner.Retention.ResumePoint
import Vpsiner.Logs.SearchText
import Vpsiner.Metrics.QueryGrouping
import Vpsiner.Metrics.DownsamplingSpec
import Vpsiner.Metrics.CpuShare
import Vpsiner.Metrics.BoundedBuffers
import Vpsiner.Metrics.EmittedRows
import Vpsiner.Docker.ObservedContainersProperties
import Vpsiner.Docker.LogObserver
import Vpsiner.Model.ContainerId
import Vpsiner.Docker.ControlsProperties
import Vpsiner.Api.CurrentStreamProperties
import Vpsiner.Metrics.LogPressure
import Vpsiner.Logs.PipelineProperties
import Vpsiner.Frontend.HostChartProperties
import Vpsiner.Logs.PoolCacheProperties
import Vpsiner.Frontend.RequestsProperties
import Vpsiner.Startup.ConfigProperties
import Vpsiner.Frontend.SharedStreamsProperties
