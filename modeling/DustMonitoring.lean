import DustMonitoring.Correlator.Schedule
import DustMonitoring.PoolerTran.Retry
import DustMonitoring.PoolerTran.LeftBehind
import DustMonitoring.PoolerTran.Delivery
import DustMonitoring.PoolerTran.Redelivery
import DustMonitoring.PoolerTran.Statements
import DustMonitoring.PoolerTran.Counters
import DustMonitoring.Lib.Query
import DustMonitoring.Loas.CctvServer
import DustMonitoring.DecisionAgent.Poller
import DustMonitoring.Egress.Sent
import DustMonitoring.Lib.SortedSet
import DustMonitoring.Dumopro.Redis
import DustMonitoring.Dumopro.Buckets
import DustMonitoring.Dumopro.StationTask
import DustMonitoring.Dumopro.Backfill
import DustMonitoring.Dumopro.ColdWarm
import DustMonitoring.Loas.CctvStream
import DustMonitoring.Loas.DustServer
import DustMonitoring.GwProto.Connection
import DustMonitoring.DecisionAgent.Progress
import DustMonitoring.Ingestion.Uploads
import DustMonitoring.Egress.Replay
import DustMonitoring.Dumopro.Registry
import DustMonitoring.Dumopro.Supervisor
import DustMonitoring.Dumopro.Reregistration
import DustMonitoring.PoolerTran.AmrView
import DustMonitoring.PoolerTran.Isolation
import DustMonitoring.Dumopro.Actions
import DustMonitoring.Dumopro.Accounting
import DustMonitoring.Dumopro.Station
import DustMonitoring.Dumopro.Attempts
import DustMonitoring.Dumopro.ColdStarts
import DustMonitoring.Dumopro.FrozenCandles
import DustMonitoring.Cleaner.Config
import DustMonitoring.Cleaner.Purge
import DustMonitoring.Cleaner.Emergency
import DustMonitoring.Cleaner.Manual
import DustMonitoring.Cleaner.Retention
import DustMonitoring.Cleaner.Schedule
import DustMonitoring.Dumopro.Visibility
import DustMonitoring.Dumopro.Rounds
import DustMonitoring.Dumopro.Supervision
import DustMonitoring.AdminUi.Stations
import DustMonitoring.DecisionAgent.Roles
import DustMonitoring.Lib.Disk
import DustMonitoring.Ingestion.CctvFiles
import DustMonitoring.Ingestion.VideoFiles
import DustMonitoring.Ingestion.Confinement
import DustMonitoring.Ingestion.Reassembly
import DustMonitoring.Ingestion.Sessions
import DustMonitoring.Lib.Numerals
import DustMonitoring.Loas.DustXml
import DustMonitoring.Ingestion.WaypointGate
import DustMonitoring.Dumopro.LiveValues
import DustMonitoring.Dumopro.FrameValues
import DustMonitoring.Dumopro.PendingFreezes
import DustMonitoring.Dumopro.Broadcaster
import DustMonitoring.Dumopro.Delivery
import DustMonitoring.Lib.Glob
import DustMonitoring.Dumopro.Keys
import DustMonitoring.Dumopro.Deletion
import DustMonitoring.Dumopro.BoxOrder
import DustMonitoring.Loas.HeaderCodecs
import DustMonitoring.Loas.XmlInvariance
import DustMonitoring.GwProto.Messages
import DustMonitoring.Ingestion.VideoMessages
import DustMonitoring.Ingestion.WholeVideos
import DustMonitoring.Ingestion.Refinement
import DustMonitoring.Dumopro.RuntimeSettings
import DustMonitoring.Correlator.ScanOrder
import DustMonitoring.PoolerTran.Robustness
import DustMonitoring.Lib.CalendarOrder
import DustMonitoring.Lib.FixedWidth
import DustMonitoring.Lib.Strptime
import DustMonitoring.Lib.UtcOffset
import DustMonitoring.Dumopro.BucketOrder
import DustMonitoring.Lib.Like
import DustMonitoring.Lib.Paging
import DustMonitoring.Lib.Select
import DustMonitoring.AdminUi.Videos
import DustMonitoring.Egress.Progress
import DustMonitoring.Pipeline.System
import DustMonitoring.Pipeline.Demo
import DustMonitoring.Dumopro.Chart
