import L4Scope.HalfOpen
import L4Scope.Sharding
import L4Scope.HandshakeTimeout
import L4Scope.SeqTracking
import L4Scope.Milestones
import L4Scope.Reuse
import L4Scope.SnapLength
import L4Scope.FrameEncoding
import L4Scope.BackendParity
import L4Scope.PcapRecords
import L4Scope.Eviction
import L4Scope.HalfOpenEntries
import L4Scope.ServiceAttribution
import L4Scope.Renaming
import L4Scope.RenamedRuns
import L4Scope.Attribution
import L4Scope.EventJson
import L4Scope.Registry
import L4Scope.Agent
import L4Scope.Conservation
import L4Scope.ExporterParity
import L4Scope.Json
import L4Scope.JsonPlain
import L4Scope.OtlpJson
import L4Scope.CaptureFailure
import L4Scope.SeriesValues
import L4Scope.OtlpStartTime
import L4Scope.IPv6Extensions
import L4Scope.LaterFragments
import L4Scope.DetectorChain
import L4Scope.HostAlerts
import L4Scope.HostBursts
import L4Scope.Blocks
import L4Scope.KeptFlow
import L4Scope.DuplicateAcks
import L4Scope.ZeroWindows
import L4Scope.TcpAlarms
import L4Scope.RepeatedSweeps
import L4Scope.SweepClock
import L4Scope.Durations
import L4Scope.EventFraming
import L4Scope.Trimmed
import L4Scope.PodCidrs
import L4Scope.ConfigFields
import L4Scope.ResourceAttrs
import L4Scope.ConfigLines
import L4Scope.QuotedValues
import L4Scope.TimeShift
import L4Scope.Arrangement
import L4Scope.AgentRuns
import L4Scope.ShiftedRuns
import L4Scope.Thresholds
import L4Scope.Gauges
import L4Scope.EventDocument
import L4Scope.Exposition
import L4Scope.HttpMessage
import L4Scope.Replay
import L4Scope.MetricsServer
import L4Scope.ConfigTexts
import L4Scope.OtlpPush
import L4Scope.EbpfRing
import L4Scope.OtlpReply
import L4Scope.CaptureParity
import L4Scope.CommandLine
import L4Scope.Process
