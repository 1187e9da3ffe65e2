import Iperf3Rs.WindowPartition
import Iperf3Rs.RequiredFile
import Iperf3Rs.ArgSpelling
import Iperf3Rs.FileLabels
import Iperf3Rs.GroupingPath
import Iperf3Rs.ArgDeterminacy
import Iperf3Rs.PrometheusSnapshot
import Iperf3Rs.AtomicWriteSafety
import Iperf3Rs.JsonlFile
import Iperf3Rs.PidfileChecked
import Iperf3Rs.PidfileOwnership
import Iperf3Rs.CliRetirement
import Iperf3Rs.CliWakeup
import Iperf3Rs.WindowAgreement
import Iperf3Rs.FreshnessQueue
import Iperf3Rs.BandwidthOrder
import Iperf3Rs.IntervalSample
import Iperf3Rs.PushRetries
import Iperf3Rs.DurationArgs
import Iperf3Rs.DurationOption
import Iperf3Rs.PidfileContent
import Iperf3Rs.ReorderIntervals
import Iperf3Rs.ArgRespelling
import Iperf3Rs.ArgReextraction
import Iperf3Rs.JsonlClones
import Iperf3Rs.CliPrepareUndo
import Iperf3Rs.EnvLabels
import Iperf3Rs.EndpointScheme
import Iperf3Rs.WindowDeadline
import Iperf3Rs.LabelLanguage
import Iperf3Rs.UpstreamParse
import Iperf3Rs.ServerLoop
import Iperf3Rs.RunningIperf
import Iperf3Rs.RunLifecycle
import Iperf3Rs.RunResults
import Iperf3Rs.StreamDelivery
import Iperf3Rs.SnapshotFile
import Iperf3Rs.JsonlRoundTrip
import Iperf3Rs.CommandBuilder
import Iperf3Rs.CliExit
import Iperf3Rs.GatewayView
