import Hoprd.Core.Abi
import Hoprd.Core.Base64
import Hoprd.Core.Except
import Hoprd.Core.Fields
import Hoprd.Core.Flock
import Hoprd.Core.Fs
import Hoprd.Core.IndexMap
import Hoprd.Core.JsonSchema
import Hoprd.Core.JsonTree
import Hoprd.Core.LTS
import Hoprd.Core.MinHeap
import Hoprd.Core.Polling
import Hoprd.Core.Regex
import Hoprd.Core.Routing
import Hoprd.Core.Split
import Hoprd.Core.Table
import Hoprd.IpText
import Hoprd.Localcluster.ControlSocket
import Hoprd.Localcluster.CurvyGrant
import Hoprd.Localcluster.Endpoints
import Hoprd.Localcluster.Flow
import Hoprd.Localcluster.FlowCap
import Hoprd.Localcluster.FlowOvertaking
import Hoprd.Localcluster.Funding
import Hoprd.Localcluster.InboundLatency
import Hoprd.Localcluster.Keystores
import Hoprd.Localcluster.Latency
import Hoprd.Localcluster.LatencySpec
import Hoprd.Localcluster.LegacyState
import Hoprd.Localcluster.LinkFaults
import Hoprd.Localcluster.Locks
import Hoprd.Localcluster.Mesh
import Hoprd.Localcluster.Metrics
import Hoprd.Localcluster.NodeFailure
import Hoprd.Localcluster.NodeProcesses
import Hoprd.Localcluster.Outsiders
import Hoprd.Localcluster.Pix
import Hoprd.Localcluster.Relay
import Hoprd.Localcluster.RelayCreation
import Hoprd.Localcluster.RelayDelivery
import Hoprd.Localcluster.RelayFlows
import Hoprd.Localcluster.Scrape
import Hoprd.Localcluster.Summary
import Hoprd.Localcluster.Sweep
import Hoprd.Localcluster.SweepRecovery
import Hoprd.Localcluster.TryGetTarget
import Hoprd.Net
import Hoprd.Node.BuildStrategies
import Hoprd.Node.Cli
import Hoprd.Node.Config
import Hoprd.Node.EnvOverrides
import Hoprd.Node.LibConfig
import Hoprd.Node.Meters
import Hoprd.Node.Mixer
import Hoprd.Node.StrategyConfig
import Hoprd.Node.StrategyGauges
import Hoprd.Node.Telemetry
import Hoprd.RestApi.ApiToken
import Hoprd.RestApi.Auth
import Hoprd.RestApi.Channels
import Hoprd.RestApi.CloseClient
import Hoprd.RestApi.Connected
import Hoprd.RestApi.Error
import Hoprd.RestApi.ListClients
import Hoprd.RestApi.Lookups
import Hoprd.RestApi.MetricsEndpoint
import Hoprd.RestApi.Prometheus
import Hoprd.RestApi.Routes
import Hoprd.RestApi.SessionTarget
import Hoprd.RestApi.SurbConfig
import Hoprd.RestApiClient.Build
import Hoprd.RestApiClient.Nullable
import Hoprd.RestApiClient.NullableMeaning
import Hoprd.RestApiClient.NullableNormalForm
import Hoprd.RestApiClient.Responses
import Hoprd.RestApiClient.ResponsesForm
import Hoprd.Rust
import Hoprd.Text
import Hoprd.Words
