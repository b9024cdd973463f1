import Netp2.Library.ByteString
import Netp2.Library.Ipv4
import Netp2.Library.PrefixTrie
import Netp2.Library.StepRun
import Netp2.Library.CappedBalance
import Netp2.Library.LastWrite
import Netp2.Library.Custody
import Netp2.Library.Ledger
import Netp2.Library.RefCount
import Netp2.Library.Lines
import Netp2.Library.Loop
import Netp2.Library.MapWeight
import Netp2.Library.Exposition
import Netp2.Library.RacySum
import Netp2.Library.Exchange
import Netp2.Library.GrowingVector
import Netp2.Library.Agenda
import Netp2.Library.Rounding
import Netp2.Config.ConfigSnapshot
import Netp2.Routing.IpCidr
import Netp2.Routing.RouteSnapshot
import Netp2.Routing.RuleScan
import Netp2.Routing.HostIsolation
import Netp2.Routing.ClientAccess
import Netp2.Routing.RuleOrder
import Netp2.Routing.HostMatching
import Netp2.Routing.PathSegments
import Netp2.Routing.RootRule
import Netp2.Routing.FailureReason
import Netp2.Routing.SplitPath
import Netp2.Routing.RuleChanges
import Netp2.Routing.RulePointers
import Netp2.Resilience.RateLimiter
import Netp2.Resilience.RouteIsolation
import Netp2.Resilience.DoubleTokens
import Netp2.Resilience.CircuitBreaker
import Netp2.Resilience.BreakerRequests
import Netp2.Resilience.ProbeLimit
import Netp2.Resilience.RejectedCalls
import Netp2.Resilience.BestAdmission
import Netp2.Resilience.Outage
import Netp2.Resilience.Resets
import Netp2.Resilience.Recovery
import Netp2.Protocol.RequestContext
import Netp2.Protocol.Http1Codec
import Netp2.Protocol.HeaderAssembly
import Netp2.Protocol.HeaderLines
import Netp2.Protocol.HeaderLimits
import Netp2.Protocol.HeadIsolation
import Netp2.Protocol.Completeness
import Netp2.Protocol.BodySpans
import Netp2.Protocol.CodecReuse
import Netp2.Protocol.Incremental
import Netp2.Protocol.SpanCuts
import Netp2.Protocol.HostRecords
import Netp2.Protocol.HeaderCount
import Netp2.Protocol.HeaderStorage
import Netp2.Upstream.ConnectionPool
import Netp2.Upstream.PoolCustody
import Netp2.Upstream.ConnectionLimit
import Netp2.Upstream.PoolHealth
import Netp2.Upstream.IdleTime
import Netp2.Upstream.Lifecycle
import Netp2.Observability.Metrics
import Netp2.Observability.Aggregation
import Netp2.Observability.Monotonicity
import Netp2.Observability.Rendering
import Netp2.Observability.Scrape
import Netp2.Runtime.Spine
import Netp2.Runtime.Responses
import Netp2.Runtime.QueryString
import Netp2.Runtime.ReceivedHost
import Netp2.Runtime.Serving
import Netp2.Runtime.Accounting
import Netp2.Runtime.GatewayRuntime
import Netp2.Runtime.Restart
import Netp2.Runtime.Framing
import Netp2.Runtime.Linearization
import Netp2.Runtime.Gateway
import Netp2.Runtime.Affinity
import Netp2.Runtime.Scraping
import Netp2.Runtime.MetricsEndpoint
import Netp2.Runtime.SharedRoutes
import Netp2.Runtime.SharedRun
import Netp2.Runtime.Completion
import Netp2.Runtime.DefaultRoutes
import Netp2.App.Main
