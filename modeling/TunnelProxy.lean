import TunnelProxy.Common.KeyRingReload
import TunnelProxy.Common.ReplaceFile
import TunnelProxy.Protocol.Decoding
import TunnelProxy.Mux.IdleBound
import TunnelProxy.Mux.Fairness
import TunnelProxy.Mux.Capacity
import TunnelProxy.Mux.AckOrder
import TunnelProxy.Mux.Heartbeat
import TunnelProxy.Mux.Abandoned
import TunnelProxy.Edge.Revocation
import TunnelProxy.Edge.Draining
import TunnelProxy.Edge.RateBounds
import TunnelProxy.Edge.StaticAuthorization
import TunnelProxy.Control.Renewal
import TunnelProxy.Control.Finality
import TunnelProxy.Control.AgentRevocation
import TunnelProxy.Control.SnapshotRefresh
import TunnelProxy.Control.Staleness
import TunnelProxy.Ingress.HostRoutes
import TunnelProxy.Ingress.DeadlineBody
import TunnelProxy.Ingress.UpgradedRelay
import TunnelProxy.Agent.Overlap
import TunnelProxy.Agent.RenewalLoop
import TunnelProxy.Agent.Reconnect
import TunnelProxy.Agent.Reachability
