import Wanfw.Schemas.Projection
import Wanfw.Schemas.BundleHash
import Wanfw.Js.Attributes
import Wanfw.Orchestrator.Volumes
import Wanfw.Orchestrator.Exposure
import Wanfw.Plugins.Namecheap.Scope
import Wanfw.Plugins.Namecheap.Concurrent
import Wanfw.Pluginhost.Supervisor
import Wanfw.Orchestrator.Isolation
import Wanfw.Orchestrator.StateStore
import Wanfw.Orchestrator.SigningKey
import Wanfw.Orchestrator.TrustCrash
import Wanfw.Orchestrator.CurrentVersion
import Wanfw.Orchestrator.AuditCrash
import Wanfw.Orchestrator.AuditTamper
import Wanfw.Orchestrator.SignedRows
import Wanfw.Orchestrator.Staging
import Wanfw.Js.Path
import Wanfw.Orchestrator.Engine
import Wanfw.Orchestrator.Labels
import Wanfw.Orchestrator.Collection
import Wanfw.Orchestrator.Invocations
import Wanfw.Pluginhost.ChildRunner
import Wanfw.Orchestrator.Preserve
import Wanfw.Orchestrator.Run
import Wanfw.Orchestrator.Loader
import Wanfw.Orchestrator.Retention
import Wanfw.Orchestrator.Converge
import Wanfw.Orchestrator.Parked
import Wanfw.Orchestrator.Ipam
import Wanfw.Orchestrator.PluginSocket
import Wanfw.Orchestrator.Resolve
import Wanfw.Orchestrator.StatusSocket
import Wanfw.Orchestrator.WrittenFiles
import Wanfw.Pluginhost.JsonRpcPair
import Wanfw.Orchestrator.Banners
import Wanfw.Orchestrator.Renewal
import Wanfw.Orchestrator.HostNetwork
import Wanfw.Plugins.CertLetsencrypt.Nonces
import Wanfw.Plugins.CertLetsencrypt.Bracket
import Wanfw.Plugins.CertLetsencrypt.Deadline
import Wanfw.Store.FileTree
import Wanfw.Js.JsonSchema
import Wanfw.Js.KeyOrder
import Wanfw.Limit.FixedWindow
import Wanfw.Orchestrator.CertGenerations
import Wanfw.Orchestrator.ComposedSchema
import Wanfw.Orchestrator.CoreAuthority
import Wanfw.Orchestrator.DetectCycle
import Wanfw.Orchestrator.HumanRender
import Wanfw.Orchestrator.IpamOwners
import Wanfw.Orchestrator.PlanOrder
import Wanfw.Orchestrator.Reorder
import Wanfw.Orchestrator.ResourceLimits
import Wanfw.Pluginhost.HostMethods
import Wanfw.Tier1.SessionDb
import Wanfw.Orchestrator.CidrArithmetic
import Wanfw.Plugins.CertLetsencrypt.Encodings
import Wanfw.Pluginhost.Ndjson
import Wanfw.Wanfwctl.StdinLines
import Wanfw.Orchestrator.CertNames
import Wanfw.Orchestrator.SecretsStore
import Wanfw.Orchestrator.CertRuns
import Wanfw.Orchestrator.Containment
import Wanfw.Orchestrator.CertRenewal
import Wanfw.Orchestrator.Bystanders
import Wanfw.Tier1.Access
import Wanfw.Tier1.Guesses
import Wanfw.Orchestrator.Watcher
import Wanfw.Orchestrator.PluginKv
import Wanfw.Wanfwctl.Uninstall
import Wanfw.Plugins.ProxyCaddy
import Wanfw.Tier1.DesiredWrite
import Wanfw.Orchestrator.ExposureRuns
import Wanfw.Orchestrator.Licence
