import KilnPrint.Engine.Coherence
import KilnPrint.Engine.Reconciliation
import KilnPrint.Engine.Settlement
import KilnPrint.Engine.EventOrder
import KilnPrint.Engine.PrinterOrder
import KilnPrint.Engine.Capacity
import KilnPrint.Engine.AtMostOnce
import KilnPrint.Engine.Orphans
import KilnPrint.Engine.Cancellation
import KilnPrint.Engine.Discovery
import KilnPrint.Engine.Permits
import KilnPrint.Engine.Closing
import KilnPrint.Engine.Anchors
import KilnPrint.Lib.Table
import KilnPrint.Registry
import KilnPrint.Model.PageRanges
import KilnPrint.Model.Placement
import KilnPrint.Sdk.JobView
import KilnPrint.Sdk.Outcomes
import KilnPrint.Sdk.Disconnect
import KilnPrint.Provider.Outcome
import KilnPrint.Provider.Exclusion
import KilnPrint.Provider.Watch
import KilnPrint.Provider.Raster
import KilnPrint.Provider.Layout
import KilnPrint.Agent.Security
import KilnPrint.Agent.Wire
import KilnPrint.Agent.Database
import KilnPrint.Agent.Backend
import KilnPrint.Agent.Service
import KilnPrint.Agent.Authorisation
import KilnPrint.Agent.Ownership
import KilnPrint.Agent.Scope
import KilnPrint.Agent.Replay
import KilnPrint.Agent.EventStream
import KilnPrint.Protocols.Zpl
import KilnPrint.Protocols.Tspl
import KilnPrint.Renderers.DotMatrixStream
import KilnPrint.Renderers.TextReference
import KilnPrint.Renderers.Isolation
import KilnPrint.Protocols.FontChoice
import KilnPrint.Renderers.Resolution
import KilnPrint.Agent.Payload
import KilnPrint.Agent.JobTable
import KilnPrint.Agent.TableRuns
import KilnPrint.Agent.Token
import KilnPrint.Agent.Config
import KilnPrint.Agent.Rest
import KilnPrint.Agent.Origin
import KilnPrint.Agent.HostGuard
import KilnPrint.Agent.RateLimit
import KilnPrint.Agent.Instants
import KilnPrint.Agent.Sources
