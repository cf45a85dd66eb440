import Svgd.Backend.Cache
import Svgd.Backend.Config
import Svgd.Backend.Contexts
import Svgd.Backend.Duktape
import Svgd.Backend.Grafana
import Svgd.Backend.Handler
import Svgd.Backend.HttpWire
import Svgd.Backend.JsonEscape
import Svgd.Backend.ListingBuffer
import Svgd.Backend.LoadConfig
import Svgd.Backend.MetricSource
import Svgd.Backend.Params
import Svgd.Backend.Proc
import Svgd.Backend.Prometheus
import Svgd.Backend.Reader
import Svgd.Backend.Server
import Svgd.Backend.SvgArguments
import Svgd.Backend.Workers
import Svgd.Gate.Auth
import Svgd.Gate.Dashboard
import Svgd.Gate.Datasources
import Svgd.Gate.ErrorText
import Svgd.Gate.Fleet
import Svgd.Gate.NewPanels
import Svgd.Gate.Pictures
import Svgd.Gate.Process
import Svgd.Gate.ReadLoop
import Svgd.Gate.Request
import Svgd.Gate.Server
import Svgd.Gate.Session
import Svgd.Gate.Wire
import Svgd.Lib.Base64
import Svgd.Lib.Binary64
import Svgd.Lib.Board
import Svgd.Lib.CString
import Svgd.Lib.Calendar
import Svgd.Lib.ChainTable
import Svgd.Lib.Decimal
import Svgd.Lib.Double
import Svgd.Lib.DoubleSum
import Svgd.Lib.FirstPlace
import Svgd.Lib.HttpMessage
import Svgd.Lib.HttpSized
import Svgd.Lib.Js
import Svgd.Lib.JsDouble
import Svgd.Lib.JsExact
import Svgd.Lib.Json
import Svgd.Lib.JsonForward
import Svgd.Lib.JsonLaws
import Svgd.Lib.JsonString
import Svgd.Lib.JsonText
import Svgd.Lib.LexPath
import Svgd.Lib.Literal
import Svgd.Lib.ObjectHeap
import Svgd.Lib.Pairs
import Svgd.Lib.Rounding
import Svgd.Lib.Runs
import Svgd.Lib.Segments
import Svgd.Lib.Selection
import Svgd.Lib.Sites
import Svgd.Lib.Snapshots
import Svgd.Lib.StackMachine
import Svgd.Lib.TextBuffer
import Svgd.Lib.TtlRules
import Svgd.Lib.Url
import Svgd.Lib.Utf8
import Svgd.Lib.WorkingCopy
import Svgd.Lib.Xml
import Svgd.Panel.GenerateSvg
import Svgd.Proof.Addressable
import Svgd.Proof.ArchivePairing
import Svgd.Proof.ArchiveScan
import Svgd.Proof.AuthGate
import Svgd.Proof.BackendChoice
import Svgd.Proof.CacheBound
import Svgd.Proof.CacheKeys
import Svgd.Proof.CacheRefine
import Svgd.Proof.CacheTransparency
import Svgd.Proof.CacheWorkers
import Svgd.Proof.Coalescing
import Svgd.Proof.CpuSampling
import Svgd.Proof.CpuTotals
import Svgd.Proof.DatasourceStore
import Svgd.Proof.EndpointResolution
import Svgd.Proof.EndpointTransit
import Svgd.Proof.ErrorFraming
import Svgd.Proof.EscapedText
import Svgd.Proof.FleetFreshness
import Svgd.Proof.GapSegments
import Svgd.Proof.GrafanaHop
import Svgd.Proof.GrafanaJson
import Svgd.Proof.GrafanaNames
import Svgd.Proof.GrafanaPoints
import Svgd.Proof.GrafanaStack
import Svgd.Proof.GrafanaTime
import Svgd.Proof.HttpAnswers
import Svgd.Proof.JsonEscaping
import Svgd.Proof.Layouts
import Svgd.Proof.Listing
import Svgd.Proof.ListingSafety
import Svgd.Proof.LoadInvariant
import Svgd.Proof.Login
import Svgd.Proof.MetricRoutes
import Svgd.Proof.MetricSlots
import Svgd.Proof.MetricsListing
import Svgd.Proof.Mutations
import Svgd.Proof.OfferedMetrics
import Svgd.Proof.OneResponse
import Svgd.Proof.PanelPictures
import Svgd.Proof.PanelSettling
import Svgd.Proof.PanelStorage
import Svgd.Proof.PanelValues
import Svgd.Proof.ParamLookup
import Svgd.Proof.Persistence
import Svgd.Proof.PlotArea
import Svgd.Proof.PromBuffer
import Svgd.Proof.PromFraming
import Svgd.Proof.PromGrammar
import Svgd.Proof.PromLine
import Svgd.Proof.PromPasses
import Svgd.Proof.PromSamples
import Svgd.Proof.PromUrlForm
import Svgd.Proof.RequestLine
import Svgd.Proof.Restarts
import Svgd.Proof.RrdConfinement
import Svgd.Proof.RrdSeries
import Svgd.Proof.Sampling
import Svgd.Proof.Segmentation
import Svgd.Proof.Sessions
import Svgd.Proof.SkippedMetrics
import Svgd.Proof.StaticFiles
import Svgd.Proof.StepChoice
import Svgd.Proof.SvgCalls
import Svgd.Proof.SvgDocument
import Svgd.Proof.ThemeLookup
import Svgd.Proof.Tokens
import Svgd.Proof.TransportParity
import Svgd.Proof.TwoTiers
import Svgd.Proof.WorkerContexts
