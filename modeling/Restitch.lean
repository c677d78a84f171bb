import Restitch.Admin.Accumulator
import Restitch.Composition.Accounting
import Restitch.Composition.AuthenticatedRoutes
import Restitch.Composition.BodyTemplate
import Restitch.Composition.CacheAge
import Restitch.Composition.CacheHits
import Restitch.Composition.CallPhases
import Restitch.Composition.Cancellation
import Restitch.Composition.Compile
import Restitch.Composition.Config
import Restitch.Composition.DependencyExactness
import Restitch.Composition.DependencySoundness
import Restitch.Composition.EnvironmentShape
import Restitch.Composition.Execute
import Restitch.Composition.ExecuteCorrect
import Restitch.Composition.ExecuteInvariant
import Restitch.Composition.Executor
import Restitch.Composition.ExecutorRefines
import Restitch.Composition.ExecutorSettles
import Restitch.Composition.FailureAnswer
import Restitch.Composition.Gateway
import Restitch.Composition.GatewayInvariant
import Restitch.Composition.Handler
import Restitch.Composition.JsonValues
import Restitch.Composition.Lint
import Restitch.Composition.NilSafeResponse
import Restitch.Composition.NumberText
import Restitch.Composition.ObjectHomes
import Restitch.Composition.PassedNumbers
import Restitch.Composition.PathSplit
import Restitch.Composition.PathTemplate
import Restitch.Composition.Plan
import Restitch.Composition.PlanCorrect
import Restitch.Composition.PlanLevels
import Restitch.Composition.PrivateResponses
import Restitch.Composition.QueryTemplate
import Restitch.Composition.References
import Restitch.Composition.Resolution
import Restitch.Composition.Response
import Restitch.Composition.ResponseFrame
import Restitch.Composition.ResponseLimit
import Restitch.Composition.ResponseShape
import Restitch.Composition.ResponseValues
import Restitch.Composition.RouteParams
import Restitch.Composition.Routes
import Restitch.Composition.Scoping
import Restitch.Composition.Serve
import Restitch.Composition.SharedBodies
import Restitch.Composition.SharedRules
import Restitch.Composition.Sharing
import Restitch.Composition.StepErrors
import Restitch.Composition.StepIndependence
import Restitch.Composition.StepRequest
import Restitch.Composition.StepResult
import Restitch.Composition.StepTimings
import Restitch.Composition.Template
import Restitch.Composition.TemplateSplit
import Restitch.Composition.TemplateText
import Restitch.Composition.UrlRedaction
import Restitch.Composition.WholeResponse
import Restitch.Expr.Semantics
import Restitch.Expr.Syntax
import Restitch.Gateway.Reloader
import Restitch.Gateway.ReloaderSettles
import Restitch.Gateway.StepCaches
import Restitch.Gwconfig.Env
import Restitch.Gwconfig.Expansion
import Restitch.Gwconfig.Indentation
import Restitch.Hotreload.Heartbeat
import Restitch.Hotreload.Poller
import Restitch.Hotreload.PollerAgrees
import Restitch.Hotreload.RequestSampler
import Restitch.Hotreload.SamplerCap
import Restitch.Hotreload.SamplesConserved
import Restitch.Hotreload.Trigger
import Restitch.Hotreload.Usage
import Restitch.Hotreload.UsageConserved
import Restitch.Http.Handler
import Restitch.Http.Header
import Restitch.Http.PathSegments
import Restitch.Http.Pattern
import Restitch.Http.PatternConflict
import Restitch.Http.Url
import Restitch.Http.UrlJoin
import Restitch.Http.UrlParse
import Restitch.Http.UrlText
import Restitch.Http.Wildcards
import Restitch.Import.ImportedArtifact
import Restitch.Import.ImportedComposition
import Restitch.Import.ImportedPath
import Restitch.Import.ImportedRequest
import Restitch.Import.OpenApi
import Restitch.Import.OperationForwards
import Restitch.Inbound.Authenticator
import Restitch.Ratelimit.Limiter
import Restitch.Ratelimit.LimiterTable
import Restitch.Reqlog.Record
import Restitch.Reqlog.Redaction
import Restitch.Reqlog.RedactionHides
import Restitch.Reqlog.RedactionStable
import Restitch.Semantics.Quiescence
import Restitch.Semantics.Transition
import Restitch.Std.Accumulate
import Restitch.Std.Chain
import Restitch.Std.ClassPattern
import Restitch.Std.CommaList
import Restitch.Std.Countdown
import Restitch.Std.Dyadic
import Restitch.Std.Fields
import Restitch.Std.Float64
import Restitch.Std.Framing
import Restitch.Std.GoMap
import Restitch.Std.GoStrings
import Restitch.Std.GoTime
import Restitch.Std.GraphSearch
import Restitch.Std.Histogram
import Restitch.Std.Json
import Restitch.Std.JsonMeaning
import Restitch.Std.JsonNumbers
import Restitch.Std.JsonReads
import Restitch.Std.KeyedParts
import Restitch.Std.KeyedTable
import Restitch.Std.ObjectHeap
import Restitch.Std.Presentation
import Restitch.Std.Recency
import Restitch.Std.Relationship
import Restitch.Std.Results
import Restitch.Std.Segments
import Restitch.Std.ShortestDecimal
import Restitch.Std.Stretches
import Restitch.Std.TableHistory
import Restitch.Studio.ArtifactValues
import Restitch.Studio.Draft
import Restitch.Studio.DraftRevisions
import Restitch.Studio.DraftWaves
import Restitch.Studio.DraftWrites
import Restitch.Studio.FormEdits
import Restitch.Studio.GatewayApi
import Restitch.Studio.GatewayIsolation
import Restitch.Studio.HiddenValues
import Restitch.Studio.PublishCommand
import Restitch.Studio.PublishedFile
import Restitch.Studio.PublishedNames
import Restitch.Studio.RequestSamples
import Restitch.Studio.Requests
import Restitch.Studio.RequiredNames
import Restitch.Studio.RequiredNamesExact
import Restitch.Studio.SaveReply
import Restitch.Studio.SchemaForm
import Restitch.Studio.SettingsUpdates
import Restitch.Studio.StepEditor
import Restitch.Studio.StepGraph
import Restitch.Studio.StepWaves
import Restitch.Studio.UsageHistory
import Restitch.Studio.UsagePercentile
import Restitch.Studio.UsageTable
import Restitch.Studio.UsageTotals
import Restitch.Studio.VersionHistory
import Restitch.Studio.Versions
import Restitch.Upstream.Breaker
import Restitch.Upstream.BreakerRuns
import Restitch.Upstream.KeySoundness
import Restitch.Upstream.RequestKey
import Restitch.Upstream.Retry
import Restitch.Upstream.RetryAfter
import Restitch.Upstream.RetryBodies
import Restitch.Upstream.RetryPolicy
import Restitch.Upstream.StepCache
import Restitch.Upstream.StepRetry
