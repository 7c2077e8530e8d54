import Dvws.Base64
import Dvws.Base64.Bounds
import Dvws.Base64.Credentials
import Dvws.Base64.Decoding
import Dvws.Base64.Encoding
import Dvws.Base64.Inverse
import Dvws.Base64.Spelling
import Dvws.Bytes
import Dvws.Caching.Revalidation
import Dvws.Calendar
import Dvws.Calendar.Dates
import Dvws.Codec.Bits
import Dvws.Codec.Decimal
import Dvws.Codec.JsonString
import Dvws.Codec.Letters
import Dvws.Deployment.Containment
import Dvws.Deployment.Extraction
import Dvws.Deployment.Names
import Dvws.Deployment.Received
import Dvws.Deployment.Reproduction
import Dvws.Deployment.Served
import Dvws.Deployment.Writing
import Dvws.Effect.Exec
import Dvws.Effect.Shown
import Dvws.Effect.Traced
import Dvws.Effect.Twin
import Dvws.Files.Growth
import Dvws.Files.Handles
import Dvws.Files.Paths
import Dvws.Files.Rendering
import Dvws.Files.Rooted
import Dvws.Files.Tree
import Dvws.Handlers.Admin
import Dvws.Handlers.Answered
import Dvws.Handlers.Cgi
import Dvws.Handlers.Deploy
import Dvws.Handlers.DocumentRoot
import Dvws.Handlers.Echo
import Dvws.Handlers.Effects
import Dvws.Handlers.Estimate
import Dvws.Handlers.Head
import Dvws.Handlers.Helper
import Dvws.Handlers.HtmlEscape
import Dvws.Handlers.JsonEscape
import Dvws.Handlers.Listing
import Dvws.Handlers.LogViewer
import Dvws.Handlers.Logged
import Dvws.Handlers.Logs
import Dvws.Handlers.Redirects
import Dvws.Handlers.Revealed
import Dvws.Handlers.SameOrigin
import Dvws.Handlers.StaticFiles
import Dvws.Handlers.Status
import Dvws.Handlers.StatusDecoder
import Dvws.Handlers.Upload
import Dvws.Http.Classification
import Dvws.Http.Headers
import Dvws.Http.Normalisation
import Dvws.Http.PageRequest
import Dvws.Http.Parameters
import Dvws.Http.QueryRendering
import Dvws.Http.Request
import Dvws.Http.RequestLine
import Dvws.Http.Response
import Dvws.Http.Slicing
import Dvws.Http.Twin
import Dvws.LoggingSink.Delivery
import Dvws.LoggingSink.Lifetime
import Dvws.LoggingSink.Pipeline
import Dvws.LoggingSink.Requests
import Dvws.Main.Accounts
import Dvws.Main.Answered
import Dvws.Main.Isolation
import Dvws.Main.Process
import Dvws.Main.Shutdown
import Dvws.Memory.Block
import Dvws.Percent.Encoding
import Dvws.Percent.Malformed
import Dvws.Rotation.Growth
import Dvws.Rotation.Oldest
import Dvws.Rotation.Workers
import Dvws.Router.AdminGate
import Dvws.Router.Answered
import Dvws.Router.Authority
import Dvws.Router.Authorization
import Dvws.Router.BasicAuth
import Dvws.Router.Closing
import Dvws.Router.Commands
import Dvws.Router.Configuration
import Dvws.Router.Crawling
import Dvws.Router.Dispatch
import Dvws.Router.Gate
import Dvws.Router.HeadRequests
import Dvws.Router.LastCall
import Dvws.Router.Listings
import Dvws.Router.LogLines
import Dvws.Router.Minting
import Dvws.Router.Pages
import Dvws.Router.Revalidation
import Dvws.Router.Routed
import Dvws.Router.SessionStep
import Dvws.Router.StaleMemory
import Dvws.Rules.Additions
import Dvws.Rules.History
import Dvws.Rules.Registry
import Dvws.Rules.Run
import Dvws.Server
import Dvws.Sessions
import Dvws.Sessions.Cookie
import Dvws.Sessions.Identifier
import Dvws.Shell.Tokens
import Dvws.Staging.Execution
import Dvws.Staging.Workers
import Dvws.Tagging.History
import Dvws.Text.Enclosed
import Dvws.Text.Search
import Dvws.ThreadPool.Draining
import Dvws.ThreadPool.Pool
import Dvws.ThreadPool.Wakeups
import Dvws.Transition.Endless
import Dvws.Transition.Past
import Dvws.Transition.Run
import Dvws.Transition.Tally
import Dvws.Transition.Total
import Dvws.Url.Reference
import Dvws.Utils
import Dvws.Wire.Response
