import Muxa.DieselSentry.Eviction
import Muxa.DieselSentry.Spans
import Muxa.Auth.Location
import Muxa.Auth.Query
import Muxa.Auth.Oidc
import Muxa.Auth.Link
import Muxa.Auth.ParallelStarts
import Muxa.Auth.Sweep
import Muxa.Auth.Established
import Muxa.Auth.Clients
import Muxa.Auth.RoundTrip
import Muxa.Auth.Csrf
import Muxa.Core.App
import Muxa.Core.Lifecycle
import Muxa.Core.Router
import Muxa.Core.StringFallbacks
import Muxa.Core.Shutdown
import Muxa.Diesel.Rolling
import Muxa.OpenApi.Docs
import Muxa.Telemetry.Exporters
import Muxa.Web.Browser
