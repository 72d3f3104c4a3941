import DjangoBolt.ClassViewsLaw
import DjangoBolt.DevReload
import DjangoBolt.Binding.UploadCleanup
import DjangoBolt.Binding.ParityLaw
import DjangoBolt.Binding.GatherOnce
import DjangoBolt.Auth.Retention
import DjangoBolt.Dispatch.MountLaw
import DjangoBolt.Middleware.Precedence
import DjangoBolt.Oauth.RefreshFamily
import DjangoBolt.Oauth.AuthorizeLaw
import DjangoBolt.Mcp.Stream
import DjangoBolt.Mcp.Transport
import DjangoBolt.Websocket.Delivery
import DjangoBolt.Websocket.ScopeLaw
import DjangoBolt.Websocket.Limit
import DjangoBolt.Responses.Exposure
import DjangoBolt.Middleware.CorsPreflight
import DjangoBolt.Analysis.Elision
import DjangoBolt.Asgi.Scope
import DjangoBolt.Pagination.Cursor
import DjangoBolt.Responses.SetCookie
import DjangoBolt.EventStream.Frame
import DjangoBolt.Auth.UserLoader
import DjangoBolt.Dispatch.MountedPathsLaw
import DjangoBolt.Routers.Exports
import DjangoBolt.Responses.DjangoBridge
import DjangoBolt.Middleware.DjangoStackLaw
import DjangoBolt.Websocket.HandlerLaw
import DjangoBolt.Openapi.ParametersLaw
import DjangoBolt.Binding.BodyDelivery
import DjangoBolt.Pagination.Pages
import DjangoBolt.TypeCoercion.CoerceLaw
import DjangoBolt.Responses.MultiResponseLaw
import DjangoBolt.Pagination.Items
import DjangoBolt.Asgi.ExchangeLaw
import DjangoBolt.Openapi.IntegrityLaw
import DjangoBolt.Binding.FileChunks
import DjangoBolt.Binding.FormAccumulation
import DjangoBolt.Serializers.ValidatorResolution
import DjangoBolt.Serializers.Suppression
import DjangoBolt.Serializers.ErrorCollectionLaw
import DjangoBolt.Serializers.ReadingLaw
import DjangoBolt.Responses.ListProjection
import DjangoBolt.Auth.HandOver
import DjangoBolt.EventStream.SyncStream
import DjangoBolt.EventStream.Pipeline
import DjangoBolt.Middleware.Negotiation
import DjangoBolt.Mcp.ResourceLaw
import DjangoBolt.Routing.RouteNames
import DjangoBolt.StaticFiles
import DjangoBolt.Asgi.Redirects
import DjangoBolt.Serializers.PartialUpdate
import DjangoBolt.Routing.PatternConversion
import DjangoBolt.Binding.DecodeError
import DjangoBolt.Routing.TrailingSlash
import DjangoBolt.Middleware.DjangoRequestLaw
