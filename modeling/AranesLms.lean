import AranesLms.Auth.Cleanup
import AranesLms.Auth.CompleteCalls
import AranesLms.Auth.Finality
import AranesLms.Auth.LocalCache
import AranesLms.Auth.Login
import AranesLms.Auth.Soundness
import AranesLms.Auth.TokenIdentity
import AranesLms.CacheAtRest
import AranesLms.Gateway.Manifests
import AranesLms.Gateway.ProxyPaths
import AranesLms.Gateway.References
import AranesLms.Http.Accountability
import AranesLms.Http.OperationIds
import AranesLms.Http.Protection
import AranesLms.I18n.CacheKeys
import AranesLms.I18n.CacheTransparency
import AranesLms.I18n.PermissionMatrix
import AranesLms.LostUpdates
import AranesLms.Plugins.Endpoints
import AranesLms.Plugins.ServicesCache
import AranesLms.Plugins.Startup
import AranesLms.Runtime
import AranesLms.Startup.Migration
import AranesLms.Startup.Sequence
import AranesLms.UserRole.Lockout
import AranesLms.UserRole.PermissionMaps
import AranesLms.UserRole.RedisFailures
import AranesLms.UserRole.RoleDeletion
import AranesLms.UserRole.SuperUserCommand
import AranesLms.UserRole.UserUpdate
import AranesLms.Utils.Heartbeat
import AranesLms.Utils.PayloadCache
import AranesLms.Utils.ProfileLog
import AranesLms.Utils.RateLimitBound
import AranesLms.Utils.RouteMemo
