import DatumSync.Api.Admission
import DatumSync.Api.AuditTrail
import DatumSync.Api.Repositories
import DatumSync.Api.Stack
import DatumSync.Api.Trail
import DatumSync.Audit.Bounded
import DatumSync.Auth.Credentials
import DatumSync.Auth.Issuance
import DatumSync.Auth.Lifetime
import DatumSync.Auth.Lockout
import DatumSync.Auth.RetryAfter
import DatumSync.Auth.Store
import DatumSync.Automations.Closure
import DatumSync.Automations.Confinement
import DatumSync.Automations.Delivery
import DatumSync.Automations.Egress
import DatumSync.Automations.Loops
import DatumSync.Automations.SelfTrigger
import DatumSync.Automations.Storage
import DatumSync.Connections.Resolution
import DatumSync.Connections.Snapshot
import DatumSync.Connections.Updates
import DatumSync.Crypto.Rotation
import DatumSync.Foundation.FileStore
import DatumSync.Foundation.Machine
import DatumSync.Foundation.Markup
import DatumSync.Foundation.Projection
import DatumSync.Foundation.Statements
import DatumSync.Foundation.UniqueKey
import DatumSync.Foundation.UniqueLoad
import DatumSync.Jobs.Await
import DatumSync.Jobs.Completeness
import DatumSync.Jobs.Idempotency
import DatumSync.Jobs.Lifecycle
import DatumSync.Jobs.Notify
import DatumSync.Mcp.Catalogue
import DatumSync.Mcp.Doors
import DatumSync.Mcp.Governance
import DatumSync.Migrate
import DatumSync.OAuth.Atomicity
import DatumSync.OAuth.Authorize
import DatumSync.OAuth.Revocation
import DatumSync.Parameters.Soundness
import DatumSync.Proxy.Injection
import DatumSync.Proxy.Recording
import DatumSync.Python.Calls
import DatumSync.Python.JsonLoads
import DatumSync.Python.JsonbIn
import DatumSync.Ratelimit
import DatumSync.Ratelimit.RetryAfter
import DatumSync.Ratelimit.Window
import DatumSync.Repository.Comments
import DatumSync.Repository.Entrypoint
import DatumSync.Repository.Uniqueness
import DatumSync.Schedules.CatchUp
import DatumSync.Schedules.Race
import DatumSync.Services.Registration
import DatumSync.Services.Serving
import DatumSync.Uploads.Ids
import DatumSync.Uploads.RoundTrip
import DatumSync.Vault.Canonical
import DatumSync.Vault.Coverage
import DatumSync.Vault.Listing
import DatumSync.Vault.Reach
import DatumSync.Worker.Artifacts
import DatumSync.Worker.Cancel
import DatumSync.Worker.Execute
import DatumSync.Worker.Integrity
import DatumSync.Worker.Reexecution
