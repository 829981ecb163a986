import Authrs.Access.PermissionCheck
import Authrs.Access.RoleForest
import Authrs.Admin.GroupLinks
import Authrs.Caches.Jwks
import Authrs.Caches.Policies
import Authrs.Limits.RateLimit
import Authrs.Login.Acceptance
import Authrs.Login.Directories
import Authrs.Login.Disclosure
import Authrs.Login.EffectiveRoles
import Authrs.Login.Enrollment
import Authrs.Login.FailedLookups
import Authrs.Login.Flows
import Authrs.Login.ForcedSessions
import Authrs.Login.Gates
import Authrs.Login.Guessing
import Authrs.Login.Lifetime
import Authrs.Login.Linking
import Authrs.Login.Lockout
import Authrs.Login.Methods
import Authrs.Login.StoredPasswords
import Authrs.Migration.CleanAudit
import Authrs.Packages.Extensible
import Authrs.Packages.Freshness
import Authrs.Policy.Agreement
import Authrs.Query.Listing
import Authrs.Query.Noninterference
import Authrs.Query.Substring
import Authrs.Query.Typing
import Authrs.Query.Values
import Authrs.Repo.KvMap
import Authrs.Routes.OneTime
import Authrs.Seed.Reseeding
import Authrs.Sessions.Leasing
import Authrs.Sessions.Logout
import Authrs.Store.BackupCodes
