import Passmower.Resumption.Reasoning
import Passmower.Resumption.Pool
import Passmower.Redis
import Passmower.RedisAdapter
import Passmower.OwnerSets
import Passmower.GrantIndex
import Passmower.SiteSessions
import Passmower.Account
import Passmower.IdentityIntegrity
import Passmower.Interaction
import Passmower.Username
import Passmower.Web
import Passmower.Enrolment
import Passmower.EmailLogin
import Passmower.GithubLogin
import Passmower.OidcRoutes
import Passmower.Conduct
import Passmower.Conducted
import Passmower.Endpoints
import Passmower.Ledger
import Passmower.Runs
import Passmower.Laws
import Passmower.Provenance
import Passmower.UsernamePrompt
import Passmower.MagicLink
import Passmower.UpstreamBinding
import Passmower.AccountLinking
import Passmower.Identities
import Passmower.VerificationEvidence
import Passmower.AccountType
import Passmower.LeaderElection
import Passmower.LeaseExclusion
import Passmower.RenewalDeadline
import Passmower.ElectionStop
import Passmower.Reconcilers
import Passmower.WipeRestart
import Passmower.LeadingReconciles
import Passmower.ActivityTracker
import Passmower.ActivityUses
import Passmower.ProjectionWorld
import Passmower.ActivityConfluence
import Passmower.EmailOwnership
import Passmower.ScimDirectory
import Passmower.ScimService
import Passmower.ScimMembership
import Passmower.ScimProjection
import Passmower.ScimAlgebra
import Passmower.Claims
import Passmower.GroupsClaim
import Passmower.ClaimShadowing
import Passmower.ClaimMask
import Passmower.AdminSessions
import Passmower.LocalGroups
import Passmower.PasskeyConsistency
import Passmower.SpecWrites
import Passmower.SpecIsolation
import Passmower.VerifiedFlag
import Passmower.IngressDiscovery
import Passmower.EventHooks
import Passmower.HookDispatch
import Passmower.HookDelivery
import Passmower.Resumption.Paired
import Passmower.ScimScope
import Passmower.ScimIsolation
import Passmower.ScimUniqueness
import Passmower.ScimAtomicity
import Passmower.ScimRaces
import Passmower.ScimUpdates
import Passmower.ClientSweep
import Passmower.Resumption.Triple
import Passmower.SweepExactness
import Passmower.RbacFallback
import Passmower.ConsumableTokens
import Passmower.ImpersonationLinks
import Passmower.Patterns.Reading
import Passmower.Patterns.Splitting
import Passmower.ScimFilter
import Passmower.EmailWakeUps
import Passmower.Approval
import Passmower.ScimCreation
import Passmower.ActivityFlush
import Passmower.IngressRedirects
import Passmower.Rounds
import Passmower.StatusReconcile
import Passmower.EmailConditions
import Passmower.Slices
import Passmower.ScimPaging
import Passmower.WatchRestarts
import Passmower.RemoteHeaders
import Passmower.Encoding.Utf8
import Passmower.Encoding.Base64
import Passmower.Encoding.Numbers
import Passmower.Encoding.JsonText
import Passmower.Encoding.JsonWriting
import Passmower.Encoding.JsonReading
import Passmower.SecretData
import Passmower.ReturnState
import Passmower.Encoding.Uuid
import Passmower.ClientHandlers
import Passmower.SecretConvergence
import Passmower.ReadyHonesty
import Passmower.ReplayRestoration
import Passmower.MiddlewareHonesty
import Passmower.Resumption.Versions
import Passmower.StatusMutation
import Passmower.UserStatus
import Passmower.ForwardAuth
import Passmower.Resumption.History
import Passmower.PasskeyCeremonies
import Passmower.ScimLinking
import Passmower.ScimGrants
import Passmower.ScimWithdrawal
import Passmower.ScimPropagation
