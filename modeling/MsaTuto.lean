import MsaTuto.RewardHistory
import MsaTuto.MessageQueue
import MsaTuto.RewardReplay
import MsaTuto.Approvals
import MsaTuto.Eligibility
import MsaTuto.EarlyRequest
import MsaTuto.RetryBroker
import MsaTuto.RoleLists
import MsaTuto.LogoutSession
import MsaTuto.ResolvedPath
import MsaTuto.Revocation
import MsaTuto.Provenance
import MsaTuto.EventDates
import MsaTuto.RedeemableToken
import MsaTuto.ForwardedToken
import MsaTuto.ErrorStatus
import MsaTuto.AccountFailures
import MsaTuto.Registration
import MsaTuto.RegisterLogin
import MsaTuto.UndeclaredFields
import MsaTuto.Publication
import MsaTuto.RoleChecks
import MsaTuto.EventUpdate
import MsaTuto.RolesGuard
import MsaTuto.LogoutHeader
import MsaTuto.SessionRenewal
import MsaTuto.Redelivery
import MsaTuto.PageCoverage
import MsaTuto.SegmentBoundaries
import MsaTuto.ParameterNames
import MsaTuto.EventVersions
import MsaTuto.Accounts
import MsaTuto.RetryStorm
import MsaTuto.ThreeServers
import MsaTuto.SoftDelete
import MsaTuto.RewardDelivery
import MsaTuto.Previews
import MsaTuto.GameDatabase
import MsaTuto.QueuedRequests
import MsaTuto.SignedIn
import MsaTuto.Demotion
import MsaTuto.OperatorWrites
