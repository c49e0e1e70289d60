import Orgistry.Organizations.InvitedAddresses
import Orgistry.Listings.Pagination
import Orgistry.Listings.Cursors
import Orgistry.Listings.ChangingTables
import Orgistry.Organizations.OwnerAuthority
import Orgistry.Organizations.SingleUse
import Orgistry.Organizations.TenantIsolation
import Orgistry.Organizations.Permissions
import Orgistry.Organizations.InvitationExpiry
import Orgistry.Organizations.GeneratedNames
import Orgistry.Accounts.Passwords
import Orgistry.Accounts.Mailbox
import Orgistry.Accounts.RefreshFamilies
import Orgistry.Accounts.Generations
import Orgistry.Accounts.Completion
import Orgistry.Accounts.EnumerationSafety
import Orgistry.Accounts.SingleFlight
import Orgistry.Accounts.EndedSessions
import Orgistry.Accounts.Provenance
import Orgistry.Accounts.Credentials
import Orgistry.Accounts.MailLinks
import Orgistry.Limits.Seats
import Orgistry.Limits.KeyExpiry
import Orgistry.Limits.Limiters
import Orgistry.Limits.Downgrades
import Orgistry.Access.Cookies
import Orgistry.Access.KeyAuthentication
import Orgistry.Access.Metadata
import Orgistry.Access.ProxyTrust
import Orgistry.Access.Responses
import Orgistry.Access.PublicIds
import Orgistry.Access.ExternalRequests
import Orgistry.Deployments.ProductionGuard
import Orgistry.Deployments.SecretSources
import Orgistry.Deployments.RollbackSelection
import Orgistry.Deployments.Ledger
import Orgistry.Deployments.ConfigParsers
import Orgistry.Deployments.CredentialUrls
import Orgistry.Deployments.ManifestValidator
import Orgistry.Deployments.AuthorisedReleases
import Orgistry.Backups.RecoveryWindow
import Orgistry.Backups.CatalogTruth
import Orgistry.Backups.PruneSafety
import Orgistry.Backups.Encryption
import Orgistry.Backups.Fetch
import Orgistry.Backups.WalHealth
import Orgistry.Backups.SpoolHandover
import Orgistry.Backups.ObjectListing
import Orgistry.Backups.SignedRequests
import Orgistry.Maintenance.Retention
import Orgistry.Maintenance.ForeignKeys
import Orgistry.Maintenance.Arguments
import Orgistry.Organizations.AuditRuns
import Orgistry.Organizations.InMemoryInvitations
