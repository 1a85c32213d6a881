import NexusHub.Store
import NexusHub.Trace
import NexusHub.Types
import NexusHub.Contract
import NexusHub.Spec
import NexusHub.Ledger
import NexusHub.Solvency
import NexusHub.Settlement
import NexusHub.Authority
import NexusHub.Handover
import NexusHub.Payouts
import NexusHub.Evolution
import NexusHub.Observer
import NexusHub.Provenance
import NexusHub.Prog
import NexusHub.Encoding
import NexusHub.Database
import NexusHub.Stellar
import NexusHub.Worker
import NexusHub.Api
import NexusHub.Platform
import NexusHub.Commits
import NexusHub.Requests
import NexusHub.Effects
import NexusHub.Credits
import NexusHub.Keys
import NexusHub.Attempts
import NexusHub.Plans
import NexusHub.Reserve
import NexusHub.Mirror
import NexusHub.Retry
import NexusHub.Fees
import NexusHub.Funding
import NexusHub.Writes
import NexusHub.Coupling
import NexusHub.Sessions
import NexusHub.Locking
import NexusHub.Once
import NexusHub.Finality
import NexusHub.Auth
import NexusHub.Roles
import NexusHub.Pause
import NexusHub.Approval
import NexusHub.WellFormed
import NexusHub.Interface
import NexusHub.Amounts
import NexusHub.Scope
import NexusHub.Reads
import NexusHub.Webhooks
import NexusHub.Rotation
import NexusHub.Milestones
import NexusHub.Overflow
import NexusHub.Disputes
import NexusHub.Addressing
import NexusHub.Commitment
import NexusHub.Deliveries
import NexusHub.Secrets
import NexusHub.Interleaving
import NexusHub.Independence
import NexusHub.Liquidation
import NexusHub.Rent
import NexusHub.Bookkeeping
import NexusHub.Trail
import NexusHub.Network
import NexusHub.Submission
import NexusHub.Audience
import NexusHub.ApiClient
import NexusHub.SignedIn
import NexusHub.Pagination
import NexusHub.Pages
import NexusHub.Base64
import NexusHub.Consent
import NexusHub.Custody
import NexusHub.Tenants
