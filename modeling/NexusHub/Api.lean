import NexusHub.Worker

/-!
# The escrow and dispute services

Each method reads the database, checks and writes in one transaction, and adds
jobs to the queues. A thrown exception writes nothing and queues nothing.
-/

namespace NexusHub

inductive HttpError where
  | notFound (message : String)
  | badRequest (message : String)
  | forbidden (message : String)
  | conflict (message : String)
  | internal (e : DbError)
  deriving DecidableEq

structure CreateEscrowDto where
  freelancerId : UserId
  amount : ℚ
  description : String
  milestoneHash : Option String
  milestonesTotal : Option Nat
  expiryLedger : Option Nat
  amount_pos : 0 < amount
  milestones_le : ∀ n ∈ milestonesTotal, n ≤ 100

/-- The names the schema gives the statuses and roles. -/
def EscrowStatus.text : EscrowStatus → String
  | pending => "PENDING"
  | funded => "FUNDED"
  | active => "ACTIVE"
  | disputed => "DISPUTED"
  | released => "RELEASED"
  | refunded => "REFUNDED"
  | cancelled => "CANCELLED"

def UserRole.text : UserRole → String
  | admin => "ADMIN"
  | client => "CLIENT"
  | freelancer => "FREELANCER"
  | marketplace => "MARKETPLACE"

structure Response where
  db : Db
  jobs : List Job
  webhooks : List WebhookJob

abbrev Service := Except HttpError Response

def throwIf (c : Prop) [Decidable c] (e : HttpError) : Except HttpError Unit := if c then .error e else .ok ()

def orFail {α : Type} (x : Option α) (e : HttpError) : Except HttpError α :=
  match x with
  | some a => .ok a
  | none => .error e

def inTransaction {α : Type} : Except DbError α → Except HttpError α
  | .ok a => .ok a
  | .error e => .error (.internal e)

/-! ## EscrowService -/

namespace EscrowService

/-- The fee the API adds on top of the amount. -/
def feeOf (amount : ℚ) : ℚ := amount * (1 / 100)

def totalDebitOf (amount : ℚ) : ℚ := amount + feeOf amount

/-- The conditional update of the client's balance; the method being one step here, the version it
read is the version it finds. -/
def lockBalance (amount : ℚ) (b : Balance) : Balance where
  availableAmount := roundHalfAway (b.availableAmount - totalDebitOf amount * 10 ^ 6)
  reservedAmount := roundHalfAway (b.reservedAmount + amount * 10 ^ 6)
  version := b.version + 1

/-- Nothing is written where a column cannot hold the outcome. -/
def lockFunds (db : Db) (clientId : UserId) (amount : ℚ) : Except DbError Db :=
  match db.balances.lookup clientId with
  | some b =>
    if ¬ (lockBalance amount b).Storable then .error .valueOutOfRange
    else .ok { db with balances := db.balances.insert clientId (lockBalance amount b) }
  | none => .error .recordNotFound

def newEscrow (clientId : UserId) (dto : CreateEscrowDto) : Escrow where
  clientId
  freelancerId := dto.freelancerId
  amount := toColumn dto.amount
  fee := toColumn (feeOf dto.amount)
  status := .pending
  description := dto.description
  milestoneHash := dto.milestoneHash
  stellarContractId := none
  stellarTxHash := none
  milestonesTotal := dto.milestonesTotal.getD 0
  milestonesCompleted := 0
  expiryLedger := dto.expiryLedger.getD 0
  clientApproved := false
  freelancerApproved := false

def lockTransaction (clientId : UserId) (dto : CreateEscrowDto) (escrowId : Uuid) : Transaction where
  userId := clientId
  type := .escrowLock
  status := .pending
  amount := toColumn (totalDebitOf dto.amount)
  fee := toColumn (feeOf dto.amount)
  description := "Escrow created: " ++ dto.description
  reference := none
  escrowId := some escrowId

/-- `amount.toFixed(7)`, and what `Math.round(parseFloat(amount) * 10_000_000)` makes of it. -/
def stroopsOf (amount : ℚ) : Int := roundHalfAway (amount * 10 ^ 7)

/-- `escrowId` is the fresh id of the row; a key that was used before returns the old transaction. -/
def createEscrow (db : Db) (clientId : UserId) (dto : CreateEscrowDto) (idempotencyKey : String)
    (escrowId : Uuid) : Service := do
  if (db.transactions.lookup idempotencyKey).isSome then return ⟨db, [], []⟩
  let freelancer ← orFail (db.users.lookup dto.freelancerId) (.notFound "Freelancer not found")
  throwIf (freelancer.role ≠ .freelancer) (.badRequest "Target user is not a freelancer")
  throwIf (freelancer.stellarPublicKey.isNone) (.badRequest "Freelancer has no Stellar address on file")
  let insufficient := .badRequest "Insufficient balance. Please top up first."
  let balance ← orFail (db.balances.lookup clientId) insufficient
  throwIf (balance.availableAmount < totalDebitOf dto.amount * 10 ^ 6) insufficient
  let db ← inTransaction (lockFunds db clientId dto.amount)
  let db ← inTransaction (db.createEscrow escrowId (newEscrow clientId dto))
  let db ← inTransaction (db.createTransaction idempotencyKey (lockTransaction clientId dto escrowId))
  let db ← inTransaction (db.createAuditLog ⟨some clientId, "ESCROW_CREATED", escrowId.text⟩)
  return ⟨db, [.fundEscrow escrowId clientId (stroopsOf dto.amount)], []⟩

def isOpen (e : Escrow) : Prop := e.status = .funded ∨ e.status = .active

instance (e : Escrow) : Decidable (isOpen e) := inferInstanceAs (Decidable (_ ∨ _))

def findEscrow (db : Db) (escrowId : Uuid) : Except HttpError Escrow :=
  orFail (db.escrows.lookup escrowId) (.notFound "Escrow not found")

def releaseEscrow (db : Db) (clientId : UserId) (escrowId : Uuid) : Service := do
  let escrow ← findEscrow db escrowId
  throwIf (escrow.clientId ≠ clientId) (.forbidden "Not your escrow")
  throwIf (¬ isOpen escrow) (.badRequest ("Cannot release escrow in status: " ++ escrow.status.text))
  return ⟨db, [.releaseEscrow escrowId clientId], []⟩

def refundEscrow (db : Db) (adminId : UserId) (escrowId : Uuid) (reason : String) : Service := do
  let escrow ← findEscrow db escrowId
  throwIf (¬ (isOpen escrow ∨ escrow.status = .disputed))
    (.badRequest ("Cannot refund escrow in status: " ++ escrow.status.text))
  return ⟨db, [.refundEscrow escrowId adminId reason], []⟩

def approveRelease (db : Db) (userId : UserId) (escrowId : Uuid) (role : ApproverRole) : Service := do
  let escrow ← findEscrow db escrowId
  throwIf (role = .client ∧ escrow.clientId ≠ userId) (.forbidden "Not your escrow")
  throwIf (role = .freelancer ∧ escrow.freelancerId ≠ userId) (.forbidden "Not your escrow")
  throwIf (¬ isOpen escrow)
    (.badRequest ("Cannot approve release for escrow in status: " ++ escrow.status.text ++
    ". Disputed escrows must be resolved by the admin first."))
  return ⟨db, [.approveRelease escrowId userId role], []⟩

def completeMilestone (db : Db) (freelancerId : UserId) (escrowId : Uuid) : Service := do
  let escrow ← findEscrow db escrowId
  throwIf (escrow.freelancerId ≠ freelancerId) (.forbidden "Not your escrow")
  throwIf (¬ isOpen escrow)
    (.badRequest ("Cannot complete milestone for escrow in status: " ++ escrow.status.text))
  throwIf (escrow.milestonesTotal = 0) (.badRequest "This escrow has no milestone tracking enabled")
  throwIf (escrow.milestonesCompleted ≥ escrow.milestonesTotal)
    (.badRequest "All milestones are already completed")
  return ⟨db, [.completeMilestone escrowId freelancerId], []⟩

def claimExpired (db : Db) (userId : UserId) (escrowId : Uuid) : Service := do
  let escrow ← findEscrow db escrowId
  throwIf (¬ isOpen escrow) (.badRequest ("Escrow is not in a claimable status: " ++ escrow.status.text))
  throwIf (escrow.expiryLedger = 0) (.badRequest "This escrow has no expiry set")
  return ⟨db, [.claimExpired escrowId (some userId)], []⟩

/-- Writes new webhook secrets, and an audit row in a statement of its own: the admin has been looked up, so that
row goes in too. -/
def transferAdmin (db : Db) (adminId : UserId) (escrowId : Uuid) (secretOf : String → String) : Service := do
  let escrow ← findEscrow db escrowId
  throwIf (escrow.stellarContractId.getD "" = "") (.badRequest "Escrow has no on-chain contract yet")
  let rotate (ep : WebhookEndpoint) : WebhookEndpoint :=
    if (ep.userId = escrow.clientId ∨ ep.userId = escrow.freelancerId) ∧ ep.isActive then
      { ep with secret := secretOf ep.id }
    else ep
  let db := { db with webhookEndpoints := db.webhookEndpoints.map rotate }
  let db ← inTransaction (db.createAuditLog ⟨some adminId, "TRANSFER_ADMIN_INITIATED", escrowId.text⟩)
  return ⟨db, [], []⟩

end EscrowService

/-! ## DisputesService -/

namespace DisputesService

/-- Writes to the database alone: nothing goes to the escrow queue. -/
def openDispute (db : Db) (userId : UserId) (escrowId : Uuid) (disputeId : String) : Service := do
  let denied := .notFound "Escrow not found or access denied"
  let escrow ← orFail (db.escrows.lookup escrowId) denied
  throwIf (escrow.clientId ≠ userId ∧ escrow.freelancerId ≠ userId) denied
  throwIf (¬ EscrowService.isOpen escrow)
    (.badRequest ("Cannot dispute escrow in status: " ++ escrow.status.text))
  throwIf (escrowId ∈ db.disputedEscrows) (.conflict "A dispute already exists for this escrow")
  let db ← inTransaction (db.createDispute disputeId ⟨escrowId, userId, .opened⟩)
  let db ← inTransaction (db.updateEscrow escrowId fun e => { e with status := .disputed })
  return ⟨db, [], [⟨none, none, none, .disputeOpened, .disputeOpened disputeId escrowId userId⟩]⟩

/-- Neither verdict moves a balance or calls the contract. -/
def resolveDispute (db : Db) (adminId : UserId) (disputeId : String)
    (resolution : DisputeStatus) : Service := do
  let dispute ← orFail (db.disputes.lookup disputeId) (.notFound "Dispute not found")
  throwIf (dispute.status ≠ .opened ∧ dispute.status ≠ .underReview)
    (.badRequest "Dispute is not open for resolution")
  let db ← inTransaction (db.updateDispute disputeId fun d => { d with status := resolution })
  let db ← inTransaction <| match resolution with
    | .resolvedClient => db.updateEscrow dispute.escrowId fun e => { e with status := .refunded }
    | .resolvedFreelancer => db.updateEscrow dispute.escrowId fun e => { e with status := .released }
    | _ => .ok db
  let db ← inTransaction (db.createAuditLog ⟨some adminId, "RESOLVE_DISPUTE", disputeId⟩)
  return ⟨db, [], [⟨none, none, none, .disputeResolved, .disputeResolved disputeId resolution⟩]⟩

def setUnderReview (db : Db) (disputeId : String) : Service := do
  let dispute ← orFail (db.disputes.lookup disputeId) (.notFound "Dispute not found")
  throwIf (dispute.status ≠ .opened) (.badRequest "Dispute is not open")
  let db ← inTransaction (db.updateDispute disputeId fun d => { d with status := .underReview })
  return ⟨db, [], []⟩

end DisputesService

/-! ## Requests -/

inductive Request where
  | createEscrow (clientId : UserId) (dto : CreateEscrowDto) (idempotencyKey : String) (escrowId : Uuid)
  | releaseEscrow (clientId : UserId) (escrowId : Uuid)
  | refundEscrow (adminId : UserId) (escrowId : Uuid) (reason : String)
  | approveRelease (userId : UserId) (escrowId : Uuid)
  | completeMilestone (freelancerId : UserId) (escrowId : Uuid)
  | claimExpired (userId : UserId) (escrowId : Uuid)
  | openDispute (userId : UserId) (escrowId : Uuid) (disputeId : String)
  | setUnderReview (adminId : UserId) (disputeId : String)
  | resolveDispute (adminId : UserId) (disputeId : String) (resolution : DisputeStatus)

def Request.caller : Request → UserId
  | createEscrow u .. | releaseEscrow u _ | refundEscrow u .. | approveRelease u _ | completeMilestone u _
  | claimExpired u _ | openDispute u .. | setUnderReview u _ | resolveDispute u .. => u

/-- The roles the controllers ask for; `none` is any. -/
def Request.requiredRole : Request → Option UserRole
  | createEscrow .. | releaseEscrow .. => some .client
  | completeMilestone .. => some .freelancer
  | refundEscrow .. | setUnderReview .. | resolveDispute .. => some .admin
  | approveRelease .. | claimExpired .. | openDispute .. => none

def Request.handle (db : Db) (role : UserRole) : Request → Service
  | createEscrow clientId dto key escrowId => EscrowService.createEscrow db clientId dto key escrowId
  | releaseEscrow clientId escrowId => EscrowService.releaseEscrow db clientId escrowId
  | refundEscrow adminId escrowId reason => EscrowService.refundEscrow db adminId escrowId reason
  | approveRelease userId escrowId =>
    EscrowService.approveRelease db userId escrowId (if role = .client then .client else .freelancer)
  | completeMilestone freelancerId escrowId => EscrowService.completeMilestone db freelancerId escrowId
  | claimExpired userId escrowId => EscrowService.claimExpired db userId escrowId
  | openDispute userId escrowId disputeId => DisputesService.openDispute db userId escrowId disputeId
  | setUnderReview _ disputeId => DisputesService.setUnderReview db disputeId
  | resolveDispute adminId disputeId resolution =>
    DisputesService.resolveDispute db adminId disputeId resolution

def checkRole (required : Option UserRole) (role : UserRole) : Except HttpError Unit :=
  match required with
  | some r => throwIf (r ≠ role) (.forbidden ("Required role: " ++ r.text ++ ". Your role: " ++ role.text))
  | none => .ok ()

/-- The guards, then the method. -/
def Request.serve (db : Db) (r : Request) : Service := do
  let user ← orFail (db.users.lookup r.caller) (.forbidden "Access denied")
  checkRole r.requiredRole user.role
  r.handle db user.role

end NexusHub
