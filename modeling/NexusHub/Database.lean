import Mathlib.Data.Rat.Floor
import Mathlib.Tactic.Linarith
import NexusHub.Encoding

/-!
# The database

Rows and tables of the schema, the statements the services issue and the
transactions made of them. Money columns are `Decimal(18, 6)`: they hold whole
numbers of millionths, and a write rounds half away from zero. Timestamps are
left out.
-/

namespace NexusHub

/-! ## Decimals -/

def roundHalfAway (x : ℚ) : Int := if 0 ≤ x then ⌊x + 1 / 2⌋ else -⌊-x + 1 / 2⌋

/-- The value a money column takes, in millionths. -/
def toColumn (x : ℚ) : Int := roundHalfAway (x * 10 ^ 6)

theorem roundHalfAway_of_nonneg {x : ℚ} (h : 0 ≤ x) : roundHalfAway x = ⌊x + 1 / 2⌋ := if_pos h

theorem roundHalfAway_nonneg {x : ℚ} (h : 0 ≤ x) : 0 ≤ roundHalfAway x := by
  rw [roundHalfAway_of_nonneg h]
  exact Int.floor_nonneg.mpr (by linarith)

theorem roundHalfAway_intCast_add {n : Int} {x : ℚ} (hn : 0 ≤ n) (hx : 0 ≤ x) :
    roundHalfAway (n + x) = n + roundHalfAway x := by
  have hn' : (0 : ℚ) ≤ n := by exact_mod_cast hn
  rw [roundHalfAway_of_nonneg hx, roundHalfAway_of_nonneg (by linarith), add_assoc, Int.floor_intCast_add]

theorem roundHalfAway_intCast (n : Int) : roundHalfAway n = n := by
  unfold roundHalfAway
  split
  · rw [Int.floor_intCast_add]; norm_num
  · rw [show -(n : ℚ) = ((-n : Int) : ℚ) by push_cast; rfl, Int.floor_intCast_add]; norm_num

theorem toColumn_nonneg {x : ℚ} (h : 0 ≤ x) : 0 ≤ toColumn x := roundHalfAway_nonneg (by linarith)

/-! ## Rows -/

abbrev UserId := String

inductive UserRole where
  | admin | client | freelancer | marketplace
  deriving DecidableEq, Repr

inductive TransactionType where
  | topup | payment | withdrawal | escrowLock | escrowRelease | escrowRefund | fee | adjustment
  deriving DecidableEq, Repr

inductive TransactionStatus where
  | pending | processing | completed | failed | cancelled
  deriving DecidableEq, Repr

inductive DisputeStatus where
  | opened | underReview | resolvedClient | resolvedFreelancer | closed
  deriving DecidableEq, Repr

inductive WebhookEvent where
  | topupCompleted | topupFailed | paymentCompleted | escrowFunded | escrowReleased | escrowRefunded
  | escrowExpired | milestoneCompleted | withdrawalCompleted | withdrawalFailed | disputeOpened | disputeResolved
  deriving DecidableEq, Repr

inductive WebhookDeliveryStatus where
  | pending | delivered | failed | retrying
  deriving DecidableEq, Repr

/-- The Stellar transaction hash: where the call stands in the ledger's history. -/
abbrev TxHash := Nat

structure User where
  role : UserRole
  stellarPublicKey : Option Address
  stellarSecretEncrypted : Option String
  deriving DecidableEq

structure Balance where
  availableAmount : Int
  reservedAmount : Int
  version : Nat
  deriving DecidableEq, Repr

structure Escrow where
  clientId : UserId
  freelancerId : UserId
  amount : Int
  fee : Int
  status : EscrowStatus
  description : String
  milestoneHash : Option String
  stellarContractId : Option String
  stellarTxHash : Option TxHash
  milestonesTotal : Nat
  milestonesCompleted : Nat
  expiryLedger : Nat
  clientApproved : Bool
  freelancerApproved : Bool
  deriving DecidableEq

structure Transaction where
  userId : UserId
  type : TransactionType
  status : TransactionStatus
  amount : Int
  fee : Int
  description : String
  reference : Option TxHash
  escrowId : Option Uuid
  deriving DecidableEq

structure Dispute where
  escrowId : Uuid
  raisedById : UserId
  status : DisputeStatus
  deriving DecidableEq

structure AuditLog where
  userId : Option UserId
  action : String
  entityId : String
  deriving DecidableEq

structure WebhookEndpoint where
  id : String
  userId : UserId
  isActive : Bool
  events : List WebhookEvent
  url : String
  secret : String
  description : Option String
  createdAt : Nat
  deriving DecidableEq

/-- Transactions are keyed by their `idempotencyKey`, balances by their `userId`:
both columns are unique. -/
structure Db where
  users : Store UserId User
  balances : Store UserId Balance
  escrows : Store Uuid Escrow
  transactions : Store String Transaction
  disputes : Store String Dispute
  auditLogs : List AuditLog
  webhookEndpoints : List WebhookEndpoint

/-! ## Statements -/

/-- A `Decimal(18, 6)` has eighteen digits. -/
def FitsColumn (x : Int) : Prop := x.natAbs < 10 ^ 18

/-- A text column takes no zero character. -/
def FitsText (text : String) : Prop := Char.ofNat 0 ∉ text.toList

/-- `Int` columns have 32 bits. -/
def Balance.Storable (b : Balance) : Prop :=
  FitsColumn b.availableAmount ∧ FitsColumn b.reservedAmount ∧ b.version < 2 ^ 31

def Escrow.Storable (e : Escrow) : Prop :=
  FitsColumn e.amount ∧ FitsColumn e.fee ∧ e.milestonesTotal < 2 ^ 31 ∧ e.expiryLedger < 2 ^ 31 ∧
    FitsText e.description ∧ ∀ text ∈ e.milestoneHash, FitsText text

instance (x : Int) : Decidable (FitsColumn x) := inferInstanceAs (Decidable (_ < _))

instance (text : String) : Decidable (FitsText text) := inferInstanceAs (Decidable (_ ∉ _))

instance (b : Balance) : Decidable b.Storable := inferInstanceAs (Decidable (_ ∧ _ ∧ _))

instance (e : Escrow) : Decidable e.Storable := inferInstanceAs (Decidable (_ ∧ _ ∧ _ ∧ _ ∧ _ ∧ _))

inductive DbError where
  | recordNotFound | uniqueViolation | foreignKeyViolation | valueOutOfRange
  deriving DecidableEq, Repr

namespace Db

def updateEscrow (db : Db) (id : Uuid) (f : Escrow → Escrow) : Except DbError Db :=
  match db.escrows.lookup id with
  | some e => .ok { db with escrows := db.escrows.insert id (f e) }
  | none => .error .recordNotFound

def updateBalance (db : Db) (userId : UserId) (f : Balance → Balance) : Except DbError Db :=
  match db.balances.lookup userId with
  | some b => .ok { db with balances := db.balances.insert userId (f b) }
  | none => .error .recordNotFound

def updateDispute (db : Db) (id : String) (f : Dispute → Dispute) : Except DbError Db :=
  match db.disputes.lookup id with
  | some d => .ok { db with disputes := db.disputes.insert id (f d) }
  | none => .error .recordNotFound

def createEscrow (db : Db) (id : Uuid) (e : Escrow) : Except DbError Db :=
  if ¬ e.Storable then .error .valueOutOfRange
  else if (db.escrows.lookup id).isSome then .error .uniqueViolation
  else if (db.users.lookup e.clientId).isNone ∨ (db.users.lookup e.freelancerId).isNone then
    .error .foreignKeyViolation
  else .ok { db with escrows := db.escrows.insert id e }

def createTransaction (db : Db) (idempotencyKey : String) (t : Transaction) : Except DbError Db :=
  if (db.transactions.lookup idempotencyKey).isSome then .error .uniqueViolation
  else if (db.users.lookup t.userId).isNone then .error .foreignKeyViolation
  else .ok { db with transactions := db.transactions.insert idempotencyKey t }

/-- The escrows with a dispute; the column is unique. -/
def disputedEscrows (db : Db) : Multiset Uuid := db.disputes.entries.map fun e => e.2.escrowId

def createDispute (db : Db) (id : String) (d : Dispute) : Except DbError Db :=
  if (db.disputes.lookup id).isSome ∨ d.escrowId ∈ db.disputedEscrows then .error .uniqueViolation
  else .ok { db with disputes := db.disputes.insert id d }

def createAuditLog (db : Db) (log : AuditLog) : Except DbError Db :=
  if ∃ u ∈ log.userId, (db.users.lookup u).isNone then .error .foreignKeyViolation
  else .ok { db with auditLogs := db.auditLogs ++ [log] }

/-- `updateMany` over the pending lock of an escrow. -/
def updateLocks (db : Db) (escrowId : Uuid) (f : Transaction → Transaction) : Db :=
  { db with
    transactions := db.transactions.mapValues fun t =>
      if t.escrowId = some escrowId ∧ t.type = .escrowLock ∧ t.status = .pending then f t else t }

end Db

def Balance.increment (b : Balance) (available reserved : Int) : Balance :=
  { b with availableAmount := b.availableAmount + available, reservedAmount := b.reservedAmount + reserved }

/-! ## The worker's transactions -/

inductive ApproverRole where
  | client | freelancer
  deriving DecidableEq, Repr

/-- One atomic write of the worker, with the values its handler has at hand. -/
inductive DbTx where
  | fund (escrowId : Uuid) (clientId : UserId) (contractId : String) (txHash : TxHash)
  | failLocks (escrowId : Uuid)
  | compensate (escrowId : Uuid) (clientId : UserId) (amount fee : Int)
  | release (escrowId : Uuid) (escrow : Escrow) (clientId : UserId) (txHash : TxHash)
  | refund (escrowId : Uuid) (escrow : Escrow) (adminId : UserId) (reason : String) (txHash : TxHash)
  | approve (escrowId : Uuid) (escrow : Escrow) (approverId : UserId) (role : ApproverRole)
      (clientApproved freelancerApproved : Bool) (txHash : TxHash)
  | milestone (escrowId : Uuid) (freelancerId : UserId) (milestonesCompleted : Nat) (txHash : TxHash)
  | expire (escrowId : Uuid) (escrow : Escrow) (triggeredBy : Option UserId) (txHash : TxHash)
  deriving DecidableEq

/-- The freelancer is credited and the client's reserve taken, as both kinds of release do. -/
def Db.payFreelancer (db : Db) (e : Escrow) (key : String) (t : Transaction) : Except DbError Db := do
  let db ← db.updateBalance e.freelancerId (·.increment e.amount 0)
  let db ← db.updateBalance e.clientId (·.increment 0 (-e.amount))
  db.createTransaction key t

/-- The client gets the reserve back, as refund and expiry do. -/
def Db.payClient (db : Db) (e : Escrow) (key : String) (t : Transaction) : Except DbError Db := do
  let db ← db.updateBalance e.clientId (·.increment e.amount (-e.amount))
  db.createTransaction key t

def DbTx.apply (db : Db) : DbTx → Except DbError Db
  | fund id clientId contractId txHash => do
    let db ← db.updateEscrow id fun e =>
      { e with status := .funded, stellarContractId := some contractId, stellarTxHash := some txHash }
    let db := db.updateLocks id fun t => { t with status := .completed, reference := some txHash }
    db.createAuditLog ⟨some clientId, "ESCROW_FUNDED", id.text⟩
  | failLocks id => .ok (db.updateLocks id fun t => { t with status := .failed })
  | compensate id clientId amount fee => do
    let db ← db.updateBalance clientId (·.increment (amount + fee) (-amount))
    db.updateEscrow id fun e => { e with status := .cancelled }
  | release id e clientId txHash => do
    let db ← db.updateEscrow id fun e => { e with status := .released, stellarTxHash := some txHash }
    let db ← db.payFreelancer e ("release-" ++ id.text)
      ⟨e.freelancerId, .escrowRelease, .completed, e.amount, 0, "Escrow released: " ++ e.description,
        some txHash, some id⟩
    db.createAuditLog ⟨some clientId, "ESCROW_RELEASED", id.text⟩
  | refund id e adminId reason txHash => do
    let db ← db.updateEscrow id fun e => { e with status := .refunded, stellarTxHash := some txHash }
    let db ← db.payClient e ("refund-" ++ id.text)
      ⟨e.clientId, .escrowRefund, .completed, e.amount, 0, "Escrow refunded: " ++ reason, some txHash, some id⟩
    db.createAuditLog ⟨some adminId, "ESCROW_REFUNDED", id.text⟩
  | approve id e approverId _ clientApproved freelancerApproved txHash => do
    let both := clientApproved && freelancerApproved
    let db ← db.updateEscrow id fun e =>
      let e := { e with clientApproved, freelancerApproved }
      if both then { e with status := .released, stellarTxHash := some txHash } else e
    let db ← if both then
        db.payFreelancer e ("approve-release-" ++ id.text)
          ⟨e.freelancerId, .escrowRelease, .completed, e.amount, 0,
            "2-of-2 approved release: " ++ e.description, some txHash, some id⟩
      else pure db
    db.createAuditLog ⟨some approverId, "APPROVE_RELEASE", id.text⟩
  | milestone id freelancerId milestonesCompleted _ => do
    let db ← db.updateEscrow id fun e => { e with milestonesCompleted }
    db.createAuditLog ⟨some freelancerId, "MILESTONE_COMPLETED", id.text⟩
  | expire id e triggeredBy txHash => do
    let db ← db.updateEscrow id fun e => { e with status := .refunded, stellarTxHash := some txHash }
    let db ← db.payClient e ("expired-" ++ id.text)
      ⟨e.clientId, .escrowRefund, .completed, e.amount, 0, "Escrow expired and reclaimed: " ++ e.description,
        some txHash, some id⟩
    db.createAuditLog ⟨triggeredBy, "ESCROW_EXPIRED", id.text⟩

end NexusHub
