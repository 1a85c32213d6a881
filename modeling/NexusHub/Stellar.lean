import NexusHub.Database
import NexusHub.Contract
import NexusHub.Prog

/-!
# The worker's operations and the Stellar service

A handler reads rows, commits transactions, calls the contract and queues
webhooks, one operation at a time. The service builds the argument list of each
entrypoint; the host accepts it when it has the entrypoint's arity and types.
-/

namespace NexusHub

/-! ## Contract values and dispatch -/

inductive ScVal where
  | void
  | bool (b : Bool)
  | bytes (b : Bytes)
  | address (a : Address)
  | i128 (x : I128)
  | u32 (x : UInt32)
  | string (s : String)
  deriving DecidableEq

def dispatch (method : String) (args : List ScVal) : Option Call :=
  match method, args with
  | "initialize", [.address admin, .u32 feeBps] => some (.initializeContract admin feeBps)
  | "set_fee", [.u32 newFeeBps] => some (.setFee newFeeBps)
  | "set_paused", [.bool paused] => some (.setPaused paused)
  | "transfer_admin", [.address newAdmin] => some (.transferAdmin newAdmin)
  | "init_escrow", [.bytes id, .address client, .address freelancer, .address token, .i128 amount, .bytes hash,
      .string description, .u32 delay, .u32 total, .u32 expiry] =>
    some (.initEscrow id client freelancer token amount hash description delay total expiry)
  | "fund", [.bytes id] => some (.fund id)
  | "activate", [.bytes id] => some (.activate id)
  | "release", [.bytes id, .void] => some (.release id none)
  | "release", [.bytes id, .bytes hash] => some (.release id (some hash))
  | "refund", [.bytes id] => some (.refund id)
  | "cancel", [.bytes id, .address caller] => some (.cancel id caller)
  | "raise_dispute", [.bytes id, .address caller] => some (.raiseDispute id caller)
  | "resolve_dispute", [.bytes id, .bool toFreelancer] => some (.resolveDispute id toFreelancer)
  | "complete_milestone", [.bytes id] => some (.completeMilestone id)
  | "claim_expired", [.bytes id] => some (.claimExpired id)
  | "approve_release", [.bytes id, .address approver] => some (.approveRelease id approver)
  | _, _ => none

/-! ## Operations -/

inductive WorkerError where
  | message (text : String)
  | database (e : DbError)
  /-- A secret or an address that does not parse. -/
  | badKey
  | badValue
  | callFailed (method : String)
  | infrastructure
  deriving DecidableEq

inductive WebhookPayload where
  | funded (escrowId : Uuid) (txHash : TxHash) (amount : Int)
  | released (escrowId : Uuid) (freelancerId : UserId) (amount : Int) (txHash : TxHash) (via2of2 : Bool)
  | refunded (escrowId : Uuid) (clientId : UserId) (amount : Int) (txHash : TxHash)
  | milestone (escrowId : Uuid) (milestonesCompleted milestonesTotal : Nat) (txHash : TxHash)
  | expired (escrowId : Uuid) (clientId : UserId) (amount : Int) (txHash : TxHash)
  | disputeOpened (disputeId : String) (escrowId : Uuid) (raisedById : UserId)
  | disputeResolved (disputeId : String) (resolution : DisputeStatus)
  | other (json : String)
  deriving DecidableEq

structure WebhookDelivery where
  endpointId : String
  event : WebhookEvent
  payload : WebhookPayload
  status : WebhookDeliveryStatus
  responseCode : Option Nat := none
  responseBody : Option String := none
  attempts : Nat := 0
  nextRetryAt : Option Nat := none
  deliveredAt : Option Nat := none
  deriving DecidableEq

/-- The jobs of the dispute service name neither a delivery nor an endpoint. -/
structure WebhookJob where
  deliveryId : Option Nat
  url : Option String
  secret : Option String
  event : WebhookEvent
  payload : WebhookPayload
  deriving DecidableEq

inductive Op where
  | findEscrow (id : Uuid)
  | findUser (id : UserId)
  | findEndpoints (userId : UserId) (event : WebhookEvent)
  | findSubscribers (event : WebhookEvent)
  | transact (tx : DbTx)
  | createDelivery (delivery : WebhookDelivery)
  | enqueueWebhook (job : WebhookJob)
  /-- Submit a contract call and wait for its confirmation. -/
  | submit (method : String) (args : List ScVal) (signers : List Address)
  | simulateGetEscrow (escrowId : Bytes)

abbrev Op.Res : Op → Type
  | findEscrow _ => Option Escrow
  | findUser _ => Option User
  | findEndpoints _ _ => List WebhookEndpoint
  | findSubscribers _ => List WebhookEndpoint
  | transact _ => Unit
  | createDelivery _ => Nat
  | enqueueWebhook _ => Unit
  | submit .. => TxHash
  | simulateGetEscrow _ => EscrowRecord

abbrev Handler (α : Type) := Prog Op Op.Res WorkerError α

def perform (o : Op) : Handler o.Res := Prog.call o

def orThrow {α : Type} (x : Option α) (e : WorkerError) : Handler α :=
  match x with
  | some a => pure a
  | none => throw e

/-! ## The Stellar service -/

/-- What the service is configured with. `keypairOf` stands for `decryptSecret`
followed by `Keypair.fromSecret`, `none` where either throws. -/
structure Stellar where
  contract : Address
  adminKey : Address
  adminPublicKey : String
  tokenContract : Address
  keypairOf : String → Option Address
  sha256Hex : String → String

namespace Stellar

def toI128 (x : Int) : Option I128 := if h : FitsI128 x then some ⟨x, h⟩ else none

def toU32 (n : Nat) : Option UInt32 := if n < 2 ^ 32 then some (UInt32.ofNat n) else none

variable (s : Stellar)

/-- The admin keypair sources every transaction. -/
def invoke (method : String) (args : List ScVal) (signers : List Address) : Handler TxHash :=
  perform (.submit method args (s.adminKey :: signers))

def initEscrow (escrowId : String) (client freelancer : Address) (amount : Int)
    (milestoneHash description : String) (disputeDelay milestonesTotal expiryLedger : Nat) :
    Handler TxHash := do
  let amount ← orThrow (toI128 amount) .badValue
  let disputeDelay ← orThrow (toU32 disputeDelay) .badValue
  let milestonesTotal ← orThrow (toU32 milestonesTotal) .badValue
  let expiryLedger ← orThrow (toU32 expiryLedger) .badValue
  let escrowIdBytes := bufferFromHex (stripHyphens escrowId)
  s.invoke "init_escrow" [.bytes escrowIdBytes, .address client, .address freelancer,
    .address s.tokenContract, .i128 amount, .bytes (bufferFromHex milestoneHash), .string description,
    .u32 disputeDelay, .u32 milestonesTotal, .u32 expiryLedger] [client]

def fundEscrow (escrowId : String) (client : Address) : Handler TxHash :=
  s.invoke "fund" [.bytes (escrowIdToBytes escrowId)] [client]

/-- Three arguments, where the entrypoint takes two. -/
def releaseEscrow (escrowId : String) (client : Address) (milestoneHash : String) : Handler TxHash :=
  s.invoke "release" [.bytes (escrowIdToBytes escrowId), .address client, .bytes (bufferFromHex milestoneHash)]
    [client]

def refundEscrow (escrowId : String) : Handler TxHash :=
  s.invoke "refund" [.bytes (escrowIdToBytes escrowId)] []

def approveRelease (escrowId : String) (approver : Address) : Handler TxHash :=
  s.invoke "approve_release" [.bytes (escrowIdToBytes escrowId), .address approver] [approver]

def completeMilestone (escrowId : String) (freelancer : Address) : Handler TxHash :=
  s.invoke "complete_milestone" [.bytes (escrowIdToBytes escrowId)] [freelancer]

def claimExpired (escrowId : String) : Handler TxHash :=
  s.invoke "claim_expired" [.bytes (escrowIdToBytes escrowId)] []

def getEscrowRecord (escrowId : String) : Handler EscrowRecord :=
  perform (.simulateGetEscrow (escrowIdToBytes escrowId))

end Stellar

end NexusHub
