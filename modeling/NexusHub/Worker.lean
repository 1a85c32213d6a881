import NexusHub.Stellar

/-!
# The escrow processor

The handlers of the escrow queue, step by step: what they read, the contract
call they make and the transaction they commit after it.
-/

namespace NexusHub

inductive Job where
  /-- `amount` is `toFixed(7)`: a whole number of ten-millionths. -/
  | fundEscrow (escrowId : Uuid) (clientId : UserId) (amount : Int)
  | releaseEscrow (escrowId : Uuid) (clientId : UserId)
  | refundEscrow (escrowId : Uuid) (adminId : UserId) (reason : String)
  | approveRelease (escrowId : Uuid) (approverId : UserId) (role : ApproverRole)
  | completeMilestone (escrowId : Uuid) (freelancerId : UserId)
  | claimExpired (escrowId : Uuid) (triggeredBy : Option UserId)
  deriving DecidableEq

namespace Worker

variable (s : Stellar)

/-! ## Webhooks -/

def deliverTo (event : WebhookEvent) (payload : WebhookPayload) : List WebhookEndpoint → Handler Unit
  | [] => pure ()
  | endpoint :: rest => do
    let deliveryId ← perform (.createDelivery { endpointId := endpoint.id, event, payload, status := .pending })
    perform (.enqueueWebhook ⟨some deliveryId, some endpoint.url, some endpoint.secret, event, payload⟩)
    deliverTo event payload rest

def fireWebhook (event : WebhookEvent) (userId : UserId) (payload : WebhookPayload) : Handler Unit := do
  let endpoints ← perform (.findEndpoints userId event)
  deliverTo event payload endpoints

/-! ## Reading what a settlement needs -/

def secretOf (user : Option User) (missing : String) : Handler Address := do
  let secret ← orThrow (user.bind (·.stellarSecretEncrypted)) (.message missing)
  orThrow (s.keypairOf secret) .badKey

def milestoneHashOf (escrowId : Uuid) (e : Escrow) : String := e.milestoneHash.getD (s.sha256Hex escrowId.text)

/-! ## Funding -/

/-- The third read of `Promise.all`. -/
def freelancerOf (escrowId : Uuid) : Handler (Option User) := do
  let escrow ← perform (.findEscrow escrowId)
  match escrow with
  | some e => perform (.findUser e.freelancerId)
  | none => pure none

structure FundingInput where
  escrow : Escrow
  clientKey : Address
  freelancerAddress : Address

def readFundingInput (escrowId : Uuid) (clientId : UserId) : Handler FundingInput := do
  let found ← perform (.findEscrow escrowId)
  let client ← perform (.findUser clientId)
  let freelancer ← freelancerOf escrowId
  let escrow ← orThrow found (.message ("Escrow " ++ escrowId.text ++ " not found"))
  let secret ← orThrow (client.bind (·.stellarSecretEncrypted)) (.message "Client has no Stellar key")
  let freelancerAddress ← orThrow (freelancer.bind (·.stellarPublicKey))
    (.message "Freelancer has no Stellar address")
  let clientKey ← orThrow (s.keypairOf secret) .badKey
  return ⟨escrow, clientKey, freelancerAddress⟩

/-- Init first if the row has no `stellarContractId` yet. -/
def initIfNeeded (escrowId : Uuid) (input : FundingInput) (amount : Int) : Handler Unit :=
  if input.escrow.stellarContractId.isNone then do
    let _ ← s.initEscrow escrowId.text input.clientKey input.freelancerAddress amount
      (milestoneHashOf s escrowId input.escrow) input.escrow.description 0 input.escrow.milestonesTotal
      input.escrow.expiryLedger
    return ()
  else return ()

def tryFundEscrow (escrowId : Uuid) (clientId : UserId) (amount : Int) : Handler Unit := do
  let input ← readFundingInput s escrowId clientId
  initIfNeeded s escrowId input amount
  let txHash ← s.fundEscrow escrowId.text input.clientKey
  perform (.transact (.fund escrowId clientId (s.adminPublicKey ++ "_" ++ escrowId.text) txHash))
  fireWebhook .escrowFunded clientId (.funded escrowId txHash amount)

def handleFundFailure (escrowId : Uuid) (clientId : UserId) : Handler Unit := do
  perform (.transact (.failLocks escrowId))
  let escrow ← perform (.findEscrow escrowId)
  match escrow with
  | some e => perform (.transact (.compensate escrowId clientId e.amount e.fee))
  | none => pure ()

def fundEscrow (escrowId : Uuid) (clientId : UserId) (amount : Int) : Handler Unit :=
  (tryFundEscrow s escrowId clientId amount).tryCatch fun error => do
    handleFundFailure escrowId clientId
    throw error

/-! ## Settling -/

/-- The hash is compared on-chain, not here. -/
def releaseEscrow (escrowId : Uuid) (clientId : UserId) : Handler Unit := do
  let found ← perform (.findEscrow escrowId)
  let client ← perform (.findUser clientId)
  let escrow ← orThrow (found.filter (·.stellarContractId.isSome))
    (.message "No Stellar contract for this escrow")
  let clientKey ← secretOf s client "Client has no Stellar key"
  let txHash ← s.releaseEscrow escrowId.text clientKey (milestoneHashOf s escrowId escrow)
  perform (.transact (.release escrowId escrow clientId txHash))
  fireWebhook .escrowReleased escrow.freelancerId
    (.released escrowId escrow.freelancerId escrow.amount txHash false)

def refundEscrow (escrowId : Uuid) (adminId : UserId) (reason : String) : Handler Unit := do
  let found ← perform (.findEscrow escrowId)
  let escrow ← orThrow (found.filter (·.stellarContractId.isSome))
    (.message "No Stellar contract for this escrow")
  let txHash ← s.refundEscrow escrowId.text
  perform (.transact (.refund escrowId escrow adminId reason txHash))
  fireWebhook .escrowRefunded escrow.clientId (.refunded escrowId escrow.clientId escrow.amount txHash)

def approveRelease (escrowId : Uuid) (approverId : UserId) (role : ApproverRole) : Handler Unit := do
  let found ← perform (.findEscrow escrowId)
  let approver ← perform (.findUser approverId)
  let escrow ← orThrow (found.filter (·.stellarContractId.isSome))
    (.message "No Stellar contract for this escrow")
  let approverKey ← secretOf s approver "Approver has no Stellar key"
  let txHash ← s.approveRelease escrowId.text approverKey
  let onChain ← Stellar.getEscrowRecord escrowId.text
  perform (.transact (.approve escrowId escrow approverId role onChain.clientApproved onChain.freelancerApproved
    txHash))
  if onChain.clientApproved && onChain.freelancerApproved then
    fireWebhook .escrowReleased escrow.freelancerId
      (.released escrowId escrow.freelancerId escrow.amount txHash true)

def completeMilestone (escrowId : Uuid) (freelancerId : UserId) : Handler Unit := do
  let found ← perform (.findEscrow escrowId)
  let freelancer ← perform (.findUser freelancerId)
  let escrow ← orThrow (found.filter (·.stellarContractId.isSome))
    (.message "No Stellar contract for this escrow")
  let freelancerKey ← secretOf s freelancer "Freelancer has no Stellar key"
  let txHash ← s.completeMilestone escrowId.text freelancerKey
  let onChain ← Stellar.getEscrowRecord escrowId.text
  perform (.transact (.milestone escrowId freelancerId onChain.milestonesCompleted txHash))
  fireWebhook .milestoneCompleted escrow.clientId
    (.milestone escrowId onChain.milestonesCompleted onChain.milestonesTotal txHash)

def claimExpired (escrowId : Uuid) (triggeredBy : Option UserId) : Handler Unit := do
  let found ← perform (.findEscrow escrowId)
  let escrow ← orThrow (found.filter (·.stellarContractId.isSome))
    (.message "No Stellar contract for this escrow")
  let txHash ← s.claimExpired escrowId.text
  perform (.transact (.expire escrowId escrow triggeredBy txHash))
  fireWebhook .escrowExpired escrow.clientId (.expired escrowId escrow.clientId escrow.amount txHash)

def process : Job → Handler Unit
  | .fundEscrow escrowId clientId amount => fundEscrow s escrowId clientId amount
  | .releaseEscrow escrowId clientId => releaseEscrow s escrowId clientId
  | .refundEscrow escrowId adminId reason => refundEscrow s escrowId adminId reason
  | .approveRelease escrowId approverId role => approveRelease s escrowId approverId role
  | .completeMilestone escrowId freelancerId => completeMilestone s escrowId freelancerId
  | .claimExpired escrowId triggeredBy => claimExpired s escrowId triggeredBy

end Worker

end NexusHub
