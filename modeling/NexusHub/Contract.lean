import NexusHub.Types

/-!
# The NexusEscrow entrypoints

Each entrypoint is written with the checks of the source in their order. A
result `.ok h` is a successful call and `h` what it leaves behind; any other
result rolls the call back. Storage lifetimes (`extend_ttl`) have no effect on
what the entrypoints compute and are kept apart.
-/

namespace NexusHub

/-! ## Host operations -/

/-- `if c { return Err(e) }` -/
def returnIf (c : Prop) [Decidable c] (e : EscrowError) : Except Failure Unit :=
  if c then .error (.error e) else .ok ()

/-- The contract's own address signs nothing. -/
def requireAuth (env : Env) (a : Address) : Except Failure Unit :=
  if a ≠ env.contract ∧ a ∈ env.signers then .ok () else .error .trap

def checkedI128 (x : Int) : Except Failure Int :=
  if FitsI128 x then .ok x else .error .trap

def checkedU32 (x : Nat) : Except Failure Nat :=
  if x < 2 ^ 32 then .ok x else .error .trap

/-- The standard token: it moves the amount or traps. -/
def transferToken (h : Host) (token src dst : Address) (amount : Int) : Except Failure Host :=
  if amount < 0 ∨ h.balances token src < amount then .error .trap
  else
    let t := ⟨token, src, dst, amount⟩
    .ok { h with balances := h.balances.move t, transfers := h.transfers ++ [t] }

/-! ## Internal helpers -/

def maxFeeBps : Nat := 1000

def minDisputeDelay : Nat := 43200

def maxExtraDisputeDelay : Nat := 2592000

def computeFee (amount : Int) (feeBps : Nat) : Except Failure Int := do
  let product ← checkedI128 (amount * feeBps)
  return product.tdiv 10000

/-- The freelancer gets the amount minus the fee, the admin the fee. -/
def doRelease (env : Env) (h : Host) (record : EscrowRecord) : Except Failure Host := do
  let freelancerAmount ← checkedI128 (record.amount - record.platformFee)
  let h ← transferToken h record.token env.contract record.freelancer freelancerAmount
  if record.platformFee > 0 then
    transferToken h record.token env.contract record.admin record.platformFee
  else return h

namespace NexusEscrow

/-! ## Administration -/

def initializeContract (env : Env) (h : Host) (admin : Address) (feeBps : UInt32) : Except Failure Host := do
  returnIf h.storage.admin.isSome .alreadyExists
  returnIf (feeBps.toNat > maxFeeBps) .feeTooHigh
  requireAuth env admin
  return { h with storage := ((h.storage.setAdmin admin).setFeeBps feeBps.toNat).setPaused false }

def setFee (env : Env) (h : Host) (newFeeBps : UInt32) : Except Failure Host := do
  let admin ← h.storage.getAdmin
  requireAuth env admin
  returnIf (newFeeBps.toNat > maxFeeBps) .feeTooHigh
  return { h with storage := h.storage.setFeeBps newFeeBps.toNat }

def setPaused (env : Env) (h : Host) (paused : Bool) : Except Failure Host := do
  let admin ← h.storage.getAdmin
  requireAuth env admin
  return { h with storage := h.storage.setPaused paused }

def transferAdmin (env : Env) (h : Host) (newAdmin : Address) : Except Failure Host := do
  let oldAdmin ← h.storage.getAdmin
  requireAuth env oldAdmin
  return { h with storage := h.storage.setAdmin newAdmin }.emit (.adminTransferred oldAdmin newAdmin)

/-! ## Creating and funding -/

def initEscrow (env : Env) (h : Host) (escrowId : Bytes) (client freelancer token : Address) (amount : I128)
    (milestoneHash : Bytes) (description : String) (disputeDelay milestonesTotal expiryLedger : UInt32) :
    Except Failure Host := do
  returnIf h.storage.isPaused .contractPaused
  returnIf (amount.val ≤ 0) .invalidAmount
  returnIf (disputeDelay.toNat > maxExtraDisputeDelay) .invalidDelay
  returnIf (expiryLedger.toNat > 0 ∧ expiryLedger.toNat ≤ env.sequence) .invalidExpiry
  returnIf (h.storage.escrowExists escrowId) .alreadyExists
  requireAuth env client
  let platformFee ← computeFee amount.val h.storage.getFeeBps
  returnIf (platformFee ≥ amount.val) .feeTooHigh
  let admin ← h.storage.getAdmin
  let earliest ← checkedU32 (env.sequence + minDisputeDelay)
  let deadline ← checkedU32 (earliest + disputeDelay.toNat)
  let record : EscrowRecord := {
    escrowId, client, freelancer, admin, token, amount := amount.val, platformFee, status := .pending,
    milestoneHash, disputeDeadlineLedger := deadline, fundedLedger := 0,
    milestonesTotal := milestonesTotal.toNat, milestonesCompleted := 0, expiryLedger := expiryLedger.toNat,
    clientApproved := false, freelancerApproved := false, description }
  return (h.saveEscrow record).emit (.initialized escrowId client freelancer amount.val)

def fund (env : Env) (h : Host) (escrowId : Bytes) : Except Failure Host := do
  returnIf h.storage.isPaused .contractPaused
  let record ← h.storage.loadEscrow escrowId
  returnIf (record.status ≠ .pending) .invalidStatus
  requireAuth env record.client
  let h ← transferToken h record.token record.client env.contract record.amount
  let record := { record with status := .funded, fundedLedger := env.sequence }
  return (h.saveEscrow record).emit (.funded escrowId record.client record.amount env.sequence)

def activate (env : Env) (h : Host) (escrowId : Bytes) : Except Failure Host := do
  returnIf h.storage.isPaused .contractPaused
  let record ← h.storage.loadEscrow escrowId
  returnIf (record.status ≠ .funded) .invalidStatus
  requireAuth env record.client
  let record := { record with status := .active }
  return (h.saveEscrow record).emit (.activated escrowId env.sequence)

/-! ## Settling -/

def release (env : Env) (h : Host) (escrowId : Bytes) (expectedHash : Option Bytes) : Except Failure Host := do
  returnIf h.storage.isPaused .contractPaused
  let record ← h.storage.loadEscrow escrowId
  returnIf (record.status ≠ .funded ∧ record.status ≠ .active) .invalidStatus
  requireAuth env record.client
  returnIf (∃ hash ∈ expectedHash, hash ≠ record.milestoneHash) .milestoneHashMismatch
  let freelancerAmount ← checkedI128 (record.amount - record.platformFee)
  let h ← doRelease env h record
  let record := { record with status := .released }
  return (h.saveEscrow record).emit (.released escrowId record.freelancer freelancerAmount record.platformFee)

def refund (env : Env) (h : Host) (escrowId : Bytes) : Except Failure Host := do
  returnIf h.storage.isPaused .contractPaused
  let record ← h.storage.loadEscrow escrowId
  returnIf (record.status ≠ .funded ∧ record.status ≠ .active ∧ record.status ≠ .disputed) .invalidStatus
  requireAuth env record.admin
  let h ← transferToken h record.token env.contract record.client record.amount
  let record := { record with status := .refunded }
  return (h.saveEscrow record).emit (.refunded escrowId record.client record.amount)

/-- No pause check. -/
def cancel (env : Env) (h : Host) (escrowId : Bytes) (caller : Address) : Except Failure Host := do
  let record ← h.storage.loadEscrow escrowId
  returnIf (record.status ≠ .pending) .invalidStatus
  requireAuth env caller
  returnIf (caller ≠ record.client ∧ caller ≠ record.admin) .unauthorized
  let record := { record with status := .cancelled }
  return (h.saveEscrow record).emit (.cancelled escrowId)

/-! ## Disputes -/

def raiseDispute (env : Env) (h : Host) (escrowId : Bytes) (caller : Address) : Except Failure Host := do
  returnIf h.storage.isPaused .contractPaused
  let record ← h.storage.loadEscrow escrowId
  returnIf (record.status ≠ .funded ∧ record.status ≠ .active) .invalidStatus
  requireAuth env caller
  returnIf (caller ≠ record.client ∧ caller ≠ record.freelancer) .unauthorized
  -- the deadline binds whoever is the freelancer, the client in that role too
  returnIf (caller = record.freelancer ∧ env.sequence < record.disputeDeadlineLedger) .disputeNotReady
  let record := { record with clientApproved := false, freelancerApproved := false, status := .disputed }
  return (h.saveEscrow record).emit (.disputed escrowId caller)

def resolveDispute (env : Env) (h : Host) (escrowId : Bytes) (releaseToFreelancer : Bool) :
    Except Failure Host := do
  returnIf h.storage.isPaused .contractPaused
  let record ← h.storage.loadEscrow escrowId
  returnIf (record.status ≠ .disputed) .invalidStatus
  requireAuth env record.admin
  if releaseToFreelancer then
    let freelancerAmount ← checkedI128 (record.amount - record.platformFee)
    let h ← transferToken h record.token env.contract record.freelancer freelancerAmount
    let h ← if record.platformFee > 0 then
        transferToken h record.token env.contract record.admin record.platformFee
      else pure h
    let record := { record with status := .released }
    return (h.saveEscrow record).emit (.disputeResolved escrowId record.freelancer)
  else
    let h ← transferToken h record.token env.contract record.client record.amount
    let record := { record with status := .refunded }
    return (h.saveEscrow record).emit (.disputeResolved escrowId record.client)

/-! ## Milestones, expiry and approvals -/

def completeMilestone (env : Env) (h : Host) (escrowId : Bytes) : Except Failure Host := do
  returnIf h.storage.isPaused .contractPaused
  let record ← h.storage.loadEscrow escrowId
  returnIf (record.status ≠ .funded ∧ record.status ≠ .active) .invalidStatus
  requireAuth env record.freelancer
  returnIf (record.milestonesTotal = 0) .invalidMilestone
  returnIf (record.milestonesCompleted ≥ record.milestonesTotal) .allMilestonesComplete
  let completed ← checkedU32 (record.milestonesCompleted + 1)
  let record := { record with milestonesCompleted := completed }
  return (h.saveEscrow record).emit
    (.milestoneCompleted escrowId record.milestonesCompleted record.milestonesTotal)

/-- Neither a pause check nor an authorisation. -/
def claimExpired (env : Env) (h : Host) (escrowId : Bytes) : Except Failure Host := do
  let record ← h.storage.loadEscrow escrowId
  returnIf (record.status ≠ .funded ∧ record.status ≠ .active) .invalidStatus
  returnIf (record.expiryLedger = 0 ∨ env.sequence < record.expiryLedger) .escrowNotExpired
  let h ← transferToken h record.token env.contract record.client record.amount
  let record := { record with status := .refunded }
  return (h.saveEscrow record).emit (.refunded escrowId record.client record.amount)

def approveRelease (env : Env) (h : Host) (escrowId : Bytes) (approver : Address) : Except Failure Host := do
  returnIf h.storage.isPaused .contractPaused
  let record ← h.storage.loadEscrow escrowId
  returnIf (record.status ≠ .funded ∧ record.status ≠ .active) .invalidStatus
  requireAuth env approver
  let record ←
    if approver = record.client then pure { record with clientApproved := true }
    else if approver = record.freelancer then pure { record with freelancerApproved := true }
    else .error (.error .unauthorized)
  let h := (h.saveEscrow record).emit
    (.approvalRecorded escrowId approver record.clientApproved record.freelancerApproved)
  if record.clientApproved ∧ record.freelancerApproved then
    let freelancerAmount ← checkedI128 (record.amount - record.platformFee)
    let h ← doRelease env h record
    let record := { record with status := .released }
    return (h.saveEscrow record).emit (.released escrowId record.freelancer freelancerAmount record.platformFee)
  else return h

/-! ## Views -/

def getEscrow (s : Storage) (escrowId : Bytes) : Except Failure EscrowRecord := s.loadEscrow escrowId

def computeFeeView (s : Storage) (amount : I128) : Except Failure Int := computeFee amount.val s.getFeeBps

end NexusEscrow

/-! ## Calls -/

inductive Call where
  | initializeContract (admin : Address) (feeBps : UInt32)
  | setFee (newFeeBps : UInt32)
  | setPaused (paused : Bool)
  | transferAdmin (newAdmin : Address)
  | initEscrow (escrowId : Bytes) (client freelancer token : Address) (amount : I128) (milestoneHash : Bytes)
      (description : String) (disputeDelay milestonesTotal expiryLedger : UInt32)
  | fund (escrowId : Bytes)
  | activate (escrowId : Bytes)
  | release (escrowId : Bytes) (expectedHash : Option Bytes)
  | refund (escrowId : Bytes)
  | cancel (escrowId : Bytes) (caller : Address)
  | raiseDispute (escrowId : Bytes) (caller : Address)
  | resolveDispute (escrowId : Bytes) (releaseToFreelancer : Bool)
  | completeMilestone (escrowId : Bytes)
  | claimExpired (escrowId : Bytes)
  | approveRelease (escrowId : Bytes) (approver : Address)
  deriving DecidableEq, Repr

def Call.escrowId? : Call → Option Bytes
  | initializeContract .. | setFee _ | setPaused _ | transferAdmin _ => none
  | initEscrow id .. | fund id | activate id | release id _ | refund id | cancel id _ | raiseDispute id _
  | resolveDispute id _ | completeMilestone id | claimExpired id | approveRelease id _ => some id

def Call.exec (env : Env) (h : Host) : Call → Except Failure Host
  | initializeContract admin feeBps => NexusEscrow.initializeContract env h admin feeBps
  | setFee newFeeBps => NexusEscrow.setFee env h newFeeBps
  | setPaused paused => NexusEscrow.setPaused env h paused
  | transferAdmin newAdmin => NexusEscrow.transferAdmin env h newAdmin
  | initEscrow id client freelancer token amount hash description delay total expiry =>
    NexusEscrow.initEscrow env h id client freelancer token amount hash description delay total expiry
  | fund id => NexusEscrow.fund env h id
  | activate id => NexusEscrow.activate env h id
  | release id hash => NexusEscrow.release env h id hash
  | refund id => NexusEscrow.refund env h id
  | cancel id caller => NexusEscrow.cancel env h id caller
  | raiseDispute id caller => NexusEscrow.raiseDispute env h id caller
  | resolveDispute id toFreelancer => NexusEscrow.resolveDispute env h id toFreelancer
  | completeMilestone id => NexusEscrow.completeMilestone env h id
  | claimExpired id => NexusEscrow.claimExpired env h id
  | approveRelease id approver => NexusEscrow.approveRelease env h id approver

end NexusHub
