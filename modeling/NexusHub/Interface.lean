import NexusHub.Stellar

/-!
# The worker's calls and the contract's interface

The seven methods of the Stellar service build the argument lists of the
entrypoints of the same names. Six of them are dispatched as the call that was
meant, on all values; the list for `release` has an argument too many.
-/

namespace NexusHub

/-- A method of the service with the values its caller passes; ids are UUIDs in their canonical form. -/
inductive ServiceCall where
  | initEscrow (escrowId : Uuid) (client freelancer : Address) (amount : Int) (milestoneHash description : String)
      (disputeDelay milestonesTotal expiryLedger : Nat)
  | fundEscrow (escrowId : Uuid) (client : Address)
  | releaseEscrow (escrowId : Uuid) (client : Address) (milestoneHash : String)
  | refundEscrow (escrowId : Uuid)
  | approveRelease (escrowId : Uuid) (approver : Address)
  | completeMilestone (escrowId : Uuid) (freelancer : Address)
  | claimExpired (escrowId : Uuid)
  deriving DecidableEq

namespace ServiceCall

variable (s : Stellar)

def handler : ServiceCall → Handler TxHash
  | initEscrow id client freelancer amount hash description delay total expiry =>
    s.initEscrow id.text client freelancer amount hash description delay total expiry
  | fundEscrow id client => s.fundEscrow id.text client
  | releaseEscrow id client hash => s.releaseEscrow id.text client hash
  | refundEscrow id => s.refundEscrow id.text
  | approveRelease id approver => s.approveRelease id.text approver
  | completeMilestone id freelancer => s.completeMilestone id.text freelancer
  | claimExpired id => s.claimExpired id.text

/-- The call of the contract that is meant, `none` where a number does not fit its type. -/
def intended : ServiceCall → Option Call
  | initEscrow id client freelancer amount hash description delay total expiry => do
    let amount ← Stellar.toI128 amount
    let delay ← Stellar.toU32 delay
    let total ← Stellar.toU32 total
    let expiry ← Stellar.toU32 expiry
    return .initEscrow id.bytes client freelancer s.tokenContract amount (bufferFromHex hash) description delay
      total expiry
  | fundEscrow id _ => some (.fund id.bytes)
  | releaseEscrow id _ hash => some (.release id.bytes (some (bufferFromHex hash)))
  | refundEscrow id => some (.refund id.bytes)
  | approveRelease id approver => some (.approveRelease id.bytes approver)
  | completeMilestone id _ => some (.completeMilestone id.bytes)
  | claimExpired id => some (.claimExpired id.bytes)

/-- Whose keys sign besides the admin's. -/
def signers : ServiceCall → List Address
  | initEscrow _ client .. | fundEscrow _ client | releaseEscrow _ client _ => [client]
  | approveRelease _ approver => [approver]
  | completeMilestone _ freelancer => [freelancer]
  | refundEscrow _ | claimExpired _ => []

end ServiceCall

/-- The contract call a handler submits first, if it does so before anything else. -/
def Handler.submission {α : Type} : Handler α → Option (String × List ScVal × List Address)
  | .op (.submit method args signers) _ => some (method, args, signers)
  | _ => none

/-- What is submitted is dispatched as the intended call, with the signatures it
takes; nothing is submitted for numbers that do not fit. -/
def ServiceCall.Matches (s : Stellar) (c : ServiceCall) : Prop :=
  match (c.handler s).submission with
  | some (method, args, signers) =>
    ∃ call, c.intended s = some call ∧ dispatch method args = some call ∧ signers = s.adminKey :: c.signers
  | none => c.intended s = none

variable {s : Stellar}

theorem initEscrow_matches (id : Uuid) (client freelancer : Address) (amount : Int) (hash description : String)
    (delay total expiry : Nat) :
    (ServiceCall.initEscrow id client freelancer amount hash description delay total expiry).Matches s := by
  unfold ServiceCall.Matches
  simp only [ServiceCall.handler, ServiceCall.intended, Stellar.initEscrow]
  cases Stellar.toI128 amount with
  | none => rfl
  | some amount =>
    cases Stellar.toU32 delay with
    | none => rfl
    | some delay =>
      cases Stellar.toU32 total with
      | none => rfl
      | some total =>
        cases Stellar.toU32 expiry with
        | none => rfl
        | some expiry => exact ⟨_, rfl, by rw [bufferFromHex_stripHyphens]; rfl, rfl⟩

theorem releaseEscrow_not_matches (id : Uuid) (client : Address) (hash : String) :
    ¬ (ServiceCall.releaseEscrow id client hash).Matches s := fun ⟨_, _, h, _⟩ => nomatch h

/-- Every method of the service but `releaseEscrow` submits the intended call, whatever it is passed. -/
theorem matches_iff_not_release (s : Stellar) (c : ServiceCall) :
    c.Matches s ↔ ∀ id client hash, c ≠ .releaseEscrow id client hash := by
  cases c with
  | releaseEscrow id client hash =>
    exact iff_of_false (releaseEscrow_not_matches id client hash) fun h => h id client hash rfl
  | initEscrow id client freelancer amount hash description delay total expiry =>
    exact iff_of_true (initEscrow_matches id client freelancer amount hash description delay total expiry) nofun
  | fundEscrow id | refundEscrow id | approveRelease id | completeMilestone id | claimExpired id =>
    exact iff_of_true ⟨_, rfl, by rw [escrowIdToBytes_text]; rfl, rfl⟩ nofun

theorem release_not_dispatched : ¬ (ServiceCall.releaseEscrow ⟨List.replicate 16 7, rfl⟩ ⟨1⟩ "").Matches
    ⟨⟨0⟩, ⟨3⟩, "admin key", ⟨9⟩, fun _ => some ⟨1⟩, fun _ => ""⟩ :=
  fun ⟨_, _, h, _⟩ => nomatch h

end NexusHub
