import NexusHub.Handover
import NexusHub.Settlement

/-!
# The right to dispute

The client of an open escrow may dispute it at any time, the freelancer from the
ledger fixed when the escrow was created. The contract asks both questions of a
caller who is both, and keeps such a client waiting.
-/

namespace NexusHub

/-! ## The deadline -/

/-- For the receipt of a creation: the ledger from which the freelancer may dispute. -/
def Receipt.disputableFrom (rc : Receipt) : Nat :=
  match rc.call with
  | .initEscrow _ _ _ _ _ _ _ delay _ _ => rc.sequence + minDisputeDelay + delay.toNat
  | _ => 0

namespace Ledger

def disputableFrom (l : Ledger) (id : Bytes) : Nat := (receiptsOf id l.history).head?.elim 0 Receipt.disputableFrom

def DeadlinesKept (l : Ledger) : Prop :=
  ∀ id r, l.storage.escrows.lookup id = some r → r.disputeDeadlineLedger = l.disputableFrom id

variable {self : Address} {l : Ledger} {id : Bytes} {r : EscrowRecord}

theorem disputableFrom_created {signers : List Address} {client freelancer token : Address} {amount : I128}
    {hash : Bytes} {description : String} {delay total expiry : UInt32} {h : Host} (hl : l.Reachable self)
    (hn : l.storage.escrows.lookup id = none) :
    (l.commit signers (.initEscrow id client freelancer token amount hash description delay total expiry)
      h).disputableFrom id = l.sequence + minDisputeDelay + delay.toNat := by
  have hempty : receiptsOf id l.history = [] := (hl.accounted id).absent hn
  simp only [disputableFrom, commit, receiptsOf_append, hempty, receiptsOf_call, List.nil_append]
  rw [if_pos (show Call.escrowId? _ = some id from rfl)]
  rfl

theorem disputableFrom_of_stored {signers : List Address} {call : Call} {h : Host} (hl : l.Reachable self)
    (hr : l.storage.escrows.lookup id = some r) :
    (l.commit signers call h).disputableFrom id = l.disputableFrom id := by
  obtain ⟨rc, rest, hrcs, -⟩ := (hl.accounted id).created r hr
  have hrcs : receiptsOf id l.history = rc :: rest := hrcs
  simp only [disputableFrom, commit, receiptsOf_append, hrcs, List.cons_append, List.head?_cons]

theorem DeadlinesKept.commit (hl : l.Reachable self) (hd : l.DeadlinesKept) {signers : List Address} {call : Call}
    {h : Host} (hx : call.exec (l.env self signers) l.host = .ok h) :
    (l.commit signers call h).DeadlinesKept := by
  intro id r' hr'
  have hr' : h.storage.escrows.lookup id = some r' := hr'
  by_cases hid : call.escrowId? = some id
  · cases hr : l.storage.escrows.lookup id with
    | some r =>
      obtain ⟨-, hlook⟩ := exec_changes (h := l.host) hl.storage_ok hid hr hx
      obtain rfl := Option.some.inj (hr'.symm.trans hlook)
      rw [disputableFrom_of_stored hl hr, ← hd id r hr]
      exact EscrowRecord.get_of_terms (call.change_terms _ r) (·.disputeDeadlineLedger) fun _ => rfl
    | none =>
      rcases exec_cases hx with hc | ⟨k, r, hc, -⟩ | ⟨k, hk, r, hr₀, -⟩
      · exact absurd (hc.named.symm.trans hid) nofun
      · obtain ⟨amount, delay, total, expiry, -, rfl⟩ := hc.call_eq
        obtain rfl : k = id := Option.some.inj hid
        obtain ⟨-, -, -, -, -, -, -, -, -, admin, -, rfl⟩ := initEscrow_ok.mp hx
        rw [disputableFrom_created hl hr]
        have hlook := hr'.symm.trans (Finmap.lookup_insert _)
        rw [Option.some.inj hlook]
        rfl
      · obtain rfl : k = id := Option.some.inj (hk.symm.trans hid)
        exact absurd (hr.symm.trans hr₀) nofun
  · rw [exec_lookup_ne hl.storage_ok hx hid] at hr'
    rw [hd id r' hr']
    simp [disputableFrom, Ledger.commit, receiptsOf_append, receiptsOf_call, hid]

theorem Reachable.deadlinesKept (hl : l.Reachable self) : l.DeadlinesKept := by
  refine reachable_inv DeadlinesKept (fun _ _ _ _ h => nomatch h) (fun _ _ h => h) (fun l t h _ _ _ id r hr => ?_)
    (fun _ _ _ _ hl h hx => h.commit hl hx) hl
  rw [h id r hr]
  simp [disputableFrom, receiptsOf_append]

/-! ## Who may dispute -/

/-- What the parties of an open escrow are promised on a contract that is not paused. -/
structure DisputeRights (contract : Address) (l : Ledger) (id : Bytes) (r : EscrowRecord) : Prop where
  client : ∀ signers, (l.env contract signers).Signed r.client →
    l.Succeeds contract signers (.raiseDispute id r.client)
  freelancer : r.freelancer ≠ r.client → ∀ signers, (l.env contract signers).Signed r.freelancer →
    (l.Succeeds contract signers (.raiseDispute id r.freelancer) ↔ l.disputableFrom id ≤ l.sequence)
  others : ∀ signers caller, (l.env contract signers).Signed caller → caller ≠ r.client → caller ≠ r.freelancer →
    ¬ l.Succeeds contract signers (.raiseDispute id caller)
  unsigned : ∀ signers caller, ¬ (l.env contract signers).Signed caller →
    ¬ l.Succeeds contract signers (.raiseDispute id caller)
  refused : ∀ signers caller, ¬ l.Succeeds contract signers (.raiseDispute id caller) →
    l.invoke contract signers (.raiseDispute id caller) = l
  effect : ∀ signers caller, l.Succeeds contract signers (.raiseDispute id caller) →
    let l' := l.invoke contract signers (.raiseDispute id caller)
    l'.storage = { l.storage with
        escrows := l.storage.escrows.insert id
          { r with clientApproved := false, freelancerApproved := false, status := .disputed } } ∧
      l'.balances = l.balances ∧ l'.sequence = l.sequence

theorem raiseDispute_succeeds_iff (hp : l.storage.isPaused = false)
    (hr : l.storage.escrows.lookup id = some r) (hop : r.Open) {signers : List Address} {caller : Address} :
    l.Succeeds self signers (.raiseDispute id caller) ↔
      (l.env self signers).Signed caller ∧ (caller = r.client ∨ caller = r.freelancer) ∧
        (caller = r.freelancer → r.disputeDeadlineLedger ≤ l.sequence) := by
  constructor
  · intro h
    obtain ⟨-, -, hsig, hparty, hlate⟩ := admits_of_succeeds rfl hr h
    exact ⟨hsig, hparty, hlate⟩
  · rintro ⟨hsig, hparty, hlate⟩
    exact succeeds_of_admits rfl hr ⟨hp, hop, hsig, hparty, hlate⟩ trivial trivial

theorem invoke_of_fails {signers : List Address} {call : Call} (h : ¬ l.Succeeds self signers call) :
    l.invoke self signers call = l := by
  rcases invoke_cases self l signers call with ⟨h', hx, -⟩ | he
  · exact absurd ⟨h', hx⟩ h
  · exact he

theorem raiseDispute_effect (hl : l.Reachable self) (hr : l.storage.escrows.lookup id = some r)
    {signers : List Address} {caller : Address} (h : l.Succeeds self signers (.raiseDispute id caller)) :
    let l' := l.invoke self signers (.raiseDispute id caller)
    l'.storage = { l.storage with
        escrows := l.storage.escrows.insert id
          { r with clientApproved := false, freelancerApproved := false, status := .disputed } } ∧
      l'.balances = l.balances ∧ l'.sequence = l.sequence := by
  obtain ⟨h', hx⟩ := h
  obtain ⟨-, rfl⟩ := updates_of_exec rfl hr hx
  have hkey : r.escrowId = id := (hl.storage_ok.records id r hr).keyed
  simp only [invoke, hx]
  refine ⟨?_, rfl, rfl⟩
  subst hkey
  rfl

/-- In every reachable ledger the parties of an open escrow have their rights, unless its client is also its
freelancer and the deadline has not come. -/
theorem dispute_rights_iff (hl : l.Reachable self) (hp : l.storage.isPaused = false)
    (hr : l.storage.escrows.lookup id = some r) (hop : r.Open) :
    l.DisputeRights self id r ↔ (r.client = r.freelancer → l.disputableFrom id ≤ l.sequence) := by
  have hdeadline := hl.deadlinesKept id r hr
  have hiff {signers : List Address} {caller : Address} :
      l.Succeeds self signers (.raiseDispute id caller) ↔ _ := raiseDispute_succeeds_iff hp hr hop
  rw [hdeadline] at hiff
  constructor
  · intro h heq
    have hne : r.client ≠ self := (hl.accounted id).client r hr
    exact (hiff.mp (h.client [r.client] ⟨hne, List.mem_singleton_self _⟩)).2.2 heq
  · intro h
    refine ⟨fun signers hsig => hiff.mpr ⟨hsig, .inl rfl, h⟩, fun hne signers hsig => ?_,
      fun signers caller _ hc hf hs => ?_, fun signers caller hsig hs => hsig (hiff.mp hs).1,
      fun signers caller => invoke_of_fails, fun signers caller => raiseDispute_effect hl hr⟩
    · exact ⟨fun hs => (hiff.mp hs).2.2 rfl, fun hlate => hiff.mpr ⟨hsig, .inr rfl, fun _ => hlate⟩⟩
    · exact (hiff.mp hs).2.1.elim hc hf

end Ledger

theorem sample_dispute_rights : sampleLedger.DisputeRights ⟨0⟩ [7] sampleRecord :=
  (Ledger.dispute_rights_iff sample_reachable (by decide +kernel) sample_lookup (.inl rfl)).mpr
    fun h => absurd h (by decide)

/-! ## A client who is the freelancer -/

def sampleSelfDealt : Ledger := run (Ledger.step ⟨0⟩) (Ledger.genesis sampleBalances) [
  .invoke [⟨3⟩] (.initializeContract ⟨3⟩ 100),
  .invoke [⟨1⟩] (.initEscrow [7] ⟨1⟩ ⟨1⟩ ⟨9⟩ sampleAmount [] "" 0 2 0),
  .invoke [⟨1⟩] (.fund [7])]

/-- Client and freelancer 1 disputes at once and is told to wait. -/
theorem self_dealer_waits : ¬ ∀ (self : Address) (l : Ledger) (id : Bytes) (r : EscrowRecord), l.Reachable self →
    l.storage.isPaused = false → l.storage.escrows.lookup id = some r → r.Open → l.DisputeRights self id r := by
  intro h
  have hrights := h ⟨0⟩ sampleSelfDealt [7] { sampleRecord with freelancer := ⟨1⟩ }
    ⟨sampleBalances, _, fun T => by simp [sampleBalances], rfl⟩ (by decide +kernel) (by decide +kernel) (.inl rfl)
  have hsucceeds := hrights.client [⟨1⟩] (by decide)
  exact absurd hsucceeds (by decide +kernel)

end NexusHub
