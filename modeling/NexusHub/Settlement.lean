import NexusHub.Ledger

/-!
# Exactly-once settlement

The transfers of the calls naming an escrow are determined by its record: each
call appends to them exactly what the change of status accounts for.
-/

namespace NexusHub

/-! ## The transfers a record accounts for -/

def EscrowRecord.settlement (self : Address) (r : EscrowRecord) : List Transfer :=
  match r.status with
  | .pending | .cancelled => []
  | .funded | .active | .disputed => [r.deposit self]
  | .released => r.deposit self :: r.payout self
  | .refunded => [r.deposit self, r.repayment self]

def EscrowRecord.Settled (r : EscrowRecord) : Prop := r.status = .released ∨ r.status = .refunded

instance (r : EscrowRecord) : Decidable r.Settled := inferInstanceAs (Decidable (_ ∨ _))

def EscrowRecord.Closed (r : EscrowRecord) : Prop := r.Settled ∨ r.status = .cancelled

/-- Token paid by others, and token paid by the contract. -/
def inflow (self : Address) (ts : List Transfer) : Int := ((ts.filter (·.src ≠ self)).map (·.amount)).sum

def outflow (self : Address) (ts : List Transfer) : Int := ((ts.filter (·.src = self)).map (·.amount)).sum

section
variable {self : Address} {r : EscrowRecord}

theorem settlement_of_open (h : r.Open) : r.settlement self = [r.deposit self] := by
  unfold EscrowRecord.settlement
  rcases h with h | h <;> rw [h]

theorem settlement_of_disputed (h : r.status = .disputed) : r.settlement self = [r.deposit self] := by
  unfold EscrowRecord.settlement; rw [h]

theorem settlement_of_pending (h : r.status = .pending) : r.settlement self = [] := by
  unfold EscrowRecord.settlement; rw [h]

theorem settled_flows (hc : r.client ≠ self) (hf : 0 ≤ r.platformFee) (hs : r.Settled) :
    inflow self (r.settlement self) = r.amount ∧ outflow self (r.settlement self) = r.amount := by
  unfold EscrowRecord.settlement
  rcases hs with hs | hs
  · rw [hs]
    simp only [inflow, outflow, EscrowRecord.deposit, EscrowRecord.payout]
    split <;> simp [hc]; omega
  · rw [hs]
    simp [inflow, outflow, EscrowRecord.deposit, EscrowRecord.repayment, hc]

end

/-- Pending, or the money is in: the statuses calls act on. -/
def EscrowRecord.Live (r : EscrowRecord) : Prop := r.status = .pending ∨ r.Open ∨ r.status = .disputed

theorem Call.Admits.live {env : Env} {paused : Bool} {r : EscrowRecord} {call : Call}
    (h : call.Admits env paused r) : r.Live := by
  cases call with
  | initializeContract | setFee | setPaused | transferAdmin | initEscrow => exact h.elim
  | fund => exact .inl h.2.1
  | activate => exact .inr (.inl (.inl h.2.1))
  | refund => exact .inr h.2.1
  | cancel => exact .inl h.1
  | resolveDispute => exact .inr (.inr h.2.1)
  | claimExpired => exact .inr (.inl h.1)
  | release | raiseDispute | completeMilestone | approveRelease => exact .inr (.inl h.2.1)

theorem EscrowRecord.Live.not_closed {r : EscrowRecord} (h : r.Live) : ¬ r.Closed := by
  unfold Closed Settled
  rcases h with h | (h | h) | h <;> simp [h]

/-- A call appends to the transfers what its change of status accounts for. -/
theorem settlement_change {env : Env} {paused : Bool} {r : EscrowRecord} {call : Call}
    (h : call.Admits env paused r) :
    (call.change env r).record.settlement env.contract =
      r.settlement env.contract ++ (call.change env r).transfers := by
  cases call with
  | initializeContract | setFee | setPaused | transferAdmin | initEscrow => exact h.elim
  | fund => rw [settlement_of_pending h.2.1]; rfl
  | activate => rw [settlement_of_open (.inl h.2.1)]; rfl
  | release => rw [settlement_of_open h.2.1]; rfl
  | refund =>
    have hs : r.settlement env.contract = [r.deposit env.contract] :=
      h.2.1.elim settlement_of_open settlement_of_disputed
    rw [hs]; rfl
  | cancel => rw [settlement_of_pending h.1]; rfl
  | raiseDispute => rw [settlement_of_open h.2.1]; rfl
  | resolveDispute _ toFreelancer =>
    rw [settlement_of_disputed h.2.1]
    cases toFreelancer <;> rfl
  | completeMilestone => rw [settlement_of_open h.2.1]; exact settlement_of_open h.2.1
  | claimExpired => rw [settlement_of_open h.1]; rfl
  | approveRelease id approver =>
    rw [settlement_of_open h.2.1]
    simp only [Call.change]
    split
    · rfl
    · exact settlement_of_open (r := r.approve approver) h.2.1

/-! ## Every run -/

def transfersOf (id : Bytes) (history : List Entry) : List Transfer :=
  (receiptsOf id history).flatMap (·.transfers)

/-- The receipts start with the `initEscrow` that fixed the terms of `r`. -/
def CreatedBy (id : Bytes) (r : EscrowRecord) (rcs : List Receipt) : Prop :=
  ∃ rc rest, rcs = rc :: rest ∧ r.client ∈ rc.signers ∧
    ∃ (amount : I128) (delay total expiry : UInt32), amount.val = r.amount ∧
      rc.call = .initEscrow id r.client r.freelancer r.token amount r.milestoneHash r.description delay
        total expiry

/-- The receipts of an escrow account for its record. -/
structure View.Accounted (contract : Address) (id : Bytes) (v : View) : Prop where
  absent : v.record = none → v.receipts = []
  paid : ∀ r, v.record = some r → v.receipts.flatMap (·.transfers) = r.settlement contract
  client : ∀ r, v.record = some r → r.client ≠ contract
  created : ∀ r, v.record = some r → CreatedBy id r v.receipts

theorem CreatedBy.of_terms {id : Bytes} {r r' : EscrowRecord} {rcs : List Receipt} (h : CreatedBy id r rcs)
    (ht : r'.terms = r.terms) (rcs' : List Receipt) : CreatedBy id r' (rcs ++ rcs') := by
  have h' : CreatedBy id r' rcs := EscrowRecord.of_terms ht h fun _ => rfl
  obtain ⟨rc, rest, rfl, hcreated⟩ := h'
  exact ⟨rc, rest ++ rcs', rfl, hcreated⟩

theorem View.Accounted.move {self : Address} {id : Bytes} {l : Ledger} {v v' : View}
    (hm : View.Moves self id l v v') (h : v.Accounted self id) : v'.Accounted self id := by
  cases hm with
  | create hc hr =>
    obtain rfl := h.absent rfl
    refine ⟨fun h => by simp at h, ?_, ?_, ?_⟩
    · rintro _ ⟨⟩; simp [Env.receipt, settlement_of_pending hc.pending]
    · rintro _ ⟨⟩; exact hc.client_signed.1
    · rintro _ ⟨⟩; exact ⟨_, [], rfl, hc.client_signed.2, hc.call_eq⟩
  | @update signers call r rcs hid hr ha =>
    have ht := call.change_terms (l.env self signers) r
    refine ⟨fun h => by simp at h, ?_, ?_, ?_⟩
    · rintro _ ⟨⟩
      have h1 := settlement_change ha
      rw [Ledger.env_contract] at h1
      rw [h1, ← h.paid r rfl]; simp [Env.receipt]
    · rintro _ ⟨⟩
      rw [EscrowRecord.get_of_terms ht (·.client) fun _ => rfl]; exact h.client r rfl
    · rintro _ ⟨⟩; exact (h.created r rfl).of_terms ht _

theorem Ledger.Reachable.accounted {self : Address} {l : Ledger} (hl : l.Reachable self) (id : Bytes) :
    (l.view id).Accounted self id :=
  view_inv (fun v => v.Accounted self id)
    ⟨fun _ => rfl, fun _ h => (nomatch h), fun _ h => (nomatch h), fun _ h => (nomatch h)⟩
    (fun _ _ _ _ hm h => h.move hm) hl

theorem terms_run {self : Address} {l : Ledger} {id : Bytes} {r : EscrowRecord} (hl : l.Reachable self)
    (hr : l.storage.escrows.lookup id = some r) (as : List Action) :
    ∃ r', (run (Ledger.step self) l as).storage.escrows.lookup id = some r' ∧ r'.terms = r.terms := by
  refine Ledger.view_run (fun v => ∃ r', v.record = some r' ∧ r'.terms = r.terms) ?_ hl ⟨r, hr, rfl⟩ as
  rintro l v v' - hm ⟨r', h, ht⟩
  cases hm with
  | create => cases h
  | update _ _ ha => cases h; exact ⟨_, rfl, (Call.change_terms _ _ _).trans ht⟩

theorem closed_run {self : Address} {l : Ledger} {id : Bytes} {r : EscrowRecord} (hl : l.Reachable self)
    (hr : l.storage.escrows.lookup id = some r) (hc : r.Closed) (as : List Action) :
    (run (Ledger.step self) l as).view id = l.view id := by
  refine Ledger.view_run (fun v => v = l.view id) ?_ hl rfl as
  rintro l' v v' - hm rfl
  have hv : (l.view id).record = some r := hr
  generalize l.view id = w at hm hv
  cases hm with
  | create => cases hv
  | update _ _ ha => cases hv; exact absurd hc ha.live.not_closed

/-- The transfers made for an escrow are those its record accounts for, with
the parties and amounts of its creation; once settled they balance and no
transfer is ever added. -/
theorem settled_exactly_once {self : Address} {l : Ledger} (hl : l.Reachable self) (id : Bytes) :
    (l.storage.escrows.lookup id = none → transfersOf id l.history = []) ∧
    ∀ r, l.storage.escrows.lookup id = some r →
      transfersOf id l.history = r.settlement self ∧
      CreatedBy id r (receiptsOf id l.history) ∧
      (r.Settled → inflow self (transfersOf id l.history) = r.amount ∧
        outflow self (transfersOf id l.history) = r.amount) ∧
      ∀ as, ∃ r', (run (Ledger.step self) l as).storage.escrows.lookup id = some r' ∧ r'.terms = r.terms ∧
        (r.Settled → r' = r ∧ transfersOf id (run (Ledger.step self) l as).history = transfersOf id
        l.history) := by
  have hacc := hl.accounted id
  refine ⟨fun h => ?_, fun r hr => ?_⟩
  · have : receiptsOf id l.history = [] := hacc.absent h
    rw [transfersOf, this]; rfl
  · have hpaid : transfersOf id l.history = r.settlement self := hacc.paid r hr
    refine ⟨hpaid, hacc.created r hr, fun hs => ?_, fun as => ?_⟩
    · rw [hpaid]
      exact settled_flows (hacc.client r hr) (hl.storage_ok.records id r hr).fee_nonneg hs
    · obtain ⟨r', hr', ht⟩ := terms_run hl hr as
      refine ⟨r', hr', ht, fun hs => ?_⟩
      have hv := closed_run hl hr (.inl hs) as
      have h1 : some r' = some r := by rw [← hr', ← hr]; exact congrArg View.record hv
      have h2 : receiptsOf id (run (Ledger.step self) l as).history = receiptsOf id l.history :=
        congrArg View.receipts hv
      exact ⟨Option.some.inj h1, by rw [transfersOf, h2]; rfl⟩

/-- A release settles the escrow; the refund tried after it adds no transfer. -/
theorem sample_settled_flows :
    let l := run (Ledger.step ⟨0⟩) sampleLedger [.invoke [⟨1⟩] (.release [7] none)]
    inflow ⟨0⟩ (transfersOf [7] l.history) = 1000 ∧ outflow ⟨0⟩ (transfersOf [7] l.history) = 1000 ∧
      transfersOf [7] (run (Ledger.step ⟨0⟩) l [.invoke [⟨3⟩] (.refund [7])]).history =
        transfersOf [7] l.history := by
  intro l
  have hr : l.storage.escrows.lookup [7] = some { sampleRecord with status := .released } := by decide +kernel
  obtain ⟨-, -, hflows, hlater⟩ := (settled_exactly_once
    (Ledger.reachable_run sample_reachable [.invoke [⟨1⟩] (.release [7] none)]) [7]).2 _ hr
  obtain ⟨_, -, -, hkept⟩ := hlater [.invoke [⟨3⟩] (.refund [7])]
  exact ⟨(hflows (.inl rfl)).1, (hflows (.inl rfl)).2, (hkept (.inl rfl)).2⟩

end NexusHub
