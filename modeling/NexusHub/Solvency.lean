import NexusHub.Ledger

/-!
# Solvency

All escrows of a token share the contract's one balance. That balance is the
sum of what the contract holds for its escrows plus what it was given: token
sent to it other than through `fund`. Every successful call keeps the equation.
-/

namespace NexusHub

/-! ## What a list of transfers moves -/

def Transfer.net (self T : Address) (t : Transfer) : Int :=
  if t.token = T then (if t.dst = self then t.amount else 0) - (if t.src = self then t.amount else 0) else 0

def Transfer.received (self T : Address) (t : Transfer) : Int :=
  if t.token = T ∧ t.dst = self then t.amount else 0

theorem move_apply (b : Balances) (t : Transfer) (T a : Address) : b.move t T a = b T a + t.net a T := by
  unfold Balances.move Transfer.net
  simp only [@eq_comm _ T, @eq_comm _ a]
  by_cases hT : t.token = T
  · simp only [hT, true_and, ite_true]; omega
  · simp [hT]

theorem pay_apply (b : Balances) (ts : List Transfer) (T a : Address) :
    b.pay ts T a = b T a + (ts.map (Transfer.net a T)).sum := by
  induction ts generalizing b with
  | nil => simp [Balances.pay]
  | cons t ts ih =>
    have h : b.pay (t :: ts) = (b.move t).pay ts := rfl
    rw [h, ih, move_apply, List.map_cons, List.sum_cons, Int.add_assoc]

/-! ## Held and given amounts -/

def EscrowRecord.Held (r : EscrowRecord) : Prop := r.Open ∨ r.status = .disputed

instance (r : EscrowRecord) : Decidable r.Held := inferInstanceAs (Decidable (_ ∨ _))

def EscrowRecord.owed (T : Address) (r : EscrowRecord) : Int := if r.token = T ∧ r.Held then r.amount else 0

/-- The sum of the amounts of the Funded, Active and Disputed escrows in `T`. -/
def Storage.locked (s : Storage) (T : Address) : Int := s.escrows.total (EscrowRecord.owed T)

def Call.isFund : Call → Bool
  | fund _ => true
  | _ => false

/-- The token `T` an entry brings to the contract other than through `fund`. -/
def Entry.gift (self T : Address) : Entry → Int
  | .call rc => if rc.call.isFund then 0 else (rc.transfers.map (Transfer.received self T)).sum
  | .outside t => t.received self T

def gifts (self T : Address) (history : List Entry) : Int := (history.map (Entry.gift self T)).sum

theorem gifts_append (self T : Address) (es fs : List Entry) :
    gifts self T (es ++ fs) = gifts self T es + gifts self T fs := by
  simp [gifts]

theorem gifts_singleton (self T : Address) (e : Entry) : gifts self T [e] = e.gift self T := by
  simp [gifts]

theorem gift_of_not_fund (self T : Address) {rc : Receipt} (h : rc.call.isFund = false) :
    (Entry.call rc).gift self T = (rc.transfers.map (Transfer.received self T)).sum := by
  simp [Entry.gift, h]

theorem gift_of_no_transfer {self T : Address} {rc : Receipt} (h : rc.transfers = []) :
    (Entry.call rc).gift self T = 0 := by
  simp [Entry.gift, h]

/-- Payments the contract makes: the net loss is what is paid less what comes back. -/
theorem net_of_src {self T : Address} {t : Transfer} (h : t.src = self) :
    t.net self T = t.received self T - if t.token = T then t.amount else 0 := by
  unfold Transfer.net Transfer.received
  by_cases hT : t.token = T <;> simp [hT, h]

theorem net_payout (self T : Address) {r : EscrowRecord} (h0 : 0 ≤ r.platformFee) :
    ((r.payout self).map (Transfer.net self T)).sum =
      ((r.payout self).map (Transfer.received self T)).sum - if r.token = T then r.amount else 0 := by
  unfold EscrowRecord.payout
  by_cases hT : r.token = T
  · split
    · simp only [List.map_cons, List.map_nil, List.sum_cons, List.sum_nil, net_of_src, hT, ite_true]; omega
    · simp only [List.map_cons, List.map_nil, List.sum_cons, List.sum_nil, net_of_src, hT, ite_true]; omega
  · split <;> simp [net_of_src, hT]

theorem net_repayment (self T : Address) (r : EscrowRecord) :
    ([r.repayment self].map (Transfer.net self T)).sum =
      ([r.repayment self].map (Transfer.received self T)).sum - if r.token = T then r.amount else 0 := by
  simp only [List.map_cons, List.map_nil, List.sum_cons, List.sum_nil, Int.add_zero]
  exact net_of_src rfl

theorem net_deposit {self T : Address} {r : EscrowRecord} (h : r.client ≠ self) :
    (r.deposit self).net self T = if r.token = T then r.amount else 0 := by
  simp [Transfer.net, EscrowRecord.deposit, h]

/-! ## One call -/

section
variable {T : Address} {r : EscrowRecord}

theorem owed_of_held (h : r.Held) : r.owed T = if r.token = T then r.amount else 0 := by
  simp [EscrowRecord.owed, h]

theorem owed_of_not_held (h : ¬ r.Held) : r.owed T = 0 := by
  simp [EscrowRecord.owed, h]

theorem not_held_of_settled (h : r.status = .released ∨ r.status = .refunded) : ¬ r.Held := by
  unfold EscrowRecord.Held EscrowRecord.Open
  rcases h with h | h <;> simp [h]

theorem EscrowRecord.Open.held (h : r.Open) : r.Held := .inl h

theorem owed_settle {s : EscrowStatus} (hs : s = .released ∨ s = .refunded) :
    EscrowRecord.owed T { r with status := s } = 0 := owed_of_not_held (not_held_of_settled hs)

end

/-- The money a call moves is the change of what is held, gifts aside. -/
theorem change_net {env : Env} {paused : Bool} {id : Bytes} {r : EscrowRecord} {call : Call} (hr : r.Ok id)
    (ha : call.Admits env paused r) (T : Address) :
    ((call.change env r).transfers.map (Transfer.net env.contract T)).sum =
      (call.change env r).record.owed T - r.owed T +
        (Entry.call (env.receipt call (call.change env r))).gift env.contract T := by
  have hpay := net_payout env.contract T hr.fee_nonneg
  have hback := net_repayment env.contract T r
  have hg (hf : (env.receipt call (call.change env r)).call.isFund = false) :=
    gift_of_not_fund env.contract T hf
  cases call with
  | initializeContract | setFee | setPaused | transferAdmin | initEscrow => exact ha.elim
  | fund =>
    obtain ⟨-, hs, hc, -⟩ := ha
    have h0 : ¬ r.Held := by simp [EscrowRecord.Held, EscrowRecord.Open, hs]
    have h1 : { r with status := .funded, fundedLedger := env.sequence : EscrowRecord }.Held := .inl (.inl rfl)
    simp [Call.change, Entry.gift, Call.isFund, Env.receipt, owed_of_held h1, owed_of_not_held h0,
      net_deposit hc]
  | activate =>
    have h0 : r.Held := .inl (.inl ha.2.1)
    have h1 : { r with status := .active : EscrowRecord }.Held := .inl (.inr rfl)
    rw [hg rfl]
    simp [Call.change, Env.receipt, owed_of_held h0, owed_of_held h1]
  | release =>
    rw [hg rfl]
    simp only [Call.change, Env.receipt, hpay, owed_settle (.inl rfl), owed_of_held ha.2.1.held]; omega
  | refund =>
    have h0 : r.Held := ha.2.1
    rw [hg rfl]
    simp only [Call.change, Env.receipt, hback, owed_settle (.inr rfl), owed_of_held h0]; omega
  | cancel =>
    have h0 : ¬ r.Held := by simp [EscrowRecord.Held, EscrowRecord.Open, ha.1]
    have h1 : ¬ { r with status := .cancelled : EscrowRecord }.Held := by
      simp [EscrowRecord.Held, EscrowRecord.Open]
    rw [hg rfl]
    simp [Call.change, Env.receipt, owed_of_not_held h0, owed_of_not_held h1]
  | raiseDispute =>
    have h1 : { r with clientApproved := false, freelancerApproved := false, status := .disputed :
      EscrowRecord }.Held := .inr rfl
    rw [hg rfl]
    simp [Call.change, Env.receipt, owed_of_held ha.2.1.held, owed_of_held h1]
  | resolveDispute _ toFreelancer =>
    have h0 : r.Held := .inr ha.2.1
    rw [hg rfl]
    cases toFreelancer with
    | true => simp only [Call.change, Env.receipt, hpay, owed_settle (.inl rfl), owed_of_held h0]; omega
    | false => simp only [Call.change, Env.receipt, hback, owed_settle (.inr rfl), owed_of_held h0]; omega
  | completeMilestone =>
    have h1 : { r with milestonesCompleted := r.milestonesCompleted + 1 : EscrowRecord }.Held := .inl ha.2.1
    rw [hg rfl]
    simp [Call.change, Env.receipt, owed_of_held ha.2.1.held, owed_of_held h1]
  | claimExpired =>
    rw [hg rfl]
    simp only [Call.change, Env.receipt, hback, owed_settle (.inr rfl), owed_of_held ha.1.held]; omega
  | approveRelease id approver =>
    rw [hg rfl]
    simp only [Call.change]
    split
    · simp only [Env.receipt, hpay, owed_settle (.inl rfl), owed_of_held ha.2.1.held]; omega
    · have h1 : (r.approve approver).owed T = r.owed T := rfl
      simp [Env.receipt, h1]

/-! ## Every run -/

theorem locked_insert_new {s : Storage} {r : EscrowRecord} (h : s.escrows.lookup r.escrowId = none)
    (hr : r.status = .pending) (T : Address) : (s.saveEscrow r).locked T = s.locked T := by
  have h0 : r.owed T = 0 := owed_of_not_held (by simp [EscrowRecord.Held, EscrowRecord.Open, hr])
  simp only [Storage.locked, Storage.saveEscrow, Store.total_insert_new h, h0, zero_add]

theorem Ledger.Reachable.balance_eq {self : Address} {l : Ledger} (hl : l.Reachable self) (T : Address) :
    l.balances T self = l.storage.locked T + gifts self T l.history := by
  refine reachable_inv (fun l => l.balances T self = l.storage.locked T + gifts self T l.history) ?_
    (fun _ _ h => h) ?_ ?_ hl
  · intro b hb
    simpa [Ledger.genesis, Storage.locked, gifts] using hb T
  · intro l t hi hsrc _ _
    simp only [move_apply, gifts_append, hi]
    have : t.net self T = t.received self T := by
      by_cases hT : t.token = T <;> simp [Transfer.net, Transfer.received, hT, hsrc]
    simp only [this, gifts, List.map_cons, List.map_nil, List.sum_cons, List.sum_nil, Entry.gift]; omega
  · intro l signers call h hl hi hx
    simp only [Ledger.commit, gifts_append]
    rcases exec_cases hx with hc | ⟨k, r, hc, rfl⟩ | ⟨k, hk, r, hr, ha, -, -, rfl⟩
    · have hg : (Entry.call ⟨call, signers, l.sequence, h.transfers, h.events⟩).gift self T = 0 :=
        gift_of_no_transfer hc.transfers
      rw [hc.balances, gifts_singleton, hg, Storage.locked, hc.escrows]
      simpa [Ledger.host, Storage.locked] using hi
    · have hg :
        (Entry.call ⟨call, signers, l.sequence, [], [.initialized k r.client r.freelancer r.amount]⟩).gift
          self T = 0 := gift_of_no_transfer rfl
      have hlock := locked_insert_new (hc.escrowId ▸ hc.fresh) hc.pending T
      simp only [Host.apply, Ledger.host, List.nil_append, gifts_singleton, hg, Int.add_zero] at hlock ⊢
      rw [hlock]; exact hi
    · have hok := hl.storage_ok.records k r hr
      have hkey := (hok.change ha).keyed
      have hnet := change_net hok ha T
      have htot := Store.total_update hr (call.change (l.env self signers) r).record (EscrowRecord.owed T)
      simp only [Host.apply, Ledger.host, List.nil_append, gifts_singleton, pay_apply, Storage.locked,
        Storage.saveEscrow, hkey] at hi htot ⊢
      simp only [Env.receipt, Ledger.env_contract, Ledger.env_sequence, Ledger.env_signers] at hnet
      rw [hi]; omega

theorem received_nonneg (self T : Address) {b : Balances} {ts : List Transfer} (h : Affordable b ts) :
    0 ≤ (ts.map (Transfer.received self T)).sum := by
  induction ts generalizing b with
  | nil => simp
  | cons t ts ih =>
    have h1 : 0 ≤ t.received self T := by unfold Transfer.received; split; exact h.1; exact le_rfl
    have h2 := ih h.2.2
    rw [List.map_cons, List.sum_cons]; omega

theorem gift_call_nonneg {self T : Address} {b : Balances} {rc : Receipt} (h : Affordable b rc.transfers) :
    0 ≤ (Entry.call rc).gift self T := by
  have := received_nonneg self T h
  simp only [Entry.gift]; split; exact le_rfl; exact this

theorem Ledger.Reachable.gift_nonneg {self : Address} {l : Ledger} (hl : l.Reachable self) (T : Address) :
    0 ≤ gifts self T l.history := by
  refine reachable_inv (fun l => 0 ≤ gifts self T l.history) (fun _ _ => le_rfl) (fun _ _ h => h) ?_ ?_ hl
  · intro l t hi _ hpos _
    have : 0 ≤ t.received self T := by unfold Transfer.received; split; exact hpos; exact le_rfl
    simp only [gifts_append, gifts_singleton, Entry.gift]; omega
  · intro l signers call h _ hi hx
    simp only [Ledger.commit, gifts_append, gifts_singleton]
    suffices h0 : 0 ≤ (Entry.call ⟨call, signers, l.sequence, h.transfers, h.events⟩).gift self T by omega
    rcases exec_cases hx with hc | ⟨k, r, hc, rfl⟩ | ⟨k, hk, r, hr, ha, -, hpay, rfl⟩
    · exact (gift_of_no_transfer hc.transfers).ge
    · exact (gift_of_no_transfer rfl).ge
    · exact gift_call_nonneg (b := l.balances) hpay

theorem Ledger.Reachable.locked_le_balance {self : Address} {l : Ledger} (hl : l.Reachable self) (T : Address) :
    l.storage.locked T ≤ l.balances T self := by
  have := hl.balance_eq T; have := hl.gift_nonneg T; omega

theorem Ledger.Reachable.amount_le_balance {self : Address} {l : Ledger} (hl : l.Reachable self) {id : Bytes}
    {r : EscrowRecord} (hr : l.storage.escrows.lookup id = some r) (hh : r.Held) :
    r.amount ≤ l.balances r.token self := by
  have hnn : ∀ k v, l.storage.escrows.lookup k = some v → 0 ≤ EscrowRecord.owed r.token v := by
    intro k v hv
    have := (hl.storage_ok.records k v hv).amount_pos
    unfold EscrowRecord.owed; split <;> omega
  calc r.amount = r.owed r.token := by rw [owed_of_held hh, if_pos rfl]
    _ ≤ l.storage.locked r.token := Store.le_total hnn hr
    _ ≤ l.balances r.token self := hl.locked_le_balance r.token

/-- The entry sends the token `T` to the contract, and not as a deposit. -/
def Entry.Gives (self T : Address) : Entry → Prop
  | .call rc => ¬ rc.call.isFund ∧ ∃ t ∈ rc.transfers, t.token = T ∧ t.dst = self
  | .outside t => t.token = T ∧ t.dst = self

theorem gift_of_not_gives {self T : Address} {e : Entry} (h : ¬ e.Gives self T) : e.gift self T = 0 := by
  have key {ts : List Transfer} (hts : ∀ t ∈ ts, t.token = T → t.dst ≠ self) :
      (ts.map (Transfer.received self T)).sum = 0 := by
    refine List.sum_eq_zero fun x hx => ?_
    obtain ⟨t, ht, rfl⟩ := List.mem_map.mp hx
    exact if_neg fun hc => hts t ht hc.1 hc.2
  cases e with
  | outside t => exact if_neg h
  | call rc =>
    by_cases hf : rc.call.isFund
    · simp [Entry.gift, hf]
    · rw [gift_of_not_fund self T (by simpa using hf)]
      exact key fun t ht hT hd => h ⟨hf, t, ht, hT, hd⟩

/-- In every reachable ledger the contract's balance covers what it holds for
its escrows, and equals it when the token came in through `fund` only. -/
theorem escrows_are_solvent {self : Address} {l : Ledger} (hl : l.Reachable self) (T : Address) :
    l.storage.locked T ≤ l.balances T self ∧
      ((∀ e ∈ l.history, ¬ e.Gives self T) → l.balances T self = l.storage.locked T) := by
  have heq := hl.balance_eq T
  refine ⟨hl.locked_le_balance T, fun hnone => ?_⟩
  have h0 : gifts self T l.history = 0 := by
    refine List.sum_eq_zero fun x hx => ?_
    obtain ⟨e, he, rfl⟩ := List.mem_map.mp hx
    exact gift_of_not_gives (hnone e he)
  omega

instance (self T : Address) (e : Entry) : Decidable (e.Gives self T) :=
  match e with
  | .call rc => inferInstanceAs (Decidable (¬ rc.call.isFund ∧ ∃ t ∈ rc.transfers, t.token = T ∧ t.dst = self))
  | .outside t => inferInstanceAs (Decidable (t.token = T ∧ t.dst = self))

theorem sample_is_solvent :
    sampleLedger.storage.locked ⟨9⟩ = 1000 ∧ sampleLedger.balances ⟨9⟩ ⟨0⟩ = sampleLedger.storage.locked ⟨9⟩ :=
  ⟨by decide +kernel, (escrows_are_solvent sample_reachable ⟨9⟩).2 (by decide +kernel)⟩

end NexusHub
