import NexusHub.Solvency
import NexusHub.Settlement

/-!
# Handing over the admin role

`transferAdmin` rewrites the contract's admin; `refund`, `resolveDispute` and
`cancel` consult the copy in the escrow record. The role passes on completely
as long as no live escrow holds another admin than the one it is handed to.
-/

namespace NexusHub

/-- The calls on an escrow that are the admin's; the client's own `cancel` is not. -/
def Call.AdminAct (id : Bytes) (r : EscrowRecord) : Call → Prop
  | refund k => k = id
  | resolveDispute k _ => k = id
  | cancel k caller => k = id ∧ caller ≠ r.client
  | _ => False

namespace Ledger

def Succeeds (self : Address) (l : Ledger) (signers : List Address) (call : Call) : Prop :=
  ∃ h, call.exec (l.env self signers) l.host = .ok h

instance (self : Address) (l : Ledger) (signers : List Address) (call : Call) :
    Decidable (l.Succeeds self signers call) :=
  match h : call.exec (l.env self signers) l.host with
  | .ok h' => isTrue ⟨h', h⟩
  | .error _ => isFalse fun ⟨_, h'⟩ => nomatch h.symm.trans h'

/-- What `a` can do with the escrow on a contract that is not paused. -/
structure CanAct (contract : Address) (l : Ledger) (signers : List Address) (a : Address) (id : Bytes)
    (r : EscrowRecord) : Prop where
  refund : r.Held → l.Succeeds contract signers (.refund id)
  resolve : r.status = .disputed → ∀ toFreelancer, l.Succeeds contract signers (.resolveDispute id toFreelancer)
  cancel : r.status = .pending → l.Succeeds contract signers (.cancel id a)

/-- The admin's acts on an escrow take the signature of the stored admin, and
whoever has that signature can carry them out, after unpausing if need be. -/
structure AdminRules (contract : Address) (l : Ledger) (id : Bytes) (a : Address) (r : EscrowRecord) :
    Prop where
  only : ∀ signers call, call.AdminAct id r → l.Succeeds contract signers call →
    (l.env contract signers).Signed a
  can : ∀ signers, (l.env contract signers).Signed a →
    (l.invoke contract signers (.setPaused false)).CanAct contract signers a id r

def HandedOver (self : Address) (l : Ledger) : Prop :=
  ∀ id r a, l.storage.escrows.lookup id = some r → l.storage.admin = some a → l.AdminRules self id a r

def Synced (l : Ledger) : Prop :=
  ∀ id r, l.storage.escrows.lookup id = some r → r.Live → l.storage.admin = some r.admin

/-- The step does not hand the role over while a live escrow holds another admin. -/
def HandsOverClean (self : Address) (l : Ledger) (act : Action) : Prop :=
  ∀ signers a, act = .invoke signers (.transferAdmin a) → l.Succeeds self signers (.transferAdmin a) →
    ∀ id r, l.storage.escrows.lookup id = some r → r.Live → r.admin = a

variable {self : Address} {l : Ledger}

/-! ## Clean handovers keep the copies equal -/

theorem Synced.commit (h : l.Synced) {signers : List Address} {call : Call} {h' : Host}
    (hx : call.exec (l.env self signers) l.host = .ok h')
    (hclean : l.HandsOverClean self (.invoke signers call)) : (l.commit signers call h').Synced := by
  intro id r hr hlive
  simp only [Ledger.commit] at hr ⊢
  rcases exec_cases hx with hc | ⟨k, r', hc, rfl⟩ | ⟨k, hk, r', hr', ha, -, -, rfl⟩
  · have hr0 : l.storage.escrows.lookup id = some r := hc.escrows ▸ hr
    have hadm := h id r hr0 hlive
    cases call with
    | initializeContract admin bps =>
      obtain ⟨h1, -⟩ := initializeContract_ok.mp hx
      exact absurd (hadm.symm.trans h1) (Option.some_ne_none _)
    | setFee => obtain ⟨_, -, -, -, rfl⟩ := setFee_ok.mp hx; exact hadm
    | setPaused => obtain ⟨_, -, -, rfl⟩ := setPaused_ok.mp hx; exact hadm
    | transferAdmin a =>
      rw [hclean signers a rfl ⟨_, hx⟩ id r hr0 hlive]
      obtain ⟨_, -, -, rfl⟩ := transferAdmin_ok.mp hx; rfl
    | _ => cases hc.named
  · have hkey := hc.escrowId
    simp only [Host.apply, Storage.saveEscrow, Store.lookup_insert'] at hr ⊢
    split at hr
    · cases hr; exact hc.admin
    · exact h id r hr hlive
  · simp only [Host.apply, Storage.saveEscrow, Store.lookup_insert'] at hr ⊢
    split at hr
    · cases hr
      have hadm := h k r' hr' ha.live
      rw [EscrowRecord.get_of_terms (call.change_terms (l.env self signers) r') (·.admin) fun _ => rfl]
      exact hadm
    · exact h id r hr hlive

theorem synced_run (hl : l.Reachable self) (h : l.Synced) (as : List Action)
    (hclean : Meets (step self) (HandsOverClean self) l as) : (run (step self) l as).Synced := by
  refine (run_inv_of_meets (fun l : Ledger => l.Reachable self ∧ l.Synced) ?_ as hclean ⟨hl, h⟩).2
  rintro l act hcl ⟨hl, h⟩
  refine ⟨reachable_run hl [act], ?_⟩
  cases act with
  | advance n => exact h
  | outside t =>
    rcases outside_cases self l t with ⟨-, -, -, he⟩ | he
    · rw [step, he]; exact h
    · rw [step, he]; exact h
  | invoke signers call =>
    rcases invoke_cases self l signers call with ⟨h', hx, he⟩ | he
    · rw [step, he]; exact h.commit hx hcl
    · rw [step, he]; exact h

/-! ## The rules follow from equal copies -/

theorem affordable_repayment {b : Balances} {r : EscrowRecord} (h0 : 0 ≤ r.amount)
    (h : r.amount ≤ b r.token self) : Affordable b [r.repayment self] := ⟨h0, h, trivial⟩

theorem affordable_payout {b : Balances} {id : Bytes} {r : EscrowRecord} (hr : r.Ok id)
    (h : r.amount ≤ b r.token self) : Affordable b (r.payout self) := by
  have := hr.fee_nonneg; have := hr.fee_lt
  unfold EscrowRecord.payout
  refine ⟨by simp only; omega, by simp only; omega, ?_⟩
  split
  · refine ⟨by simp only; omega, ?_, trivial⟩
    simp only [Balances.move, true_and, ite_true]
    split <;> omega
  · trivial

theorem succeeds_of_admits {signers : List Address} {id : Bytes} {r : EscrowRecord} {call : Call}
    (hid : call.escrowId? = some id) (hr : l.storage.escrows.lookup id = some r)
    (ha : call.Admits (l.env self signers) l.storage.isPaused r) (hf : call.Fits r)
    (hpay : Affordable l.balances (call.change (l.env self signers) r).transfers) :
    l.Succeeds self signers call :=
  ⟨_, exec_of_updates hid ⟨r, hr, ha, hf, hpay, rfl⟩⟩

theorem admits_of_succeeds {signers : List Address} {id : Bytes} {r : EscrowRecord} {call : Call}
    (hid : call.escrowId? = some id) (hr : l.storage.escrows.lookup id = some r)
    (h : l.Succeeds self signers call) : call.Admits (l.env self signers) l.storage.isPaused r := by
  obtain ⟨_, hx⟩ := h
  exact (updates_of_exec hid hr hx).1

theorem canAct_of_signed (hl : l.Reachable self) (hp : l.storage.isPaused = false) {id : Bytes}
    {r : EscrowRecord} (hr : l.storage.escrows.lookup id = some r) {signers : List Address}
    (hs : (l.env self signers).Signed r.admin) : l.CanAct self signers r.admin id r where
  refund hh := by
    have hok := hl.storage_ok.records id r hr
    have hbal := hl.amount_le_balance hr hh
    exact succeeds_of_admits rfl hr ⟨hp, hh, hs⟩ trivial (affordable_repayment (le_of_lt hok.amount_pos) hbal)
  resolve hd toFreelancer := by
    have hok := hl.storage_ok.records id r hr
    have hbal := hl.amount_le_balance hr (.inr hd)
    cases toFreelancer with
    | true => exact succeeds_of_admits rfl hr ⟨hp, hd, hs⟩ hok.payout_fits (affordable_payout hok hbal)
    | false =>
      exact succeeds_of_admits rfl hr ⟨hp, hd, hs⟩ trivial (affordable_repayment (le_of_lt hok.amount_pos) hbal)
  cancel hd := succeeds_of_admits rfl hr ⟨hd, hs, .inr rfl⟩ trivial trivial

theorem unpaused {signers : List Address} {a : Address} (ha : l.storage.admin = some a)
    (hs : (l.env self signers).Signed a) :
    (l.invoke self signers (.setPaused false)).storage = l.storage.setPaused false := by
  have hx : (Call.setPaused false).exec (l.env self signers) l.host =
      .ok { l.host with storage := l.host.storage.setPaused false } := setPaused_ok.mpr ⟨a, ha, hs, rfl⟩
  simp only [invoke, hx]; rfl

theorem rules_of_synced (hl : l.Reachable self) (h : l.Synced) : l.HandedOver self := by
  intro id r a hr ha
  have hadm (hlive : r.Live) : r.admin = a := Option.some.inj ((h id r hr hlive).symm.trans ha)
  constructor
  · intro signers call hact hsucc
    cases call with
    | refund k =>
      obtain rfl : k = id := hact
      have hadmits := admits_of_succeeds rfl hr hsucc
      exact hadm hadmits.live ▸ hadmits.2.2
    | resolveDispute k =>
      obtain rfl : k = id := hact
      have hadmits := admits_of_succeeds rfl hr hsucc
      exact hadm hadmits.live ▸ hadmits.2.2
    | cancel k caller =>
      obtain ⟨rfl, hne⟩ := hact
      have hadmits := admits_of_succeeds rfl hr hsucc
      obtain rfl : caller = a := (hadmits.2.2.resolve_left hne).trans (hadm hadmits.live)
      exact hadmits.2.1
    | _ => exact hact.elim
  · intro signers hs
    have hstore := unpaused ha hs
    have hr' : (l.invoke self signers (.setPaused false)).storage.escrows.lookup id = some r := by
      rw [hstore]; exact hr
    have hp : (l.invoke self signers (.setPaused false)).storage.isPaused = false := by rw [hstore]; rfl
    have hcan (hlive : r.Live) :=
      canAct_of_signed (reachable_run hl [.invoke signers (.setPaused false)]) hp hr'
      (hadm hlive ▸ hs : (Ledger.env self (l.invoke self signers (.setPaused false)) signers).Signed r.admin)
    exact {
      refund := fun hh => (hcan (.inr hh)).refund hh
      resolve := fun hd => (hcan (.inr (.inr hd))).resolve hd
      cancel := fun hp => hadm (.inl hp) ▸ (hcan (.inl hp)).cancel hp }

theorem not_handedOver_of_stale {id : Bytes} {r : EscrowRecord} {a : Address}
    (hr : l.storage.escrows.lookup id = some r) (ha : l.storage.admin = some a) (hlive : r.Live)
    (hne : r.admin ≠ a) (hself : a ≠ self) (hself' : r.admin ≠ self) : ¬ l.HandedOver self := by
  intro h
  have hrules := h id r a hr ha
  have hsig : (l.env self [a]).Signed a := ⟨hself, List.mem_singleton_self a⟩
  have hcan := hrules.can [a] hsig
  have hr' : (l.invoke self [a] (.setPaused false)).storage.escrows.lookup id = some r := by
    rw [unpaused ha hsig]; exact hr
  rcases hlive with hp | hh
  · have hadm := admits_of_succeeds rfl hr' (hcan.cancel hp)
    have hclient : a = r.client := hadm.2.2.resolve_right hne.symm
    have hsucc : l.Succeeds self [r.admin] (.cancel id r.admin) :=
      succeeds_of_admits rfl hr ⟨hp, ⟨hself', List.mem_singleton_self _⟩, .inr rfl⟩ trivial trivial
    have hs := hrules.only [r.admin] (.cancel id r.admin) ⟨rfl, hclient ▸ hne⟩ hsucc
    exact hne (List.mem_singleton.mp hs.2).symm
  · have hadm := admits_of_succeeds rfl hr' (hcan.refund hh)
    exact hne (List.mem_singleton.mp hadm.2.2.2)

end Ledger

/-! ## Main results -/

/-- In every run that hands the role over only when no live escrow holds
another admin, the rules hold in every state reached; and wherever a live
escrow does hold another admin, they fail. -/
theorem handover_complete_iff_clean (self : Address) :
    (∀ b as, (∀ T, b T self = 0) → Meets (Ledger.step self) (Ledger.HandsOverClean self) (Ledger.genesis b) as →
      (run (Ledger.step self) (Ledger.genesis b) as).HandedOver self) ∧
    ∀ l : Ledger, ∀ id r a, l.storage.escrows.lookup id = some r → l.storage.admin = some a → r.Live →
      r.admin ≠ a → a ≠ self → r.admin ≠ self → ¬ l.HandedOver self := by
  refine ⟨fun b as hb hclean => ?_, fun l id r a hr ha => Ledger.not_handedOver_of_stale hr ha⟩
  have h0 : (Ledger.genesis b).Reachable self := ⟨b, [], hb, rfl⟩
  have hsync := Ledger.synced_run h0 (fun _ _ h => nomatch h) as hclean
  exact Ledger.rules_of_synced (Ledger.reachable_run h0 as) hsync

def sampleHandover : List Action := [
  .invoke [⟨3⟩] (.initializeContract ⟨3⟩ 100),
  .invoke [⟨3⟩] (.transferAdmin ⟨4⟩),
  .invoke [⟨1⟩] (.initEscrow [7] ⟨1⟩ ⟨2⟩ ⟨9⟩ sampleAmount [] "" 0 2 0),
  .invoke [⟨1⟩] (.fund [7])]

theorem sample_clean_handover :
    (run (Ledger.step ⟨0⟩) (Ledger.genesis sampleBalances) sampleHandover).HandedOver ⟨0⟩ := by
  refine (handover_complete_iff_clean ⟨0⟩).1 sampleBalances sampleHandover (fun T => by simp [sampleBalances])
    ⟨?_, fun _ _ _ _ id r hr _ => ?_, ?_, ?_, trivial⟩
  -- the role changes hands once, while no escrow is stored yet
  · intro _ _ h; cases h
  · cases hr
  · intro _ _ h; cases h
  · intro _ _ h; cases h

/-- The former admin 3 refunds an escrow and the new admin 4 cannot. -/
theorem former_admin_keeps_escrow :
    let l := run (Ledger.step ⟨0⟩) sampleLedger [.invoke [⟨3⟩] (.transferAdmin ⟨4⟩)]
    l.Reachable ⟨0⟩ ∧ l.storage.admin = some ⟨4⟩ ∧ l.Succeeds ⟨0⟩ [⟨3⟩] (.refund [7]) ∧
      ¬ l.Succeeds ⟨0⟩ [⟨4⟩] (.refund [7]) ∧ ¬ l.HandedOver ⟨0⟩ := by
  intro l
  have hr : l.storage.escrows.lookup [7] = some sampleRecord := by decide +kernel
  have ha : l.storage.admin = some ⟨4⟩ := by decide +kernel
  have hold : l.Succeeds ⟨0⟩ [⟨3⟩] (.refund [7]) := by decide +kernel
  refine ⟨Ledger.reachable_run sample_reachable _, ha, hold, by decide +kernel, fun h => ?_⟩
  have hs := (h [7] sampleRecord ⟨4⟩ hr ha).only [⟨3⟩] (.refund [7]) rfl hold
  exact absurd hs (by decide +kernel)

end NexusHub
