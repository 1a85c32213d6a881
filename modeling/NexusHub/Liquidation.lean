import NexusHub.Independence

/-!
# Paying everything out

Payouts that are due do not stand in each other's way. Whoever settles all the
escrows that hold money, in whatever order, meets no failure and leaves the
contract with nothing but what it was given.
-/

namespace NexusHub

/-- What `a` gets of the escrow if it is refunded. -/
def EscrowRecord.refundable (a T : Address) (r : EscrowRecord) : Int := if r.client = a then r.owed T else 0

namespace Ledger

/-- The call would pay out an escrow now. -/
def Due (self : Address) (l : Ledger) (signers : List Address) (call : Call) : Prop :=
  ∃ id r, call.escrowId? = some id ∧ l.storage.escrows.lookup id = some r ∧ call.PaysOut r ∧
    call.Admits (l.env self signers) l.storage.isPaused r

/-- The action is a call that succeeds. -/
def Goes (self : Address) (l : Ledger) : Action → Prop
  | .invoke signers call => l.Succeeds self signers call
  | _ => False

instance (self : Address) (l : Ledger) : ∀ a, Decidable (l.Goes self a)
  | .invoke signers call => inferInstanceAs (Decidable (l.Succeeds self signers call))
  | .advance _ => .isFalse id
  | .outside _ => .isFalse id

variable {self : Address} {l : Ledger}

/-! ## One payout -/

theorem paid_not_held {env : Env} {r : EscrowRecord} {call : Call} (hp : call.PaysOut r) :
    ¬ (call.change env r).record.Held := by
  refine not_held_of_settled ?_
  cases call with
  | release => exact .inl rfl
  | refund | claimExpired => exact .inr rfl
  | resolveDispute _ toFreelancer =>
    cases toFreelancer
    · exact .inr rfl
    · exact .inl rfl
  | approveRelease => exact .inl (congrArg (fun c : Change => c.record.status) (if_pos hp))
  | _ => exact hp.elim

theorem invoke_same (hl : l.Reachable self) (signers : List Address) {call : Call} {id k : Bytes}
    (hid : call.escrowId? = some id) (hne : id ≠ k) :
    l.storage.SameFor k (l.invoke self signers call).storage ∧
      l.sequence = (l.invoke self signers call).sequence := by
  obtain ⟨c, hc, hrun⟩ := hl.invoke_local signers hid
  rw [hrun l hl ⟨rfl, rfl, rfl, rfl⟩ rfl fun _ => rfl]
  exact ⟨after_same fun x hx => (hc x hx).1 ▸ hne, after_sequence.symm⟩

/-- What is due on one escrow is due after a call on another. -/
theorem Due.after_other (hl : l.Reachable self) {signers signers' : List Address} {call call' : Call}
    (h : l.Due self signers' call') {id : Bytes} (hid : call.escrowId? = some id)
    (hne : call'.escrowId? ≠ some id) : (l.invoke self signers call).Due self signers' call' := by
  obtain ⟨k, r, hk, hr, hp, ha⟩ := h
  obtain ⟨hsame, hseq⟩ := invoke_same hl signers hid fun heq : id = k => hne (heq ▸ hk)
  refine ⟨k, r, hk, hsame.record ▸ hr, hp, ?_⟩
  rw [env, ← hseq, ← hsame.isPaused]
  exact ha

theorem Due.settles (hl : l.Reachable self) {signers : List Address} {call : Call} {id : Bytes}
    (h : l.Due self signers call) (hid : call.escrowId? = some id) :
    l.Succeeds self signers call ∧
      ∀ r, (l.invoke self signers call).storage.escrows.lookup id = some r → ¬ r.Held := by
  obtain ⟨k, r, hk, hr, hp, ha⟩ := h
  obtain rfl := Option.some.inj (hk.symm.trans hid)
  obtain ⟨h', hx⟩ := hl.pays hr hk hp ha
  refine ⟨⟨h', hx⟩, fun r' hr' => ?_⟩
  rw [invoke_of_exec hx] at hr'
  obtain rfl := Option.some.inj ((exec_changes hl.storage_ok hk hr hx).2.symm.trans hr')
  exact paid_not_held hp

/-! ## A batch of payouts -/

/-- Calls with their signers, to be made one after the other. -/
abbrev Batch := List (List Address × Call)

def Batch.actions (batch : Batch) : List Action := batch.map fun x => .invoke x.1 x.2

/-- The calls are due and no two of them are on the same escrow. -/
structure Batch.Payable (contract : Address) (l : Ledger) (batch : Batch) : Prop where
  distinct : (batch.map (·.2.escrowId?)).Nodup
  due : ∀ x ∈ batch, l.Due contract x.1 x.2

theorem Batch.Payable.next {x : List Address × Call} {batch : Batch} (h : Batch.Payable self l (x :: batch))
    (hl : l.Reachable self) : Batch.Payable self (l.invoke self x.1 x.2) batch := by
  obtain ⟨hnot, hdistinct⟩ := List.nodup_cons.mp h.distinct
  obtain ⟨id, -, hid, -⟩ := h.due x (List.mem_cons_self ..)
  refine ⟨hdistinct, fun y hy => (h.due y (List.mem_cons_of_mem x hy)).after_other hl hid fun heq => ?_⟩
  exact hnot (List.mem_map.mpr ⟨y, hy, heq.trans hid.symm⟩)

theorem Batch.Payable.goes : ∀ {batch : Batch} {l : Ledger}, l.Reachable self → Batch.Payable self l batch →
    Meets (step self) (Goes self) l batch.actions
  | [], _, _, _ => trivial
  | x :: batch, l, hl, h => by
    have hdue := h.due x (List.mem_cons_self ..)
    obtain ⟨id, -, hid, -⟩ := h.due x (List.mem_cons_self ..)
    exact ⟨(hdue.settles hl hid).1, goes (reachable_run hl [.invoke x.1 x.2]) (h.next hl)⟩

/-- What holds money after the batch held it before, and the batch left it alone. -/
theorem Batch.Payable.left_held {id : Bytes} {r : EscrowRecord} (hh : r.Held) :
    ∀ {batch : Batch} {l : Ledger}, l.Reachable self → Batch.Payable self l batch →
      (run (step self) l batch.actions).storage.escrows.lookup id = some r →
      l.storage.escrows.lookup id = some r ∧ ∀ x ∈ batch, x.2.escrowId? ≠ some id
  | [], _, _, _, hr => ⟨hr, fun _ hx => absurd hx List.not_mem_nil⟩
  | x :: batch, l, hl, h, hr => by
    have hdue := h.due x (List.mem_cons_self ..)
    obtain ⟨k, _, hk, -⟩ := h.due x (List.mem_cons_self ..)
    obtain ⟨hr1, hrest⟩ := left_held hh (reachable_run hl [.invoke x.1 x.2]) (h.next hl) hr
    have hne : k ≠ id := by
      rintro rfl
      exact (hdue.settles hl hk).2 r hr1 hh
    refine ⟨(invoke_same hl x.1 hk hne).1.record.trans hr1, fun y hy => ?_⟩
    rcases List.mem_cons.mp hy with rfl | hy
    · rw [hk]
      exact fun heq => hne (Option.some.inj heq)
    · exact hrest y hy

theorem locked_eq_zero {s : Storage} (h : ∀ id r, s.escrows.lookup id = some r → ¬ r.Held) (T : Address) :
    s.locked T = 0 := by
  refine Multiset.sum_eq_zero fun x hx => ?_
  obtain ⟨e, he, rfl⟩ := Multiset.mem_map.mp hx
  exact owed_of_not_held (h e.1 e.2 (Finmap.lookup_eq_some_iff.mpr he))

theorem Batch.Payable.empties {batch : Batch} (hl : l.Reachable self) (h : Batch.Payable self l batch)
    (hall : ∀ id r, l.storage.escrows.lookup id = some r → r.Held → ∃ x ∈ batch, x.2.escrowId? = some id)
    (T : Address) : (run (step self) l batch.actions).storage.locked T = 0 := by
  refine locked_eq_zero (fun id r hr hh => ?_) T
  obtain ⟨hr0, hnone⟩ := h.left_held hh hl hr
  obtain ⟨x, hx, hid⟩ := hall id r hr0 hh
  exact hnone x hx hid

/-! ## Refunding everything -/

/-- The refund of the escrow, signed by the admin in its record. -/
def refunding (l : Ledger) (id : Bytes) : List Address × Call :=
  ((l.storage.escrows.lookup id).elim [] fun r => [r.admin], .refund id)

theorem refunding_of_stored {id : Bytes} {r : EscrowRecord} (hr : l.storage.escrows.lookup id = some r) :
    l.refunding id = ([r.admin], .refund id) := by
  rw [refunding, hr]; rfl

/-- What `a` gets if the escrow stored under `id` is refunded. -/
def refundOf (l : Ledger) (a T : Address) (id : Bytes) : Int :=
  (l.storage.escrows.lookup id).elim 0 (EscrowRecord.refundable a T)

/-- A refund pays what its escrow owes. -/
theorem refund_pays {signers : List Address} {id : Bytes} (hs : l.Succeeds self signers (.refund id))
    {a : Address} (ha : a ≠ self) (T : Address) :
    (l.invoke self signers (.refund id)).balances T a = l.balances T a + l.refundOf a T id := by
  obtain ⟨h, hx⟩ := hs
  obtain ⟨r, hr, hadm, -, -, rfl⟩ := refund_ok.mp hx
  have hnet : (r.repayment self).net a T = r.refundable a T := by
    unfold EscrowRecord.refundable Transfer.net EscrowRecord.repayment
    rw [owed_of_held hadm.2.1]
    by_cases hT : r.token = T <;> simp [hT, ha.symm]
  have hof : l.refundOf a T id = r.refundable a T := by
    rw [refundOf, show l.storage.escrows.lookup id = some r from hr]; rfl
  rw [invoke_of_exec hx, hof, ← hnet]
  simp only [commit, Host.apply, Call.change, pay_apply, env_contract, List.map_cons, List.map_nil,
    List.sum_cons, List.sum_nil, add_zero]
  rfl

theorem refund_gives_nothing (hl : l.Reachable self) {signers : List Address} {id : Bytes}
    (hs : l.Succeeds self signers (.refund id)) (T : Address) :
    gifts self T (l.invoke self signers (.refund id)).history = gifts self T l.history := by
  obtain ⟨h, hx⟩ := hs
  obtain ⟨r, hr, -, -, -, rfl⟩ := refund_ok.mp hx
  have hclient : r.client ≠ self := (hl.accounted id).client r hr
  rw [invoke_of_exec hx, commit, gifts_append, gifts_singleton, gift_of_not_fund self T rfl]
  simp [Host.apply, host, Call.change, Transfer.received, EscrowRecord.repayment, hclient]

end Ledger

/-! ## Main results -/

section
variable {self : Address} {l : Ledger}

/-- Payouts that are due on different escrows all succeed, in any order, and when they
reach every escrow that holds money the contract is left with its gifts. -/
theorem due_payouts_settle (hl : l.Reachable self) (batch : Ledger.Batch)
    (hdistinct : (batch.map (·.2.escrowId?)).Nodup) (hdue : ∀ x ∈ batch, l.Due self x.1 x.2) :
    Meets (Ledger.step self) (Ledger.Goes self) l batch.actions ∧
    ((∀ id r, l.storage.escrows.lookup id = some r → r.Held → ∃ x ∈ batch, x.2.escrowId? = some id) →
      ∀ T, let l' := run (Ledger.step self) l batch.actions
        l'.storage.locked T = 0 ∧ l'.balances T self = gifts self T l'.history) := by
  have hp : Ledger.Batch.Payable self l batch := ⟨hdistinct, hdue⟩
  refine ⟨hp.goes hl, fun hall T => ?_⟩
  have h0 := hp.empties hl hall T
  have heq := (Ledger.reachable_run hl batch.actions).balance_eq T
  exact ⟨h0, by rw [heq, h0, zero_add]⟩

theorem refunds_payable (hp : l.storage.isPaused = false) {ids : List Bytes} (hnodup : ids.Nodup)
    (hids : ∀ id ∈ ids, ∃ r, l.storage.escrows.lookup id = some r ∧ r.Held ∧ r.admin ≠ self) :
    Ledger.Batch.Payable self l (ids.map l.refunding) where
  distinct := by
    have hnames : (ids.map l.refunding).map (·.2.escrowId?) = ids.map some := by
      rw [List.map_map]; rfl
    rw [hnames]
    exact hnodup.map (Option.some_injective _)
  due x hx := by
    obtain ⟨id, hid, rfl⟩ := List.mem_map.mp hx
    obtain ⟨r, hr, hh, hadm⟩ := hids id hid
    rw [Ledger.refunding_of_stored hr]
    exact ⟨id, r, rfl, hr, trivial, hp, hh, hadm, List.mem_singleton_self _⟩

/-- The refunds of `ids`, each signed by the addresses that `signed` names. -/
def Ledger.Batch.refunds (signed : Bytes → List Address) (ids : List Bytes) : Ledger.Batch :=
  ids.map fun id => (signed id, .refund id)

/-- Along refunds on different escrows everybody gets what each of them held for him at the start. -/
theorem refunds_pay {a : Address} (ha : a ≠ self) (T : Address) {signed : Bytes → List Address} :
    ∀ {ids : List Bytes} {l : Ledger}, l.Reachable self →
      Ledger.Batch.Payable self l (.refunds signed ids) →
      (run (Ledger.step self) l (Ledger.Batch.refunds signed ids).actions).balances T a =
        l.balances T a + (ids.map (l.refundOf a T)).sum
  | [], _, _, _ => (add_zero _).symm
  | id :: ids, l, hl, h => by
    have hs := ((h.due (signed id, .refund id) (List.mem_cons_self ..)).settles hl rfl).1
    have hrest := refunds_pay ha T (Ledger.reachable_run hl [.invoke (signed id) (.refund id)]) (h.next hl)
    -- the other escrows hold what they held
    have hsame : ids.map ((l.invoke self (signed id) (.refund id)).refundOf a T) = ids.map (l.refundOf a T) := by
      refine List.map_congr_left fun k hk => ?_
      have hne : id ≠ k := by
        rintro rfl
        refine (List.nodup_cons.mp h.distinct).1 (List.mem_map.mpr ⟨_, List.mem_map_of_mem hk, rfl⟩)
      have hid : (Call.refund id).escrowId? = some id := rfl
      have hkept := (Ledger.invoke_same hl (signed id) hid hne).1.record
      rw [Ledger.refundOf, Ledger.refundOf, hkept]
    calc _ = (l.invoke self (signed id) (.refund id)).balances T a +
          (ids.map ((l.invoke self (signed id) (.refund id)).refundOf a T)).sum := hrest
      _ = l.balances T a + ((id :: ids).map (l.refundOf a T)).sum := by
        rw [hsame, Ledger.refund_pays hs ha T, List.map_cons, List.sum_cons, add_assoc]

theorem refunds_give_nothing (T : Address) {signed : Bytes → List Address} :
    ∀ {ids : List Bytes} {l : Ledger}, l.Reachable self →
      Ledger.Batch.Payable self l (.refunds signed ids) →
      gifts self T (run (Ledger.step self) l (Ledger.Batch.refunds signed ids).actions).history =
        gifts self T l.history
  | [], _, _, _ => rfl
  | id :: ids, l, hl, h => by
    have hs := ((h.due (signed id, .refund id) (List.mem_cons_self ..)).settles hl rfl).1
    have hrest := refunds_give_nothing T (Ledger.reachable_run hl [.invoke (signed id) (.refund id)]) (h.next hl)
    exact hrest.trans (Ledger.refund_gives_nothing hl hs T)

/-- On a contract that is not paused the admins named in the records can refund the
escrows of any list, in its order: every client gets the deposits it has in them, and if
they are all that hold money the contract is left with its gifts. -/
theorem everything_refundable (hl : l.Reachable self) (hp : l.storage.isPaused = false) {ids : List Bytes}
    (hnodup : ids.Nodup)
    (hids : ∀ id ∈ ids, ∃ r, l.storage.escrows.lookup id = some r ∧ r.Held ∧ r.admin ≠ self) :
    let batch := Ledger.Batch.actions (ids.map l.refunding)
    let l' := run (Ledger.step self) l batch
    Meets (Ledger.step self) (Ledger.Goes self) l batch ∧
    (∀ id ∈ ids, ∀ r, l'.storage.escrows.lookup id = some r → ¬ r.Held) ∧
    (∀ T a, a ≠ self → l'.balances T a = l.balances T a + (ids.map (l.refundOf a T)).sum) ∧
    ((∀ id r, l.storage.escrows.lookup id = some r → r.Held → id ∈ ids) →
      ∀ T, l'.storage.locked T = 0 ∧ l'.balances T self = gifts self T l.history) := by
  intro batch l'
  have hpay : Ledger.Batch.Payable self l (ids.map l.refunding) := refunds_payable hp hnodup hids
  have hgoes : Meets (Ledger.step self) (Ledger.Goes self) l batch := hpay.goes hl
  refine ⟨hgoes, fun id hid r hr hh => ?_, fun T a ha => refunds_pay ha T hl hpay, fun hall T => ?_⟩
  · exact (hpay.left_held hh hl hr).2 _ (List.mem_map_of_mem hid) rfl
  · have h0 : l'.storage.locked T = 0 := hpay.empties hl (fun id r hr hh =>
      ⟨_, List.mem_map_of_mem (hall id r hr hh), rfl⟩) T
    have hgifts : gifts self T l'.history = gifts self T l.history := refunds_give_nothing T hl hpay
    have heq : l'.balances T self = l'.storage.locked T + gifts self T l'.history :=
      (Ledger.reachable_run hl batch).balance_eq T
    exact ⟨h0, by rw [heq, h0, hgifts, zero_add]⟩

end

/-- Beside the escrow of the sample, a smaller one of client 4. -/
def sampleEstate : Ledger :=
  run (Ledger.step ⟨0⟩) (Ledger.genesis fun T a => sampleBalances T a + if T = ⟨9⟩ ∧ a = ⟨4⟩ then 500 else 0)
    (sampleActions ++ [.invoke [⟨4⟩] (.initEscrow [8] ⟨4⟩ ⟨2⟩ ⟨9⟩ ⟨500, by decide⟩ [] "" 0 2 0),
      .invoke [⟨4⟩] (.fund [8])])

def sampleSmall : EscrowRecord :=
  { sampleRecord with escrowId := [8], client := ⟨4⟩, amount := 500, platformFee := 5 }

theorem sampleEstate_reachable : sampleEstate.Reachable ⟨0⟩ :=
  ⟨_, _, fun T => by simp [sampleBalances], rfl⟩

theorem sampleEstate_first : sampleEstate.storage.escrows.lookup [7] = some sampleRecord := by decide +kernel

theorem sampleEstate_second : sampleEstate.storage.escrows.lookup [8] = some sampleSmall := by decide +kernel

theorem sampleEstate_ids {id : Bytes} {r : EscrowRecord}
    (h : sampleEstate.storage.escrows.lookup id = some r) : id = [7] ∨ id = [8] := by
  have hkeys : sampleEstate.storage.escrows.keys = {[7], [8]} := by decide +kernel
  have hmem : id ∈ sampleEstate.storage.escrows.keys :=
    Finmap.mem_keys.mpr (Finmap.mem_of_lookup_eq_some h)
  simpa [hkeys] using hmem

/-- The smaller escrow is refunded, then the other one released. -/
theorem sample_batch_settles :
    let as : List Action := [.invoke [⟨3⟩] (.refund [8]), .invoke [⟨1⟩] (.release [7] none)]
    Meets (Ledger.step ⟨0⟩) (Ledger.Goes ⟨0⟩) sampleEstate as ∧
      (run (Ledger.step ⟨0⟩) sampleEstate as).storage.locked ⟨9⟩ = 0 := by
  have h := due_payouts_settle sampleEstate_reachable
    [([⟨3⟩], .refund [8]), ([⟨1⟩], .release [7] none)] (by decide) fun x hx => ?_
  · refine ⟨h.1, (h.2 (fun id r hr _ => ?_) ⟨9⟩).1⟩
    rcases sampleEstate_ids hr with rfl | rfl
    · exact ⟨_, List.mem_cons_of_mem _ (List.mem_singleton_self _), rfl⟩
    · exact ⟨_, List.mem_cons_self .., rfl⟩
  · simp only [List.mem_cons, List.not_mem_nil, or_false] at hx
    rcases hx with rfl | rfl
    · exact ⟨[8], sampleSmall, rfl, sampleEstate_second, trivial, by decide +kernel, .inl (.inl rfl), by decide,
        by decide⟩
    · exact ⟨[7], sampleRecord, rfl, sampleEstate_first, trivial, by decide +kernel, .inl rfl, by decide,
        fun _ h => by cases h⟩

theorem sample_refundable :
    let l' := run (Ledger.step ⟨0⟩) sampleEstate (Ledger.Batch.actions ([[8], [7]].map sampleEstate.refunding))
    l'.balances ⟨9⟩ ⟨1⟩ = 1000 ∧ l'.balances ⟨9⟩ ⟨4⟩ = 500 ∧ l'.storage.locked ⟨9⟩ = 0 := by
  have hids : ∀ id ∈ ([[8], [7]] : List Bytes),
      ∃ r, sampleEstate.storage.escrows.lookup id = some r ∧ r.Held ∧ r.admin ≠ ⟨0⟩ := by
    intro id hid
    simp only [List.mem_cons, List.not_mem_nil, or_false] at hid
    rcases hid with rfl | rfl
    · exact ⟨sampleSmall, sampleEstate_second, .inl (.inl rfl), by decide⟩
    · exact ⟨sampleRecord, sampleEstate_first, .inl (.inl rfl), by decide⟩
  obtain ⟨-, -, hpaid, hall⟩ := everything_refundable sampleEstate_reachable (by decide +kernel) (by decide) hids
  refine ⟨(hpaid ⟨9⟩ ⟨1⟩ (by decide)).trans (by decide +kernel), (hpaid ⟨9⟩ ⟨4⟩ (by decide)).trans (by decide +kernel),
    (hall (fun id r hr _ => ?_) ⟨9⟩).1⟩
  rcases sampleEstate_ids hr with rfl | rfl <;> decide

end NexusHub
