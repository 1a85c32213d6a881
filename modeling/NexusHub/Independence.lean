import NexusHub.Interleaving
import NexusHub.Disputes
import NexusHub.Payouts

/-!
# The order of calls on different escrows

All escrows share one configuration and one pooled balance, and the parties'
money is theirs across escrows. A payout never waits for another escrow all the
same, so calls on different escrows can change places, deposits apart: whether a
client can fund may depend on what was paid to it before.
-/

namespace NexusHub

/-- The calls on an escrow that move no token. -/
def Call.still : Call → Bool
  | initEscrow .. | activate _ | cancel .. | raiseDispute .. | completeMilestone _ => true
  | _ => false

/-- The action is a call on one of the escrows in `S`. -/
def Action.on (S : Bytes → Bool) : Action → Bool
  | .invoke _ call => call.escrowId?.any S
  | _ => false

/-! ## What a call does anywhere -/

/-- Equal in all that a call on the escrow `id` reads of the storage. -/
structure Storage.SameFor (id : Bytes) (s s' : Storage) : Prop where
  admin : s.admin = s'.admin
  feeBps : s.feeBps = s'.feeBps
  paused : s.paused = s'.paused
  record : s.escrows.lookup id = s'.escrows.lookup id

namespace Storage.SameFor

variable {id : Bytes} {s s' : Storage}

theorem symm (h : s.SameFor id s') : s'.SameFor id s :=
  ⟨h.admin.symm, h.feeBps.symm, h.paused.symm, h.record.symm⟩

theorem isPaused (h : s.SameFor id s') : s.isPaused = s'.isPaused := congrArg (·.getD false) h.paused

theorem getFeeBps (h : s.SameFor id s') : s.getFeeBps = s'.getFeeBps := congrArg (·.getD 100) h.feeBps

theorem saveEscrow {r : EscrowRecord} (s : Storage) (hne : r.escrowId ≠ id) : s.SameFor id (s.saveEscrow r) :=
  ⟨rfl, rfl, rfl, (Finmap.lookup_insert_of_ne _ hne.symm).symm⟩

end Storage.SameFor

/-- The change `c` is what the call does to the escrow `id` on every host like `h` that can pay for it. -/
structure Call.Does (env : Env) (h : Host) (call : Call) (id : Bytes) (c : Change) : Prop where
  keyed : c.record.escrowId = id
  still : call.still → c.transfers = []
  paid : Affordable h.balances c.transfers
  covered : call.isFund = false → c.transfers = [] ∨ ∃ r, h.storage.escrows.lookup id = some r ∧ r.Held ∧
    (c.transfers = r.payout env.contract ∨ c.transfers = [r.repayment env.contract])
  everywhere : ∀ g : Host, h.storage.SameFor id g.storage → Affordable g.balances c.transfers →
    call.exec env g = .ok (g.apply c)

section
variable {env : Env} {h h' : Host} {call : Call} {id : Bytes}

theorem initEscrow_does {client freelancer token : Address} {amount : I128} {hash : Bytes} {description : String}
    {delay total expiry : UInt32}
    (hx : NexusEscrow.initEscrow env h id client freelancer token amount hash description delay total expiry =
      .ok h') :
    ∃ c, h' = h.apply c ∧
      (Call.initEscrow id client freelancer token amount hash description delay total expiry).Does env h id c := by
  obtain ⟨hp, ha, hd, he, hn, hs, hf, hlt, hq, admin, hadm, rfl⟩ := initEscrow_ok.mp hx
  refine ⟨_, rfl, rfl, fun _ => rfl, trivial, fun _ => .inl rfl, fun g hg _ => initEscrow_ok.mpr ?_⟩
  have hfee := hg.getFeeBps
  exact ⟨hg.isPaused ▸ hp, ha, hd, he, hg.record ▸ hn, hs, hfee ▸ hf, hfee ▸ hlt, hq, admin,
    hg.admin ▸ hadm, by rw [hfee]⟩

theorem admitted_cases {r : EscrowRecord} (ha : call.Admits env h.storage.isPaused r) (hf : call.isFund = false) :
    (call.change env r).transfers = [] ∨ call.PaysOut r := by
  cases call with
  | fund => cases hf
  | activate | cancel | raiseDispute | completeMilestone => exact .inl rfl
  | release | refund | resolveDispute | claimExpired => exact .inr trivial
  | approveRelease id a =>
    by_cases hb : (r.approve a).clientApproved ∧ (r.approve a).freelancerApproved
    · exact .inr hb
    · exact .inl (congrArg Change.transfers (if_neg hb))
  | _ => exact ha.elim

theorem still_transfers {r : EscrowRecord} (hs : call.still) : (call.change env r).transfers = [] := by
  cases call with
  | fund | release | refund | resolveDispute | claimExpired | approveRelease => cases hs
  | _ => rfl

/-- Every successful call on an escrow does something it does everywhere. -/
theorem does_of_exec (hs : h.storage.Ok) (hid : call.escrowId? = some id) (hx : call.exec env h = .ok h') :
    ∃ c, h' = h.apply c ∧ call.Does env h id c := by
  rcases exec_cases hx with hc | ⟨k, r, hc, -⟩ | ⟨k, hk, r, hr, ha, hfit, hpay, rfl⟩
  · exact absurd (hc.named.symm.trans hid) (Option.some_ne_none id).symm
  · obtain ⟨amount, delay, total, expiry, -, rfl⟩ := hc.call_eq
    cases hid
    exact initEscrow_does hx
  · obtain rfl := Option.some.inj (hk.symm.trans hid)
    refine ⟨_, rfl, ((hs.records k r hr).change ha).keyed, still_transfers, hpay, fun hf => ?_, fun g hg hp => ?_⟩
    · rcases admitted_cases ha hf with h0 | hp
      · exact .inl h0
      · exact .inr ⟨r, hr, hp.held ha, hp.transfers⟩
    · exact exec_of_updates hk ⟨r, hg.record ▸ hr, hg.isPaused ▸ ha, hfit, hp, rfl⟩

end

namespace Ledger

variable {self : Address} {l l' : Ledger} {id : Bytes}

/-- What a call leaves that makes the change, if it makes one. -/
def after (l : Ledger) (signers : List Address) (call : Call) : Option Change → Ledger
  | none => l
  | some c => l.commit signers call (l.host.apply c)

theorem invoke_of_exec {signers : List Address} {call : Call} {h : Host}
    (hx : call.exec (l.env self signers) l.host = .ok h) :
    l.invoke self signers call = l.commit signers call h := by
  rw [invoke, hx]

/-- A reachable ledger can pay for what the call does to an escrow it holds. -/
theorem Reachable.affords (hl' : l'.Reachable self) {signers : List Address} {call : Call} {c : Change}
    (hd : call.Does (l.env self signers) l.host id c) (hsame : l.storage.SameFor id l'.storage)
    (hb : call.isFund → l.balances = l'.balances) : Affordable l'.balances c.transfers := by
  cases hf : call.isFund with
  | true => exact hb hf ▸ hd.paid
  | false =>
    rcases hd.covered hf with h0 | ⟨r, hr, hh, ht⟩
    · rw [h0]; trivial
    · have hr' : l'.storage.escrows.lookup id = some r := hsame.record ▸ hr
      have hok := hl'.storage_ok.records id r hr'
      have hbal := hl'.amount_le_balance hr' hh
      rcases ht with ht | ht
      · rw [ht]; exact affordable_payout hok hbal
      · rw [ht]; exact affordable_repayment (le_of_lt hok.amount_pos) hbal

/-- A call on an escrow has one effect on all reachable ledgers that look the same to it. -/
theorem Reachable.invoke_local (hl : l.Reachable self) (signers : List Address) {call : Call}
    (hid : call.escrowId? = some id) :
    ∃ c : Option Change, (∀ x, c = some x → x.record.escrowId = id ∧ (call.still → x.transfers = [])) ∧
      ∀ l' : Ledger, l'.Reachable self → l.storage.SameFor id l'.storage → l.sequence = l'.sequence →
        (call.isFund → l.balances = l'.balances) →
        l'.invoke self signers call = l'.after signers call c := by
  have henv {l' : Ledger} (hseq : l.sequence = l'.sequence) : l'.env self signers = l.env self signers := by
    rw [env, env, hseq]
  by_cases hs : l.Succeeds self signers call
  · obtain ⟨h, hx⟩ := hs
    obtain ⟨c, -, hd⟩ := does_of_exec hl.storage_ok hid hx
    refine ⟨some c, ?_, fun l' hl' hsame hseq hb => ?_⟩
    · intro x hx
      cases hx
      exact ⟨hd.keyed, hd.still⟩
    · refine invoke_of_exec ?_
      rw [henv hseq]
      exact hd.everywhere l'.host hsame (hl'.affords hd hsame hb)
  · refine ⟨none, fun x hx => (Option.some_ne_none x hx.symm).elim, fun l' hl' hsame hseq hb => ?_⟩
    -- what succeeded there would succeed here as well
    refine invoke_of_fails ?_
    rintro ⟨h, hx⟩
    obtain ⟨c, -, hd⟩ := does_of_exec hl'.storage_ok hid hx
    refine hs ⟨l.host.apply c, ?_⟩
    rw [← henv hseq]
    exact hd.everywhere l.host hsame.symm (hl.affords hd hsame.symm fun hf => (hb hf).symm)

/-! ## Ledgers that differ in the order of their history -/

structure Alike (l l' : Ledger) : Prop where
  storage : l.storage = l'.storage
  balances : l.balances = l'.balances
  sequence : l.sequence = l'.sequence
  receipts : ∀ id, receiptsOf id l.history = receiptsOf id l'.history
  history : l.history.Perm l'.history

namespace Alike

variable {l l' l'' : Ledger}

theorem refl (l : Ledger) : l.Alike l := ⟨rfl, rfl, rfl, fun _ => rfl, .refl _⟩

theorem symm (h : l.Alike l') : l'.Alike l :=
  ⟨h.storage.symm, h.balances.symm, h.sequence.symm, fun id => (h.receipts id).symm, h.history.symm⟩

theorem trans (h : l.Alike l') (h' : l'.Alike l'') : l.Alike l'' :=
  ⟨h.storage.trans h'.storage, h.balances.trans h'.balances, h.sequence.trans h'.sequence,
    fun id => (h.receipts id).trans (h'.receipts id), h.history.trans h'.history⟩

theorem append (h : l.Alike l') (s : Storage) (b : Balances) (n : Nat) (es : List Entry) :
    Alike ⟨s, b, n, l.history ++ es⟩ ⟨s, b, n, l'.history ++ es⟩ where
  storage := rfl
  balances := rfl
  sequence := rfl
  receipts id := by rw [receiptsOf_append, receiptsOf_append, h.receipts id]
  history := h.history.append_right es

theorem step (h : l.Alike l') (a : Action) : (l.step self a).Alike (l'.step self a) := by
  cases a with
  | advance n => exact ⟨h.storage, h.balances, congrArg (· + n) h.sequence, h.receipts, h.history⟩
  | outside t =>
    have hb := h.balances
    simp only [Ledger.step, outside, hb]
    split
    · exact h
    · rw [h.storage, h.sequence]
      exact h.append _ _ _ _
  | invoke signers call =>
    have hhost : l.host = l'.host := by rw [host, host, h.storage, h.balances]
    have henv : l.env self signers = l'.env self signers := by rw [env, env, h.sequence]
    simp only [Ledger.step, invoke, hhost, henv]
    split
    · rw [commit, commit, h.sequence]
      exact h.append _ _ _ _
    · exact h

end Alike

/-! ## Independent actions -/

/-- Neither of the two actions can make a difference to the other. -/
def Independent : Action → Action → Prop
  | .invoke _ c, .invoke _ c' => ∃ id ∈ c.escrowId?, ∃ id' ∈ c'.escrowId?, id ≠ id' ∧
      (c.isFund → c'.still) ∧ (c'.isFund → c.still)
  | .outside _, .invoke _ c | .invoke _ c, .outside _ => c.still
  | .outside _, .advance _ | .advance _, .outside _ => True
  | _, _ => False

theorem Independent.irrefl (a : Action) : ¬ Independent a a := by
  cases a with
  | invoke signers c =>
    rintro ⟨id, hid, id', hid', hne, -⟩
    exact hne (Option.some.inj (hid.symm.trans hid'))
  | _ => exact id

theorem Independent.symm {a b : Action} (h : Independent a b) : Independent b a := by
  cases a with
  | invoke signers c =>
    cases b with
    | invoke signers' c' =>
      obtain ⟨id, hid, id', hid', hne, hf, hf'⟩ := h
      exact ⟨id', hid', id, hid, hne.symm, hf', hf⟩
    | _ => exact h
  | _ => cases b <;> exact h

/-! ### They commute -/

section
variable {signers signers' : List Address} {call call' : Call} {c c' : Option Change} {id' : Bytes}

theorem after_same (hne : ∀ x, c = some x → x.record.escrowId ≠ id) :
    l.storage.SameFor id (l.after signers call c).storage := by
  cases c with
  | none => exact ⟨rfl, rfl, rfl, rfl⟩
  | some x => exact .saveEscrow l.storage (hne x rfl)

theorem after_sequence : (l.after signers call c).sequence = l.sequence := by cases c <;> rfl

theorem after_balances (h : ∀ x, c = some x → x.transfers = []) :
    (l.after signers call c).balances = l.balances := by
  cases c with
  | none => rfl
  | some x => exact congrArg l.balances.pay (h x rfl)

theorem receiptsOf_swap (hid : call.escrowId? = some id) (hid' : call'.escrowId? = some id') (hne : id ≠ id')
    {rc rc' : Receipt} (hrc : rc.call = call) (hrc' : rc'.call = call') (k : Bytes) :
    receiptsOf k [.call rc] ++ receiptsOf k [.call rc'] = receiptsOf k [.call rc'] ++ receiptsOf k [.call rc] := by
  simp only [receiptsOf_call, hrc, hrc', hid, hid', Option.some.injEq]
  by_cases hk : id = k
  · have hk' : ¬ id' = k := fun h => hne (hk.trans h.symm)
    simp [hk']
  · simp [hk]

theorem after_comm (hid : call.escrowId? = some id) (hid' : call'.escrowId? = some id') (hne : id ≠ id')
    (hk : ∀ x, c = some x → x.record.escrowId = id) (hk' : ∀ x, c' = some x → x.record.escrowId = id') :
    ((l.after signers call c).after signers' call' c').Alike
      ((l.after signers' call' c').after signers call c) := by
  cases c with
  | none => exact .refl _
  | some x =>
    cases c' with
    | none => exact .refl _
    | some x' =>
      have hkeys : x.record.escrowId ≠ x'.record.escrowId := by rwa [hk x rfl, hk' x' rfl]
      constructor
      · simp only [after, commit, Host.apply, host, Storage.saveEscrow, Finmap.insert_insert_of_ne _ hkeys]
      · funext T a
        simp only [after, commit, Host.apply, host, pay_apply]
        omega
      · rfl
      · intro k
        simp only [after, commit, receiptsOf_append, List.append_assoc]
        rw [receiptsOf_swap hid hid' hne rfl rfl]
        rfl
      · simp only [after, commit, List.append_assoc]
        exact .append_left _ (.swap _ _ [])

end

theorem commute_invoke (hl : l.Reachable self) {signers signers' : List Address} {call call' : Call}
    (h : Independent (.invoke signers call) (.invoke signers' call')) :
    ((l.invoke self signers call).invoke self signers' call').Alike
      ((l.invoke self signers' call').invoke self signers call) := by
  obtain ⟨id, hid, id', hid', hne, hf, hf'⟩ := h
  obtain ⟨c, hc, hrun⟩ := hl.invoke_local signers hid
  obtain ⟨c', hc', hrun'⟩ := hl.invoke_local signers' hid'
  have hself {k : Bytes} : l.storage.SameFor k l.storage := ⟨rfl, rfl, rfl, rfl⟩
  have h1 := hrun l hl hself rfl fun _ => rfl
  have h2 := hrun' l hl hself rfl fun _ => rfl
  have hl1 : (l.invoke self signers call).Reachable self := reachable_run hl [.invoke signers call]
  have hl2 : (l.invoke self signers' call').Reachable self := reachable_run hl [.invoke signers' call']
  rw [h1] at hl1 ⊢
  rw [h2] at hl2 ⊢
  rw [hrun' _ hl1 (after_same fun x hx => (hc x hx).1 ▸ hne) after_sequence.symm fun hfund =>
      (after_balances fun x hx => (hc x hx).2 (hf' hfund)).symm,
    hrun _ hl2 (after_same fun x hx => (hc' x hx).1 ▸ hne.symm) after_sequence.symm fun hfund =>
      (after_balances fun x hx => (hc' x hx).2 (hf hfund)).symm]
  exact after_comm hid hid' hne (fun x hx => (hc x hx).1) fun x hx => (hc' x hx).1

theorem named_of_still {call : Call} (h : call.still) : ∃ id, call.escrowId? = some id := by
  cases call with
  | initEscrow id => exact ⟨id, rfl⟩
  | activate id => exact ⟨id, rfl⟩
  | cancel id => exact ⟨id, rfl⟩
  | raiseDispute id => exact ⟨id, rfl⟩
  | completeMilestone id => exact ⟨id, rfl⟩
  | _ => cases h

theorem commute_outside (hl : l.Reachable self) {signers : List Address} {call : Call} (hs : call.still)
    (t : Transfer) :
    ((l.outside self t).invoke self signers call).Alike ((l.invoke self signers call).outside self t) := by
  obtain ⟨id, hid⟩ := named_of_still hs
  obtain ⟨c, hc, hrun⟩ := hl.invoke_local signers hid
  have hfund : call.isFund → False := by cases call <;> simp_all [Call.still, Call.isFund]
  have hb : (l.after signers call c).balances = l.balances := after_balances fun x hx => (hc x hx).2 hs
  have hout : (l.outside self t).Reachable self := reachable_run hl [.outside t]
  rw [hrun l hl ⟨rfl, rfl, rfl, rfl⟩ rfl fun h => (hfund h).elim]
  by_cases hstop : t.src = self ∨ t.amount < 0 ∨ l.balances t.token t.src < t.amount
  · rw [outside, outside, hb, if_pos hstop, if_pos hstop,
      hrun l hl ⟨rfl, rfl, rfl, rfl⟩ rfl fun h => (hfund h).elim]
    exact .refl _
  · rw [outside, if_neg hstop] at hout ⊢
    rw [hrun _ hout ⟨rfl, rfl, rfl, rfl⟩ rfl fun h => (hfund h).elim, outside, hb, if_neg hstop]
    cases c with
    | none => exact .refl _
    | some x =>
      have hx := (hc x rfl).2 hs
      constructor
      · rfl
      · simp only [after, commit, Host.apply, host, hx]
        rfl
      · rfl
      · intro k
        simp only [after, commit, receiptsOf_append, receiptsOf_outside, List.append_nil]
        rfl
      · simp only [after, commit, List.append_assoc]
        exact .append_left _ (.swap _ _ [])

theorem commute_advance (l : Ledger) (t : Transfer) (n : Nat) :
    ((l.outside self t).step self (.advance n)).Alike ((l.step self (.advance n)).outside self t) := by
  by_cases hstop : t.src = self ∨ t.amount < 0 ∨ l.balances t.token t.src < t.amount
  · rw [step, step, outside, outside, if_pos hstop, if_pos hstop]
    exact .refl _
  · rw [step, step, outside, outside, if_neg hstop, if_neg hstop]
    exact .refl _

/-- Independent neighbours can change places. -/
theorem Reachable.commute (hl : l.Reachable self) {a b : Action} (h : Independent a b) :
    ((l.step self a).step self b).Alike ((l.step self b).step self a) := by
  cases a with
  | advance n =>
    cases b with
    | outside t => exact (commute_advance l t n).symm
    | _ => exact h.elim
  | outside t =>
    cases b with
    | advance n => exact commute_advance l t n
    | outside t' => exact h.elim
    | invoke signers call => exact commute_outside hl h t
  | invoke signers call =>
    cases b with
    | advance n => exact h.elim
    | outside t => exact (commute_outside hl h t).symm
    | invoke signers' call' => exact commute_invoke hl h

end Ledger

/-! ## Main results -/

deriving instance DecidableEq for Action

section
variable {self : Address} {l : Ledger} {as bs : List Action}

theorem Ledger.Reachable.alike (hl : l.Reachable self) (h : AgreeOnPairs Ledger.Independent as bs) :
    (run (Ledger.step self) l as).Alike (run (Ledger.step self) l bs) := by
  refine (run_of_reorders (I := fun l : Ledger => l.Reachable self) (E := Ledger.Alike) ?_ .refl
    (fun h h' => h.trans h') (fun _ _ a _ _ h => h.step a) (fun _ _ _ hl hab => hl.commute hab)
    (reorders_of_pairs Ledger.Independent.irrefl (fun h => h.symm) h) hl).symm
  exact fun _ a hl => Ledger.reachable_run hl [a]

/-- From a reachable ledger two runs end alike, in storage, balances and the
receipts of every escrow, if all actions that are not independent come in the
same order in both. -/
theorem order_of_independent_actions (hl : l.Reachable self)
    (h : ∀ a b, ¬ Ledger.Independent a b → pairOf a b as = pairOf a b bs) :
    (run (Ledger.step self) l as).Alike (run (Ledger.step self) l bs) := hl.alike h

/-- The calls of some of the escrows can all be made before those of the others. -/
theorem escrows_run_apart (hl : l.Reachable self) (S : Bytes → Bool)
    (hcalls : ∀ a ∈ as, ∃ signers call id, a = .invoke signers call ∧ call.escrowId? = some id ∧
      call.isFund = false) :
    (run (Ledger.step self) l as).Alike (run (Ledger.step self) l
      (as.filter (Action.on S) ++ as.filter fun a => !Action.on S a)) := by
  refine hl.alike (agreeOnPairs_partition fun a ha b hb hne => ?_)
  obtain ⟨signers, call, id, rfl, hid, hf⟩ := hcalls a ha
  obtain ⟨signers', call', id', rfl, hid', hf'⟩ := hcalls b hb
  refine ⟨id, hid, id', hid', fun heq => hne ?_, fun h => ?_, fun h => ?_⟩
  · simp only [Action.on, hid, hid', heq]
  · exact absurd (hf.symm.trans h) Bool.false_ne_true
  · exact absurd (hf'.symm.trans h) Bool.false_ne_true

end

def sampleSecond : Call := .initEscrow [8] ⟨1⟩ ⟨2⟩ ⟨9⟩ sampleAmount [] "" 0 2 0

theorem sample_order :
    (run (Ledger.step ⟨0⟩) sampleLedger [.invoke [⟨1⟩] sampleSecond, .invoke [⟨1⟩] (.release [7] none)]).Alike
      (run (Ledger.step ⟨0⟩) sampleLedger [.invoke [⟨1⟩] (.release [7] none), .invoke [⟨1⟩] sampleSecond]) := by
  refine order_of_independent_actions sample_reachable (agreeOnPairs_swap ?_ (fun h => h.symm) [])
  exact ⟨[8], rfl, [7], rfl, by decide, by decide, by decide⟩

/-- Client 1 can fund escrow 8 with the money refunded from escrow 7, not before. -/
theorem deposit_waits_for_refund :
    let l := run (Ledger.step ⟨0⟩) sampleLedger [.invoke [⟨1⟩] sampleSecond]
    let refund := Action.invoke [⟨3⟩] (.refund [7])
    let fund := Action.invoke [⟨1⟩] (.fund [8])
    l.Reachable ⟨0⟩ ∧
      ¬ (run (Ledger.step ⟨0⟩) l [refund, fund]).Alike (run (Ledger.step ⟨0⟩) l [fund, refund]) := by
  intro l refund fund
  refine ⟨Ledger.reachable_run sample_reachable _, fun h => ?_⟩
  have hlook := congrArg (fun s : Storage => (s.escrows.lookup [8]).map (·.status)) h.storage
  exact absurd hlook (by decide +kernel)

end NexusHub
