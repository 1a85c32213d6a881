import NexusHub.Payouts
import NexusHub.Provenance

/-!
# Release by both parties

Each approval sets a flag of the record, and the approval that completes both
releases the escrow in the same call. The flags are thus the parties that have
approved so far, in whatever order and however often, as long as nobody
disputes, settles or pauses in between.
-/

namespace NexusHub

/-- `party` approves the release of the escrow, and signs for it. -/
def Action.Approves (self : Address) (id : Bytes) (party : Address) : Action → Prop
  | .invoke signers (.approveRelease k approver) => k = id ∧ approver = party ∧ party ≠ self ∧ party ∈ signers
  | _ => False

instance (self : Address) (id : Bytes) (party : Address) (a : Action) :
    Decidable (a.Approves self id party) := by
  unfold Action.Approves; split <;> infer_instance

/-- What may come between the approvals: calls that fail, calls on other
escrows, `activate` and `complete_milestone`, ledgers and transfers outside. -/
def Ledger.Cooperates (self : Address) (id : Bytes) (l : Ledger) (a : Action) : Prop :=
  ∀ signers call, a = .invoke signers call → l.Succeeds self signers call →
    (call.escrowId? ≠ some id ∧ ∀ b, call ≠ .setPaused b) ∨ (∃ who, call = .approveRelease id who) ∨
      call = .activate id ∨ call = .completeMilestone id

/-- The client approved if `c`, the freelancer if `f`, and the escrow is
released exactly if both did. -/
structure EscrowRecord.ApprovedBy (r : EscrowRecord) (c f : Bool) (r' : EscrowRecord) : Prop where
  terms : r'.terms = r.terms
  client : r'.clientApproved = c
  freelancer : r'.freelancerApproved = f
  status : if c && f then r'.status = .released else r'.Open

/-- `l'` is what the steps `front` made of `l` and its open escrow `r`. -/
def Ledger.Approved (self : Address) (id : Bytes) (l' l : Ledger) (r : EscrowRecord) (front : List Action) :
    Prop :=
  let C := r.clientApproved = true ∨ ∃ a ∈ front, a.Approves self id r.client
  let F := r.freelancerApproved = true ∨ ∃ a ∈ front, a.Approves self id r.freelancer
  ∃ r', l'.storage.escrows.lookup id = some r' ∧ r'.terms = r.terms ∧
    (r'.clientApproved = true ↔ C) ∧ (r'.freelancerApproved = true ↔ F) ∧
    (r'.status = .released ↔ C ∧ F) ∧ (¬ (C ∧ F) → r'.Open) ∧
    transfersOf id l'.history =
      transfersOf id l.history ++ if r'.status = .released then r.payout self else []

structure Ledger.Stage (contract : Address) (id : Bytes) (r : EscrowRecord) (c f : Bool) (l : Ledger) :
    Prop where
  reachable : l.Reachable contract
  unpaused : l.storage.isPaused = false
  stored : ∃ r', l.storage.escrows.lookup id = some r' ∧ r.ApprovedBy c f r'

theorem EscrowRecord.Open.not_released {r : EscrowRecord} (h : r.Open) : r.status ≠ .released := by
  rcases h with h | h <;> rw [h] <;> exact nofun

/-! ## One call -/

section
variable {env : Env} {h h' : Host} {call : Call} {r : EscrowRecord} {id : Bytes}

theorem exec_stays_unpaused (hx : call.exec env h = .ok h') (hp : h.storage.isPaused = false)
    (hn : ∀ b, call ≠ .setPaused b) : h'.storage.isPaused = false := by
  rcases (exec_governed hx).paused with he | ⟨a, bps, -, rfl⟩ | ⟨-, b, -, -, hc, -⟩
  · rw [← hp, Storage.isPaused, Storage.isPaused, he]
  · obtain ⟨-, -, -, rfl⟩ := initializeContract_ok.mp hx
    rfl
  · exact absurd hc (hn b)

variable {r₀ : EscrowRecord} {c f : Bool}

theorem EscrowRecord.ApprovedBy.approve {who : Address} (h : r₀.ApprovedBy c f r) (ho : r.Open)
    (hne : r.client ≠ r.freelancer) (hw : who = r.client ∨ who = r.freelancer) :
    r₀.ApprovedBy (c || decide (who = r.client)) (f || decide (who = r.freelancer))
      ((Call.approveRelease id who).change env r).record := by
  have hf : (r.approve who).freelancerApproved = (f || decide (who = r.freelancer)) := by
    rcases hw with rfl | rfl
    · simp [EscrowRecord.approve, h.freelancer, hne]
    · simp [EscrowRecord.approve, Ne.symm hne]
  have hc : (r.approve who).clientApproved = (c || decide (who = r.client)) := by
    simp [EscrowRecord.approve, h.client]
  have hrec : ((Call.approveRelease id who).change env r).record =
      if (r.approve who).clientApproved ∧ (r.approve who).freelancerApproved then
        { r.approve who with status := .released } else r.approve who := by
    simp only [Call.change]; split <;> rfl
  refine ⟨(Call.change_terms _ _ _).trans h.terms, ?_, ?_, ?_⟩
  · rw [hrec]; split <;> exact hc
  · rw [hrec]; split <;> exact hf
  · rw [hrec, ← hc, ← hf]
    by_cases hb : (r.approve who).clientApproved ∧ (r.approve who).freelancerApproved
    · simp [hb]
    · simp only [if_neg hb, Bool.and_eq_true]
      exact ho

end

namespace Ledger

variable {self : Address} {id : Bytes} {r : EscrowRecord} {c f : Bool} {l : Ledger}

theorem approval_succeeds (hl : l.Reachable self) (hp : l.storage.isPaused = false)
    (hr : l.storage.escrows.lookup id = some r) (ho : r.Open) {signers : List Address} {who : Address}
    (hs : (l.env self signers).Signed who) (hw : who = r.client ∨ who = r.freelancer) :
    l.Succeeds self signers (.approveRelease id who) := by
  have ha : (Call.approveRelease id who).Admits (l.env self signers) l.storage.isPaused r := ⟨hp, ho, hs, hw⟩
  by_cases hb : (r.approve who).clientApproved ∧ (r.approve who).freelancerApproved
  · exact hl.pays hr rfl hb ha
  · refine succeeds_of_admits rfl hr ha (fun h => absurd h hb) ?_
    have hnone : ((Call.approveRelease id who).change (l.env self signers) r).transfers = [] := by
      simp only [Call.change, if_neg hb]
    rw [hnone]; trivial

theorem Stage.of_same {l' : Ledger} (h : l.Stage self id r c f) (hl : l'.Reachable self)
    (hs : l'.storage = l.storage) : l'.Stage self id r c f :=
  ⟨hl, by rw [hs]; exact h.unpaused, by rw [hs]; exact h.stored⟩

theorem Stage.unapproved {a : Action} (h : l.Stage self id r c f) (hno : ∀ party, ¬ a.Approves self id party) :
    l.Stage self id r (c || decide (a.Approves self id r.client))
      (f || decide (a.Approves self id r.freelancer)) := by
  rw [decide_eq_false (hno _), decide_eq_false (hno _), Bool.or_false, Bool.or_false]; exact h

/-- Approvals that fail come too late to matter. -/
theorem Stage.of_refused (h : l.Stage self id r c f) {signers : List Address} {call : Call}
    (hx : ¬ l.Succeeds self signers call) {party : Address} (hw : party = r.client ∨ party = r.freelancer)
    (ha : (Action.invoke signers call).Approves self id party) : c = true ∧ f = true := by
  cases call with
  | approveRelease k approver =>
    obtain ⟨rfl, rfl, hself, hmem⟩ := ha
    obtain ⟨r', hr', hby⟩ := h.stored
    by_contra hn
    have hstatus := hby.status
    rw [if_neg (by simpa using hn)] at hstatus
    have hc := EscrowRecord.get_of_terms hby.terms (·.client) fun _ => rfl
    have hf := EscrowRecord.get_of_terms hby.terms (·.freelancer) fun _ => rfl
    exact hx (approval_succeeds h.reachable h.unpaused hr' hstatus ⟨hself, hmem⟩ (by rw [hc, hf]; exact hw))
  | _ => exact ha.elim

theorem Stage.commit (hne : r.client ≠ r.freelancer) (h : l.Stage self id r c f) {signers : List Address}
    {call : Call} {h' : Host} (hx : call.exec (l.env self signers) l.host = .ok h')
    (hl : (l.commit signers call h').Reachable self)
    (hc : l.Cooperates self id (.invoke signers call)) :
    (l.commit signers call h').Stage self id r
      (c || decide ((Action.invoke signers call).Approves self id r.client))
      (f || decide ((Action.invoke signers call).Approves self id r.freelancer)) := by
  obtain ⟨r', hr', hby⟩ := h.stored
  have hpaused (hn : ∀ b, call ≠ .setPaused b) : (l.commit signers call h').storage.isPaused = false :=
    exec_stays_unpaused hx h.unpaused hn
  have hkeep (hno : ∀ party, ¬ (Action.invoke signers call).Approves self id party)
      (hn : ∀ b, call ≠ .setPaused b) {r'' : EscrowRecord} (hr'' : h'.storage.escrows.lookup id = some r'')
      (hby' : r.ApprovedBy c f r'') : (l.commit signers call h').Stage self id r
        (c || decide ((Action.invoke signers call).Approves self id r.client))
        (f || decide ((Action.invoke signers call).Approves self id r.freelancer)) :=
    Stage.unapproved ⟨hl, hpaused hn, r'', hr'', hby'⟩ hno
  rcases hc signers call rfl ⟨h', hx⟩ with ⟨hid, hn⟩ | ⟨who, rfl⟩ | rfl | rfl
  · refine hkeep (fun party ha => ?_) hn ((exec_lookup_ne h.reachable.storage_ok hx hid).trans hr') hby
    cases call with
    | approveRelease k approver => exact hid (congrArg some ha.1)
    | _ => exact ha
  · obtain ⟨⟨-, ho, hs, hw⟩, hr''⟩ := exec_changes h.reachable.storage_ok rfl hr' hx
    have hcl := EscrowRecord.get_of_terms hby.terms (·.client) fun _ => rfl
    have hfr := EscrowRecord.get_of_terms hby.terms (·.freelancer) fun _ => rfl
    have hflag (party : Address) :
        (Action.invoke signers (.approveRelease id who)).Approves self id party ↔ who = party :=
      ⟨fun ha => ha.2.1, fun he => ⟨rfl, he, he ▸ hs.1, he ▸ hs.2⟩⟩
    refine ⟨hl, hpaused nofun, _, hr'', ?_⟩
    simp only [hflag]
    rw [← hcl, ← hfr]
    exact hby.approve ho (by rw [hcl, hfr]; exact hne) hw
  · obtain ⟨⟨-, ho, -⟩, hr''⟩ := exec_changes h.reachable.storage_ok rfl hr' hx
    refine hkeep (fun _ ha => ha) nofun hr'' ⟨hby.terms, hby.client, hby.freelancer, ?_⟩
    have hstatus := hby.status
    split at hstatus
    · exact absurd (ho.symm.trans hstatus) nofun
    · rw [if_neg ‹_›]; exact .inr rfl
  · obtain ⟨-, hr''⟩ := exec_changes h.reachable.storage_ok rfl hr' hx
    exact hkeep (fun _ ha => ha) nofun hr'' ⟨hby.terms, hby.client, hby.freelancer, hby.status⟩

theorem Stage.step (hne : r.client ≠ r.freelancer) (h : l.Stage self id r c f) (a : Action)
    (hc : l.Cooperates self id a) :
    (step self l a).Stage self id r (c || decide (a.Approves self id r.client))
      (f || decide (a.Approves self id r.freelancer)) := by
  have hl := reachable_run h.reachable [a]
  cases a with
  | advance n =>
    exact (h.of_same hl rfl).unapproved fun _ ha => ha
  | outside t =>
    refine (h.of_same hl ?_).unapproved fun _ ha => ha
    change (l.outside self t).storage = l.storage
    rcases outside_cases self l t with ⟨-, -, -, he⟩ | he <;> rw [he]
  | invoke signers call =>
    cases hx : call.exec (l.env self signers) l.host with
    | ok h' =>
      have he : l.step self (.invoke signers call) = l.commit signers call h' := by
        simp only [Ledger.step, invoke, hx]
      have hl' : (l.step self (.invoke signers call)).Reachable self := hl
      rw [he] at hl' ⊢
      exact h.commit hne hx hl' hc
    | error e =>
      have he : l.step self (.invoke signers call) = l := by simp only [Ledger.step, invoke, hx]
      have hfail : ¬ l.Succeeds self signers call := by
        rintro ⟨h', hx'⟩
        cases hx.symm.trans hx'
      have hc : (c || decide ((Action.invoke signers call).Approves self id r.client)) = c := by
        by_cases ha : (Action.invoke signers call).Approves self id r.client
        · simp [(h.of_refused hfail (.inl rfl) ha).1]
        · simp [ha]
      have hf : (f || decide ((Action.invoke signers call).Approves self id r.freelancer)) = f := by
        by_cases ha : (Action.invoke signers call).Approves self id r.freelancer
        · simp [(h.of_refused hfail (.inr rfl) ha).2]
        · simp [ha]
      rw [he, hc, hf]; exact h

/-! ## Every fragment of a run -/

theorem Stage.run (hne : r.client ≠ r.freelancer) (as : List Action) :
    ∀ {c f : Bool} {l : Ledger}, l.Stage self id r c f → Meets (Ledger.step self) (Cooperates self id) l as →
      (NexusHub.run (Ledger.step self) l as).Stage self id r (c || as.any fun a => decide (a.Approves self id r.client))
        (f || as.any fun a => decide (a.Approves self id r.freelancer)) := by
  induction as with
  | nil => intro c f l h _; simpa using h
  | cons a as ih =>
    intro c f l h hm
    have h' := ih (h.step hne a hm.1) hm.2
    simpa only [run_cons, List.any_cons, Bool.or_assoc] using h'

theorem Stage.transfers (h : l.Stage self id r c f) :
    transfersOf id l.history = r.deposit self :: if c && f then r.payout self else [] := by
  obtain ⟨r', hr', hby⟩ := h.stored
  have hpaid : transfersOf id l.history = r'.settlement self := (h.reachable.accounted id).paid r' hr'
  have hstatus := hby.status
  have hdep : r'.deposit self = r.deposit self :=
    EscrowRecord.get_of_terms hby.terms (·.deposit self) fun _ => rfl
  have hpay : r'.payout self = r.payout self :=
    EscrowRecord.get_of_terms hby.terms (·.payout self) fun _ => rfl
  rw [hpaid]
  split at hstatus
  · unfold EscrowRecord.settlement; rw [hstatus, hdep, hpay, if_pos ‹_›]
  · rw [settlement_of_open hstatus, hdep, if_neg ‹_›]

theorem approved_after (hl : l.Reachable self) (hp : l.storage.isPaused = false)
    (hr : l.storage.escrows.lookup id = some r) (ho : r.Open) (hne : r.client ≠ r.freelancer)
    {as : List Action} (hm : Meets (step self) (Cooperates self id) l as) {front : List Action}
    (hf : front <+: as) :
    (run (step self) l front).Approved self id l r front := by
  have hflags : (r.clientApproved && r.freelancerApproved) = false := by
    have hok := hl.storage_ok.records id r hr
    by_contra hb
    have hb := (Bool.and_eq_true _ _).mp (Bool.of_not_eq_false hb)
    have hs := hok.both_approved hb.1 hb.2
    exact ho.not_released hs
  have h0 : l.Stage self id r r.clientApproved r.freelancerApproved :=
    ⟨hl, hp, r, hr, rfl, rfl, rfl, by rw [hflags]; exact ho⟩
  obtain ⟨rest, rfl⟩ := hf
  have h := h0.run hne front ((meets_append front rest).mp hm).1
  have htr := h.transfers
  obtain ⟨r', hr', hby⟩ := h.stored
  have hc : r'.clientApproved = true ↔
      r.clientApproved = true ∨ ∃ a ∈ front, a.Approves self id r.client := by simp [hby.client]
  have hf : r'.freelancerApproved = true ↔
      r.freelancerApproved = true ∨ ∃ a ∈ front, a.Approves self id r.freelancer := by simp [hby.freelancer]
  have hs := hby.status
  rw [← hby.client, ← hby.freelancer] at hs htr
  refine ⟨r', hr', hby.terms, hc, hf, ?_, ?_, ?_⟩
  · rw [← hc, ← hf, ← Bool.and_eq_true]
    split at hs
    · exact iff_of_true hs ‹_›
    · exact iff_of_false (EscrowRecord.Open.not_released hs) ‹_›
  · rw [← hc, ← hf, ← Bool.and_eq_true]
    intro hn
    rwa [if_neg hn] at hs
  · rw [htr, h0.transfers, hflags]
    split at hs
    · rw [if_pos ‹_›, if_pos hs]; rfl
    · rw [if_neg ‹_›, if_neg (EscrowRecord.Open.not_released hs)]; rfl

/-- Along every fragment of a run in which nobody interferes with an open escrow,
its flags are the parties that have approved so far; it is released, and paid
out to the freelancer, from the first point on where both have. -/
theorem released_once_both_approved (hl : l.Reachable self) (hp : l.storage.isPaused = false)
    (hr : l.storage.escrows.lookup id = some r) (ho : r.Open) (hne : r.client ≠ r.freelancer)
    {as : List Action} (hm : Meets (step self) (Cooperates self id) l as) :
    (∀ front, front <+: as → (run (step self) l front).Approved self id l r front) ∧
    ((∃ a ∈ as, a.Approves self id r.client) → (∃ a ∈ as, a.Approves self id r.freelancer) →
      ∃ r', (run (step self) l as).storage.escrows.lookup id = some r' ∧ r'.terms = r.terms ∧
        r'.status = .released ∧ r'.clientApproved = true ∧ r'.freelancerApproved = true ∧
        transfersOf id (run (step self) l as).history = transfersOf id l.history ++ r.payout self) := by
  refine ⟨fun front hf => approved_after hl hp hr ho hne hm hf, fun hc hf => ?_⟩
  obtain ⟨r', hr', hterms, h1, h2, h3, -, htr⟩ := approved_after hl hp hr ho hne hm (List.prefix_refl as)
  have hs := h3.mpr ⟨.inr hc, .inr hf⟩
  rw [if_pos hs] at htr
  exact ⟨r', hr', hterms, hs, h1.mpr (.inr hc), h2.mpr (.inr hf), htr⟩

end Ledger

theorem sample_released_by_two : transfersOf [7] (run (Ledger.step ⟨0⟩) sampleLedger
    [.invoke [⟨2⟩] (.approveRelease [7] ⟨2⟩), .invoke [⟨1⟩] (.approveRelease [7] ⟨1⟩)]).history =
      transfersOf [7] sampleLedger.history ++ sampleRecord.payout ⟨0⟩ := by
  have hm : Meets (Ledger.step ⟨0⟩) (Ledger.Cooperates ⟨0⟩ [7]) sampleLedger
      [.invoke [⟨2⟩] (.approveRelease [7] ⟨2⟩), .invoke [⟨1⟩] (.approveRelease [7] ⟨1⟩)] := by
    refine ⟨fun _ _ h _ => ?_, fun _ _ h _ => ?_, trivial⟩
    · cases h; exact .inr (.inl ⟨_, rfl⟩)
    · cases h; exact .inr (.inl ⟨_, rfl⟩)
  obtain ⟨_, -, -, -, -, -, htr⟩ := (Ledger.released_once_both_approved sample_reachable (by decide +kernel)
    sample_lookup (.inl rfl) (by decide) hm).2 (by decide) (by decide)
  exact htr

end NexusHub
