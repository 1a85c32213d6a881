import NexusHub.Mirror
import NexusHub.Credits
import NexusHub.Writes

/-!
# Disputes and rows

A dispute and the row of its escrow are advanced together by the dispute
service. They come apart exactly where an admin closes a dispute without a
verdict, or has the refund job settle an escrow that is in dispute.
-/

namespace NexusHub

def Dispute.IsOpen (d : Dispute) : Prop := d.status = .opened ∨ d.status = .underReview

instance (d : Dispute) : Decidable d.IsOpen := inferInstanceAs (Decidable (_ ∨ _))

structure Db.Coupled (db : Db) : Prop where
  disputed : ∀ id, (∃ e, db.escrows.lookup id = some e ∧ e.status = .disputed) ↔
    ∃ k d, db.disputes.lookup k = some d ∧ d.escrowId = id ∧ d.IsOpen
  client : ∀ k d, db.disputes.lookup k = some d → d.status = .resolvedClient →
    ∃ e, db.escrows.lookup d.escrowId = some e ∧ e.status = .refunded
  freelancer : ∀ k d, db.disputes.lookup k = some d → d.status = .resolvedFreelancer →
    ∃ e, db.escrows.lookup d.escrowId = some e ∧ e.status = .released

/-! ## The invariant -/

def DisputeStatus.rowStatus : DisputeStatus → Option EscrowStatus
  | opened | underReview => some .disputed
  | resolvedClient => some .refunded
  | resolvedFreelancer => some .released
  | closed => none

structure Db.Matched (db : Db) : Prop where
  dispute : ∀ k d, db.disputes.lookup k = some d →
    ∃ e, db.escrows.lookup d.escrowId = some e ∧ d.status.rowStatus = some e.status
  row : ∀ id e, db.escrows.lookup id = some e → e.status = .disputed →
    ∃ k d, db.disputes.lookup k = some d ∧ d.escrowId = id
  unique : ∀ k k' d d', db.disputes.lookup k = some d → db.disputes.lookup k' = some d' →
    d.escrowId = d'.escrowId → k = k'

def Db.Undisputed (db : Db) (id : Uuid) : Prop := ∀ k d, db.disputes.lookup k = some d → d.escrowId ≠ id

theorem Dispute.isOpen_iff {d : Dispute} : d.IsOpen ↔ d.status.rowStatus = some .disputed := by
  unfold IsOpen
  cases d.status <;> simp [DisputeStatus.rowStatus]

theorem mem_disputedEscrows {db : Db} {id : Uuid} :
    id ∈ db.disputedEscrows ↔ ∃ k d, db.disputes.lookup k = some d ∧ d.escrowId = id := by
  simp only [Db.disputedEscrows, Multiset.mem_map]
  constructor
  · rintro ⟨⟨k, d⟩, hm, rfl⟩
    exact ⟨k, d, Finmap.lookup_eq_some_iff.mpr hm, rfl⟩
  · rintro ⟨k, d, hd, rfl⟩
    exact ⟨⟨k, d⟩, Finmap.lookup_eq_some_iff.mp hd, rfl⟩

namespace Db.Matched

variable {db db' : Db}

theorem coupled (h : db.Matched) : db.Coupled where
  disputed id := by
    constructor
    · rintro ⟨e, he, hs⟩
      obtain ⟨k, d, hd, rfl⟩ := h.row id e he hs
      obtain ⟨e', he', hv⟩ := h.dispute k d hd
      cases he.symm.trans he'
      exact ⟨k, d, hd, rfl, Dispute.isOpen_iff.mpr (hs ▸ hv)⟩
    · rintro ⟨k, d, hd, rfl, ho⟩
      obtain ⟨e, he, hv⟩ := h.dispute k d hd
      exact ⟨e, he, Option.some.inj (hv.symm.trans (Dispute.isOpen_iff.mp ho))⟩
  client k d hd hs := by
    obtain ⟨e, he, hv⟩ := h.dispute k d hd
    rw [hs] at hv
    exact ⟨e, he, (Option.some.inj hv).symm⟩
  freelancer k d hd hs := by
    obtain ⟨e, he, hv⟩ := h.dispute k d hd
    rw [hs] at hv
    exact ⟨e, he, (Option.some.inj hv).symm⟩

theorem of_same (h : db.Matched) (he : db'.escrows = db.escrows) (hd : db'.disputes = db.disputes) :
    db'.Matched where
  dispute := by rw [he, hd]; exact h.dispute
  row := by rw [he, hd]; exact h.row
  unique := by rw [hd]; exact h.unique

theorem of_undisputed (h : db.Matched) {id : Uuid} (hu : db.Undisputed id) (hd : db'.disputes = db.disputes)
    (hid : ∀ e, db'.escrows.lookup id = some e → e.status ≠ .disputed)
    (hne : ∀ k, k ≠ id → db'.escrows.lookup k = db.escrows.lookup k) : db'.Matched where
  dispute k d hk := by
    rw [hd] at hk
    rw [hne _ (hu k d hk)]
    exact h.dispute k d hk
  row k e he hs := by
    by_cases hk : k = id
    · subst hk; exact absurd hs (hid e he)
    · rw [hne k hk] at he
      rw [hd]
      exact h.row k e he hs
  unique := by rw [hd]; exact h.unique

theorem of_verdict (h : db.Matched) {k : String} {d : Dispute} (hk : db.disputes.lookup k = some d)
    {st : DisputeStatus} {e : Escrow} (hst : st.rowStatus = some e.status)
    (hd : db'.disputes = db.disputes.insert k { d with status := st })
    (he : db'.escrows.lookup d.escrowId = some e)
    (hne : ∀ id, id ≠ d.escrowId → db'.escrows.lookup id = db.escrows.lookup id) : db'.Matched where
  dispute k' d' hk' := by
    rw [hd, Store.lookup_insert'] at hk'
    by_cases hkk : k' = k
    · rw [if_pos hkk] at hk'
      cases hk'
      exact ⟨e, he, hst⟩
    · rw [if_neg hkk] at hk'
      rw [hne _ fun heq => hkk (h.unique _ _ _ _ hk' hk heq)]
      exact h.dispute k' d' hk'
  row id e' he' hs := by
    rw [hd]
    by_cases hid : id = d.escrowId
    · exact ⟨k, _, Finmap.lookup_insert _, hid.symm⟩
    · rw [hne id hid] at he'
      obtain ⟨k', d', hk', hid'⟩ := h.row id e' he' hs
      have hkk : k' ≠ k := fun heq => hid (by rw [← hid']; subst heq; cases hk.symm.trans hk'; rfl)
      exact ⟨k', d', by rw [Finmap.lookup_insert_of_ne _ hkk]; exact hk', hid'⟩
  unique k₁ k₂ d₁ d₂ h₁ h₂ heq := by
    have hold {k' : String} {d' : Dispute} (h' : db'.disputes.lookup k' = some d') :
        ∃ d'', db.disputes.lookup k' = some d'' ∧ d''.escrowId = d'.escrowId := by
      rw [hd, Store.lookup_insert'] at h'
      by_cases hkk : k' = k
      · rw [if_pos hkk] at h'
        cases h'
        exact ⟨d, hkk ▸ hk, rfl⟩
      · rw [if_neg hkk] at h'
        exact ⟨d', h', rfl⟩
    obtain ⟨e₁, ho₁, hi₁⟩ := hold h₁
    obtain ⟨e₂, ho₂, hi₂⟩ := hold h₂
    exact h.unique k₁ k₂ e₁ e₂ ho₁ ho₂ (hi₁.trans (heq.trans hi₂.symm))

/-- A verdict sets the row to what it says, and without one the dispute stays open. -/
theorem of_resolved (h : db.Matched) {k : String} {d : Dispute} (hk : db.disputes.lookup k = some d)
    (ho : d.IsOpen) {resolution : DisputeStatus} (hclosed : resolution ≠ .closed)
    (hd : db'.disputes = db.disputes.insert k { d with status := resolution })
    (hv : match resolution.verdict with
      | some v => ∃ e, db.escrows.lookup d.escrowId = some e ∧
          db'.escrows = db.escrows.insert d.escrowId { e with status := v }
      | none => db'.escrows = db.escrows) : db'.Matched := by
  obtain ⟨e, he, hst⟩ := h.dispute _ _ hk
  cases hres : resolution.verdict with
  | some v =>
    rw [hres] at hv
    obtain ⟨e', he', hrows⟩ := hv
    refine h.of_verdict hk (e := { e' with status := v }) ?_ hd ?_ fun id hid => ?_
    · cases resolution <;> cases hres <;> rfl
    · rw [hrows]; exact Finmap.lookup_insert _
    · rw [hrows]; exact Finmap.lookup_insert_of_ne _ hid
  | none =>
    rw [hres] at hv
    refine h.of_verdict hk (e := e) ?_ hd (by rw [hv]; exact he) fun id _ => by rw [hv]
    rw [Dispute.isOpen_iff.mp ho] at hst
    rw [← hst]
    cases resolution with
    | resolvedClient | resolvedFreelancer => cases hres
    | opened | underReview => rfl
    | closed => exact absurd rfl hclosed

theorem of_opened (h : db.Matched) {k : String} {id : Uuid} {userId : UserId} {e : Escrow}
    (hu : db.Undisputed id) (hfresh : db.disputes.lookup k = none)
    (hd : db'.disputes = db.disputes.insert k ⟨id, userId, .opened⟩)
    (he : db'.escrows = db.escrows.insert id { e with status := .disputed }) : db'.Matched where
  dispute k' d' hk' := by
    rw [hd, Store.lookup_insert'] at hk'
    rw [he]
    by_cases hkk : k' = k
    · rw [if_pos hkk] at hk'
      cases hk'
      exact ⟨_, Finmap.lookup_insert _, rfl⟩
    · rw [if_neg hkk] at hk'
      rw [Finmap.lookup_insert_of_ne _ (hu k' d' hk')]
      exact h.dispute k' d' hk'
  row id' e' he' hs := by
    rw [he, Store.lookup_insert'] at he'
    rw [hd]
    by_cases hid : id' = id
    · exact ⟨k, _, Finmap.lookup_insert _, hid.symm⟩
    · rw [if_neg hid] at he'
      obtain ⟨k', d', hk', hid'⟩ := h.row id' e' he' hs
      have hne : k' ≠ k := fun heq => by rw [heq, hfresh] at hk'; cases hk'
      exact ⟨k', d', by rw [Finmap.lookup_insert_of_ne _ hne]; exact hk', hid'⟩
  unique k₁ k₂ d₁ d₂ h₁ h₂ heq := by
    rw [hd, Store.lookup_insert'] at h₁ h₂
    by_cases hk₁ : k₁ = k
    · by_cases hk₂ : k₂ = k
      · exact hk₁.trans hk₂.symm
      · rw [if_pos hk₁] at h₁
        rw [if_neg hk₂] at h₂
        cases h₁
        exact absurd heq.symm (hu k₂ d₂ h₂)
    · rw [if_neg hk₁] at h₁
      by_cases hk₂ : k₂ = k
      · rw [if_pos hk₂] at h₂
        cases h₂
        exact absurd heq (hu k₁ d₁ h₁)
      · rw [if_neg hk₂] at h₂
        exact h.unique _ _ _ _ h₁ h₂ heq

theorem undisputed (h : db.Matched) {id : Uuid} {e : Escrow} (he : db.escrows.lookup id = some e)
    (hs : ∀ st : DisputeStatus, st.rowStatus ≠ some e.status) : db.Undisputed id := by
  intro k d hk hid
  obtain ⟨e', he', hv⟩ := h.dispute k d hk
  rw [hid] at he'
  cases he.symm.trans he'
  exact hs _ hv

theorem undisputed_of_open (h : db.Matched) {id : Uuid} {e : Escrow} (he : db.escrows.lookup id = some e)
    (hs : EscrowService.isOpen e) : db.Undisputed id := by
  refine h.undisputed he fun st => ?_
  rcases hs with hs | hs <;> cases st <;> simp [hs, DisputeStatus.rowStatus]

theorem undisputed_of_none (h : db.Matched) {id : Uuid} (he : db.escrows.lookup id = none) :
    db.Undisputed id := by
  intro k d hk hid
  obtain ⟨e, he', -⟩ := h.dispute k d hk
  rw [hid, he] at he'
  cases he'

end Db.Matched

/-! ## Jobs -/

theorem DbTx.onEscrow_not_disputed (tx : DbTx) {e : Escrow} (h : e.status ≠ .disputed) :
    (tx.onEscrow e).status ≠ .disputed := by
  cases tx with
  | approve id e' u role c f txHash =>
    simp only [onEscrow]
    split
    · exact EscrowStatus.noConfusion
    · exact h
  | failLocks | milestone => exact h
  | fund | compensate | release | refund | expire => exact EscrowStatus.noConfusion

section
variable {s : Stellar} {j : Job} {w : World}

theorem attempts_keep {J : World → Prop} (hJ : ∀ w, J w → J ((Worker.process s j).complete (platform s) w).1)
    (n : Nat) (h : J w) : J (w.attempts s j n) :=
  attempts_inv (fun _ h => h) (fun w h _ => hJ w h) (fun w _ h _ => hJ w h) n h

theorem attempts_rel {R : World → World → Prop} (hR : Prog.Evolves (platform s) R) (n : Nat) :
    R w (w.attempts s j n) :=
  attempts_keep (J := fun w' => R w w') (fun w' h => hR.trans h (hR.complete _ w')) n (hR.refl w)

theorem round_rejected {r : Request} {e : HttpError} (h : r.serve w.db = .error e) :
    w.round s (.request r) = w := by
  simp [World.round, World.request, h]

theorem round_served {r : Request} {res : Response} (h : r.serve w.db = .ok res) :
    w.round s (.request r) = res.jobs.foldl (fun w j => w.attempts s j jobAttempts) (w.request r) := by
  simp [World.round, World.request, h]

theorem request_served {r : Request} {res : Response} (h : r.serve w.db = .ok res) :
    (w.request r).db = res.db ∧ (w.request r).ledger = w.ledger := by
  simp [World.request, h]

theorem round_rel {R : World → World → Prop} (hR : Prog.Evolves (platform s) R) (a : Round) :
    R w (w.round s a) := by
  cases a with
  | ledger a => exact hR.env w (.ledger a)
  | request r =>
    have hfold (js : List Job) (w' : World) (h : R w w') :
        R w (js.foldl (fun w j => w.attempts s j jobAttempts) w') := by
      induction js generalizing w' with
      | nil => exact h
      | cons j js ih => exact ih _ (hR.trans h (attempts_rel hR jobAttempts))
    exact hfold _ _ (hR.env w (.request r))

theorem Db.Matched.of_attempts (h : w.db.Matched) (hu : w.db.Undisputed j.escrowId) (n : Nat) :
    (w.attempts s j n).db.Matched := by
  have hkeep : ∀ w : World, w.db.Matched ∧ w.db.Undisputed j.escrowId →
      ((Worker.process s j).complete (platform s) w).1.db.Matched ∧
        ((Worker.process s j).complete (platform s) w).1.db.Undisputed j.escrowId := by
    intro w hw
    refine (draws_process j).complete (platform_keeps s)
      (I := fun w => w.db.Matched ∧ w.db.Undisputed j.escrowId) (fun w o hw hd => ?_) hw
    refine World.perform_db (fun db => db.Matched ∧ db.Undisputed j.escrowId) hw fun tx db ho happ => ?_
    subst ho
    have happ := (DbTx.apply_ok happ).1
    have hrows := happ.escrows
    rw [hd.1] at hrows
    refine ⟨hw.1.of_undisputed hw.2 happ.disputes (fun e he => ?_) fun k hk => ?_, ?_⟩
    · rw [hrows, if_pos rfl] at he
      obtain ⟨e', he', rfl⟩ := Option.map_eq_some_iff.mp he
      refine tx.onEscrow_not_disputed fun hs => ?_
      obtain ⟨k, d, hk, hid⟩ := hw.1.row _ _ he' hs
      exact hw.2 k d hk hid
    · rw [hrows, if_neg hk]
    · unfold Db.Undisputed
      rw [happ.disputes]
      exact hw.2
  exact (attempts_keep (J := fun w => w.db.Matched ∧ w.db.Undisputed j.escrowId) hkeep n ⟨h, hu⟩).1

end

/-! ## Parted -/

def Db.DisputeOpen (db : Db) (id : Uuid) : Prop :=
  ∃ k d, db.disputes.lookup k = some d ∧ d.escrowId = id ∧ d.IsOpen

/-- The dispute is open and the row is not disputed. -/
structure Db.Parted (db : Db) (id : Uuid) : Prop where
  open_dispute : db.DisputeOpen id
  row : ∀ e, db.escrows.lookup id = some e → e.status ≠ .disputed

namespace Db.Parted

variable {db : Db} {id : Uuid}

theorem not_coupled (h : db.Parted id) : ¬ db.Coupled := by
  intro hc
  obtain ⟨e, he, hs⟩ := (hc.disputed id).mpr h.open_dispute
  exact h.row e he hs

theorem apply {db' : Db} {tx : DbTx} (h : db.Parted id) (ha : tx.apply db = .ok db') : db'.Parted id := by
  have happ := (DbTx.apply_ok ha).1
  refine ⟨?_, fun e he => ?_⟩
  · unfold Db.DisputeOpen
    rw [happ.disputes]
    exact h.open_dispute
  · rw [happ.escrows] at he
    split at he
    · obtain ⟨e₀, he₀, rfl⟩ := Option.map_eq_some_iff.mp he
      exact tx.onEscrow_not_disputed (h.row e₀ he₀)
    · exact h.row e he

theorem complete {s : Stellar} {j : Job} {w : World} (h : w.db.Parted id) :
    ((Worker.process s j).complete (platform s) w).1.db.Parted id :=
  (draws_process j).complete (platform_keeps s) (I := fun w => w.db.Parted id)
    (fun _ _ h _ => World.perform_db (fun db => db.Parted id) h fun _ _ _ ha => h.apply ha) h

end Db.Parted

/-! ## The guards of the services -/

section
variable {db : Db} {res : Response}

theorem openDispute_first {userId : UserId} {id : Uuid} {k : String}
    (h : DisputesService.openDispute db userId id k = .ok res) :
    db.disputes.lookup k = none ∧ db.Undisputed id := by
  simp only [DisputesService.openDispute, except_bind_ok, throwIf_ok, orFail_ok, inTransaction_ok,
    createDispute_ok, exists_const] at h
  obtain ⟨e, -, -, -, hu, _, ⟨hk, -, -⟩, -⟩ := h
  exact ⟨hk, fun k' d hd hid => hu (mem_disputedEscrows.mpr ⟨k', d, hd, hid⟩)⟩

theorem resolveDispute_open {adminId : UserId} {k : String} {resolution : DisputeStatus}
    (h : DisputesService.resolveDispute db adminId k resolution = .ok res) :
    ∃ d, db.disputes.lookup k = some d ∧ d.IsOpen := by
  simp only [DisputesService.resolveDispute, except_bind_ok, throwIf_ok, orFail_ok, exists_const] at h
  obtain ⟨d, hd, ho, -⟩ := h
  refine ⟨d, hd, ?_⟩
  by_contra hn
  exact ho ⟨fun h => hn (.inl h), fun h => hn (.inr h)⟩

theorem setUnderReview_opened {k : String} (h : DisputesService.setUnderReview db k = .ok res) :
    ∃ d, db.disputes.lookup k = some d ∧ d.status = .opened := by
  simp only [DisputesService.setUnderReview, except_bind_ok, throwIf_ok, orFail_ok, exists_const, not_not] at h
  obtain ⟨d, hd, ho, -⟩ := h
  exact ⟨d, hd, ho⟩

theorem Request.queued_open {r : Request} {role : UserRole} {j : Job} (h : r.handle db role = .ok res)
    (hj : r.job role = some j) (hr : ∀ u id reason, r ≠ .refundEscrow u id reason) :
    ∃ e, db.escrows.lookup j.escrowId = some e ∧ EscrowService.isOpen e := by
  cases r with
  | createEscrow | openDispute | setUnderReview | resolveDispute => cases hj
  | refundEscrow u id reason => exact absurd rfl (hr u id reason)
  | releaseEscrow u id =>
    simp only [handle, EscrowService.releaseEscrow, EscrowService.findEscrow, except_bind_ok, throwIf_ok,
      orFail_ok, exists_const, not_not] at h
    obtain ⟨e, he, -, hs, -⟩ := h
    cases hj
    exact ⟨e, he, hs⟩
  | approveRelease u id =>
    simp only [handle, EscrowService.approveRelease, EscrowService.findEscrow, except_bind_ok, throwIf_ok,
      orFail_ok, exists_const, not_not] at h
    obtain ⟨e, he, -, -, hs, -⟩ := h
    cases hj
    exact ⟨e, he, hs⟩
  | completeMilestone u id =>
    simp only [handle, EscrowService.completeMilestone, EscrowService.findEscrow, except_bind_ok, throwIf_ok,
      orFail_ok, exists_const, not_not] at h
    obtain ⟨e, he, -, hs, -⟩ := h
    cases hj
    exact ⟨e, he, hs⟩
  | claimExpired u id =>
    simp only [handle, EscrowService.claimExpired, EscrowService.findEscrow, except_bind_ok, throwIf_ok,
      orFail_ok, exists_const, not_not] at h
    obtain ⟨e, he, hs, -⟩ := h
    cases hj
    exact ⟨e, he, hs⟩

theorem Request.handle_of_serve {r : Request} (h : r.serve db = .ok res) :
    ∃ role, r.handle db role = .ok res := by
  simp only [serve, except_bind_ok, orFail_ok] at h
  obtain ⟨user, -, _, -, hh⟩ := h
  exact ⟨user.role, hh⟩

end

/-! ## A refund of a disputed escrow -/

/-- The refund job of the escrow would be accepted on-chain and in the database. -/
structure World.RefundPasses (s : Stellar) (w : World) (adminId : UserId) (id : Uuid) (e : Escrow) : Prop where
  row : w.contractRow id = some e
  accepted : w.Accepts s.contract [s.adminKey] (.refund id.bytes)
  ready : (DbTx.refund id e adminId "" 0).Ready w.db

section
variable {s : Stellar} {w : World} {adminId : UserId} {id : Uuid} {reason : String}

theorem refund_ready {db : Db} {e : Escrow} {reason reason' : String} {txHash txHash' : TxHash}
    (h : (DbTx.refund id e adminId reason txHash).Ready db) :
    (DbTx.refund id e adminId reason' txHash').Ready db :=
  ⟨h.row, h.balances, h.fresh, h.users⟩

theorem refund_plan {e : Escrow} (h : w.contractRow id = some e) :
    Job.plan s w (.refundEscrow id adminId reason) = some
      ⟨[s.adminKey], .refund id.bytes, fun _ txHash => .refund id e adminId reason txHash⟩ := by
  simp [Job.plan, h]

theorem refund_ended (hw : w.ledger.Reachable s.contract) :
    (Job.refundEscrow id adminId reason).Ended s World.Same False w
      ((Worker.process s (.refundEscrow id adminId reason)).complete (platform s) w).1 :=
  Prog.complete_of_always (process_ends (F := False) (.quiet _ _) hw (j := .refundEscrow id adminId reason)
    fun h => h)

theorem World.RefundPasses.congr {w' : World} {e : Escrow} (h : w'.RefundPasses s adminId id e)
    (hdb : w'.db = w.db) (hl : w'.ledger = w.ledger) : w.RefundPasses s adminId id e := by
  obtain ⟨hrow, hacc, hready⟩ := h
  unfold World.contractRow at hrow
  unfold World.Accepts at hacc
  rw [hdb] at hrow hready
  rw [hl] at hacc
  exact ⟨hrow, hacc, hready⟩

/-- A refund that does not pass writes nothing, however often it is tried. -/
theorem refund_blocked (hw : w.ledger.Reachable s.contract) (h : ∀ e, ¬ w.RefundPasses s adminId id e)
    (n : Nat) : (w.attempts s (.refundEscrow id adminId reason) n).db = w.db := by
  have hkeep : ∀ w' : World, w'.ledger.Reachable s.contract ∧ w'.db = w.db ∧
    (∀ e, ¬ w'.RefundPasses s adminId id e) →
      let w'' := ((Worker.process s (.refundEscrow id adminId reason)).complete (platform s) w').1
      w''.ledger.Reachable s.contract ∧ w''.db = w.db ∧ ∀ e, ¬ w''.RefundPasses s adminId id e := by
    intro w₁ ⟨hw₁, hdb, hn⟩ w₂
    have hl : w₂.ledger.Reachable s.contract := ((platform_evolves s).complete _ w₁).reachable hw₁
    have hend : Job.Ended s World.Same False _ w₁ w₂ := refund_ended hw₁
    unfold Job.Ended at hend
    have hsame (hs : w₁.Same w₂) : w₂.db = w.db ∧ ∀ e, ¬ w₂.RefundPasses s adminId id e :=
      ⟨hs.db.trans hdb, fun e he => hn e (he.congr hs.db hs.ledger)⟩
    cases hrow : w₁.contractRow id with
    | none =>
      have hp : Job.plan s w₁ (.refundEscrow id adminId reason) = none := by simp [Job.plan, hrow]
      rw [hp] at hend
      exact ⟨hl, hsame hend⟩
    | some e =>
      rw [refund_plan hrow] at hend
      cases hend with
      | refused hs _ => exact ⟨hl, hsame hs⟩
      | called hc _ =>
        refine ⟨hl, hc.called.db.trans hdb, fun e' he' => hn e' ⟨?_, hc.called.accepts, ?_⟩⟩
        · have hrow' := he'.row
          unfold World.contractRow at hrow' ⊢
          rw [← hc.called.db]; exact hrow'
        · rw [← hc.called.db]; exact he'.ready
      | committed hc _ hcom =>
        have hready := (DbTx.apply_ok hcom.committed.db).2 fun _ => DbTx.noConfusion
        rw [hc.called.db] at hready
        exact absurd ⟨hrow, hc.called.accepts, refund_ready hready⟩ (hn e)
  exact (attempts_keep (J := fun w' => w'.ledger.Reachable s.contract ∧ w'.db = w.db ∧
    ∀ e, ¬ w'.RefundPasses s adminId id e) hkeep n ⟨hw, rfl, h⟩).2.1

/-- A refund that passes settles the row at the first attempt, whatever happens to the retries. -/
theorem refund_passed (hw : w.ledger.Reachable s.contract) {e : Escrow} (h : w.RefundPasses s adminId id e)
    (ho : w.db.DisputeOpen id) (n : Nat) :
    (w.attempts s (.refundEscrow id adminId reason) (n + 1)).db.Parted id := by
  have hend : Job.Ended s World.Same False (.refundEscrow id adminId reason) w _ := refund_ended hw
  unfold Job.Ended at hend
  rw [refund_plan h.row] at hend
  have hfirst :
    ((Worker.process s (.refundEscrow id adminId reason)).complete (platform s) w).1.db.Parted id := by
    cases hend with
    | refused _ why =>
      obtain ⟨w₁, hs, hn⟩ := why.resolve_left fun h => h
      unfold World.Accepts at hn
      rw [hs.ledger] at hn
      exact absurd h.accepted hn
    | called hc why =>
      obtain ⟨r, txHash, -, hn⟩ := why.resolve_left fun h => h
      have hready : (DbTx.refund id e adminId reason txHash).Ready w.db := refund_ready h.ready
      obtain ⟨db, hdb⟩ := hready.apply
      rw [hc.called.db] at hn
      exact absurd hdb (hn db)
    | committed hc _ hcom =>
      have happ := (DbTx.apply_ok hcom.committed.db).1
      refine ⟨?_, fun e' he' => ?_⟩
      · unfold Db.DisputeOpen
        rw [happ.disputes, hc.called.db]
        exact ho
      · rw [happ.escrows, if_pos (by rfl)] at he'
        obtain ⟨e₀, -, rfl⟩ := Option.map_eq_some_iff.mp he'
        exact nofun
  simp only [World.attempts]
  split
  · exact hfirst
  · exact attempts_keep (J := fun w => w.db.Parted id) (fun _ h => h.complete) n hfirst

end

/-! ## Every run -/

/-- No served request closes a dispute without a verdict, and no refund of a
disputed escrow that is asked for passes. -/
def CouplingSafe (s : Stellar) (w : World) : Round → Prop
  | .request r => ∀ res, r.serve w.db = .ok res →
    (∀ u k, r ≠ .resolveDispute u k .closed) ∧
      ∀ u id reason, r = .refundEscrow u id reason →
        ∀ e, e.status = .disputed → ¬ w.RefundPasses s u id e
  | .ledger _ => True

structure CouplingInv (contract : Address) (w : World) : Prop where
  reachable : w.ledger.Reachable contract
  matched : w.db.Matched

namespace CouplingInv

variable {s : Stellar} {w : World}

theorem of_round (h : CouplingInv s.contract w) {a : Round} (hsafe : CouplingSafe s w a) :
    CouplingInv s.contract (w.round s a) := by
  refine ⟨(round_rel (platform_evolves s) a).reachable h.reachable, ?_⟩
  cases a with
  | ledger a => exact h.matched
  | request r =>
    cases hr : r.serve w.db with
    | error e => rw [round_rejected hr]; exact h.matched
    | ok res =>
      obtain ⟨hclosed, hrefund⟩ := hsafe res hr
      obtain ⟨role, hh⟩ := Request.handle_of_serve hr
      rw [round_served hr]
      obtain ⟨hdb, hl⟩ := request_served hr
      have hm := h.matched
      generalize w.request r = w₁ at hdb hl ⊢
      have hserved := Request.handle_served hh
      cases hserved with
      | replayed _ => exact hm.of_same (congrArg Db.escrows hdb) (congrArg Db.disputes hdb)
      | @created clientId dto key id b hc =>
        have hu := hm.undisputed_of_none hc.id_fresh
        refine Db.Matched.of_attempts (j := .fundEscrow id clientId (EscrowService.stroopsOf dto.amount))
          ?_ ?_ _
        · refine hm.of_undisputed hu (by rw [hdb]) (fun e he => ?_) fun k hk => ?_
          · rw [hdb, Finmap.lookup_insert] at he
            cases he
            exact nofun
          · rw [hdb]; exact Finmap.lookup_insert_of_ne _ hk
        · rw [hdb]; exact hu
      | @queued _ j e hj he hs =>
        have hm₁ : w₁.db.Matched := by rw [hdb]; exact hm
        have hopen (hs : EscrowService.isOpen e) : (w₁.attempts s j jobAttempts).db.Matched := by
          refine hm₁.of_attempts ?_ _
          rw [hdb]
          exact hm.undisputed_of_open he hs
        by_cases href : ∃ u id reason, r = .refundEscrow u id reason
        · obtain ⟨u, id, reason, rfl⟩ := href
          cases hj
          rcases hs with hs | hs
          · exact hopen hs
          · have hn : ∀ e, ¬ w₁.RefundPasses s u id e := by
              intro e' hp
              have hp := hp.congr hdb hl
              obtain rfl := Option.some.inj (he.symm.trans (World.contractRow_eq_some.mp hp.row).1)
              exact hrefund u id reason rfl e hs hp
            have hb : (w₁.attempts s (.refundEscrow id u reason) jobAttempts).db = w₁.db :=
              refund_blocked (by rw [hl]; exact h.reachable) hn jobAttempts
            exact hm₁.of_same (by rw [← hb]; rfl) (by rw [← hb]; rfl)
        · obtain ⟨e', he', hs'⟩ := Request.queued_open hh hj fun u id reason hr => href ⟨u, id, reason, hr⟩
          cases he.symm.trans he'
          exact hopen hs'
      | disputed he hp hs =>
        obtain ⟨hk, hu⟩ := openDispute_first hh
        exact hm.of_opened hu hk (congrArg Db.disputes hdb) (congrArg Db.escrows hdb)
      | reviewed hd =>
        obtain ⟨d', hd', ho⟩ := setUnderReview_opened hh
        cases hd.symm.trans hd'
        obtain ⟨e, he, hst⟩ := hm.dispute _ _ hd
        rw [ho] at hst
        have hst : DisputeStatus.rowStatus .underReview = some e.status := hst
        change w₁.db.Matched
        refine hm.of_verdict hd hst (by rw [hdb]) (by rw [hdb]; exact he) fun id _ => by rw [hdb]
      | @resolved adminId k resolution d escrows hd hv =>
        obtain ⟨d', hd', ho⟩ := resolveDispute_open hh
        cases hd.symm.trans hd'
        change w₁.db.Matched
        refine hm.of_resolved hd ho (fun hc => hclosed adminId k (congrArg _ hc)) (by rw [hdb]) ?_
        rw [hdb]
        exact hv

/-- Out of the condition the round leaves an open dispute without its row, or a disputed row without a dispute. -/
theorem not_coupled (h : CouplingInv s.contract w) {a : Round} (hbad : ¬ CouplingSafe s w a) :
    ¬ (w.round s a).db.Coupled := by
  cases a with
  | ledger a => exact absurd trivial hbad
  | request r =>
    unfold CouplingSafe at hbad
    simp only [not_forall] at hbad
    obtain ⟨res, hr, hbad⟩ := hbad
    obtain ⟨role, hh⟩ := Request.handle_of_serve hr
    obtain ⟨hdb, hl⟩ := request_served hr
    have hm := h.matched
    rw [round_served hr]
    generalize w.request r = w₁ at hdb hl ⊢
    rcases not_and_or.mp hbad with hbad | hbad
    · simp only [not_forall, not_not] at hbad
      obtain ⟨u, k, rfl⟩ := hbad
      obtain ⟨d, hd, ho⟩ := resolveDispute_open hh
      obtain ⟨e, he, hst⟩ := hm.dispute k d hd
      rw [Dispute.isOpen_iff.mp ho] at hst
      cases Request.handle_served hh with
      | queued hj => cases hj
      | resolved hd' hv =>
        cases hd.symm.trans hd'
        change ¬ w₁.db.Coupled
        intro hc
        have he₁ : w₁.db.escrows.lookup d.escrowId = some e := by rw [hdb, hv]; exact he
        obtain ⟨k', d', hk', hid, ho'⟩ := (hc.disputed d.escrowId).mp ⟨e, he₁, (Option.some.inj hst).symm⟩
        rw [hdb, Store.lookup_insert'] at hk'
        split at hk'
        · cases hk'
          rcases ho' with ho' | ho' <;> cases ho'
        · rename_i hne
          exact hne (hm.unique _ _ _ _ hk' hd hid)
    · simp only [not_forall, not_not] at hbad
      obtain ⟨u, id, reason, rfl, e, hs, hp⟩ := hbad
      cases Request.handle_served hh with
      | queued hj =>
        cases hj
        have hp₁ : w₁.RefundPasses s u id e := hp.congr hdb.symm hl.symm
        refine (refund_passed (by rw [hl]; exact h.reachable) hp₁ ?_ 2).not_coupled
        obtain ⟨k, d, hd, hid⟩ := hm.row id e (World.contractRow_eq_some.mp hp.row).1 hs
        rw [hdb]
        exact (hm.coupled.disputed id).mp ⟨e, (World.contractRow_eq_some.mp hp.row).1, hs⟩

end CouplingInv

/-- Disputes and rows are coupled all along a run from a platform without
escrows exactly if every round of the run is safe. -/
theorem coupled_iff_safe {s : Stellar} {w : World} (hl : w.ledger.Reachable s.contract) (he : w.db.escrows = ∅)
    (hd : w.db.disputes = ∅) (as : List Round) :
    (∀ front, front <+: as → (run (World.round s) w front).db.Coupled) ↔
    Meets (World.round s) (CouplingSafe s) w as := by
  have h0 : CouplingInv s.contract w := by
    refine ⟨hl, ?_, ?_, ?_⟩
    · rw [hd]; exact fun _ _ h => nomatch h
    · rw [he]; exact fun _ _ h => nomatch h
    · rw [hd]; exact fun _ _ _ _ h => nomatch h
  exact (meets_iff_along (CouplingInv s.contract) (fun w => w.db.Coupled) (fun _ h => h.matched.coupled)
    (fun _ _ hsafe h => h.of_round hsafe) (fun _ _ h hbad => h.not_coupled hbad) as h0).symm

/-- An escrow is created and funded, disputed, reviewed and given back to the client by verdict. -/
def sampleVerdict : List Round := [
  .request (.createEscrow "client" sampleDto "key" sampleId),
  .request (.openDispute "freelancer" sampleId "dispute"),
  .request (.setUnderReview "admin" "dispute"),
  .request (.resolveDispute "admin" "dispute" .resolvedClient)]

theorem sample_coupled : (run (World.round sampleStellar) sampleWorld sampleVerdict).db.Coupled := by
  have hsafe : Meets (World.round sampleStellar) (CouplingSafe sampleStellar) sampleWorld sampleVerdict :=
    ⟨fun _ _ => ⟨nofun, nofun⟩, fun _ _ => ⟨nofun, nofun⟩, fun _ _ => ⟨nofun, nofun⟩,
      fun _ _ => ⟨fun _ _ => (by simp), nofun⟩, trivial⟩
  exact (coupled_iff_safe sampleWorld_reachable rfl rfl sampleVerdict).mpr hsafe _ List.prefix_rfl

/-- The admin refunds the disputed escrow, and its dispute stays open. -/
def sampleRefunded : List Round := [
  .request (.createEscrow "client" sampleDto "key" sampleId),
  .request (.openDispute "freelancer" sampleId "dispute"),
  .request (.refundEscrow "admin" sampleId "")]

theorem refund_parts_dispute : ¬ ∀ as, (run (World.round sampleStellar) sampleWorld as).db.Coupled := by
  intro h
  have hdispute : (run (World.round sampleStellar) sampleWorld sampleRefunded).db.disputes.lookup "dispute" =
      some ⟨sampleId, "freelancer", .opened⟩ := by decide +kernel
  have hrow : ((run (World.round sampleStellar) sampleWorld sampleRefunded).db.escrows.lookup sampleId).map
    (·.status) =
      some .refunded := by decide +kernel
  refine Db.Parted.not_coupled ⟨⟨_, _, hdispute, rfl, .inl rfl⟩, fun e he => ?_⟩ (h sampleRefunded)
  rw [he] at hrow
  have hs : e.status = .refunded := Option.some.inj hrow
  rw [hs]
  exact nofun

end NexusHub
