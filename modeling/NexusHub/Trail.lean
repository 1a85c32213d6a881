import NexusHub.Bookkeeping
import NexusHub.Finality

/-!
# The audit trail

Who stands behind an entry of the audit log, and which entry stands behind the
status of a row. Processes start from queued jobs, requests and workers
interleave, and either may fail at any point.
-/

namespace NexusHub

/-! ## Entries -/

/-- The entry a commit writes. -/
def DbTx.log : DbTx → Option AuditLog
  | fund id clientId _ _ => some ⟨some clientId, "ESCROW_FUNDED", id.text⟩
  | release id _ clientId _ => some ⟨some clientId, "ESCROW_RELEASED", id.text⟩
  | refund id _ adminId _ _ => some ⟨some adminId, "ESCROW_REFUNDED", id.text⟩
  | approve id _ approverId _ _ _ _ => some ⟨some approverId, "APPROVE_RELEASE", id.text⟩
  | milestone id freelancerId _ _ => some ⟨some freelancerId, "MILESTONE_COMPLETED", id.text⟩
  | expire id _ triggeredBy _ => some ⟨triggeredBy, "ESCROW_EXPIRED", id.text⟩
  | failLocks _ | compensate .. => none

def DisputeWrite.log : DisputeWrite → Option AuditLog
  | verdict adminId disputeId _ _ => some ⟨some adminId, "RESOLVE_DISPUTE", disputeId⟩
  | opening .. | review _ => none

/-- The entry that a job leaves when it goes through. -/
def Job.log : Job → AuditLog
  | fundEscrow id clientId _ => ⟨some clientId, "ESCROW_FUNDED", id.text⟩
  | releaseEscrow id clientId => ⟨some clientId, "ESCROW_RELEASED", id.text⟩
  | refundEscrow id adminId _ => ⟨some adminId, "ESCROW_REFUNDED", id.text⟩
  | approveRelease id approverId _ => ⟨some approverId, "APPROVE_RELEASE", id.text⟩
  | completeMilestone id freelancerId => ⟨some freelancerId, "MILESTONE_COMPLETED", id.text⟩
  | claimExpired id triggeredBy => ⟨triggeredBy, "ESCROW_EXPIRED", id.text⟩

section
variable {db db' : Db}

theorem DbTx.apply_logs {tx : DbTx} (h : tx.apply db = .ok db') :
    db'.auditLogs = db.auditLogs ++ tx.log.toList := by
  cases tx with
  | fund id clientId contractId txHash =>
    simp only [apply, except_bind_ok, updateEscrow_ok, createAuditLog_ok] at h
    obtain ⟨_, ⟨e, -, rfl⟩, -, rfl⟩ := h
    rfl
  | failLocks id =>
    cases h
    exact (List.append_nil _).symm
  | compensate id clientId amount fee =>
    simp only [apply, except_bind_ok, updateBalance_ok, updateEscrow_ok] at h
    obtain ⟨_, ⟨b, -, rfl⟩, e, -, rfl⟩ := h
    exact (List.append_nil _).symm
  | release id e clientId txHash =>
    simp only [apply, except_bind_ok, updateEscrow_ok, payFreelancer_ok, createAuditLog_ok] at h
    obtain ⟨_, ⟨e', -, rfl⟩, _, ⟨-, -, -, rfl⟩, -, rfl⟩ := h
    rfl
  | refund id e adminId reason txHash =>
    simp only [apply, except_bind_ok, updateEscrow_ok, payClient_ok, createAuditLog_ok] at h
    obtain ⟨_, ⟨e', -, rfl⟩, _, ⟨-, -, -, rfl⟩, -, rfl⟩ := h
    rfl
  | approve id e approverId role clientApproved freelancerApproved txHash =>
    cases hboth : clientApproved && freelancerApproved with
    | true =>
      simp only [apply, hboth, except_bind_ok, updateEscrow_ok, ite_true, payFreelancer_ok, createAuditLog_ok] at h
      obtain ⟨_, ⟨e', -, rfl⟩, _, ⟨-, -, -, rfl⟩, -, rfl⟩ := h
      rfl
    | false =>
      simp only [apply, hboth, except_bind_ok, updateEscrow_ok, Bool.false_eq_true, ite_false, except_pure_ok,
        createAuditLog_ok] at h
      obtain ⟨_, ⟨e', -, rfl⟩, _, rfl, -, rfl⟩ := h
      rfl
  | milestone id freelancerId n txHash =>
    simp only [apply, except_bind_ok, updateEscrow_ok, createAuditLog_ok] at h
    obtain ⟨_, ⟨e, -, rfl⟩, -, rfl⟩ := h
    rfl
  | expire id e triggeredBy txHash =>
    simp only [apply, except_bind_ok, updateEscrow_ok, payClient_ok, createAuditLog_ok] at h
    obtain ⟨_, ⟨e', -, rfl⟩, _, ⟨-, -, -, rfl⟩, -, rfl⟩ := h
    rfl

theorem DisputeWrite.apply_logs {d : DisputeWrite} (h : d.apply db = .ok db') :
    db'.auditLogs = db.auditLogs ++ d.log.toList := by
  cases d with
  | opening userId id k =>
    simp only [apply, except_bind_ok, createDispute_ok, updateEscrow_ok] at h
    obtain ⟨_, ⟨-, -, rfl⟩, e, -, rfl⟩ := h
    exact (List.append_nil _).symm
  | review k =>
    obtain ⟨d, -, rfl⟩ := updateDispute_ok.mp h
    exact (List.append_nil _).symm
  | verdict adminId k id resolution =>
    simp only [apply, except_bind_ok, updateDispute_ok, createAuditLog_ok] at h
    obtain ⟨_, ⟨d, -, rfl⟩, db₁, hv, -, rfl⟩ := h
    cases resolution with
    | resolvedClient | resolvedFreelancer =>
      obtain ⟨e, -, rfl⟩ := updateEscrow_ok.mp hv
      rfl
    | opened | underReview | closed =>
      cases hv
      rfl

end

/-! ## What stays -/

/-- What is written once in a row. -/
structure Escrow.Fixed (e e' : Escrow) : Prop extends Escrow.Kept e e' where
  expiryLedger : e'.expiryLedger = e.expiryLedger
  milestonesTotal : e'.milestonesTotal = e.milestonesTotal
  description : e'.description = e.description
  milestoneHash : e'.milestoneHash = e.milestoneHash

theorem Escrow.fixed_evolves : Escrow.Evolves Escrow.Fixed where
  refl e := ⟨.refl e, rfl, rfl, rfl, rfl⟩
  trans h h' := ⟨h.toKept.trans h'.toKept, h'.expiryLedger.trans h.expiryLedger,
    h'.milestonesTotal.trans h.milestonesTotal, h'.description.trans h.description,
    h'.milestoneHash.trans h.milestoneHash⟩
  status e v := ⟨Escrow.kept_status e v, rfl, rfl, rfl, rfl⟩
  onEscrow tx e := by
    refine ⟨DbTx.kept_onEscrow tx e, ?_, ?_, ?_, ?_⟩
    all_goals
      cases tx with
      | approve => simp only [DbTx.onEscrow]; split <;> rfl
      | _ => rfl

/-- Rows keep their parties, disputes their escrows, and the log only grows. -/
structure Db.Later (db db' : Db) : Prop where
  rows : db.Rows Escrow.Fixed db'
  users : db'.users = db.users
  endpoints : db'.webhookEndpoints = db.webhookEndpoints
  disputes : ∀ k d, db.disputes.lookup k = some d → ∃ d', db'.disputes.lookup k = some d' ∧
    d'.escrowId = d.escrowId ∧ d'.raisedById = d.raisedById
  logs : ∃ ls, db'.auditLogs = db.auditLogs ++ ls

namespace Db.Later

variable {db db' db'' : Db}

theorem refl (db : Db) : db.Later db :=
  ⟨.of_eq Escrow.fixed_evolves rfl, rfl, rfl, fun _ d hd => ⟨d, hd, rfl, rfl⟩, [], (List.append_nil _).symm⟩

theorem trans (h : db.Later db') (h' : db'.Later db'') : db.Later db'' := by
  refine ⟨h.rows.trans Escrow.fixed_evolves h'.rows, h'.users.trans h.users, h'.endpoints.trans h.endpoints,
    fun k d hd => ?_, ?_⟩
  · obtain ⟨d₁, hd₁, he₁, hr₁⟩ := h.disputes k d hd
    obtain ⟨d₂, hd₂, he₂, hr₂⟩ := h'.disputes k d₁ hd₁
    exact ⟨d₂, hd₂, he₂.trans he₁, hr₂.trans hr₁⟩
  · obtain ⟨ls, hls⟩ := h.logs
    obtain ⟨ls', hls'⟩ := h'.logs
    exact ⟨ls ++ ls', by rw [hls', hls, List.append_assoc]⟩

theorem of_commit {tx : DbTx} (h : tx.apply db = .ok db') : db.Later db' := by
  have ha := (DbTx.apply_ok h).1
  refine ⟨.of_apply Escrow.fixed_evolves h, ha.users, ha.endpoints, fun k d hd => ⟨d, ?_, rfl, rfl⟩, _,
    DbTx.apply_logs h⟩
  rw [ha.disputes]
  exact hd

theorem of_session {x : Session} (h : x.apply db = .ok db') : db.Later db' := by
  obtain ⟨b, -, hid, -, -, -, rfl⟩ := Session.apply_ok.mp h
  have hrows : ∀ e, db.escrows.lookup x.escrowId = some e → e.Fixed x.row := by
    intro e he
    rw [hid] at he; cases he
  exact ⟨.of_insert Escrow.fixed_evolves rfl hrows, rfl, rfl, fun _ d hd => ⟨d, hd, rfl, rfl⟩, [x.auditLog], rfl⟩

end Db.Later

theorem lookup_dispute {disputes : Store String Dispute} {k : String} {d₀ d₁ : Dispute}
    (h : disputes.lookup k = some d₀) (he : d₁.escrowId = d₀.escrowId) (hr : d₁.raisedById = d₀.raisedById) :
    ∀ k' d, disputes.lookup k' = some d → ∃ d', (disputes.insert k d₁).lookup k' = some d' ∧
      d'.escrowId = d.escrowId ∧ d'.raisedById = d.raisedById := by
  intro k' d hd
  rw [Store.lookup_insert']
  by_cases hk : k' = k
  · subst hk
    cases h.symm.trans hd
    exact ⟨d₁, if_pos rfl, he, hr⟩
  · exact ⟨d, by rw [if_neg hk]; exact hd, rfl, rfl⟩

theorem lookup_insert_old {disputes : Store String Dispute} {k k' : String} {d₀ d₁ d' : Dispute}
    (h : disputes.lookup k = some d₀) (h' : (disputes.insert k d₁).lookup k' = some d') :
    ∃ d, disputes.lookup k' = some d := by
  rw [Store.lookup_insert'] at h'
  by_cases hk : k' = k
  · exact ⟨d₀, hk ▸ h⟩
  · exact ⟨d', by rw [if_neg hk] at h'; exact h'⟩

theorem Db.Rows.of_status {Q : Escrow → Escrow → Prop} (hQ : Escrow.Evolves Q) {db db' : Db} {id : Uuid} {e : Escrow}
    (he : db.escrows.lookup id = some e) {v : EscrowStatus}
    (h : db'.escrows = db.escrows.insert id { e with status := v }) : db.Rows Q db' := by
  refine .of_insert hQ h fun e' he' => ?_
  cases he.symm.trans he'
  exact hQ.status _ _

namespace DisputeWrite

/-- What a dispute transaction finds and leaves of the disputes. -/
structure Finds (db db' : Db) (d : DisputeWrite) : Prop where
  later : db.Later db'
  found : ∀ k d', db'.disputes.lookup k = some d' → (∃ d₀, db.disputes.lookup k = some d₀) ∨
    ∃ userId id, d = .opening userId id k ∧ d' = ⟨id, userId, .opened⟩

theorem apply_finds {d : DisputeWrite} {db db' : Db} (h : d.apply db = .ok db') : d.Finds db db' := by
  have hlogs := apply_logs h
  cases d with
  | opening userId id k =>
    simp only [apply, except_bind_ok, createDispute_ok, updateEscrow_ok] at h
    obtain ⟨_, ⟨hk, -, rfl⟩, e, he, rfl⟩ := h
    refine ⟨⟨.of_status Escrow.fixed_evolves he rfl, rfl, rfl, fun k' d hd => ⟨d, ?_, rfl, rfl⟩, _, hlogs⟩,
      fun k' d' hd' => ?_⟩
    · have hne : k' ≠ k := fun he => by rw [he, hk] at hd; cases hd
      exact (Store.lookup_insert' ..).trans (by rw [if_neg hne]; exact hd)
    · replace hd' := (Store.lookup_insert' ..).symm.trans hd'
      by_cases hk' : k' = k
      · subst hk'
        rw [if_pos rfl] at hd'
        cases hd'
        exact .inr ⟨userId, id, rfl, rfl⟩
      · rw [if_neg hk'] at hd'
        exact .inl ⟨d', hd'⟩
  | review k =>
    obtain ⟨d, hd, rfl⟩ := updateDispute_ok.mp h
    exact ⟨⟨.of_eq Escrow.fixed_evolves rfl, rfl, rfl, lookup_dispute hd rfl rfl, _, hlogs⟩,
      fun k' d' hd' => .inl (lookup_insert_old hd hd')⟩
  | verdict adminId k id resolution =>
    simp only [apply, except_bind_ok, updateDispute_ok, createAuditLog_ok] at h
    obtain ⟨_, ⟨d, hd, rfl⟩, db₁, hv, -, rfl⟩ := h
    cases resolution with
    | resolvedClient | resolvedFreelancer =>
      obtain ⟨e, he, rfl⟩ := updateEscrow_ok.mp hv
      exact ⟨⟨.of_status Escrow.fixed_evolves he rfl, rfl, rfl, lookup_dispute hd rfl rfl, _, hlogs⟩,
        fun k' d' hd' => .inl (lookup_insert_old hd hd')⟩
    | opened | underReview | closed =>
      cases hv
      exact ⟨⟨.of_eq Escrow.fixed_evolves rfl, rfl, rfl, lookup_dispute hd rfl rfl, _, hlogs⟩,
        fun k' d' hd' => .inl (lookup_insert_old hd hd')⟩

end DisputeWrite

/-! ## What a job signs -/

/-- A commit made for the job writes to its row and under its name; none is a `release`. -/
def Job.Signs (j : Job) : Op → Prop
  | .transact (.release ..) => False
  | .transact tx => tx.escrowId = j.escrowId ∧ ∀ l ∈ tx.log, l = j.log
  | _ => True

theorem Job.signs_of_noCommit (j : Job) (_ : World) (o : Op) (h : o.NoCommit) : j.Signs o := by
  cases o with
  | transact tx => exact h.elim
  | _ => trivial

theorem any_evolves (s : Stellar) : Prog.Evolves (platform s) fun _ _ => True :=
  ⟨fun _ => trivial, fun _ _ => trivial, fun _ _ => trivial, fun _ _ => trivial⟩

abbrev Handler.Signs {α : Type} (s : Stellar) (j : Job) (p : Handler α) (w : World) : Prop :=
  Prog.Safe (platform s) (fun _ _ => True) (fun _ o => j.Signs o) p w

section
variable {s : Stellar} {w : World}

theorem signs_fundEscrow (id : Uuid) (clientId : UserId) (amount : Int) :
    (Worker.fundEscrow s id clientId amount).Signs s (.fundEscrow id clientId amount) w := by
  refine Prog.safe_tryCatch (any_evolves s) ?_ fun e w _ => ?_
  · refine Prog.safe_bind (any_evolves s)
      (safe_readFundingInput (any_evolves s) (Job.signs_of_noCommit _) id clientId) fun input w _ => ?_
    refine Prog.safe_bind (any_evolves s)
      (safe_initIfNeeded (any_evolves s) (Job.signs_of_noCommit _) id input amount) fun _ w _ => ?_
    refine safe_invoke (any_evolves s) (Job.signs_of_noCommit _) fun hash w _ => ?_
    refine safe_perform (any_evolves s) (fun _ _ => ⟨rfl, fun l hl => (Option.some.inj hl).symm⟩)
      fun _ w _ => ?_
    exact safe_fireWebhook (any_evolves s) (Job.signs_of_noCommit _) _ _ _
  · refine Prog.safe_bind (any_evolves s) ?_ fun _ _ _ => trivial
    refine safe_perform (any_evolves s) (fun _ _ => ⟨rfl, forall_mem_none⟩) fun _ w _ => ?_
    refine safe_findEscrow (Job.signs_of_noCommit _) fun w₁ _ => ?_
    cases he : w₁.db.escrows.lookup id with
    | none => trivial
    | some e => exact Prog.safe_call fun _ _ => ⟨rfl, forall_mem_none⟩

/-- The call is refused for its arguments, so the commit is never reached. -/
theorem signs_releaseEscrow (id : Uuid) (clientId : UserId) :
    (Worker.releaseEscrow s id clientId).Signs s (.releaseEscrow id clientId) w := by
  refine safe_findEscrow (Job.signs_of_noCommit _) fun w₁ _ => ?_
  refine safe_read (any_evolves s) (Job.signs_of_noCommit _) trivial fun client w₂ _ => ?_
  refine safe_orThrow fun e _ => safe_secretOf (any_evolves s) fun key w₃ _ => ?_
  refine Prog.safe_call_bind (fun _ _ => trivial) fun w₄ hash _ hr => ?_
  have hnone : dispatch "release" [.bytes (escrowIdToBytes id.text), .address key,
      .bytes (bufferFromHex (Worker.milestoneHashOf s id e))] = none := dispatch_release
  change (w₄.submit s _ _ _).2 = .ok hash at hr
  unfold World.submit at hr
  rw [hnone] at hr
  cases hr

theorem signs_refundEscrow (id : Uuid) (adminId : UserId) (reason : String) :
    (Worker.refundEscrow s id adminId reason).Signs s (.refundEscrow id adminId reason) w := by
  refine safe_findEscrow (Job.signs_of_noCommit _) fun w₁ _ => safe_orThrow fun e _ => ?_
  refine safe_invoke (any_evolves s) (Job.signs_of_noCommit _) fun hash w₂ _ => ?_
  refine safe_perform (any_evolves s) (fun _ _ => ⟨rfl, fun l hl => (Option.some.inj hl).symm⟩) fun _ w _ => ?_
  exact safe_fireWebhook (any_evolves s) (Job.signs_of_noCommit _) _ _ _

theorem signs_claimExpired (id : Uuid) (triggeredBy : Option UserId) :
    (Worker.claimExpired s id triggeredBy).Signs s (.claimExpired id triggeredBy) w := by
  refine safe_findEscrow (Job.signs_of_noCommit _) fun w₁ _ => safe_orThrow fun e _ => ?_
  refine safe_invoke (any_evolves s) (Job.signs_of_noCommit _) fun hash w₂ _ => ?_
  refine safe_perform (any_evolves s) (fun _ _ => ⟨rfl, fun l hl => (Option.some.inj hl).symm⟩) fun _ w _ => ?_
  exact safe_fireWebhook (any_evolves s) (Job.signs_of_noCommit _) _ _ _

theorem signs_completeMilestone (id : Uuid) (freelancerId : UserId) :
    (Worker.completeMilestone s id freelancerId).Signs s (.completeMilestone id freelancerId) w := by
  refine safe_findEscrow (Job.signs_of_noCommit _) fun w₁ _ => ?_
  refine safe_read (any_evolves s) (Job.signs_of_noCommit _) trivial fun freelancer w₂ _ => ?_
  refine safe_orThrow fun e _ => safe_secretOf (any_evolves s) fun key w₃ _ => ?_
  refine safe_invoke (any_evolves s) (Job.signs_of_noCommit _) fun hash w₄ _ => ?_
  refine safe_read (any_evolves s) (Job.signs_of_noCommit _) trivial fun onChain w₅ _ => ?_
  refine safe_perform (any_evolves s) (fun _ _ => ⟨rfl, fun l hl => (Option.some.inj hl).symm⟩) fun _ w _ => ?_
  exact safe_fireWebhook (any_evolves s) (Job.signs_of_noCommit _) _ _ _

theorem signs_approveRelease (id : Uuid) (approverId : UserId) (role : ApproverRole) :
    (Worker.approveRelease s id approverId role).Signs s (.approveRelease id approverId role) w := by
  refine safe_findEscrow (Job.signs_of_noCommit _) fun w₁ _ => ?_
  refine safe_read (any_evolves s) (Job.signs_of_noCommit _) trivial fun approver w₂ _ => ?_
  refine safe_orThrow fun e _ => safe_secretOf (any_evolves s) fun key w₃ _ => ?_
  refine safe_invoke (any_evolves s) (Job.signs_of_noCommit _) fun hash w₄ _ => ?_
  refine safe_read (any_evolves s) (Job.signs_of_noCommit _) trivial fun onChain w₅ _ => ?_
  refine safe_perform (any_evolves s) (fun _ _ => ⟨rfl, fun l hl => (Option.some.inj hl).symm⟩) fun _ w _ => ?_
  split
  · exact safe_fireWebhook (any_evolves s) (Job.signs_of_noCommit _) _ _ _
  · trivial

theorem signs_process (j : Job) : (Worker.process s j).Signs s j w := by
  cases j with
  | fundEscrow => exact signs_fundEscrow _ _ _
  | releaseEscrow => exact signs_releaseEscrow _ _
  | refundEscrow => exact signs_refundEscrow _ _ _
  | approveRelease => exact signs_approveRelease _ _ _
  | completeMilestone => exact signs_completeMilestone _ _
  | claimExpired => exact signs_claimExpired _ _

end

/-! ## Who may -/

def Db.HasAdmin (db : Db) (u : UserId) : Prop := ∃ a, db.users.lookup u = some a ∧ a.role = .admin

def Db.Row (db : Db) (id : Uuid) (P : Escrow → Prop) : Prop := ∃ e, db.escrows.lookup id = some e ∧ P e

def Escrow.Party (e : Escrow) (u : UserId) : Prop := u = e.clientId ∨ u = e.freelancerId

/-- One of the parties raised the dispute. -/
def Db.RaisedByParty (db : Db) (d : Dispute) : Prop := db.Row d.escrowId (·.Party d.raisedById)

/-- The entries that someone entitled to leaves. There is none for the release by the client. -/
inductive Db.Entitles (db : Db) : AuditLog → Prop where
  | created {id : Uuid} {u : UserId} (h : db.Row id (·.clientId = u)) :
      Entitles db ⟨some u, "ESCROW_CREATED", id.text⟩
  | funded {id : Uuid} {u : UserId} (h : db.Row id (·.clientId = u)) :
      Entitles db ⟨some u, "ESCROW_FUNDED", id.text⟩
  | approved {id : Uuid} {u : UserId} (h : db.Row id (·.Party u)) :
      Entitles db ⟨some u, "APPROVE_RELEASE", id.text⟩
  | milestone {id : Uuid} {u : UserId} (h : db.Row id fun e => e.freelancerId = u ∧ e.milestonesTotal ≠ 0) :
      Entitles db ⟨some u, "MILESTONE_COMPLETED", id.text⟩
  | refunded {id : Uuid} {u : UserId} (h : db.Row id fun _ => True) (hu : db.HasAdmin u) :
      Entitles db ⟨some u, "ESCROW_REFUNDED", id.text⟩
  | expired {id : Uuid} {u : UserId} (h : db.Row id (·.expiryLedger ≠ 0)) :
      Entitles db ⟨some u, "ESCROW_EXPIRED", id.text⟩
  | resolved {k : String} {d : Dispute} {u : UserId} (hd : db.disputes.lookup k = some d) (hr : db.RaisedByParty d)
      (hu : db.HasAdmin u) : Entitles db ⟨some u, "RESOLVE_DISPUTE", k⟩

/-- A dispute transaction whose guards have been passed by someone entitled to. -/
def DisputeWrite.Allowed (db : Db) : DisputeWrite → Prop
  | opening u id _ => db.Row id (·.Party u)
  | verdict u k id _ => db.HasAdmin u ∧ ∃ d, db.disputes.lookup k = some d ∧ d.escrowId = id
  | review _ => True

/-- A job that was asked for by someone entitled to. Fundings come from the session that creates the row. -/
def Job.Asked (db : Db) : Job → Prop
  | fundEscrow .. => True
  | releaseEscrow id u => db.Row id (·.clientId = u)
  | refundEscrow id u _ => db.Row id (fun _ => True) ∧ db.HasAdmin u
  | approveRelease id u _ => db.Row id (·.Party u)
  | completeMilestone id u => db.Row id fun e => e.freelancerId = u ∧ e.milestonesTotal ≠ 0
  | claimExpired id u => u.isSome ∧ db.Row id (·.expiryLedger ≠ 0)

namespace Db.Later

variable {db db' : Db} (h : db.Later db')
include h

theorem row {id : Uuid} {P : Escrow → Prop} (hP : ∀ e e' : Escrow, e.Fixed e' → P e → P e') (hr : db.Row id P) :
    db'.Row id P := by
  obtain ⟨e, he, hp⟩ := hr
  obtain ⟨e', he', hf⟩ := h.rows id e he
  exact ⟨e', he', hP e e' hf hp⟩

theorem client {id : Uuid} {u : UserId} (hr : db.Row id (·.clientId = u)) : db'.Row id (·.clientId = u) :=
  h.row (fun _ _ hf hp => hf.clientId.trans hp) hr

theorem party {id : Uuid} {u : UserId} (hr : db.Row id (·.Party u)) : db'.Row id (·.Party u) :=
  h.row (fun e e' hf hp => by rw [Escrow.Party, hf.clientId, hf.freelancerId]; exact hp) hr

theorem tracked {id : Uuid} {u : UserId} (hr : db.Row id fun e => e.freelancerId = u ∧ e.milestonesTotal ≠ 0) :
    db'.Row id fun e => e.freelancerId = u ∧ e.milestonesTotal ≠ 0 :=
  h.row (fun e e' hf hp => by rw [hf.freelancerId, hf.milestonesTotal]; exact hp) hr

theorem expiring {id : Uuid} (hr : db.Row id (·.expiryLedger ≠ 0)) : db'.Row id (·.expiryLedger ≠ 0) :=
  h.row (fun e e' hf hp => by rw [hf.expiryLedger]; exact hp) hr

theorem hasAdmin {u : UserId} (hu : db.HasAdmin u) : db'.HasAdmin u := by
  obtain ⟨a, ha, hr⟩ := hu
  exact ⟨a, by rw [h.users]; exact ha, hr⟩

theorem raised {d d' : Dispute} (he : d'.escrowId = d.escrowId) (hr : d'.raisedById = d.raisedById)
    (hd : db.RaisedByParty d) : db'.RaisedByParty d' := by
  rw [Db.RaisedByParty, he, hr]
  exact h.party hd

theorem entitles {l : AuditLog} (hl : db.Entitles l) : db'.Entitles l := by
  cases hl with
  | created hr => exact .created (h.client hr)
  | funded hr => exact .funded (h.client hr)
  | approved hr => exact .approved (h.party hr)
  | milestone hr => exact .milestone (h.tracked hr)
  | refunded hr hu => exact .refunded (h.row (fun _ _ _ _ => trivial) hr) (h.hasAdmin hu)
  | expired hr => exact .expired (h.expiring hr)
  | resolved hd hr hu =>
    obtain ⟨d', hd', he, hb⟩ := h.disputes _ _ hd
    exact .resolved hd' (h.raised he hb hr) (h.hasAdmin hu)

theorem allowed {d : DisputeWrite} (hd : d.Allowed db) : d.Allowed db' := by
  cases d with
  | opening => exact h.party hd
  | verdict =>
    obtain ⟨hu, d, hk, he⟩ := hd
    obtain ⟨d', hd', he', -⟩ := h.disputes _ _ hk
    exact ⟨h.hasAdmin hu, d', hd', he'.trans he⟩
  | review => trivial

theorem asked {j : Job} (hj : j.Asked db) : j.Asked db' := by
  cases j with
  | fundEscrow => trivial
  | releaseEscrow => exact h.client hj
  | refundEscrow => exact ⟨h.row (fun _ _ _ _ => trivial) hj.1, h.hasAdmin hj.2⟩
  | approveRelease => exact h.party hj
  | completeMilestone => exact h.tracked hj
  | claimExpired => exact ⟨hj.1, h.expiring hj.2⟩

end Db.Later

/-- Jobs stay queued and sessions stay listed. -/
structure Site.Later (c c' : Site) : Prop where
  db : c.world.db.Later c'.world.db
  jobs : ∀ j ∈ c.world.jobs, j ∈ c'.world.jobs
  sessions : ∀ x ∈ c.sessions, ∃ st, { x with stage := st } ∈ c'.sessions

namespace Site.Later

variable {c c' c'' : Site}

theorem refl (c : Site) : c.Later c := ⟨.refl _, fun _ h => h, fun x hx => ⟨x.stage, hx⟩⟩

theorem trans (h : c.Later c') (h' : c'.Later c'') : c.Later c'' := by
  refine ⟨h.db.trans h'.db, fun j hj => h'.jobs j (h.jobs j hj), fun x hx => ?_⟩
  obtain ⟨_, hy⟩ := h.sessions x hx
  obtain ⟨st, hz⟩ := h'.sessions _ hy
  exact ⟨st, hz⟩

theorem of_world {w : World} (hdb : c.world.db.Later w.db) (hjobs : ∀ j ∈ c.world.jobs, j ∈ w.jobs)
    (ds : List DisputeWrite) : c.Later { c with world := w, writes := ds } :=
  ⟨hdb, hjobs, fun x hx => ⟨x.stage, hx⟩⟩

end Site.Later

theorem set_stage {xs : List Session} {n : Nat} {x : Session} {st : Stage} (hx : xs[n]? = some x) :
    (∀ y ∈ xs, ∃ st', { y with stage := st' } ∈ xs.set n { x with stage := st }) ∧
      ∀ z ∈ xs.set n { x with stage := st }, ∃ st', { z with stage := st' } ∈ xs := by
  obtain ⟨hlt, -⟩ := List.getElem?_eq_some_iff.mp hx
  constructor
  · intro y hy
    obtain ⟨m, hm⟩ := List.mem_iff_getElem?.mp hy
    by_cases hmn : n = m
    · subst hmn
      cases hx.symm.trans hm
      exact ⟨st, List.mem_of_getElem? (List.getElem?_set_self hlt)⟩
    · exact ⟨y.stage, List.mem_of_getElem? ((List.getElem?_set_ne hmn).trans hm)⟩
  · intro z hz
    rcases List.mem_or_eq_of_mem_set hz with hz | rfl
    · exact ⟨z.stage, hz⟩
    · exact ⟨x.stage, List.mem_of_getElem? hx⟩

theorem Site.later_stepped {s : Stellar} {c c' : Site} (h : c.Stepped s c') : c.Later c' := by
  cases h with
  | idle => exact .refl _
  | ledger | guarded | dropped => exact ⟨.refl _, fun _ h => h, fun x hx => ⟨x.stage, hx⟩⟩
  | begun hx _ =>
    exact ⟨.refl _, fun _ h => h, fun x hx => ⟨x.stage, List.mem_append_left _ hx⟩⟩
  | asked _ hdb _ hjobs =>
    refine .of_world ?_ (fun j hj => ?_) _
    · rw [hdb]; exact .refl _
    · rw [hjobs]; exact List.mem_append_left _ hj
  | written _ ha _ hj => exact .of_world (DisputeWrite.apply_finds ha).later (fun j h => by rw [hj]; exact h) _
  | moved hx hm =>
    refine ⟨?_, fun j hj => ?_, (set_stage hx).1⟩
    · cases hm with
      | committed _ ha => exact .of_session ha
      | _ => exact .refl _
    · cases hm with
      | enqueued => exact List.mem_append_left _ hj
      | _ => exact hj

theorem Site.later_evolves (s : Stellar) : Prog.Evolves (site s) Site.Later where
  refl := .refl
  trans := .trans
  perform c o := by
    rcases Site.perform_cases s c o with hp | hp
    · rw [hp]
      rcases World.perform_cases s c.world o with hs | ⟨tx, rfl, hc⟩ | ⟨_, _, _, _, rfl, -, hc⟩
      · exact .of_world (by rw [hs.db]; exact .refl _) (fun j h => by rw [hs.jobs]; exact h) _
      · exact .of_world (.of_commit hc.db) (fun j h => by rw [hc.jobs]; exact h) _
      · exact .of_world (by rw [hc.db]; exact .refl _) (fun j h => by rw [hc.jobs]; exact h) _
    · rw [hp]; exact .refl _
  env c a := later_stepped (c.env_stepped s a)

/-! ## Who asked -/

/-- The job that a request is for. -/
inductive Request.Asks (db : Db) : Request → Job → Prop where
  | created {u : UserId} {dto : CreateEscrowDto} {key : String} {id : Uuid} :
      Asks db (.createEscrow u dto key id) (.fundEscrow id u (EscrowService.stroopsOf dto.amount))
  | queued {r : Request} {user : User} {j : Job} (hu : db.users.lookup r.caller = some user)
      (hj : r.job user.role = some j) : Asks db r j

section
variable {s : Stellar} {c : Site}

theorem Request.asked {r : Request} (hr : r.Enqueues) {res : Response} (h : r.serve c.world.db = .ok res) :
    res.db = c.world.db ∧ ∃ j : Job, res.jobs = [j] ∧ r.Asks c.world.db j ∧ j.Asked c.world.db := by
  simp only [serve, except_bind_ok, orFail_ok, checkRole_ok] at h
  obtain ⟨user, hu, _, hrole, hh⟩ := h
  cases r with
  | createEscrow | openDispute | setUnderReview | resolveDispute => exact hr.elim
  | releaseEscrow u id =>
    simp only [handle, EscrowService.releaseEscrow, EscrowService.findEscrow, except_bind_ok, throwIf_ok,
      orFail_ok, except_pure_ok, exists_const, not_not] at hh
    obtain ⟨e, he, hc, -, rfl⟩ := hh
    exact ⟨rfl, _, rfl, .queued hu rfl, e, he, hc⟩
  | refundEscrow u id reason =>
    simp only [handle, EscrowService.refundEscrow, EscrowService.findEscrow, except_bind_ok, throwIf_ok,
      orFail_ok, except_pure_ok, exists_const, not_not] at hh
    obtain ⟨e, he, -, rfl⟩ := hh
    exact ⟨rfl, _, rfl, .queued hu rfl, ⟨e, he, trivial⟩, user, hu, (hrole _ rfl).symm⟩
  | approveRelease u id =>
    simp only [handle, EscrowService.approveRelease, EscrowService.findEscrow, except_bind_ok, throwIf_ok,
      orFail_ok, except_pure_ok, exists_const] at hh
    obtain ⟨e, he, hc, hf, -, rfl⟩ := hh
    refine ⟨rfl, _, rfl, .queued hu rfl, e, he, ?_⟩
    by_cases hrole : user.role = .client
    · exact .inl (by simpa [hrole, eq_comm] using hc)
    · exact .inr (by simpa [hrole, eq_comm] using hf)
  | completeMilestone u id =>
    simp only [handle, EscrowService.completeMilestone, EscrowService.findEscrow, except_bind_ok, throwIf_ok,
      orFail_ok, except_pure_ok, exists_const, not_not] at hh
    obtain ⟨e, he, hf, -, htotal, -, rfl⟩ := hh
    exact ⟨rfl, _, rfl, .queued hu rfl, e, he, hf, htotal⟩
  | claimExpired u id =>
    simp only [handle, EscrowService.claimExpired, EscrowService.findEscrow, except_bind_ok, throwIf_ok,
      orFail_ok, except_pure_ok, exists_const, not_not] at hh
    obtain ⟨e, he, -, hx, rfl⟩ := hh
    exact ⟨rfl, _, rfl, .queued hu rfl, rfl, e, he, hx⟩

/-- What an accepted request puts before the site. -/
inductive Site.Takes (c : Site) (r : Request) : Site → Prop where
  | none : Takes c r c
  | session {u : UserId} {dto : CreateEscrowDto} {key : String} {id : Uuid} (hr : r = .createEscrow u dto key id)
      (hfresh : c.Fresh id) : Takes c r { c with sessions := c.sessions ++ [⟨u, dto, key, id, .begun⟩] }
  | job {w : World} {j : Job} (hdb : w.db = c.world.db) (hjobs : w.jobs = c.world.jobs ++ [j])
      (hr : r.Asks c.world.db j) (hj : j.Asked c.world.db) : Takes c r { c with world := w }
  | write {d : DisputeWrite} (hd : d.Allowed c.world.db) : Takes c r { c with writes := c.writes ++ [d] }

theorem Site.request_takes (r : Request) :
    c.request r = c ∨ r.guards c.world.db = .ok () ∧ c.Takes r (c.request r) := by
  unfold request
  cases hg : r.guards c.world.db with
  | error e => exact .inl rfl
  | ok u =>
    refine .inr ⟨rfl, ?_⟩
    have hasked (hr : r.Enqueues) : c.Takes r { c with world := c.world.request r } := by
      cases hserve : r.serve c.world.db with
      | error e =>
        rw [world_request_error hserve]
        exact .none
      | ok res =>
        obtain ⟨hdb, j, hjobs, hr, hj⟩ := Request.asked hr hserve
        rw [world_request_ok hserve]
        exact .job hdb (congrArg _ hjobs) hr hj
    simp only [Request.guards, except_bind_ok, orFail_ok, checkRole_ok] at hg
    obtain ⟨user, hu, hrole⟩ := hg
    cases r with
    | createEscrow clientId dto key id =>
      simp only
      split
      · rename_i hf; exact .session rfl hf
      · exact .none
    | openDispute userId id disputeId =>
      simp only
      split
      · rename_i hchecked
        simp only [DisputesService.checkOpening, except_bind_ok, throwIf_ok, orFail_ok, exists_const] at hchecked
        obtain ⟨e, he, hp, -⟩ := hchecked
        refine .write ⟨e, he, ?_⟩
        by_contra hne
        exact hp ⟨fun hc => hne (.inl hc.symm), fun hf => hne (.inr hf.symm)⟩
      · exact .none
    | resolveDispute adminId disputeId resolution =>
      simp only
      split
      · rename_i hchecked
        simp only [DisputesService.checkResolution, except_bind_ok, throwIf_ok, orFail_ok, except_pure_ok,
          exists_const] at hchecked
        obtain ⟨d, hd, -, rfl⟩ := hchecked
        exact .write ⟨⟨user, hu, (hrole _ rfl).symm⟩, d, hd, rfl⟩
      · exact .none
    | setUnderReview adminId disputeId =>
      simp only
      split
      · exact .write trivial
      · exact .none
    | releaseEscrow | refundEscrow | approveRelease | completeMilestone | claimExpired => exact hasked trivial

end

/-! ## The trail -/

namespace Site

/-- What sessions draft: one row for an id, and the fundings. -/
structure Drafted (c : Site) : Prop where
  same : ∀ x ∈ c.sessions, ∀ y ∈ c.sessions, x.escrowId = y.escrowId → x.row = y.row
  rows : ∀ x ∈ c.sessions, ∀ e, c.world.db.escrows.lookup x.escrowId = some e → x.row.Fixed e
  fundings : ∀ j ∈ c.world.jobs, j.IsFund → ∃ x ∈ c.sessions, x.job = j

/-- Jobs and dispute transactions were asked for by someone entitled to, and so is every entry since `logs`. -/
structure Traced (logs : List AuditLog) (c : Site) : Prop extends c.Drafted where
  jobs : ∀ j ∈ c.world.jobs, j.Asked c.world.db
  writes : ∀ d ∈ c.writes, d.Allowed c.world.db
  disputes : ∀ k d, c.world.db.disputes.lookup k = some d → c.world.db.RaisedByParty d
  entries : ∃ new, c.world.db.auditLogs = logs ++ new ∧ ∀ l ∈ new, c.world.db.Entitles l

/-- What a step leaves as it was or brings in with a right to be there. -/
structure Adds (c c' : Site) : Prop where
  later : c.world.db.Later c'.world.db
  jobs : ∀ j ∈ c'.world.jobs, j ∈ c.world.jobs ∨ j.Asked c'.world.db
  writes : ∀ d ∈ c'.writes, d ∈ c.writes ∨ d.Allowed c'.world.db
  disputes : ∀ k d', c'.world.db.disputes.lookup k = some d' → (∃ d, c.world.db.disputes.lookup k = some d) ∨
    c'.world.db.RaisedByParty d'
  entries : ∃ new, c'.world.db.auditLogs = c.world.db.auditLogs ++ new ∧ ∀ l ∈ new, c'.world.db.Entitles l

variable {logs : List AuditLog} {c c' : Site}

/-! ### Drafts -/

theorem Drafted.later (h : c.Drafted) (hl : c.Later c')
    (hsess : ∀ y ∈ c'.sessions, ∃ st, { y with stage := st } ∈ c.sessions)
    (hrows : ∀ id e', c'.world.db.escrows.lookup id = some e' → (c.world.db.escrows.lookup id).isSome ∨
      ∃ x ∈ c.sessions, x.escrowId = id ∧ e' = x.row)
    (hjobs : ∀ j ∈ c'.world.jobs, j.IsFund → j ∈ c.world.jobs ∨ ∃ x ∈ c.sessions, x.job = j) : c'.Drafted where
  same x hx y hy he := by
    obtain ⟨_, hx₀⟩ := hsess x hx
    obtain ⟨_, hy₀⟩ := hsess y hy
    have hrow := h.same _ hx₀ _ hy₀ he
    exact hrow
  rows x hx e' he' := by
    obtain ⟨_, hx₀⟩ := hsess x hx
    rcases hrows x.escrowId e' he' with hold | ⟨y, hy, hye, rfl⟩
    · obtain ⟨e, he⟩ := Option.isSome_iff_exists.mp hold
      obtain ⟨e₁, he₁, hf⟩ := hl.db.rows _ e he
      cases he'.symm.trans he₁
      exact Escrow.fixed_evolves.trans (h.rows _ hx₀ e he) hf
    · rw [← h.same _ hx₀ y hy hye.symm]
      exact Escrow.fixed_evolves.refl _
  fundings j hj hf := by
    have hold : ∃ x ∈ c.sessions, x.job = j := by
      rcases hjobs j hj hf with hold | hnew
      · exact h.fundings j hold hf
      · exact hnew
    obtain ⟨x, hx, rfl⟩ := hold
    obtain ⟨_, hy⟩ := hl.sessions x hx
    exact ⟨_, hy, rfl⟩

theorem Drafted.begun (h : c.Drafted) {x : Session} (hf : c.Fresh x.escrowId) :
    Drafted { c with sessions := c.sessions ++ [x] } := by
  refine ⟨fun y hy z hz he => ?_, fun y hy e he => ?_, fun j hj hfund => ?_⟩
  · rcases List.mem_append.mp hy with hy | hy
    · rcases List.mem_append.mp hz with hz | hz
      · exact h.same y hy z hz he
      · cases List.mem_singleton.mp hz
        exact absurd he (hf.2.1 y hy)
    · cases List.mem_singleton.mp hy
      rcases List.mem_append.mp hz with hz | hz
      · exact absurd he.symm (hf.2.1 z hz)
      · rw [List.mem_singleton.mp hz]
  · rcases List.mem_append.mp hy with hy | hy
    · exact h.rows y hy e he
    · cases List.mem_singleton.mp hy
      change c.world.db.escrows.lookup x.escrowId = some e at he
      rw [hf.1] at he; cases he
  · obtain ⟨y, hy, he⟩ := h.fundings j hj hfund
    exact ⟨y, List.mem_append_left _ hy, he⟩

theorem Drafted.stepped (h : c.Drafted) {s : Stellar} (hs : c.Stepped s c') : c'.Drafted := by
  have hl := later_stepped hs
  cases hs with
  | idle => exact h
  | ledger | guarded | dropped => exact ⟨h.same, h.rows, h.fundings⟩
  | begun _ hf => exact h.begun hf
  | asked hj hdb _ hjobs =>
    refine h.later hl (fun y hy => ⟨y.stage, hy⟩) (fun id e' he' => .inl ?_) fun j' hj' hf => .inl ?_
    · exact Option.isSome_iff_exists.mpr ⟨e', hdb ▸ he'⟩
    · rcases List.mem_append.mp (hjobs ▸ hj') with hj' | hj'
      · exact hj'
      · cases List.mem_singleton.mp hj'
        exact absurd hf hj
  | written _ ha _ hj =>
    exact h.later hl (fun y hy => ⟨y.stage, hy⟩)
      (fun id e' he' => .inl ((DisputeWrite.apply_ok ha).isSome (Option.isSome_iff_exists.mpr ⟨e', he'⟩)))
      fun j' hj' _ => .inl (hj ▸ hj')
  | @moved n x w st hx hm =>
    have hmem := List.mem_of_getElem? hx
    have hidle (hdb : w.db = c.world.db) : ∀ id e', w.db.escrows.lookup id = some e' →
        (c.world.db.escrows.lookup id).isSome ∨ ∃ x ∈ c.sessions, x.escrowId = id ∧ e' = x.row :=
      fun id e' he' => .inl (Option.isSome_iff_exists.mpr ⟨e', hdb ▸ he'⟩)
    cases hm with
    | checked | balanceRead | locked | rowInserted | keyInserted | ended =>
      exact h.later hl (set_stage hx).2 (hidle rfl) fun _ hj _ => .inl hj
    | enqueued =>
      refine h.later hl (set_stage hx).2 (hidle rfl) fun j hj _ => ?_
      rcases List.mem_append.mp hj with hj | hj
      · exact .inl hj
      · exact .inr ⟨x, hmem, (List.mem_singleton.mp hj).symm⟩
    | committed _ ha =>
      obtain ⟨b, -, hid, -, -, -, rfl⟩ := Session.apply_ok.mp ha
      refine h.later hl (set_stage hx).2 (fun id e' he' => ?_) fun _ hj _ => .inl hj
      replace he' := (Store.lookup_insert' ..).symm.trans he'
      split at he'
      · rename_i heq
        cases he'
        exact .inr ⟨x, hmem, heq.symm, rfl⟩
      · exact .inl (Option.isSome_iff_exists.mpr ⟨e', he'⟩)

theorem Drafted.perform (h : c.Drafted) (s : Stellar) (o : Op) : ((site s).perform c o).1.Drafted := by
  have hl := (later_evolves s).perform c o
  rcases perform_cases s c o with hp | hp
  · rw [hp] at hl ⊢
    have hdraft (hjobs : (c.world.perform s o).1.jobs = c.world.jobs)
        (hrows : ∀ id e', (c.world.perform s o).1.db.escrows.lookup id = some e' →
          (c.world.db.escrows.lookup id).isSome) : Drafted { c with world := (c.world.perform s o).1 } :=
      h.later hl (fun y hy => ⟨y.stage, hy⟩) (fun id e' he' => .inl (hrows id e' he')) fun j hj _ =>
        .inl (hjobs ▸ hj)
    rcases World.perform_cases s c.world o with hs | ⟨tx, rfl, hc⟩ | ⟨_, _, _, _, rfl, -, hc⟩
    · exact hdraft hs.jobs fun id e' he' => Option.isSome_iff_exists.mpr ⟨e', hs.db ▸ he'⟩
    · refine hdraft hc.jobs fun id e' he' => ?_
      rw [(DbTx.apply_ok hc.db).1.escrows id] at he'
      split at he'
      · obtain ⟨e, he, -⟩ := Option.map_eq_some_iff.mp he'
        exact Option.isSome_iff_exists.mpr ⟨e, he⟩
      · exact Option.isSome_iff_exists.mpr ⟨e', he'⟩
    · exact hdraft hc.jobs fun id e' he' => Option.isSome_iff_exists.mpr ⟨e', hc.db ▸ he'⟩
  · rw [hp]; exact h

/-! ### Entries -/

theorem Traced.adds (h : c.Traced logs) (hdraft : c'.Drafted) (ha : c.Adds c') : c'.Traced logs where
  toDrafted := hdraft
  jobs j hj := by
    rcases ha.jobs j hj with hold | hnew
    · exact ha.later.asked (h.jobs j hold)
    · exact hnew
  writes d hd := by
    rcases ha.writes d hd with hold | hnew
    · exact ha.later.allowed (h.writes d hold)
    · exact hnew
  disputes k d' hd' := by
    rcases ha.disputes k d' hd' with ⟨d, hd⟩ | hnew
    · obtain ⟨d₁, hd₁, he, hr⟩ := ha.later.disputes k d hd
      cases hd'.symm.trans hd₁
      exact ha.later.raised he hr (h.disputes k d hd)
    · exact hnew
  entries := by
    obtain ⟨new, hnew, hl⟩ := h.entries
    obtain ⟨new', hnew', hl'⟩ := ha.entries
    refine ⟨new ++ new', by rw [hnew', hnew, List.append_assoc], fun l hmem => ?_⟩
    rcases List.mem_append.mp hmem with hmem | hmem
    · exact ha.later.entitles (hl l hmem)
    · exact hl' l hmem

theorem Adds.of_db (hdb : c'.world.db = c.world.db)
    (hjobs : ∀ j ∈ c'.world.jobs, j ∈ c.world.jobs ∨ j.Asked c'.world.db)
    (hwrites : ∀ d ∈ c'.writes, d ∈ c.writes ∨ d.Allowed c'.world.db) : c.Adds c' where
  later := by rw [hdb]; exact .refl _
  jobs := hjobs
  writes := hwrites
  disputes k d' hd' := .inl ⟨d', hdb ▸ hd'⟩
  entries := ⟨[], by rw [hdb, List.append_nil], List.forall_mem_nil _⟩

theorem request_adds (r : Request) : c.Adds (c.request r) := by
  rcases request_takes (c := c) r with hidle | ⟨-, htakes⟩
  · rw [hidle]; exact .of_db rfl (fun _ h => .inl h) fun _ h => .inl h
  generalize c.request r = c' at htakes
  cases htakes with
  | none | session => exact .of_db rfl (fun _ h => .inl h) fun _ h => .inl h
  | job hdb hjobs _ hj =>
    refine .of_db hdb (fun j' hj' => ?_) fun d hd => .inl hd
    rcases List.mem_append.mp (hjobs ▸ hj') with hj' | hj'
    · exact .inl hj'
    · cases List.mem_singleton.mp hj'
      exact .inr (by rw [hdb]; exact hj)
  | write hd =>
    refine .of_db rfl (fun _ h => .inl h) fun d' hd' => ?_
    rcases List.mem_append.mp hd' with hd' | hd'
    · exact .inl hd'
    · cases List.mem_singleton.mp hd'
      exact .inr hd

theorem put_adds {n : Nat} {x : Session} {w : World} {st : Stage} (hm : x.Moves c w st) :
    c.Adds (c.put n x (w, st)) := by
  cases hm with
  | checked | balanceRead | locked | rowInserted | keyInserted | ended =>
    exact .of_db rfl (fun _ h => .inl h) fun _ h => .inl h
  | enqueued =>
    refine .of_db rfl (fun j hj => ?_) fun _ h => .inl h
    rcases List.mem_append.mp hj with hj | hj
    · exact .inl hj
    · cases List.mem_singleton.mp hj
      exact .inr trivial
  | committed _ ha =>
    have hl := Db.Later.of_session ha
    obtain ⟨b, -, hid, -, -, -, rfl⟩ := Session.apply_ok.mp ha
    have hnew : (c.world.db.escrows.insert x.escrowId x.row).lookup x.escrowId = some x.row :=
      (Store.lookup_insert' ..).trans (if_pos rfl)
    exact ⟨hl, fun _ h => .inl h, fun _ h => .inl h, fun _ d' hd' => .inl ⟨d', hd'⟩, [x.auditLog], rfl,
      List.forall_mem_singleton.mpr (.created ⟨x.row, hnew, rfl⟩)⟩

theorem Traced.written_adds (h : c.Traced logs) {n : Nat} {d : DisputeWrite} {w : World}
    (hd : c.writes[n]? = some d) (ha : d.apply c.world.db = .ok w.db) (hj : w.jobs = c.world.jobs) :
    c.Adds { c with world := w, writes := c.writes.eraseIdx n } := by
  have hfinds := DisputeWrite.apply_finds ha
  have hallowed := h.writes d (List.mem_of_getElem? hd)
  refine ⟨hfinds.later, fun j h => .inl (hj ▸ h), fun d' hd' => .inl (List.mem_of_mem_eraseIdx hd'),
    fun k d' hd' => ?_, d.log.toList, DisputeWrite.apply_logs ha, fun l hl => ?_⟩
  · rcases hfinds.found k d' hd' with hold | ⟨userId, id, rfl, rfl⟩
    · exact .inl hold
    · exact .inr (hfinds.later.party hallowed)
  · cases d with
    | opening | review => exact absurd hl List.not_mem_nil
    | verdict adminId k id resolution =>
      cases List.mem_singleton.mp hl
      obtain ⟨hu, d, hk, -⟩ := hallowed
      exact hfinds.later.entitles (.resolved hk (h.disputes k d hk) hu)

theorem Traced.entitled (h : c.Traced logs) {j : Job} (hj : j ∈ c.world.jobs) {tx : DbTx}
    (hs : j.Signs (.transact tx)) {db : Db} (ha : tx.apply c.world.db = .ok db) {l : AuditLog} (hl : l ∈ tx.log) :
    c.world.db.Entitles l := by
  have hsigns : tx.escrowId = j.escrowId ∧ l = j.log := by
    cases tx with
    | release => exact hs.elim
    | _ => exact ⟨hs.1, hs.2 l hl⟩
  obtain ⟨hid, rfl⟩ := hsigns
  have hasked := h.jobs j hj
  cases j with
  | fundEscrow id u amount =>
    obtain ⟨x, hx, hjob⟩ := h.fundings _ hj trivial
    cases hjob
    have hready := (DbTx.apply_ok ha).2 fun id' htx => by subst htx; cases hl
    obtain ⟨e, hrow⟩ := Option.isSome_iff_exists.mp hready.row
    rw [hid] at hrow
    exact .funded ⟨e, hrow, (h.rows x hx e hrow).clientId⟩
  | releaseEscrow id u =>
    cases tx with
    | release => exact hs.elim
    | failLocks | compensate => cases hl
    | fund | refund | approve | milestone | expire =>
      have haction := congrArg AuditLog.action (Option.some.inj hl)
      simp [Job.log] at haction
  | refundEscrow => exact .refunded hasked.1 hasked.2
  | approveRelease => exact .approved hasked
  | completeMilestone => exact .milestone hasked
  | claimExpired =>
    obtain ⟨hu, hrow⟩ := hasked
    obtain ⟨u, rfl⟩ := Option.isSome_iff_exists.mp hu
    exact .expired hrow

theorem Traced.transact_adds (h : c.Traced logs) {j : Job} (hj : j ∈ c.world.jobs) {tx : DbTx}
    (hs : j.Signs (.transact tx)) {w : World} (hc : c.world.Committed tx w) : c.Adds { c with world := w } := by
  have hl := Db.Later.of_commit hc.db
  have ha := (DbTx.apply_ok hc.db).1
  exact ⟨hl, fun j h => .inl (hc.jobs ▸ h), fun _ h => .inl h, fun k d' hd' => .inl ⟨d', ha.disputes ▸ hd'⟩, _,
    DbTx.apply_logs hc.db, fun l hmem => hl.entitles (h.entitled hj hs hc.db (Option.mem_toList.mp hmem))⟩

theorem Traced.env_adds (h : c.Traced logs) (s : Stellar) (a : SiteAction) : c.Adds (c.env s a) := by
  have hidle : c.Adds c := .of_db rfl (fun _ h => .inl h) fun _ h => .inl h
  have hdrop (n : Nat) : c.Adds { c with writes := c.writes.eraseIdx n } :=
    .of_db rfl (fun _ h => .inl h) fun _ hd => .inl (List.mem_of_mem_eraseIdx hd)
  have hturns {c' : Site} (ht : c.Turns c') : c.Adds c' := by
    rcases ht with rfl | ⟨n, x, w, st, -, hm, rfl⟩
    · exact hidle
    · exact put_adds hm
  cases a with
  | ledger a => exact .of_db rfl (fun _ h => .inl h) fun _ h => .inl h
  | request r => exact request_adds r
  | advance n => exact hturns (c.advance_turns n)
  | abort n => exact hturns (c.abort_turns n)
  | write n =>
    change c.Adds (c.write n)
    unfold Site.write
    cases hd : c.writes[n]? with
    | none => exact hidle
    | some d =>
      simp only
      cases ha : d.apply c.world.db with
      | ok db => exact h.written_adds hd ha rfl
      | error e => exact hdrop n
  | drop n => exact hdrop n

theorem Traced.env (h : c.Traced logs) (s : Stellar) (a : SiteAction) : (c.env s a).Traced logs :=
  h.adds (h.toDrafted.stepped (c.env_stepped s a)) (h.env_adds s a)

end Site

/-! ## Statuses -/

def Db.Logged (db : Db) (action entityId : String) : Prop :=
  ∃ l ∈ db.auditLogs, l.action = action ∧ l.entityId = entityId

def Db.Disputed (db : Db) (id : Uuid) (P : String → Prop) : Prop :=
  ∃ k d, db.disputes.lookup k = some d ∧ d.escrowId = id ∧ P k

/-- What there must be for a row to have a status. Nothing makes a row active. -/
def World.Vouches (w : World) (id : Uuid) : EscrowStatus → Prop
  | .pending => w.db.Logged "ESCROW_CREATED" id.text
  | .funded => w.db.Logged "ESCROW_FUNDED" id.text
  | .active => False
  | .disputed => w.db.Disputed id fun _ => True
  | .released => w.db.Logged "APPROVE_RELEASE" id.text ∨ w.db.Disputed id (w.db.Logged "RESOLVE_DISPUTE")
  | .refunded => w.db.Logged "ESCROW_REFUNDED" id.text ∨ w.db.Logged "ESCROW_EXPIRED" id.text ∨
    w.db.Disputed id (w.db.Logged "RESOLVE_DISPUTE")
  | .cancelled => ∃ u amount fee, .compensate id u amount fee ∈ w.commits

def World.Vouched (w : World) : Prop := ∀ id e, w.db.escrows.lookup id = some e → w.Vouches id e.status

section
variable {w w' : World}

theorem Db.Later.logged {db db' : Db} (h : db.Later db') {action entityId : String}
    (hl : db.Logged action entityId) : db'.Logged action entityId := by
  obtain ⟨l, hmem, hl⟩ := hl
  obtain ⟨ls, hls⟩ := h.logs
  exact ⟨l, by rw [hls]; exact List.mem_append_left _ hmem, hl⟩

theorem Db.Later.disputed {db db' : Db} (h : db.Later db') {id : Uuid} {P P' : String → Prop}
    (hP : ∀ k, P k → P' k) (hd : db.Disputed id P) : db'.Disputed id P' := by
  obtain ⟨k, d, hk, he, hp⟩ := hd
  obtain ⟨d', hd', he', -⟩ := h.disputes k d hk
  exact ⟨k, d', hd', he'.trans he, hP k hp⟩

theorem World.Vouches.later (hdb : w.db.Later w'.db) (hcom : ∀ tx ∈ w.commits, tx ∈ w'.commits) {id : Uuid}
    {v : EscrowStatus} (h : w.Vouches id v) : w'.Vouches id v := by
  cases v with
  | pending | funded => exact hdb.logged h
  | active => exact h
  | disputed => exact hdb.disputed (fun _ _ => trivial) h
  | released => exact h.imp hdb.logged (hdb.disputed fun _ => hdb.logged)
  | refunded => exact h.imp hdb.logged fun h => h.imp hdb.logged (hdb.disputed fun _ => hdb.logged)
  | cancelled =>
    obtain ⟨u, amount, fee, hmem⟩ := h
    exact ⟨u, amount, fee, hcom _ hmem⟩

theorem World.Vouched.later (h : w.Vouched) (hdb : w.db.Later w'.db) (hcom : ∀ tx ∈ w.commits, tx ∈ w'.commits)
    (hrows : ∀ id e', w'.db.escrows.lookup id = some e' →
      (∃ e, w.db.escrows.lookup id = some e ∧ e.status = e'.status) ∨ w'.Vouches id e'.status) : w'.Vouched := by
  intro id e' he'
  rcases hrows id e' he' with ⟨e, he, hst⟩ | hv
  · rw [← hst]
    exact (h id e he).later hdb hcom
  · exact hv

theorem Db.logged_of_mem {db db' : Db} {l : AuditLog} {ls : List AuditLog} (h : db'.auditLogs = db.auditLogs ++ ls)
    (hl : l ∈ ls) : db'.Logged l.action l.entityId := ⟨l, by rw [h]; exact List.mem_append_right _ hl, rfl, rfl⟩

/-- A commit that changes the status says so. -/
theorem Committed.vouches {tx : DbTx} (hc : w.Committed tx w') (hr : ∀ id e u hash, tx ≠ .release id e u hash)
    (e : Escrow) : (tx.onEscrow e).status = e.status ∨ w'.Vouches tx.escrowId (tx.onEscrow e).status := by
  have hlogs := DbTx.apply_logs hc.db
  cases tx with
  | failLocks | milestone => exact .inl rfl
  | fund => exact .inr (Db.logged_of_mem hlogs (List.mem_singleton.mpr rfl))
  | compensate id u amount fee =>
    refine .inr ⟨u, amount, fee, ?_⟩
    rw [hc.commits]
    exact List.mem_append_right _ (List.mem_singleton.mpr rfl)
  | release id e u hash => exact absurd rfl (hr id e u hash)
  | refund => exact .inr (.inl (Db.logged_of_mem hlogs (List.mem_singleton.mpr rfl)))
  | expire => exact .inr (.inr (.inl (Db.logged_of_mem hlogs (List.mem_singleton.mpr rfl))))
  | approve id e' u role clientApproved freelancerApproved hash =>
    simp only [DbTx.onEscrow]
    split
    · exact .inr (.inl (Db.logged_of_mem hlogs (List.mem_singleton.mpr rfl)))
    · exact .inl rfl

theorem World.Vouched.transact {tx : DbTx} (h : w.Vouched) (hc : w.Committed tx w')
    (hr : ∀ id e u hash, tx ≠ .release id e u hash) : w'.Vouched := by
  refine h.later (.of_commit hc.db) (fun t ht => by rw [hc.commits]; exact List.mem_append_left _ ht)
    fun id e' he' => ?_
  rw [(DbTx.apply_ok hc.db).1.escrows id] at he'
  split at he'
  · rename_i hid
    subst hid
    obtain ⟨e, he, rfl⟩ := Option.map_eq_some_iff.mp he'
    rcases Committed.vouches hc hr e with hst | hv
    · exact .inl ⟨e, he, hst.symm⟩
    · exact .inr hv
  · exact .inl ⟨e', he', rfl⟩

theorem World.Vouched.written {d : DisputeWrite} (h : w.Vouched) (hallowed : d.Allowed w.db)
    (ha : d.apply w.db = .ok w'.db) (hcom : w'.commits = w.commits) : w'.Vouched := by
  have hfinds := DisputeWrite.apply_finds ha
  have hlogs := DisputeWrite.apply_logs ha
  have happlied := DisputeWrite.apply_ok ha
  refine h.later hfinds.later (fun t ht => by rw [hcom]; exact ht) fun id e' he' => ?_
  cases hs : d.sets with
  | none => exact .inl ⟨e', by rw [← happlied.rest hs]; exact he', rfl⟩
  | some p =>
    obtain ⟨id', v⟩ := p
    obtain ⟨e, he, hins⟩ := happlied.set id' v hs
    rw [hins, Store.lookup_insert'] at he'
    by_cases hid : id = id'
    · rw [if_pos hid] at he'
      cases he'
      subst hid
      right
      cases d with
      | review => cases hs
      | opening userId id k =>
        cases hs
        simp only [DisputeWrite.apply, except_bind_ok, createDispute_ok, updateEscrow_ok] at ha
        obtain ⟨_, ⟨hk, -, rfl⟩, e, -, hw⟩ := ha
        refine ⟨k, ⟨id, userId, .opened⟩, ?_, rfl, trivial⟩
        rw [hw]
        exact (Store.lookup_insert' ..).trans (if_pos rfl)
      | verdict adminId k id'' resolution =>
        have hjudged : w'.db.Disputed id (w'.db.Logged "RESOLVE_DISPUTE") := by
          obtain ⟨-, d, hk, hid'⟩ := hallowed
          have hid : id'' = id := by
            cases hv : resolution.verdict with
            | none => simp [DisputeWrite.sets, hv] at hs
            | some v' =>
              simp only [DisputeWrite.sets, hv, Option.map_some, Option.some.injEq, Prod.mk.injEq] at hs
              exact hs.1
          exact hfinds.later.disputed (fun _ hk => hk)
            ⟨k, d, hk, hid'.trans hid, Db.logged_of_mem hlogs (List.mem_singleton.mpr rfl)⟩
        cases resolution with
        | resolvedClient =>
          cases hs
          exact .inr (.inr hjudged)
        | resolvedFreelancer =>
          cases hs
          exact .inr hjudged
        | opened | underReview | closed => cases hs
    · rw [if_neg hid] at he'
      exact .inl ⟨e', he', rfl⟩

end

/-! ## Runs -/

/-- What lasts may be relied on all through a program. -/
theorem Prog.safe_lasting {Op : Type} {Res : Op → Type} {ε α σ ι : Type} {M : Machine Op Res ε σ ι}
    {R : σ → σ → Prop} (hR : Evolves M R) {P : σ → Prop} (hP : ∀ s s', R s s' → P s → P s') (p : Prog Op Res ε α)
    {s : σ} (h : P s) : Safe M R (fun s _ => P s) p s := by
  induction p generalizing s with
  | pure | throw => trivial
  | op o k ih =>
    intro s' hs
    have h' := hP s s' hs h
    exact ⟨h', fun e => ⟨ih _ h', ih _ (hP _ _ (hR.perform s' o) h')⟩, ih _ (hP _ _ (hR.perform s' o) h')⟩

abbrev SitePool := Pool Op Op.Res WorkerError Unit Site

/-- Processes start from queued jobs, one or several from each. -/
def SitePool.FromQueue (c : SitePool) : PoolAction Job SiteAction WorkerError → Prop
  | .spawn j => j ∈ c.world.world.jobs
  | .env _ | .step .. => True

instance (c : SitePool) : (a : PoolAction Job SiteAction WorkerError) → Decidable (c.FromQueue a)
  | .spawn j => inferInstanceAs (Decidable (j ∈ c.world.world.jobs))
  | .env _ | .step .. => .isTrue trivial

abbrev Site.FromQueue (s : Stellar) (c : Site) (as : List (PoolAction Job SiteAction WorkerError)) : Prop :=
  Meets (Pool.step (site s) (Worker.process s)) SitePool.FromQueue ⟨c, []⟩ as

section
variable {s : Stellar} {c : Site}

theorem safe_started (j : Job) (c : Site) (hj : j ∈ c.world.jobs) :
    Prog.Safe (site s) Site.Later (fun c o => ∃ j ∈ c.world.jobs, j.Signs o) (Worker.process s j) c := by
  have hsigns : Prog.Safe (site s) Site.Later (fun _ o => j.Signs o) (Worker.process s j) c :=
    (site_safe (signs_process j)).imp (fun _ _ _ => trivial) fun _ _ h => h
  have hqueued := Prog.safe_lasting (Site.later_evolves s) (P := fun c => j ∈ c.world.jobs)
    (fun _ _ h => h.jobs j) (Worker.process s j) hj
  exact (hsigns.and hqueued).imp (fun _ _ h => h) fun _ _ h => ⟨j, h.2, h.1⟩

theorem pool_keeps_fromQueue {R : Site → Site → Prop} {I : Site → Prop} {ok : Site → Op → Prop}
    (hR : Prog.Evolves (site s) R)
    (hsafe : ∀ j (c : Site), j ∈ c.world.jobs → Prog.Safe (site s) R ok (Worker.process s j) c)
    (henv : ∀ c a, I c → I (c.env s a)) (hop : ∀ c o, I c → ok c o → I ((site s).perform c o).1) (h : I c)
    (as : List (PoolAction Job SiteAction WorkerError)) (has : c.FromQueue s as) :
    (c.after s as).Keeps (site s) R ok I := by
  have hstep (c : SitePool) (a : PoolAction Job SiteAction WorkerError) (ha : c.FromQueue a)
      (hc : c.Keeps (site s) R ok I) : (Pool.step (site s) (Worker.process s) c a).Keeps (site s) R ok I := by
    -- the body matters to a start alone
    have hrest (hallows : c.Allows (fun _ _ => True) (fun _ _ => True) a) :
        (Pool.step (site s) (fun _ : Job => pure ()) c a).Keeps (site s) R ok I :=
      hc.step hR (fun _ _ _ => by trivial) (fun c a _ => henv c a) (fun c o _ ho hI => hop c o hI ho) hallows
    cases a with
    | env i => exact hrest trivial
    | step n fault => exact hrest (by simp only [Pool.Allows]; split <;> trivial)
    | spawn j =>
      refine ⟨hc.world, fun p hp => ?_⟩
      rcases List.mem_append.mp hp with hp | hp
      · exact hc.procs p hp
      · rw [List.mem_singleton.mp hp]
        exact hsafe j c.world ha
  exact run_inv_of_meets (fun c : SitePool => c.Keeps (site s) R ok I) (fun c a => hstep c a) as has
    ⟨h, List.forall_mem_nil _⟩

theorem keeps_fromQueue {I : Site → Prop} {ok : Site → Op → Prop}
    (hsafe : ∀ j (c : Site), j ∈ c.world.jobs → Prog.Safe (site s) Site.Later ok (Worker.process s j) c)
    (henv : ∀ c a, I c → I (c.env s a)) (hop : ∀ c o, I c → ok c o → I ((site s).perform c o).1) (h : I c)
    (as : List (PoolAction Job SiteAction WorkerError)) (has : c.FromQueue s as) : I (c.after s as).world :=
  (pool_keeps_fromQueue (Site.later_evolves s) hsafe henv hop h as has).world

end

/-! ## Main results -/

section
variable {s : Stellar} {c : Site} {logs : List AuditLog}

theorem Site.Traced.perform (h : c.Traced logs) {o : Op} (ho : ∃ j ∈ c.world.jobs, j.Signs o) :
    ((site s).perform c o).1.Traced logs := by
  refine h.adds (h.toDrafted.perform s o) ?_
  rcases Site.perform_cases s c o with hp | hp
  · rw [hp]
    rcases World.perform_cases s c.world o with hs | ⟨tx, rfl, hc⟩ | ⟨_, _, _, _, rfl, -, hc⟩
    · exact .of_db hs.db (fun j hj => .inl (hs.jobs ▸ hj)) fun _ h => .inl h
    · obtain ⟨j, hj, hsigns⟩ := ho
      exact h.transact_adds hj hsigns hc
    · exact .of_db hc.db (fun j hj => .inl (hc.jobs ▸ hj)) fun _ h => .inl h
  · rw [hp]; exact .of_db rfl (fun _ h => .inl h) fun _ h => .inl h

theorem vouched_perform (h : c.world.Vouched) {o : Op} (ho : ∃ j ∈ c.world.jobs, j.Signs o) :
    ((site s).perform c o).1.world.Vouched := by
  have hidle {w : World} (hdb : w.db = c.world.db) (hcom : w.commits = c.world.commits) : w.Vouched :=
    h.later (by rw [hdb]; exact .refl _) (fun t ht => by rw [hcom]; exact ht)
      fun id e' he' => .inl ⟨e', hdb ▸ he', rfl⟩
  rcases Site.perform_cases s c o with hp | hp
  · rw [hp]
    rcases World.perform_cases s c.world o with hs | ⟨tx, rfl, hc⟩ | ⟨_, _, _, _, rfl, -, hc⟩
    · exact hidle hs.db hs.commits
    · obtain ⟨j, -, hsigns⟩ := ho
      refine h.transact hc fun id e u hash htx => ?_
      subst htx
      exact hsigns
    · exact hidle hc.db hc.commits
  · rw [hp]; exact h

theorem vouched_env (ht : c.Traced logs) (h : c.world.Vouched) (a : SiteAction) : (c.env s a).world.Vouched := by
  have hcom := Site.env_commits s c a
  have hstep := c.env_stepped s a
  have hwritten (n : Nat) (d : DisputeWrite) (hd : c.writes[n]? = some d) := ht.writes d (List.mem_of_getElem? hd)
  generalize c.env s a = c' at hcom hstep
  have hidle (hdb : c'.world.db = c.world.db) : c'.world.Vouched :=
    h.later (by rw [hdb]; exact .refl _) (fun t ht => by rw [hcom]; exact ht)
      fun id e' he' => .inl ⟨e', hdb ▸ he', rfl⟩
  cases hstep with
  | idle | ledger | begun | guarded | dropped => exact hidle rfl
  | asked _ hdb _ _ => exact hidle hdb
  | written hd ha _ _ => exact h.written (hwritten _ _ hd) ha hcom
  | @moved n x w st hx hm =>
    cases hm with
    | committed _ ha =>
      have hl := Db.Later.of_session ha
      obtain ⟨b, -, hid, -, -, -, rfl⟩ := Session.apply_ok.mp ha
      refine h.later hl (fun t ht => ht) fun id e' he' => ?_
      replace he' := (Store.lookup_insert' ..).symm.trans he'
      split at he'
      · rename_i heq
        cases he'
        subst heq
        exact .inr ⟨x.auditLog, List.mem_append_right _ (List.mem_singleton.mpr rfl), rfl, rfl⟩
      · exact .inl ⟨e', he', rfl⟩
    | _ => exact hidle rfl

theorem drafted_start {w : World} (hj : w.jobs = []) : (Site.start w).Drafted where
  same := List.forall_mem_nil _
  rows := List.forall_mem_nil _
  fundings := by
    change ∀ j ∈ w.jobs, _
    rw [hj]
    exact List.forall_mem_nil _

theorem traced_start {w : World} (hj : w.jobs = [])
    (hd : ∀ k d, w.db.disputes.lookup k = some d → w.db.RaisedByParty d) : (Site.start w).Traced w.db.auditLogs where
  toDrafted := drafted_start hj
  jobs := by
    change ∀ j ∈ w.jobs, _
    rw [hj]
    exact List.forall_mem_nil _
  writes := List.forall_mem_nil _
  disputes := hd
  entries := ⟨[], (List.append_nil _).symm, List.forall_mem_nil _⟩

variable {w : World} (hj : w.jobs = []) (hd : ∀ k d, w.db.disputes.lookup k = some d → w.db.RaisedByParty d)
  (as : List (PoolAction Job SiteAction WorkerError)) (has : (Site.start w).FromQueue s as)
include hj hd has

/-- Whatever is added to the audit log names someone who was entitled to what the entry says. -/
theorem entries_entitled : ∃ new, ((Site.start w).after s as).world.world.db.auditLogs = w.db.auditLogs ++ new ∧
    ∀ l ∈ new, ((Site.start w).after s as).world.world.db.Entitles l :=
  (keeps_fromQueue safe_started (fun _ a h => h.env s a) (fun _ _ h ho => h.perform ho) (traced_start hj hd) as
    has).entries

/-- The status of every row is explained by the log, by its dispute or, when cancelled, by a compensation. -/
theorem statuses_vouched (hv : w.Vouched) : ((Site.start w).after s as).world.world.Vouched :=
  (keeps_fromQueue (I := fun c => c.Traced w.db.auditLogs ∧ c.world.Vouched) safe_started
    (fun _ a h => ⟨h.1.env s a, vouched_env h.1 h.2 a⟩) (fun _ _ h ho => ⟨h.1.perform ho, vouched_perform h.2 ho⟩)
    ⟨traced_start hj hd, hv⟩ as has).2

end

theorem sample_entries_entitled : ∃ new, ((Site.start sampleWorld).after sampleStellar
      (sampleDisputed ++ sampleResolved .resolvedClient)).world.world.db.auditLogs =
        sampleWorld.db.auditLogs ++ new ∧
    ∀ l ∈ new, ((Site.start sampleWorld).after sampleStellar
      (sampleDisputed ++ sampleResolved .resolvedClient)).world.world.db.Entitles l :=
  entries_entitled rfl (fun _ _ h => by cases h) (sampleDisputed ++ sampleResolved .resolvedClient)
    (by decide +kernel)

theorem sample_statuses_vouched : ((Site.start sampleWorld).after sampleStellar
    (sampleDisputed ++ sampleResolved .resolvedClient)).world.world.Vouched :=
  statuses_vouched rfl (fun _ _ h => by cases h) (sampleDisputed ++ sampleResolved .resolvedClient)
    (by decide +kernel) fun _ _ h => by cases h

/-! ## The worker's part of the log -/

/-- The actions that the worker writes. -/
def AuditLog.ofWorker (l : AuditLog) : Bool :=
  l.action = "ESCROW_FUNDED" ∨ l.action = "ESCROW_RELEASED" ∨ l.action = "ESCROW_REFUNDED" ∨
    l.action = "APPROVE_RELEASE" ∨ l.action = "MILESTONE_COMPLETED" ∨ l.action = "ESCROW_EXPIRED"

theorem DbTx.log_ofWorker (tx : DbTx) : tx.log.toList.filter AuditLog.ofWorker = tx.log.toList := by
  cases tx <;> simp [log, AuditLog.ofWorker]

theorem DisputeWrite.log_ofWorker (d : DisputeWrite) : d.log.toList.filter AuditLog.ofWorker = [] := by
  cases d <;> simp [log, AuditLog.ofWorker]

/-- The worker's entries in the log are those of its commits, in their order. -/
def World.LogsCommits (logs : List AuditLog) (w : World) : Prop :=
  w.db.auditLogs.filter AuditLog.ofWorker = logs.filter AuditLog.ofWorker ++ w.commits.filterMap DbTx.log

theorem World.LogsCommits.of_new {logs : List AuditLog} {w w' : World} (h : w.LogsCommits logs)
    {new : List AuditLog} (hl : w'.db.auditLogs = w.db.auditLogs ++ new) (hnew : new.filter AuditLog.ofWorker = [])
    (hcom : w'.commits = w.commits) : w'.LogsCommits logs := by
  rw [LogsCommits, hl, List.filter_append, hnew, List.append_nil, hcom]
  exact h

theorem World.LogsCommits.transact {logs : List AuditLog} {w w' : World} (h : w.LogsCommits logs) {tx : DbTx}
    (hc : w.Committed tx w') : w'.LogsCommits logs := by
  have hlog : [tx].filterMap DbTx.log = tx.log.toList := by cases tx <;> rfl
  rw [LogsCommits, DbTx.apply_logs hc.db, List.filter_append, DbTx.log_ofWorker, hc.commits, List.filterMap_append,
    hlog, ← List.append_assoc]
  exact congrArg (· ++ _) h

theorem worker_log_is_commits {s : Stellar} {w : World} (hw : w.commits = [])
    (as : List (PoolAction Job SiteAction WorkerError)) :
    ((Site.start w).after s as).world.world.LogsCommits w.db.auditLogs := by
  refine pool_world_inv (I := fun c : Site => c.world.LogsCommits w.db.auditLogs) (fun c a h => ?_) (fun c o h => ?_)
    (c := ⟨Site.start w, []⟩) ?_ as
  · have hcom := Site.env_commits s c a
    have hstep := c.env_stepped s a
    change (c.env s a).world.LogsCommits w.db.auditLogs
    generalize c.env s a = c' at hcom hstep
    have hidle (hdb : c'.world.db = c.world.db) : c'.world.LogsCommits w.db.auditLogs :=
      h.of_new (by rw [hdb]; exact (List.append_nil _).symm) rfl hcom
    cases hstep with
    | idle | ledger | begun | guarded | dropped => exact hidle rfl
    | asked _ hdb _ _ => exact hidle hdb
    | written _ ha _ _ => exact h.of_new (DisputeWrite.apply_logs ha) (DisputeWrite.log_ofWorker _) hcom
    | @moved n x _ _ hx hm =>
      cases hm with
      | committed _ ha =>
        obtain ⟨b, -, -, -, -, -, rfl⟩ := Session.apply_ok.mp ha
        have hnew : [x.auditLog].filter AuditLog.ofWorker = [] := by simp [Session.auditLog, AuditLog.ofWorker]
        exact h.of_new rfl hnew rfl
      | _ => exact hidle rfl
  · rcases Site.perform_cases s c o with hp | hp
    · rw [hp]
      rcases World.perform_cases s c.world o with hs | ⟨tx, rfl, hc⟩ | ⟨_, _, _, _, rfl, -, hc⟩
      · exact h.of_new (by rw [hs.db]; exact (List.append_nil _).symm) rfl hs.commits
      · exact h.transact hc
      · exact h.of_new (by rw [hc.db]; exact (List.append_nil _).symm) rfl hc.commits
    · rw [hp]; exact h
  · change w.db.auditLogs.filter _ = _ ++ w.commits.filterMap _
    rw [hw]
    exact (List.append_nil _).symm

theorem sample_worker_log : ((Site.start sampleWorld).after sampleStellar
    (sampleDisputed ++ sampleResolved .resolvedClient)).world.world.LogsCommits sampleWorld.db.auditLogs :=
  worker_log_is_commits rfl (sampleDisputed ++ sampleResolved .resolvedClient)

end NexusHub
