import NexusHub.Commits

/-!
# What a request does

An accepted request returns an earlier answer, creates an escrow, opens,
reviews or resolves a dispute, or queues one job and writes nothing.
-/

namespace NexusHub

/-! ## Inverting a method -/

theorem throwIf_ok {c : Prop} [Decidable c] {e : HttpError} {u : Unit} : throwIf c e = .ok u ↔ ¬ c := by
  unfold throwIf; split <;> simp_all

theorem orFail_ok {α : Type} {x : Option α} {e : HttpError} {a : α} : orFail x e = .ok a ↔ x = some a := by
  unfold orFail; split <;> simp_all

theorem inTransaction_ok {α : Type} {x : Except DbError α} {a : α} : inTransaction x = .ok a ↔ x = .ok a := by
  unfold inTransaction; split <;> simp_all

theorem checkRole_ok {required : Option UserRole} {role : UserRole} {u : Unit} :
    checkRole required role = .ok u ↔ ∀ r ∈ required, r = role := by
  cases required with
  | none => simp [checkRole]
  | some r => simp [checkRole, throwIf_ok]

/-- The job a request asks for, `role` being its caller's. -/
def Request.job (role : UserRole) : Request → Option Job
  | releaseEscrow clientId id => some (.releaseEscrow id clientId)
  | refundEscrow adminId id reason => some (.refundEscrow id adminId reason)
  | approveRelease userId id =>
    some (.approveRelease id userId (if role = .client then .client else .freelancer))
  | completeMilestone freelancerId id => some (.completeMilestone id freelancerId)
  | claimExpired userId id => some (.claimExpired id (some userId))
  | createEscrow .. | openDispute .. | setUnderReview .. | resolveDispute .. => none

def Job.escrowId : Job → Uuid
  | fundEscrow id .. | releaseEscrow id _ | refundEscrow id .. | approveRelease id .. | completeMilestone id _
  | claimExpired id _ => id

def Job.actor : Job → Option UserId
  | fundEscrow _ u _ | releaseEscrow _ u | refundEscrow _ u _ | approveRelease _ u _
  | completeMilestone _ u => some u
  | claimExpired _ u => u

def Job.IsFund : Job → Prop
  | fundEscrow .. => True
  | _ => False

def DisputeStatus.verdict : DisputeStatus → Option EscrowStatus
  | resolvedClient => some .refunded
  | resolvedFreelancer => some .released
  | opened | underReview | closed => none

structure Creates (db : Db) (clientId : UserId) (dto : CreateEscrowDto) (key : String) (id : Uuid)
    (b : Balance) : Prop where
  key_fresh : db.transactions.lookup key = none
  freelancer : ∃ f, db.users.lookup dto.freelancerId = some f ∧ f.role = .freelancer ∧ f.stellarPublicKey.isSome
  client : (db.users.lookup clientId).isSome
  balance : db.balances.lookup clientId = some b
  covered : EscrowService.totalDebitOf dto.amount * 10 ^ 6 ≤ b.availableAmount
  balance_fits : (EscrowService.lockBalance dto.amount b).Storable
  id_fresh : db.escrows.lookup id = none
  row_fits : (EscrowService.newEscrow clientId dto).Storable

inductive Served (db : Db) (role : UserRole) : Request → Response → Prop where
  | replayed {clientId : UserId} {dto : CreateEscrowDto} {key : String} {id : Uuid}
      (hkey : (db.transactions.lookup key).isSome) :
      Served db role (.createEscrow clientId dto key id) ⟨db, [], []⟩
  | created {clientId : UserId} {dto : CreateEscrowDto} {key : String} {id : Uuid} {b : Balance}
      (h : Creates db clientId dto key id b) :
      Served db role (.createEscrow clientId dto key id)
        ⟨{ db with
            balances := db.balances.insert clientId (EscrowService.lockBalance dto.amount b)
            escrows := db.escrows.insert id (EscrowService.newEscrow clientId dto)
            transactions := db.transactions.insert key (EscrowService.lockTransaction clientId dto id)
            auditLogs := db.auditLogs ++ [⟨some clientId, "ESCROW_CREATED", id.text⟩] },
          [.fundEscrow id clientId (EscrowService.stroopsOf dto.amount)], []⟩
  | queued {r : Request} {job : Job} {e : Escrow} (hj : r.job role = some job)
      (he : db.escrows.lookup job.escrowId = some e) (hs : EscrowService.isOpen e ∨ e.status = .disputed) :
      Served db role r ⟨db, [job], []⟩
  | disputed {userId : UserId} {id : Uuid} {disputeId : String} {e : Escrow}
      (he : db.escrows.lookup id = some e) (hp : userId = e.clientId ∨ userId = e.freelancerId)
      (hs : EscrowService.isOpen e) :
      Served db role (.openDispute userId id disputeId)
        ⟨{ db with
            disputes := db.disputes.insert disputeId ⟨id, userId, .opened⟩
            escrows := db.escrows.insert id { e with status := .disputed } },
          [], [⟨none, none, none, .disputeOpened, .disputeOpened disputeId id userId⟩]⟩
  | reviewed {adminId : UserId} {disputeId : String} {d : Dispute}
      (hd : db.disputes.lookup disputeId = some d) : Served db role (.setUnderReview adminId disputeId)
        ⟨{ db with disputes := db.disputes.insert disputeId { d with status := .underReview } }, [], []⟩
  | resolved {adminId : UserId} {disputeId : String} {resolution : DisputeStatus} {d : Dispute}
      {escrows : Store Uuid Escrow} (hd : db.disputes.lookup disputeId = some d)
      (hv : match resolution.verdict with
        | some v => ∃ e, db.escrows.lookup d.escrowId = some e ∧
            escrows = db.escrows.insert d.escrowId { e with status := v }
        | none => escrows = db.escrows) :
      Served db role (.resolveDispute adminId disputeId resolution)
        ⟨{ db with
            disputes := db.disputes.insert disputeId { d with status := resolution }
            escrows := escrows
            auditLogs := db.auditLogs ++ [⟨some adminId, "RESOLVE_DISPUTE", disputeId⟩] },
          [], [⟨none, none, none, .disputeResolved, .disputeResolved disputeId resolution⟩]⟩

theorem lockFunds_ok {db db' : Db} {clientId : UserId} {amount : ℚ} :
    EscrowService.lockFunds db clientId amount = .ok db' ↔
      ∃ b, db.balances.lookup clientId = some b ∧ (EscrowService.lockBalance amount b).Storable ∧
        db' = { db with balances := db.balances.insert clientId (EscrowService.lockBalance amount b) } := by
  unfold EscrowService.lockFunds
  cases h : db.balances.lookup clientId with
  | none => simp
  | some b => by_cases hs : (EscrowService.lockBalance amount b).Storable <;> simp [hs, eq_comm]

theorem createEscrow_served {db : Db} {role : UserRole} {clientId : UserId} {dto : CreateEscrowDto}
    {key : String} {id : Uuid} {res : Response}
    (h : EscrowService.createEscrow db clientId dto key id = .ok res) :
    Served db role (.createEscrow clientId dto key id) res := by
  unfold EscrowService.createEscrow at h
  by_cases hkey : (db.transactions.lookup key).isSome
  · rw [if_pos hkey] at h
    cases h
    exact .replayed hkey
  · simp only [if_neg hkey, except_bind_ok, throwIf_ok, orFail_ok, inTransaction_ok, lockFunds_ok, createEscrow_ok,
      createTransaction_ok, createAuditLog_ok, except_pure_ok, exists_const, not_not, not_lt] at h
    obtain ⟨f, hf, hrole, hkey', b, hb, hle, _, ⟨b', hb', hfits, rfl⟩, _, ⟨hid, hc, ⟨-, hrow⟩, rfl⟩, _, ⟨hk, -, rfl⟩,
      _, ⟨-, rfl⟩, rfl⟩ := h
    obtain rfl : b = b' := Option.some.inj (hb.symm.trans hb')
    refine .created ⟨hk, ⟨f, hf, hrole, ?_⟩, hc, hb, hle, hfits, hid, hrow⟩
    simpa [Option.isSome_iff_ne_none] using hkey'

theorem openDispute_served {db : Db} {role : UserRole} {userId : UserId} {id : Uuid} {disputeId : String}
    {res : Response} (h : DisputesService.openDispute db userId id disputeId = .ok res) :
    Served db role (.openDispute userId id disputeId) res := by
  simp only [DisputesService.openDispute, except_bind_ok, throwIf_ok, orFail_ok, inTransaction_ok,
    createDispute_ok, updateEscrow_ok, except_pure_ok, exists_const, not_not] at h
  obtain ⟨e, he, hp, hs, -, _, ⟨-, -, rfl⟩, _, ⟨e', he', rfl⟩, rfl⟩ := h
  obtain rfl : e = e' := Option.some.inj (he.symm.trans he')
  refine .disputed he ?_ hs
  by_contra hne
  exact hp ⟨fun hc => hne (.inl hc.symm), fun hf => hne (.inr hf.symm)⟩

theorem resolveDispute_served {db : Db} {role : UserRole} {adminId : UserId} {disputeId : String}
    {resolution : DisputeStatus} {res : Response}
    (h : DisputesService.resolveDispute db adminId disputeId resolution = .ok res) :
    Served db role (.resolveDispute adminId disputeId resolution) res := by
  simp only [DisputesService.resolveDispute, except_bind_ok, throwIf_ok, orFail_ok, inTransaction_ok,
    updateDispute_ok, createAuditLog_ok, except_pure_ok, exists_const] at h
  obtain ⟨d, hd, -, _, ⟨d', hd', rfl⟩, db', hv, _, ⟨-, rfl⟩, rfl⟩ := h
  obtain rfl : d = d' := Option.some.inj (hd.symm.trans hd')
  cases resolution with
  | resolvedClient | resolvedFreelancer =>
    obtain ⟨e, he, rfl⟩ := updateEscrow_ok.mp hv
    exact .resolved hd ⟨e, he, rfl⟩
  | opened | underReview | closed =>
    cases hv
    exact .resolved hd rfl

theorem setUnderReview_served {db : Db} {role : UserRole} {adminId : UserId} {disputeId : String}
    {res : Response} (h : DisputesService.setUnderReview db disputeId = .ok res) :
    Served db role (.setUnderReview adminId disputeId) res := by
  simp only [DisputesService.setUnderReview, except_bind_ok, throwIf_ok, orFail_ok, inTransaction_ok,
    updateDispute_ok, except_pure_ok, exists_const] at h
  obtain ⟨d, hd, -, _, ⟨d', hd', rfl⟩, rfl⟩ := h
  obtain rfl : d = d' := Option.some.inj (hd.symm.trans hd')
  exact .reviewed hd

theorem Request.handle_served {db : Db} {role : UserRole} {r : Request} {res : Response}
    (h : r.handle db role = .ok res) : Served db role r res := by
  cases r with
  | createEscrow => exact createEscrow_served h
  | openDispute => exact openDispute_served h
  | resolveDispute => exact resolveDispute_served h
  | setUnderReview => exact setUnderReview_served h
  | releaseEscrow u id =>
    simp only [handle, EscrowService.releaseEscrow, EscrowService.findEscrow, except_bind_ok, throwIf_ok,
      orFail_ok, except_pure_ok, exists_const, not_not] at h
    obtain ⟨e, he, -, hs, rfl⟩ := h
    exact .queued rfl he (.inl hs)
  | refundEscrow u id reason =>
    simp only [handle, EscrowService.refundEscrow, EscrowService.findEscrow, except_bind_ok, throwIf_ok,
      orFail_ok, except_pure_ok, exists_const, not_not] at h
    obtain ⟨e, he, hs, rfl⟩ := h
    exact .queued rfl he hs
  | approveRelease u id =>
    simp only [handle, EscrowService.approveRelease, EscrowService.findEscrow, except_bind_ok, throwIf_ok,
      orFail_ok, except_pure_ok, exists_const, not_not] at h
    obtain ⟨e, he, -, -, hs, rfl⟩ := h
    exact .queued rfl he (.inl hs)
  | completeMilestone u id =>
    simp only [handle, EscrowService.completeMilestone, EscrowService.findEscrow, except_bind_ok, throwIf_ok,
      orFail_ok, except_pure_ok, exists_const, not_not] at h
    obtain ⟨e, he, -, hs, -, -, rfl⟩ := h
    exact .queued rfl he (.inl hs)
  | claimExpired u id =>
    simp only [handle, EscrowService.claimExpired, EscrowService.findEscrow, except_bind_ok, throwIf_ok,
      orFail_ok, except_pure_ok, exists_const, not_not] at h
    obtain ⟨e, he, hs, -, rfl⟩ := h
    exact .queued rfl he (.inl hs)

theorem Request.served {db : Db} {r : Request} {res : Response} (h : r.serve db = .ok res) :
    ∃ user, db.users.lookup r.caller = some user ∧ Served db user.role r res := by
  simp only [serve, except_bind_ok, orFail_ok] at h
  obtain ⟨user, hu, _, -, hh⟩ := h
  exact ⟨user, hu, handle_served hh⟩

/-- What holds of the database before a request and of the one it is answered with holds after it. -/
theorem World.request_db {w : World} {r : Request} (P : Db → Prop) (h : P w.db)
    (hserved : ∀ role res, Served w.db role r res → P res.db) : P (w.request r).db := by
  unfold World.request
  split
  · rename_i res hres
    obtain ⟨user, -, hs⟩ := Request.served hres
    exact hserved user.role res hs
  · exact h

theorem Request.job_actor {r : Request} {role : UserRole} {j : Job} (h : r.job role = some j) :
    ∀ u ∈ j.actor, u = r.caller := by
  intro u hu
  cases r <;> cases h <;> cases hu <;> rfl

theorem Request.job_not_fund {r : Request} {role : UserRole} {j : Job} (h : r.job role = some j) :
    ¬ j.IsFund := by
  cases r <;> cases h <;> exact id

/-! ## What every request leaves alone -/

namespace Served

variable {db : Db} {role : UserRole} {r : Request} {res : Response}

theorem users (h : Served db role r res) : res.db.users = db.users := by
  cases h <;> rfl

theorem keys (h : Served db role r res) {k : String} (hk : (db.transactions.lookup k).isSome) :
    (res.db.transactions.lookup k).isSome := by
  cases h with
  | created => exact (Store.isSome_insert _ _ _ k).mpr (.inl hk)
  | _ => exact hk

end Served

end NexusHub
