import NexusHub.Attempts
import NexusHub.Settlement

/-!
# What a plan does to the row and to the record

The row is meant to mirror the record: status, approvals and milestones. The
call of a plan changes the record, its transaction the row, and the
transaction makes of a row that mirrored the old record one that mirrors the
new one. Balances move when the record is settled, and only then.
-/

namespace NexusHub

structure Mirrors (e : Escrow) (r : EscrowRecord) : Prop where
  status : e.status = r.status
  client : e.clientApproved = r.clientApproved
  freelancer : e.freelancerApproved = r.freelancerApproved
  milestones : e.milestonesCompleted = r.milestonesCompleted

/-- What holds of a plan made from the row `e`, `r` being the record its call admits. -/
structure Plan.Sound (id : Uuid) (e : Escrow) (p : Plan) : Prop where
  named : p.call.escrowId? = some id.bytes
  no_init : p.call.isInit = false
  row : ∀ r txHash, (p.tx r txHash).escrowId = id
  no_fail : ∀ r txHash k, p.tx r txHash ≠ .failLocks k
  contract : ∀ r txHash e', ((p.tx r txHash).onEscrow e').stellarContractId = e'.stellarContractId
  settles : ∀ {env paused r}, p.call.Admits env paused r → (p.call.change env r).record.Settled →
    ∀ txHash, let tx := p.tx (p.call.change env r).record txHash
      (∀ e', (tx.onEscrow e').status = (p.call.change env r).record.status) ∧
        (∀ u, reservedOf tx.moves u = if u = e.clientId then -e.amount else 0) ∧ tx.key.isSome
  keeps : ∀ {env paused r}, p.call.Admits env paused r → ¬ (p.call.change env r).record.Settled →
    (p.call.change env r).record.status = r.status ∧
      ∀ txHash, let tx := p.tx (p.call.change env r).record txHash
        (∀ e', (tx.onEscrow e').status = e'.status) ∧ tx.moves = [] ∧ tx.key = none
  mirrors : ∀ {env paused r}, p.call.Admits env paused r → ∀ e' txHash, Mirrors e' r →
    Mirrors ((p.tx (p.call.change env r).record txHash).onEscrow e') (p.call.change env r).record

theorem reservedOf_pay (client freelancer u : UserId) (amount : Int) :
    reservedOf [⟨freelancer, amount, 0⟩, ⟨client, 0, -amount⟩] u = if u = client then -amount else 0 := by
  simp [reservedOf]

theorem reservedOf_back (client u : UserId) (amount : Int) :
    reservedOf [⟨client, amount, -amount⟩] u = if u = client then -amount else 0 := by
  simp [reservedOf]

/-! ## The plans -/

theorem refund_sound (s : Stellar) (id : Uuid) (e : Escrow) (adminId : UserId) (reason : String) :
    Plan.Sound id e ⟨[s.adminKey], .refund id.bytes, fun _ txHash => .refund id e adminId reason txHash⟩ where
  named := rfl
  no_init := rfl
  row _ _ := rfl
  no_fail _ _ _ := nofun
  contract _ _ _ := rfl
  settles _ _ _ := ⟨fun _ => rfl, fun u => reservedOf_back e.clientId u e.amount, rfl⟩
  keeps _ h := absurd (.inr rfl) h
  mirrors _ _ _ h := ⟨rfl, h.client, h.freelancer, h.milestones⟩

theorem claim_sound (s : Stellar) (id : Uuid) (e : Escrow) (triggeredBy : Option UserId) :
    Plan.Sound id e
      ⟨[s.adminKey], .claimExpired id.bytes, fun _ txHash => .expire id e triggeredBy txHash⟩ where
  named := rfl
  no_init := rfl
  row _ _ := rfl
  no_fail _ _ _ := nofun
  contract _ _ _ := rfl
  settles _ _ _ := ⟨fun _ => rfl, fun u => reservedOf_back e.clientId u e.amount, rfl⟩
  keeps _ h := absurd (.inr rfl) h
  mirrors _ _ _ h := ⟨rfl, h.client, h.freelancer, h.milestones⟩

theorem milestone_sound (s : Stellar) (id : Uuid) (e : Escrow) (key : Address) (freelancerId : UserId) :
    Plan.Sound id e ⟨[s.adminKey, key], .completeMilestone id.bytes, fun r txHash =>
      .milestone id freelancerId r.milestonesCompleted txHash⟩ where
  named := rfl
  no_init := rfl
  row _ _ := rfl
  no_fail _ _ _ := nofun
  contract _ _ _ := rfl
  settles ha hs := by
    have hopen : EscrowRecord.Live _ := .inr (.inl ha.2.1)
    exact absurd (.inl hs) hopen.not_closed
  keeps _ _ := ⟨rfl, fun _ => ⟨fun _ => rfl, rfl, rfl⟩⟩
  mirrors _ _ _ h := ⟨h.status, h.client, h.freelancer, rfl⟩

theorem approve_settled {env : Env} {paused : Bool} {r : EscrowRecord} {id : Bytes} {a : Address}
    (ha : (Call.approveRelease id a).Admits env paused r) :
    ((Call.approveRelease id a).change env r).record.Settled ↔
      (((Call.approveRelease id a).change env r).record.clientApproved &&
        ((Call.approveRelease id a).change env r).record.freelancerApproved) = true := by
  have hlive : (r.approve a).Live := .inr (.inl ha.2.1)
  simp only [Call.change]
  split
  · rename_i hb
    simp [EscrowRecord.Settled, hb.1, hb.2]
  · rename_i hb
    simp only [Bool.and_eq_true]
    exact ⟨fun hs => absurd (.inl hs) hlive.not_closed, fun h => absurd h hb⟩

section
variable {env : Env} {paused : Bool} {r : EscrowRecord} {id : Bytes} {a : Address}

theorem approve_released (ha : (Call.approveRelease id a).Admits env paused r)
    (hs : ((Call.approveRelease id a).change env r).record.Settled) :
    ((Call.approveRelease id a).change env r).record.status = .released := by
  have hb := (approve_settled ha).mp hs
  rw [Bool.and_eq_true] at hb
  simp only [Call.change] at hb ⊢
  split
  · rfl
  · rename_i hn
    rw [if_neg hn] at hb
    exact absurd hb hn

theorem approve_unsettled (hs : ¬ ((Call.approveRelease id a).change env r).record.Settled) :
    ((Call.approveRelease id a).change env r).record.status = r.status := by
  simp only [Call.change] at hs ⊢
  split
  · rename_i hc
    rw [if_pos hc] at hs
    exact absurd (.inl rfl) hs
  · rfl

theorem approve_milestones :
    ((Call.approveRelease id a).change env r).record.milestonesCompleted = r.milestonesCompleted := by
  simp only [Call.change]
  split <;> rfl

end

theorem approve_sound (s : Stellar) (id : Uuid) (e : Escrow) (key : Address) (approverId : UserId)
    (role : ApproverRole) :
    Plan.Sound id e ⟨[s.adminKey, key], .approveRelease id.bytes key, fun r txHash =>
      .approve id e approverId role r.clientApproved r.freelancerApproved txHash⟩ where
  named := rfl
  no_init := rfl
  row _ _ := rfl
  no_fail _ _ _ := nofun
  contract r _ e' := by
    simp only [DbTx.onEscrow]
    split <;> rfl
  settles {env paused r} ha hs txHash := by
    have hb := (approve_settled ha).mp hs
    simp only [DbTx.onEscrow, DbTx.moves, DbTx.key, hb, ite_true]
    exact ⟨fun _ => (approve_released ha hs).symm, fun u => reservedOf_pay _ _ u _, rfl⟩
  keeps {env paused r} ha hs := by
    have hb : ¬ _ := fun hb => hs ((approve_settled ha).mpr hb)
    exact ⟨approve_unsettled hs, fun txHash => by simp [DbTx.onEscrow, DbTx.moves, DbTx.key, hb]⟩
  mirrors {env paused r} ha e' txHash h := by
    have hm := h.milestones.trans (@approve_milestones env r id.bytes key).symm
    by_cases hs : ((Call.approveRelease id.bytes key).change env r).record.Settled
    · have hb := (approve_settled ha).mp hs
      simp only [DbTx.onEscrow, hb, ite_true]
      exact ⟨(approve_released ha hs).symm, rfl, rfl, hm⟩
    · have hb : ¬ _ := fun hb => hs ((approve_settled ha).mpr hb)
      simp only [DbTx.onEscrow, hb, ite_false]
      exact ⟨h.status.trans (approve_unsettled hs).symm, rfl, rfl, hm⟩

inductive Planned (s : Stellar) (w : World) : Job → Plan → Prop where
  | refund {id : Uuid} {u : UserId} {reason : String} {e : Escrow} (he : w.contractRow id = some e) :
      Planned s w (.refundEscrow id u reason)
        ⟨[s.adminKey], .refund id.bytes, fun _ txHash => .refund id e u reason txHash⟩
  | approve {id : Uuid} {u : UserId} {role : ApproverRole} {e : Escrow} {key : Address}
      (he : w.contractRow id = some e) (hk : w.keyOf s u = some key) :
      Planned s w (.approveRelease id u role)
        ⟨[s.adminKey, key], .approveRelease id.bytes key, fun r txHash =>
          .approve id e u role r.clientApproved r.freelancerApproved txHash⟩
  | milestone {id : Uuid} {u : UserId} {e : Escrow} {key : Address}
      (he : w.contractRow id = some e) (hk : w.keyOf s u = some key) :
      Planned s w (.completeMilestone id u)
        ⟨[s.adminKey, key], .completeMilestone id.bytes, fun r txHash =>
          .milestone id u r.milestonesCompleted txHash⟩
  | claim {id : Uuid} {u : Option UserId} {e : Escrow} (he : w.contractRow id = some e) :
      Planned s w (.claimExpired id u)
        ⟨[s.adminKey], .claimExpired id.bytes, fun _ txHash => .expire id e u txHash⟩

theorem Job.planned {s : Stellar} {w : World} {j : Job} {p : Plan} (hp : j.plan s w = some p) :
    Planned s w j p := by
  cases j with
  | fundEscrow | releaseEscrow => cases hp
  | refundEscrow id u reason =>
    obtain ⟨e, he, rfl⟩ := Option.map_eq_some_iff.mp hp
    exact .refund he
  | approveRelease id u role =>
    obtain ⟨e, he, hp⟩ := Option.bind_eq_some_iff.mp hp
    obtain ⟨key, hk, rfl⟩ := Option.map_eq_some_iff.mp hp
    exact .approve he hk
  | completeMilestone id u =>
    obtain ⟨e, he, hp⟩ := Option.bind_eq_some_iff.mp hp
    obtain ⟨key, hk, rfl⟩ := Option.map_eq_some_iff.mp hp
    exact .milestone he hk
  | claimExpired id u =>
    obtain ⟨e, he, rfl⟩ := Option.map_eq_some_iff.mp hp
    exact .claim he

/-- Every plan is made from a row with a contract, and sound. -/
theorem Job.plan_sound {s : Stellar} {w : World} {j : Job} {p : Plan} (hp : j.plan s w = some p) :
    ∃ e, w.contractRow j.escrowId = some e ∧ p.Sound j.escrowId e := by
  cases Job.planned hp with
  | refund he => exact ⟨_, he, refund_sound s _ _ _ _⟩
  | approve he _ => exact ⟨_, he, approve_sound s _ _ _ _ _⟩
  | milestone he _ => exact ⟨_, he, milestone_sound s _ _ _ _⟩
  | claim he => exact ⟨_, he, claim_sound s _ _ _⟩

/-! ## What a plan's transaction refers to -/

def Job.settleKey : Job → Option String
  | refundEscrow id .. => some ("refund-" ++ id.text)
  | approveRelease id .. => some ("approve-release-" ++ id.text)
  | claimExpired id _ => some ("expired-" ++ id.text)
  | fundEscrow .. | releaseEscrow .. | completeMilestone .. => none

/-- The transaction touches the parties' balances, the parties' and the actor's rows and the job's key. -/
structure Plan.Refers (j : Job) (e : Escrow) (p : Plan) : Prop where
  moves : ∀ r txHash, ∀ m ∈ (p.tx r txHash).moves, m.user = e.clientId ∨ m.user = e.freelancerId
  users : ∀ r txHash, ∀ u ∈ (p.tx r txHash).refersTo, u = e.clientId ∨ u = e.freelancerId ∨ u ∈ j.actor
  key : ∀ r txHash, ∀ k ∈ (p.tx r txHash).key, k ∈ j.settleKey

theorem Job.plan_refers {s : Stellar} {w : World} {j : Job} {p : Plan} {e : Escrow} (hp : j.plan s w = some p)
    (he : w.contractRow j.escrowId = some e) : p.Refers j e := by
  cases Job.planned hp with
  | refund he' =>
    cases he.symm.trans he'
    refine ⟨fun _ _ => ?_, fun _ _ => ?_, fun _ _ _ hk => hk⟩
    · simp [DbTx.moves]
    · simp [DbTx.refersTo, Job.actor]
  | approve he' _ =>
    cases he.symm.trans he'
    refine ⟨fun r _ => ?_, fun r _ => ?_, fun r _ => ?_⟩
    · simp only [DbTx.moves]
      split <;> simp
    · simp only [DbTx.refersTo]
      split <;> simp [Job.actor]
    · simp only [DbTx.key]
      split <;> simp [Job.settleKey]
  | milestone _ _ =>
    refine ⟨fun _ _ => ?_, fun _ _ => ?_, fun _ _ _ hk => by cases hk⟩
    · simp [DbTx.moves]
    · simp [DbTx.refersTo, Job.actor]
  | claim he' =>
    cases he.symm.trans he'
    refine ⟨fun _ _ => ?_, fun _ _ => ?_, fun _ _ _ hk => hk⟩
    · simp [DbTx.moves]
    · simp only [DbTx.refersTo, List.forall_mem_cons, true_or, true_and]
      exact fun v hv => .inr (.inr (Option.mem_toList.mp hv))

end NexusHub
