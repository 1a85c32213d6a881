import NexusHub.Spec
import NexusHub.Platform

/-!
# What a commit does

Every transaction of the worker changes at most one escrow row, moves some
balances, may insert one transaction row and writes an audit row. `DbTx.Ready`
is when it goes through and `DbTx.Applied` what it leaves; the bodies written
after the source meet them.
-/

namespace NexusHub

/-! ## Statements -/

section
variable {db db' : Db}

theorem updateEscrow_ok {id : Uuid} {f : Escrow → Escrow} :
    db.updateEscrow id f = .ok db' ↔
      ∃ e, db.escrows.lookup id = some e ∧ db' = { db with escrows := db.escrows.insert id (f e) } := by
  unfold Db.updateEscrow
  cases h : db.escrows.lookup id with
  | none => simp
  | some e => simp [eq_comm]

theorem updateBalance_ok {u : UserId} {f : Balance → Balance} :
    db.updateBalance u f = .ok db' ↔
      ∃ b, db.balances.lookup u = some b ∧ db' = { db with balances := db.balances.insert u (f b) } := by
  unfold Db.updateBalance
  cases h : db.balances.lookup u with
  | none => simp
  | some b => simp [eq_comm]

theorem updateDispute_ok {id : String} {f : Dispute → Dispute} :
    db.updateDispute id f = .ok db' ↔
      ∃ d, db.disputes.lookup id = some d ∧ db' = { db with disputes := db.disputes.insert id (f d) } := by
  unfold Db.updateDispute
  cases h : db.disputes.lookup id with
  | none => simp
  | some d => simp [eq_comm]

theorem createEscrow_ok {id : Uuid} {e : Escrow} :
    db.createEscrow id e = .ok db' ↔
      db.escrows.lookup id = none ∧ (db.users.lookup e.clientId).isSome ∧
      ((db.users.lookup e.freelancerId).isSome ∧ e.Storable) ∧
        db' = { db with escrows := db.escrows.insert id e } := by
  unfold Db.createEscrow
  by_cases hs : e.Storable
  · cases h : db.escrows.lookup id <;> cases hc : db.users.lookup e.clientId <;>
      cases hf : db.users.lookup e.freelancerId <;> simp [hs, eq_comm]
  · simp [hs]

theorem createTransaction_ok {key : String} {t : Transaction} :
    db.createTransaction key t = .ok db' ↔
      db.transactions.lookup key = none ∧ (db.users.lookup t.userId).isSome ∧
        db' = { db with transactions := db.transactions.insert key t } := by
  unfold Db.createTransaction
  cases h : db.transactions.lookup key <;> cases hu : db.users.lookup t.userId <;> simp [eq_comm]

theorem createDispute_ok {id : String} {d : Dispute} :
    db.createDispute id d = .ok db' ↔
      db.disputes.lookup id = none ∧ d.escrowId ∉ db.disputedEscrows ∧
        db' = { db with disputes := db.disputes.insert id d } := by
  unfold Db.createDispute
  cases h : db.disputes.lookup id <;> by_cases hd : d.escrowId ∈ db.disputedEscrows <;> simp [hd, eq_comm]

theorem createAuditLog_ok {log : AuditLog} :
    db.createAuditLog log = .ok db' ↔
      (∀ u ∈ log.userId, (db.users.lookup u).isSome) ∧
      db' = { db with auditLogs := db.auditLogs ++ [log] } := by
  obtain ⟨user, action, entity⟩ := log
  unfold Db.createAuditLog
  by_cases h : ∃ u ∈ user, (db.users.lookup u).isNone
  · rw [if_pos h]
    obtain ⟨u, hu, hn⟩ := h
    refine ⟨nofun, fun ⟨hall, _⟩ => ?_⟩
    have := hall u hu
    rw [Option.isNone_iff_eq_none.mp hn] at this; cases this
  · rw [if_neg h]
    have hall : ∀ u ∈ user, (db.users.lookup u).isSome := fun u hu => by
      have := fun hn => h ⟨u, hu, hn⟩
      simpa [Option.isSome_iff_ne_none] using this
    exact ⟨fun he => ⟨hall, (Except.ok.inj he).symm⟩, fun ⟨_, he⟩ => he ▸ rfl⟩

end

/-! ## Moving balances -/

structure BalanceMove where
  user : UserId
  available : Int
  reserved : Int
  deriving DecidableEq

def applyMove (balances : Store UserId Balance) (m : BalanceMove) : Store UserId Balance :=
  match balances.lookup m.user with
  | some b => balances.insert m.user (b.increment m.available m.reserved)
  | none => balances

@[simp] theorem increment_zero (b : Balance) : b.increment 0 0 = b := by simp [Balance.increment]

theorem increment_increment (b : Balance) (a r a' r' : Int) :
    (b.increment a r).increment a' r' = b.increment (a + a') (r + r') := by
  simp [Balance.increment, Int.add_assoc]

theorem lookup_applyMove (balances : Store UserId Balance) (m : BalanceMove) (u : UserId) :
    (applyMove balances m).lookup u =
      (balances.lookup u).map fun b => if u = m.user then b.increment m.available m.reserved else b := by
  unfold applyMove
  split
  · rename_i b hb
    rw [Store.lookup_insert']
    by_cases hu : u = m.user
    · subst hu; simp [hb]
    · simp [hu]
  · rename_i hb
    by_cases hu : u = m.user
    · subst hu; simp [hb]
    · simp [hu]

def availableOf (ms : List BalanceMove) (u : UserId) : Int :=
  (ms.map fun m => if u = m.user then m.available else 0).sum

def reservedOf (ms : List BalanceMove) (u : UserId) : Int :=
  (ms.map fun m => if u = m.user then m.reserved else 0).sum

theorem lookup_applyMoves (balances : Store UserId Balance) (ms : List BalanceMove) (u : UserId) :
    (ms.foldl applyMove balances).lookup u =
      (balances.lookup u).map (·.increment (availableOf ms u) (reservedOf ms u)) := by
  induction ms generalizing balances with
  | nil => simp [availableOf, reservedOf]
  | cons m ms ih =>
    rw [List.foldl_cons, ih, lookup_applyMove, Option.map_map]
    congr 1
    funext b
    by_cases hu : u = m.user
    · simp [availableOf, reservedOf, hu, increment_increment]
    · simp [availableOf, reservedOf, hu]

/-! ## The worker's transactions -/

namespace DbTx

def escrowId : DbTx → Uuid
  | fund id .. | failLocks id | compensate id .. | release id .. | refund id ..
  | approve id .. | milestone id ..
  | expire id .. => id

def onEscrow : DbTx → Escrow → Escrow
  | fund _ _ contractId txHash, e =>
    { e with status := .funded, stellarContractId := some contractId, stellarTxHash := some txHash }
  | failLocks _, e => e
  | compensate .., e => { e with status := .cancelled }
  | release _ _ _ txHash, e => { e with status := .released, stellarTxHash := some txHash }
  | refund _ _ _ _ txHash, e | expire _ _ _ txHash, e =>
    { e with status := .refunded, stellarTxHash := some txHash }
  | approve _ _ _ _ clientApproved freelancerApproved txHash, e =>
    let e := { e with clientApproved, freelancerApproved }
    if clientApproved && freelancerApproved then { e with status := .released, stellarTxHash := some txHash }
      else e
  | milestone _ _ milestonesCompleted _, e => { e with milestonesCompleted }

def moves : DbTx → List BalanceMove
  | compensate _ clientId amount fee => [⟨clientId, amount + fee, -amount⟩]
  | release _ e _ _ => [⟨e.freelancerId, e.amount, 0⟩, ⟨e.clientId, 0, -e.amount⟩]
  | refund _ e _ _ _ | expire _ e _ _ => [⟨e.clientId, e.amount, -e.amount⟩]
  | approve _ e _ _ clientApproved freelancerApproved _ =>
    if clientApproved && freelancerApproved then
      [⟨e.freelancerId, e.amount, 0⟩, ⟨e.clientId, 0, -e.amount⟩]
    else []
  | fund .. | failLocks _ | milestone .. => []

def key : DbTx → Option String
  | release id .. => some ("release-" ++ id.text)
  | refund id .. => some ("refund-" ++ id.text)
  | expire id .. => some ("expired-" ++ id.text)
  | approve id _ _ _ clientApproved freelancerApproved _ =>
    if clientApproved && freelancerApproved then some ("approve-release-" ++ id.text) else none
  | fund .. | failLocks _ | compensate .. | milestone .. => none

def refersTo : DbTx → List UserId
  | fund _ clientId _ _ => [clientId]
  | release _ e clientId _ => [e.freelancerId, clientId]
  | refund _ e adminId _ _ => [e.clientId, adminId]
  | approve _ e approverId _ clientApproved freelancerApproved _ =>
    if clientApproved && freelancerApproved then [e.freelancerId, approverId] else [approverId]
  | milestone _ freelancerId _ _ => [freelancerId]
  | expire _ e triggeredBy _ => e.clientId :: triggeredBy.toList
  | failLocks _ | compensate .. => []

structure Ready (tx : DbTx) (db : Db) : Prop where
  row : (db.escrows.lookup tx.escrowId).isSome
  balances : ∀ m ∈ tx.moves, (db.balances.lookup m.user).isSome
  fresh : ∀ k ∈ tx.key, db.transactions.lookup k = none
  users : ∀ u ∈ tx.refersTo, (db.users.lookup u).isSome

/-- What a commit leaves of the database, transaction rows up to their keys. -/
structure Applied (tx : DbTx) (db db' : Db) : Prop where
  escrows : ∀ id, db'.escrows.lookup id =
    if id = tx.escrowId then (db.escrows.lookup id).map tx.onEscrow else db.escrows.lookup id
  balances : db'.balances = tx.moves.foldl applyMove db.balances
  keys : ∀ k, (db'.transactions.lookup k).isSome ↔ (db.transactions.lookup k).isSome ∨ k ∈ tx.key
  fresh : ∀ k ∈ tx.key, db.transactions.lookup k = none
  users : db'.users = db.users
  disputes : db'.disputes = db.disputes
  endpoints : db'.webhookEndpoints = db.webhookEndpoints

end DbTx

theorem applyMove_of_lookup {balances : Store UserId Balance} {m : BalanceMove} {b : Balance}
    (h : balances.lookup m.user = some b) :
    applyMove balances m = balances.insert m.user (b.increment m.available m.reserved) := by
  simp only [applyMove, h]

theorem lookup_row {escrows : Store Uuid Escrow} {id : Uuid} {e : Escrow} (h : escrows.lookup id = some e)
    {f : Escrow → Escrow} (k : Uuid) :
    (escrows.insert id (f e)).lookup k = if k = id then (escrows.lookup k).map f else escrows.lookup k := by
  rw [Store.lookup_insert']
  by_cases hk : k = id
  · rw [if_pos hk, if_pos hk, hk, h]; rfl
  · rw [if_neg hk, if_neg hk]

theorem forall_mem_key {db : Db} {key : String} (h : db.transactions.lookup key = none) :
    ∀ k ∈ some key, db.transactions.lookup k = none := by
  intro k hk
  cases hk; exact h

theorem forall_mem_none {α : Type} {P : α → Prop} : ∀ a ∈ (none : Option α), P a :=
  fun a h => absurd h (Option.not_mem_none a)

theorem forall_mem_some {users : Store UserId User} {u : UserId} (h : (users.lookup u).isSome) :
    ∀ v ∈ some u, (users.lookup v).isSome := by
  intro v hv
  cases hv; exact h

theorem isSome_applyMove (balances : Store UserId Balance) (m : BalanceMove) (u : UserId) :
    ((applyMove balances m).lookup u).isSome = (balances.lookup u).isSome := by
  rw [lookup_applyMove, Option.isSome_map]

theorem payFreelancer_ok {db db' : Db} {e : Escrow} {key : String} {t : Transaction} :
    db.payFreelancer e key t = .ok db' ↔
      (∀ m ∈ [BalanceMove.mk e.freelancerId e.amount 0, ⟨e.clientId, 0, -e.amount⟩],
        (db.balances.lookup m.user).isSome) ∧
      db.transactions.lookup key = none ∧ (db.users.lookup t.userId).isSome ∧
      db' = { db with
        balances :=
          [BalanceMove.mk e.freelancerId e.amount 0, ⟨e.clientId, 0, -e.amount⟩].foldl applyMove
            db.balances
        transactions := db.transactions.insert key t } := by
  simp only [Db.payFreelancer, except_bind_ok, updateBalance_ok, createTransaction_ok, List.forall_mem_cons,
    List.not_mem_nil, false_implies, implies_true, and_true, List.foldl_cons, List.foldl_nil]
  constructor
  · rintro ⟨_, ⟨b, hb, rfl⟩, _, ⟨b', hb', rfl⟩, hk, hu, rfl⟩
    have h1 := applyMove_of_lookup (m := ⟨e.freelancerId, e.amount, 0⟩) hb
    rw [← h1] at hb'
    have h2 := applyMove_of_lookup (m := ⟨e.clientId, 0, -e.amount⟩) hb'
    have hc : (db.balances.lookup e.clientId).isSome := by
      rw [← isSome_applyMove db.balances ⟨e.freelancerId, e.amount, 0⟩, hb']; rfl
    refine ⟨⟨by rw [hb]; rfl, hc⟩, hk, hu, ?_⟩
    rw [h2, h1]
  · rintro ⟨⟨hf, hc⟩, hk, hu, rfl⟩
    obtain ⟨b, hb⟩ := Option.isSome_iff_exists.mp hf
    rw [← isSome_applyMove db.balances ⟨e.freelancerId, e.amount, 0⟩] at hc
    obtain ⟨b', hb'⟩ := Option.isSome_iff_exists.mp hc
    have h1 := applyMove_of_lookup (m := ⟨e.freelancerId, e.amount, 0⟩) hb
    have h2 := applyMove_of_lookup (m := ⟨e.clientId, 0, -e.amount⟩) hb'
    refine ⟨_, ⟨b, hb, rfl⟩, _, ⟨b', by rw [← h1]; exact hb', rfl⟩, hk, hu, ?_⟩
    rw [h2, h1]

theorem payClient_ok {db db' : Db} {e : Escrow} {key : String} {t : Transaction} :
    db.payClient e key t = .ok db' ↔
      (db.balances.lookup e.clientId).isSome ∧ db.transactions.lookup key = none ∧
      (db.users.lookup t.userId).isSome ∧
      db' = { db with
        balances := applyMove db.balances ⟨e.clientId, e.amount, -e.amount⟩
        transactions := db.transactions.insert key t } := by
  simp only [Db.payClient, except_bind_ok, updateBalance_ok, createTransaction_ok]
  constructor
  · rintro ⟨_, ⟨b, hb, rfl⟩, hk, hu, rfl⟩
    have h1 := applyMove_of_lookup (m := ⟨e.clientId, e.amount, -e.amount⟩) hb
    exact ⟨by rw [hb]; rfl, hk, hu, by rw [h1]⟩
  · rintro ⟨hc, hk, hu, rfl⟩
    obtain ⟨b, hb⟩ := Option.isSome_iff_exists.mp hc
    have h1 := applyMove_of_lookup (m := ⟨e.clientId, e.amount, -e.amount⟩) hb
    exact ⟨_, ⟨b, hb, rfl⟩, hk, hu, by rw [h1]⟩

namespace DbTx

theorem apply_ok {db db' : Db} {tx : DbTx} (h : tx.apply db = .ok db') :
    tx.Applied db db' ∧ ((∀ id, tx ≠ .failLocks id) → tx.Ready db) := by
  cases tx with
  | fund id clientId contractId txHash =>
    simp only [apply, except_bind_ok, updateEscrow_ok, createAuditLog_ok] at h
    obtain ⟨_, ⟨e, he, rfl⟩, hu, rfl⟩ := h
    refine ⟨⟨fun k => lookup_row (f := (fund id clientId contractId txHash).onEscrow) he k, rfl,
      fun k => ?_, forall_mem_none, rfl, rfl, rfl⟩, fun _ =>
        ⟨by rw [escrowId, he]; rfl, List.forall_mem_nil _, forall_mem_none, List.forall_mem_singleton.mpr (hu _ rfl)⟩⟩
    simp [Db.updateLocks, Store.lookup_mapValues, key]
  | failLocks id =>
    cases h
    have hid : (failLocks id).onEscrow = fun e => e := rfl
    refine ⟨⟨fun k => ?_, rfl, fun k => ?_, forall_mem_none, rfl, rfl, rfl⟩, fun hne => absurd rfl (hne id)⟩
    · simp [Db.updateLocks, hid]
    · simp [Db.updateLocks, Store.lookup_mapValues, key]
  | compensate id clientId amount fee =>
    simp only [apply, except_bind_ok, updateBalance_ok, updateEscrow_ok] at h
    obtain ⟨_, ⟨b, hb, rfl⟩, e, he, rfl⟩ := h
    refine ⟨⟨fun k => lookup_row (f := (compensate id clientId amount fee).onEscrow) he k, ?_,
      fun k => by simp [key], forall_mem_none, rfl, rfl, rfl⟩,
      fun _ => ⟨by rw [escrowId, he]; rfl, by simp [moves, hb], forall_mem_none, List.forall_mem_nil _⟩⟩
    exact (applyMove_of_lookup (m := ⟨clientId, amount + fee, -amount⟩) hb).symm
  | release id e clientId txHash =>
    simp only [apply, except_bind_ok, updateEscrow_ok, payFreelancer_ok, createAuditLog_ok] at h
    obtain ⟨_, ⟨e', he, rfl⟩, _, ⟨hb, hk, hu, rfl⟩, hu', rfl⟩ := h
    exact ⟨⟨fun k => lookup_row (f := (release id e clientId txHash).onEscrow) he k, rfl,
      fun k => Store.isSome_insert _ _ _ k, forall_mem_key hk, rfl, rfl, rfl⟩,
      fun _ => ⟨by rw [escrowId, he]; rfl, hb, forall_mem_key hk,
        List.forall_mem_cons.mpr ⟨hu, List.forall_mem_singleton.mpr (hu' _ rfl)⟩⟩⟩
  | refund id e adminId reason txHash =>
    simp only [apply, except_bind_ok, updateEscrow_ok, payClient_ok, createAuditLog_ok] at h
    obtain ⟨_, ⟨e', he, rfl⟩, _, ⟨hb, hk, hu, rfl⟩, hu', rfl⟩ := h
    exact ⟨⟨fun k => lookup_row (f := (refund id e adminId reason txHash).onEscrow) he k, rfl,
      fun k => Store.isSome_insert _ _ _ k, forall_mem_key hk, rfl, rfl, rfl⟩,
      fun _ => ⟨by rw [escrowId, he]; rfl, List.forall_mem_singleton.mpr hb, forall_mem_key hk,
        List.forall_mem_cons.mpr ⟨hu, List.forall_mem_singleton.mpr (hu' _ rfl)⟩⟩⟩
  | approve id e approverId role clientApproved freelancerApproved txHash =>
    cases hboth : clientApproved && freelancerApproved with
    | true =>
      simp only [apply, hboth, except_bind_ok, updateEscrow_ok, ite_true, payFreelancer_ok,
        createAuditLog_ok] at h
      obtain ⟨_, ⟨e', he, rfl⟩, _, ⟨hb, hk, hu, rfl⟩, hu', rfl⟩ := h
      refine ⟨⟨fun k => ?_, ?_, fun k => ?_, ?_, rfl, rfl, rfl⟩, fun _ =>
        ⟨by rw [escrowId, he]; rfl, ?_, ?_, ?_⟩⟩
      · have hrow := lookup_row
          (f := (approve id e approverId role clientApproved freelancerApproved txHash).onEscrow) he k
        simp only [onEscrow, hboth, ite_true] at hrow
        exact hrow
      · simp only [moves, hboth, ite_true]
      · simp only [key, hboth, ite_true]; exact Store.isSome_insert _ _ _ k
      · simp only [key, hboth, ite_true]; exact forall_mem_key hk
      · simp only [moves, hboth, ite_true]; exact hb
      · simp only [key, hboth, ite_true]; exact forall_mem_key hk
      · simp only [refersTo, hboth, ite_true]
        exact List.forall_mem_cons.mpr ⟨hu, List.forall_mem_singleton.mpr (hu' _ rfl)⟩
    | false =>
      simp only [apply, hboth, except_bind_ok, updateEscrow_ok, Bool.false_eq_true, ite_false, except_pure_ok,
        createAuditLog_ok] at h
      obtain ⟨_, ⟨e', he, rfl⟩, _, rfl, hu', rfl⟩ := h
      refine ⟨⟨fun k => ?_, ?_, fun k => ?_, ?_, rfl, rfl, rfl⟩, fun _ =>
        ⟨by rw [escrowId, he]; rfl, ?_, ?_, ?_⟩⟩
      · have hrow := lookup_row
          (f := (approve id e approverId role clientApproved freelancerApproved txHash).onEscrow) he k
        simp only [onEscrow, hboth, Bool.false_eq_true, ite_false] at hrow
        exact hrow
      · simp only [moves, hboth, Bool.false_eq_true, ite_false]; rfl
      · simp [key, hboth]
      · simp [key, hboth]
      · simp [moves, hboth]
      · simp [key, hboth]
      · simp only [refersTo, hboth, Bool.false_eq_true, ite_false]
        exact List.forall_mem_singleton.mpr (hu' _ rfl)
  | milestone id freelancerId n txHash =>
    simp only [apply, except_bind_ok, updateEscrow_ok, createAuditLog_ok] at h
    obtain ⟨_, ⟨e, he, rfl⟩, hu, rfl⟩ := h
    exact ⟨⟨fun k => lookup_row (f := (milestone id freelancerId n txHash).onEscrow) he k, rfl,
      fun k => by simp [key], forall_mem_none, rfl, rfl, rfl⟩,
      fun _ => ⟨by rw [escrowId, he]; rfl, List.forall_mem_nil _, forall_mem_none, List.forall_mem_singleton.mpr (hu _ rfl)⟩⟩
  | expire id e triggeredBy txHash =>
    simp only [apply, except_bind_ok, updateEscrow_ok, payClient_ok, createAuditLog_ok] at h
    obtain ⟨_, ⟨e', he, rfl⟩, _, ⟨hb, hk, hu, rfl⟩, hu', rfl⟩ := h
    exact ⟨⟨fun k => lookup_row (f := (expire id e triggeredBy txHash).onEscrow) he k, rfl,
      fun k => Store.isSome_insert _ _ _ k, forall_mem_key hk, rfl, rfl, rfl⟩,
      fun _ => ⟨by rw [escrowId, he]; rfl, List.forall_mem_singleton.mpr hb, forall_mem_key hk,
        List.forall_mem_cons.mpr ⟨hu, fun u hm => hu' u (Option.mem_toList.mp hm)⟩⟩⟩

theorem Ready.apply {db : Db} {tx : DbTx} (h : tx.Ready db) : ∃ db', tx.apply db = .ok db' := by
  obtain ⟨hrow, hb, hk, hu⟩ := h
  obtain ⟨e', he⟩ := Option.isSome_iff_exists.mp hrow
  cases tx with
  | fund id clientId contractId txHash =>
    simp only [DbTx.apply, except_bind_ok, updateEscrow_ok, createAuditLog_ok]
    exact ⟨_, _, ⟨e', he, rfl⟩, forall_mem_some (hu _ (.head _)), rfl⟩
  | failLocks id => exact ⟨_, rfl⟩
  | compensate id clientId amount fee =>
    obtain ⟨b, hb⟩ := Option.isSome_iff_exists.mp (hb _ (.head _))
    simp only [DbTx.apply, except_bind_ok, updateBalance_ok, updateEscrow_ok]
    exact ⟨_, _, ⟨b, hb, rfl⟩, e', he, rfl⟩
  | release id e clientId txHash =>
    simp only [DbTx.apply, except_bind_ok, updateEscrow_ok, payFreelancer_ok, createAuditLog_ok]
    exact ⟨_, _, ⟨e', he, rfl⟩, _, ⟨hb, hk _ rfl, hu _ (.head _), rfl⟩,
      forall_mem_some (hu _ (.tail _ (.head _))), rfl⟩
  | refund id e adminId reason txHash =>
    simp only [DbTx.apply, except_bind_ok, updateEscrow_ok, payClient_ok, createAuditLog_ok]
    exact ⟨_, _, ⟨e', he, rfl⟩, _, ⟨hb _ (.head _), hk _ rfl, hu _ (.head _), rfl⟩,
      forall_mem_some (hu _ (.tail _ (.head _))), rfl⟩
  | approve id e approverId role clientApproved freelancerApproved txHash =>
    cases hboth : clientApproved && freelancerApproved with
    | true =>
      simp only [key, moves, refersTo, hboth, ite_true] at hb hk hu
      simp only [DbTx.apply, hboth, except_bind_ok, updateEscrow_ok, ite_true, payFreelancer_ok,
        createAuditLog_ok]
      exact ⟨_, _, ⟨e', he, rfl⟩, _, ⟨hb, hk _ rfl, hu _ (.head _), rfl⟩,
        forall_mem_some (hu _ (.tail _ (.head _))), rfl⟩
    | false =>
      simp only [refersTo, hboth, Bool.false_eq_true, ite_false] at hu
      simp only [DbTx.apply, hboth, except_bind_ok, updateEscrow_ok, Bool.false_eq_true, ite_false,
        except_pure_ok, createAuditLog_ok]
      exact ⟨_, _, ⟨e', he, rfl⟩, _, rfl, forall_mem_some (hu _ (.head _)), rfl⟩
  | milestone id freelancerId n txHash =>
    simp only [DbTx.apply, except_bind_ok, updateEscrow_ok, createAuditLog_ok]
    exact ⟨_, _, ⟨e', he, rfl⟩, forall_mem_some (hu _ (.head _)), rfl⟩
  | expire id e triggeredBy txHash =>
    simp only [DbTx.apply, except_bind_ok, updateEscrow_ok, payClient_ok, createAuditLog_ok]
    exact ⟨_, _, ⟨e', he, rfl⟩, _, ⟨hb _ (.head _), hk _ rfl, hu _ (.head _), rfl⟩,
      fun u hm => hu u (.tail _ (Option.mem_toList.mpr hm)), rfl⟩

/-! ## The row after a commit -/

section
variable (tx : DbTx) (e : Escrow)

@[simp] theorem onEscrow_clientId : (tx.onEscrow e).clientId = e.clientId := by
  cases tx with
  | approve => simp only [onEscrow]; split <;> rfl
  | _ => rfl

@[simp] theorem onEscrow_freelancerId : (tx.onEscrow e).freelancerId = e.freelancerId := by
  cases tx with
  | approve => simp only [onEscrow]; split <;> rfl
  | _ => rfl

@[simp] theorem onEscrow_amount : (tx.onEscrow e).amount = e.amount := by
  cases tx with
  | approve => simp only [onEscrow]; split <;> rfl
  | _ => rfl

end

theorem Applied.escrows_eq {db db' : Db} {tx : DbTx} {e : Escrow} (h : tx.Applied db db')
    (he : db.escrows.lookup tx.escrowId = some e) :
    db'.escrows = db.escrows.insert tx.escrowId (tx.onEscrow e) := by
  refine Finmap.ext_lookup fun k => ?_
  rw [h.escrows k, lookup_row he]

theorem lookup_failLocks {db db' : Db} {id : Uuid} (h : (failLocks id).Applied db db') (k : Uuid) :
    db'.escrows.lookup k = db.escrows.lookup k := by
  have hid : (failLocks id).onEscrow = fun e => e := rfl
  rw [h.escrows k, hid]
  simp

end DbTx

end NexusHub
