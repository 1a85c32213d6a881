import NexusHub.Plans

/-!
# The reserved balances

A client's reserve is the sum of the client's undecided escrows, as long as no
verdict moves an escrow that still has its reserve and no funding job is tried
again after it was compensated.
-/

namespace NexusHub

/-! ## The sum -/

def EscrowStatus.reserving : EscrowStatus → Bool
  | pending | funded | active | disputed => true
  | released | refunded | cancelled => false

def Escrow.Settled (e : Escrow) : Prop := e.status = .released ∨ e.status = .refunded

def Escrow.reservedFor (e : Escrow) (u : UserId) : Int :=
  if e.clientId = u ∧ e.status.reserving then e.amount else 0

/-- What the escrows say is reserved. -/
def Db.reservedBy (db : Db) (u : UserId) : Int := Store.total db.escrows (·.reservedFor u)

/-- What the balance says is reserved. -/
def Db.reserveOf (db : Db) (u : UserId) : Int := (db.balances.lookup u).elim 0 (·.reservedAmount)

def Db.ReservesMatch (db : Db) : Prop := ∀ u, db.reserveOf u = db.reservedBy u

theorem reserving_false {e : Escrow} (h : e.Settled) : e.status.reserving = false := by
  rcases h with h | h <;> rw [h] <;> rfl

/-! ## Commits -/

theorem mem_of_reservedOf_ne_zero {ms : List BalanceMove} {u : UserId} (h : reservedOf ms u ≠ 0) :
    ∃ m ∈ ms, m.user = u := by
  by_contra hn
  simp only [not_exists, not_and] at hn
  refine h (List.sum_eq_zero fun x hx => ?_)
  obtain ⟨m, hm, rfl⟩ := List.mem_map.mp hx
  exact if_neg fun hu => hn m hm hu.symm

theorem reserveOf_commit {db db' : Db} {tx : DbTx} (h : tx.apply db = .ok db') (u : UserId) :
    db'.reserveOf u = db.reserveOf u + reservedOf tx.moves u := by
  obtain ⟨happ, hready⟩ := DbTx.apply_ok h
  unfold Db.reserveOf
  rw [happ.balances, lookup_applyMoves]
  cases hb : db.balances.lookup u with
  | some b => simp [Balance.increment]
  | none =>
    suffices hz : reservedOf tx.moves u = 0 by simp [hz]
    by_contra hne
    obtain ⟨m, hm, rfl⟩ := mem_of_reservedOf_ne_zero hne
    have hfail : ∀ id, tx ≠ .failLocks id := by
      intro id he
      subst he; cases hm
    have := (hready hfail).balances m hm
    rw [hb] at this; cases this

theorem reservedBy_insert {db db' : Db} {id : Uuid} {e e' : Escrow} (he : db.escrows.lookup id = some e)
    (hesc : db'.escrows = db.escrows.insert id e') (u : UserId) :
    db'.reservedBy u = db.reservedBy u + (e'.reservedFor u - e.reservedFor u) := by
  have := Store.total_update he e' (·.reservedFor u)
  unfold Db.reservedBy
  rw [hesc]
  omega

/-- What moving the row from one status to another asks of the reserve. -/
theorem reservedFor_status {e e' : Escrow} (hc : e'.clientId = e.clientId) (ha : e'.amount = e.amount)
    (u : UserId) : e'.reservedFor u - e.reservedFor u =
      if u = e.clientId then (e'.status.reserving.toNat - e.status.reserving.toNat : Int) * e.amount
      else 0 := by
  unfold Escrow.reservedFor
  rw [hc, ha]
  by_cases hu : u = e.clientId
  · subst hu
    cases e.status.reserving <;> cases e'.status.reserving <;> simp
  · have : ¬ e.clientId = u := fun h => hu h.symm
    simp [hu, this]

/-! ## Operations -/

/-- A completed request, an attempt of a queued job that meets no failure but
the contract's, and the ledger's own traffic. -/
inductive Operation where
  | request (r : Request)
  | attempt (j : Job)
  | ledger (a : Action)

def World.operate (s : Stellar) (w : World) : Operation → World
  | .request r => w.request r
  | .attempt j => if j ∈ w.jobs then ((Worker.process s j).complete (platform s) w).1 else w
  | .ledger a => { w with ledger := w.ledger.step s.contract a }

/-- Verdicts come after the settlement, and funding is tried on a pending escrow only. -/
def ReserveSafe (w : World) : Operation → Prop
  | .request (.resolveDispute _ disputeId resolution) => resolution.verdict ≠ none →
      ∀ d, w.db.disputes.lookup disputeId = some d → ∀ e, w.db.escrows.lookup d.escrowId = some e → e.Settled
  | .attempt (.fundEscrow id _ _) => ∀ e, w.db.escrows.lookup id = some e → e.status = .pending
  | _ => True

theorem Ledger.settled_step {contract : Address} {l : Ledger} {k : Bytes} {r : EscrowRecord}
    (hl : l.Reachable contract) (hr : l.storage.escrows.lookup k = some r) (hs : r.Settled) (a : Action) :
    (Ledger.step contract l a).storage.escrows.lookup k = some r :=
  (congrArg View.record (closed_run hl hr (.inl hs) [a])).trans hr

structure ReserveInv (contract : Address) (w : World) : Prop where
  reachable : w.ledger.Reachable contract
  reserves : w.db.ReservesMatch
  amounts : ∀ id e, w.db.escrows.lookup id = some e → 0 ≤ e.amount
  linked : ∀ id e, w.db.escrows.lookup id = some e → e.stellarContractId.isSome →
    e.status ≠ .pending ∧ e.status ≠ .cancelled
  settled : ∀ id e, w.db.escrows.lookup id = some e → e.Settled →
    ∃ r, w.ledger.storage.escrows.lookup id.bytes = some r ∧ r.Settled
  jobs : ∀ id clientId amount, .fundEscrow id clientId amount ∈ w.jobs →
    ∃ e, w.db.escrows.lookup id = some e ∧ e.clientId = clientId

namespace ReserveInv

variable {contract : Address} {w w' : World}

theorem of_same (h : ReserveInv contract w) (hs : w.Same w') : ReserveInv contract w' where
  reachable := by rw [hs.ledger]; exact h.reachable
  reserves := by rw [hs.db]; exact h.reserves
  amounts := by rw [hs.db]; exact h.amounts
  linked := by rw [hs.db]; exact h.linked
  settled := by rw [hs.db, hs.ledger]; exact h.settled
  jobs := by rw [hs.db, hs.jobs]; exact h.jobs

theorem of_step (h : ReserveInv contract w) {a : Action} (hdb : w'.db = w.db) (hjobs : w'.jobs = w.jobs)
    (hl : w'.ledger = Ledger.step contract w.ledger a) : ReserveInv contract w' where
  reachable := by rw [hl]; exact Ledger.reachable_run h.reachable [a]
  reserves := by rw [hdb]; exact h.reserves
  amounts := by rw [hdb]; exact h.amounts
  linked := by rw [hdb]; exact h.linked
  settled id e he hs := by
    obtain ⟨r, hr, hrs⟩ := h.settled id e (hdb ▸ he) hs
    exact ⟨r, by rw [hl]; exact Ledger.settled_step h.reachable hr hrs a, hrs⟩
  jobs := by rw [hdb, hjobs]; exact h.jobs

theorem of_called (h : ReserveInv contract w) {signers : List Address} {call : Call}
    (hc : w.Called contract signers call w') : ReserveInv contract w' :=
  h.of_step hc.db hc.jobs hc.step

theorem of_committed (h : ReserveInv contract w) {tx : DbTx} (hc : w.Committed tx w') {e : Escrow}
    (he : w.db.escrows.lookup tx.escrowId = some e)
    (hmoves : ∀ u, reservedOf tx.moves u = (tx.onEscrow e).reservedFor u - e.reservedFor u)
    (hlinked : (tx.onEscrow e).stellarContractId.isSome →
      (tx.onEscrow e).status ≠ .pending ∧ (tx.onEscrow e).status ≠ .cancelled)
    (hsettled : (tx.onEscrow e).Settled →
      ∃ r, w.ledger.storage.escrows.lookup tx.escrowId.bytes = some r ∧ r.Settled) :
      ReserveInv contract w' := by
  have happ := (DbTx.apply_ok hc.db).1
  have hesc := happ.escrows_eq he
  have hall {P : Uuid → Escrow → Prop} (hnew : P tx.escrowId (tx.onEscrow e))
      (hold : ∀ id e, w.db.escrows.lookup id = some e → P id e) :
      ∀ id e, w'.db.escrows.lookup id = some e → P id e := by
    rw [hesc]; exact Store.forall_insert hnew hold
  refine ⟨by rw [hc.ledger]; exact h.reachable, fun u => ?_, ?_, ?_, ?_, fun id u a hj => ?_⟩
  · rw [reserveOf_commit hc.db, h.reserves u, hmoves u, reservedBy_insert he hesc]
  · refine hall ?_ h.amounts
    rw [DbTx.onEscrow_amount]; exact h.amounts _ e he
  · exact hall hlinked h.linked
  · rw [hc.ledger]; exact hall hsettled h.settled
  · obtain ⟨e₁, he₁, hu⟩ := h.jobs id u a (hc.jobs ▸ hj)
    rw [happ.escrows id, he₁]
    split
    · exact ⟨_, rfl, by rw [DbTx.onEscrow_clientId, hu]⟩
    · exact ⟨_, rfl, hu⟩

theorem reserving (h : ReserveInv contract w) {id : Uuid} {e : Escrow} (he : w.db.escrows.lookup id = some e)
    (hcid : e.stellarContractId.isSome) {r : EscrowRecord}
    (hr : w.ledger.storage.escrows.lookup id.bytes = some r) (hlive : r.Live) : e.status.reserving = true := by
  obtain ⟨hp, hc⟩ := h.linked id e he hcid
  have hns : ¬ e.Settled := by
    intro hs
    obtain ⟨r', hr', hrs⟩ := h.settled id e he hs
    rw [hr] at hr'; cases hr'
    exact hlive.not_closed (.inl hrs)
  unfold Escrow.Settled at hns
  cases hst : e.status <;> simp_all [EscrowStatus.reserving]

theorem of_attempted {s : Stellar} {id : Uuid} {p : Plan} {e : Escrow} (h : ReserveInv s.contract w)
    (hrow : w.contractRow id = some e) (hp : p.Sound id e) (ha : Attempted s World.Same False id p w w') :
    ReserveInv s.contract w' := by
  cases ha with
  | refused hs _ => exact h.of_same hs
  | called hc _ => exact h.of_called hc.called
  | @committed w₁ r' txHash hc hr' hcom =>
    have hc := hc.called
    have hcom := hcom.committed
    obtain ⟨r, hr, -, ha, hlook⟩ := hc.updates h.reachable hp.named hp.no_init
    have hrec : (p.call.change (w.ledger.env s.contract p.signers) r).record = r' :=
      Option.some.inj (((hlook id.bytes).trans (if_pos rfl)).symm.trans hr')
    obtain ⟨he, hcid⟩ := World.contractRow_eq_some.mp hrow
    have hres := h.reserving he hcid hr ha.live
    have hset := hp.settles ha
    have hkeep := hp.keeps ha
    rw [hrec] at hset hkeep
    have he₁ : w₁.db.escrows.lookup (p.tx r' txHash).escrowId = some e := by
      rw [hp.row, hc.db]; exact he
    by_cases hs : r'.Settled
    · obtain ⟨hst, hmv, -⟩ := hset hs txHash
      have hes : ((p.tx r' txHash).onEscrow e).Settled := by
        unfold Escrow.Settled; rw [hst e]; exact hs
      refine (h.of_called hc).of_committed hcom he₁ (fun u => ?_) (fun _ => ?_) fun _ =>
        ⟨r', by rw [hp.row]; exact hr', hs⟩
      · rw [hmv u, reservedFor_status (DbTx.onEscrow_clientId _ _) (DbTx.onEscrow_amount _ _), hres,
          reserving_false hes]
        simp
      · rcases hes with h | h <;> rw [h] <;> exact ⟨nofun, nofun⟩
    · obtain ⟨-, hk⟩ := hkeep hs
      obtain ⟨hst, hmv, -⟩ := hk txHash
      refine (h.of_called hc).of_committed hcom he₁ (fun u => ?_) (fun _ => ?_) fun hes => ?_
      · rw [hmv, reservedFor_status (DbTx.onEscrow_clientId _ _) (DbTx.onEscrow_amount _ _), hst e]
        simp [reservedOf]
      · rw [hst e]; exact h.linked id e he hcid
      · unfold Escrow.Settled at hes
        rw [hst e] at hes
        rw [reserving_false hes] at hres; cases hres

theorem of_failLocks (h : ReserveInv contract w) {id : Uuid} (hc : w.Committed (.failLocks id) w') :
    ReserveInv contract w' := by
  have hlook := DbTx.lookup_failLocks (DbTx.apply_ok hc.db).1
  have hesc : w'.db.escrows = w.db.escrows := Finmap.ext_lookup hlook
  refine ⟨by rw [hc.ledger]; exact h.reachable, fun u => ?_, ?_, ?_, ?_, ?_⟩
  · rw [reserveOf_commit hc.db, h.reserves u, Db.reservedBy, Db.reservedBy, hesc]
    simp [DbTx.moves, reservedOf]
  · rw [hesc]; exact h.amounts
  · rw [hesc]; exact h.linked
  · rw [hesc, hc.ledger]; exact h.settled
  · rw [hesc, hc.jobs]; exact h.jobs

theorem of_begun {s : Stellar} {id : Uuid} {input : Worker.FundingInput} {amount : Int}
    (h : ReserveInv s.contract w) (hb : Begun s World.Same id input amount w w') :
    ReserveInv s.contract w' ∧ w'.db = w.db ∧ w'.jobs = w.jobs := by
  cases hb with
  | before _ hs => exact ⟨h.of_same hs, hs.db, hs.jobs⟩
  | now _ _ hc => exact ⟨h.of_called hc.called, hc.called.db, hc.called.jobs⟩

theorem of_fundTried {s : Stellar} {id : Uuid} {clientId : UserId} {amount : Int}
    {out : Outcome WorkerError Unit} (h : ReserveInv s.contract w)
    (hpending : ∀ e, w.db.escrows.lookup id = some e → e.status = .pending)
    (ht : FundTried s World.Same False id clientId amount w w' out) :
    ReserveInv s.contract w' ∧ (out.Failed → w'.db = w.db ∧ w'.jobs = w.jobs) := by
  cases ht with
  | stopped hs _ _ => exact ⟨h.of_same hs, fun _ => ⟨hs.db, hs.jobs⟩⟩
  | begun _ hb _ _ =>
    obtain ⟨h₁, hdb, hj⟩ := h.of_begun hb
    exact ⟨h₁, fun _ => ⟨hdb, hj⟩⟩
  | deposited _ hb hc _ _ =>
    obtain ⟨h₁, hdb, hj⟩ := h.of_begun hb
    have hc := hc.called
    exact ⟨h₁.of_called hc, fun _ => ⟨hc.db.trans hdb, hc.jobs.trans hj⟩⟩
  | @committed input w₁ w₂ _ hin hb hc hcom ho =>
    have hc := hc.called
    have hcom := hcom.committed
    obtain ⟨h₁, hdb, -⟩ := h.of_begun hb
    have he := World.escrow_of_fundingInput hin
    have he₂ : w₂.db.escrows.lookup id = some input.escrow := by rw [hc.db, hdb]; exact he
    refine ⟨(h₁.of_called hc).of_committed hcom he₂ (fun u => ?_) (fun _ => ⟨nofun, nofun⟩) ?_,
      fun hf => (ho hf).elim⟩
    · rw [reservedFor_status (DbTx.onEscrow_clientId _ _) (DbTx.onEscrow_amount _ _), hpending _ he]
      simp [Stellar.fundTx, DbTx.moves, DbTx.onEscrow, reservedOf, EscrowStatus.reserving]
    · rintro (h | h) <;> cases h

theorem of_fundEnded {s : Stellar} {id : Uuid} {clientId : UserId} {amount : Int}
    {out : Outcome WorkerError Unit} (h : ReserveInv s.contract w)
    (hjob : .fundEscrow id clientId amount ∈ w.jobs)
    (hpending : ∀ e, w.db.escrows.lookup id = some e → e.status = .pending)
    (hend : FundEnded s World.Same False id clientId amount w w' out) : ReserveInv s.contract w' := by
  cases hend with
  | done ht _ => exact (h.of_fundTried hpending ht).1
  | @handled w₁ error ht hh _ =>
    obtain ⟨h₁, hsame⟩ := h.of_fundTried hpending ht
    obtain ⟨hdb, hj⟩ := hsame failed_threw
    cases hh with
    | cut _ hF => exact hF.elim
    | marked hm _ => exact h₁.of_failLocks hm.committed
    | @compensated w₂ e hm he hc =>
      have hm := hm.committed
      have hc := hc.committed
      have he' : w.db.escrows.lookup id = some e := by
        rw [← hdb, ← DbTx.lookup_failLocks (DbTx.apply_ok hm.db).1]; exact he
      obtain ⟨e₁, he₁, hu⟩ := h.jobs id clientId amount hjob
      obtain rfl : e = e₁ := Option.some.inj (he'.symm.trans he₁)
      have hst := hpending e he'
      refine (h₁.of_failLocks hm).of_committed hc he (fun u => ?_) (fun hcid => ?_) ?_
      · rw [reservedFor_status (DbTx.onEscrow_clientId _ _) (DbTx.onEscrow_amount _ _), hst, ← hu]
        simp [DbTx.moves, DbTx.onEscrow, reservedOf, EscrowStatus.reserving]
      · exact absurd hst (h.linked id e he' hcid).1
      · rintro (h | h) <;> cases h

/-! ### Requests -/

theorem reserved_nonneg (h : ReserveInv contract w) (u : UserId) : 0 ≤ w.db.reserveOf u := by
  rw [h.reserves u]
  refine Store.total_nonneg fun id e he => ?_
  unfold Escrow.reservedFor
  split
  · exact h.amounts id e he
  · exact le_refl 0

theorem of_rows (h : ReserveInv contract w) {id : Uuid} {e e' : Escrow} (he : w.db.escrows.lookup id = some e)
    (hb : w'.db.balances = w.db.balances) (hesc : w'.db.escrows = w.db.escrows.insert id e')
    (hl : w'.ledger = w.ledger) (hj : w'.jobs = w.jobs) (hc : e'.clientId = e.clientId)
    (ha : e'.amount = e.amount) (hst : e'.status.reserving = e.status.reserving)
    (hlinked : e'.stellarContractId.isSome → e'.status ≠ .pending ∧ e'.status ≠ .cancelled)
    (hsettled : e'.Settled → e.Settled) : ReserveInv contract w' := by
  refine ⟨by rw [hl]; exact h.reachable, fun u => ?_, ?_, ?_, ?_, fun k u a hmem => ?_⟩
  · have hu : w'.db.reserveOf u = w.db.reserveOf u := by rw [Db.reserveOf, hb]; rfl
    rw [hu, h.reserves u, reservedBy_insert he hesc, reservedFor_status hc ha, hst]
    simp
  · rw [hesc]
    exact Store.forall_insert (by rw [ha]; exact h.amounts id e he) h.amounts
  · rw [hesc]; exact Store.forall_insert hlinked h.linked
  · rw [hesc, hl]; exact Store.forall_insert (fun hs => h.settled id e he (hsettled hs)) h.settled
  · obtain ⟨e₁, he₁, hu⟩ := h.jobs k u a (hj ▸ hmem)
    rw [hesc, Store.lookup_insert']
    split
    · rename_i hk
      subst hk
      rw [he] at he₁; cases he₁
      exact ⟨e', rfl, hc.trans hu⟩
    · exact ⟨e₁, he₁, hu⟩

theorem of_created (h : ReserveInv contract w) {clientId : UserId} {dto : CreateEscrowDto} {key : String}
    {id : Uuid} {b : Balance} (hc : Creates w.db clientId dto key id b)
    (hb : w'.db.balances = w.db.balances.insert clientId (EscrowService.lockBalance dto.amount b))
    (hesc : w'.db.escrows = w.db.escrows.insert id (EscrowService.newEscrow clientId dto))
    (hl : w'.ledger = w.ledger)
    (hj : w'.jobs = w.jobs ++ [.fundEscrow id clientId (EscrowService.stroopsOf dto.amount)]) :
    ReserveInv contract w' := by
  have hpos := dto.amount_pos
  refine ⟨by rw [hl]; exact h.reachable, fun u => ?_, ?_, ?_, ?_, fun k u a hmem => ?_⟩
  · have hsum : w'.db.reservedBy u =
      (EscrowService.newEscrow clientId dto).reservedFor u + w.db.reservedBy u := by
      rw [Db.reservedBy, hesc, Store.total_insert_new hc.id_fresh]; rfl
    have hres : b.reservedAmount = w.db.reserveOf clientId := by rw [Db.reserveOf, hc.balance]; rfl
    have hround :
      (EscrowService.lockBalance dto.amount b).reservedAmount = b.reservedAmount + toColumn dto.amount :=
      roundHalfAway_intCast_add (by rw [hres]; exact h.reserved_nonneg clientId) (by linarith)
    rw [hsum, ← h.reserves u, Db.reserveOf, hb, Store.lookup_insert', Escrow.reservedFor]
    by_cases hu : u = clientId
    · subst hu
      simp only [ite_true, Option.elim_some, hround, hres, EscrowService.newEscrow, EscrowStatus.reserving,
        and_self]
      omega
    · have : ¬ clientId = u := fun h => hu h.symm
      simp [hu, EscrowService.newEscrow, this, Db.reserveOf]
  · rw [hesc]
    exact Store.forall_insert (toColumn_nonneg (le_of_lt hpos)) h.amounts
  · rw [hesc]; exact Store.forall_insert (fun h => by cases h) h.linked
  · rw [hesc, hl]; exact Store.forall_insert (fun h => by rcases h with h | h <;> cases h) h.settled
  · rw [hesc, Store.lookup_insert']
    rcases List.mem_append.mp (hj ▸ hmem) with hmem | hmem
    · obtain ⟨e₁, he₁, hu⟩ := h.jobs k u a hmem
      split
      · rename_i hk
        subst hk
        rw [hc.id_fresh] at he₁; cases he₁
      · exact ⟨e₁, he₁, hu⟩
    · cases List.mem_singleton.mp hmem
      exact ⟨_, if_pos rfl, rfl⟩

theorem of_request (h : ReserveInv contract w) {r : Request} (hsafe : ReserveSafe w (.request r)) :
    ReserveInv contract (w.request r) := by
  unfold World.request
  cases hr : r.serve w.db with
  | error e => exact h
  | ok res =>
    obtain ⟨user, -, hserved⟩ := Request.served hr
    cases hserved with
    | replayed _ => exact ⟨h.reachable, h.reserves, h.amounts, h.linked, h.settled, by simpa using h.jobs⟩
    | created hc => exact h.of_created hc rfl rfl rfl rfl
    | queued hj _ _ =>
      refine ⟨h.reachable, h.reserves, h.amounts, h.linked, h.settled, fun k u a hmem => ?_⟩
      rcases List.mem_append.mp hmem with hmem | hmem
      · exact h.jobs k u a hmem
      · rw [← List.mem_singleton.mp hmem] at hj
        exact absurd trivial (Request.job_not_fund hj)
    | disputed he _ hs =>
      refine h.of_rows he rfl rfl rfl (List.append_nil _) rfl rfl ?_ (fun _ => ⟨nofun, nofun⟩) ?_
      · rcases hs with hs | hs <;> rw [hs] <;> rfl
      · rintro (h | h) <;> cases h
    | reviewed _ => exact ⟨h.reachable, h.reserves, h.amounts, h.linked, h.settled, by simpa using h.jobs⟩
    | @resolved _ _ resolution d escrows hd hv =>
      cases hver : resolution.verdict with
      | none =>
        rw [hver] at hv
        obtain rfl : escrows = w.db.escrows := hv
        exact ⟨h.reachable, h.reserves, h.amounts, h.linked, h.settled, by simpa using h.jobs⟩
      | some v =>
        rw [hver] at hv
        obtain ⟨e, he, rfl⟩ := hv
        have hes := hsafe (by rw [hver]; nofun) d hd e he
        have hv' : v = .released ∨ v = .refunded := by
          cases resolution <;> cases hver <;> simp
        refine h.of_rows he rfl rfl rfl (List.append_nil _) rfl rfl ?_ (fun _ => ?_) fun _ => hes
        · rw [reserving_false hes]
          rcases hv' with rfl | rfl <;> rfl
        · rcases hv' with rfl | rfl <;> exact ⟨nofun, nofun⟩

theorem of_operate {s : Stellar} (h : ReserveInv s.contract w) {a : Operation} (hsafe : ReserveSafe w a) :
    ReserveInv s.contract (w.operate s a) := by
  cases a with
  | request r => exact h.of_request hsafe
  | ledger a => exact h.of_step rfl rfl rfl
  | attempt j =>
    simp only [World.operate]
    split
    · rename_i hj
      by_cases hf : j.IsFund
      · cases j with
        | fundEscrow id u amount =>
          exact h.of_fundEnded hj hsafe (Prog.complete_of_always (fundEscrow_ends (.quiet _ _)))
        | _ => exact hf.elim
      · have hend := Prog.complete_of_always (process_ends (F := False) (.quiet _ _) h.reachable hf)
        unfold Job.Ended at hend
        cases hp : j.plan s w with
        | none => rw [hp] at hend; exact h.of_same hend
        | some p =>
          rw [hp] at hend
          obtain ⟨e, hrow, hs⟩ := Job.plan_sound hp
          exact h.of_attempted hrow hs hend
    · exact h

end ReserveInv

/-- In every run from empty reserves whose operations are all safe, every
reserve is the sum of its owner's undecided escrows. -/
theorem reserves_match_while_safe {s : Stellar} {w : World} (hl : w.ledger.Reachable s.contract)
    (hb : ∀ u b, w.db.balances.lookup u = some b → b.reservedAmount = 0) (he : w.db.escrows = ∅)
    (hj : w.jobs = []) (as : List Operation) (hm : Meets (World.operate s) ReserveSafe w as) :
    (run (World.operate s) w as).db.ReservesMatch := by
  have h0 : ReserveInv s.contract w := by
    refine ⟨hl, fun u => ?_, ?_, ?_, ?_, ?_⟩
    · have hz : w.db.reservedBy u = 0 := by rw [Db.reservedBy, he]; rfl
      rw [hz, Db.reserveOf]
      cases hu : w.db.balances.lookup u with
      | none => rfl
      | some b => exact hb u b hu
    · rw [he]; exact fun _ _ h => nomatch h
    · rw [he]; exact fun _ _ h => nomatch h
    · rw [he]; exact fun _ _ h => nomatch h
    · rw [hj]; exact fun _ _ _ h => nomatch h
  exact (run_inv_of_meets (ReserveInv s.contract) (fun _ _ hsafe h => h.of_operate hsafe) as hm h0).reserves

/-- An escrow is created, funded and refunded. -/
def sampleOperations : List Operation := [
  .request (.createEscrow "client" sampleDto "key" sampleId),
  .attempt (.fundEscrow sampleId "client" 1000),
  .request (.refundEscrow "admin" sampleId ""),
  .attempt (.refundEscrow sampleId "admin" "")]

theorem sample_reserves_match :
    (run (World.operate sampleStellar) sampleWorld sampleOperations).db.ReservesMatch := by
  refine reserves_match_while_safe sampleWorld_reachable ?_ rfl rfl _
    ⟨trivial, fun e he => ?_, trivial, trivial, trivial⟩
  · exact Store.forall_insert rfl (Store.forall_insert rfl (Store.forall_insert rfl fun _ _ h => nomatch h))
  · have h : ((run (World.operate sampleStellar) sampleWorld (sampleOperations.take 1)).db.escrows.lookup
        sampleId).map (·.status) = some .pending := by decide +kernel
    change (run (World.operate sampleStellar) sampleWorld (sampleOperations.take 1)).db.escrows.lookup
      sampleId = _ at he
    rw [he] at h
    exact Option.some.inj h

/-- A verdict for the client marks the escrow refunded and leaves 100 reserved. -/
theorem verdict_strands_reserve : ¬ (run (World.operate sampleStellar) sampleWorld
    (sampleOperations.take 2 ++ [.request (.openDispute "client" sampleId "dispute"),
      .request (.resolveDispute "admin" "dispute" .resolvedClient)])).db.ReservesMatch := by
  intro h
  exact absurd (h "client") (by decide +kernel)

end NexusHub
