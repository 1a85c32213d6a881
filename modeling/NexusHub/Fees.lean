import NexusHub.Retry
import NexusHub.Writes

/-!
# What is paid out

Two fees meet in one escrow. The service adds one percent to the amount when it
locks it, the contract takes its share out of the amount when it releases it,
and the worker credits the bare amount either way.
-/

namespace NexusHub

/-! ## What never changes about an escrow -/

/-- Row and record stay, on the terms they were made on. -/
structure World.Keeps (contract : Address) (id : Uuid) (w w' : World) : Prop where
  later : w.Later contract w'
  row : ∀ e, w.db.escrows.lookup id = some e → ∃ e', w'.db.escrows.lookup id = some e' ∧
    e'.clientId = e.clientId ∧ e'.freelancerId = e.freelancerId ∧ e'.amount = e.amount
  record : w.ledger.Reachable contract → ∀ r, w.ledger.storage.escrows.lookup id.bytes = some r →
    ∃ r', w'.ledger.storage.escrows.lookup id.bytes = some r' ∧ r'.terms = r.terms

theorem Ledger.step_terms {contract : Address} {l : Ledger} (hl : l.Reachable contract) {k : Bytes}
    {r : EscrowRecord} (hr : l.storage.escrows.lookup k = some r) (a : Action) :
    ∃ r', (Ledger.step contract l a).storage.escrows.lookup k = some r' ∧ r'.terms = r.terms := by
  refine Ledger.view_run (fun v => ∃ r', v.record = some r' ∧ r'.terms = r.terms) (fun l v v' _ hm hv => ?_) hl
    ⟨r, hr, rfl⟩ [a]
  obtain ⟨r', hr', ht⟩ := hv
  cases hm with
  | create => cases hr'
  | update => cases hr'; exact ⟨_, rfl, (Call.change_terms _ _ _).trans ht⟩

theorem parties_evolve : Escrow.Evolves fun e e' =>
    e'.clientId = e.clientId ∧ e'.freelancerId = e.freelancerId ∧ e'.amount = e.amount where
  refl _ := ⟨rfl, rfl, rfl⟩
  trans h h' := ⟨h'.1.trans h.1, h'.2.1.trans h.2.1, h'.2.2.trans h.2.2⟩
  status _ _ := ⟨rfl, rfl, rfl⟩
  onEscrow tx e := ⟨tx.onEscrow_clientId e, tx.onEscrow_freelancerId e, tx.onEscrow_amount e⟩

theorem keeps_evolves (s : Stellar) (id : Uuid) : Prog.Evolves (platform s) (World.Keeps s.contract id) where
  refl w := ⟨(platform_evolves s).refl w, (rows_evolve parties_evolve s).refl w id, fun _ r hr => ⟨r, hr, rfl⟩⟩
  trans {u v w} h h' := by
    refine ⟨(platform_evolves s).trans h.later h'.later, fun e he => ?_, fun hw r hr => ?_⟩
    · obtain ⟨e₁, he₁, h₁⟩ := h.row e he
      obtain ⟨e₂, he₂, h₂⟩ := h'.row e₁ he₁
      exact ⟨e₂, he₂, parties_evolve.trans h₁ h₂⟩
    · obtain ⟨r₁, hr₁, t₁⟩ := h.record hw r hr
      obtain ⟨r₂, hr₂, t₂⟩ := h'.record (h.later.reachable hw) r₁ hr₁
      exact ⟨r₂, hr₂, t₂.trans t₁⟩
  perform w o := by
    refine ⟨(platform_evolves s).perform w o, (rows_evolve parties_evolve s).perform w o id, fun hw r hr => ?_⟩
    rcases World.perform_cases s w o with h | ⟨tx, -, h⟩ | ⟨m, args, ss, call, -, -, h⟩
    · exact ⟨r, by rw [show ((platform s).perform w o).1.ledger = w.ledger from h.ledger]; exact hr, rfl⟩
    · exact ⟨r, by rw [show ((platform s).perform w o).1.ledger = w.ledger from h.ledger]; exact hr, rfl⟩
    · have hstep := h.step
      change ((platform s).perform w o).1.ledger = _ at hstep
      rw [hstep]
      exact Ledger.step_terms hw hr _
  env w i := by
    refine ⟨(platform_evolves s).env w i, (rows_evolve parties_evolve s).env w i id, fun hw r hr => ?_⟩
    cases i with
    | ledger a => exact Ledger.step_terms hw hr a
    | request q =>
      have h := w.request_ledger q
      exact ⟨r, by rw [show ((platform s).env w (.request q)).ledger = w.ledger from h]; exact hr, rfl⟩

/-! ## Money -/

def Db.holdings (db : Db) : Int := Store.total db.balances fun b => b.availableAmount + b.reservedAmount

def Db.availableTo (db : Db) (u : UserId) : Int := (db.balances.lookup u).elim 0 (·.availableAmount)

/-- What a call transfers besides its first transfer is the platform's fee. -/
def Entry.fee : Entry → Int
  | .call rc => (rc.transfers.tail.map (·.amount)).sum
  | .outside _ => 0

/-- What a settlement transfers first goes to its beneficiary. -/
def Entry.paidTo (contract a : Address) : Entry → Int
  | .call rc => ((rc.transfers.head?.filter fun t => t.src = contract ∧ t.dst = a).elim 0 (·.amount))
  | .outside _ => 0

def Ledger.feesCollected (l : Ledger) : Int := (l.history.map Entry.fee).sum

def Ledger.paidTo (contract : Address) (l : Ledger) (a : Address) : Int :=
  (l.history.map (·.paidTo contract a)).sum

/-- The balances in ten-millionths, and the fees collected on-chain. -/
def World.money (w : World) : Int := 10 * w.db.holdings + w.ledger.feesCollected

theorem holdings_moves (balances : Store UserId Balance) (ms : List BalanceMove)
    (h : ∀ m ∈ ms, (balances.lookup m.user).isSome) :
    Store.total (ms.foldl applyMove balances) (fun b => b.availableAmount + b.reservedAmount) =
      Store.total balances (fun b => b.availableAmount + b.reservedAmount) +
        (ms.map fun m => m.available + m.reserved).sum := by
  induction ms generalizing balances with
  | nil => simp
  | cons m ms ih =>
    obtain ⟨b, hb⟩ := Option.isSome_iff_exists.mp (h m (List.mem_cons_self ..))
    rw [List.foldl_cons, ih _ fun m' hm' => ?_]
    · have := Store.total_update hb (b.increment m.available m.reserved) fun b =>
        b.availableAmount + b.reservedAmount
      rw [applyMove_of_lookup hb, List.map_cons, List.sum_cons]
      simp only [Balance.increment] at this ⊢
      omega
    · rw [isSome_applyMove]
      exact h m' (List.mem_cons_of_mem _ hm')

theorem World.Committed.money {w w' : World} {tx : DbTx} (h : w.Committed tx w')
    (hf : ∀ id, tx ≠ .failLocks id) :
    w'.money = w.money + 10 * (tx.moves.map fun m => m.available + m.reserved).sum := by
  obtain ⟨happ, hready⟩ := DbTx.apply_ok h.db
  have := holdings_moves w.db.balances tx.moves (hready hf).balances
  rw [← happ.balances] at this
  unfold World.money Db.holdings
  rw [this, h.ledger]
  ring

theorem World.Committed.availableTo {w w' : World} {tx : DbTx} (h : w.Committed tx w') {u : UserId}
    (hu : (w.db.balances.lookup u).isSome) :
    w'.db.availableTo u = w.db.availableTo u + availableOf tx.moves u := by
  obtain ⟨b, hb⟩ := Option.isSome_iff_exists.mp hu
  unfold Db.availableTo
  rw [(DbTx.apply_ok h.db).1.balances, lookup_applyMoves, hb]
  rfl

/-! ## Calls -/

section
variable {contract : Address} {signers : List Address} {call : Call} {w w' : World} {id : Bytes}

theorem World.Called.fees_of_init (h : w.Called contract signers call w')
    (hid : call.escrowId? = some id) (hinit : call.isInit = true) :
    w'.ledger.feesCollected = w.ledger.feesCollected := by
  obtain ⟨host, hx, hl⟩ := h.ledger
  have hnone : host.transfers = [] := by
    rcases exec_cases hx with hc | ⟨k, r, hc, rfl⟩ | ⟨k, hk, r, hr, ha, -, -, rfl⟩
    · rw [hc.named] at hid; cases hid
    · rfl
    · cases call <;> first | exact ha.elim | cases hinit
  rw [hl]
  simp [Ledger.feesCollected, Ledger.commit, Entry.fee, hnone]

theorem World.Called.receipt (hw : w.ledger.Reachable contract) (h : w.Called contract signers call w')
    (hid : call.escrowId? = some id) (hinit : call.isInit = false) :
    ∃ r, w.ledger.storage.escrows.lookup id = some r ∧ r.Ok id ∧
      call.Admits (w.ledger.env contract signers) w.ledger.storage.isPaused r ∧
      w'.ledger.storage.escrows.lookup id = some (call.change (w.ledger.env contract signers) r).record ∧
      w'.ledger.history = w.ledger.history ++
        [.call ((w.ledger.env contract signers).receipt call
        (call.change (w.ledger.env contract signers) r))] := by
  obtain ⟨r, hr, hok, ha, hlook⟩ := h.updates hw hid hinit
  refine ⟨r, hr, hok, ha, (hlook id).trans (if_pos rfl), ?_⟩
  obtain ⟨host, hx, hl⟩ := h.ledger
  rcases exec_cases hx with hc | ⟨k, r', hc, rfl⟩ | ⟨k, hk, r', hr', ha', -, -, rfl⟩
  · rw [hc.named] at hid; cases hid
  · obtain ⟨_, _, _, _, -, rfl⟩ := hc.call_eq
    cases hinit
  · obtain rfl : k = id := Option.some.inj (hk.symm.trans hid)
    cases hr.symm.trans hr'
    rw [hl]
    rfl

end

/-! ## Amounts -/

/-- What rounding to the column leaves of one percent of `m` millionths. -/
def apiFee (m : Int) : Int := (m + 49) / 100

theorem apiFee_eq_zero {m : Int} (hm : 0 < m) : apiFee m = 0 ↔ m ≤ 50 := by
  unfold apiFee; omega

section
variable {amount : ℚ} {m : Int} (hm : amount = m / 10 ^ 6)
include hm

theorem toColumn_of_micro : toColumn amount = m := by
  unfold toColumn
  rw [hm, div_mul_cancel₀ _ (by norm_num), roundHalfAway_intCast]

theorem stroopsOf_of_micro : EscrowService.stroopsOf amount = 10 * m := by
  unfold EscrowService.stroopsOf
  rw [hm, show (m : ℚ) / 10 ^ 6 * 10 ^ 7 = ((10 * m : Int) : ℚ) by push_cast; ring, roundHalfAway_intCast]

theorem lockBalance_reserved (b : Balance) :
    (EscrowService.lockBalance amount b).reservedAmount = b.reservedAmount + m := by
  show roundHalfAway (b.reservedAmount + amount * 10 ^ 6) = _
  rw [hm, div_mul_cancel₀ _ (by norm_num), ← Int.cast_add, roundHalfAway_intCast]

theorem lockBalance_available {b : Balance}
    (hcov : EscrowService.totalDebitOf amount * 10 ^ 6 ≤ b.availableAmount) :
    (EscrowService.lockBalance amount b).availableAmount = b.availableAmount - (m + apiFee m) := by
  have hdebit : EscrowService.totalDebitOf amount * 10 ^ 6 = m + m / 100 := by
    unfold EscrowService.totalDebitOf EscrowService.feeOf
    rw [hm]; ring
  show roundHalfAway (b.availableAmount - EscrowService.totalDebitOf amount * 10 ^ 6) = _
  rw [roundHalfAway_of_nonneg (by linarith), hdebit, Int.floor_eq_iff]
  have h1 : 100 * apiFee m ≤ m + 49 := by unfold apiFee; omega
  have h2 : m - 50 ≤ 100 * apiFee m := by unfold apiFee; omega
  have h1 : (100 : ℚ) * apiFee m ≤ m + 49 := by exact_mod_cast h1
  have h2 : (m : ℚ) - 50 ≤ 100 * apiFee m := by exact_mod_cast h2
  push_cast
  constructor <;> linarith

end

/-! ## Creation, funding and settlement -/

theorem created_money {w : World} {clientId : UserId} {dto : CreateEscrowDto} {key : String} {id : Uuid}
    {m : Int} (hm : dto.amount = m / 10 ^ 6) (hkey : w.db.transactions.lookup key = none) {res : Response}
    (hserve : (Request.createEscrow clientId dto key id).serve w.db = .ok res) :
    let w' := w.request (.createEscrow clientId dto key id)
    w'.db.escrows.lookup id = some (EscrowService.newEscrow clientId dto) ∧
      w'.db.availableTo clientId = w.db.availableTo clientId - (m + apiFee m) ∧
      w'.money = w.money - 10 * apiFee m := by
  unfold World.request
  rw [hserve]
  obtain ⟨user, -, hserved⟩ := Request.served hserve
  cases hserved with
  | replayed h => rw [hkey] at h; cases h
  | queued hj => cases hj
  | @created _ _ _ _ b hc =>
    have havail := lockBalance_available hm hc.covered
    have hres := lockBalance_reserved hm b
    refine ⟨Finmap.lookup_insert _, ?_, ?_⟩
    · simp only [Db.availableTo, Finmap.lookup_insert, hc.balance, Option.elim_some]
      exact havail
    · have := Store.total_update hc.balance (EscrowService.lockBalance dto.amount b)
        fun b => b.availableAmount + b.reservedAmount
      simp only [World.money, Db.holdings]
      omega

section
variable {s : Stellar} {w w' : World}

theorem funded_terms {id : Uuid} {clientId : UserId} {amount : Int} {e : Escrow}
    (hw : w.ledger.Reachable s.contract) (he : w.db.escrows.lookup id = some e)
    (hlink : e.stellarContractId = none)
    (ht : FundTried s World.Same False id clientId amount w w' (.returned ())) :
    (∃ r, w'.ledger.storage.escrows.lookup id.bytes = some r ∧ r.amount = amount ∧
      r.platformFee = (amount * w.ledger.storage.getFeeBps).tdiv 10000) ∧ w'.money = w.money := by
  cases ht with
  | stopped _ ho _ => exact absurd rfl (ho ())
  | begun _ _ _ ho => exact absurd rfl (ho ())
  | deposited _ _ _ _ ho => exact absurd rfl (ho ())
  | @committed input w₁ w₂ txHash hin hb hc hcom _ =>
    cases he.symm.trans (World.escrow_of_fundingInput hin)
    cases hb with
    | before hrow _ => rw [hlink] at hrow; cases hrow
    | now _ hcall hi =>
      have hi := hi.called
      have hc := hc.called
      have hcom := hcom.committed
      obtain ⟨hid, hinit⟩ := Stellar.initCall_spec hcall
      obtain ⟨r, hcreates, -, hlook⟩ := hi.creates hw hid hinit
      obtain ⟨r', hr', -, -, hrec, hhist⟩ := hc.receipt (hi.reachable hw) rfl rfl
      obtain rfl : r = r' := Option.some.inj (((hlook id.bytes).trans (if_pos rfl)).symm.trans hr')
      have hamount : r.amount = amount := by
        obtain ⟨x, _, _, _, hx, hcall'⟩ := hcreates.call_eq
        obtain ⟨y, hy, hcall⟩ := Option.bind_eq_some_iff.mp hcall
        obtain ⟨_, -, hcall⟩ := Option.bind_eq_some_iff.mp hcall
        obtain ⟨_, -, hcall⟩ := Option.bind_eq_some_iff.mp hcall
        obtain ⟨_, -, hcall⟩ := Option.map_eq_some_iff.mp hcall
        rw [hcall', Call.initEscrow.injEq] at hcall
        obtain rfl : y = x := hcall.2.2.2.2.1
        unfold Stellar.toI128 at hy
        split at hy
        · cases hy; exact hx.symm
        · cases hy
      have hfees : w'.ledger.feesCollected = w.ledger.feesCollected := by
        rw [hcom.ledger, ← hi.fees_of_init hid hinit]
        simp [Ledger.feesCollected, hhist, Entry.fee, Env.receipt, Call.change]
      refine ⟨⟨(Call.change _ r (.fund id.bytes)).record, by rw [hcom.ledger]; exact hrec, hamount, ?_⟩, ?_⟩
      · rw [← hamount]; exact hcreates.fee
      · have hmoney := hcom.money fun _ => DbTx.noConfusion
        have hdb : w₂.db = w.db := hc.db.trans hi.db
        unfold World.money at hmoney ⊢
        rw [hfees]
        rw [hdb] at hmoney
        simp only [Stellar.fundTx, DbTx.moves, List.map_nil, List.sum_nil] at hmoney
        rw [← hcom.ledger, hfees] at hmoney
        omega

end

/-! ## The settlement -/

def Job.releases : Job → Bool
  | releaseEscrow .. | approveRelease .. => true
  | fundEscrow .. | refundEscrow .. | completeMilestone .. | claimExpired .. => false

theorem approve_pays {env : Env} {paused : Bool} {r : EscrowRecord} {id : Bytes} {a : Address}
    (ha : (Call.approveRelease id a).Admits env paused r)
    (hs : ((Call.approveRelease id a).change env r).record.Settled) :
    ((Call.approveRelease id a).change env r).transfers = r.payout env.contract := by
  have hb := (approve_settled ha).mp hs
  simp only [Call.change, Bool.and_eq_true] at hb ⊢
  split
  · rfl
  · rename_i hn
    rw [if_neg hn] at hb
    exact absurd hb hn

section
variable {s : Stellar} {w w' : World}

/-- What an attempt that paid did: credit the row's amount, and transfer what the record says. -/
theorem paid_terms {j : Job} {e : Escrow} (hw : w.ledger.Reachable s.contract) (hf : ¬ j.IsFund)
    (he : w.db.escrows.lookup j.escrowId = some e) (hend : j.Ended s World.Same False w w')
    (hpaid : w'.payments j.escrowId ≠ w.payments j.escrowId) :
    ∃ r, w.ledger.storage.escrows.lookup j.escrowId.bytes = some r ∧
      (∃ r', w'.ledger.storage.escrows.lookup j.escrowId.bytes = some r' ∧ r'.terms = r.terms) ∧
      if j.releases then
        w'.db.availableTo e.freelancerId = w.db.availableTo e.freelancerId + e.amount ∧
        w'.ledger.paidTo s.contract r.freelancer = w.ledger.paidTo s.contract r.freelancer +
        (r.amount - r.platformFee) ∧ w'.money = w.money + r.platformFee
      else
        w'.db.availableTo e.clientId = w.db.availableTo e.clientId + e.amount ∧ w'.money = w.money := by
  unfold Job.Ended at hend
  cases hp : j.plan s w with
  | none =>
    rw [hp] at hend
    exact absurd (hend.apart s.contract j.escrowId).payments hpaid
  | some p =>
    rw [hp] at hend
    obtain ⟨e₀, -, hsound⟩ := Job.plan_sound hp
    cases hend with
    | refused hs _ => exact absurd (hs.apart s.contract j.escrowId).payments hpaid
    | called hc _ => exact absurd (by rw [World.payments, hc.called.commits]; rfl) hpaid
    | @committed w₁ r' txHash hc hr' hcom =>
      have hc := hc.called
      have hcom := hcom.committed
      obtain ⟨r, hr, hok, ha, hrec, hhist⟩ := hc.receipt hw hsound.named hsound.no_init
      obtain rfl : _ = r' := Option.some.inj (hrec.symm.trans hr')
      have hset : (p.call.change (w.ledger.env s.contract p.signers) r).record.Settled := by
        by_contra hs
        refine hpaid ?_
        have := hcom.payments
        rw [hsound.row, ((hsound.keeps ha hs).2 txHash).2.1] at this
        rw [this, World.payments, hc.commits]
        simp [World.payments]
      obtain ⟨hmoves, -⟩ := Job.plan_pays hp he ha hset txHash
      have hready := (DbTx.apply_ok hcom.db).2 (hsound.no_fail _ _)
      have hmoney := hcom.money (hsound.no_fail _ _)
      have hw₁ : w₁.money = w.money + ((p.call.change (w.ledger.env s.contract p.signers) r).transfers.tail.map
          (·.amount)).sum := by
        simp only [World.money, hc.db, Ledger.feesCollected, hhist, List.map_append, List.sum_append,
          List.map_cons, List.map_nil, List.sum_cons, List.sum_nil, Entry.fee, Env.receipt]
        omega
      have hto : w'.ledger.paidTo s.contract r.freelancer = w.ledger.paidTo s.contract r.freelancer +
          Entry.paidTo s.contract r.freelancer (.call ((w.ledger.env s.contract p.signers).receipt p.call
            (p.call.change (w.ledger.env s.contract p.signers) r))) := by
        rw [hcom.ledger]
        simp only [Ledger.paidTo, hhist, List.map_append, List.sum_append, List.map_cons, List.map_nil,
          List.sum_cons, List.sum_nil, add_zero]
      refine ⟨r, hr, ⟨_, by rw [hcom.ledger]; exact hrec, Call.change_terms _ _ _⟩, ?_⟩
      have hav (m : BalanceMove) (hm : m ∈ j.settlement e) :
          w'.db.availableTo m.user = w.db.availableTo m.user + availableOf (j.settlement e) m.user := by
        rw [← hmoves] at hm ⊢
        rw [hcom.availableTo (hready.balances m hm), hc.db]
      rw [hmoves, hw₁] at hmoney
      cases Job.planned hp with
      | refund | claim =>
        have hback := hav _ (List.mem_singleton_self _)
        simp only [Job.settlement, availableOf] at hback hmoney
        refine ⟨by simpa using hback, by simpa [Call.change] using hmoney⟩
      | approve =>
        have hpay := approve_pays ha hset
        have hcredit := hav _ (List.mem_cons_self ..)
        simp only [hpay, Env.receipt, Entry.paidTo, EscrowRecord.payout] at hto
        simp only [hpay, EscrowRecord.payout] at hmoney
        simp only [Job.settlement, availableOf] at hcredit hmoney
        refine ⟨by simpa using hcredit, by simpa [Option.filter] using hto, ?_⟩
        have hfee := hok.fee_nonneg
        by_cases hpos : 0 < r.platformFee
        · simpa [hpos] using hmoney
        · have hzero : r.platformFee = 0 := by omega
          simpa [hpos, hzero] using hmoney
      | milestone =>
        have hopen : EscrowRecord.Live _ := .inr (.inl ha.2.1)
        exact absurd hset hopen.not_settled

end

theorem platformFee_eq_zero {m : Int} (hm : 0 < m) (bps : Nat) :
    (10 * m * bps).tdiv 10000 = 0 ↔ m * bps < 1000 := by
  have hnonneg : 0 ≤ m * bps := by positivity
  rw [Int.mul_assoc, Int.tdiv_eq_ediv_of_nonneg (by omega)]
  omega

/-! ## A life -/

/-- An escrow is created, funded and settled, with anything the platform may do
`before` the funding and `meanwhile`, until the settlement. -/
structure Life where
  start : World
  clientId : UserId
  dto : CreateEscrowDto
  key : String
  settlement : Job
  before : List (PoolAction Job EnvAction WorkerError)
  meanwhile : List (PoolAction Job EnvAction WorkerError)

namespace Life

def id (l : Life) : Uuid := l.settlement.escrowId

def creation (l : Life) : Request := .createEscrow l.clientId l.dto l.key l.id

def funding (l : Life) : Job := .fundEscrow l.id l.clientId (EscrowService.stroopsOf l.dto.amount)

def created (l : Life) : World := l.start.request l.creation

variable (s : Stellar)

def unfunded (l : Life) : World :=
  (run (Pool.step (platform s) (Worker.process s)) ⟨l.created, []⟩ l.before).world

def funded (l : Life) : World := ((Worker.process s l.funding).complete (platform s) (l.unfunded s)).1

def unsettled (l : Life) : World :=
  (run (Pool.step (platform s) (Worker.process s)) ⟨l.funded s, []⟩ l.meanwhile).world

def settled (l : Life) : World := ((Worker.process s l.settlement).complete (platform s) (l.unsettled s)).1

/-- The creation is accepted, the funding succeeds and the settlement is paid. -/
structure Lived (l : Life) : Prop where
  reachable : l.start.ledger.Reachable s.contract
  fresh : l.start.db.transactions.lookup l.key = none
  created : ∃ res, l.creation.serve l.start.db = .ok res
  unlinked : ∀ e, (l.unfunded s).db.escrows.lookup l.id = some e → e.stellarContractId = none
  funded : ((Worker.process s l.funding).complete (platform s) (l.unfunded s)).2 = .ok ()
  settles : ¬ l.settlement.IsFund
  settled : (l.settled s).payments l.id ≠ (l.unsettled s).payments l.id

/-- A release credits the freelancer with what the contract transfers, a refund
gives the client back what the creation took, and nothing is made or lost. -/
def PaidAlike (l : Life) : Prop :=
  (if l.settlement.releases then
    ∀ r, (l.settled s).ledger.storage.escrows.lookup l.id.bytes = some r →
      10 * ((l.settled s).db.availableTo l.dto.freelancerId - (l.unsettled s).db.availableTo
        l.dto.freelancerId) = (l.settled s).ledger.paidTo s.contract r.freelancer -
          (l.unsettled s).ledger.paidTo s.contract r.freelancer
  else
    (l.settled s).db.availableTo l.clientId - (l.unsettled s).db.availableTo l.clientId =
      l.start.db.availableTo l.clientId - l.created.db.availableTo l.clientId) ∧
  (l.created.money - l.start.money) + ((l.funded s).money - (l.unfunded s).money) +
    ((l.settled s).money - (l.unsettled s).money) = 0

theorem kept (l : Life) : l.created.Keeps s.contract l.id (l.unfunded s) :=
  pool_rel (keeps_evolves s l.id) ⟨l.created, []⟩ l.before

theorem kept_meanwhile (l : Life) : (l.funded s).Keeps s.contract l.id (l.unsettled s) :=
  pool_rel (keeps_evolves s l.id) ⟨l.funded s, []⟩ l.meanwhile

theorem amount_pos {l : Life} {m : Int} (hm : l.dto.amount = m / 10 ^ 6) : 0 < m := by
  have hpos := l.dto.amount_pos
  rw [hm] at hpos
  have : (0 : ℚ) < m := by
    by_contra hn
    have := div_nonpos_of_nonpos_of_nonneg (not_lt.mp hn) (by norm_num : (0 : ℚ) ≤ 10 ^ 6)
    linarith
  exact_mod_cast this

namespace Lived

variable {s} {l : Life} (h : l.Lived s) {m : Int} (hm : l.dto.amount = m / 10 ^ 6)
include h

theorem created_reachable : l.created.ledger.Reachable s.contract := by
  unfold Life.created
  rw [World.request_ledger]
  exact h.reachable

theorem unsettled_reachable : (l.unsettled s).ledger.Reachable s.contract := by
  refine (l.kept_meanwhile s).later.reachable ?_
  exact ((platform_evolves s).complete _ _).reachable ((l.kept s).later.reachable h.created_reachable)

theorem tried : FundTried s World.Same False l.id l.clientId (EscrowService.stroopsOf l.dto.amount)
    (l.unfunded s) (l.funded s) (.returned ()) := by
  have hend := Prog.complete_of_always (@fundEscrow_ends s World.Same False (l.unfunded s) l.id l.clientId
    (EscrowService.stroopsOf l.dto.amount) (.quiet _ _))
  change FundEnded s World.Same False l.id l.clientId _ (l.unfunded s) (l.funded s)
    (.ofExcept ((Worker.process s l.funding).complete (platform s) (l.unfunded s)).2) at hend
  rw [h.funded] at hend
  cases hend with
  | done ht _ => exact ht
  | handled _ _ ho => exact absurd rfl (ho ())

include hm

theorem row : ∃ e, (l.unsettled s).db.escrows.lookup l.id = some e ∧ e.clientId = l.clientId ∧
    e.freelancerId = l.dto.freelancerId ∧ e.amount = m := by
  obtain ⟨res, hserve⟩ := h.created
  obtain ⟨hrow, -, -⟩ := created_money hm h.fresh hserve
  have hkeep := (keeps_evolves s l.id).trans (l.kept s) ((keeps_evolves s l.id).trans
    ((keeps_evolves s l.id).complete (Worker.process s l.funding) (l.unfunded s)) (l.kept_meanwhile s))
  obtain ⟨e, he, hc, hf, ha⟩ := hkeep.row _ hrow
  exact ⟨e, he, hc, hf, ha.trans (toColumn_of_micro hm)⟩

theorem record : (∃ r, (l.unsettled s).ledger.storage.escrows.lookup l.id.bytes = some r ∧ r.amount = 10 * m ∧
    r.platformFee = (10 * m * (l.unfunded s).ledger.storage.getFeeBps).tdiv 10000) ∧
    (l.funded s).money = (l.unfunded s).money := by
  obtain ⟨res, hserve⟩ := h.created
  obtain ⟨hrow, -, -⟩ := created_money hm h.fresh hserve
  obtain ⟨e, he, -, -, -⟩ := (l.kept s).row _ hrow
  have hw := (l.kept s).later.reachable h.created_reachable
  obtain ⟨⟨r, hr, ha, hf⟩, hmoney⟩ := funded_terms hw he (h.unlinked e he) h.tried
  obtain ⟨r', hr', hterms⟩ :=
    (l.kept_meanwhile s).record (((platform_evolves s).complete _ _).reachable hw) r hr
  rw [stroopsOf_of_micro hm] at ha hf
  refine ⟨⟨r', hr', ?_, ?_⟩, hmoney⟩
  · rw [EscrowRecord.get_of_terms hterms (·.amount) fun _ => rfl, ha]
  · rw [EscrowRecord.get_of_terms hterms (·.platformFee) fun _ => rfl, hf]

end Lived

end Life

/-- The payments agree for an escrow of `m` millionths exactly when one percent
of `m` rounds to nothing, and for a release when the contract's fee does too. -/
theorem paid_alike_iff {s : Stellar} {l : Life} {m : Int} (hm : l.dto.amount = m / 10 ^ 6) (h : l.Lived s) :
    l.PaidAlike s ↔ m ≤ 50 ∧ (l.settlement.releases → m * (l.unfunded s).ledger.storage.getFeeBps < 1000) := by
  obtain ⟨res, hserve⟩ := h.created
  obtain ⟨-, hdebit, hmade⟩ := created_money hm h.fresh hserve
  obtain ⟨e, he, hclient, hfreelancer, hamount⟩ := h.row hm
  obtain ⟨⟨r, hr, ha, hfee⟩, hmoney⟩ := h.record hm
  have hend :=
    Prog.complete_of_always (@process_ends s World.Same False (l.unsettled s) l.settlement (.quiet _ _)
      h.unsettled_reachable h.settles)
  obtain ⟨r', hr', ⟨r'', hr'', hterms⟩, hpays⟩ := paid_terms h.unsettled_reachable h.settles he hend h.settled
  obtain rfl : r = r' := Option.some.inj (hr.symm.trans hr')
  have hzero := platformFee_eq_zero (Life.amount_pos hm) (l.unfunded s).ledger.storage.getFeeBps
  rw [← hfee] at hzero
  have hapi := apiFee_eq_zero (Life.amount_pos hm)
  rw [hclient, hfreelancer, hamount, ha] at hpays
  rw [← hapi, ← hzero]
  change l.created.db.availableTo l.clientId = _ at hdebit
  change l.created.money = _ at hmade
  unfold Life.PaidAlike
  cases hj : l.settlement.releases with
  | true =>
    rw [hj, if_pos rfl] at hpays
    obtain ⟨hcredit, hto, hnet⟩ := hpays
    change (l.settled s).db.availableTo _ = _ at hcredit
    change (l.settled s).ledger.paidTo _ _ = _ at hto
    change (l.settled s).money = _ at hnet
    have hpayee : r''.freelancer = r.freelancer := EscrowRecord.get_of_terms hterms (·.freelancer) fun _ => rfl
    rw [← hpayee] at hto
    constructor
    · intro ⟨halike, hsum⟩
      have := halike r'' hr''
      exact ⟨by omega, fun _ => by omega⟩
    · intro ⟨hnoapi, hnofee⟩
      have := hnofee rfl
      refine ⟨fun r₅ hr₅ => ?_, by omega⟩
      cases hr''.symm.trans hr₅
      omega
  | false =>
    rw [hj, if_neg (by simp)] at hpays
    obtain ⟨hback, hnet⟩ := hpays
    change (l.settled s).db.availableTo _ = _ at hback
    change (l.settled s).money = _ at hnet
    constructor
    · intro ⟨halike, _⟩
      change (l.settled s).db.availableTo _ - _ = _ at halike
      exact ⟨by omega, nofun⟩
    · intro ⟨hnoapi, _⟩
      refine ⟨?_, by omega⟩
      change (l.settled s).db.availableTo _ - _ = _
      omega

def sampleLife (dto : CreateEscrowDto) : Life :=
  ⟨sampleWorld, "client", dto, "key", .refundEscrow sampleId "admin" "", [], []⟩

/-- Ten millionths, one percent of which rounds to nothing. -/
def sampleDust : CreateEscrowDto := { sampleDto with amount := 1 / 100000, amount_pos := by norm_num }

theorem sampleLife_lived {dto : CreateEscrowDto}
    (hcreated : ((sampleLife dto).creation.serve sampleWorld.db).isOk)
    (hunlinked : ∀ e ∈ ((sampleLife dto).unfunded sampleStellar).db.escrows.lookup sampleId,
    e.stellarContractId = none) (hfunded :
    ((Worker.process sampleStellar (sampleLife dto).funding).complete (platform sampleStellar)
      ((sampleLife dto).unfunded sampleStellar)).2 = .ok ())
    (hsettled : ((sampleLife dto).settled sampleStellar).payments sampleId ≠
      ((sampleLife dto).unsettled sampleStellar).payments sampleId) : (sampleLife dto).Lived sampleStellar where
  reachable := sampleWorld_reachable
  fresh := rfl
  created := by
    cases h : (sampleLife dto).creation.serve sampleWorld.db with
    | ok res => exact ⟨res, h⟩
    | error _ => rw [h] at hcreated; cases hcreated
  unlinked := hunlinked
  funded := hfunded
  settles h := h
  settled := hsettled

theorem sample_dust_paid_alike : (sampleLife sampleDust).PaidAlike sampleStellar := by
  refine (paid_alike_iff (m := 10) ?_ (sampleLife_lived ?_ ?_ ?_ ?_)).mpr ⟨by norm_num, nofun⟩
  · show (1 / 100000 : ℚ) = _
    norm_num
  all_goals decide +kernel

/-- The refund of 100 millionths gives back 100 of the 101 the creation took. -/
theorem refund_keeps_api_fee :
    (sampleLife sampleDto).Lived sampleStellar ∧ ¬ (sampleLife sampleDto).PaidAlike sampleStellar := by
  constructor
  · refine sampleLife_lived ?_ ?_ ?_ ?_ <;> decide +kernel
  · intro h
    refine absurd h.1 ?_
    show ¬ (((sampleLife sampleDto).settled sampleStellar).db.availableTo "client" -
      ((sampleLife sampleDto).unsettled sampleStellar).db.availableTo "client" =
        sampleWorld.db.availableTo "client" - (sampleLife sampleDto).created.db.availableTo "client")
    decide +kernel

end NexusHub
