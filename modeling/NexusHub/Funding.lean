import NexusHub.Amounts
import NexusHub.Retry
import NexusHub.Solvency

/-!
# Funding a new escrow

The job of a new escrow is queued while the transaction that creates it is
still open, so an attempt may look for a row that is not there yet, and every
attempt that fails compensates the client, whatever has become of the escrow.
As long as attempts start before that and do not fail after the deposit, the
escrow ends FUNDED, or CANCELLED with the balance as before.
-/

namespace NexusHub

def DbTx.compensates : DbTx → Bool
  | compensate .. => true
  | _ => false

/-! ## A creation -/

/-- An escrow about to be created, and the client's balance before. -/
structure Creation where
  clientId : UserId
  dto : CreateEscrowDto
  id : Uuid
  balance : Balance

def World.statusOf (w : World) (id : Uuid) : Option EscrowStatus := (w.db.escrows.lookup id).map (·.status)

def World.amountsOf (w : World) (u : UserId) : Option (Int × Int) :=
  (w.db.balances.lookup u).map fun b => (b.availableAmount, b.reservedAmount)

def World.recordStatus (w : World) (id : Uuid) : Option EscrowStatus :=
  (w.ledger.storage.escrows.lookup id.bytes).map (·.status)

namespace Creation

def request (c : Creation) (key : String) : Request := .createEscrow c.clientId c.dto key c.id

def escrow (c : Creation) : Escrow := EscrowService.newEscrow c.clientId c.dto

def locked (c : Creation) : Balance := EscrowService.lockBalance c.dto.amount c.balance

def job (c : Creation) : Job := .fundEscrow c.id c.clientId (EscrowService.stroopsOf c.dto.amount)

/-- In millionths: the amount and its fee, each rounded, add up to what both together are rounded to, ties
downwards. A tie of the amount alone is rounded the same way on a reserve that is not below zero. -/
def GivesBack (c : Creation) : Prop :=
  let x := c.dto.amount * 10 ^ 6
  let m := ⌊x + 1 / 2⌋
  let k := ⌊x / 100 + 1 / 2⌋
  ((m : ℚ) + k - 1 / 2 < x + x / 100 ∧ x + x / 100 ≤ m + k + 1 / 2) ∧
    (x = m - 1 / 2 → 0 ≤ c.balance.reservedAmount + x)

instance (c : Creation) : Decidable c.GivesBack := inferInstanceAs (Decidable ((_ ∧ _) ∧ (_ → _)))

def Covered (c : Creation) : Prop :=
  EscrowService.totalDebitOf c.dto.amount * 10 ^ 6 ≤ c.balance.availableAmount

/-- The columns give back what was taken out of them. -/
def Exact (c : Creation) : Prop :=
  c.locked.availableAmount + (c.escrow.amount + c.escrow.fee) = c.balance.availableAmount ∧
    c.locked.reservedAmount - c.escrow.amount = c.balance.reservedAmount

/-- Rounding the sum rounds the summand, but for a tie that falls below zero. -/
theorem roundHalfAway_add_iff (n : Int) (x : ℚ) :
    roundHalfAway (n + x) = n + ⌊x + 1 / 2⌋ ↔ (x = ⌊x + 1 / 2⌋ - 1 / 2 → 0 ≤ n + x) := by
  have hle := Int.floor_le (x + 1 / 2)
  have hlt := Int.lt_floor_add_one (x + 1 / 2)
  by_cases hn : 0 ≤ n + x
  · rw [roundHalfAway_of_nonneg hn, add_assoc, Int.floor_intCast_add]
    simp [hn]
  · have hround : roundHalfAway (n + x) = -⌊-(n + x) + 1 / 2⌋ := if_neg hn
    have hneg : -⌊-((n : ℚ) + x) + 1 / 2⌋ = n + ⌊x + 1 / 2⌋ ↔
        ⌊-((n : ℚ) + x) + 1 / 2⌋ = -(n + ⌊x + 1 / 2⌋) := by omega
    rw [hround, hneg, Int.floor_eq_iff]
    push_cast
    constructor
    · rintro ⟨-, h2⟩ htie
      linarith
    · intro htie
      have hne : x ≠ ⌊x + 1 / 2⌋ - 1 / 2 := fun h => hn (htie h)
      have hgt : (⌊x + 1 / 2⌋ : ℚ) - 1 / 2 < x := lt_of_le_of_ne (by linarith) hne.symm
      constructor <;> linarith

theorem Covered.exact_iff {c : Creation} (h : c.Covered) : c.Exact ↔ c.GivesBack := by
  have hpos := c.dto.amount_pos
  have hamount : toColumn c.dto.amount = ⌊c.dto.amount * 10 ^ 6 + 1 / 2⌋ :=
    roundHalfAway_of_nonneg (by positivity)
  have hfee : toColumn (EscrowService.feeOf c.dto.amount) = ⌊c.dto.amount * 10 ^ 6 / 100 + 1 / 2⌋ :=
    fee_eq_iff.mpr ⟨by linarith [Int.floor_le (c.dto.amount * 10 ^ 6 / 100 + 1 / 2)],
      by linarith [Int.lt_floor_add_one (c.dto.amount * 10 ^ 6 / 100 + 1 / 2)]⟩
  refine and_congr ?_ ?_
  · rw [← debit_eq_iff h, ← hamount, ← hfee]
    change _ = c.balance.availableAmount ↔ c.balance.availableAmount - c.locked.availableAmount = _
    change c.locked.availableAmount + (toColumn c.dto.amount + toColumn (EscrowService.feeOf c.dto.amount)) = _ ↔ _
    omega
  · rw [← roundHalfAway_add_iff, ← hamount]
    change c.locked.reservedAmount - toColumn c.dto.amount = _ ↔ c.locked.reservedAmount = _
    omega

/-! ## Stages -/

/-- What the database has of the escrow and its client, `paid` being the payments for the escrow. -/
structure Booked (c : Creation) (status : EscrowStatus) (amounts : Int × Int) (paid : List (List BalanceMove))
    (w : World) : Prop where
  covered : c.Covered
  client : (w.db.users.lookup c.clientId).isSome
  row : ∃ e, w.db.escrows.lookup c.id = some e ∧ e.status = status ∧ e.amount = c.escrow.amount ∧
    e.fee = c.escrow.fee
  amounts : w.amountsOf c.clientId = some amounts
  payments : w.payments c.id = paid

def Undeposited (c : Creation) (w : World) : Prop := ∀ st ∈ w.recordStatus c.id, st = .pending

structure Fresh (c : Creation) (w : World) : Prop where
  row : w.db.escrows.lookup c.id = none
  balance : w.db.balances.lookup c.clientId = some c.balance
  record : c.Undeposited w

def lockedAmounts (c : Creation) : Int × Int := (c.locked.availableAmount, c.locked.reservedAmount)

def Pending (c : Creation) (paid : List (List BalanceMove)) (w : World) : Prop :=
  c.Booked .pending c.lockedAmounts paid w ∧ c.Undeposited w

/-- The deposit is made and not booked. -/
def Deposited (c : Creation) (paid : List (List BalanceMove)) (w : World) : Prop :=
  c.Booked .pending c.lockedAmounts paid w ∧ w.recordStatus c.id = some .funded

def Funded (c : Creation) (paid : List (List BalanceMove)) (w : World) : Prop :=
  c.Booked .funded c.lockedAmounts paid w ∧ w.recordStatus c.id = some .funded

def Cancelled (c : Creation) (paid : List (List BalanceMove)) (w : World) : Prop :=
  c.Booked .cancelled (c.balance.availableAmount, c.balance.reservedAmount)
      (paid ++ [compensation c.clientId c.escrow]) w ∧ c.Undeposited w

/-- Where an attempt may start, and where it may fail. -/
inductive Resting (c : Creation) (paid : List (List BalanceMove)) (w : World) : Prop where
  | fresh (h : c.Fresh w) (hp : w.payments c.id = paid)
  | pending (h : c.Pending paid w)
  | funded (h : c.Funded paid w)
  | cancelled (h : c.Cancelled paid w)

def Settled (c : Creation) (paid : List (List BalanceMove)) (w : World) : Prop :=
  c.Funded paid w ∨ c.Cancelled paid w

/-! ## What leaves the stages alone -/

/-- Nobody else acted on the escrow or on the client's balance. -/
structure Aside (c : Creation) (contract : Address) (w w' : World) : Prop where
  apart : w.Apart contract c.id w'
  balance : w'.db.balances.lookup c.clientId = w.db.balances.lookup c.clientId

section
variable {c : Creation} {contract : Address} {paid : List (List BalanceMove)} {w w' : World}

theorem aside_of_eq (hdb : w'.db = w.db) (hl : w'.ledger = w.ledger) (hc : w'.commits = w.commits) :
    c.Aside contract w w' :=
  ⟨⟨by rw [hdb], by rw [hdb], by rw [hdb]; exact fun _ hu => hu, by rw [hl], by rw [World.payments, hc]; rfl,
    by rw [hl]; exact fun hw => hw⟩, by rw [hdb]⟩

theorem Aside.recordStatus (h : c.Aside contract w w') : w'.recordStatus c.id = w.recordStatus c.id := by
  rw [World.recordStatus, h.apart.record]; rfl

theorem Aside.statusOf (h : c.Aside contract w w') : w'.statusOf c.id = w.statusOf c.id := by
  rw [World.statusOf, h.apart.row]; rfl

theorem Undeposited.aside (hu : c.Undeposited w) (h : c.Aside contract w w') : c.Undeposited w' := by
  unfold Undeposited
  rw [h.recordStatus]; exact hu

theorem Booked.aside {status : EscrowStatus} {amounts : Int × Int} (hb : c.Booked status amounts paid w)
    (h : c.Aside contract w w') : c.Booked status amounts paid w' := by
  refine ⟨hb.covered, by rw [h.apart.users]; exact hb.client, by rw [h.apart.row]; exact hb.row, ?_,
    h.apart.payments.trans hb.payments⟩
  rw [World.amountsOf, h.balance]; exact hb.amounts

theorem Booked.statusOf {status : EscrowStatus} {amounts : Int × Int} (hb : c.Booked status amounts paid w) :
    w.statusOf c.id = some status := by
  obtain ⟨e, he, hst, -⟩ := hb.row
  rw [World.statusOf, he, ← hst]; rfl

theorem Resting.aside (hr : c.Resting paid w) (h : c.Aside contract w w') : c.Resting paid w' := by
  cases hr with
  | fresh hf hp =>
    exact .fresh ⟨h.apart.row.trans hf.row, h.balance.trans hf.balance, hf.record.aside h⟩
      (h.apart.payments.trans hp)
  | pending hp => exact .pending ⟨hp.1.aside h, hp.2.aside h⟩
  | funded hf => exact .funded ⟨hf.1.aside h, h.recordStatus.trans hf.2⟩
  | cancelled hc => exact .cancelled ⟨hc.1.aside h, hc.2.aside h⟩

theorem Settled.aside (hs : c.Settled paid w) (h : c.Aside contract w w') : c.Settled paid w' :=
  hs.imp (fun hf => ⟨hf.1.aside h, h.recordStatus.trans hf.2⟩) fun hc => ⟨hc.1.aside h, hc.2.aside h⟩

theorem request_cases (contract : Address) (paid : List (List BalanceMove)) (key : String) :
    c.Aside contract w (w.request (c.request key)) ∨ w.db.escrows.lookup c.id = none ∧
    (c.Fresh w → w.payments c.id = paid →
      c.Pending paid (w.request (c.request key))) := by
  unfold World.request
  cases hr : (c.request key).serve w.db with
  | error _ => exact .inl (aside_of_eq rfl rfl rfl)
  | ok res =>
    obtain ⟨_, -, hserved⟩ := Request.served hr
    unfold Creation.request at hserved
    cases hserved with
    | replayed _ => exact .inl (aside_of_eq rfl rfl rfl)
    | queued hj _ _ => cases hj
    | @created _ _ _ _ b h =>
      refine .inr ⟨h.id_fresh, fun hf hp => ⟨⟨?_, h.client, ⟨c.escrow, ?_, rfl, rfl, rfl⟩, ?_, hp⟩, hf.record⟩⟩
      · obtain rfl : c.balance = b := Option.some.inj (hf.balance.symm.trans h.balance)
        exact h.covered
      · exact Finmap.lookup_insert _
      · obtain rfl : c.balance = b := Option.some.inj (hf.balance.symm.trans h.balance)
        simp only [World.amountsOf, Finmap.lookup_insert]
        rfl

/-! ## What moves them on -/

theorem Resting.init {signers : List Address} {call : Call} (hr : c.Resting paid w)
    (hw : w.ledger.Reachable contract) (h : w.Called contract signers call w') (hinit : call.isInit = true) :
    c.Resting paid w' := by
  obtain ⟨k, hk⟩ : ∃ k, call.escrowId? = some k := by
    cases call <;> first | exact ⟨_, rfl⟩ | cases hinit
  obtain ⟨r, hcreates, -, hlook⟩ := h.creates hw hk hinit
  have hrec : w'.recordStatus c.id = w.recordStatus c.id ∨
      w.recordStatus c.id = none ∧ w'.recordStatus c.id = some .pending := by
    unfold World.recordStatus
    rw [hlook]
    by_cases hc : c.id.bytes = k
    · rw [if_pos hc, hc, hcreates.fresh]
      exact .inr ⟨rfl, by rw [Option.map_some, hcreates.pending]⟩
    · rw [if_neg hc]; exact .inl rfl
  have hpay : w'.payments c.id = w.payments c.id := by rw [World.payments, h.commits]; rfl
  have hbooked {status : EscrowStatus} {amounts : Int × Int} {paid : List (List BalanceMove)}
      (hb : c.Booked status amounts paid w) : c.Booked status amounts paid w' := by
    refine ⟨hb.covered, by rw [h.db]; exact hb.client, by rw [h.db]; exact hb.row, ?_, hpay.trans hb.payments⟩
    rw [World.amountsOf, h.db]; exact hb.amounts
  have hundep (hu : c.Undeposited w) : c.Undeposited w' := by
    unfold Undeposited
    rcases hrec with he | ⟨-, he⟩ <;> rw [he]
    · exact hu
    · simp
  cases hr with
  | fresh hf hp =>
    exact .fresh ⟨by rw [h.db]; exact hf.row, by rw [h.db]; exact hf.balance, hundep hf.record⟩ (hpay.trans hp)
  | pending hp => exact .pending ⟨hbooked hp.1, hundep hp.2⟩
  | cancelled hc => exact .cancelled ⟨hbooked hc.1, hundep hc.2⟩
  | funded hf =>
    refine .funded ⟨hbooked hf.1, ?_⟩
    rcases hrec with he | ⟨hn, -⟩
    · rw [he]; exact hf.2
    · rw [hf.2] at hn; cases hn

theorem Resting.pending_of (hr : c.Resting paid w) (hst : w.statusOf c.id = some .pending) :
    c.Pending paid w := by
  cases hr with
  | fresh hf _ => rw [World.statusOf, hf.row] at hst; cases hst
  | pending hp => exact hp
  | funded hf => rw [hf.1.statusOf] at hst; cases hst
  | cancelled hc => rw [hc.1.statusOf] at hst; cases hst

theorem Resting.row {e : Escrow} (hr : c.Resting paid w) (he : w.db.escrows.lookup c.id = some e) :
    e.amount = c.escrow.amount ∧ e.fee = c.escrow.fee := by
  have hrow {status : EscrowStatus} {amounts : Int × Int} {paid : List (List BalanceMove)}
      (hb : c.Booked status amounts paid w) : e.amount = c.escrow.amount ∧ e.fee = c.escrow.fee := by
    obtain ⟨e', he', -, ha, hf⟩ := hb.row
    cases he.symm.trans he'
    exact ⟨ha, hf⟩
  cases hr with
  | fresh hf _ => rw [hf.row] at he; cases he
  | pending hp => exact hrow hp.1
  | funded hf => exact hrow hf.1
  | cancelled hc => exact hrow hc.1

theorem Resting.deposit {signers : List Address} (hr : c.Resting paid w) (hw : w.ledger.Reachable contract)
    (hst : w.statusOf c.id = some .pending) (h : w.Called contract signers (.fund c.id.bytes) w') :
    c.Deposited paid w' := by
  obtain ⟨r, hlook, -, ha, hlook'⟩ := h.updates hw rfl rfl
  obtain ⟨hb, -⟩ := hr.pending_of hst
  refine ⟨⟨hb.covered, by rw [h.db]; exact hb.client, by rw [h.db]; exact hb.row, ?_, ?_⟩, ?_⟩
  · rw [World.amountsOf, h.db]; exact hb.amounts
  · rw [World.payments, h.commits]; exact hb.payments
  · rw [World.recordStatus, hlook', if_pos rfl]; rfl

theorem Booked.commits {tx : DbTx} {status status' : EscrowStatus} {available reserved : Int}
    (hb : c.Booked status (available, reserved) paid w) (h : w.Committed tx w') (hid : tx.escrowId = c.id)
    (hst : ∀ e, (tx.onEscrow e).status = status') (hfee : ∀ e, (tx.onEscrow e).fee = e.fee) :
    c.Booked status' (available + availableOf tx.moves c.clientId, reserved + reservedOf tx.moves c.clientId)
      (paid ++ [tx.moves].filter (· ≠ [])) w' := by
  have happ := (DbTx.apply_ok h.db).1
  obtain ⟨e, he, -, ha, hf⟩ := hb.row
  refine ⟨hb.covered, by rw [happ.users]; exact hb.client, ⟨tx.onEscrow e, ?_, hst e, by rw [DbTx.onEscrow_amount, ha],
    by rw [hfee, hf]⟩, ?_, ?_⟩
  · rw [happ.escrows, if_pos hid.symm, he]; rfl
  · obtain ⟨b, hlook, hamounts⟩ := Option.map_eq_some_iff.mp hb.amounts
    cases hamounts
    rw [World.amountsOf, happ.balances, lookup_applyMoves, hlook]
    rfl
  · rw [← hid, h.payments, hid, hb.payments]

theorem Deposited.books {clientId : UserId} {contractId : String} {txHash : TxHash} (hd : c.Deposited paid w)
    (h : w.Committed (.fund c.id clientId contractId txHash) w') : c.Funded paid w' := by
  have hb : c.Booked .funded _ _ w' := hd.1.commits h rfl (fun _ => rfl) fun _ => rfl
  refine ⟨?_, by rw [World.recordStatus, h.ledger]; exact hd.2⟩
  simpa [DbTx.moves, availableOf, reservedOf, lockedAmounts] using hb

theorem aside_of_failLocks (h : w.Committed (.failLocks c.id) w') : c.Aside contract w w' := by
  have happ := (DbTx.apply_ok h.db).1
  refine ⟨⟨DbTx.lookup_failLocks happ c.id, happ.users, ?_, by rw [h.ledger], ?_, ?_⟩, by
    rw [happ.balances]; rfl⟩
  · rw [happ.balances]; exact fun _ hu => hu
  · have := h.payments
    simpa [DbTx.moves, DbTx.escrowId] using this
  · rw [h.ledger]; exact fun hw => hw

theorem Resting.compensate {e : Escrow} (hr : c.Resting paid w) (hst : w.statusOf c.id = some .pending)
    (hgives : c.GivesBack) (ha : e.amount = c.escrow.amount) (hf : e.fee = c.escrow.fee)
    (h : w.Committed (.compensate c.id c.clientId e.amount e.fee) w') : c.Cancelled paid w' := by
  obtain ⟨hb, hu⟩ := hr.pending_of hst
  have hx := hb.covered.exact_iff.mpr hgives
  rw [ha, hf] at h
  have hb : c.Booked .cancelled _ _ w' := hb.commits h rfl (fun _ => rfl) fun _ => rfl
  refine ⟨?_, ?_⟩
  · have hav :
      c.locked.availableAmount + availableOf [⟨c.clientId, c.escrow.amount + c.escrow.fee, -c.escrow.amount⟩]
        c.clientId = c.balance.availableAmount := by simpa [availableOf] using hx.1
    have hres :
      c.locked.reservedAmount + reservedOf [⟨c.clientId, c.escrow.amount + c.escrow.fee, -c.escrow.amount⟩]
        c.clientId = c.balance.reservedAmount := by
      simpa [reservedOf, sub_eq_add_neg] using hx.2
    rw [← hav, ← hres]
    exact hb
  · unfold Undeposited at hu ⊢
    rw [World.recordStatus, h.ledger]; exact hu

end

/-! ## Runs in time -/

/-- An attempt is `early` if the escrow was missing or PENDING when it started. The deposit, where the contract
would take it, and the compensation take effect in early attempts only; the deposit is reported as made. -/
def InTime (c : Creation) (s : Stellar) (early : Prop) (w : World) : Option Op → Fault WorkerError → Prop
  | some (.submit method args signers), fault => method = "fund" → fault.Effective →
    (w.submit s method args signers).2.isOk → early ∧ fault = .none
  | some (.transact tx), fault => tx.compensates → fault.Effective → early ∧ c.GivesBack
  | _, _ => True

/-- After the deposit of an early attempt nothing fails; once the escrow is FUNDED the process may die. -/
def Unbroken (c : Creation) (early : Prop) (w : World) (fault : Fault WorkerError) : Prop :=
  early → w.recordStatus c.id = some .funded →
    fault = .none ∨ fault = .crash ∧ w.statusOf c.id = some .funded

/-- The compensation is carried out, in an attempt that started after `n` commits. -/
def Closing (c : Creation) (n : Nat) (w : World) : Option Op → Fault WorkerError → Prop
  | some (.transact tx), fault => fault.Effective ∧ (tx = .failLocks c.id → fault = .none)
  | some (.findEscrow _), fault =>
    fault ≠ .crash ∧ (n < w.commits.length → fault = .none ∧ w.statusOf c.id ≠ none)
  | _, fault => fault ≠ .crash

instance (c : Creation) (s : Stellar) (early : Prop) [Decidable early] (w : World) :
    (o : Option Op) → (fault : Fault WorkerError) → Decidable (c.InTime s early w o fault)
  | some (.submit ..), _ => inferInstanceAs (Decidable (_ → _ → _ → _ ∧ _))
  | some (.transact _), _ => inferInstanceAs (Decidable (_ → _ → _ ∧ _))
  | some (.findEscrow _), _ | some (.findUser _), _ | some (.findEndpoints ..), _
  | some (.findSubscribers _), _ | some (.createDelivery _), _
  | some (.enqueueWebhook _), _ | some (.simulateGetEscrow _), _ | none, _ => isTrue trivial

instance (c : Creation) (early : Prop) [Decidable early] (w : World) (fault : Fault WorkerError) :
    Decidable (c.Unbroken early w fault) := inferInstanceAs (Decidable (_ → _ → _ ∨ _))

instance (c : Creation) (n : Nat) (w : World) : (o : Option Op) → (fault : Fault WorkerError) →
    Decidable (c.Closing n w o fault)
  | some (.transact _), _ => inferInstanceAs (Decidable (_ ∧ (_ → _)))
  | some (.findEscrow _), _ => inferInstanceAs (Decidable (_ ∧ (_ → _ ∧ _)))
  | some (.submit ..), _ | some (.findUser _), _ | some (.findEndpoints ..), _
  | some (.findSubscribers _), _ | some (.createDelivery _), _
  | some (.enqueueWebhook _), _ | some (.simulateGetEscrow _), _ | none, _ =>
    inferInstanceAs (Decidable (_ ≠ _))

def Others (c : Creation) (s : Stellar) (w : World) (a : EnvAction) : Prop :=
  (∃ key, a = .request (c.request key)) ∨ c.Aside s.contract w (w.env s a)

/-- `last` is set in the last attempt, to the number of commits before it. -/
def regime (c : Creation) (s : Stellar) (early : Prop) (last : Option Nat) :
    Prog.Regime Op World EnvAction WorkerError where
  env := c.Others s
  op := fun w o fault => c.InTime s early w o fault ∧ c.Unbroken early w fault ∧
    ∀ n ∈ last, w.statusOf c.id ∈ [none, some .pending] → c.Closing n w o fault

instance (c : Creation) (s : Stellar) (early : Prop) [Decidable early] (last : Option Nat) (w : World)
    (o : Option Op) (fault : Fault WorkerError) : Decidable ((c.regime s early last).op w o fault) :=
  inferInstanceAs (Decidable (_ ∧ _ ∧ ∀ n ∈ last, _ → _))

/-- In stage `S`, after at least `n` commits. -/
structure At (contract : Address) (n : Nat) (S : World → Prop) (w : World) : Prop where
  reachable : w.ledger.Reachable contract
  commits : n ≤ w.commits.length
  stage : S w

section
variable {c : Creation} {s : Stellar} {early : Prop} {paid : List (List BalanceMove)} {n : Nat}
  {last : Option Nat} {w w' : World} {S : World → Prop}

theorem At.same (h : At s.contract n S w) (hs : w.Same w') (hS : S w') : At s.contract n S w' :=
  ⟨by rw [hs.ledger]; exact h.reachable, by rw [hs.commits]; exact h.commits, hS⟩

theorem env_commits (s : Stellar) (w : World) (a : EnvAction) : (w.env s a).commits = w.commits := by
  cases a with
  | ledger a => rfl
  | request r => exact w.request_commits r

theorem Others.reachable {a : EnvAction} (h : c.Others s w a) (hw : w.ledger.Reachable s.contract) :
    (w.env s a).ledger.Reachable s.contract := by
  rcases h with ⟨key, rfl⟩ | h
  · show (w.request _).ledger.Reachable _
    rw [World.request_ledger]; exact hw
  · exact h.apart.reachable hw

theorem Others.aside {a : EnvAction} (h : c.Others s w a) (hrow : w.statusOf c.id ≠ none) :
    c.Aside s.contract w (w.env s a) := by
  rcases h with ⟨key, rfl⟩ | h
  · rcases c.request_cases s.contract [] key with h | ⟨hn, -⟩
    · exact h
    · exact absurd (by rw [World.statusOf, hn]; rfl) hrow
  · exact h

theorem At.env {a : EnvAction} (h : At s.contract n S w) (ha : c.Others s w a) (hS : S w → S (w.env s a)) :
    At s.contract n S (w.env s a) :=
  ⟨ha.reachable h.reachable, by rw [env_commits]; exact h.commits, hS h.stage⟩

theorem Resting.env {a : EnvAction} (hr : c.Resting paid w) (ha : c.Others s w a) :
    c.Resting paid (w.env s a) := by
  by_cases hrow : w.statusOf c.id = none
  · rcases ha with ⟨key, rfl⟩ | ha
    · rcases c.request_cases s.contract paid key with h | ⟨-, h⟩
      · exact hr.aside h
      · cases hr with
        | fresh hf hp => exact .pending (h hf hp)
        | pending hp => rw [hp.1.statusOf] at hrow; cases hrow
        | funded hf => rw [hf.1.statusOf] at hrow; cases hrow
        | cancelled hc => rw [hc.1.statusOf] at hrow; cases hrow
    · exact hr.aside ha
  · exact hr.aside (ha.aside hrow)

theorem Booked.env {status : EscrowStatus} {amounts : Int × Int} {st : Option EscrowStatus} {a : EnvAction}
    (hb : c.Booked status amounts paid w ∧ w.recordStatus c.id = st) (ha : c.Others s w a) :
    c.Booked status amounts paid (w.env s a) ∧ (w.env s a).recordStatus c.id = st := by
  have h := ha.aside (by rw [hb.1.statusOf]; exact nofun)
  exact ⟨hb.1.aside h, h.recordStatus.trans hb.2⟩

theorem Resting.settled (hr : c.Resting paid w) (hst : w.statusOf c.id ∉ [none, some .pending]) :
    c.Settled paid w := by
  cases hr with
  | fresh hf _ => exact absurd (by simp [World.statusOf, hf.row]) hst
  | pending hp => exact absurd (by simp [hp.1.statusOf]) hst
  | funded hf => exact .inl hf
  | cancelled hc => exact .inr hc

/-- In the last attempt all goes well with the compensation, unless there is nothing to compensate. -/
theorem Resting.closes {o : Option Op} {fault : Fault WorkerError} (hr : c.Resting paid w)
    (ho : (c.regime s early last).op w o fault) : (∀ n ∈ last, c.Closing n w o fault) ∨ c.Settled paid w := by
  by_cases hst : w.statusOf c.id ∈ [none, some .pending]
  · exact .inl fun n hn => ho.2.2 n hn hst
  · exact .inr (hr.settled hst)

theorem Resting.done {o : Option Op} {fault : Fault WorkerError} (hr : c.Resting paid w)
    (ho : (c.regime s early last).op w o fault) (hn : ∀ n ∈ last, ¬ c.Closing n w o fault) :
    last.isSome → c.Settled paid w := by
  intro hl
  obtain ⟨n, hl⟩ := Option.isSome_iff_exists.mp hl
  exact (hr.closes ho).resolve_left fun hc => hn n hl (hc n hl)

theorem not_closing_crash {o : Option Op} : ¬ c.Closing n w o .crash := by
  unfold Closing
  split <;> simp [Fault.Effective]

theorem Resting.crashed {o : Option Op} (hr : c.Resting paid w) (ho : (c.regime s early last).op w o .crash) :
    last.isSome → c.Settled paid w := hr.done ho fun _ _ => not_closing_crash

end

/-! ## Up to the deposit -/

/-- At rest in a status that `P` allows; a creation may commit meanwhile. -/
structure Stays (c : Creation) (P : Option EscrowStatus → Prop) (paid : List (List BalanceMove)) (w : World) :
    Prop where
  resting : c.Resting paid w
  status : P (w.statusOf c.id)

def Open (early : Prop) (st : Option EscrowStatus) : Prop := early → st = none ∨ st = some .pending

def Found (early : Prop) (st : Option EscrowStatus) : Prop := st ≠ none ∧ Open early st

def Harmless (o : Op) : Prop :=
  o.Quiet ∨ ∃ method args signers call, o = .submit method args signers ∧ dispatch method args = some call ∧
    call.isInit = true

section
variable {c : Creation} {s : Stellar} {early : Prop} {paid : List (List BalanceMove)} {n : Nat}
  {last : Option Nat} {w w' : World} {P : Option EscrowStatus → Prop}

theorem Others.statusOf {a : EnvAction} (hr : c.Resting paid w) (ha : c.Others s w a) :
    (w.env s a).statusOf c.id = w.statusOf c.id ∨
      w.statusOf c.id = none ∧ (w.env s a).statusOf c.id = some .pending := by
  rcases ha with ⟨key, rfl⟩ | ha
  · rcases c.request_cases s.contract paid key with h | ⟨hn, h⟩
    · exact .inl h.statusOf
    · have hnone : w.statusOf c.id = none := by rw [World.statusOf, hn]; rfl
      cases hr with
      | fresh hf hp => exact .inr ⟨hnone, (h hf hp).1.statusOf⟩
      | pending hp => rw [hp.1.statusOf] at hnone; cases hnone
      | funded hf => rw [hf.1.statusOf] at hnone; cases hnone
      | cancelled hc => rw [hc.1.statusOf] at hnone; cases hnone
  · exact .inl ha.statusOf

theorem At.stays (hP : P none → P (some .pending)) {a : EnvAction} (ha : c.Others s w a)
    (h : At s.contract n (c.Stays P paid) w) : At s.contract n (c.Stays P paid) (w.env s a) := by
  refine h.env ha fun hs => ⟨hs.resting.env ha, ?_⟩
  rcases Others.statusOf hs.resting ha with hst | ⟨hn, hst⟩ <;> rw [hst]
  · exact hs.status
  · exact hP (hn ▸ hs.status)

theorem open_grows : Open early none → Open early (some .pending) := fun _ _ => .inr rfl

theorem found_grows : Found early none → Found early (some .pending) := fun h => absurd rfl h.1

theorem Resting.harmless {o : Op} (ho : Harmless o) (h : At s.contract n (c.Stays P paid) w) :
    At s.contract n (c.Stays P paid) (w.perform s o).1 := by
  rcases ho with hq | ⟨method, args, signers, call, rfl, hd, hinit⟩
  · have hs := World.perform_quiet (s := s) (w := w) hq
    have ha : c.Aside s.contract w (w.perform s o).1 := aside_of_eq hs.db hs.ledger hs.commits
    exact h.same hs ⟨h.stage.resting.aside ha, ha.statusOf ▸ h.stage.status⟩
  · show At _ _ _ (w.submit s method args signers).1
    rcases World.submit_effect s w method args signers with hs | ⟨call', hd', hc⟩
    · rw [hs]; exact h
    · cases hd.symm.trans hd'
      have hst : (w.submit s method args signers).1.statusOf c.id = w.statusOf c.id := by
        rw [World.statusOf, hc.db]; rfl
      exact ⟨hc.reachable h.reachable, by rw [hc.commits]; exact h.commits,
        h.stage.resting.init h.reachable hc hinit, hst ▸ h.stage.status⟩

/-- What a part of the `try` block may end in, where `R` holds when it is done. -/
def Tried (c : Creation) (contract : Address) (early : Prop) (n : Nat) (last : Option Nat)
    (paid : List (List BalanceMove)) (R : World → Prop) {α : Type} (w : World) : Outcome WorkerError α → Prop
  | .returned _ => R w
  | .threw _ => At contract n (c.Stays (Open early) paid) w
  | .crashed => At contract n (c.Resting paid) w ∧ (last.isSome → c.Settled paid w)

abbrev Tries (c : Creation) (s : Stellar) (early : Prop) (n : Nat) (last : Option Nat)
    (paid : List (List BalanceMove)) (R : World → Prop) {α : Type} (p : Handler α) (w : World) : Prop :=
  Prog.Always (platform s) (c.regime s early last) (c.Tried s.contract early n last paid R) p w

theorem At.rests (h : At s.contract n (c.Stays P paid) w) : At s.contract n (c.Resting paid) w :=
  ⟨h.reachable, h.commits, h.stage.resting⟩

theorem At.opens (h : At s.contract n (c.Stays (Found early) paid) w) : At s.contract n (c.Stays (Open early) paid) w :=
  ⟨h.reachable, h.commits, h.stage.resting, h.stage.status.2⟩

variable {R : World → Prop} {α β : Type}

theorem tries_throw (e : WorkerError) (h : At s.contract n (c.Stays (Open early) paid) w) :
    c.Tries s early n last paid R (throw e : Handler α) w :=
  Prog.always_throw h fun hc => ⟨h.rests, h.stage.resting.crashed hc⟩

theorem tries_seq {R' : World → Prop} {p : Handler α} {f : α → Handler β}
    (hp : c.Tries s early n last paid R' p w) (hf : ∀ a w', R' w' → c.Tries s early n last paid R (f a) w') :
    c.Tries s early n last paid R (p >>= f) w := by
  refine Prog.always_bind (Prog.always_mono hp fun w' out h => ?_)
  cases out with
  | returned a => exact hf a w' h
  | threw e => exact tries_throw e h
  | crashed => exact h

theorem tries_harmless {p : Handler α} (hp : p.Performs Harmless) (hP : P none → P (some .pending))
    (hopen : ∀ st, P st → Open early st) (h : At s.contract n (c.Stays P paid) w) :
    c.Tries s early n last paid (At s.contract n (c.Stays P paid)) p w := by
  refine Prog.always_mono (Prog.always_of_performs (P := At s.contract n (c.Stays P paid))
    (fun w i hi hw => hw.stays hP hi) h (fun w o ho hw => Resting.harmless ho hw) hp) ?_
  rintro w' out ⟨hw', hcrash⟩
  cases out with
  | returned a => exact hw'
  | threw e => exact ⟨hw'.reachable, hw'.commits, hw'.stage.resting, hopen _ hw'.stage.status⟩
  | crashed =>
    obtain ⟨o, ho⟩ := hcrash rfl
    exact ⟨hw'.rests, hw'.stage.resting.crashed ho⟩

/-- When the row and the keys have been read, the escrow is there. -/
theorem readFundingInput_tries (h : At s.contract n (c.Stays (Open early) paid) w) :
    c.Tries s early n last paid (At s.contract n (c.Stays (Found early) paid))
      (Worker.readFundingInput s c.id c.clientId) w := by
  have hquiet {α : Type} {p : Handler α} (hp : p.Performs Op.ReadsRow) : p.Performs Harmless :=
    hp.mono fun _ ho => .inl ho.quiet
  refine Prog.stable_call_bind (P := At s.contract n (c.Stays (Open early) paid))
    (fun w i hi hw => hw.stays open_grows hi) h fun w hw fault ho => ?_
  have hread : (platform s).perform w (.findEscrow c.id) = (w, .ok (w.db.escrows.lookup c.id)) := rfl
  cases fault with
  | lost e | late e => exact tries_throw e hw
  | crash => exact ⟨hw.rests, hw.stage.resting.crashed ho⟩
  | none =>
    simp only [Prog.Resumes, hread]
    have hperforms := (readFundingInput_performs s c.id c.clientId).2 (.ok (w.db.escrows.lookup c.id))
    cases he : w.db.escrows.lookup c.id with
    | some e =>
      have hfound : At s.contract n (c.Stays (Found early) paid) w :=
        ⟨hw.reachable, hw.commits, hw.stage.resting, by rw [World.statusOf, he]; exact Option.some_ne_none _,
          hw.stage.status⟩
      rw [he] at hperforms
      exact tries_harmless (hquiet hperforms) found_grows (fun _ hst => hst.2) hfound
    | none =>
      -- whatever the other reads find, there is no escrow to go on with
      refine tries_seq (tries_harmless (hquiet (Prog.performs_call trivial)) open_grows (fun _ hst => hst) hw)
        fun client w₁ h₁ => ?_
      refine tries_seq (tries_harmless (hquiet (freelancerOf_performs c.id)) open_grows (fun _ hst => hst) h₁)
        fun _ w₂ h₂ => ?_
      exact tries_throw _ h₂

theorem tries_deliver {o : Op} {f : o.Res → Handler β} (hq : o.Quiet)
    (hok : ∀ (w : World) e, (w.perform s o).2 ≠ .error e) (hearly : early) (h : At s.contract n (c.Funded paid) w)
    (hf : ∀ r w', At s.contract n (c.Funded paid) w' → c.Tries s early n last paid R (f r) w') :
    c.Tries s early n last paid R (perform o >>= f) w := by
  refine Prog.stable_call_bind (P := At s.contract n (c.Funded paid))
    (fun w i hi hw => hw.env hi fun hb => Booked.env hb hi) h fun w hw fault ho => ?_
  rcases ho.2.1 hearly hw.stage.2 with rfl | ⟨rfl, -⟩
  · have hs := World.perform_quiet (s := s) (w := w) hq
    have ha : c.Aside s.contract w _ := aside_of_eq hs.db hs.ledger hs.commits
    have hnext : At s.contract n (c.Funded paid) ((platform s).perform w o).1 :=
      hw.same hs ⟨hw.stage.1.aside ha, ha.recordStatus.trans hw.stage.2⟩
    have hok : ∀ e, ((platform s).perform w o).2 ≠ .error e := hok w
    simp only [Prog.Resumes]
    cases hr : ((platform s).perform w o).2 with
    | ok r => exact hf r _ hnext
    | error e => exact absurd hr (hok e)
  · exact ⟨⟨hw.reachable, hw.commits, .funded hw.stage⟩, fun _ => .inl hw.stage⟩

theorem fireWebhook_tries (event : WebhookEvent) (userId : UserId) (payload : WebhookPayload) (hearly : early)
    (h : At s.contract n (c.Funded paid) w) :
    c.Tries s early n last paid (At s.contract n (c.Funded paid)) (Worker.fireWebhook event userId payload) w := by
  refine tries_deliver trivial (fun _ _ => nofun) hearly h fun endpoints w₁ h₁ => ?_
  induction endpoints generalizing w₁ with
  | nil =>
    exact Prog.always_pure h₁ fun _ => ⟨⟨h₁.reachable, h₁.commits, .funded h₁.stage⟩, fun _ => .inl h₁.stage⟩
  | cons e es ih =>
    refine tries_deliver trivial (fun _ _ => nofun) hearly h₁ fun _ w₂ h₂ => ?_
    exact tries_deliver trivial (fun _ _ => nofun) hearly h₂ fun _ w₃ h₃ => ih w₃ h₃

theorem tries_book {clientId : UserId} {contractId : String} {txHash : TxHash} {f : Unit → Handler β}
    (hu : clientId = c.clientId) (hearly : early) (h : At s.contract n (c.Deposited paid) w)
    (hf : ∀ w', At s.contract n (c.Funded paid) w' → c.Tries s early n last paid R (f ()) w') :
    c.Tries s early n last paid R (perform (.transact (.fund c.id clientId contractId txHash)) >>= f) w := by
  refine Prog.stable_call_bind (P := At s.contract n (c.Deposited paid))
    (fun w i hi hw => hw.env hi fun hb => Booked.env hb hi) h fun w hw fault ho => ?_
  obtain ⟨db, hdb⟩ : ∃ db, (DbTx.fund c.id clientId contractId txHash).apply w.db = .ok db := by
    obtain ⟨e, he, -⟩ := hw.stage.1.row
    refine DbTx.Ready.apply ⟨by rw [DbTx.escrowId, he]; rfl, nofun, nofun, ?_⟩
    simpa [DbTx.refersTo, hu] using hw.stage.1.client
  have hperform : (platform s).perform w (.transact (.fund c.id clientId contractId txHash)) =
      ({ w with db, commits := w.commits ++ [.fund c.id clientId contractId txHash] }, .ok ()) := by
    show w.transact _ = _
    unfold World.transact
    rw [hdb]
  rcases ho.2.1 hearly hw.stage.2 with rfl | ⟨-, hst⟩
  · simp only [Prog.Resumes, hperform]
    exact hf _ ⟨hw.reachable, by simpa using Nat.le_succ_of_le hw.commits, hw.stage.books ⟨hdb, rfl, rfl, rfl⟩⟩
  · rw [hw.stage.1.statusOf] at hst; cases hst

theorem tries_deposit {clientKey : Address} {f : TxHash → Handler β}
    (h : At s.contract n (c.Stays (Found early) paid) w)
    (hf : early → ∀ txHash w', At s.contract n (c.Deposited paid) w' →
      c.Tries s early n last paid R (f txHash) w') :
    c.Tries s early n last paid R (s.fundEscrow c.id.text clientKey >>= f) w := by
  refine Prog.stable_call_bind (P := At s.contract n (c.Stays (Found early) paid))
    (fun w i hi hw => hw.stays found_grows hi) h fun w hw fault ho => ?_
  have hin : fault.Effective →
    (w.submit s "fund" [.bytes (escrowIdToBytes c.id.text)] [s.adminKey, clientKey]).2.isOk →
      early ∧ fault = .none := ho.1 rfl
  have hperform :
    (platform s).perform w (.submit "fund" [.bytes (escrowIdToBytes c.id.text)] [s.adminKey, clientKey]) =
      w.submit s "fund" [.bytes (escrowIdToBytes c.id.text)] [s.adminKey, clientKey] := rfl
  generalize hw' : w.submit s "fund" [.bytes (escrowIdToBytes c.id.text)] [s.adminKey, clientKey] =
    res at hin hperform
  obtain ⟨w', r⟩ := res
  cases r with
  | error e =>
    obtain rfl : w' = w := by
      have := (World.submit_error (congrArg Prod.snd hw')).1
      rwa [hw'] at this
    cases fault with
    | none | late _ =>
      simp only [Prog.Resumes, hperform]
      exact tries_throw _ hw.opens
    | lost _ => exact tries_throw _ hw.opens
    | crash => exact ⟨hw.rests, hw.stage.resting.crashed ho⟩
  | ok txHash =>
    have hc := (World.submit_ok dispatch_fund (congrArg Prod.snd hw')).1
    rw [hw'] at hc
    cases fault with
    | none =>
      have hearly := (hin trivial rfl).1
      have hst := (hw.stage.status.2 hearly).resolve_left hw.stage.status.1
      simp only [Prog.Resumes, hperform]
      exact hf hearly _ _ ⟨hc.reachable hw.reachable, by rw [hc.commits]; exact hw.commits,
        hw.stage.resting.deposit hw.reachable hst hc⟩
    | late _ => cases (hin trivial rfl).2
    | lost _ => exact tries_throw _ hw.opens
    | crash => exact ⟨hw.rests, hw.stage.resting.crashed ho⟩

theorem tryFundEscrow_tries (amount : Int) (h : At s.contract n (c.Stays (Open early) paid) w) :
    c.Tries s early n last paid (At s.contract n (c.Funded paid)) (Worker.tryFundEscrow s c.id c.clientId amount)
      w := by
  refine tries_seq (readFundingInput_tries h) fun input w₁ h₁ => ?_
  refine tries_seq (tries_harmless ((initIfNeeded_performs ..).mono fun _ ho => .inr ho) found_grows
    (fun _ hst => hst.2) h₁) fun _ w₂ h₂ => ?_
  refine tries_deposit h₂ fun hearly txHash w₃ h₃ => ?_
  exact tries_book rfl hearly h₃ fun w₄ h₄ => fireWebhook_tries _ _ _ hearly h₄

end

/-! ## The handler -/

section
variable {c : Creation} {s : Stellar} {early : Prop} {paid : List (List BalanceMove)} {n : Nat}
  {last : Option Nat} {w : World}

abbrev Handles (c : Creation) (s : Stellar) (early : Prop) (n : Nat) (last : Option Nat)
    (paid : List (List BalanceMove)) {α : Type} (p : Handler α) (w : World) : Prop :=
  Prog.Always (platform s) (c.regime s early last)
    (fun w _ => At s.contract n (c.Resting paid) w ∧ (last.isSome → c.Settled paid w)) p w

theorem handles_throw {α : Type} (e : WorkerError) (h : At s.contract n (c.Resting paid) w)
    (hs : last.isSome → c.Settled paid w) : c.Handles s early n last paid (throw e : Handler α) w :=
  Prog.always_throw ⟨h, hs⟩ fun _ => ⟨h, hs⟩

theorem handles_compensate {e : Escrow} (h : At s.contract n (c.Stays (Found early) paid) w)
    (ha : e.amount = c.escrow.amount) (hf : e.fee = c.escrow.fee) :
    c.Handles s early n last paid (perform (.transact (.compensate c.id c.clientId e.amount e.fee))) w := by
  rw [perform_last]
  refine Prog.stable_call_bind (P := At s.contract n (c.Stays (Found early) paid))
    (fun w i hi hw => hw.stays found_grows hi) h fun w hw fault ho => ?_
  have hin : fault.Effective → early ∧ c.GivesBack := ho.1 rfl
  have hlost (hn : ¬ fault.Effective) : last.isSome → c.Settled paid w :=
    hw.stage.resting.done ho fun _ _ hcl => hn hcl.1
  have hdone (he : fault.Effective) :
      ((platform s).perform w (.transact (.compensate c.id c.clientId e.amount e.fee))).2 = .ok () ∧
      At s.contract n (c.Cancelled paid)
        ((platform s).perform w (.transact (.compensate c.id c.clientId e.amount e.fee))).1 := by
    obtain ⟨hearly, hgives⟩ := hin he
    have hst := (hw.stage.status.2 hearly).resolve_left hw.stage.status.1
    have hb := hw.stage.resting.pending_of hst
    obtain ⟨e', he', -⟩ := hb.1.row
    obtain ⟨b, hbal, -⟩ := Option.map_eq_some_iff.mp hb.1.amounts
    have hready : (DbTx.compensate c.id c.clientId e.amount e.fee).Ready w.db :=
      ⟨by rw [DbTx.escrowId, he']; rfl, by simp [DbTx.moves, hbal], nofun, nofun⟩
    obtain ⟨db, hdb⟩ := hready.apply
    have hperform : (platform s).perform w (.transact (.compensate c.id c.clientId e.amount e.fee)) =
        ({ w with db, commits := w.commits ++ [.compensate c.id c.clientId e.amount e.fee] }, .ok ()) := by
      show w.transact _ = _
      unfold World.transact
      rw [hdb]
    rw [hperform]
    exact ⟨rfl, hw.reachable, by simpa using Nat.le_succ_of_le hw.commits,
      hw.stage.resting.compensate hst hgives ha hf ⟨hdb, rfl, rfl, rfl⟩⟩
  have hend {w : World} (hc : At s.contract n (c.Cancelled paid) w) :
      At s.contract n (c.Resting paid) w ∧ (last.isSome → c.Settled paid w) :=
    ⟨⟨hc.reachable, hc.commits, .cancelled hc.stage⟩, fun _ => .inr hc.stage⟩
  cases fault with
  | none =>
    obtain ⟨hok, hc⟩ := hdone trivial
    simp only [Prog.Resumes, hok]
    refine Prog.always_pure ?_ fun _ => ?_ <;> exact hend hc
  | late err =>
    obtain ⟨-, hc⟩ := hdone trivial
    simp only [Prog.Resumes]
    refine Prog.always_throw ?_ fun _ => ?_ <;> exact hend hc
  | lost err => exact handles_throw err hw.rests (hlost not_false)
  | crash => exact ⟨hw.rests, hlost not_false⟩

theorem handleFundFailure_handles (hl : ∀ m ∈ last, m ≤ n) (h : At s.contract n (c.Stays (Open early) paid) w) :
    c.Handles s early n last paid (Worker.handleFundFailure c.id c.clientId) w := by
  refine Prog.stable_call_bind (P := At s.contract n (c.Stays (Open early) paid))
    (fun w i hi hw => hw.stays open_grows hi) h fun w hw fault ho => ?_
  have hperform : (platform s).perform w (.transact (.failLocks c.id)) =
      ({ w with db := w.db.updateLocks c.id fun t => { t with status := .failed },
                commits := w.commits ++ [.failLocks c.id] }, .ok ()) := rfl
  generalize hw' : ({ w with db := w.db.updateLocks c.id fun t => { t with status := .failed },
                             commits := w.commits ++ [.failLocks c.id] } : World) = w' at hperform
  have hc : w.Committed (.failLocks c.id) w' := by subst hw'; exact ⟨rfl, rfl, rfl, rfl⟩
  have haside : c.Aside s.contract w w' := aside_of_failLocks hc
  have hmarked : At s.contract (n + 1) (c.Stays (Open early) paid) w' :=
    ⟨haside.apart.reachable hw.reachable, by rw [hc.commits]; simpa using hw.commits,
      hw.stage.resting.aside haside, haside.statusOf ▸ hw.stage.status⟩
  have hfail (hn : fault ≠ .none) : last.isSome → c.Settled paid w :=
    hw.stage.resting.done ho fun _ _ hcl => hn (hcl.2 rfl)
  cases fault with
  | lost e => exact handles_throw e hw.rests (hfail fun h => by cases h)
  | crash => exact ⟨hw.rests, hfail fun h => by cases h⟩
  | late e =>
    simp only [Prog.Resumes, hperform]
    exact handles_throw e ⟨hmarked.reachable, Nat.le_of_succ_le hmarked.commits, hmarked.stage.resting⟩
      fun hs => (hfail (fun h => by cases h) hs).aside haside
  | none =>
    simp only [Prog.Resumes, hperform]
    refine Prog.stable_call_bind (P := At s.contract (n + 1) (c.Stays (Open early) paid))
      (fun w i hi hw => hw.stays open_grows hi) hmarked fun w hw fault ho => ?_
    have hw₀ : At s.contract n (c.Resting paid) w :=
      ⟨hw.reachable, Nat.le_of_succ_le hw.commits, hw.stage.resting⟩
    have hfail (hn : fault = .none → w.statusOf c.id = none) : last.isSome → c.Settled paid w :=
      hw.stage.resting.done ho fun m hm hcl => by
        obtain ⟨-, hcl⟩ := hcl
        obtain ⟨hf, hs⟩ := hcl (Nat.lt_of_le_of_lt (hl m hm) hw.commits)
        exact hs (hn hf)
    cases fault with
    | lost e | late e => exact handles_throw e hw₀ (hfail fun h => by cases h)
    | crash => exact ⟨hw₀, hfail fun h => by cases h⟩
    | none =>
      have hread : (platform s).perform w (.findEscrow c.id) = (w, .ok (w.db.escrows.lookup c.id)) := rfl
      simp only [Prog.Resumes, hread]
      cases he : w.db.escrows.lookup c.id with
      | none =>
        have hdone := hfail fun _ => by rw [World.statusOf, he]; rfl
        exact Prog.always_pure ⟨hw₀, hdone⟩ fun _ => ⟨hw₀, hdone⟩
      | some e =>
        obtain ⟨ha, hf⟩ := hw.stage.resting.row he
        have hrow : w.statusOf c.id ≠ none := by
          rw [World.statusOf, he]
          exact Option.some_ne_none _
        exact handles_compensate ⟨hw₀.reachable, hw₀.commits, hw₀.stage, hrow, hw.stage.status⟩ ha hf

theorem attempt_ends (hl : ∀ m ∈ last, m ≤ n) (h : At s.contract n (c.Stays (Open early) paid) w) :
    Prog.Always (platform s) (c.regime s early last) (fun w out => At s.contract n (c.Resting paid) w ∧
      ((last.isSome ∨ out = .returned ()) → c.Settled paid w)) (Worker.process s c.job) w := by
  refine Prog.always_tryCatch (Prog.always_mono (tryFundEscrow_tries _ h) fun w₁ out h₁ => ?_)
  cases out with
  | returned _ =>
    have hr : At s.contract n (c.Resting paid) w₁ := ⟨h₁.reachable, h₁.commits, .funded h₁.stage⟩
    simp only [Prog.Continues]
    exact Prog.always_pure ⟨hr, fun _ => .inl h₁.stage⟩ fun _ => ⟨hr, fun _ => .inl h₁.stage⟩
  | crashed => exact ⟨h₁.1, fun hs => h₁.2 (hs.resolve_right nofun)⟩
  | threw e =>
    simp only [Prog.Continues]
    refine Prog.always_bind (Prog.always_mono (handleFundFailure_handles hl h₁) fun w₂ out h₂ => ?_)
    have hend : ∀ out : Outcome WorkerError Unit, out.Failed → At s.contract n (c.Resting paid) w₂ ∧
        ((last.isSome ∨ out = .returned ()) → c.Settled paid w₂) := fun out ho =>
      ⟨h₂.1, fun hs => h₂.2 (hs.resolve_right fun hr => ho _ hr)⟩
    cases out with
    | returned _ | threw _ =>
      simp only [Prog.Continues]
      exact Prog.always_throw (hend _ failed_threw) fun _ => hend _ failed_crashed
    | crashed => exact hend _ failed_crashed

end

end Creation

/-! ## All attempts -/

/-- The attempts at a job, one after another until one of them returns. -/
def World.tries (s : Stellar) (j : Job) (w : World) : List (List (Tick EnvAction WorkerError)) → World
  | [] => w
  | ts :: tss =>
    match (Worker.process s j).exec (platform s) ts w with
    | (w', .returned _) => w'
    | (w', _) => w'.tries s j tss

/-- The escrow is neither FUNDED nor CANCELLED yet. -/
def Creation.Early (c : Creation) (w : World) : Prop :=
  w.statusOf c.id = none ∨ w.statusOf c.id = some .pending

instance (c : Creation) (w : World) : Decidable (c.Early w) := inferInstanceAs (Decidable (_ ∨ _))

/-- Each attempt that is made keeps to its regime. -/
def Creation.Runs (c : Creation) (s : Stellar) (w : World) : List (List (Tick EnvAction WorkerError)) → Prop
  | [] => True
  | ts :: tss =>
    (Worker.process s c.job).Obeys (platform s)
        (c.regime s (c.Early w) (if tss.isEmpty then some w.commits.length else none)) ts w ∧
      match (Worker.process s c.job).exec (platform s) ts w with
      | (_, .returned _) => True
      | (w', _) => c.Runs s w' tss

/-- FUNDED with the balance as the creation left it, or CANCELLED with nothing
held on-chain and the balance as before, compensated once. -/
def Creation.Concluded (c : Creation) (w w' : World) : Prop :=
  (w'.statusOf c.id = some .funded ∧ w'.amountsOf c.clientId = some c.lockedAmounts ∧
    w'.payments c.id = w.payments c.id) ∨
  (w'.statusOf c.id = some .cancelled ∧
    (∀ r, w'.ledger.storage.escrows.lookup c.id.bytes = some r → ¬ r.Held) ∧
    w'.amountsOf c.clientId = some (c.balance.availableAmount, c.balance.reservedAmount) ∧
    w'.payments c.id = w.payments c.id ++ [compensation c.clientId c.escrow])

namespace Creation

variable {s : Stellar} {c : Creation} {w w' : World}

theorem Settled.concluded (h : c.Settled (w.payments c.id) w') : c.Concluded w w' := by
  rcases h with ⟨hb, -⟩ | ⟨hb, hu⟩
  · exact .inl ⟨hb.statusOf, hb.amounts, hb.payments⟩
  · refine .inr ⟨hb.statusOf, fun r hr => ?_, hb.amounts, hb.payments⟩
    have hst : r.status = .pending := hu _ (by rw [World.recordStatus, hr]; rfl)
    simp [EscrowRecord.Held, EscrowRecord.Open, hst]

theorem tries_settle {paid : List (List BalanceMove)} (tss : List (List (Tick EnvAction WorkerError)))
    (hw : w.ledger.Reachable s.contract) (hr : c.Resting paid w) (hne : tss ≠ []) (hruns : c.Runs s w tss) :
    c.Settled paid (w.tries s c.job tss) := by
  induction tss generalizing w with
  | nil => exact absurd rfl hne
  | cons ts tss ih =>
    obtain ⟨hobeys, hrest⟩ := hruns
    have hlast : ∀ m ∈ (if tss.isEmpty then some w.commits.length else none), m ≤ w.commits.length := by
      intro m hm
      split at hm <;> cases hm
      exact Nat.le_refl _
    obtain ⟨hend, hsettled⟩ := attempt_ends hlast ⟨hw, Nat.le_refl _, hr, fun hearly => hearly⟩ ts hobeys
    rw [World.tries]
    generalize (Worker.process s c.job).exec (platform s) ts w = res at hrest hend hsettled ⊢
    obtain ⟨w', out⟩ := res
    cases out with
    | returned _ => exact hsettled (.inr rfl)
    | threw _ | crashed =>
      cases tss with
      | nil => exact hsettled (.inl rfl)
      | cons ts' tss => exact ih hend.reachable hend.stage nofun hrest

end Creation

/-- However often an attempt fails, the escrow ends FUNDED with its balance locked, or CANCELLED and compensated
once, if no attempt deposits or compensates that started later, nothing fails after the deposit, and the last
attempt carries its compensation out. -/
theorem funded_or_compensated_once {s : Stellar} {c : Creation} {w : World} (hw : w.ledger.Reachable s.contract)
    (h : c.Fresh w) {tss : List (List (Tick EnvAction WorkerError))} (hne : tss ≠ []) (hruns : c.Runs s w tss) :
    c.Concluded w (w.tries s c.job tss) :=
  (Creation.tries_settle tss hw (.fresh h rfl) hne hruns).concluded

def sampleCreation : Creation := ⟨"client", sampleDto, sampleId, ⟨1000, 0, 0⟩⟩

theorem sampleCreation_fresh : sampleCreation.Fresh sampleWorld := ⟨rfl, rfl, nofun⟩

/-- The first attempt finds no escrow; it is there when the second one reads, and the answer gets lost. -/
def sampleFailures : List (List (Tick EnvAction WorkerError)) :=
  [[], [⟨[.request (sampleCreation.request "key")], .lost .infrastructure⟩]]

theorem sample_funded :
    (sampleWorld.tries sampleStellar sampleCreation.job sampleFailures).statusOf sampleId = some .cancelled ∧
      sampleCreation.Concluded sampleWorld (sampleWorld.tries sampleStellar sampleCreation.job sampleFailures) := by
  refine ⟨by decide +kernel, funded_or_compensated_once sampleWorld_reachable sampleCreation_fresh nofun
    ⟨by decide +kernel, ?_⟩⟩
  split
  · trivial
  · rename_i w' _ _ hexec
    obtain rfl : _ = w' := congrArg Prod.fst hexec
    refine ⟨⟨⟨.inl ⟨"key", rfl⟩, trivial⟩, by decide +kernel, by decide +kernel⟩, ?_⟩
    split <;> trivial

/-- Two attempts, the first of which gets no answer to its initialisation. -/
def sampleRetry : List (List (Tick EnvAction WorkerError)) :=
  [[⟨[.request (sampleCreation.request "key")], .none⟩, ⟨[], .none⟩, ⟨[], .none⟩, ⟨[], .none⟩,
    ⟨[], .lost .infrastructure⟩], []]

/-- The second attempt funds what the first compensated. -/
theorem retry_funds_compensated : sampleCreation.Fresh sampleWorld ∧
    ¬ sampleCreation.Concluded sampleWorld
    (sampleWorld.tries sampleStellar sampleCreation.job sampleRetry) := by
  refine ⟨sampleCreation_fresh, fun hc => ?_⟩
  have h : (sampleWorld.tries sampleStellar sampleCreation.job sampleRetry).statusOf sampleId = some .funded ∧
      (sampleWorld.tries sampleStellar sampleCreation.job sampleRetry).amountsOf "client" = some (1000, 0) := by
    decide +kernel
  rcases hc with ⟨-, ha, -⟩ | ⟨hst, -⟩
  · exact absurd (h.2.symm.trans ha) (by decide +kernel)
  · exact absurd (h.1.symm.trans hst) (by decide)

end NexusHub
