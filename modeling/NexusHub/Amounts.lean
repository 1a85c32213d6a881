import NexusHub.Interface
import NexusHub.Requests

/-!
# One amount in three precisions

The API computes with exact decimals, the job carries ten-millionths, and the
columns hold millionths. The three agree, and a failed funding gives back what
was taken, exactly for the amounts that no rounding touches apart from that of
the fee alone.
-/

namespace NexusHub

/-! ## Rounding half away from zero -/

theorem roundHalfAway_eq_iff {x : ℚ} {n : Int} (hx : 0 ≤ x) :
    roundHalfAway x = n ↔ (n : ℚ) - 1 / 2 ≤ x ∧ x < n + 1 / 2 := by
  rw [roundHalfAway_of_nonneg hx, Int.floor_eq_iff]
  constructor <;> rintro ⟨h1, h2⟩ <;> constructor <;> linarith

/-- What a rounded difference took: rounded the other way at ties. -/
theorem sub_roundHalfAway_eq_iff {n k : Int} {y : ℚ} (hy : y ≤ n) :
    n - roundHalfAway (n - y) = k ↔ (k : ℚ) - 1 / 2 < y ∧ y ≤ k + 1 / 2 := by
  have hround : n - roundHalfAway (n - y) = k ↔ roundHalfAway (n - y) = n - k := by omega
  rw [hround, roundHalfAway_eq_iff (by linarith)]
  push_cast
  constructor <;> rintro ⟨h1, h2⟩ <;> constructor <;> linarith

/-! ## What is queued, stored and given back -/

/-- The amount in the `init_escrow` call that a handler submits first. -/
def Handler.stroops? (h : Handler TxHash) : Option Int := do
  let (method, args, _) ← h.submission
  match ← dispatch method args with
  | .initEscrow _ _ _ _ amount .. => some amount.val
  | _ => none

theorem initEscrow_stroops {s : Stellar} {id : String} {client freelancer : Address} {amount x : Int}
    {hash description : String} {delay total expiry : Nat}
    (h : (s.initEscrow id client freelancer amount hash description delay total expiry).stroops? = some x) :
    x = amount := by
  unfold Stellar.initEscrow Stellar.toI128 at h
  split at h
  · revert h
    cases Stellar.toU32 delay with
    | none => exact nofun
    | some delay =>
      cases Stellar.toU32 total with
      | none => exact nofun
      | some total =>
        cases Stellar.toU32 expiry with
        | none => exact nofun
        | some expiry => exact fun h => (Option.some.inj h).symm
  · cases h

/-- The funding job, and with it any `init_escrow`, carries the stored amount in
stroops, and `handleFundFailure` restores what `createEscrow` took from the
available balance. -/
structure AmountsAgree (db : Db) (clientId : UserId) (id : Uuid) (res : Response) : Prop where
  passed : ∃ e n, res.db.escrows.lookup id = some e ∧ res.jobs = [.fundEscrow id clientId n] ∧
    (∀ (s : Stellar) client freelancer hash description delay total expiry x,
      (s.initEscrow id.text client freelancer n hash description delay total expiry).stroops? = some x → x = n) ∧
    (n : ℚ) = 10 ^ 7 * (e.amount / 10 ^ 6) ∧ 0 < n
  restored : ∃ e db', res.db.escrows.lookup id = some e ∧
    (DbTx.compensate id clientId e.amount e.fee).apply res.db = .ok db' ∧
    (db'.balances.lookup clientId).map (·.availableAmount) = (db.balances.lookup clientId).map (·.availableAmount)

/-- In millionths, the amount is next to a whole number `m`, its fee rounds to
`k`, and amount plus fee round to `m + k`, ties downwards. -/
def CreateEscrowDto.Exact (dto : CreateEscrowDto) : Prop :=
  let x := dto.amount * 10 ^ 6
  ∃ m k : Int, 0 < m ∧ ((m : ℚ) - 1 / 20 ≤ x ∧ x < m + 1 / 20) ∧
    ((k : ℚ) - 1 / 2 ≤ x / 100 ∧ x / 100 < k + 1 / 2) ∧
    ((m : ℚ) + k - 1 / 2 < x + x / 100 ∧ x + x / 100 ≤ m + k + 1 / 2)

theorem exact_of_micro {dto : CreateEscrowDto} {m : Int} (hm : dto.amount = m / 10 ^ 6) :
    dto.Exact ↔ m % 100 ≠ 50 := by
  have hx : dto.amount * 10 ^ 6 = m := by rw [hm]; exact div_mul_cancel₀ _ (by norm_num)
  have hpos : 0 < m := by
    have := dto.amount_pos
    have : (0 : ℚ) < m := by rw [← hx]; positivity
    exact_mod_cast this
  unfold CreateEscrowDto.Exact
  simp only [hx]
  constructor
  · rintro ⟨m', k, -, ⟨h1, h2⟩, ⟨h3, h4⟩, ⟨h5, h6⟩⟩ h50
    obtain rfl : m = m' := by
      have h1 : (m' : ℚ) < m + 1 := by linarith
      have h2 : (m : ℚ) < m' + 1 := by linarith
      have h1 : m' < m + 1 := by exact_mod_cast h1
      have h2 : m < m' + 1 := by exact_mod_cast h2
      omega
    have h3 : (100 : ℚ) * k - 50 ≤ m := by linarith
    have h5 : (100 : ℚ) * k - 50 < m := by linarith
    have h6 : (m : ℚ) ≤ 100 * k + 50 := by linarith
    have h4 : (m : ℚ) < 100 * k + 50 := by linarith
    have h5 : 100 * k - 50 < m := by exact_mod_cast h5
    have h4 : m < 100 * k + 50 := by exact_mod_cast h4
    omega
  · intro h50
    refine ⟨m, (m + 50) / 100, hpos, ⟨by linarith, by linarith⟩, ?_⟩
    have h1 : 100 * ((m + 50) / 100) - 50 < m := by omega
    have h2 : m < 100 * ((m + 50) / 100) + 50 := by omega
    have h1 : (100 : ℚ) * ((m + 50) / 100 : Int) - 50 < m := by exact_mod_cast h1
    have h2 : (m : ℚ) < 100 * ((m + 50) / 100 : Int) + 50 := by exact_mod_cast h2
    constructor <;> constructor <;> linarith

/-! ## The amounts of one request -/

section
variable {dto : CreateEscrowDto} {n k : Int}

theorem stroops_eq_iff (n : Int) :
    EscrowService.stroopsOf dto.amount = 10 * n ↔
      (n : ℚ) - 1 / 20 ≤ dto.amount * 10 ^ 6 ∧ dto.amount * 10 ^ 6 < n + 1 / 20 := by
  have hpos := dto.amount_pos
  unfold EscrowService.stroopsOf
  rw [roundHalfAway_eq_iff (by positivity)]
  push_cast
  constructor <;> rintro ⟨h1, h2⟩ <;> constructor <;> linarith

theorem fee_eq_iff : toColumn (EscrowService.feeOf dto.amount) = k ↔
    (k : ℚ) - 1 / 2 ≤ dto.amount * 10 ^ 6 / 100 ∧ dto.amount * 10 ^ 6 / 100 < k + 1 / 2 := by
  have hpos := dto.amount_pos
  have hfee : EscrowService.feeOf dto.amount * 10 ^ 6 = dto.amount * 10 ^ 6 / 100 := by
    unfold EscrowService.feeOf; ring
  unfold toColumn
  rw [hfee, roundHalfAway_eq_iff (by positivity)]

theorem debit_eq_iff {b : Balance}
    (hcovered : EscrowService.totalDebitOf dto.amount * 10 ^ 6 ≤ b.availableAmount) :
    b.availableAmount - (EscrowService.lockBalance dto.amount b).availableAmount = n + k ↔
      (n : ℚ) + k - 1 / 2 < dto.amount * 10 ^ 6 + dto.amount * 10 ^ 6 / 100 ∧
        dto.amount * 10 ^ 6 + dto.amount * 10 ^ 6 / 100 ≤ n + k + 1 / 2 := by
  have hdebit : EscrowService.totalDebitOf dto.amount * 10 ^ 6 =
      dto.amount * 10 ^ 6 + dto.amount * 10 ^ 6 / 100 := by
    unfold EscrowService.totalDebitOf EscrowService.feeOf; ring
  rw [hdebit] at hcovered
  unfold EscrowService.lockBalance
  rw [hdebit, sub_roundHalfAway_eq_iff hcovered]
  push_cast
  rfl

end

theorem compensate_balance {db : Db} {clientId : UserId} {id : Uuid} {b : Balance} {e : Escrow}
    (hb : db.balances.lookup clientId = some b) (he : db.escrows.lookup id = some e) :
    ∃ db', (DbTx.compensate id clientId e.amount e.fee).apply db = .ok db' ∧
      (db'.balances.lookup clientId).map (·.availableAmount) = some (b.availableAmount + (e.amount + e.fee)) := by
  have hready : (DbTx.compensate id clientId e.amount e.fee).Ready db :=
    ⟨by rw [DbTx.escrowId, he]; rfl, List.forall_mem_singleton.mpr (by rw [hb]; rfl), nofun, nofun⟩
  obtain ⟨db', hdb⟩ := hready.apply
  refine ⟨db', hdb, ?_⟩
  rw [(DbTx.apply_ok hdb).1.balances]
  simp [DbTx.moves, lookup_applyMove, hb, Balance.increment]

theorem createEscrow_leaves {db : Db} {clientId : UserId} {dto : CreateEscrowDto} {key : String} {id : Uuid}
    {res : Response} (h : EscrowService.createEscrow db clientId dto key id = .ok res)
    (hkey : db.transactions.lookup key = none) :
    ∃ b, db.balances.lookup clientId = some b ∧
      EscrowService.totalDebitOf dto.amount * 10 ^ 6 ≤ b.availableAmount ∧
      res.db.escrows.lookup id = some (EscrowService.newEscrow clientId dto) ∧
      res.db.balances.lookup clientId = some (EscrowService.lockBalance dto.amount b) ∧
      res.jobs = [.fundEscrow id clientId (EscrowService.stroopsOf dto.amount)] := by
  have hserved : Served db .client (.createEscrow clientId dto key id) res := createEscrow_served h
  cases hserved with
  | replayed hk => rw [hkey] at hk; cases hk
  | created hc => exact ⟨_, hc.balance, hc.covered, Finmap.lookup_insert _, Finmap.lookup_insert _, rfl⟩
  | queued hj => cases hj

/-- The agreement in numbers: ten stroops to the millionth, and nothing lost or
gained by debit and credit. -/
def CreateEscrowDto.Balanced (dto : CreateEscrowDto) (b : Balance) : Prop :=
  EscrowService.stroopsOf dto.amount = 10 * toColumn dto.amount ∧ 0 < EscrowService.stroopsOf dto.amount ∧
    (EscrowService.lockBalance dto.amount b).availableAmount +
      (toColumn dto.amount + toColumn (EscrowService.feeOf dto.amount)) = b.availableAmount

theorem agree_iff_balanced {db : Db} {clientId : UserId} {dto : CreateEscrowDto} {id : Uuid} {res : Response}
    {b : Balance} (hb : db.balances.lookup clientId = some b)
    (he : res.db.escrows.lookup id = some (EscrowService.newEscrow clientId dto))
    (hb' : res.db.balances.lookup clientId = some (EscrowService.lockBalance dto.amount b))
    (hjobs : res.jobs = [.fundEscrow id clientId (EscrowService.stroopsOf dto.amount)]) :
    AmountsAgree db clientId id res ↔ dto.Balanced b := by
  obtain ⟨db', hdb, hback⟩ := compensate_balance hb' he
  have hstroops : ((EscrowService.stroopsOf dto.amount : Int) : ℚ) =
      10 ^ 7 * ((toColumn dto.amount : ℚ) / 10 ^ 6) ↔
        EscrowService.stroopsOf dto.amount = 10 * toColumn dto.amount := by
    rw [← Int.cast_inj (α := ℚ)]
    push_cast
    constructor <;> intro h <;> linarith
  constructor
  · rintro ⟨⟨e, n, he', hjobs', -, hn, hpos⟩, e', db'', he'', hdb', hrestored⟩
    cases Option.some.inj (he'.symm.trans he)
    cases Option.some.inj (he''.symm.trans he)
    cases hjobs.symm.trans hjobs'
    cases Except.ok.inj (hdb.symm.trans hdb')
    rw [hback, hb] at hrestored
    exact ⟨hstroops.mp hn, hpos, Option.some.inj hrestored⟩
  · rintro ⟨hn, hpos, hrestored⟩
    refine ⟨⟨_, _, he, hjobs, fun s _ _ _ _ _ _ _ _ => initEscrow_stroops, hstroops.mpr hn, hpos⟩,
      _, db', he, hdb, ?_⟩
    rw [hback, hb]
    exact congrArg some hrestored

theorem balanced_iff_exact {dto : CreateEscrowDto} {b : Balance}
    (hcovered : EscrowService.totalDebitOf dto.amount * 10 ^ 6 ≤ b.availableAmount) :
    dto.Balanced b ↔ dto.Exact := by
  constructor
  · rintro ⟨h1, h2, h3⟩
    exact ⟨_, _, by omega, (stroops_eq_iff _).mp h1, fee_eq_iff.mp rfl, (debit_eq_iff hcovered).mp (by omega)⟩
  · rintro ⟨n, k, hn, h1, h2, h3⟩
    have hcol : toColumn dto.amount = n :=
      (roundHalfAway_eq_iff (by have := dto.amount_pos; positivity)).mpr ⟨by linarith, by linarith⟩
    have hfee := fee_eq_iff.mpr h2
    have h1 := (stroops_eq_iff n).mpr h1
    have h3 := (debit_eq_iff hcovered).mpr h3
    unfold CreateEscrowDto.Balanced
    rw [hcol, hfee]
    exact ⟨h1, by omega, by omega⟩

/-- With its key unused the request that is accepted creates the escrow, and its
amounts agree exactly when the amount is `Exact`. -/
theorem amounts_agree_iff {db : Db} {clientId : UserId} {dto : CreateEscrowDto} {key : String} {id : Uuid}
    {res : Response} (h : EscrowService.createEscrow db clientId dto key id = .ok res)
    (hkey : db.transactions.lookup key = none) : AmountsAgree db clientId id res ↔ dto.Exact := by
  obtain ⟨b, hb, hcovered, he, hb', hjobs⟩ := createEscrow_leaves h hkey
  exact (agree_iff_balanced hb he hb' hjobs).trans (balanced_iff_exact hcovered)

theorem sample_amounts_agree :
    ∃ res, EscrowService.createEscrow sampleWorld.db "client" sampleDto "key" sampleId = .ok res ∧
      AmountsAgree sampleWorld.db "client" sampleId res := by
  have hok : (EscrowService.createEscrow sampleWorld.db "client" sampleDto "key" sampleId).isOk := by
    decide +kernel
  cases h : EscrowService.createEscrow sampleWorld.db "client" sampleDto "key" sampleId with
  | error e => rw [h] at hok; cases hok
  | ok res =>
    have hmicro : sampleDto.amount = (100 : Int) / 10 ^ 6 := by
      show (1 / 10000 : ℚ) = _
      norm_num
    exact ⟨res, rfl, (amounts_agree_iff h rfl).mpr ((exact_of_micro hmicro).mpr (by decide))⟩

/-- Fifty millionths: the fee is half a millionth, stored as one, and the 50.5
taken leave the balance as 50. -/
def sampleTie : CreateEscrowDto := { sampleDto with amount := 1 / 20000, amount_pos := by norm_num }

theorem tie_gives_back_more : ¬ ∀ (db : Db) (clientId : UserId) (dto : CreateEscrowDto) (key : String) (id : Uuid)
    (res : Response), EscrowService.createEscrow db clientId dto key id = .ok res →
    db.transactions.lookup key = none → AmountsAgree db clientId id res := by
  intro hall
  have hok : (EscrowService.createEscrow sampleWorld.db "client" sampleTie "key" sampleId).isOk := by
    decide +kernel
  cases h : EscrowService.createEscrow sampleWorld.db "client" sampleTie "key" sampleId with
  | error e => rw [h] at hok; cases hok
  | ok res =>
    obtain ⟨b, hb, -, he, hb', hjobs⟩ := createEscrow_leaves h rfl
    obtain ⟨-, -, hrestored⟩ :=
      (agree_iff_balanced hb he hb' hjobs).mp (hall _ _ _ _ _ _ h rfl)
    obtain rfl : ⟨1000, 0, 0⟩ = b := Option.some.inj ((by decide +kernel :
      sampleWorld.db.balances.lookup "client" = some ⟨1000, 0, 0⟩).symm.trans hb)
    revert hrestored
    decide +kernel

end NexusHub
