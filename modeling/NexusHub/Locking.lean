import NexusHub.Sessions

/-!
# Available balances under concurrency

The check of `createEscrow` is made on a value read earlier, and only half of
the writers bump the version. The other half only raises the available amount,
so a debit that was covered when it was read is covered when it commits.
-/

namespace NexusHub

/-- What a session is about to debit, in millionths. -/
def Session.debit (x : Session) : ℚ := EscrowService.totalDebitOf x.dto.amount * 10 ^ 6

/-! ## Amounts -/

theorem lockBalance_nonneg {amount : ℚ} {b : Balance}
    (h : EscrowService.totalDebitOf amount * 10 ^ 6 ≤ b.availableAmount) :
    0 ≤ (EscrowService.lockBalance amount b).availableAmount := by
  change 0 ≤ roundHalfAway _
  exact roundHalfAway_nonneg (by linarith)

theorem lockBalance_exact {amount : ℚ} {b : Balance} {m : Int}
    (h : EscrowService.totalDebitOf amount * 10 ^ 6 = m) :
    (EscrowService.lockBalance amount b).availableAmount = b.availableAmount - m := by
  change roundHalfAway (b.availableAmount - EscrowService.totalDebitOf amount * 10 ^ 6) = _
  rw [h, ← Int.cast_sub, roundHalfAway_intCast]

theorem newEscrow_nonneg (clientId : UserId) (dto : CreateEscrowDto) :
    0 ≤ (EscrowService.newEscrow clientId dto).amount ∧ 0 ≤ (EscrowService.newEscrow clientId dto).fee := by
  have hpos := dto.amount_pos
  refine ⟨toColumn_nonneg (by linarith), toColumn_nonneg ?_⟩
  unfold EscrowService.feeOf
  linarith

/-! ## The worker's credits -/

def Db.RowsNonneg (db : Db) : Prop := ∀ id e, db.escrows.lookup id = some e → 0 ≤ e.amount ∧ 0 ≤ e.fee

theorem DbTx.Drawn.moves_nonneg {db : Db} {tx : DbTx} (h : tx.Drawn db) (hr : db.RowsNonneg) :
    ∀ m ∈ tx.moves, 0 ≤ m.available := by
  have hrow {id : Uuid} {e : Escrow} (h : ∃ e', db.escrows.lookup id = some e' ∧ e.Kept e') : 0 ≤ e.amount := by
    obtain ⟨e', he', hk⟩ := h
    rw [← hk.amount]
    exact (hr id e' he').1
  cases tx with
  | fund | failLocks | milestone => exact List.forall_mem_nil _
  | compensate id u amount fee =>
    obtain ⟨e, he, rfl, rfl⟩ := h
    obtain ⟨ha, hf⟩ := hr id e he
    refine List.forall_mem_singleton.mpr ?_
    change 0 ≤ e.amount + e.fee
    omega
  | release id e =>
    exact List.forall_mem_cons.mpr ⟨hrow h.2, List.forall_mem_singleton.mpr (le_refl _)⟩
  | refund | expire => exact List.forall_mem_singleton.mpr (hrow h.2)
  | approve id e u role clientApproved freelancerApproved txHash =>
    simp only [moves]
    split
    · exact List.forall_mem_cons.mpr ⟨hrow h.2, List.forall_mem_singleton.mpr (le_refl _)⟩
    · exact List.forall_mem_nil _

/-- No balance loses available amount or changes its version. -/
def Db.Raised (db db' : Db) : Prop :=
  ∀ u b', db'.balances.lookup u = some b' →
    ∃ b, db.balances.lookup u = some b ∧ b.version = b'.version ∧ b.availableAmount ≤ b'.availableAmount

theorem Db.Raised.of_eq {db db' : Db} (h : db'.balances = db.balances) : db.Raised db' :=
  fun _ b' hb' => ⟨b', h ▸ hb', rfl, le_refl _⟩

theorem DbTx.raised {db db' : Db} {tx : DbTx} (ha : tx.apply db = .ok db') (hd : tx.Drawn db)
    (hr : db.RowsNonneg) : db.Raised db' := by
  intro u b' hb'
  rw [(DbTx.apply_ok ha).1.balances, lookup_applyMoves] at hb'
  obtain ⟨b, hb, rfl⟩ := Option.map_eq_some_iff.mp hb'
  refine ⟨b, hb, rfl, ?_⟩
  have : 0 ≤ availableOf tx.moves u := by
    refine List.sum_nonneg fun v hv => ?_
    obtain ⟨m, hm, rfl⟩ := List.mem_map.mp hv
    split
    · exact hd.moves_nonneg hr m hm
    · exact le_refl _
  change b.availableAmount ≤ b.availableAmount + _
  omega

theorem Db.RowsNonneg.keep {db db' : Db} (h : db.RowsNonneg) (hk : db.RowsKept db')
    (hold : ∀ id, (db'.escrows.lookup id).isSome → (db.escrows.lookup id).isSome) : db'.RowsNonneg := by
  intro id e' he'
  obtain ⟨e, he⟩ := Option.isSome_iff_exists.mp (hold id (by rw [he']; rfl))
  obtain ⟨e'', he'', hkept⟩ := hk id e he
  cases he'.symm.trans he''
  rw [hkept.amount, hkept.fee]
  exact h id e he

/-! ## The invariant -/

structure BalancesOk (c : Site) : Prop where
  available : ∀ u b, c.world.db.balances.lookup u = some b → 0 ≤ b.availableAmount
  rows : c.world.db.RowsNonneg
  /-- What a session has read still covers it, or the version tells. -/
  read : ∀ (n : Nat) (x : Session) v, c.sessions[n]? = some x → x.stage = .balanceRead v →
    ∀ b, c.world.db.balances.lookup x.clientId = some b →
      v ≤ b.version ∧ (b.version = v → x.debit ≤ b.availableAmount)
  held : ∀ (n : Nat) (x : Session), c.sessions[n]? = some x → x.stage.HoldsBalance →
    ∀ b, c.world.db.balances.lookup x.clientId = some b → x.debit ≤ b.availableAmount
  lone : ∀ (n m : Nat) (x y : Session), c.sessions[n]? = some x → c.sessions[m]? = some y →
    x.stage.HoldsBalance → y.stage.HoldsBalance → x.clientId = y.clientId → n = m

namespace BalancesOk

variable {c c' : Site}

theorem raise (h : BalancesOk c) (hs : c'.sessions = c.sessions) (hr : c'.world.db.RowsNonneg)
    (hb : c.world.db.Raised c'.world.db) : BalancesOk c' where
  available u b' hb' := by
    obtain ⟨b, hb, -, hle⟩ := hb u b' hb'
    have := h.available u b hb
    omega
  rows := hr
  read n x v hx hst b' hb' := by
    rw [hs] at hx
    obtain ⟨b, hb, hv, hle⟩ := hb _ b' hb'
    obtain ⟨hvle, hcov⟩ := h.read n x v hx hst b hb
    have hle : (b.availableAmount : ℚ) ≤ b'.availableAmount := by exact_mod_cast hle
    exact ⟨hv ▸ hvle, fun he => (hcov (hv.trans he)).trans hle⟩
  held n x hx hst b' hb' := by
    rw [hs] at hx
    obtain ⟨b, hb, -, hle⟩ := hb _ b' hb'
    have hle : (b.availableAmount : ℚ) ≤ b'.availableAmount := by exact_mod_cast hle
    exact (h.held n x hx hst b hb).trans hle
  lone := by rw [hs]; exact h.lone

theorem restage (h : BalancesOk c) {n : Nat} {x : Session} {w : World} {st : Stage}
    (hx : c.sessions[n]? = some x) (hw : w.db = c.world.db)
    (hread : ∀ v, st = .balanceRead v → ∀ b, c.world.db.balances.lookup x.clientId = some b →
      v ≤ b.version ∧ (b.version = v → x.debit ≤ b.availableAmount))
    (hheld : st.HoldsBalance → x.stage.HoldsBalance ∨ ¬ c.BalanceLocked x.clientId ∧
      ∀ b, c.world.db.balances.lookup x.clientId = some b → x.debit ≤ b.availableAmount) :
    BalancesOk (c.put n x (w, st)) := by
  have hdb : (c.put n x (w, st)).world.db = c.world.db := hw
  refine ⟨by rw [hdb]; exact h.available, by
    rw [hdb]; exact h.rows, fun m y v hy hst => ?_, fun m y hy hst => ?_, ?_⟩
  · rw [hdb]
    rcases put_sessions hx hy with ⟨-, rfl⟩ | ⟨-, hy⟩
    · exact hread v hst
    · exact h.read m y v hy hst
  · rw [hdb]
    rcases put_sessions hx hy with ⟨-, rfl⟩ | ⟨-, hy⟩
    · rcases hheld hst with hold | ⟨-, hcov⟩
      · exact h.held n x hx hold
      · exact hcov
    · exact h.held m y hy hst
  · -- a session that newly holds the balance found nobody else to hold it
    have hother {m : Nat} {y : Session} (hst : st.HoldsBalance) (hy : c.sessions[m]? = some y)
        (hholds : y.stage.HoldsBalance) (hc : y.clientId = x.clientId) : m = n := by
      rcases hheld hst with hold | ⟨hfree, -⟩
      · exact h.lone m n y x hy hx hholds hold hc
      · exact absurd ⟨y, List.mem_of_getElem? hy, hc, hholds⟩ hfree
    intro m k y z hy hz hhy hhz hc
    rcases put_sessions hx hy with ⟨rfl, rfl⟩ | ⟨-, hy₀⟩
    · rcases put_sessions hx hz with ⟨rfl, rfl⟩ | ⟨-, hz₀⟩
      · rfl
      · exact (hother hhy hz₀ hhz hc.symm).symm
    · rcases put_sessions hx hz with ⟨rfl, rfl⟩ | ⟨-, hz₀⟩
      · exact hother hhz hy₀ hhy hc
      · exact h.lone m k y z hy₀ hz₀ hhy hhz hc

theorem commit (h : BalancesOk c) {n : Nat} {x : Session} {db : Db} (hx : c.sessions[n]? = some x)
    (hst : x.stage = .enqueued) (ha : x.apply c.world.db = .ok db) :
    BalancesOk (c.put n x ({ c.world with db }, .committed)) := by
  have hholds : x.stage.HoldsBalance := by rw [hst]; exact .inr (.inr (.inr rfl))
  obtain ⟨b, hb, -, -, -, -, rfl⟩ := Session.apply_ok.mp ha
  have hlook (u : UserId) :
    (c.world.db.balances.insert x.clientId (EscrowService.lockBalance x.dto.amount b)).lookup u =
      if u = x.clientId then some (EscrowService.lockBalance x.dto.amount b) else
        c.world.db.balances.lookup u :=
    Store.lookup_insert' _ _ _ _
  have hcov := h.held n x hx hholds b hb
  refine ⟨fun u b' hb' => ?_, ?_, fun m y v hy hyst b' hb' => ?_, fun m y hy hyst b' hb' => ?_, ?_⟩
  · have hb' := (hlook u).symm.trans hb'
    split at hb'
    · cases hb'
      exact lockBalance_nonneg hcov
    · exact h.available u b' hb'
  · exact Store.forall_insert (newEscrow_nonneg _ _) h.rows
  · rcases put_sessions hx hy with ⟨-, rfl⟩ | ⟨-, hy⟩
    · cases hyst
    · have hb' := (hlook _).symm.trans hb'
      split at hb'
      · rename_i hc
        cases hb'
        have hle := (h.read m y v hy hyst b (hc ▸ hb)).1
        refine ⟨?_, fun he => ?_⟩
        · change v ≤ b.version + 1
          omega
        · change b.version + 1 = v at he
          omega
      · exact h.read m y v hy hyst b' hb'
  · rcases put_sessions hx hy with ⟨-, rfl⟩ | ⟨hne, hy⟩
    · rcases hyst with hyst | hyst | hyst | hyst <;> cases hyst
    · have hb' := (hlook _).symm.trans hb'
      split at hb'
      · rename_i hc
        exact absurd (h.lone m n y x hy hx hyst hholds hc) hne
      · exact h.held m y hy hyst b' hb'
  · intro m k y z hy hz hhy hhz hc
    rcases put_sessions hx hy with ⟨-, rfl⟩ | ⟨-, hy⟩
    · rcases hhy with hhy | hhy | hhy | hhy <;> cases hhy
    · rcases put_sessions hx hz with ⟨-, rfl⟩ | ⟨-, hz⟩
      · rcases hhz with hhz | hhz | hhz | hhz <;> cases hhz
      · exact h.lone m k y z hy hz hhy hhz hc

theorem of_stepped (h : BalancesOk c) {s : Stellar} (hstep : c.Stepped s c') : BalancesOk c' := by
  cases hstep with
  | idle => exact h
  | ledger | guarded | dropped => exact h.raise rfl h.rows (.of_eq rfl)
  | @begun x hx hfresh =>
    have hold {n : Nat} {y : Session} (hy : (c.sessions ++ [x])[n]? = some y) :
        c.sessions[n]? = some y ∨ y.stage = .begun := by
      rw [List.getElem?_append] at hy
      split at hy
      · exact .inl hy
      · refine .inr ?_
        have := List.mem_of_getElem? hy
        rw [List.mem_singleton.mp this]
        exact hx
    have hnot {y : Session} (hy : y.stage = .begun) : ¬ y.stage.HoldsBalance := by simp [hy, Stage.HoldsBalance]
    refine ⟨h.available, h.rows, fun n y v hy hst => ?_, fun n y hy hst => ?_,
      fun n m y z hy hz hhy hhz hc => ?_⟩
    · rcases hold hy with hy | hy
      · exact h.read n y v hy hst
      · rw [hst] at hy; cases hy
    · rcases hold hy with hy | hy
      · exact h.held n y hy hst
      · exact absurd hst (hnot hy)
    · rcases hold hy with hy | hy
      · rcases hold hz with hz | hz
        · exact h.lone n m y z hy hz hhy hhz hc
        · exact absurd hhz (hnot hz)
      · exact absurd hhy (hnot hy)
  | asked _ hdb _ _ => exact h.raise rfl (by rw [hdb]; exact h.rows) (.of_eq (by rw [hdb]))
  | @written n d w hd ha hl hj =>
    have happ := DisputeWrite.apply_ok ha
    exact h.raise rfl (h.rows.keep happ.rows fun id hid => happ.isSome hid) (.of_eq happ.balances)
  | @moved n x w st hx hm =>
    cases hm with
    | checked hst _ => exact h.restage hx rfl (fun _ h => Stage.noConfusion h) fun hh => by rcases hh with hh | hh | hh | hh <;> cases hh
    | @balanceRead b hst hb hle =>
      refine h.restage hx rfl (fun v hv b' hb' => ?_) fun hh => by rcases hh with hh | hh | hh | hh <;> cases hh
      cases hv
      cases hb.symm.trans hb'
      exact ⟨le_refl _, fun _ => hle⟩
    | @locked version b hst hfree hb hv =>
      refine h.restage hx rfl (fun _ h => Stage.noConfusion h) fun _ => .inr ⟨hfree, fun b' hb' => ?_⟩
      cases hb.symm.trans hb'
      exact (h.read n x version hx hst b hb).2 hv
    | rowInserted hst => exact h.restage hx rfl (fun _ h => Stage.noConfusion h) fun _ => .inl (by simp [hst, Stage.HoldsBalance])
    | keyInserted hst _ _ => exact h.restage hx rfl (fun _ h => Stage.noConfusion h) fun _ => .inl (by simp [hst, Stage.HoldsBalance])
    | enqueued hst => exact h.restage hx rfl (fun _ h => Stage.noConfusion h) fun _ => .inl (by simp [hst, Stage.HoldsBalance])
    | ended _ => exact h.restage hx rfl (fun _ h => Stage.noConfusion h) fun hh => by rcases hh with hh | hh | hh | hh <;> cases hh
    | committed hst ha => exact h.commit hx hst ha

theorem of_perform (h : BalancesOk c) {s : Stellar} {o : Op} {id : Uuid} (ho : c.world.Draws id o) :
    BalancesOk ((site s).perform c o).1 := by
  rcases Site.perform_cases s c o with hp | hp
  · rw [hp]
    have hdb : (c.world.perform s o).1.db.RowsNonneg ∧ c.world.db.Raised (c.world.perform s o).1.db := by
      refine World.perform_db (fun db => db.RowsNonneg ∧ c.world.db.Raised db) ⟨h.rows, .of_eq rfl⟩
        fun tx db ho' ha => ?_
      subst ho'
      refine ⟨h.rows.keep (.of_apply ha) fun k hk => ?_, DbTx.raised ha ho.2 h.rows⟩
      rw [(DbTx.apply_ok ha).1.escrows k] at hk
      split at hk
      · rw [Option.isSome_map] at hk; exact hk
      · exact hk
    exact h.raise rfl hdb.1 hdb.2
  · rw [hp]; exact h

end BalancesOk

/-! ## Every run -/

def Site.Commits (c c' : Site) (n : Nat) (x : Session) : Prop :=
  c.sessions[n]? = some x ∧ x.stage ≠ .committed ∧ (c'.sessions[n]?).map (·.stage) = some .committed

/-- The session's client loses what the session debits, and nobody else loses anything. -/
structure Session.Debits (x : Session) (db db' : Db) (b b' : Balance) : Prop where
  before : db.balances.lookup x.clientId = some b
  after : db'.balances.lookup x.clientId = some b'
  rounded : b'.availableAmount = roundHalfAway (b.availableAmount - x.debit)
  whole : ∀ m : Int, x.debit = m → b'.availableAmount = b.availableAmount - m
  others : ∀ u, u ≠ x.clientId → db'.balances.lookup u = db.balances.lookup u

/-- A step commits one session and debits it, or commits none and lowers no available amount. -/
def Site.DebitsAlone (c c' : Site) : Prop :=
  (∃ n x b b', c.Commits c' n x ∧ (∀ m y, c.Commits c' m y → m = n) ∧ x.Debits c.world.db c'.world.db b b') ∨
    (∀ n x, ¬ c.Commits c' n x) ∧ c.world.db.Raised c'.world.db

namespace Site

variable {c c' : Site}

theorem not_commits (hs : ∀ (n : Nat) y, c'.sessions[n]? = some y → c.sessions[n]? = some y ∨
    y.stage ≠ .committed) (n : Nat) (x : Session) : ¬ c.Commits c' n x := by
  rintro ⟨hx, hst, hc⟩
  obtain ⟨y, hy, hcom⟩ := Option.map_eq_some_iff.mp hc
  rcases hs n y hy with h | h
  · cases hx.symm.trans h
    exact hst hcom
  · exact h hcom

theorem debitsAlone_of_same (hs : c'.sessions = c.sessions) (hb : c.world.db.Raised c'.world.db) :
    c.DebitsAlone c' :=
  .inr ⟨not_commits fun n y hy => .inl (by rw [← hs]; exact hy), hb⟩

theorem debitsAlone_of_stepped {s : Stellar} (hstep : c.Stepped s c') : c.DebitsAlone c' := by
  cases hstep with
  | idle | ledger | guarded | dropped => exact debitsAlone_of_same rfl (.of_eq rfl)
  | begun hx _ =>
    refine .inr ⟨not_commits fun n y hy => ?_, .of_eq rfl⟩
    rw [List.getElem?_append] at hy
    split at hy
    · exact .inl hy
    · rw [List.mem_singleton.mp (List.mem_of_getElem? hy), hx]
      exact .inr Stage.noConfusion
  | asked _ hdb _ _ => exact debitsAlone_of_same rfl (.of_eq (by rw [hdb]))
  | written _ ha _ _ => exact debitsAlone_of_same rfl (.of_eq (DisputeWrite.apply_ok ha).balances)
  | @moved n x w st hx hm =>
    have hother (hst : st ≠ .committed) (m : Nat) (y : Session) : ¬ c.Commits (c.put n x (w, st)) m y := by
      refine not_commits (fun k z hz => ?_) m y
      rcases put_sessions hx hz with ⟨-, rfl⟩ | ⟨-, hz⟩
      · exact .inr hst
      · exact .inl hz
    cases hm with
    | committed hst ha =>
      obtain ⟨b, hb, -, -, -, -, rfl⟩ := Session.apply_ok.mp ha
      refine .inl ⟨n, x, b, _, ⟨hx, by rw [hst]; exact Stage.noConfusion, ?_⟩, fun m y hy => ?_, hb,
        Finmap.lookup_insert _, rfl, fun m hm => lockBalance_exact hm,
        fun u hu => Finmap.lookup_insert_of_ne _ hu⟩
      · obtain ⟨hlt, -⟩ := List.getElem?_eq_some_iff.mp hx
        simp [put, hlt]
      · obtain ⟨hy, hyst, hc⟩ := hy
        obtain ⟨z, hz, hzc⟩ := Option.map_eq_some_iff.mp hc
        rcases put_sessions hx hz with ⟨hm, -⟩ | ⟨-, hz⟩
        · exact hm
        · cases hy.symm.trans hz
          exact absurd hzc hyst
    | checked | balanceRead | locked | rowInserted | keyInserted | enqueued | ended =>
      exact .inr ⟨hother Stage.noConfusion, .of_eq rfl⟩

theorem debitsAlone_of_perform {s : Stellar} {o : Op} {id : Uuid} (ho : c.world.Draws id o)
    (hr : c.world.db.RowsNonneg) : c.DebitsAlone ((site s).perform c o).1 := by
  rcases perform_cases s c o with hp | hp
  · rw [hp]
    refine debitsAlone_of_same rfl (World.perform_db (fun db => c.world.db.Raised db) (.of_eq rfl)
      fun tx db ho' ha => ?_)
    subst ho'
    exact DbTx.raised ha ho.2 hr
  · rw [hp]; exact debitsAlone_of_same rfl (.of_eq rfl)

end Site

abbrev Site.Working (s : Stellar) (c : Pool Op Op.Res WorkerError Unit Site) : Prop :=
  c.Keeps (site s) (fun c c' => c.world.RowsKept c'.world) (fun c o => ∃ id, c.world.Draws id o) BalancesOk

theorem Site.working_after {s : Stellar} {c : Site} (h : BalancesOk c)
    (as : List (PoolAction Job SiteAction WorkerError)) : Site.Working s (c.after s as) :=
  pool_keeps (site_keeps s)
    (fun j _ _ => (site_safe (draws_process j)).imp (fun _ _ h => h) fun _ _ ho => ⟨j.escrowId, ho⟩)
    (fun c a h => h.of_stepped (c.env_stepped s a)) (fun _ _ h ho => h.of_perform ho.choose_spec)
    (c := ⟨c, []⟩) ⟨h, fun _ h => nomatch h⟩ as

theorem Site.Working.debitsAlone {s : Stellar} {c : Pool Op Op.Res WorkerError Unit Site} (h : Site.Working s c)
    (a : PoolAction Job SiteAction WorkerError) :
    c.world.DebitsAlone (Pool.step (site s) (Worker.process s) c a).world := by
  rcases h.step_cases (site_keeps s) a with he | ⟨i, rfl, he⟩ | ⟨o, ⟨id, ho⟩, he⟩
  · rw [he]; exact debitsAlone_of_same rfl (.of_eq rfl)
  · rw [he]; exact debitsAlone_of_stepped (c.world.env_stepped s i)
  · rw [he]; exact debitsAlone_of_perform ho h.world.rows

/-- However requests and workers interleave, no available amount is negative;
each commit of a `createEscrow` takes its amount and fee off the amount it
finds, to the millionth if they come to whole millionths, and nothing else
lowers an available amount. -/
theorem available_covered {s : Stellar} {c : Site} (hc : c.sessions = [])
    (hb : ∀ u b, c.world.db.balances.lookup u = some b → 0 ≤ b.availableAmount) (hr : c.world.db.RowsNonneg)
    (as : List (PoolAction Job SiteAction WorkerError)) :
    (∀ u b, (c.after s as).world.world.db.balances.lookup u = some b → 0 ≤ b.availableAmount) ∧
      ∀ front a rest, as = front ++ a :: rest →
        (c.after s front).world.DebitsAlone (c.after s (front ++ [a])).world := by
  have h0 : BalancesOk c := by
    refine ⟨hb, hr, ?_, ?_, ?_⟩ <;> rw [hc]
    · exact fun _ _ _ h => nomatch h
    · exact fun _ _ h => nomatch h
    · exact fun _ _ _ _ h => nomatch h
  refine ⟨(Site.working_after h0 as).world.available, fun front a rest _ => ?_⟩
  have h := (Site.working_after (s := s) h0 front).debitsAlone a
  unfold Site.after
  rw [run_append]
  exact h

/-- Two requests of one client race for the balance; the second comes too late. -/
def sampleContention : List (PoolAction Job SiteAction WorkerError) :=
  [.env (.request (.createEscrow "client" sampleDto "key" sampleId)),
    .env (.request (.createEscrow "client" sampleDto "other" sampleOther)), .env (.advance 0),
    .env (.advance 1), .env (.advance 0), .env (.advance 1)] ++ List.replicate 5 (.env (.advance 0)) ++
    [.env (.advance 1)]

theorem sample_covered : (∀ u b, ((Site.start sampleWorld).after sampleStellar
      sampleContention).world.world.db.balances.lookup u = some b → 0 ≤ b.availableAmount) ∧
    ∀ front a rest, sampleContention = front ++ a :: rest →
      ((Site.start sampleWorld).after sampleStellar front).world.DebitsAlone
        ((Site.start sampleWorld).after sampleStellar (front ++ [a])).world :=
  available_covered rfl
    (Store.forall_insert (by decide) (Store.forall_insert (by decide) (Store.forall_insert (by decide) nofun)))
    (fun _ _ h => by cases h) sampleContention

/-! ## Half a millionth -/

theorem half_pos_amount : (0 : ℚ) < 1 / 20000 := by norm_num

/-- Amount and fee come to 50.5 millionths. -/
def sampleHalf : CreateEscrowDto := { sampleDto with amount := 1 / 20000, amount_pos := half_pos_amount }

def sampleHalfRun : List (PoolAction Job SiteAction WorkerError) :=
  .env (.request (.createEscrow "client" sampleHalf "key" sampleId)) :: List.replicate 6 (.env (.advance 0))

theorem debit_rounds : ¬ ∀ (front : List (PoolAction Job SiteAction WorkerError)) a n x b b',
    ((Site.start sampleWorld).after sampleStellar front).world.Commits
      ((Site.start sampleWorld).after sampleStellar (front ++ [a])).world n x →
    ((Site.start sampleWorld).after sampleStellar front).world.world.db.balances.lookup x.clientId = some b →
    ((Site.start sampleWorld).after sampleStellar (front ++ [a])).world.world.db.balances.lookup x.clientId =
    some b' → (b'.availableAmount : ℚ) = b.availableAmount - x.debit := by
  intro h
  have hx : (((Site.start sampleWorld).after sampleStellar sampleHalfRun).world.sessions[0]?).map
      (fun x => (x.clientId, x.dto.amount, x.stage)) = some ("client", 1 / 20000, .enqueued) := by
        decide +kernel
  have hc : (((Site.start sampleWorld).after sampleStellar
      (sampleHalfRun ++ [.env (.advance 0)])).world.sessions[0]?).map (·.stage) = some .committed := by
        decide +kernel
  have hb :
    (((Site.start sampleWorld).after sampleStellar sampleHalfRun).world.world.db.balances.lookup "client").map
      (·.availableAmount) = some 1000 := by decide +kernel
  have hb' : (((Site.start sampleWorld).after sampleStellar
      (sampleHalfRun ++ [.env (.advance 0)])).world.world.db.balances.lookup "client").map (·.availableAmount) =
      some 950 := by decide +kernel
  obtain ⟨x, hx, he⟩ := Option.map_eq_some_iff.mp hx
  simp only [Prod.mk.injEq] at he
  obtain ⟨hclient, hamount, hstage⟩ := he
  obtain ⟨b, hb, ha⟩ := Option.map_eq_some_iff.mp hb
  obtain ⟨b', hb', ha'⟩ := Option.map_eq_some_iff.mp hb'
  have heq := h sampleHalfRun _ 0 x b b' ⟨hx, by rw [hstage]; exact nofun, hc⟩ (hclient ▸ hb) (hclient ▸ hb')
  simp only [Session.debit, EscrowService.totalDebitOf, EscrowService.feeOf, hamount] at heq
  change b.availableAmount = 1000 at ha
  change b'.availableAmount = 950 at ha'
  rw [ha, ha'] at heq
  norm_num at heq

end NexusHub
