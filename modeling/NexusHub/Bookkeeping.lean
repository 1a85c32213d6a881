import NexusHub.Locking

/-!
# The balances and their entries

A balance is written by `createEscrow`, from a value it read, and by the worker,
by increments. However these interleave no write is lost and none is made twice:
each balance is what it was plus the entries of the transactions that went
through, and its version counts the locks among them.
-/

namespace NexusHub

/-! ## Lists in which one member changes -/

section
variable {α : Type} {p : α → Bool} {a b : α}

theorem filter_set_of_not (ha : p a = false) (hb : p b = false) :
    ∀ {l : List α} {n : Nat}, l[n]? = some a → (l.set n b).filter p = l.filter p
  | [], _, h => by cases h
  | c :: l, 0, h => by
    cases h
    simp [ha, hb]
  | c :: l, n + 1, h => by
    rw [List.set_cons_succ, List.filter_cons, List.filter_cons, filter_set_of_not ha hb (l := l) (n := n) h]

theorem filter_set_perm (ha : p a = false) (hb : p b = true) :
    ∀ {l : List α} {n : Nat}, l[n]? = some a → ((l.set n b).filter p).Perm (b :: l.filter p)
  | [], _, h => by cases h
  | c :: l, 0, h => by
    cases h
    simp [ha, hb]
  | c :: l, n + 1, h => by
    have ih := filter_set_perm ha hb (l := l) (n := n) h
    rw [List.set_cons_succ, List.filter_cons, List.filter_cons]
    split
    · exact (ih.cons c).trans (.swap b c _)
    · exact ih

end

/-- A field that carries a sum goes on doing so when an update adds to it. -/
theorem map_add {α M : Type} [AddSemigroup M] {o o₀ : Option α} {f : α → M} {sum a : M}
    (h : o.map f = o₀.map fun b => f b + sum) {g : α → α} (hg : ∀ b, o = some b → f (g b) = f b + a) :
    (o.map g).map f = o₀.map fun b => f b + (sum + a) := by
  cases o with
  | none =>
    cases o₀ with
    | none => rfl
    | some b₀ => cases h
  | some b =>
    cases o₀ with
    | none => cases h
    | some b₀ =>
      have hb : f b = f b₀ + sum := Option.some.inj h
      exact congrArg some (by rw [hg b rfl, hb, add_assoc])

/-! ## Entries -/

section
variable {ms ms' : List BalanceMove} (u : UserId)

theorem availableOf_append : availableOf (ms ++ ms') u = availableOf ms u + availableOf ms' u := by
  simp [availableOf]

theorem reservedOf_append : reservedOf (ms ++ ms') u = reservedOf ms u + reservedOf ms' u := by
  simp [reservedOf]

theorem availableOf_perm (h : ms.Perm ms') : availableOf ms u = availableOf ms' u := (h.map _).sum_eq

theorem reservedOf_perm (h : ms.Perm ms') : reservedOf ms u = reservedOf ms' u := (h.map _).sum_eq

end

/-- All the money of the users, available or reserved. -/
def Db.money (db : Db) : Int := Store.total db.balances fun b => b.availableAmount + b.reservedAmount

def BalanceMove.net (m : BalanceMove) : Int := m.available + m.reserved

theorem total_applyMove {balances : Store UserId Balance} {m : BalanceMove} (h : (balances.lookup m.user).isSome) :
    Store.total (applyMove balances m) (fun b => b.availableAmount + b.reservedAmount) =
      Store.total balances (fun b => b.availableAmount + b.reservedAmount) + m.net := by
  obtain ⟨b, hb⟩ := Option.isSome_iff_exists.mp h
  have htot := Store.total_update hb (b.increment m.available m.reserved)
    fun b => b.availableAmount + b.reservedAmount
  rw [applyMove_of_lookup hb]
  simp only [Balance.increment, BalanceMove.net] at htot ⊢
  omega

theorem total_applyMoves {ms : List BalanceMove} : ∀ {balances : Store UserId Balance},
    (∀ m ∈ ms, (balances.lookup m.user).isSome) →
    Store.total (ms.foldl applyMove balances) (fun b => b.availableAmount + b.reservedAmount) =
      Store.total balances (fun b => b.availableAmount + b.reservedAmount) + (ms.map BalanceMove.net).sum := by
  induction ms with
  | nil => simp
  | cons m ms ih =>
    intro balances h
    have hrest : ∀ m' ∈ ms, ((applyMove balances m).lookup m'.user).isSome := by
      intro m' hm'
      rw [isSome_applyMove]
      exact h m' (List.mem_cons_of_mem m hm')
    rw [List.foldl_cons, ih hrest, total_applyMove (h m (List.mem_cons_self ..)), List.map_cons, List.sum_cons,
      add_assoc]

/-- What the commit of a session adds to its client's balance. -/
def Session.lockMove (x : Session) : BalanceMove where
  user := x.clientId
  available := -⌈x.debit - 1 / 2⌉
  reserved := toColumn x.dto.amount

/-- The amount comes to whole millionths. -/
def Session.Whole (x : Session) : Prop := ∃ m : Int, x.dto.amount * 10 ^ 6 = m

theorem lockBalance_debits {x : Session} {b : Balance} (h : x.debit ≤ b.availableAmount) :
    (EscrowService.lockBalance x.dto.amount b).availableAmount = b.availableAmount + x.lockMove.available := by
  change roundHalfAway (b.availableAmount - x.debit) = b.availableAmount + -⌈x.debit - 1 / 2⌉
  rw [roundHalfAway_of_nonneg (by linarith), ← Int.floor_neg]
  have he : (b.availableAmount : ℚ) - x.debit + 1 / 2 = b.availableAmount + -(x.debit - 1 / 2) := by ring
  rw [he, Int.floor_intCast_add]

theorem lockBalance_reserves {x : Session} {b : Balance} (h : x.Whole) :
    (EscrowService.lockBalance x.dto.amount b).reservedAmount = b.reservedAmount + x.lockMove.reserved := by
  obtain ⟨m, hm⟩ := h
  change roundHalfAway (b.reservedAmount + x.dto.amount * 10 ^ 6) =
    b.reservedAmount + roundHalfAway (x.dto.amount * 10 ^ 6)
  rw [hm, ← Int.cast_add, roundHalfAway_intCast, roundHalfAway_intCast]

namespace Site

/-- The sessions that have committed. -/
def locks (c : Site) : List Session := c.sessions.filter (·.stage = .committed)

/-- All entries made to the balances: the worker's and those of `createEscrow`. -/
def entries (c : Site) : List BalanceMove := c.world.commits.flatMap DbTx.moves ++ c.locks.map Session.lockMove

/-- The balances are those of `db₀` with the entries made since. -/
structure Booked (db₀ : Db) (c : Site) : Prop where
  available : ∀ u, (c.world.db.balances.lookup u).map (·.availableAmount) =
    (db₀.balances.lookup u).map fun b => b.availableAmount + availableOf c.entries u
  reserved : (∀ x ∈ c.sessions, x.Whole) → ∀ u, (c.world.db.balances.lookup u).map (·.reservedAmount) =
    (db₀.balances.lookup u).map fun b => b.reservedAmount + reservedOf c.entries u
  version : ∀ u, (c.world.db.balances.lookup u).map (·.version) =
    (db₀.balances.lookup u).map fun b => b.version + c.locks.countP (·.clientId = u)
  money : (∀ x ∈ c.sessions, x.Whole) → c.world.db.money = db₀.money + (c.entries.map BalanceMove.net).sum

variable {db₀ : Db} {c c' : Site}

/-! ## Steps that make no entry -/

theorem Booked.of_same (h : Booked db₀ c) (hb : c'.world.db.balances = c.world.db.balances)
    (hcom : c'.world.commits = c.world.commits) (hl : c'.locks = c.locks)
    (hw : (∀ x ∈ c'.sessions, x.Whole) → ∀ x ∈ c.sessions, x.Whole) : Booked db₀ c' := by
  have he : c'.entries = c.entries := by rw [entries, entries, hcom, hl]
  refine ⟨fun u => ?_, fun hwhole u => ?_, fun u => ?_, fun hwhole => ?_⟩
  · rw [hb, he]; exact h.available u
  · rw [hb, he]; exact h.reserved (hw hwhole) u
  · rw [hb, hl]; exact h.version u
  · rw [Db.money, hb, he]; exact h.money (hw hwhole)

theorem env_commits (s : Stellar) (c : Site) (a : SiteAction) : (c.env s a).world.commits = c.world.commits := by
  have hreq (r : Request) : (c.world.request r).commits = c.world.commits := by
    unfold World.request
    cases r.serve c.world.db <;> rfl
  cases a with
  | ledger a => rfl
  | drop n => rfl
  | request r =>
    change (c.request r).world.commits = c.world.commits
    unfold request
    cases r.guards c.world.db with
    | error e => rfl
    | ok u =>
      cases r with
      | createEscrow | openDispute | resolveDispute | setUnderReview => simp only; split <;> rfl
      | releaseEscrow | refundEscrow | approveRelease | completeMilestone | claimExpired => exact hreq _
  | advance n =>
    change (c.advance n).world.commits = c.world.commits
    unfold advance
    cases c.sessions[n]? with
    | none => rfl
    | some x =>
      have hmoved {w : World} {st : Stage} (h : x.Moves c w st) : w.commits = c.world.commits := by
        cases h <;> rfl
      rcases c.next_cases x with h | h
      · simp only [h]; rfl
      · exact hmoved h
  | abort n =>
    change (c.abort n).world.commits = c.world.commits
    unfold abort
    cases c.sessions[n]? with
    | none => rfl
    | some x => simp only; split <;> rfl
  | write n =>
    change (c.write n).world.commits = c.world.commits
    unfold write
    cases c.writes[n]? with
    | none => rfl
    | some d => simp only; split <;> rfl

/-! ## Steps that make entries -/

theorem locks_put {n : Nat} {x : Session} {w : World} {st : Stage} (hx : c.sessions[n]? = some x)
    (hold : x.stage ≠ .committed) (hnew : st ≠ .committed) : (c.put n x (w, st)).locks = c.locks :=
  filter_set_of_not (by simpa using hold) (by simpa using hnew) hx

theorem locks_committed {n : Nat} {x : Session} {w : World} (hx : c.sessions[n]? = some x)
    (hold : x.stage ≠ .committed) :
    (c.put n x (w, .committed)).locks.Perm ({ x with stage := .committed } :: c.locks) :=
  filter_set_perm (by simpa using hold) (by simp) hx

theorem whole_put {n : Nat} {x : Session} {w : World} {st : Stage} (hx : c.sessions[n]? = some x)
    (hw : ∀ y ∈ (c.put n x (w, st)).sessions, y.Whole) : ∀ y ∈ c.sessions, y.Whole := by
  intro y hy
  obtain ⟨m, hm⟩ := List.mem_iff_getElem?.mp hy
  by_cases hmn : n = m
  · subst hmn
    cases hx.symm.trans hm
    obtain ⟨hlt, -⟩ := List.getElem?_eq_some_iff.mp hx
    exact hw { x with stage := st } (List.mem_of_getElem? (List.getElem?_set_self hlt))
  · exact hw y (List.mem_of_getElem? ((List.getElem?_set_ne hmn).trans hm))

theorem Booked.commit (h : Booked db₀ c) (hok : BalancesOk c) {n : Nat} {x : Session} {db : Db}
    (hx : c.sessions[n]? = some x) (hst : x.stage = .enqueued) (ha : x.apply c.world.db = .ok db) :
    Booked db₀ (c.put n x ({ c.world with db }, .committed)) := by
  have hlocks := locks_committed (w := { c.world with db }) hx (by rw [hst]; exact Stage.noConfusion)
  have hentries : (c.put n x ({ c.world with db }, .committed)).entries.Perm (c.entries ++ [x.lockMove]) := by
    refine ((hlocks.map Session.lockMove).append_left _).trans ?_
    rw [entries, List.append_assoc]
    exact (List.perm_append_singleton _ _).symm.append_left _
  obtain ⟨b₀, hb₀, -, -, -, -, rfl⟩ := Session.apply_ok.mp ha
  have hcov := hok.held n x hx (by rw [hst]; exact .inr (.inr (.inr rfl))) b₀ hb₀
  have hlook (u : UserId) :
      (c.world.db.balances.insert x.clientId (EscrowService.lockBalance x.dto.amount b₀)).lookup u =
        (c.world.db.balances.lookup u).map fun b =>
          if u = x.clientId then EscrowService.lockBalance x.dto.amount b else b := by
    rw [Store.lookup_insert']
    by_cases hu : u = x.clientId
    · subst hu
      simp [hb₀]
    · simp [hu]
  refine ⟨fun u => ?_, fun hw u => ?_, fun u => ?_, fun hw => ?_⟩
  · rw [availableOf_perm u hentries, availableOf_append]
    refine (congrArg _ (hlook u)).trans (map_add (h.available u) fun b hb => ?_)
    by_cases hu : u = x.clientId
    · subst hu
      cases hb₀.symm.trans hb
      simpa [availableOf, Session.lockMove] using lockBalance_debits hcov
    · simp [availableOf, Session.lockMove, hu]
  · rw [reservedOf_perm u hentries, reservedOf_append]
    have hwhole := whole_put hx hw
    refine (congrArg _ (hlook u)).trans (map_add (h.reserved hwhole u) fun b hb => ?_)
    by_cases hu : u = x.clientId
    · simpa [reservedOf, Session.lockMove, hu] using lockBalance_reserves (hwhole x (List.mem_of_getElem? hx))
    · simp [reservedOf, Session.lockMove, hu]
  · rw [hlocks.countP_eq, List.countP_cons]
    refine (congrArg _ (hlook u)).trans (map_add (h.version u) fun b hb => ?_)
    by_cases hu : u = x.clientId
    · simp [EscrowService.lockBalance, hu]
    · have hu' : ¬ x.clientId = u := fun he => hu he.symm
      simp [hu, hu']
  · have hwhole := whole_put hx hw
    have htot := Store.total_update hb₀ (EscrowService.lockBalance x.dto.amount b₀)
      fun b => b.availableAmount + b.reservedAmount
    rw [lockBalance_debits hcov, lockBalance_reserves (hwhole x (List.mem_of_getElem? hx))] at htot
    have h0 := h.money hwhole
    rw [(hentries.map BalanceMove.net).sum_eq, List.map_append, List.sum_append]
    simp only [Db.money, put, BalanceMove.net, List.map_cons, List.map_nil, List.sum_cons, List.sum_nil] at h0 htot ⊢
    omega

theorem Booked.transact (h : Booked db₀ c) {tx : DbTx} {w : World} (hc : c.world.Committed tx w) :
    Booked db₀ { c with world := w } := by
  have hbal : w.db.balances = tx.moves.foldl applyMove c.world.db.balances := (DbTx.apply_ok hc.db).1.balances
  have hentries : ({ c with world := w } : Site).entries.Perm (c.entries ++ tx.moves) := by
    simp only [entries, hc.commits, List.flatMap_append, List.flatMap_cons, List.flatMap_nil, List.append_nil,
      List.append_assoc, locks]
    exact List.perm_append_comm.append_left _
  refine ⟨fun u => ?_, fun hw u => ?_, fun u => ?_, fun hw => ?_⟩
  · rw [availableOf_perm u hentries, availableOf_append, hbal, lookup_applyMoves]
    exact map_add (h.available u) fun b _ => rfl
  · rw [reservedOf_perm u hentries, reservedOf_append, hbal, lookup_applyMoves]
    exact map_add (h.reserved hw u) fun b _ => rfl
  · rw [hbal, lookup_applyMoves]
    exact map_add (a := 0) (h.version u) fun b _ => rfl
  · have hrows : ∀ m ∈ tx.moves, (c.world.db.balances.lookup m.user).isSome := by
      by_cases hf : ∃ id, tx = .failLocks id
      · obtain ⟨id, rfl⟩ := hf
        exact List.forall_mem_nil _
      · exact ((DbTx.apply_ok hc.db).2 fun id h => hf ⟨id, h⟩).balances
    have h0 := h.money hw
    rw [(hentries.map BalanceMove.net).sum_eq, List.map_append, List.sum_append, Db.money, hbal,
      total_applyMoves hrows, ← Db.money, h0, add_assoc]

theorem locks_moved {n : Nat} {x : Session} {w : World} {st : Stage} (hx : c.sessions[n]? = some x)
    (hm : x.Moves c w st) (hst : st ≠ .committed) : (c.put n x (w, st)).locks = c.locks := by
  refine locks_put hx ?_ hst
  cases hm with
  | ended hopen => exact fun h => hopen (.inl h)
  | committed => exact absurd rfl hst
  | _ => simp_all

theorem Booked.env (h : Booked db₀ c) (hok : BalancesOk c) (s : Stellar) (a : SiteAction) :
    Booked db₀ (c.env s a) := by
  have hcom := env_commits s c a
  have hstep := c.env_stepped s a
  generalize c.env s a = c' at hcom hstep
  cases hstep with
  | idle | ledger | guarded | dropped => exact h.of_same rfl rfl rfl fun hw => hw
  | asked _ hdb _ _ => exact h.of_same (by rw [hdb]) hcom rfl fun hw => hw
  | written _ ha _ _ => exact h.of_same (DisputeWrite.apply_ok ha).balances hcom rfl fun hw => hw
  | @begun x hx _ =>
    refine h.of_same rfl rfl ?_ fun hw y hy => hw y (List.mem_append_left _ hy)
    simp [locks, List.filter_append, hx]
  | @moved n x w st hx hm =>
    by_cases hst : st = .committed
    · subst hst
      cases hm with
      | committed hx' ha => exact h.commit hok hx hx' ha
    · refine h.of_same ?_ hcom (locks_moved hx hm hst) (whole_put hx)
      cases hm with
      | committed => exact absurd rfl hst
      | _ => rfl

theorem Booked.perform (h : Booked db₀ c) {s : Stellar} (o : Op) : Booked db₀ ((site s).perform c o).1 := by
  rcases perform_cases s c o with hp | hp
  · rw [hp]
    rcases World.perform_cases s c.world o with hs | ⟨tx, rfl, hc⟩ | ⟨_, _, _, _, rfl, -, hc⟩
    · exact h.of_same (by rw [hs.db]) hs.commits rfl fun hw => hw
    · exact h.transact hc
    · exact h.of_same (by rw [hc.db]) hc.commits rfl fun hw => hw
  · rw [hp]; exact h

theorem booked_after {s : Stellar} {c : Site} (hc : c.sessions = []) (hcom : c.world.commits = [])
    (hb : ∀ u b, c.world.db.balances.lookup u = some b → 0 ≤ b.availableAmount) (hr : c.world.db.RowsNonneg)
    (as : List (PoolAction Job SiteAction WorkerError)) : (c.after s as).world.Booked c.world.db := by
  have h0 : BalancesOk c := by
    refine ⟨hb, hr, ?_, ?_, ?_⟩ <;> rw [hc]
    · exact fun _ _ _ h => by cases h
    · exact fun _ _ h => by cases h
    · exact fun _ _ _ _ h => by cases h
  have hentries : c.entries = [] := by simp [entries, locks, hc, hcom]
  have hbooked : Booked c.world.db c := by
    refine ⟨fun u => ?_, fun _ u => ?_, fun u => ?_, fun _ => ?_⟩
    · simp [hentries, availableOf]
    · simp [hentries, reservedOf]
    · simp [locks, hc]
    · simp [hentries]
  have hop (c' : Site) (o : Op) (h : BalancesOk c' ∧ c'.Booked c.world.db) (ho : ∃ id, c'.world.Draws id o) :
      BalancesOk ((site s).perform c' o).1 ∧ ((site s).perform c' o).1.Booked c.world.db := by
    obtain ⟨id, ho⟩ := ho
    exact ⟨h.1.of_perform ho, h.2.perform o⟩
  have hkeeps : (c.after s as).Keeps (site s) _ _ _ := pool_keeps
    (I := fun c' => BalancesOk c' ∧ c'.Booked c.world.db) (site_keeps s)
    (fun j _ _ => (site_safe (draws_process j)).imp (fun _ _ h => h) fun _ _ ho => ⟨j.escrowId, ho⟩)
    (fun c a h => ⟨h.1.of_stepped (c.env_stepped s a), h.2.env h.1 s a⟩) hop (c := ⟨c, []⟩)
    ⟨⟨h0, hbooked⟩, fun _ h => absurd h List.not_mem_nil⟩ as
  exact hkeeps.world.2

end Site

/-! ## Whose money it is -/

/-- The fee of a lock, given back by the compensation of the funding it was for. -/
def Session.feeTaken (x : Session) : Int := ⌈x.debit - 1 / 2⌉ - toColumn x.dto.amount

def DbTx.feeReturned : DbTx → Int
  | compensate _ _ _ fee => fee
  | _ => 0

/-- A settlement moves money from one user to another. -/
theorem moves_net (tx : DbTx) : (tx.moves.map BalanceMove.net).sum = tx.feeReturned := by
  cases tx with
  | compensate id u amount fee =>
    simp only [DbTx.moves, DbTx.feeReturned, BalanceMove.net, List.map_cons, List.map_nil, List.sum_cons,
      List.sum_nil]
    omega
  | approve id e u role clientApproved freelancerApproved txHash =>
    simp only [DbTx.moves, DbTx.feeReturned]
    split <;> simp [BalanceMove.net]
  | _ => simp [DbTx.moves, DbTx.feeReturned, BalanceMove.net]

theorem Site.entries_net (c : Site) : (c.entries.map BalanceMove.net).sum =
    (c.world.commits.map DbTx.feeReturned).sum - (c.locks.map Session.feeTaken).sum := by
  have hcommits : ∀ txs : List DbTx, ((txs.flatMap DbTx.moves).map BalanceMove.net).sum =
      (txs.map DbTx.feeReturned).sum := by
    intro txs
    induction txs with
    | nil => rfl
    | cons tx txs ih =>
      rw [List.flatMap_cons, List.map_append, List.sum_append, ih, moves_net, List.map_cons, List.sum_cons]
  have hlocks : ∀ xs : List Session, ((xs.map Session.lockMove).map BalanceMove.net).sum =
      -(xs.map Session.feeTaken).sum := by
    intro xs
    induction xs with
    | nil => rfl
    | cons x xs ih =>
      simp only [List.map_cons, List.sum_cons, ih, BalanceMove.net, Session.lockMove, Session.feeTaken]
      omega
  rw [Site.entries, List.map_append, List.sum_append, hcommits, hlocks]
  omega

/-! ## Main results -/

section
variable {s : Stellar} {c : Site} (hc : c.sessions = []) (hcom : c.world.commits = [])
  (hb : ∀ u b, c.world.db.balances.lookup u = some b → 0 ≤ b.availableAmount) (hr : c.world.db.RowsNonneg)
  (as : List (PoolAction Job SiteAction WorkerError))
include hc hcom hb hr

/-- However requests and workers interleave, crash and repeat, each balance is the
one at the start plus the entries of the worker's commits and of the committed
`createEscrow`s, and its version counts the latter. -/
theorem no_update_lost : (c.after s as).world.Booked c.world.db := Site.booked_after hc hcom hb hr as

/-- The users together lose the fees of the locks and get back those of the
compensations; whatever else is settled, money only changes hands. -/
theorem books_balance (hwhole : ∀ x ∈ (c.after s as).world.sessions, x.Whole) :
    (c.after s as).world.world.db.money + ((c.after s as).world.locks.map Session.feeTaken).sum =
      c.world.db.money + ((c.after s as).world.world.commits.map DbTx.feeReturned).sum := by
  have hbook := (Site.booked_after (s := s) hc hcom hb hr as).money hwhole
  rw [Site.entries_net] at hbook
  omega

end

theorem sample_no_update_lost : ((Site.start sampleWorld).after sampleStellar
    sampleContention).world.Booked sampleWorld.db :=
  no_update_lost (c := Site.start sampleWorld) rfl rfl
    (Store.forall_insert (by decide) (Store.forall_insert (by decide) (Store.forall_insert (by decide)
      fun _ _ h => by cases h))) (fun _ _ h => by cases h) sampleContention

theorem sample_books_balance : ((Site.start sampleWorld).after sampleStellar sampleContention).world.world.db.money +
      (((Site.start sampleWorld).after sampleStellar sampleContention).world.locks.map Session.feeTaken).sum =
    sampleWorld.db.money + (((Site.start sampleWorld).after sampleStellar
      sampleContention).world.world.commits.map DbTx.feeReturned).sum := by
  refine books_balance (c := Site.start sampleWorld) rfl rfl
    (Store.forall_insert (by decide) (Store.forall_insert (by decide) (Store.forall_insert (by decide)
      fun _ _ h => by cases h))) (fun _ _ h => by cases h) sampleContention ?_
  have hamounts : ((Site.start sampleWorld).after sampleStellar sampleContention).world.sessions.map
      (fun x => x.dto.amount) = [1 / 10000, 1 / 10000] := by decide +kernel
  intro x hx
  have hmem := List.mem_map_of_mem (f := fun x : Session => x.dto.amount) hx
  rw [hamounts] at hmem
  have hamount : x.dto.amount = 1 / 10000 := by simpa using hmem
  exact ⟨100, by rw [hamount]; norm_num⟩

end NexusHub
