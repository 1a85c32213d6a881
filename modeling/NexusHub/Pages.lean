import NexusHub.Pagination
import NexusHub.Reads
import NexusHub.Trail

/-!
# Page after page

The lists of escrows, of disputes and of transactions are read page by page,
latest first, each page in a query of its own. The platform goes on between the
queries. Whoever reads on to the last page sees all that was there when the
reading began, as long as no two rows of the list are of one instant.
-/

namespace NexusHub

/-! ## The other lists -/

structure TransactionColumns where
  id : String
  currency : String
  createdAt : Nat
  deriving DecidableEq

structure Books extends Tables where
  transactionColumns : String → TransactionColumns

structure EscrowBrief where
  id : Uuid
  amount : Int
  status : EscrowStatus
  deriving DecidableEq

structure DisputeEntry where
  id : String
  dispute : Dispute
  columns : DisputeColumns
  escrow : EscrowBrief
  raisedBy : PartyName
  deriving DecidableEq

structure TransactionEntry where
  id : String
  type : TransactionType
  status : TransactionStatus
  amount : Int
  fee : Int
  currency : String
  description : String
  reference : Option TxHash
  createdAt : Nat
  deriving DecidableEq

/-- `pages` is null when there is nothing to divide by. -/
structure Page (β : Type) where
  data : List β
  total : Nat
  page : Int
  limit : Int
  pages : Option Int
  deriving DecidableEq

/-- `rows` are the selected ones as the database orders them, and `total` is what another query counts. -/
def paginate {ρ β : Type} (entry : ρ → Except ReadError β) (rows : List ρ) (total : Nat) (page limit : Int) :
    Except ReadError (Page β) := do
  if (page - 1) * limit < 0 then throw .negativeSkip
  let data ← (window ((page - 1) * limit).toNat limit rows).mapM entry
  return ⟨data, total, page, limit, pagesOf total limit⟩

namespace Books

variable (T : Books)

def disputeEntry (row : Sigma fun _ : String => Dispute) : Except ReadError DisputeEntry := do
  let raisedBy ← T.party row.2.raisedById
  match T.escrows.lookup row.2.escrowId with
  | some escrow =>
    return {
      id := row.1
      dispute := row.2
      columns := T.disputeColumns row.1
      escrow := ⟨row.2.escrowId, escrow.amount, escrow.status⟩
      raisedBy := ⟨raisedBy.id, raisedBy.firstName⟩ }
  | none => throw .inconsistent

def transactionEntry (row : Sigma fun _ : String => Transaction) : Except ReadError TransactionEntry :=
  let columns := T.transactionColumns row.1
  return {
    id := columns.id
    type := row.2.type
    status := row.2.status
    amount := row.2.amount
    fee := row.2.fee
    currency := columns.currency
    description := row.2.description
    reference := row.2.reference
    createdAt := columns.createdAt }

def listEscrows (rows : List (Sigma fun _ : Uuid => Escrow)) (total : Nat) (page limit : Int) :
    Except ReadError (Page EscrowSummary) :=
  paginate T.summary rows total page limit

def listDisputes (rows : List (Sigma fun _ : String => Dispute)) (total : Nat) (page limit : Int) :
    Except ReadError (Page DisputeEntry) :=
  paginate T.disputeEntry rows total page limit

def getTransactionHistory (rows : List (Sigma fun _ : String => Transaction)) (total : Nat) (page limit : Int) :
    Except ReadError (Page TransactionEntry) :=
  paginate T.transactionEntry rows total page limit

def listedDispute (userId : UserId) (role : UserRole) (d : Dispute) : Bool := role = .admin ∨ d.raisedById = userId

def inHistory (userId : UserId) (type : Option TransactionType) (t : Transaction) : Bool :=
  t.userId = userId ∧ ∀ y ∈ type, t.type = y

end Books

/-- The rows that a query selects, the latest first; nothing is said about rows of one instant. -/
def Store.Orders {κ ν : Type} [DecidableEq κ] (s : Store κ ν) (selects : ν → Bool) (createdAt : κ → Nat)
    (rows : List (Sigma fun _ : κ => ν)) : Prop :=
  (rows : Multiset (Sigma fun _ : κ => ν)) = s.rows selects ∧
    rows.Pairwise fun x y => createdAt y.1 ≤ createdAt x.1

/-- When nothing happens between the two queries, the answer is that of `Tables.listEscrows`. -/
theorem listEscrows_at_once (T : Books) (rows : List (Sigma fun _ : Uuid => Escrow)) (page limit : Int) :
    (T.listEscrows rows rows.length page limit).map (fun p => (⟨p.data, p.total, p.page, p.limit, p.pages⟩ :
      EscrowPage)) = T.toTables.listEscrows rows page limit := by
  unfold Books.listEscrows paginate Tables.listEscrows
  by_cases hskip : (page - 1) * limit < 0
  · simp only [if_pos hskip]
    rfl
  · simp only [if_neg hskip]
    cases (window ((page - 1) * limit).toNat limit rows).mapM T.summary <;> rfl

/-! ## Readers -/

/-- From page `k` on, until the last one that an answer speaks of. `May c e` is an answer with its rows read in
`c` and counted in `e`, in whatever order; in the last one the rows are counted last. `Grow` happens between. -/
inductive Reader {σ β : Type} (Grow : σ → σ → Prop) (May : σ → σ → Int → Page β → Prop) :
    Int → σ → List (Page β) → σ → Prop where
  | last {k : Int} {c d : σ} {p : Page β} (hp : May c d k p) (hend : ∀ n ∈ p.pages, n ≤ k) (hgrow : Grow c d) :
      Reader Grow May k c [p] d
  | more {k : Int} {c e c' d : σ} {p : Page β} {ps : List (Page β)} (hp : May c e k p)
      (hmore : ∀ n ∈ p.pages, k < n) (hgrow : Grow c c') (hcount : Grow e c')
      (rest : Reader Grow May (k + 1) c' ps d) : Reader Grow May k c (p :: ps) d

/-- What is listed at the start is shown, the latest first, and what is shown is listed in the end. What is shown
twice does not outnumber what came meanwhile. -/
structure ShowsAll {κ Λ : Type} (start final : Multiset κ) (createdAt : κ → Nat) (label : κ → Λ)
    (shown : List Λ) : Prop where
  all : ∃ l : List κ, (l : Multiset κ) = start ∧ (l.Pairwise fun x y => createdAt y < createdAt x) ∧
    (l.map label).Sublist shown
  listed : ∀ x ∈ shown, ∃ k ∈ final, label k = x
  count : shown.length ≤ final.card

/-- Without arrivals everything is shown once, in its order. -/
theorem ShowsAll.exactly {κ Λ : Type} {start final : Multiset κ} {createdAt : κ → Nat} {label : κ → Λ}
    {shown : List Λ} (h : ShowsAll start final createdAt label shown) (hcard : final.card = start.card) :
    ∃ l : List κ, (l : Multiset κ) = start ∧ (l.Pairwise fun x y => createdAt y < createdAt x) ∧
      shown = l.map label := by
  obtain ⟨l, hl, hsorted, hsub⟩ := h.all
  have hlength : shown.length ≤ (l.map label).length := by
    rw [List.length_map, ← Multiset.coe_card l, hl, ← hcard]
    exact h.count
  exact ⟨l, hl, hsorted, (hsub.eq_of_length_le hlength).symm⟩

theorem window_eq_pageOf {α : Type} {limit : Int} (hlimit : 0 < limit) (k : Nat) (rows : List α) :
    window (((k : Int) + 1 - 1) * limit).toNat limit rows = pageOf limit.toNat k rows := by
  have hskip : (((k : Int) + 1 - 1) * limit).toNat = k * limit.toNat := by
    obtain ⟨n, rfl⟩ := Int.eq_ofNat_of_zero_le (Int.le_of_lt hlimit)
    rw [Int.add_sub_cancel, ← Int.natCast_mul, Int.toNat_natCast, Int.toNat_natCast]
  rw [window, if_pos (Int.le_of_lt hlimit), hskip, pageOf]

theorem mapM_labels {ε ρ β Λ : Type} {entry : ρ → Except ε β} {label : ρ → Λ} {labelOf : β → Λ} :
    ∀ {rows : List ρ} {data : List β}, rows.mapM entry = .ok data →
      (∀ r ∈ rows, ∀ b, entry r = .ok b → labelOf b = label r) → data.map labelOf = rows.map label
  | [], data, h, _ => by cases h; rfl
  | r :: rows, data, h, hl => by
    rw [List.mapM_cons] at h
    cases hr : entry r with
    | error e => rw [hr] at h; cases h
    | ok b =>
      cases hrows : rows.mapM entry with
      | error e => rw [hr, hrows] at h; cases h
      | ok data' =>
        rw [hr, hrows] at h
        cases h
        rw [List.map_cons, List.map_cons, hl r (.head _) b hr, mapM_labels hrows fun r' hr' => hl r' (.tail _ hr')]

theorem pagesOf_le (total : Nat) {limit k : Int} (hlimit : 0 < limit) :
    (∀ n ∈ pagesOf total limit, n ≤ k) ↔ (total : Int) ≤ k * limit := by
  have hpos : (0 : ℚ) < limit := by exact_mod_cast hlimit
  simp only [pagesOf, if_neg (ne_of_gt hlimit), Option.mem_some_iff, forall_eq']
  rw [Int.ceil_le, div_le_iff₀ hpos]
  exact_mod_cast Iff.rfl

theorem lt_pagesOf (total : Nat) {limit k : Int} (hlimit : 0 < limit) :
    (∀ n ∈ pagesOf total limit, k < n) ↔ k * limit < total := by
  have h := pagesOf_le total (k := k) hlimit
  simp only [pagesOf, if_neg (ne_of_gt hlimit), Option.mem_some_iff, forall_eq'] at h ⊢
  rw [← not_le, h, not_le]

theorem paginate_ok {ρ β : Type} {entry : ρ → Except ReadError β} {rows : List ρ} {total k : Nat} {limit : Int}
    {p : Page β} (hlimit : 0 < limit) (h : paginate entry rows total (k + 1) limit = .ok p) :
    (pageOf limit.toNat k rows).mapM entry = .ok p.data ∧ p.pages = pagesOf total limit := by
  have hskip : ¬ ((k : Int) + 1 - 1) * limit < 0 := by
    rw [Int.add_sub_cancel]
    exact Int.not_lt.mpr (Int.mul_nonneg (Int.natCast_nonneg k) (Int.le_of_lt hlimit))
  rw [paginate, if_neg hskip, window_eq_pageOf hlimit] at h
  cases hdata : (pageOf limit.toNat k rows).mapM entry with
  | error e => rw [hdata] at h; cases h
  | ok data =>
    rw [hdata] at h
    cases h
    exact ⟨rfl, rfl⟩

/-! ## A list under way -/

/-- A list that rows do not leave. Its answers are pages of the rows it selects, each row under its label. -/
structure Listing (σ κ ν β Λ : Type) [DecidableEq κ] where
  table : σ → Store κ ν
  selects : ν → Bool
  createdAt : κ → Nat
  label : κ → Λ
  labelOf : β → Λ
  limit : Int
  Grow : σ → σ → Prop
  May : σ → σ → Int → Page β → Prop
  stays : ∀ {c c' : σ}, Grow c c' → ∀ k v, (table c).lookup k = some v →
    ∃ v', (table c').lookup k = some v' ∧ selects v' = selects v
  answers : ∀ {c e : σ} {page : Int} {p : Page β}, May c e page p →
    ∃ (rows : List (Sigma fun _ : κ => ν)) (entry : (Sigma fun _ : κ => ν) → Except ReadError β),
      (table c).Orders selects createdAt rows ∧
      paginate entry rows ((table e).rows selects).card page limit = .ok p ∧
      ∀ r ∈ rows, ∀ b, entry r = .ok b → labelOf b = label r.1

section
variable {σ κ ν β Λ : Type} [DecidableEq κ] {L : Listing σ κ ν β Λ} {c c' d e : σ} {k : Int} {ps : List (Page β)}

namespace Listing

def keys (L : Listing σ κ ν β Λ) (c : σ) : Multiset κ := ((L.table c).rows L.selects).map Sigma.fst

/-- No two rows of the list are of one instant. -/
def Distinct (L : Listing σ κ ν β Λ) (c : σ) : Prop :=
  ∀ i ∈ L.keys c, ∀ j ∈ L.keys c, L.createdAt i = L.createdAt j → i = j

theorem mem_keys {i : κ} : i ∈ L.keys c ↔ ∃ v, (L.table c).lookup i = some v ∧ L.selects v := by
  simp only [keys, Multiset.mem_map, Store.mem_rows]
  constructor
  · rintro ⟨⟨i, v⟩, hv, rfl⟩
    exact ⟨v, hv⟩
  · intro ⟨v, hv⟩
    exact ⟨⟨i, v⟩, hv, rfl⟩

theorem keys_stay (h : L.Grow c c') {i : κ} (hi : i ∈ L.keys c) : i ∈ L.keys c' := by
  obtain ⟨v, hv, hsel⟩ := mem_keys.mp hi
  obtain ⟨v', hv', hsame⟩ := L.stays h i v hv
  exact mem_keys.mpr ⟨v', hv', by rw [hsame]; exact hsel⟩

theorem reader_keys (h : Reader L.Grow L.May k c ps d) {i : κ} (hi : i ∈ L.keys c) : i ∈ L.keys d := by
  induction h with
  | last _ _ hgrow => exact keys_stay hgrow hi
  | more _ _ hgrow _ _ ih => exact ih (keys_stay hgrow hi)

theorem nodup_keys (c : σ) : (L.keys c).Nodup := by
  refine Multiset.Nodup.map_on (fun x hx y hy hxy => ?_) ((L.table c).nodup_entries.filter _)
  have hx' := (Store.mem_rows.mp hx).1
  have hy' := (Store.mem_rows.mp hy).1
  rw [hxy, hy'] at hx'
  exact Sigma.ext hxy (heq_of_eq (Option.some.inj hx').symm)

/-- Without ties the database has no choice. -/
theorem strictly (hd : L.Distinct c) {l : List κ} (hl : (l : Multiset κ) = L.keys c)
    (hle : l.Pairwise fun x y => L.createdAt y ≤ L.createdAt x) :
    l.Pairwise fun x y => L.createdAt y < L.createdAt x := by
  have hnodup : l.Nodup := by
    rw [← Multiset.coe_nodup, hl]
    exact nodup_keys c
  have hmem (i : κ) (hi : i ∈ l) : i ∈ L.keys c := by
    rw [← hl]
    exact hi
  refine (hle.and hnodup).imp_of_mem fun {x y} hx hy hxy => ?_
  exact Nat.lt_of_le_of_ne hxy.1 fun heq => hxy.2 (hd x (hmem x hx) y (hmem y hy) heq.symm)

theorem exists_order (hd : L.Distinct c) : ∃ l : List κ, (l : Multiset κ) = L.keys c ∧
    l.Pairwise fun x y => L.createdAt y < L.createdAt x := by
  let later (x y : κ) : Prop := L.createdAt y ≤ L.createdAt x
  have htotal : Std.Total later := ⟨fun x y => Nat.le_total _ _⟩
  have htrans : IsTrans κ later := ⟨fun x y z h h' => Nat.le_trans h' h⟩
  have hl : (((L.keys c).toList.insertionSort later : List κ) : Multiset κ) = L.keys c := by
    rw [Multiset.coe_eq_coe.mpr (List.perm_insertionSort later _), Multiset.coe_toList]
  exact ⟨_, hl, strictly hd hl (List.pairwise_insertionSort later _)⟩

theorem card_keys_le (h : L.Grow c c') : (L.keys c).card ≤ (L.keys c').card :=
  Multiset.card_le_card ((Multiset.le_iff_subset (nodup_keys c)).mpr fun _ => keys_stay h)

theorem page (hlimit : 0 < L.limit) (hd : L.Distinct c) {n : Nat} {p : Page β} (hp : L.May c e (n + 1) p) :
    ∃ l : List κ, (l : Multiset κ) = L.keys c ∧ (l.Pairwise fun x y => L.createdAt y < L.createdAt x) ∧
      p.data.map L.labelOf = pageOf L.limit.toNat n (l.map L.label) ∧
      p.pages = pagesOf (L.keys e).card L.limit := by
  obtain ⟨rows, entry, horders, hok, hlabels⟩ := L.answers hp
  obtain ⟨hdata, hpages⟩ := paginate_ok hlimit hok
  have hkeys : (rows.map Sigma.fst : Multiset κ) = L.keys c := by rw [keys, ← horders.1, Multiset.map_coe]
  have hle : (rows.map Sigma.fst).Pairwise fun x y => L.createdAt y ≤ L.createdAt x :=
    List.pairwise_map.mpr horders.2
  refine ⟨rows.map Sigma.fst, hkeys, strictly hd hkeys hle, ?_, by rw [hpages, keys, Multiset.card_map]⟩
  rw [pageOf_map, pageOf_map, List.map_map]
  exact mapM_labels hdata fun r hr b hb => hlabels r (mem_of_mem_pageOf hr) b hb

theorem reads (hlimit : 0 < L.limit) (h : Reader L.Grow L.May k c ps d) (hd : L.Distinct d) :
    ∀ n : Nat, k = n + 1 → ∃ l m : List κ, (l : Multiset κ) = L.keys c ∧ (m : Multiset κ) = L.keys d ∧
      (l.Pairwise fun x y => L.createdAt y < L.createdAt x) ∧
      PageReads L.limit.toNat n (l.map L.label) (ps.map fun p => p.data.map L.labelOf) (m.map L.label) := by
  have hcast : (L.limit.toNat : Int) = L.limit := Int.toNat_of_nonneg (Int.le_of_lt hlimit)
  induction h with
  | @last k c d p hp hend hgrow =>
    rintro n rfl
    obtain ⟨l, hl, hsorted, hdata, hpages⟩ := page hlimit (fun i hi j hj => hd i (keys_stay hgrow hi) j
      (keys_stay hgrow hj)) hp
    obtain ⟨m, hm, hsorted'⟩ := exists_order hd
    refine ⟨l, m, hl, hm, hsorted, ?_⟩
    rw [hpages, pagesOf_le _ hlimit, ← hcast] at hend
    have hend' : (L.keys d).card ≤ (n + 1) * L.limit.toNat := by exact_mod_cast hend
    rw [List.map_singleton, hdata]
    refine .last ?_ (.map _ ?_)
    · rw [List.length_map, ← Multiset.coe_card l, hl]
      exact Nat.le_trans (card_keys_le hgrow) hend'
    · refine sublist_of_keyed hsorted hsorted' fun i hi => ?_
      rw [← Multiset.mem_coe, hm]
      rw [← Multiset.mem_coe, hl] at hi
      exact keys_stay hgrow hi
  | @more k c e c' d p ps hp hmore hgrow hcount rest ih =>
    rintro n rfl
    have hdist : L.Distinct c := fun i hi j hj => hd i (reader_keys (.more hp hmore hgrow hcount rest) hi) j
      (reader_keys (.more hp hmore hgrow hcount rest) hj)
    obtain ⟨l, hl, hsorted, hdata, hpages⟩ := page hlimit hdist hp
    obtain ⟨l', m, hl', hm, hsorted', hreads⟩ := ih hd (n + 1) (by push_cast; rfl)
    refine ⟨l, m, hl, hm, hsorted, ?_⟩
    rw [hpages, lt_pagesOf _ hlimit, ← hcast] at hmore
    have hmore' : (n + 1) * L.limit.toNat < (L.keys e).card := by exact_mod_cast hmore
    rw [List.map_cons, hdata]
    refine .more ?_ (.map _ ?_) hreads
    · rw [List.length_map, ← Multiset.coe_card l', hl']
      exact Nat.le_trans (Nat.le_of_lt hmore') (card_keys_le hcount)
    · refine sublist_of_keyed hsorted hsorted' fun i hi => ?_
      rw [← Multiset.mem_coe, hl']
      rw [← Multiset.mem_coe, hl] at hi
      exact keys_stay hgrow hi

theorem shows_all (hlimit : 0 < L.limit) (h : Reader L.Grow L.May 1 c ps d) (hd : L.Distinct d) :
    ShowsAll (L.keys c) (L.keys d) L.createdAt L.label (ps.flatMap fun p => p.data.map L.labelOf) := by
  obtain ⟨l, m, hl, hm, hsorted, hreads⟩ := reads hlimit h hd 0 rfl
  rw [List.flatMap_def]
  refine ⟨⟨l, hl, hsorted, ?_⟩, fun x hx => ?_, ?_⟩
  · simpa using hreads.sublist
  · obtain ⟨i, hi, rfl⟩ := List.mem_map.mp (hreads.mem x hx)
    exact ⟨i, by rw [← hm]; exact hi, rfl⟩
  · have hlength := hreads.length_le (by simp)
    rw [Nat.zero_mul, Nat.add_zero, List.length_map] at hlength
    rw [← hm, Multiset.coe_card]
    exact hlength

end Listing

end

/-! ## Transactions stay -/

/-- Each with its user and its type. -/
def Db.KeepsTransactions (db db' : Db) : Prop :=
  ∀ k t, db.transactions.lookup k = some t →
    ∃ t', db'.transactions.lookup k = some t' ∧ t'.userId = t.userId ∧ t'.type = t.type

namespace Db.KeepsTransactions

variable {db db' db'' : Db}

theorem of_eq (h : db'.transactions = db.transactions) : db.KeepsTransactions db' :=
  fun _ t ht => ⟨t, by rw [h]; exact ht, rfl, rfl⟩

theorem trans (h : db.KeepsTransactions db') (h' : db'.KeepsTransactions db'') : db.KeepsTransactions db'' := by
  intro k t ht
  obtain ⟨t₁, ht₁, hu, hy⟩ := h k t ht
  obtain ⟨t₂, ht₂, hu', hy'⟩ := h' k t₁ ht₁
  exact ⟨t₂, ht₂, hu'.trans hu, hy'.trans hy⟩

theorem of_insert {key : String} {t : Transaction} (hkey : db.transactions.lookup key = none)
    (h : db'.transactions = db.transactions.insert key t) : db.KeepsTransactions db' := by
  intro k t' ht'
  have hne : k ≠ key := fun heq => by rw [heq, hkey] at ht'; cases ht'
  exact ⟨t', by rw [h, Store.lookup_insert', if_neg hne]; exact ht', rfl, rfl⟩

theorem of_map {f : Transaction → Transaction} (hf : ∀ t, (f t).userId = t.userId ∧ (f t).type = t.type)
    (h : db'.transactions = db.transactions.mapValues f) : db.KeepsTransactions db' := by
  intro k t ht
  exact ⟨f t, by rw [h, Store.lookup_mapValues, ht]; rfl, hf t⟩

theorem of_locks {id : Uuid} {f : Transaction → Transaction}
    (hf : ∀ t, (f t).userId = t.userId ∧ (f t).type = t.type) :
    db.KeepsTransactions (db.updateLocks id f) := by
  refine of_map (f := fun t =>
    if t.escrowId = some id ∧ t.type = .escrowLock ∧ t.status = .pending then f t else t) (fun t => ?_) rfl
  split
  · exact hf t
  · exact ⟨rfl, rfl⟩

theorem of_commit {tx : DbTx} (h : tx.apply db = .ok db') : db.KeepsTransactions db' := by
  cases tx with
  | fund id clientId contractId txHash =>
    simp only [DbTx.apply, except_bind_ok, updateEscrow_ok, createAuditLog_ok] at h
    obtain ⟨_, ⟨e, -, rfl⟩, -, rfl⟩ := h
    have hlocks : db.KeepsTransactions (db.updateLocks id fun t =>
      { t with status := .completed, reference := some txHash }) := of_locks fun _ => ⟨rfl, rfl⟩
    exact hlocks
  | failLocks id =>
    cases h
    exact of_locks fun _ => ⟨rfl, rfl⟩
  | compensate id clientId amount fee =>
    simp only [DbTx.apply, except_bind_ok, updateBalance_ok, updateEscrow_ok] at h
    obtain ⟨_, ⟨b, -, rfl⟩, e, -, rfl⟩ := h
    exact of_eq rfl
  | release id e clientId txHash =>
    simp only [DbTx.apply, except_bind_ok, updateEscrow_ok, payFreelancer_ok, createAuditLog_ok] at h
    obtain ⟨_, ⟨e', -, rfl⟩, _, ⟨-, hkey, -, rfl⟩, -, rfl⟩ := h
    exact of_insert hkey rfl
  | refund id e adminId reason txHash =>
    simp only [DbTx.apply, except_bind_ok, updateEscrow_ok, payClient_ok, createAuditLog_ok] at h
    obtain ⟨_, ⟨e', -, rfl⟩, _, ⟨-, hkey, -, rfl⟩, -, rfl⟩ := h
    exact of_insert hkey rfl
  | approve id e approverId role clientApproved freelancerApproved txHash =>
    cases hboth : clientApproved && freelancerApproved with
    | true =>
      simp only [DbTx.apply, hboth, except_bind_ok, updateEscrow_ok, ite_true, payFreelancer_ok,
        createAuditLog_ok] at h
      obtain ⟨_, ⟨e', -, rfl⟩, _, ⟨-, hkey, -, rfl⟩, -, rfl⟩ := h
      exact of_insert hkey rfl
    | false =>
      simp only [DbTx.apply, hboth, except_bind_ok, updateEscrow_ok, Bool.false_eq_true, ite_false,
        except_pure_ok, createAuditLog_ok] at h
      obtain ⟨_, ⟨e', -, rfl⟩, _, rfl, -, rfl⟩ := h
      exact of_eq rfl
  | milestone id freelancerId n txHash =>
    simp only [DbTx.apply, except_bind_ok, updateEscrow_ok, createAuditLog_ok] at h
    obtain ⟨_, ⟨e, -, rfl⟩, -, rfl⟩ := h
    exact of_eq rfl
  | expire id e triggeredBy txHash =>
    simp only [DbTx.apply, except_bind_ok, updateEscrow_ok, payClient_ok, createAuditLog_ok] at h
    obtain ⟨_, ⟨e', -, rfl⟩, _, ⟨-, hkey, -, rfl⟩, -, rfl⟩ := h
    exact of_insert hkey rfl

end Db.KeepsTransactions

/-- What the lists select stays. -/
structure Site.Lasts (c c' : Site) : Prop where
  later : c.Later c'
  transactions : c.world.db.KeepsTransactions c'.world.db

theorem Site.lasts_stepped {s : Stellar} {c c' : Site} (h : c.Stepped s c') : c.Lasts c' := by
  refine ⟨later_stepped h, ?_⟩
  cases h with
  | idle | ledger | guarded | dropped | begun => exact .of_eq rfl
  | asked _ hdb _ _ => exact .of_eq (by rw [hdb])
  | written _ ha _ _ => exact .of_eq (DisputeWrite.apply_ok ha).transactions
  | moved hx hm =>
    cases hm with
    | committed _ ha =>
      obtain ⟨b, -, -, -, -, hkey, rfl⟩ := Session.apply_ok.mp ha
      exact .of_insert hkey rfl
    | _ => exact .of_eq rfl

theorem Site.lasts_evolves (s : Stellar) : Prog.Evolves (site s) Site.Lasts where
  refl c := ⟨.refl c, .of_eq rfl⟩
  trans h h' := ⟨h.later.trans h'.later, h.transactions.trans h'.transactions⟩
  perform c o := by
    refine ⟨(later_evolves s).perform c o, ?_⟩
    rcases Site.perform_cases s c o with hp | hp
    · rw [hp]
      rcases World.perform_cases s c.world o with hs | ⟨tx, rfl, hc⟩ | ⟨_, _, _, _, rfl, -, hc⟩
      · exact .of_eq (by rw [hs.db])
      · exact .of_commit hc.db
      · exact .of_eq (by rw [hc.db])
    · rw [hp]
      exact .of_eq rfl
  env c a := lasts_stepped (c.env_stepped s a)

/-! ## The lists of the platform -/

/-- What rows are given when they are created, besides what the platform's model keeps of them. -/
structure Stamps where
  escrow : Uuid → Nat
  dispute : String → Nat
  transaction : String → Nat
  transactionId : String → String

/-- The database, with the stamps in its rows and anything in their other columns. -/
structure Books.Of (T : Books) (st : Stamps) (db : Db) : Prop where
  db : T.toDb = db
  escrow : ∀ id, (T.escrowColumns id).createdAt = st.escrow id
  dispute : ∀ k, (T.disputeColumns k).createdAt = st.dispute k
  transaction : ∀ k, (T.transactionColumns k).createdAt = st.transaction k
  transactionId : ∀ k, (T.transactionColumns k).id = st.transactionId k

/-- The platform goes on: requests, sessions and workers. -/
def SitePool.Goes (s : Stellar) (c c' : SitePool) : Prop :=
  ∃ as : List (PoolAction Job SiteAction WorkerError), c' = run (Pool.step (site s) (Worker.process s)) c as

theorem SitePool.Goes.refl (s : Stellar) (c : SitePool) : c.Goes s c := ⟨[], rfl⟩

theorem SitePool.Goes.lasts {s : Stellar} {c c' : SitePool} (h : c.Goes s c') : c.world.Lasts c'.world := by
  obtain ⟨as, rfl⟩ := h
  exact pool_rel (Site.lasts_evolves s) c as

theorem summary_id {T : Tables} {row : Sigma fun _ : Uuid => Escrow} {b : EscrowSummary}
    (h : T.summary row = .ok b) : b.id = row.1 := by
  simp only [Tables.summary, except_bind_ok, except_pure_ok] at h
  obtain ⟨_, -, _, -, rfl⟩ := h
  rfl

theorem disputeEntry_id {T : Books} {row : Sigma fun _ : String => Dispute} {b : DisputeEntry}
    (h : T.disputeEntry row = .ok b) : b.id = row.1 := by
  simp only [Books.disputeEntry, except_bind_ok] at h
  obtain ⟨_, -, h⟩ := h
  split at h
  · cases h; rfl
  · cases h

section
variable (s : Stellar) (st : Stamps) (userId : UserId) (limit : Int)

def escrowListing (role : UserRole) : Listing SitePool Uuid Escrow EscrowSummary Uuid where
  table c := c.world.world.db.escrows
  selects := Tables.listed userId role
  createdAt := st.escrow
  label id := id
  labelOf e := e.id
  limit
  Grow := SitePool.Goes s
  May c e page p := ∃ (T : Books) (rows : List (Sigma fun _ : Uuid => Escrow)), T.Of st c.world.world.db ∧
    c.world.world.db.escrows.Orders (Tables.listed userId role) st.escrow rows ∧
    T.listEscrows rows (e.world.world.db.escrows.rows (Tables.listed userId role)).card page limit = .ok p
  stays h k e he := by
    obtain ⟨e', he', hk⟩ := h.lasts.later.db.rows k e he
    refine ⟨e', he', ?_⟩
    cases role <;> simp only [Tables.listed, hk.clientId, hk.freelancerId]
  answers := by
    rintro c e page p ⟨T, rows, hT, hrows, hok⟩
    exact ⟨rows, T.summary, hrows, hok, fun r _ b hb => summary_id hb⟩

def disputeListing (role : UserRole) : Listing SitePool String Dispute DisputeEntry String where
  table c := c.world.world.db.disputes
  selects := Books.listedDispute userId role
  createdAt := st.dispute
  label k := k
  labelOf d := d.id
  limit
  Grow := SitePool.Goes s
  May c e page p := ∃ (T : Books) (rows : List (Sigma fun _ : String => Dispute)), T.Of st c.world.world.db ∧
    c.world.world.db.disputes.Orders (Books.listedDispute userId role) st.dispute rows ∧
    T.listDisputes rows (e.world.world.db.disputes.rows (Books.listedDispute userId role)).card page limit = .ok p
  stays h k d hd := by
    obtain ⟨d', hd', -, hraised⟩ := h.lasts.later.db.disputes k d hd
    exact ⟨d', hd', by simp only [Books.listedDispute, hraised]⟩
  answers := by
    rintro c e page p ⟨T, rows, hT, hrows, hok⟩
    exact ⟨rows, T.disputeEntry, hrows, hok, fun r _ b hb => disputeEntry_id hb⟩

def historyListing (type : Option TransactionType) :
    Listing SitePool String Transaction TransactionEntry String where
  table c := c.world.world.db.transactions
  selects := Books.inHistory userId type
  createdAt := st.transaction
  label := st.transactionId
  labelOf t := t.id
  limit
  Grow := SitePool.Goes s
  May c e page p := ∃ (T : Books) (rows : List (Sigma fun _ : String => Transaction)),
    T.Of st c.world.world.db ∧
    c.world.world.db.transactions.Orders (Books.inHistory userId type) st.transaction rows ∧
    T.getTransactionHistory rows (e.world.world.db.transactions.rows (Books.inHistory userId type)).card page
      limit = .ok p
  stays h k t ht := by
    obtain ⟨t', ht', hu, hy⟩ := h.lasts.transactions k t ht
    exact ⟨t', ht', by simp only [Books.inHistory, hu, hy]⟩
  answers := by
    rintro c e page p ⟨T, rows, hT, hrows, hok⟩
    refine ⟨rows, T.transactionEntry, hrows, hok, fun r _ b hb => ?_⟩
    cases hb
    exact hT.transactionId r.1

end

/-- Whoever reads a list to its last page, whatever the platform does between the queries, has seen all that
was in it at first. -/
theorem readers_miss_nothing (s : Stellar) (st : Stamps) (userId : UserId) (limit : Int) (hlimit : 0 < limit)
    (c d : SitePool) :
    (∀ role ps, Reader (SitePool.Goes s) (escrowListing s st userId limit role).May 1 c ps d →
      (escrowListing s st userId limit role).Distinct d →
      ShowsAll ((escrowListing s st userId limit role).keys c) ((escrowListing s st userId limit role).keys d)
        st.escrow (fun id => id) (ps.flatMap fun p => p.data.map (·.id))) ∧
    (∀ role ps, Reader (SitePool.Goes s) (disputeListing s st userId limit role).May 1 c ps d →
      (disputeListing s st userId limit role).Distinct d →
      ShowsAll ((disputeListing s st userId limit role).keys c) ((disputeListing s st userId limit role).keys d)
        st.dispute (fun k => k) (ps.flatMap fun p => p.data.map (·.id))) ∧
    ∀ type ps, Reader (SitePool.Goes s) (historyListing s st userId limit type).May 1 c ps d →
      (historyListing s st userId limit type).Distinct d →
      ShowsAll ((historyListing s st userId limit type).keys c) ((historyListing s st userId limit type).keys d)
        st.transaction st.transactionId (ps.flatMap fun p => p.data.map (·.id)) :=
  ⟨fun _ _ h hd => Listing.shows_all hlimit h hd, fun _ _ h hd => Listing.shows_all hlimit h hd,
    fun _ _ h hd => Listing.shows_all hlimit h hd⟩

def sampleThird : Uuid := ⟨List.replicate 16 9, rfl⟩

def sampleListed : SitePool :=
  (Site.start sampleWorld).after sampleStellar (.env (.request (.createEscrow "client" sampleDto "key" sampleId)) ::
    List.replicate 7 (.env (.advance 0)) ++
    .env (.request (.createEscrow "client" sampleDto "other" sampleOther)) :: List.replicate 7 (.env (.advance 1)))

/-- The second page is read after a third escrow has come. -/
def sampleArrival : List (PoolAction Job SiteAction WorkerError) :=
  .env (.request (.createEscrow "client" sampleDto "third" sampleThird)) :: List.replicate 7 (.env (.advance 2))

def sampleStamps : Stamps where
  escrow id := if id = sampleId then 1 else if id = sampleOther then 2 else 3
  dispute _ := 0
  transaction _ := 0
  transactionId k := k

def Stamps.books (st : Stamps) (db : Db) : Books where
  toDb := db
  userColumns _ := ⟨"", ""⟩
  escrowColumns id := ⟨"USD", none, none, none, none, none, st.escrow id⟩
  disputeColumns k := ⟨.other, "", none, none, none, st.dispute k, 0⟩
  transactionColumns k := ⟨st.transactionId k, "USD", st.transaction k⟩

theorem Stamps.books_of (st : Stamps) (db : Db) : (st.books db).Of st db :=
  ⟨rfl, fun _ => rfl, fun _ => rfl, fun _ => rfl, fun _ => rfl⟩

def sampleRow (id : Uuid) : Sigma fun _ : Uuid => Escrow := ⟨id, EscrowService.newEscrow "client" sampleDto⟩

def sampleFinal : SitePool :=
  run (Pool.step (site sampleStellar) (Worker.process sampleStellar)) sampleListed sampleArrival

def sampleSummary (st : Stamps) (id : Uuid) : EscrowSummary where
  id
  status := .pending
  amount := 100
  description := ""
  milestonesTotal := 0
  milestonesCompleted := 0
  expiryLedger := 0
  createdAt := st.escrow id
  client := ⟨"client", ""⟩
  freelancer := ⟨"freelancer", ""⟩

def samplePage (st : Stamps) (total page : Nat) (id : Uuid) : Page EscrowSummary :=
  ⟨[sampleSummary st id], total, page, 1, some total⟩

theorem sample_may {st : Stamps} {c e : SitePool} {page total : Nat} {id : Uuid} (ids : List Uuid)
    (hrows : (ids.map sampleRow : Multiset (Sigma fun _ : Uuid => Escrow)) =
      c.world.world.db.escrows.rows (Tables.listed "client" .client))
    (hsorted : ids.Pairwise fun x y => st.escrow y ≤ st.escrow x)
    (htotal : (e.world.world.db.escrows.rows (Tables.listed "client" .client)).card = total)
    (hok : (st.books c.world.world.db).listEscrows (ids.map sampleRow) total page 1 =
      .ok (samplePage st total page id)) :
    (escrowListing sampleStellar st "client" 1 .client).May c e page (samplePage st total page id) :=
  ⟨_, ids.map sampleRow, st.books_of _, ⟨hrows, List.pairwise_map.mpr hsorted⟩, by rw [htotal]; exact hok⟩

/-- The reader sees the first of the two escrows twice, and the third not at all. -/
theorem sample_reader : Reader (SitePool.Goes sampleStellar)
    (escrowListing sampleStellar sampleStamps "client" 1 .client).May 1 sampleListed
    [samplePage sampleStamps 2 1 sampleOther, samplePage sampleStamps 3 2 sampleOther,
      samplePage sampleStamps 3 3 sampleId] sampleFinal := by
  refine .more (sample_may [sampleOther, sampleId] ?_ ?_ (e := sampleListed) ?_ ?_) ?_ ⟨sampleArrival, rfl⟩
    ⟨sampleArrival, rfl⟩ (.more (sample_may [sampleThird, sampleOther, sampleId] ?_ ?_ (e := sampleFinal) ?_ ?_) ?_
      (.refl _ _) (.refl _ _) (.last (sample_may [sampleThird, sampleOther, sampleId] ?_ ?_ ?_ ?_) ?_ (.refl _ _)))
  all_goals decide +kernel

theorem sample_readers : ShowsAll ((escrowListing sampleStellar sampleStamps "client" 1 .client).keys sampleListed)
    ((escrowListing sampleStellar sampleStamps "client" 1 .client).keys sampleFinal) sampleStamps.escrow
    (fun id => id) [sampleOther, sampleOther, sampleId] :=
  (readers_miss_nothing sampleStellar sampleStamps "client" 1 (by decide) sampleListed sampleFinal).1 .client
    [samplePage sampleStamps 2 1 sampleOther, samplePage sampleStamps 3 2 sampleOther,
      samplePage sampleStamps 3 3 sampleId] sample_reader (by unfold Listing.Distinct; decide +kernel)

/-- Two escrows of one instant, and nothing happens between the queries. -/
theorem tie_gets_lost : ∃ ps, Reader (SitePool.Goes sampleStellar)
      (escrowListing sampleStellar { sampleStamps with escrow := fun _ => 0 } "client" 1 .client).May 1
      sampleListed ps sampleListed ∧
    sampleOther ∉ ps.flatMap fun p => p.data.map (·.id) := by
  refine ⟨[samplePage _ 2 1 sampleId, samplePage _ 2 2 sampleId],
    .more (sample_may [sampleId, sampleOther] ?_ ?_ (e := sampleListed) ?_ ?_) ?_ (.refl _ _) (.refl _ _)
      (.last (sample_may [sampleOther, sampleId] ?_ ?_ ?_ ?_) ?_ (.refl _ _)), ?_⟩
  all_goals decide +kernel

/-- The rows of the last answer are counted before a third escrow comes and read after. -/
theorem stale_count_hides : ∃ p p',
    (escrowListing sampleStellar sampleStamps "client" 1 .client).May sampleListed sampleListed 1 p ∧
    (escrowListing sampleStellar sampleStamps "client" 1 .client).May sampleFinal sampleListed 2 p' ∧
    (∀ n ∈ p'.pages, n ≤ 2) ∧ sampleId ∉ (p.data ++ p'.data).map (·.id) := by
  refine ⟨samplePage _ 2 1 sampleOther, samplePage _ 2 2 sampleOther, sample_may [sampleOther, sampleId] ?_ ?_ ?_ ?_,
    sample_may [sampleThird, sampleOther, sampleId] ?_ ?_ ?_ ?_, ?_, ?_⟩
  all_goals decide +kernel

end NexusHub
