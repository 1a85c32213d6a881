import Mathlib.Data.Rat.Floor
import NexusHub.Platform

/-!
# Reading escrows

The three queries of the escrow service. A single escrow is looked up among
those of the caller, whatever the caller's role; the list is selected by role,
and a role that is neither a client's nor a freelancer's selects every row. So
the answers depend on the caller's own escrows alone except for a marketplace's
list.
-/

namespace NexusHub

/-! ## Columns that only the queries read -/

structure EscrowColumns where
  currency : String
  milestoneTitle : Option String
  fundedAt : Option Nat
  releasedAt : Option Nat
  refundedAt : Option Nat
  expiredAt : Option Nat
  createdAt : Nat
  deriving DecidableEq

structure UserColumns where
  firstName : String
  email : String
  deriving DecidableEq

inductive DisputeReason where
  | workNotDelivered | qualityNotAsAgreed | paymentIssue | fraud | other
  deriving DecidableEq, Repr

structure DisputeColumns where
  reason : DisputeReason
  description : String
  evidence : Option String
  resolution : Option String
  resolvedAt : Option Nat
  createdAt : Nat
  updatedAt : Nat
  deriving DecidableEq

/-- The database with the further columns of its rows. -/
structure Tables extends Db where
  userColumns : UserId → UserColumns
  escrowColumns : Uuid → EscrowColumns
  disputeColumns : String → DisputeColumns

/-! ## Answers -/

structure Party where
  id : UserId
  firstName : String
  email : String
  deriving DecidableEq

structure PartyName where
  id : UserId
  firstName : String
  deriving DecidableEq

structure DisputeDetails where
  id : String
  dispute : Dispute
  columns : DisputeColumns
  deriving DecidableEq

/-- `dispute` has at most one element, its `escrowId` being unique. -/
structure EscrowDetails where
  id : Uuid
  status : EscrowStatus
  amount : Int
  fee : Int
  currency : String
  description : String
  milestoneTitle : Option String
  milestonesTotal : Nat
  milestonesCompleted : Nat
  expiryLedger : Nat
  clientApproved : Bool
  freelancerApproved : Bool
  stellarContractId : Option String
  stellarTxHash : Option TxHash
  fundedAt : Option Nat
  releasedAt : Option Nat
  refundedAt : Option Nat
  expiredAt : Option Nat
  createdAt : Nat
  client : Party
  freelancer : Party
  dispute : Multiset DisputeDetails
  deriving DecidableEq

structure MilestoneProgress where
  escrowId : Uuid
  total : Nat
  completed : Nat
  remaining : Int
  status : EscrowStatus
  deriving DecidableEq

structure EscrowSummary where
  id : Uuid
  status : EscrowStatus
  amount : Int
  description : String
  milestonesTotal : Nat
  milestonesCompleted : Nat
  expiryLedger : Nat
  createdAt : Nat
  client : PartyName
  freelancer : PartyName
  deriving DecidableEq

/-- `pages` is null when there is nothing to divide by. -/
structure EscrowPage where
  data : List EscrowSummary
  total : Nat
  page : Int
  limit : Int
  pages : Option Int
  deriving DecidableEq

inductive ReadError where
  | notFound (message : String)
  /-- The database client takes no negative `skip`. -/
  | negativeSkip
  | inconsistent
  deriving DecidableEq

/-! ## Queries -/

namespace Tables

variable (T : Tables)

def party (u : UserId) : Except ReadError Party :=
  match T.users.lookup u with
  | some _ => .ok ⟨u, (T.userColumns u).firstName, (T.userColumns u).email⟩
  | none => .error .inconsistent

def disputesOf (id : Uuid) : Multiset DisputeDetails :=
  (T.disputes.rows fun d => d.escrowId = id).map fun e => ⟨e.1, e.2, T.disputeColumns e.1⟩

/-- `findFirst` by the id and either party. -/
def findOwn (userId : UserId) (escrowId : Uuid) : Except ReadError Escrow :=
  match (T.escrows.lookup escrowId).filter fun e => e.clientId = userId ∨ e.freelancerId = userId with
  | some e => .ok e
  | none => .error (.notFound "Escrow not found")

def getEscrow (userId : UserId) (escrowId : Uuid) : Except ReadError EscrowDetails := do
  let escrow ← T.findOwn userId escrowId
  let client ← T.party escrow.clientId
  let freelancer ← T.party escrow.freelancerId
  let columns := T.escrowColumns escrowId
  return {
    id := escrowId
    status := escrow.status
    amount := escrow.amount
    fee := escrow.fee
    currency := columns.currency
    description := escrow.description
    milestoneTitle := columns.milestoneTitle
    milestonesTotal := escrow.milestonesTotal
    milestonesCompleted := escrow.milestonesCompleted
    expiryLedger := escrow.expiryLedger
    clientApproved := escrow.clientApproved
    freelancerApproved := escrow.freelancerApproved
    stellarContractId := escrow.stellarContractId
    stellarTxHash := escrow.stellarTxHash
    fundedAt := columns.fundedAt
    releasedAt := columns.releasedAt
    refundedAt := columns.refundedAt
    expiredAt := columns.expiredAt
    createdAt := columns.createdAt
    client
    freelancer
    dispute := T.disputesOf escrowId }

def getMilestones (userId : UserId) (escrowId : Uuid) : Except ReadError MilestoneProgress := do
  let escrow ← T.findOwn userId escrowId
  return {
    escrowId
    total := escrow.milestonesTotal
    completed := escrow.milestonesCompleted
    remaining := escrow.milestonesTotal - escrow.milestonesCompleted
    status := escrow.status }

/-- The `where` clause of the list: whatever is neither a client nor a freelancer falls through. -/
def listed (userId : UserId) : UserRole → Escrow → Bool
  | .client, e => e.clientId = userId
  | .freelancer, e => e.freelancerId = userId
  | .admin, _ | .marketplace, _ => true

def summary (row : Sigma fun _ : Uuid => Escrow) : Except ReadError EscrowSummary := do
  let client ← T.party row.2.clientId
  let freelancer ← T.party row.2.freelancerId
  return {
    id := row.1
    status := row.2.status
    amount := row.2.amount
    description := row.2.description
    milestonesTotal := row.2.milestonesTotal
    milestonesCompleted := row.2.milestonesCompleted
    expiryLedger := row.2.expiryLedger
    createdAt := (T.escrowColumns row.1).createdAt
    client := ⟨client.id, client.firstName⟩
    freelancer := ⟨freelancer.id, freelancer.firstName⟩ }

/-- The latest first; nothing is said about rows of one instant. -/
def Sorted (rows : List (Sigma fun _ : Uuid => Escrow)) : Prop :=
  rows.Pairwise fun x y => (T.escrowColumns y.1).createdAt ≤ (T.escrowColumns x.1).createdAt

end Tables

/-- `skip` and `take`; a negative `take` counts both from the end. -/
def window {α : Type} (skip : Nat) (take : Int) (rows : List α) : List α :=
  if 0 ≤ take then (rows.drop skip).take take.toNat
  else ((rows.reverse.drop skip).take (-take).toNat).reverse

def pagesOf (total : Nat) (limit : Int) : Option Int := if limit = 0 then none else some ⌈(total : ℚ) / limit⌉

/-- `rows` are the selected ones as the database orders them. -/
def Tables.listEscrows (T : Tables) (rows : List (Sigma fun _ : Uuid => Escrow)) (page limit : Int) :
    Except ReadError EscrowPage := do
  if (page - 1) * limit < 0 then throw .negativeSkip
  let data ← (window ((page - 1) * limit).toNat limit rows).mapM T.summary
  return ⟨data, rows.length, page, limit, pagesOf rows.length limit⟩

/-- What `listEscrows` may answer, ties being in any order. -/
def Tables.MayList (T : Tables) (userId : UserId) (role : UserRole) (page limit : Int)
    (res : Except ReadError EscrowPage) : Prop :=
  ∃ rows : List (Sigma fun _ : Uuid => Escrow),
    (rows : Multiset (Sigma fun _ : Uuid => Escrow)) = T.escrows.rows (Tables.listed userId role) ∧
      T.Sorted rows ∧ res = T.listEscrows rows page limit

/-! ## What a user may see -/

def involves (u : UserId) (e : Escrow) : Bool := e.clientId = u ∨ e.freelancerId = u

/-- The states agree on the user's own row and on the user's escrows, with their parties and disputes. -/
structure AgreeFor (u : UserId) (s t : Tables) : Prop where
  user : s.users.lookup u = t.users.lookup u
  userColumns : s.userColumns u = t.userColumns u
  escrows : ∀ id, (s.escrows.lookup id).filter (involves u) = (t.escrows.lookup id).filter (involves u)
  columns : ∀ id e, s.escrows.lookup id = some e → involves u e → s.escrowColumns id = t.escrowColumns id
  parties : ∀ id e, s.escrows.lookup id = some e → involves u e →
    s.party e.clientId = t.party e.clientId ∧ s.party e.freelancerId = t.party e.freelancerId
  disputes : ∀ id e, s.escrows.lookup id = some e → involves u e → s.disputesOf id = t.disputesOf id

structure SameReads (u : UserId) (role : UserRole) (s t : Tables) : Prop where
  list : ∀ page limit res, s.MayList u role page limit res ↔ t.MayList u role page limit res
  escrow : ∀ id, s.getEscrow u id = t.getEscrow u id
  milestones : ∀ id, s.getMilestones u id = t.getMilestones u id

section
variable {u : UserId} {role : UserRole} {s t : Tables}

theorem AgreeFor.symm (h : AgreeFor u s t) : AgreeFor u t s := by
  have hback {id : Uuid} {e : Escrow} (he : t.escrows.lookup id = some e) (hu : involves u e) :
      s.escrows.lookup id = some e := by
    have hfilter : (s.escrows.lookup id).filter (involves u) = some e := by
      rw [h.escrows id, he]
      exact Option.filter_some_pos hu
    exact (Option.filter_eq_some_iff.mp hfilter).1
  exact ⟨h.user.symm, h.userColumns.symm, fun id => (h.escrows id).symm,
    fun id e he hu => (h.columns id e (hback he hu) hu).symm,
    fun id e he hu => (h.parties id e (hback he hu) hu).imp Eq.symm Eq.symm,
    fun id e he hu => (h.disputes id e (hback he hu) hu).symm⟩

/-! ## Single escrows -/

theorem findOwn_ok {T : Tables} {id : Uuid} {e : Escrow} :
    T.findOwn u id = .ok e ↔ T.escrows.lookup id = some e ∧ involves u e := by
  unfold Tables.findOwn
  change (match (T.escrows.lookup id).filter (involves u) with | some e => _ | none => _) = _ ↔ _
  rw [← Option.filter_eq_some_iff]
  cases (T.escrows.lookup id).filter (involves u) <;> simp

theorem AgreeFor.findOwn (h : AgreeFor u s t) (id : Uuid) : s.findOwn u id = t.findOwn u id := by
  have hfilter := h.escrows id
  unfold Tables.findOwn
  change (match (s.escrows.lookup id).filter (involves u) with | some e => _ | none => _) =
    match (t.escrows.lookup id).filter (involves u) with | some e => _ | none => _
  rw [hfilter]

theorem AgreeFor.getMilestones (h : AgreeFor u s t) (id : Uuid) :
    s.getMilestones u id = t.getMilestones u id := by
  unfold Tables.getMilestones
  rw [h.findOwn id]

theorem AgreeFor.getEscrow (h : AgreeFor u s t) (id : Uuid) : s.getEscrow u id = t.getEscrow u id := by
  unfold Tables.getEscrow
  rw [← h.findOwn id]
  cases hfound : s.findOwn u id with
  | error e => rfl
  | ok e =>
    obtain ⟨he, hu⟩ := findOwn_ok.mp hfound
    obtain ⟨hclient, hfreelancer⟩ := h.parties id e he hu
    simp only [bind, Except.bind]
    rw [hclient, hfreelancer, h.columns id e he hu, h.disputes id e he hu]

/-! ## The list -/

theorem involves_of_listed {e : Escrow} (hadmin : role ≠ .admin) (hmarketplace : role ≠ .marketplace)
    (he : Tables.listed u role e) : involves u e := by
  cases role with
  | client => simpa [involves, Tables.listed] using Or.inl (of_decide_eq_true he)
  | freelancer => simpa [involves, Tables.listed] using Or.inr (of_decide_eq_true he)
  | admin => exact absurd rfl hadmin
  | marketplace => exact absurd rfl hmarketplace

theorem filter_eq_of_narrower {α : Type} {x y : Option α} {p q : α → Bool} (hpq : ∀ a, p a → q a)
    (h : x.filter q = y.filter q) : x.filter p = y.filter p := by
  have hnarrow (z : Option α) : (z.filter q).filter p = z.filter p := by
    rw [Option.filter_filter]
    refine congrArg z.filter (funext fun a => ?_)
    cases hp : p a with
    | true => rw [hpq a hp]; rfl
    | false => simp
  rw [← hnarrow x, h, hnarrow y]

theorem mapM_congr {ε α β : Type} {f g : α → Except ε β} {l : List α} (h : ∀ a ∈ l, f a = g a) :
    l.mapM f = l.mapM g := by
  induction l with
  | nil => rfl
  | cons a l ih =>
    rw [List.mapM_cons, List.mapM_cons, h a (.head _), ih fun b hb => h b (.tail _ hb)]

theorem mem_of_mem_window {α : Type} {skip : Nat} {take : Int} {l : List α} {a : α} (h : a ∈ window skip take l) :
    a ∈ l := by
  unfold window at h
  split at h
  · exact List.mem_of_mem_drop (List.mem_of_mem_take h)
  · exact List.mem_reverse.mp (List.mem_of_mem_drop (List.mem_of_mem_take (List.mem_reverse.mp h)))

theorem AgreeFor.mayList (h : AgreeFor u s t) (hadmin : role ≠ .admin) (hmarketplace : role ≠ .marketplace)
    {page limit : Int} {res : Except ReadError EscrowPage} (hres : s.MayList u role page limit res) :
    t.MayList u role page limit res := by
  obtain ⟨rows, hrows, hsorted, rfl⟩ := hres
  have hown (e : Sigma fun _ : Uuid => Escrow) (he : e ∈ rows) :
      s.escrows.lookup e.1 = some e.2 ∧ involves u e.2 := by
    rw [← Multiset.mem_coe, hrows, Store.mem_rows] at he
    exact ⟨he.1, involves_of_listed hadmin hmarketplace he.2⟩
  have hsummary (e : Sigma fun _ : Uuid => Escrow) (he : e ∈ rows) : s.summary e = t.summary e := by
    obtain ⟨hlookup, hu⟩ := hown e he
    obtain ⟨hclient, hfreelancer⟩ := h.parties _ _ hlookup hu
    unfold Tables.summary
    rw [hclient, hfreelancer, h.columns _ _ hlookup hu]
  refine ⟨rows, ?_, ?_, ?_⟩
  · rw [hrows]
    exact Store.rows_congr fun k =>
      filter_eq_of_narrower (fun e => involves_of_listed hadmin hmarketplace) (h.escrows k)
  · refine hsorted.imp_of_mem fun {x y} hx hy hle => ?_
    rw [← h.columns _ _ (hown x hx).1 (hown x hx).2, ← h.columns _ _ (hown y hy).1 (hown y hy).2]
    exact hle
  · unfold Tables.listEscrows
    rw [mapM_congr fun e he => hsummary e (mem_of_mem_window he)]

theorem AgreeFor.sameReads (h : AgreeFor u s t) (hadmin : role ≠ .admin) (hmarketplace : role ≠ .marketplace) :
    SameReads u role s t where
  list _ _ _ := ⟨h.mayList hadmin hmarketplace, h.symm.mayList hadmin hmarketplace⟩
  escrow := h.getEscrow
  milestones := h.getMilestones

end

/-! ## A marketplace's list -/

theorem total_of_mayList {T : Tables} {u : UserId} {role : UserRole} {page limit : Int} {p : EscrowPage}
    (h : T.MayList u role page limit (.ok p)) : p.total = (T.escrows.rows (Tables.listed u role)).card := by
  obtain ⟨rows, hrows, -, hp⟩ := h
  rw [← hrows, Multiset.coe_card]
  unfold Tables.listEscrows at hp
  split at hp
  · cases hp
  · cases hdata : (window ((page - 1) * limit).toNat limit rows).mapM T.summary with
    | error e => rw [hdata] at hp; cases hp
    | ok data => rw [hdata] at hp; cases hp; rfl

def alone (u : UserId) : Tables where
  users := (∅ : Store UserId User).insert u ⟨.marketplace, none, none⟩
  balances := ∅
  escrows := ∅
  transactions := ∅
  disputes := ∅
  auditLogs := []
  webhookEndpoints := []
  userColumns := fun _ => ⟨"", ""⟩
  escrowColumns := fun _ => ⟨"USD", none, none, none, none, none, 0⟩
  disputeColumns := fun _ => ⟨.other, "", none, none, none, 0, 0⟩

/-- Besides it a client and a freelancer with an escrow. -/
def inCompany (u : UserId) : Tables :=
  { alone u with
    users := ((alone u).users.insert (u ++ "'s client") ⟨.client, some ⟨1⟩, none⟩).insert (u ++ "'s freelancer")
      ⟨.freelancer, some ⟨2⟩, none⟩
    escrows := (∅ : Store Uuid Escrow).insert sampleId
      (EscrowService.newEscrow (u ++ "'s client") { sampleDto with freelancerId := u ++ "'s freelancer" }) }

theorem append_ne (u : UserId) {suffix : String} (h : suffix.length ≠ 0) : u ++ suffix ≠ u := by
  intro he
  have := congrArg String.length he
  rw [String.length_append] at this
  omega

theorem alone_agrees (u : UserId) : AgreeFor u (alone u) (inCompany u) where
  user := by
    simp only [inCompany]
    rw [Finmap.lookup_insert_of_ne _ (append_ne u (by decide)).symm,
      Finmap.lookup_insert_of_ne _ (append_ne u (by decide)).symm]
  userColumns := rfl
  escrows id := (Store.filter_insert rfl (by
    simp [involves, EscrowService.newEscrow, append_ne u]) id).symm
  columns _ _ h := nomatch h
  parties _ _ h := nomatch h
  disputes _ _ h := nomatch h

theorem marketplace_sees_number (u : UserId) : ¬ SameReads u .marketplace (alone u) (inCompany u) := by
  intro h
  have hempty : (alone u).MayList u .marketplace 1 20 (.ok ⟨[], 0, 1, 20, pagesOf 0 20⟩) :=
    ⟨[], rfl, .nil, rfl⟩
  have htotal := total_of_mayList ((h.list 1 20 _).mp hempty)
  have hone : ((inCompany u).escrows.rows (Tables.listed u .marketplace)).card = 1 := rfl
  rw [hone] at htotal
  cases htotal

/-- The reads of a user who is no admin show nothing but the user's own, unless the user is a marketplace. -/
theorem reads_isolated_iff (u : UserId) (role : UserRole) (hrole : role ≠ .admin) :
    (∀ s t : Tables, AgreeFor u s t → (s.users.lookup u).map (·.role) = some role → SameReads u role s t) ↔
      role ≠ .marketplace := by
  constructor
  · rintro h rfl
    have hlookup : ((alone u).users.lookup u).map (·.role) = some .marketplace := by simp [alone]
    exact marketplace_sees_number u (h _ _ (alone_agrees u) hlookup)
  · exact fun hmarketplace s t h _ => h.sameReads hrole hmarketplace

theorem sample_reads_isolated :
    (∀ s t : Tables, AgreeFor "client" s t → (s.users.lookup "client").map (·.role) = some .client →
      SameReads "client" .client s t) ↔ UserRole.client ≠ .marketplace :=
  reads_isolated_iff "client" .client nofun

/-- A marketplace gets the number 0 in one state and 1 in the other. -/
theorem marketplace_reads_leak : ¬ ∀ (u : UserId) (role : UserRole), role ≠ .admin → ∀ s t : Tables,
    AgreeFor u s t → (s.users.lookup u).map (·.role) = some role → SameReads u role s t := by
  intro h
  have hlookup : ((alone "market").users.lookup "market").map (·.role) = some .marketplace := by
    simp [alone]
  exact marketplace_sees_number "market" (h "market" .marketplace nofun _ _ (alone_agrees "market") hlookup)

end NexusHub
