import Mathlib.Data.List.Find
import NexusHub.Pages
import NexusHub.Secrets

/-!
# The users of the webhook service

All users' endpoints are rows of one table. A request looks up its row and checks
the owner in one statement and goes on in others; in between the row may be
changed or deleted. To each user it is as if he had the tables to himself.
-/

namespace NexusHub

/-! ## The tables -/

/-- What an update sets: the fields of its DTO, which is taken to name neither the id nor the owner. -/
structure EndpointPatch where
  apply : WebhookEndpoint → WebhookEndpoint
  id_eq : ∀ ep, (apply ep).id = ep.id
  userId_eq : ∀ ep, (apply ep).userId = ep.userId

structure DeliveryRow where
  id : String
  delivery : WebhookDelivery
  deriving DecidableEq

/-- What an attempt makes of the row of its delivery. -/
structure DeliveryPatch where
  apply : WebhookDelivery → WebhookDelivery
  endpointId_eq : ∀ d, (apply d).endpointId = d.endpointId

/-- Deliveries stand in the order of their creation. -/
structure WebhookTables where
  endpoints : List WebhookEndpoint
  deliveries : List DeliveryRow
  deriving DecidableEq

namespace WebhookTables

variable (T : WebhookTables)

def find (id : String) : Option WebhookEndpoint := T.endpoints.find? (·.id = id)

def deliveriesOf (id : String) : List DeliveryRow := T.deliveries.filter (·.delivery.endpointId = id)

def create (ep : WebhookEndpoint) : WebhookTables := { T with endpoints := T.endpoints ++ [ep] }

def mapRow (id : String) (f : WebhookEndpoint → WebhookEndpoint) : WebhookTables :=
  { T with endpoints := T.endpoints.map fun ep => if ep.id = id then f ep else ep }

/-- The deliveries go with their endpoint. -/
def remove (id : String) : WebhookTables :=
  ⟨T.endpoints.filter (·.id ≠ id), T.deliveries.filter (·.delivery.endpointId ≠ id)⟩

/-- A delivery is for an endpoint that exists. -/
def record (row : DeliveryRow) : WebhookTables :=
  if (T.find row.delivery.endpointId).isSome then { T with deliveries := T.deliveries ++ [row] } else T

def settle (deliveryId : String) (patch : DeliveryPatch) : WebhookTables :=
  { T with deliveries := T.deliveries.map fun row =>
      if row.id = deliveryId then { row with delivery := patch.apply row.delivery } else row }

def setSecret (id secret : String) : WebhookTables :=
  { T with endpoints := WebhooksService.setSecret T.endpoints id secret }

/-- The rows of one user. -/
def ownedBy (u : UserId) : WebhookTables where
  endpoints := T.endpoints.filter (·.userId = u)
  deliveries := T.deliveries.filter fun row =>
    T.endpoints.any fun ep => ep.id = row.delivery.endpointId ∧ ep.userId = u

end WebhookTables

/-! ## Requests -/

structure EndpointSummary where
  id : String
  url : String
  events : List WebhookEvent
  isActive : Bool
  description : Option String
  createdAt : Nat
  deriving DecidableEq

def WebhookEndpoint.summary (ep : WebhookEndpoint) : EndpointSummary :=
  ⟨ep.id, ep.url, ep.events, ep.isActive, ep.description, ep.createdAt⟩

/-- The requests that name an endpoint. -/
inductive WebhookRequest where
  | update (patch : EndpointPatch)
  | delete
  | rotateSecret (newSecret : String)
  /-- Either query of its `Promise.all` may come first. -/
  | getDeliveries (page limit : Int) (countFirst : Bool)

/-- A request that has passed the ownership check, with what it has read and counted of the deliveries. -/
structure CheckedRequest where
  endpointId : String
  request : WebhookRequest
  data : Option (List DeliveryRow)
  total : Option Nat

inductive WebhookAnswer where
  | registered (endpoint : WebhookEndpoint)
  | updated (endpoint : WebhookEndpoint)
  | deleted
  | listed (endpoints : List EndpointSummary)
  | deliveries (page : Page DeliveryRow)
  | rotated (newSecret : String)
  | refused (e : HttpError)
  /-- An error of Prisma: a row that is gone, a negative `skip`. -/
  | failed

namespace CheckedRequest

variable (r : CheckedRequest) (T : WebhookTables)

/-- An update of a row that is gone writes nothing. -/
def write : WebhookTables :=
  match r.request with
  | .update patch => T.mapRow r.endpointId patch.apply
  | .delete => T.remove r.endpointId
  | .rotateSecret newSecret => T.setSecret r.endpointId newSecret
  | .getDeliveries .. => T

/-- The answer, or what is left of the request. -/
def answer : WebhookAnswer ⊕ CheckedRequest :=
  match r.request with
  | .update patch => .inl ((T.find r.endpointId).elim .failed fun ep => .updated (patch.apply ep))
  | .delete => .inl ((T.find r.endpointId).elim .failed fun _ => .deleted)
  | .rotateSecret newSecret => .inl ((T.find r.endpointId).elim .failed fun _ => .rotated newSecret)
  | .getDeliveries page limit countFirst =>
    let rows := window ((page - 1) * limit).toNat limit (T.deliveriesOf r.endpointId).reverse
    let count := (T.deliveriesOf r.endpointId).length
    if (page - 1) * limit < 0 then .inl .failed
    else
      -- the rows may change between the two queries
      match r.data, r.total with
      | none, none => .inr (if countFirst then { r with total := some count } else { r with data := some rows })
      | some data, _ => .inl (.deliveries ⟨data, count, page, limit, pagesOf count limit⟩)
      | none, some total => .inl (.deliveries ⟨rows, total, page, limit, pagesOf total limit⟩)

end CheckedRequest

/-! ## All users -/

/-- `issued` are the ids that endpoints have had. -/
structure WebhookDesk where
  tables : WebhookTables
  checked : UserId → List CheckedRequest
  answers : UserId → List WebhookAnswer
  issued : List String

/-- What users do, and what deliveries and a transfer of the admin do to the tables. -/
inductive WebhookDeskAction where
  | register (userId : UserId) (id url : String) (events : List WebhookEvent) (description : Option String)
    (secret : String) (createdAt : Nat)
  | list (userId : UserId)
  | check (userId : UserId) (endpointId : String) (request : WebhookRequest)
  | proceed (userId : UserId) (n : Nat)
  | record (row : DeliveryRow)
  | settle (deliveryId : String) (patch : DeliveryPatch)
  | reissue (endpointId secret : String)

def WebhookDeskAction.actor : WebhookDeskAction → Option UserId
  | register u .. | list u | check u .. | proceed u _ => some u
  | record _ | settle .. | reissue .. => none

def WebhookDeskAction.concerns (u : UserId) (a : WebhookDeskAction) : Bool := a.actor.all (· = u)

namespace WebhookDesk

variable (c : WebhookDesk)

def tell (u : UserId) (a : WebhookAnswer) : WebhookDesk :=
  { c with answers := Function.update c.answers u (c.answers u ++ [a]) }

def setChecked (u : UserId) (rs : List CheckedRequest) : WebhookDesk :=
  { c with checked := Function.update c.checked u rs }

def step : WebhookDeskAction → WebhookDesk
  | .register u id url events description secret createdAt =>
    let ep : WebhookEndpoint := { id, userId := u, isActive := true, events, url, secret, description, createdAt }
    { c with tables := c.tables.create ep, issued := id :: c.issued }.tell u (.registered ep)
  | .list u => c.tell u (.listed ((c.tables.endpoints.filter (·.userId = u)).map (·.summary)))
  | .check u id request =>
    match WebhooksService.findAndVerifyOwnership c.tables.endpoints u id with
    | .ok _ => c.setChecked u (c.checked u ++ [⟨id, request, none, none⟩])
    | .error e => c.tell u (.refused e)
  | .proceed u n =>
    match (c.checked u)[n]? with
    | none => c
    | some r =>
      match r.answer c.tables with
      | .inl a => ({ c with tables := r.write c.tables }.setChecked u ((c.checked u).eraseIdx n)).tell u a
      | .inr r' => c.setChecked u ((c.checked u).set n r')
  | .record row => { c with tables := c.tables.record row }
  | .settle id patch => { c with tables := c.tables.settle id patch }
  | .reissue id secret => { c with tables := c.tables.setSecret id secret }

/-- Ids are generated and have not been in use. -/
def Fresh : WebhookDeskAction → Prop
  | .register _ id .. => id ∉ c.issued
  | _ => True

instance : (a : WebhookDeskAction) → Decidable (c.Fresh a)
  | .register _ id .. => inferInstanceAs (Decidable (id ∉ c.issued))
  | .list _ | .check .. | .proceed .. | .record _ | .settle .. | .reissue .. => .isTrue trivial

end WebhookDesk

/-! ## One user -/

/-- A service that has no other user. -/
structure Tenant where
  tables : WebhookTables
  checked : List CheckedRequest
  answers : List WebhookAnswer

def Tenant.tell (t : Tenant) (a : WebhookAnswer) : Tenant := { t with answers := t.answers ++ [a] }

/-- Nothing is said of owners: what there is, is the user's. -/
def Tenant.step (t : Tenant) : WebhookDeskAction → Tenant
  | .register u id url events description secret createdAt =>
    let ep : WebhookEndpoint := { id, userId := u, isActive := true, events, url, secret, description, createdAt }
    { t with tables := t.tables.create ep }.tell (.registered ep)
  | .list _ => t.tell (.listed (t.tables.endpoints.map (·.summary)))
  | .check _ id request =>
    match t.tables.find id with
    | some _ => { t with checked := t.checked ++ [⟨id, request, none, none⟩] }
    | none => t.tell (.refused (.notFound "Webhook endpoint not found"))
  | .proceed _ n =>
    match t.checked[n]? with
    | none => t
    | some r =>
      match r.answer t.tables with
      | .inl a => { t with tables := r.write t.tables, checked := t.checked.eraseIdx n }.tell a
      | .inr r' => { t with checked := t.checked.set n r' }
  | .record row => { t with tables := t.tables.record row }
  | .settle id patch => { t with tables := t.tables.settle id patch }
  | .reissue id secret => { t with tables := t.tables.setSecret id secret }

/-- `Access denied` tells that there is such an endpoint; apart from that it is as good as `not found`. -/
def WebhookAnswer.blur : WebhookAnswer → WebhookAnswer
  | refused _ => refused (.notFound "Webhook endpoint not found")
  | a => a

def WebhookDesk.view (u : UserId) (c : WebhookDesk) : Tenant where
  tables := c.tables.ownedBy u
  checked := c.checked u
  answers := (c.answers u).map (·.blur)

/-! ## Rows of one user -/

namespace WebhookTables

/-- Whatever endpoint has the id is the user's. -/
def Claimed (T : WebhookTables) (id : String) (u : UserId) : Prop := ∀ ep ∈ T.endpoints, ep.id = id → ep.userId = u

def Linked (T : WebhookTables) : Prop := ∀ row ∈ T.deliveries, ∃ ep ∈ T.endpoints, ep.id = row.delivery.endpointId

/-- Endpoints are still there, or some of them. -/
def Within (T' T : WebhookTables) : Prop :=
  (T'.endpoints.map fun ep => (ep.id, ep.userId)).Sublist (T.endpoints.map fun ep => (ep.id, ep.userId))

section
variable {T T' : WebhookTables} {id : String} {u v : UserId}

theorem Within.mem (h : T'.Within T) {ep : WebhookEndpoint} (hep : ep ∈ T'.endpoints) :
    ∃ ep₀ ∈ T.endpoints, ep₀.id = ep.id ∧ ep₀.userId = ep.userId := by
  obtain ⟨ep₀, hep₀, he⟩ := List.mem_map.mp (h.subset (List.mem_map_of_mem hep))
  exact ⟨ep₀, hep₀, (Prod.mk.inj he).1, (Prod.mk.inj he).2⟩

theorem Within.claimed (h : T'.Within T) (hc : T.Claimed id u) : T'.Claimed id u := by
  intro ep hep he
  obtain ⟨ep₀, hep₀, hid, huser⟩ := h.mem hep
  exact huser.symm.trans (hc ep₀ hep₀ (hid.trans he))

theorem Within.nodup (h : T'.Within T) (hn : (T.endpoints.map (·.id)).Nodup) : (T'.endpoints.map (·.id)).Nodup := by
  have hids (T : WebhookTables) :
      T.endpoints.map (·.id) = (T.endpoints.map fun ep => (ep.id, ep.userId)).map Prod.fst := by
    rw [List.map_map]; rfl
  rw [hids] at hn ⊢
  exact hn.sublist (h.map Prod.fst)

theorem mem_ownedBy {ep : WebhookEndpoint} : ep ∈ (T.ownedBy u).endpoints ↔ ep ∈ T.endpoints ∧ ep.userId = u := by
  simp [ownedBy]

theorem absent_ownedBy (hc : T.Claimed id v) (hne : v ≠ u) : ∀ ep ∈ (T.ownedBy u).endpoints, ep.id ≠ id := by
  intro ep hep he
  obtain ⟨hmem, huser⟩ := mem_ownedBy.mp hep
  exact hne ((hc ep hmem he).symm.trans huser)

theorem linked_ownedBy (T : WebhookTables) (u : UserId) : (T.ownedBy u).Linked := by
  intro row hrow
  obtain ⟨-, hany⟩ := List.mem_filter.mp hrow
  obtain ⟨ep, hep, he⟩ := List.any_eq_true.mp hany
  obtain ⟨hid, huser⟩ := of_decide_eq_true he
  exact ⟨ep, mem_ownedBy.mpr ⟨hep, huser⟩, hid⟩

theorem find_ownedBy (hc : T.Claimed id u) : (T.ownedBy u).find id = T.find id := by
  unfold find ownedBy
  rw [List.find?_filter]
  refine List.find?_congr fun ep hep => ?_
  by_cases he : ep.id = id
  · simp [he, hc ep hep he]
  · simp [he]

theorem deliveriesOf_ownedBy (hc : T.Claimed id u) (hl : T.Linked) :
    (T.ownedBy u).deliveriesOf id = T.deliveriesOf id := by
  unfold deliveriesOf ownedBy
  rw [List.filter_filter]
  refine List.filter_congr fun row hrow => ?_
  by_cases he : row.delivery.endpointId = id
  -- the delivery's endpoint is there, and it is the claimed one
  · obtain ⟨ep, hep, hid⟩ := hl row hrow
    have hany : (T.endpoints.any fun ep => ep.id = row.delivery.endpointId ∧ ep.userId = u) = true :=
      List.any_eq_true.mpr ⟨ep, hep, decide_eq_true ⟨hid, hc ep hep (hid.trans he)⟩⟩
    rw [hany, Bool.and_true]
  · simp [he]

/-! ### Creating -/

theorem ownedBy_create {ep : WebhookEndpoint} (hu : ep.userId = u) (hl : T.Linked)
    (hnew : ∀ ep' ∈ T.endpoints, ep'.id ≠ ep.id) : (T.create ep).ownedBy u = (T.ownedBy u).create ep := by
  unfold create ownedBy
  congr 1
  · simp [hu]
  · refine List.filter_congr fun row hrow => ?_
    obtain ⟨ep', hep', hid⟩ := hl row hrow
    have hne : ep.id ≠ row.delivery.endpointId := fun he => hnew ep' hep' (hid.trans he.symm)
    simp [List.any_append, hne]

theorem ownedBy_create_other {ep : WebhookEndpoint} (hu : ep.userId ≠ u) : (T.create ep).ownedBy u = T.ownedBy u := by
  unfold create ownedBy
  congr 1
  · simp [hu]
  · refine List.filter_congr fun row _ => ?_
    simp [List.any_append, hu]

theorem linked_create (hl : T.Linked) (ep : WebhookEndpoint) : (T.create ep).Linked := fun row hrow => by
  obtain ⟨ep', hep', he⟩ := hl row hrow
  exact ⟨ep', List.mem_append_left _ hep', he⟩

/-! ### Writing a row -/

section
variable {f : WebhookEndpoint → WebhookEndpoint} (hid : ∀ ep, (f ep).id = ep.id)
  (huser : ∀ ep, (f ep).userId = ep.userId)

theorem mapRow_absent (h : ∀ ep ∈ T.endpoints, ep.id ≠ id) : T.mapRow id f = T := by
  have hmap : (T.endpoints.map fun ep => if ep.id = id then f ep else ep) = T.endpoints := by
    rw [List.map_congr_left fun ep hep => if_neg (h ep hep), List.map_id']
  rw [mapRow, hmap]

include hid

theorem linked_mapRow (hl : T.Linked) : (T.mapRow id f).Linked := by
  intro row hrow
  obtain ⟨ep, hep, he⟩ := hl row hrow
  refine ⟨_, List.mem_map_of_mem hep, ?_⟩
  split
  · exact (hid ep).trans he
  · exact he

include huser

theorem within_mapRow : (T.mapRow id f).Within T := by
  have hkeys : ((T.mapRow id f).endpoints.map fun ep => (ep.id, ep.userId)) =
      T.endpoints.map fun ep => (ep.id, ep.userId) := by
    rw [mapRow, List.map_map]
    refine List.map_congr_left fun ep _ => ?_
    simp only [Function.comp_apply]
    split
    · rw [hid, huser]
    · rfl
  rw [Within, hkeys]

theorem ownedBy_mapRow : (T.mapRow id f).ownedBy u = (T.ownedBy u).mapRow id f := by
  have hrow (ep : WebhookEndpoint) : (if ep.id = id then f ep else ep).id = ep.id ∧
      (if ep.id = id then f ep else ep).userId = ep.userId := by
    split
    · exact ⟨hid ep, huser ep⟩
    · exact ⟨rfl, rfl⟩
  unfold mapRow ownedBy
  congr 1
  · rw [List.filter_map]
    congr 1
    refine List.filter_congr fun ep _ => ?_
    simp only [Function.comp_apply, (hrow ep).2]
  · refine List.filter_congr fun row _ => ?_
    rw [List.any_map]
    congr 1
    funext ep
    simp only [Function.comp_apply, (hrow ep).1, (hrow ep).2]

end

theorem setSecret_eq (T : WebhookTables) (id secret : String) :
    T.setSecret id secret = T.mapRow id fun ep => { ep with secret } := rfl

theorem within_setSecret (secret : String) : (T.setSecret id secret).Within T := by
  rw [setSecret_eq]
  exact within_mapRow (fun _ => rfl) fun _ => rfl

theorem linked_setSecret (hl : T.Linked) (secret : String) : (T.setSecret id secret).Linked := by
  rw [setSecret_eq]
  exact linked_mapRow (fun _ => rfl) hl

theorem ownedBy_setSecret (secret : String) : (T.setSecret id secret).ownedBy u = (T.ownedBy u).setSecret id secret := by
  rw [setSecret_eq, setSecret_eq]
  exact ownedBy_mapRow (fun _ => rfl) fun _ => rfl

/-! ### Removing a row -/

theorem remove_absent (hl : T.Linked) (h : ∀ ep ∈ T.endpoints, ep.id ≠ id) : T.remove id = T := by
  have hendpoints : T.endpoints.filter (·.id ≠ id) = T.endpoints :=
    List.filter_eq_self.mpr fun ep hep => decide_eq_true (h ep hep)
  have hdeliveries : T.deliveries.filter (·.delivery.endpointId ≠ id) = T.deliveries := by
    refine List.filter_eq_self.mpr fun row hrow => decide_eq_true fun he => ?_
    obtain ⟨ep, hep, hid⟩ := hl row hrow
    exact h ep hep (hid.trans he)
  rw [remove, hendpoints, hdeliveries]

theorem within_remove : (T.remove id).Within T := List.filter_sublist.map _

theorem linked_remove (hl : T.Linked) : (T.remove id).Linked := by
  intro row hrow
  obtain ⟨hmem, hne⟩ := List.mem_filter.mp hrow
  obtain ⟨ep, hep, he⟩ := hl row hmem
  exact ⟨ep, List.mem_filter.mpr ⟨hep, decide_eq_true fun h => of_decide_eq_true hne (he.symm.trans h)⟩, he⟩

theorem ownedBy_remove : (T.remove id).ownedBy u = (T.ownedBy u).remove id := by
  unfold remove ownedBy
  congr 1
  · rw [List.filter_filter, List.filter_filter]
    exact List.filter_congr fun ep _ => Bool.and_comm ..
  · rw [List.filter_filter, List.filter_filter]
    refine List.filter_congr fun row _ => ?_
    by_cases he : row.delivery.endpointId = id
    · simp [he]
    · have hany : (fun ep : WebhookEndpoint => decide (ep.id ≠ id) &&
          decide (ep.id = row.delivery.endpointId ∧ ep.userId = u)) =
          fun ep => decide (ep.id = row.delivery.endpointId ∧ ep.userId = u) := by
        funext ep
        by_cases hep : ep.id = row.delivery.endpointId
        · simp [hep, he]
        · simp [hep]
      rw [List.any_filter, hany, Bool.and_comm]

/-! ### Deliveries -/

theorem record_endpoints (row : DeliveryRow) : (T.record row).endpoints = T.endpoints := by
  unfold record
  split <;> rfl

theorem linked_record (hl : T.Linked) (row : DeliveryRow) : (T.record row).Linked := by
  unfold record
  split
  · rename_i h
    intro row' hrow'
    rcases List.mem_append.mp hrow' with hrow' | hrow'
    · exact hl row' hrow'
    · cases List.mem_singleton.mp hrow'
      obtain ⟨ep, hep⟩ := Option.isSome_iff_exists.mp h
      exact ⟨ep, List.mem_of_find?_eq_some hep, by simpa using List.find?_some hep⟩
  · exact hl

theorem find_isSome_ownedBy {id : String} : ((T.ownedBy u).find id).isSome =
    T.endpoints.any fun ep => ep.id = id ∧ ep.userId = u := by
  unfold find ownedBy
  rw [List.find?_filter, Bool.eq_iff_iff, List.find?_isSome, List.any_eq_true]
  simp [and_comm]

theorem ownedBy_record (row : DeliveryRow) : (T.record row).ownedBy u = (T.ownedBy u).record row := by
  unfold record
  rw [find_isSome_ownedBy]
  cases hown : T.endpoints.any fun ep => ep.id = row.delivery.endpointId ∧ ep.userId = u with
  | true =>
    have hfind : (T.find row.delivery.endpointId).isSome = true := by
      obtain ⟨ep, hep, he⟩ := List.any_eq_true.mp hown
      exact List.find?_isSome.mpr ⟨ep, hep, decide_eq_true (of_decide_eq_true he).1⟩
    simp only [hfind, ite_true, ownedBy, List.filter_append, List.filter_cons, List.filter_nil, hown]
  | false =>
    simp only [Bool.false_eq_true, ite_false]
    split
    · simp only [ownedBy, List.filter_append, List.filter_cons, List.filter_nil, hown, Bool.false_eq_true,
        ite_false, List.append_nil]
    · rfl

theorem linked_settle (hl : T.Linked) (id : String) (patch : DeliveryPatch) : (T.settle id patch).Linked := by
  intro row hrow
  obtain ⟨row', hrow', rfl⟩ := List.mem_map.mp hrow
  obtain ⟨ep, hep, he⟩ := hl row' hrow'
  refine ⟨ep, hep, he.trans ?_⟩
  split
  · exact (patch.endpointId_eq _).symm
  · rfl

theorem ownedBy_settle (id : String) (patch : DeliveryPatch) :
    (T.settle id patch).ownedBy u = (T.ownedBy u).settle id patch := by
  unfold settle ownedBy
  congr 1
  rw [List.filter_map]
  congr 1
  refine List.filter_congr fun row _ => ?_
  simp only [Function.comp_apply]
  split
  · simp only [patch.endpointId_eq]
  · rfl

end

end WebhookTables

/-! ## What a request writes and reads -/

namespace CheckedRequest

open WebhookTables

variable {T : WebhookTables} {u : UserId} {r r' : CheckedRequest} {a : WebhookAnswer}

theorem within_write (r : CheckedRequest) (T : WebhookTables) : (r.write T).Within T := by
  obtain ⟨id, request, data, total⟩ := r
  cases request with
  | update patch => exact within_mapRow patch.id_eq patch.userId_eq
  | delete => exact within_remove
  | rotateSecret secret => exact within_setSecret secret
  | getDeliveries => exact List.Sublist.refl _

theorem linked_write (r : CheckedRequest) (hl : T.Linked) : (r.write T).Linked := by
  obtain ⟨id, request, data, total⟩ := r
  cases request with
  | update patch => exact linked_mapRow patch.id_eq hl
  | delete => exact linked_remove hl
  | rotateSecret secret => exact linked_setSecret hl secret
  | getDeliveries => exact hl

theorem ownedBy_write (r : CheckedRequest) : (r.write T).ownedBy u = r.write (T.ownedBy u) := by
  obtain ⟨id, request, data, total⟩ := r
  cases request with
  | update patch => exact ownedBy_mapRow patch.id_eq patch.userId_eq
  | delete => exact ownedBy_remove
  | rotateSecret secret => exact ownedBy_setSecret secret
  | getDeliveries => rfl

theorem write_absent (hl : T.Linked) (h : ∀ ep ∈ T.endpoints, ep.id ≠ r.endpointId) : r.write T = T := by
  obtain ⟨id, request, data, total⟩ := r
  cases request with
  | update patch => exact mapRow_absent h
  | delete => exact remove_absent hl h
  | rotateSecret => exact mapRow_absent h
  | getDeliveries => rfl

theorem answer_ownedBy (hc : T.Claimed r.endpointId u) (hl : T.Linked) : r.answer (T.ownedBy u) = r.answer T := by
  simp only [answer, find_ownedBy hc, deliveriesOf_ownedBy hc hl]

/-- What is left of a request is about the same endpoint. -/
theorem answer_inr (h : r.answer T = .inr r') : r'.endpointId = r.endpointId := by
  obtain ⟨id, request, data, total⟩ := r
  cases request <;> cases data <;> simp only [answer] at h <;> grind

theorem answer_blur (h : r.answer T = .inl a) : a.blur = a := by
  obtain ⟨id, request, data, total⟩ := r
  have hrow {b : WebhookEndpoint → WebhookAnswer} (hb : ∀ ep, (b ep).blur = b ep) :
      ((T.find id).elim WebhookAnswer.failed b).blur = (T.find id).elim .failed b := by
    cases T.find id with
    | none => rfl
    | some ep => exact hb ep
  cases request with
  | update | delete | rotateSecret => cases h; exact hrow fun _ => rfl
  | getDeliveries page limit countFirst =>
    simp only [answer] at h
    split at h
    · cases h; rfl
    · cases data <;> cases total <;> cases h <;> rfl

end CheckedRequest

/-! ## Users are apart -/

/-- A request goes on only where it has found the user's endpoint, and the id is never another's after that. -/
structure WebhookDesk.Ok (c : WebhookDesk) : Prop where
  nodup : (c.tables.endpoints.map (·.id)).Nodup
  linked : c.tables.Linked
  issued : ∀ ep ∈ c.tables.endpoints, ep.id ∈ c.issued
  claims : ∀ u, ∀ r ∈ c.checked u, r.endpointId ∈ c.issued ∧ c.tables.Claimed r.endpointId u

namespace WebhookDesk

open WebhookTables WebhooksService

variable {c : WebhookDesk} {T : WebhookTables} {u v : UserId} {ep : WebhookEndpoint} {id : String}
  {rs : List CheckedRequest}

theorem claimed_of_find (hn : (T.endpoints.map (·.id)).Nodup) (hfind : T.find id = some ep) :
    T.Claimed id ep.userId := by
  intro ep' hep' he
  have hid : ep.id = id := by simpa using List.find?_some hfind
  rw [List.inj_on_of_nodup_map hn hep' (List.mem_of_find?_eq_some hfind) (he.trans hid.symm)]

/-! ### What stays -/

theorem Ok.tell (h : c.Ok) (u : UserId) (a : WebhookAnswer) : (c.tell u a).Ok := ⟨h.nodup, h.linked, h.issued, h.claims⟩

theorem Ok.setChecked (h : c.Ok)
    (hrs : ∀ r ∈ rs, r.endpointId ∈ c.issued ∧ c.tables.Claimed r.endpointId u) : (c.setChecked u rs).Ok := by
  refine ⟨h.nodup, h.linked, h.issued, fun v r hr => ?_⟩
  by_cases hv : v = u
  · subst hv
    exact hrs r (by simpa [WebhookDesk.setChecked] using hr)
  · exact h.claims v r (by simpa [WebhookDesk.setChecked, hv] using hr)

theorem Ok.within (h : c.Ok) (hw : T.Within c.tables) (hl : T.Linked) : ({ c with tables := T } : WebhookDesk).Ok where
  nodup := hw.nodup h.nodup
  linked := hl
  issued ep hep := by
    obtain ⟨ep₀, hep₀, hid, -⟩ := hw.mem hep
    exact hid ▸ h.issued ep₀ hep₀
  claims u r hr := (h.claims u r hr).imp_right hw.claimed

theorem Ok.create (h : c.Ok) (hnew : ep.id ∉ c.issued) :
    ({ c with tables := c.tables.create ep, issued := ep.id :: c.issued } : WebhookDesk).Ok where
  nodup := by
    simp only [WebhookTables.create, List.map_append, List.map_cons, List.map_nil]
    refine List.nodup_append.mpr ⟨h.nodup, List.nodup_singleton _, fun _ hid _ hid' => ?_⟩
    obtain ⟨ep', hep', rfl⟩ := List.mem_map.mp hid
    cases List.mem_singleton.mp hid'
    exact fun he => hnew (he ▸ h.issued ep' hep')
  linked := linked_create h.linked ep
  issued ep' hep' := by
    rcases List.mem_append.mp hep' with hep' | hep'
    · exact List.mem_cons_of_mem _ (h.issued ep' hep')
    · cases List.mem_singleton.mp hep'
      exact List.mem_cons_self
  claims u r hr := by
    obtain ⟨hid, hclaimed⟩ := h.claims u r hr
    refine ⟨List.mem_cons_of_mem _ hid, fun ep' hep' he => ?_⟩
    rcases List.mem_append.mp hep' with hep' | hep'
    · exact hclaimed ep' hep' he
    · cases List.mem_singleton.mp hep'
      exact absurd (he ▸ hid) hnew

theorem ok_step (a : WebhookDeskAction) (hf : c.Fresh a) (h : c.Ok) : (c.step a).Ok := by
  cases a with
  | register =>
    refine Ok.tell (h.create ?_) _ _
    exact hf
  | list => exact h.tell _ _
  | check u id request =>
    simp only [step]
    split
    · next ep hfound =>
      obtain ⟨hfind, rfl⟩ := findAndVerifyOwnership_ok.mp hfound
      refine h.setChecked fun r hr => ?_
      rcases List.mem_append.mp hr with hr | hr
      · exact h.claims _ r hr
      · cases List.mem_singleton.mp hr
        have hid : ep.id = id := by simpa using List.find?_some hfind
        exact ⟨hid ▸ h.issued ep (List.mem_of_find?_eq_some hfind), claimed_of_find h.nodup hfind⟩
    · exact h.tell _ _
  | proceed u n =>
    simp only [step]
    split
    · exact h
    · next r hr =>
      have hmem := List.mem_of_getElem? hr
      split
      · have hw := h.within (r.within_write c.tables) (r.linked_write h.linked)
        exact (hw.setChecked fun r' hr' => hw.claims u r' (List.mem_of_mem_eraseIdx hr')).tell _ _
      · next r' hinr =>
        refine h.setChecked fun r'' hr'' => ?_
        rcases List.mem_or_eq_of_mem_set hr'' with hr'' | rfl
        · exact h.claims u r'' hr''
        · exact CheckedRequest.answer_inr hinr ▸ h.claims u r hmem
  | record row => exact h.within (by rw [Within, record_endpoints]) (linked_record h.linked row)
  | settle id patch => exact h.within (List.Sublist.refl _) (linked_settle h.linked id patch)
  | reissue id secret => exact h.within (within_setSecret secret) (linked_setSecret h.linked secret)

/-! ### What is seen -/

theorem view_tell_self (c : WebhookDesk) (u : UserId) (a : WebhookAnswer) :
    (c.tell u a).view u = (c.view u).tell a.blur := by
  simp [view, WebhookDesk.tell, Tenant.tell]

theorem view_tell_other (hne : v ≠ u) (a : WebhookAnswer) : (c.tell v a).view u = c.view u := by
  simp [view, WebhookDesk.tell, hne.symm]

theorem view_setChecked_self (c : WebhookDesk) (u : UserId) (rs : List CheckedRequest) :
    (c.setChecked u rs).view u = { c.view u with checked := rs } := by
  simp [view, WebhookDesk.setChecked]

theorem view_setChecked_other (hne : v ≠ u) : (c.setChecked v rs).view u = c.view u := by
  simp [view, WebhookDesk.setChecked, hne.symm]

/-- Whether an endpoint is another's or is not there, the user does not find it. -/
theorem find_of_denied {e : HttpError} (hn : (T.endpoints.map (·.id)).Nodup)
    (h : findAndVerifyOwnership T.endpoints u id = .error e) : (T.ownedBy u).find id = none := by
  rw [WebhookTables.find, List.find?_eq_none]
  intro ep hep he
  obtain ⟨hmem, huser⟩ := mem_ownedBy.mp hep
  have hsome : (T.find id).isSome = true := List.find?_isSome.mpr ⟨ep, hmem, he⟩
  obtain ⟨ep', hfind⟩ := Option.isSome_iff_exists.mp hsome
  have hown : ep'.userId = u := (claimed_of_find hn hfind ep hmem (of_decide_eq_true he)).symm.trans huser
  rw [findAndVerifyOwnership_ok.mpr ⟨hfind, hown⟩] at h
  cases h

theorem step_shown (a : WebhookDeskAction) (hf : c.Fresh a) (h : c.Ok) (hu : a.concerns u = true) :
    (c.step a).view u = (c.view u).step a := by
  have hactor : ∀ v, a.actor = some v → v = u := by
    simpa [WebhookDeskAction.concerns, Option.all_eq_true] using hu
  cases a with
  | register v id =>
    obtain rfl := hactor v rfl
    rw [step, view_tell_self]
    have hnew : ∀ ep ∈ c.tables.endpoints, ep.id ≠ id := fun ep hep he => hf (he ▸ h.issued ep hep)
    rw [view, ownedBy_create rfl h.linked hnew]
    rfl
  | list v =>
    obtain rfl := hactor v rfl
    exact view_tell_self c _ _
  | check v id request =>
    obtain rfl := hactor v rfl
    simp only [step, Tenant.step]
    split
    -- an endpoint that the check lets pass is the user's, and so it is among his rows
    · next ep hfound =>
      obtain ⟨hfind, rfl⟩ := findAndVerifyOwnership_ok.mp hfound
      have hown : (c.view ep.userId).tables.find id = some ep :=
        (find_ownedBy (claimed_of_find h.nodup hfind)).trans hfind
      rw [hown, view_setChecked_self]
      rfl
    · next e hdenied =>
      have hown : (c.view v).tables.find id = none := find_of_denied h.nodup hdenied
      rw [hown, view_tell_self]
      rfl
  | proceed v n =>
    obtain rfl := hactor v rfl
    simp only [step, Tenant.step]
    cases hr : (c.checked v)[n]? with
    | none => rw [show (c.view v).checked[n]? = none from hr]
    | some r =>
      have hclaimed := (h.claims v r (List.mem_of_getElem? hr)).2
      have hanswer : r.answer (c.view v).tables = r.answer c.tables := CheckedRequest.answer_ownedBy hclaimed h.linked
      simp only [show (c.view v).checked[n]? = some r from hr, hanswer]
      cases hans : r.answer c.tables with
      | inl a =>
        rw [view_tell_self, CheckedRequest.answer_blur hans, view_setChecked_self, view, CheckedRequest.ownedBy_write]
        rfl
      | inr r' => exact view_setChecked_self c _ _
  | record row => rw [step, view, ownedBy_record]; rfl
  | settle id patch => rw [step, view, ownedBy_settle]; rfl
  | reissue id secret => rw [step, view, ownedBy_setSecret]; rfl

theorem step_hidden (a : WebhookDeskAction) (h : c.Ok) (hu : a.concerns u = false) :
    (c.step a).view u = c.view u := by
  obtain ⟨v, hactor, hne⟩ : ∃ v, a.actor = some v ∧ v ≠ u := by
    cases hactor : a.actor with
    | none => simp [WebhookDeskAction.concerns, hactor] at hu
    | some v => exact ⟨v, rfl, by simpa [WebhookDeskAction.concerns, hactor] using hu⟩
  cases a with
  | register =>
    cases hactor
    rw [step, view_tell_other hne, view, ownedBy_create_other hne]
    rfl
  | list =>
    cases hactor
    exact view_tell_other hne _
  | check =>
    cases hactor
    simp only [step]
    split
    · exact view_setChecked_other hne
    · exact view_tell_other hne _
  | proceed _ n =>
    cases hactor
    simp only [step]
    split
    · rfl
    · next r hr =>
      have hclaimed := (h.claims v r (List.mem_of_getElem? hr)).2
      split
      -- whatever has the id by now is v's, so that the write finds no row of u
      · rw [view_tell_other hne, view_setChecked_other hne, view, CheckedRequest.ownedBy_write,
          CheckedRequest.write_absent (linked_ownedBy c.tables u) (absent_ownedBy hclaimed hne)]
        rfl
      · exact view_setChecked_other hne
  | record | settle | reissue => cases hactor

/-- A user gets the rows and the answers that he would get from a service of his own, on what he and the
deliveries do, whatever the other users do in between. -/
theorem users_are_apart {as : List WebhookDeskAction} (u : UserId) (h : c.Ok) (hm : Meets step Fresh c as) :
    (run step c as).view u = run Tenant.step (c.view u) (as.filter (·.concerns u)) :=
  run_project Ok (view u) (·.concerns u) (fun _ a hf hok => ok_step a hf hok)
    (fun _ a hf hok hu => step_shown a hf hok hu) (fun _ a _ hok hu => step_hidden a hok hu) as hm h

/-- Without a pause after the check it is the request of the service. -/
theorem rotateSecret_at_once {endpoints : List WebhookEndpoint} {secret : String}
    (h : rotateSecret c.tables.endpoints u id secret = .ok endpoints) :
    (run step c [.check u id (.rotateSecret secret), .proceed u (c.checked u).length]).tables.endpoints = endpoints := by
  simp only [rotateSecret, except_bind_ok, except_pure_ok] at h
  obtain ⟨ep, hfound, rfl⟩ := h
  simp [step, hfound, WebhookDesk.setChecked, WebhookDesk.tell, CheckedRequest.answer, CheckedRequest.write,
    WebhookTables.setSecret]

/-! ### Two users -/

def start : WebhookDesk := ⟨⟨[], []⟩, fun _ => [], fun _ => [], []⟩

theorem ok_start : start.Ok where
  nodup := List.nodup_nil
  linked _ hrow := absurd hrow List.not_mem_nil
  issued _ hep := absurd hep List.not_mem_nil
  claims _ _ hr := absurd hr List.not_mem_nil

/-- The client deletes an endpoint while he reads its deliveries, and the freelancer tries it. -/
def sampleDesk : List WebhookDeskAction :=
  [.register "client" "A" "https://client" [.escrowFunded] none "s" 0,
    .register "freelancer" "B" "https://freelancer" [] (some "mine") "t" 1,
    .record ⟨"1", { endpointId := "A", event := .escrowFunded, payload := .funded sampleId 0 1000, status := .pending }⟩,
    .check "client" "A" (.getDeliveries 1 20 true), .check "client" "A" .delete, .check "freelancer" "A" .delete,
    .proceed "client" 0, .proceed "freelancer" 0, .proceed "client" 1, .check "freelancer" "A" .delete,
    .proceed "client" 0, .list "freelancer"]

/-- While the client's endpoint is there the freelancer is denied it, and then it is not found. -/
example : (run step start sampleDesk).answers "freelancer" =
    [.registered ⟨"B", "freelancer", true, [], "https://freelancer", "t", some "mine", 1⟩,
      .refused (.forbidden "Access denied"), .refused (.notFound "Webhook endpoint not found"),
      .listed [⟨"B", "https://freelancer", [], true, some "mine", 1⟩]] := rfl

theorem sample_users : (run step start sampleDesk).view "freelancer" =
    run Tenant.step (start.view "freelancer") (sampleDesk.filter (·.concerns "freelancer")) :=
  users_are_apart "freelancer" ok_start (by decide +kernel)

end WebhookDesk

end NexusHub
