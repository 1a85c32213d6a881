import NexusHub.Keys
import NexusHub.Sessions

/-!
# Once per idempotency key

The duplicate check of `createEscrow` is made before its transaction, so any
number of requests with one key may pass it. Only one of them gets past the
unique key; the others leave nothing but jobs for escrows that never exist.
-/

namespace NexusHub

/-! ## The invariant -/

instance (j : Job) : Decidable j.IsFund := by
  cases j <;> unfold Job.IsFund <;> infer_instance

def Job.Funds (id : Uuid) (j : Job) : Prop := j.IsFund ∧ j.escrowId = id

instance (id : Uuid) (j : Job) : Decidable (j.Funds id) := inferInstanceAs (Decidable (_ ∧ _))

def Stage.Early (st : Stage) : Prop := st ≠ enqueued ∧ st ≠ committed ∧ st ≠ ended

structure OnceOk (c : Site) : Prop where
  ids : ∀ (n m : Nat) (x y : Session), c.sessions[n]? = some x → c.sessions[m]? = some y →
    x.escrowId = y.escrowId → n = m
  key : ∀ x ∈ c.sessions, x.stage = .committed → c.world.HasKey x.idempotencyKey
  row : ∀ x ∈ c.sessions, (c.world.db.escrows.lookup x.escrowId).isSome → x.stage = .committed
  once : ∀ (n m : Nat) (x y : Session), c.sessions[n]? = some x → c.sessions[m]? = some y →
    x.stage = .committed → y.stage = .committed → x.idempotencyKey = y.idempotencyKey → n = m
  early : ∀ x ∈ c.sessions, x.stage.Early → ∀ j ∈ c.world.jobs, ¬ j.Funds x.escrowId
  jobs : ∀ x ∈ c.sessions, (c.world.jobs.filter (·.Funds x.escrowId)).length ≤ 1

namespace OnceOk

variable {c c' : Site}

theorem of_world (h : OnceOk c) (hs : c'.sessions = c.sessions) (hj : c'.world.jobs = c.world.jobs)
    (hk : ∀ key, c.world.HasKey key → c'.world.HasKey key)
    (hr : ∀ id, (c'.world.db.escrows.lookup id).isSome → (c.world.db.escrows.lookup id).isSome) :
    OnceOk c' where
  ids := by rw [hs]; exact h.ids
  key := by rw [hs]; exact fun x hx hst => hk _ (h.key x hx hst)
  row := by rw [hs]; exact fun x hx hrow => h.row x hx (hr _ hrow)
  once := by rw [hs]; exact h.once
  early := by rw [hs, hj]; exact h.early
  jobs := by rw [hs, hj]; exact h.jobs

/-- One session goes on: it may commit under a key nobody has committed under, or queue its job. -/
theorem of_put (h : OnceOk c) {n : Nat} {x : Session} {w : World} {st : Stage} (hx : c.sessions[n]? = some x)
    (hopen : x.stage ≠ .committed) (hk : ∀ key, c.world.HasKey key → w.HasKey key)
    (hr : ∀ id, (w.db.escrows.lookup id).isSome →
      (c.world.db.escrows.lookup id).isSome ∨ id = x.escrowId ∧ st = .committed)
    (hcommit : st = .committed → w.HasKey x.idempotencyKey ∧ ¬ c.world.HasKey x.idempotencyKey)
    (hj : w.jobs = c.world.jobs ∧ (st.Early → x.stage.Early) ∨
      w.jobs = c.world.jobs ++ [x.job] ∧ ¬ st.Early ∧ x.stage.Early) : OnceOk (c.put n x (w, st)) := by
  have hid {m : Nat} {y : Session} (hy : (c.put n x (w, st)).sessions[m]? = some y) :
      ∃ y', c.sessions[m]? = some y' ∧ y'.escrowId = y.escrowId := by
    rcases put_sessions hx hy with ⟨rfl, rfl⟩ | ⟨-, hy'⟩
    · exact ⟨x, hx, rfl⟩
    · exact ⟨y, hy', rfl⟩
  have hother {m : Nat} {y : Session} (hm : m ≠ n) (hy : c.sessions[m]? = some y) : y.escrowId ≠ x.escrowId :=
    fun he => hm (h.ids m n y x hy hx he)
  refine ⟨fun m k y z hy hz he => ?_, fun y hy hst => ?_, fun y hy hrow => ?_,
    fun m k y z hy hz hys hzs he => ?_, fun y hy hst j hmem => ?_, fun y hy => ?_⟩
  · obtain ⟨y', hy', hye⟩ := hid hy
    obtain ⟨z', hz', hze⟩ := hid hz
    exact h.ids m k y' z' hy' hz' (hye.trans (he.trans hze.symm))
  · obtain ⟨m, hy⟩ := List.mem_iff_getElem?.mp hy
    rcases put_sessions hx hy with ⟨-, rfl⟩ | ⟨-, hy'⟩
    · exact (hcommit hst).1
    · exact hk _ (h.key y (List.mem_of_getElem? hy') hst)
  · obtain ⟨m, hy⟩ := List.mem_iff_getElem?.mp hy
    rcases put_sessions hx hy with ⟨-, rfl⟩ | ⟨hm, hy'⟩
    · rcases hr _ hrow with hrow | ⟨-, hst⟩
      · exact absurd (h.row x (List.mem_of_getElem? hx) hrow) hopen
      · exact hst
    · rcases hr _ hrow with hrow | ⟨he, -⟩
      · exact h.row y (List.mem_of_getElem? hy') hrow
      · exact absurd he (hother hm hy')
  · rcases put_sessions hx hy with ⟨hm, rfl⟩ | ⟨-, hy'⟩
    · rcases put_sessions hx hz with ⟨hk', -⟩ | ⟨-, hz'⟩
      · exact hm.trans hk'.symm
      · have he : x.idempotencyKey = z.idempotencyKey := he
        exact absurd (he ▸ h.key z (List.mem_of_getElem? hz') hzs) (hcommit hys).2
    · rcases put_sessions hx hz with ⟨-, rfl⟩ | ⟨-, hz'⟩
      · have he : y.idempotencyKey = x.idempotencyKey := he
        exact absurd (he ▸ h.key y (List.mem_of_getElem? hy') hys) (hcommit hzs).2
      · exact h.once m k y z hy' hz' hys hzs he
  · obtain ⟨m, hy⟩ := List.mem_iff_getElem?.mp hy
    rcases put_sessions hx hy with ⟨-, rfl⟩ | ⟨hm, hy'⟩
    · rcases hj with ⟨hj, hearly⟩ | ⟨-, hn, -⟩
      · exact h.early x (List.mem_of_getElem? hx) (hearly hst) j (hj ▸ hmem)
      · exact absurd hst hn
    · rcases hj with ⟨hj, -⟩ | ⟨hj, -, -⟩
      · exact h.early y (List.mem_of_getElem? hy') hst j (hj ▸ hmem)
      · have hmem : j ∈ c.world.jobs ++ [x.job] := hj ▸ hmem
        rcases List.mem_append.mp hmem with hmem | hmem
        · exact h.early y (List.mem_of_getElem? hy') hst j hmem
        · rw [List.mem_singleton.mp hmem]
          exact fun hf => hother hm hy' hf.2.symm
  · obtain ⟨m, hy⟩ := List.mem_iff_getElem?.mp hy
    change (w.jobs.filter _).length ≤ 1
    rcases hj with ⟨hj, -⟩ | ⟨hj, -, hearly⟩
    · obtain ⟨y', hy', hye⟩ := hid hy
      rw [hj, ← hye]
      exact h.jobs y' (List.mem_of_getElem? hy')
    · rw [hj, List.filter_append, List.length_append]
      rcases put_sessions hx hy with ⟨-, rfl⟩ | ⟨hm, hy'⟩
      · -- nothing has been queued for the escrow so far
        have hnone : c.world.jobs.filter (·.Funds x.escrowId) = [] := by
          refine List.filter_eq_nil_iff.mpr fun j hmem hf => ?_
          exact h.early x (List.mem_of_getElem? hx) hearly j hmem (of_decide_eq_true hf)
        change (c.world.jobs.filter (·.Funds x.escrowId)).length + _ ≤ 1
        rw [hnone, List.length_nil, Nat.zero_add]
        exact List.length_filter_le _ [x.job]
      · have hnot : ¬ x.job.Funds y.escrowId := fun hf => hother hm hy' hf.2.symm
        have : [x.job].filter (·.Funds y.escrowId) = [] := by simp [hnot]
        rw [this]
        exact h.jobs y (List.mem_of_getElem? hy')

theorem of_begun (h : OnceOk c) {x : Session} (hst : x.stage = .begun) (hf : c.Fresh x.escrowId) :
    OnceOk { c with sessions := c.sessions ++ [x] } := by
  obtain ⟨hrow, hids, hjobs⟩ := hf
  have hnew {m : Nat} {y : Session} (hy : (c.sessions ++ [x])[m]? = some y) :
      c.sessions[m]? = some y ∨ m = c.sessions.length ∧ y = x := by
    rw [List.getElem?_append] at hy
    split at hy
    · exact .inl hy
    · rename_i hlt
      refine .inr ⟨?_, List.mem_singleton.mp (List.mem_of_getElem? hy)⟩
      obtain ⟨hlt', -⟩ := List.getElem?_eq_some_iff.mp hy
      simp only [List.length_singleton] at hlt'
      omega
  have hnone (j : Job) (hmem : j ∈ c.world.jobs) : ¬ j.Funds x.escrowId := fun hf => hjobs j hmem hf.2
  refine ⟨fun m k y z hy hz he => ?_, fun y hy hys => ?_, fun y hy hys => ?_,
    fun m k y z hy hz hys hzs he => ?_, fun y hy hys => ?_, fun y hy => ?_⟩
  · rcases hnew hy with hy₀ | ⟨rfl, rfl⟩
    · rcases hnew hz with hz₀ | ⟨rfl, rfl⟩
      · exact h.ids m k y z hy₀ hz₀ he
      · exact absurd he (hids y (List.mem_of_getElem? hy₀))
    · rcases hnew hz with hz₀ | ⟨rfl, rfl⟩
      · exact absurd he.symm (hids z (List.mem_of_getElem? hz₀))
      · rfl
  · rcases List.mem_append.mp hy with hy | hy
    · exact h.key y hy hys
    · rw [List.mem_singleton.mp hy, hst] at hys; cases hys
  · rcases List.mem_append.mp hy with hy | hy
    · exact h.row y hy hys
    · rw [List.mem_singleton.mp hy, hrow] at hys; cases hys
  · rcases hnew hy with hy | ⟨-, rfl⟩
    · rcases hnew hz with hz | ⟨-, rfl⟩
      · exact h.once m k y z hy hz hys hzs he
      · rw [hst] at hzs; cases hzs
    · rw [hst] at hys; cases hys
  · rcases List.mem_append.mp hy with hy | hy
    · exact h.early y hy hys
    · rw [List.mem_singleton.mp hy]; exact hnone
  · rcases List.mem_append.mp hy with hy | hy
    · exact h.jobs y hy
    · have : c.world.jobs.filter (·.Funds x.escrowId) = [] :=
        List.filter_eq_nil_iff.mpr fun j hmem hf => hnone j hmem (of_decide_eq_true hf)
      rw [List.mem_singleton.mp hy, this]
      exact Nat.zero_le 1

theorem of_stepped (h : OnceOk c) {s : Stellar} (hstep : c.Stepped s c') : OnceOk c' := by
  cases hstep with
  | idle => exact h
  | ledger | guarded | dropped => exact h.of_world rfl rfl (fun _ hk => hk) fun _ hr => hr
  | begun hx hf => exact h.of_begun hx hf
  | @asked w j hj hdb hl hjobs =>
    have hfilter (id : Uuid) : w.jobs.filter (·.Funds id) = c.world.jobs.filter (·.Funds id) := by
      have : ¬ j.Funds id := fun hf => hj hf.1
      rw [hjobs, List.filter_append]
      simp [this]
    refine ⟨h.ids, fun x hx hst => ?_, fun x hx hr => ?_, h.once, fun x hx hst j' hmem => ?_, fun x hx => ?_⟩
    · unfold World.HasKey
      rw [hdb]; exact h.key x hx hst
    · rw [hdb] at hr; exact h.row x hx hr
    · rw [hjobs] at hmem
      rcases List.mem_append.mp hmem with hmem | hmem
      · exact h.early x hx hst j' hmem
      · rw [List.mem_singleton.mp hmem]
        exact fun hf => hj hf.1
    · rw [hfilter]; exact h.jobs x hx
  | @written n d w hd ha hl hj =>
    have happ := DisputeWrite.apply_ok ha
    refine h.of_world rfl hj (fun key hk => ?_) fun id hid => ?_
    · unfold World.HasKey at hk ⊢
      rw [happ.transactions]; exact hk
    · exact happ.isSome hid
  | @moved n x w st hx hm =>
    have hstay (hst : st ≠ .committed) (hopen : x.stage ≠ .committed) (hearly : st.Early → x.stage.Early) :
        OnceOk (c.put n x (c.world, st)) :=
      h.of_put hx hopen (fun _ hk => hk) (fun _ hr => .inl hr) (fun h => absurd h hst) (.inl ⟨rfl, hearly⟩)
    cases hm with
    | checked hst _ => exact hstay nofun (by simp [hst]) fun _ => by simp [hst, Stage.Early]
    | balanceRead hst _ _ => exact hstay nofun (by simp [hst]) fun _ => by simp [hst, Stage.Early]
    | locked hst _ _ _ => exact hstay nofun (by simp [hst]) fun _ => by simp [hst, Stage.Early]
    | rowInserted hst => exact hstay nofun (by simp [hst]) fun _ => by simp [hst, Stage.Early]
    | keyInserted hst _ _ => exact hstay nofun (by simp [hst]) fun _ => by simp [hst, Stage.Early]
    | ended hst =>
      exact hstay nofun (fun h => hst (.inl h)) fun h => absurd rfl h.2.2
    | enqueued hst =>
      exact h.of_put hx (by simp [hst]) (fun _ hk => hk) (fun _ hr => .inl hr) nofun
        (.inr ⟨rfl, by simp [Stage.Early], by simp [hst, Stage.Early]⟩)
    | committed hst ha =>
      obtain ⟨b, -, -, -, -, hkey, rfl⟩ := Session.apply_ok.mp ha
      refine h.of_put hx (by simp [hst]) (fun key hk => (Store.isSome_insert _ _ _ key).mpr (.inl hk))
        (fun id hr => ?_)
          (fun _ => ⟨(Store.isSome_insert _ _ _ _).mpr (.inr rfl), by simp [World.HasKey, hkey]⟩)
        (.inl ⟨rfl, fun h => absurd rfl h.2.1⟩)
      rcases (Store.isSome_insert _ _ _ id).mp hr with hr | hr
      · exact .inl hr
      · exact .inr ⟨(Option.some.inj hr).symm, rfl⟩

theorem of_perform (h : OnceOk c) (s : Stellar) (o : Op) : OnceOk ((site s).perform c o).1 := by
  rcases Site.perform_cases s c o with hp | hp
  · rw [hp]
    refine h.of_world rfl ?_ (fun key hk => ((platform_records s).perform c.world o).keys key hk)
      fun id hid => ?_
    · rcases World.perform_cases s c.world o with hs | ⟨tx, rfl, hc⟩ | ⟨m, args, ss, call, rfl, -, hc⟩
      · exact hs.jobs
      · exact hc.jobs
      · exact hc.jobs
    · refine World.perform_db (fun db => (db.escrows.lookup id).isSome → (c.world.db.escrows.lookup id).isSome)
        (fun h => h) (fun tx db _ ha hr => ?_) hid
      rw [(DbTx.apply_ok ha).1.escrows id] at hr
      split at hr
      · rw [Option.isSome_map] at hr; exact hr
      · exact hr
  · rw [hp]; exact h

end OnceOk

/-! ## Every run -/

theorem Session.Moves.not_committed {c : Site} {x : Session} {w : World} {st : Stage} (h : x.Moves c w st) :
    x.stage ≠ .committed := by
  cases h with
  | checked hst | balanceRead hst | locked hst | rowInserted hst | keyInserted hst | enqueued hst
  | committed hst =>
    rw [hst]; exact nofun
  | ended hst => exact fun h => hst (.inl h)

theorem site_stays (s : Stellar) : Prog.Evolves (site s) fun c c' : Site =>
    ∀ (n : Nat) (x : Session), c.sessions[n]? = some x → x.stage = .committed → c'.sessions[n]? = some x where
  refl c n x hx _ := hx
  trans h h' n x hx hst := h' n x (h n x hx hst) hst
  perform c o n x hx _ := by
    rcases Site.perform_cases s c o with hp | hp
    · rw [hp]; exact hx
    · rw [hp]; exact hx
  env c a n x hx hst := by
    have hstep := c.env_stepped s a
    change (c.env s a).sessions[n]? = some x
    generalize c.env s a = c' at hstep ⊢
    cases hstep with
    | idle | ledger | asked | guarded | written | dropped => exact hx
    | begun =>
      obtain ⟨hlt, -⟩ := List.getElem?_eq_some_iff.mp hx
      exact (List.getElem?_append_left hlt).trans hx
    | @moved m y w st hy hm =>
      have hne : m ≠ n := fun he => by
        subst he
        cases hy.symm.trans hx
        exact hm.not_committed hst
      exact (List.getElem?_set_ne hne).trans hx

def Site.committedUnder (c : Site) (key : String) : List Session :=
  c.sessions.filter fun x => x.idempotencyKey = key ∧ x.stage = .committed

/-- The funding jobs queued by sessions with the key whose escrows exist. -/
def Site.liveJobs (c : Site) (key : String) : List Job :=
  c.world.jobs.filter fun j => j.IsFund ∧ (c.world.db.escrows.lookup j.escrowId).isSome ∧
    ∃ x ∈ c.sessions, x.idempotencyKey = key ∧ x.escrowId = j.escrowId

/-- The steps of `createEscrow` requests. -/
def SiteAction.OfSession : SiteAction → Prop
  | advance _ | abort _ | request (.createEscrow ..) => True
  | _ => False

theorem filter_length_le_one {α : Type} {p : α → Bool} : ∀ {l : List α},
    (∀ (n m : Nat) (x y : α), l[n]? = some x → l[m]? = some y → p x → p y → n = m) → (l.filter p).length ≤ 1
  | [], _ => Nat.zero_le 1
  | a :: l, h => by
    have ih : (l.filter p).length ≤ 1 := filter_length_le_one fun n m x y hx hy hpx hpy => by
      have := h (n + 1) (m + 1) x y hx hy hpx hpy
      omega
    by_cases ha : p a
    · have hnone : l.filter p = [] := by
        refine List.filter_eq_nil_iff.mpr fun y hy hpy => ?_
        obtain ⟨m, hm⟩ := List.mem_iff_getElem?.mp hy
        have := h 0 (m + 1) a y rfl hm ha hpy
        omega
      simp [ha, hnone]
    · simpa [ha] using ih

theorem OnceOk.committedUnder_le {c : Site} (h : OnceOk c) (key : String) :
    (c.committedUnder key).length ≤ 1 := by
  refine filter_length_le_one fun n m x y hx hy hpx hpy => ?_
  obtain ⟨hkx, hsx⟩ := of_decide_eq_true hpx
  obtain ⟨hky, hsy⟩ := of_decide_eq_true hpy
  exact h.once n m x y hx hy hsx hsy (hkx.trans hky.symm)

theorem OnceOk.liveJobs_le {c : Site} (h : OnceOk c) (key : String) : (c.liveJobs key).length ≤ 1 := by
  by_cases hnil : c.liveJobs key = []
  · rw [hnil]; exact Nat.zero_le 1
  · obtain ⟨j₀, hj₀⟩ := List.exists_mem_of_ne_nil _ hnil
    have hlive {j : Job} (hj : j ∈ c.liveJobs key) : j.IsFund ∧ (c.world.db.escrows.lookup j.escrowId).isSome ∧
        ∃ x ∈ c.sessions, x.idempotencyKey = key ∧ x.escrowId = j.escrowId :=
      of_decide_eq_true (List.mem_filter.mp hj).2
    obtain ⟨-, hr₀, x₀, hx₀, hk₀, hid₀⟩ := hlive hj₀
    have hc₀ := h.row x₀ hx₀ (hid₀ ▸ hr₀)
    -- every other one is queued by the same session
    have hsame {j : Job} (hj : j ∈ c.liveJobs key) : j.Funds x₀.escrowId := by
      obtain ⟨hf, hr, x, hx, hk, hid⟩ := hlive hj
      have hc := h.row x hx (hid ▸ hr)
      obtain ⟨n, hn⟩ := List.mem_iff_getElem?.mp hx
      obtain ⟨m, hm⟩ := List.mem_iff_getElem?.mp hx₀
      obtain rfl := h.once n m x x₀ hn hm hc hc₀ (hk.trans hk₀.symm)
      cases hn.symm.trans hm
      exact ⟨hf, hid.symm⟩
    have hsub : (c.liveJobs key).filter (·.Funds x₀.escrowId) = c.liveJobs key :=
      List.filter_eq_self.mpr fun j hj => decide_eq_true (hsame hj)
    calc (c.liveJobs key).length
        = ((c.liveJobs key).filter (·.Funds x₀.escrowId)).length := by rw [hsub]
      _ ≤ (c.world.jobs.filter (·.Funds x₀.escrowId)).length :=
          (List.Sublist.filter _ List.filter_sublist).length_le
      _ ≤ 1 := h.jobs x₀ hx₀

theorem session_step {s : Stellar} {c : Site} {a : SiteAction} (ha : a.OfSession) :
    ((site s).env c a).world.db = c.world.db ∨ ∃ (n : Nat) (x : Session), c.sessions[n]? = some x ∧
      x.stage ≠ .committed ∧ x.apply c.world.db = .ok ((site s).env c a).world.db ∧
      ((site s).env c a).sessions[n]? = some { x with stage := .committed } := by
  have hturn {c' : Site} (h : c.Turns c') : c'.world.db = c.world.db ∨ ∃ (n : Nat) (x : Session),
      c.sessions[n]? = some x ∧ x.stage ≠ .committed ∧ x.apply c.world.db = .ok c'.world.db ∧
      c'.sessions[n]? = some { x with stage := .committed } := by
    rcases h with rfl | ⟨n, x, w, st, hx, hm, rfl⟩
    · exact .inl rfl
    · have hopen := hm.not_committed
      cases hm with
      | committed _ ha =>
        obtain ⟨hlt, -⟩ := List.getElem?_eq_some_iff.mp hx
        exact .inr ⟨n, x, hx, hopen, ha, List.getElem?_set_self hlt⟩
      | checked | balanceRead | locked | rowInserted | keyInserted | enqueued | ended => exact .inl rfl
  cases a with
  | ledger | write | drop => exact ha.elim
  | advance n => exact hturn (c.advance_turns n)
  | abort n => exact hturn (c.abort_turns n)
  | request r =>
    left
    change (c.request r).world.db = c.world.db
    cases r with
    | createEscrow =>
      unfold Site.request
      split
      · rfl
      · simp only; split <;> rfl
    | _ => exact ha.elim

/-- In every run from a site without open requests at most one `createEscrow`
commits under a key and at most one job queued under it names an escrow that
exists; every other step of a `createEscrow` leaves the database as it was. -/
theorem once_per_key (s : Stellar) (w : World) (as : List (PoolAction Job SiteAction WorkerError))
    (key : String) :
    let c := ((Site.start w).after s as).world
    (c.committedUnder key).length ≤ 1 ∧ (c.liveJobs key).length ≤ 1 ∧
      ∀ front a rest, as = front ++ .env a :: rest → a.OfSession →
        let c₁ := ((Site.start w).after s front).world
        let c₂ := ((Site.start w).after s (front ++ [.env a])).world
        c₂.world.db = c₁.world.db ∨
          ∃ (n : Nat) (x : Session), c₁.sessions[n]? = some x ∧ x.stage ≠ .committed ∧
            x.apply c₁.world.db = .ok c₂.world.db ∧ c.sessions[n]? = some { x with stage := .committed } := by
  intro c
  have h0 : OnceOk (Site.start w) := by
    refine ⟨?_, ?_, ?_, ?_, ?_, ?_⟩
    · exact fun _ _ _ _ h => nomatch h
    · exact fun _ h => nomatch h
    · exact fun _ h => nomatch h
    · exact fun _ _ _ _ h => nomatch h
    · exact fun _ h => nomatch h
    · exact fun _ h => nomatch h
  have h : OnceOk ((Site.start w).after s as).world :=
    pool_world_inv (I := OnceOk) (fun c a h => h.of_stepped (c.env_stepped s a)) (fun _ o h => h.of_perform s o)
      (c := ⟨Site.start w, []⟩) h0 as
  refine ⟨h.committedUnder_le key, h.liveJobs_le key, fun front a rest has ha => ?_⟩
  intro c₁ c₂
  have hlast : c₂ = (site s).env c₁ a := by
    simp only [c₂, c₁, Site.after, run_append, run_cons, run_nil]
    rfl
  have hrest : c = (run (Pool.step (site s) (Worker.process s))
      ((Site.start w).after s (front ++ [.env a])) rest).world := by
    simp only [c, Site.after, has, run_append, run_cons, run_nil]
  rcases session_step (s := s) (c := c₁) ha with hdb | ⟨n, x, hx, hopen, happ, hcom⟩
  · exact .inl (by rw [hlast]; exact hdb)
  · refine .inr ⟨n, x, hx, hopen, by rw [hlast]; exact happ, ?_⟩
    rw [hrest]
    refine pool_rel (site_stays s) _ rest n _ ?_ rfl
    change c₂.sessions[n]? = _
    rw [hlast]
    exact hcom

end NexusHub
