import NexusHub.Attempts
import NexusHub.Roles
import NexusHub.Trail

/-!
# Whose key signs

The service holds the users' keys. A call that is about to be submitted was
asked for by one request, and apart from the admin's it bears the key of that
request's caller alone. Requests and workers interleave, and either may fail.
-/

namespace NexusHub

/-! ## What the contract is told -/

/-- Users stay, and rows keep what the contract is told of them. -/
def World.Steady (w w' : World) : Prop := w'.db.users = w.db.users ∧ w.db.Rows Escrow.Fixed w'.db

theorem steady_evolves (s : Stellar) : Prog.Evolves (platform s) World.Steady :=
  (platform_users s).and (rows_evolve Escrow.fixed_evolves s)

theorem World.Steady.keyOf {s : Stellar} {w w' : World} (h : w.Steady w') (u : UserId) :
    w'.keyOf s u = w.keyOf s u := by
  rw [World.keyOf, h.1]; rfl

/-- The calls of a job. A job that releases has none: the contract does not take its arguments. -/
inductive Job.Makes (s : Stellar) (w : World) : Job → Call → Prop where
  | init {id : Uuid} {u : UserId} {amount : Int} {e : Escrow} {f : User} {client freelancer : Address} {x : I128}
      {total expiry : UInt32} (he : w.db.escrows.lookup id = some e) (hk : w.keyOf s u = some client)
      (hf : w.db.users.lookup e.freelancerId = some f) (ha : f.stellarPublicKey = some freelancer)
      (hx : x.val = amount) (htotal : total.toNat = e.milestonesTotal) (hexpiry : expiry.toNat = e.expiryLedger) :
      Makes s w (.fundEscrow id u amount) (.initEscrow id.bytes client freelancer s.tokenContract x
        (bufferFromHex (Worker.milestoneHashOf s id e)) e.description 0 total expiry)
  | fund {id : Uuid} {u : UserId} {amount : Int} : Makes s w (.fundEscrow id u amount) (.fund id.bytes)
  | refund {id : Uuid} {u : UserId} {reason : String} : Makes s w (.refundEscrow id u reason) (.refund id.bytes)
  | approve {id : Uuid} {u : UserId} {role : ApproverRole} {key : Address} (hk : w.keyOf s u = some key) :
      Makes s w (.approveRelease id u role) (.approveRelease id.bytes key)
  | milestone {id : Uuid} {u : UserId} : Makes s w (.completeMilestone id u) (.completeMilestone id.bytes)
  | expire {id : Uuid} {u : Option UserId} : Makes s w (.claimExpired id u) (.claimExpired id.bytes)

/-- Who signs for a job besides the admin. -/
def Job.signer : Job → Option UserId
  | fundEscrow _ u _ | releaseEscrow _ u | approveRelease _ u _ | completeMilestone _ u => some u
  | refundEscrow .. | claimExpired .. => none

structure Job.Calls (s : Stellar) (j : Job) (w : World) (method : String) (args : List ScVal)
    (signers : List Address) : Prop where
  signed : ∀ a ∈ signers, a = s.adminKey ∨ ∃ u ∈ j.signer, w.keyOf s u = some a
  made : ∀ call, dispatch method args = some call → j.Makes s w call

def Job.CallsIn (s : Stellar) (j : Job) (w : World) : Op → Prop
  | .submit method args signers => j.Calls s w method args signers
  | _ => True

theorem Job.callsIn_of_quiet {s : Stellar} {j : Job} (w : World) (o : Op) (h : o.Quiet) : j.CallsIn s w o := by
  cases o with
  | submit => exact h.elim
  | _ => trivial

section
variable {s : Stellar} {j : Job} {w : World} {method : String} {args : List ScVal}

/-- A call under the admin's key alone. -/
theorem Job.Calls.by_admin {call : Call} (hd : dispatch method args = some call) (h : j.Makes s w call) :
    j.Calls s w method args [s.adminKey] where
  signed a ha := .inl (List.mem_singleton.mp ha)
  made call' hc := by
    cases hd.symm.trans hc
    exact h

theorem Job.Calls.by_signer {u : UserId} {key : Address} (hu : j.signer = some u) (hk : w.keyOf s u = some key)
    (h : ∀ call, dispatch method args = some call → j.Makes s w call) :
    j.Calls s w method args [s.adminKey, key] where
  signed a ha := by
    rcases List.mem_cons.mp ha with rfl | ha
    · exact .inl rfl
    · rw [List.mem_singleton.mp ha]
      exact .inr ⟨u, hu, hk⟩
  made := h

end

/-! ## Handlers -/

/-- What a funding has read is what the rows say. -/
structure Worker.FundingInput.Reads (s : Stellar) (w : World) (id : Uuid) (u : UserId)
    (input : Worker.FundingInput) : Prop where
  row : ∃ e, w.db.escrows.lookup id = some e ∧ input.escrow.Fixed e
  key : w.keyOf s u = some input.clientKey
  freelancer : ∃ f, w.db.users.lookup input.escrow.freelancerId = some f ∧
    f.stellarPublicKey = some input.freelancerAddress

theorem Worker.FundingInput.Reads.steady {s : Stellar} {w w' : World} {id : Uuid} {u : UserId}
    {input : Worker.FundingInput} (h : input.Reads s w id u) (hw : w.Steady w') : input.Reads s w' id u := by
  obtain ⟨e, he, ht⟩ := h.row
  obtain ⟨e', he', ht'⟩ := hw.2 id e he
  exact ⟨⟨e', he', Escrow.fixed_evolves.trans ht ht'⟩, (hw.keyOf u).trans h.key, by rw [hw.1]; exact h.freelancer⟩

section
variable {s : Stellar} {w : World} {id : Uuid} {u : UserId} {ok : World → Op → Prop}

theorem safe_keyOf {α : Type} {missing : String} {f : Address → Handler α}
    (h : ∀ key, w.keyOf s u = some key → Prog.Safe (platform s) World.Steady ok (f key) w) :
    Prog.Safe (platform s) World.Steady ok (Worker.secretOf s (w.db.users.lookup u) missing >>= f) w := by
  unfold World.keyOf at h
  unfold Worker.secretOf
  cases hs : (w.db.users.lookup u).bind (·.stellarSecretEncrypted) with
  | none => trivial
  | some secret =>
    rw [hs] at h
    change Prog.Safe _ _ _ (orThrow (s.keypairOf secret) _ >>= f) w
    exact safe_orThrow fun key hk => h key hk

theorem safe_findUser {α : Type} {f : Option User → Handler α}
    (hok : ∀ w o, Op.Quiet o → ok w o)
    (h : ∀ w', w.Steady w' → Prog.Safe (platform s) World.Steady ok (f (w'.db.users.lookup u)) w') :
    Prog.Safe (platform s) World.Steady ok (perform (.findUser u) >>= f) w := by
  refine Prog.safe_call_bind (fun w' _ => hok w' _ trivial) fun w' r hw hr => ?_
  cases hr
  exact h w' hw

theorem safeTo_readFundingInput (hok : ∀ w o, Op.Quiet o → ok w o) :
    Prog.SafeTo (platform s) World.Steady ok (fun w' input => input.Reads s w' id u)
      (Worker.readFundingInput s id u) w := by
  have hR := steady_evolves s
  have hfound : Prog.SafeTo (platform s) World.Steady ok (fun w' found => found = w'.db.escrows.lookup id)
      (perform (.findEscrow id)) w :=
    Prog.safeTo_call (fun w' _ => hok w' _ trivial) fun w' r _ hr => by cases hr; rfl
  have hclient {w : World} : Prog.SafeTo (platform s) World.Steady ok
      (fun w' client => w.Steady w' ∧ client = w'.db.users.lookup u) (perform (.findUser u)) w :=
    Prog.safeTo_call (fun w' _ => hok w' _ trivial) fun w' r hw hr => ⟨hw, by cases hr; rfl⟩
  have hfreelancer {w : World} : Prog.SafeTo (platform s) World.Steady ok
      (fun w' f => w.Steady w' ∧ ∀ user ∈ f, ∃ e, w'.db.escrows.lookup id = some e ∧
        w'.db.users.lookup e.freelancerId = some user) (Worker.freelancerOf id) w := by
    have hrow : Prog.SafeTo (platform s) World.Steady ok (fun w' e => w.Steady w' ∧ e = w'.db.escrows.lookup id)
        (perform (.findEscrow id)) w :=
      Prog.safeTo_call (fun w' _ => hok w' _ trivial) fun w' r hw hr => ⟨hw, by cases hr; rfl⟩
    refine hrow.bind_to fun escrow w₁ h₁ => ?_
    obtain ⟨hw₁, hrow⟩ := h₁
    cases escrow with
    | none => exact ⟨hw₁, fun _ h => by cases h⟩
    | some e =>
      refine Prog.safeTo_call (fun w' _ => hok w' _ trivial) fun w' r hw hr => ⟨hR.trans hw₁ hw, fun user hu => ?_⟩
      cases hr
      obtain ⟨e', he', ht⟩ := hw.2 id e hrow.symm
      exact ⟨e', he', by rw [ht.freelancerId]; exact hu⟩
  refine hfound.bind_to fun found w₁ hfound => hclient.bind_to fun client w₂ h₂ => ?_
  obtain ⟨hw₂, hclient⟩ := h₂
  refine hfreelancer.bind_to fun freelancer w₃ h₃ => ?_
  obtain ⟨hw₃, hfreelancer⟩ := h₃
  refine safeTo_orThrow fun e he => safeTo_orThrow fun secret hsecret => safeTo_orThrow fun address haddress =>
    safeTo_orThrow fun key hkey => ?_
  obtain ⟨f, hf, ha⟩ := Option.bind_eq_some_iff.mp haddress
  obtain ⟨e', he', ht⟩ := (hR.trans hw₂ hw₃).2 id e (hfound.symm.trans he)
  obtain ⟨e'', he'', hf'⟩ := hfreelancer f hf
  cases he'.symm.trans he''
  refine ⟨⟨e', he', ht⟩, ?_, f, by rw [← ht.freelancerId]; exact hf', ha⟩
  rw [hw₃.keyOf, World.keyOf, ← hclient, hsecret]
  exact hkey

theorem toU32_toNat {n : Nat} {x : UInt32} (h : Stellar.toU32 n = some x) : x.toNat = n := by
  unfold Stellar.toU32 at h
  split at h
  · rename_i hn
    cases h
    exact UInt32.toNat_ofNat_of_lt' hn
  · cases h

theorem toI128_val {n : Int} {x : I128} (h : Stellar.toI128 n = some x) : x.val = n := by
  unfold Stellar.toI128 at h
  split at h
  · cases h; rfl
  · cases h

end

section
variable {s : Stellar} {w : World} {id : Uuid} {u : UserId}

abbrev Handler.Consents {α : Type} (s : Stellar) (j : Job) (p : Handler α) (w : World) : Prop :=
  Prog.Safe (platform s) World.Steady (j.CallsIn s) p w

theorem calls_fireWebhook {j : Job} (event : WebhookEvent) (userId : UserId) (payload : WebhookPayload) :
    (Worker.fireWebhook event userId payload).Consents s j w :=
  Prog.Performs.safe Job.callsIn_of_quiet (fireWebhook_performs event userId payload) w

theorem calls_initIfNeeded {input : Worker.FundingInput} {amount : Int} (h : input.Reads s w id u) :
    (Worker.initIfNeeded s id input amount).Consents s (.fundEscrow id u amount) w := by
  unfold Worker.initIfNeeded
  split
  · refine Prog.safe_bind (steady_evolves s) ?_ fun _ _ _ => trivial
    refine safe_orThrow fun x hx => safe_orThrow fun delay hdelay => safe_orThrow fun total htotal =>
      safe_orThrow fun expiry hexpiry => Prog.safe_call fun w' hw => ?_
    obtain ⟨⟨e, he, ht⟩, hk, f, hf, ha⟩ := h.steady hw
    refine .by_signer rfl hk fun call hc => ?_
    cases dispatch_init.symm.trans hc
    obtain rfl : delay = 0 := UInt32.toNat_inj.mp (toU32_toNat hdelay)
    have hhash : Worker.milestoneHashOf s id input.escrow = Worker.milestoneHashOf s id e := by
      rw [Worker.milestoneHashOf, Worker.milestoneHashOf, ht.milestoneHash]
    rw [hhash, ← ht.description]
    exact .init he hk (by rw [ht.freelancerId]; exact hf) ha (toI128_val hx)
      ((toU32_toNat htotal).trans ht.milestonesTotal.symm) ((toU32_toNat hexpiry).trans ht.expiryLedger.symm)
  · trivial

theorem calls_fundEscrow (amount : Int) :
    (Worker.fundEscrow s id u amount).Consents s (.fundEscrow id u amount) w := by
  have hR := steady_evolves s
  refine Prog.safe_tryCatch hR ?_ fun e w _ => ?_
  · refine (safeTo_readFundingInput (u := u) Job.callsIn_of_quiet).bind fun input w h => ?_
    refine ((calls_initIfNeeded h).to_later hR).bind fun _ w' hw => ?_
    refine safe_perform hR (fun w'' hw' => ?_) fun hash w _ => ?_
    · exact .by_signer rfl (h.steady (hR.trans hw hw')).key fun call hc => by
        cases dispatch_fund.symm.trans hc
        exact .fund
    · exact safe_perform hR (fun _ _ => trivial) fun _ w _ => calls_fireWebhook _ _ _
  · refine Prog.safe_bind hR ?_ fun _ _ _ => trivial
    refine safe_perform hR (fun _ _ => trivial) fun _ w _ => safe_perform hR (fun _ _ => trivial) fun e w _ => ?_
    cases e with
    | none => trivial
    | some e => exact Prog.safe_call fun _ _ => trivial

theorem calls_releaseEscrow : (Worker.releaseEscrow s id u).Consents s (.releaseEscrow id u) w := by
  have hR := steady_evolves s
  refine safe_perform hR (fun _ _ => trivial) fun found w _ => safe_findUser Job.callsIn_of_quiet fun w _ => ?_
  refine safe_orThrow fun e _ => safe_keyOf fun key hkey => ?_
  refine safe_perform hR (fun w' hw => ?_) fun hash w _ => ?_
  · exact .by_signer rfl ((hw.keyOf u).trans hkey) fun call hc => by cases dispatch_release.symm.trans hc
  · exact safe_perform hR (fun _ _ => trivial) fun _ w _ => calls_fireWebhook _ _ _

theorem calls_refundEscrow (reason : String) :
    (Worker.refundEscrow s id u reason).Consents s (.refundEscrow id u reason) w := by
  have hR := steady_evolves s
  refine safe_perform hR (fun _ _ => trivial) fun found w _ => safe_orThrow fun e _ => ?_
  refine safe_perform hR (fun _ _ => .by_admin dispatch_refund .refund) fun hash w _ => ?_
  exact safe_perform hR (fun _ _ => trivial) fun _ w _ => calls_fireWebhook _ _ _

theorem calls_claimExpired (triggeredBy : Option UserId) :
    (Worker.claimExpired s id triggeredBy).Consents s (.claimExpired id triggeredBy) w := by
  have hR := steady_evolves s
  refine safe_perform hR (fun _ _ => trivial) fun found w _ => safe_orThrow fun e _ => ?_
  refine safe_perform hR (fun _ _ => .by_admin dispatch_expire .expire) fun hash w _ => ?_
  exact safe_perform hR (fun _ _ => trivial) fun _ w _ => calls_fireWebhook _ _ _

theorem calls_completeMilestone :
    (Worker.completeMilestone s id u).Consents s (.completeMilestone id u) w := by
  have hR := steady_evolves s
  refine safe_perform hR (fun _ _ => trivial) fun found w _ => safe_findUser Job.callsIn_of_quiet fun w _ => ?_
  refine safe_orThrow fun e _ => safe_keyOf fun key hkey => ?_
  refine safe_perform hR (fun w' hw => ?_) fun hash w _ => safe_perform hR (fun _ _ => trivial) fun onChain w _ => ?_
  · exact .by_signer rfl ((hw.keyOf u).trans hkey) fun call hc => by
      cases dispatch_milestone.symm.trans hc
      exact .milestone
  · exact safe_perform hR (fun _ _ => trivial) fun _ w _ => calls_fireWebhook _ _ _

theorem calls_approveRelease (role : ApproverRole) :
    (Worker.approveRelease s id u role).Consents s (.approveRelease id u role) w := by
  have hR := steady_evolves s
  refine safe_perform hR (fun _ _ => trivial) fun found w _ => safe_findUser Job.callsIn_of_quiet fun w _ => ?_
  refine safe_orThrow fun e _ => safe_keyOf fun key hkey => ?_
  refine safe_perform hR (fun w' hw => ?_) fun hash w _ => safe_perform hR (fun _ _ => trivial) fun onChain w _ => ?_
  · have hk := (hw.keyOf u).trans hkey
    exact .by_signer rfl hk fun call hc => by
      cases dispatch_approve.symm.trans hc
      exact .approve hk
  · refine safe_perform hR (fun _ _ => trivial) fun _ w _ => ?_
    split
    · exact calls_fireWebhook _ _ _
    · trivial

theorem calls_process (j : Job) : (Worker.process s j).Consents s j w := by
  cases j with
  | fundEscrow => exact calls_fundEscrow _
  | releaseEscrow => exact calls_releaseEscrow
  | refundEscrow => exact calls_refundEscrow _
  | approveRelease => exact calls_approveRelease _
  | completeMilestone => exact calls_completeMilestone
  | claimExpired => exact calls_claimExpired _

end

/-! ## Origins -/

abbrev SiteRun := List (PoolAction Job SiteAction WorkerError)

/-- The request came in some time and passed its guards. -/
def Request.CameIn (s : Stellar) (w : World) (as : SiteRun) (r : Request) : Prop :=
  ∃ front rest, as = front ++ .env (.request r) :: rest ∧
    r.guards ((Site.start w).after s front).world.world.db = .ok ()

section
variable {s : Stellar} {c : Site} {w : World} {as : SiteRun}

/-- What is new after a step of the environment and was not put there by a request is a session's. -/
theorem Site.env_cases (a : SiteAction) :
    (∃ r, a = .request r ∧ r.guards c.world.db = .ok () ∧ c.Takes r (c.env s a)) ∨
      (∀ y ∈ (c.env s a).sessions, ∃ st, { y with stage := st } ∈ c.sessions) ∧
        ∀ j ∈ (c.env s a).world.jobs, j ∈ c.world.jobs ∨ ∃ x ∈ c.sessions, x.job = j := by
  have hidle {c' : Site} (hsess : c'.sessions = c.sessions) (hjobs : c'.world.jobs = c.world.jobs) :
      (∀ y ∈ c'.sessions, ∃ st, { y with stage := st } ∈ c.sessions) ∧
        ∀ j ∈ c'.world.jobs, j ∈ c.world.jobs ∨ ∃ x ∈ c.sessions, x.job = j :=
    ⟨fun y hy => ⟨y.stage, hsess ▸ hy⟩, fun j hj => .inl (hjobs ▸ hj)⟩
  have hturns {c' : Site} (ht : c.Turns c') : (∀ y ∈ c'.sessions, ∃ st, { y with stage := st } ∈ c.sessions) ∧
      ∀ j ∈ c'.world.jobs, j ∈ c.world.jobs ∨ ∃ x ∈ c.sessions, x.job = j := by
    rcases ht with rfl | ⟨n, x, w, st, hx, hm, rfl⟩
    · exact hidle rfl rfl
    · refine ⟨(set_stage hx).2, fun j hj => ?_⟩
      cases hm with
      | enqueued =>
        rcases List.mem_append.mp hj with hj | hj
        · exact .inl hj
        · exact .inr ⟨x, List.mem_of_getElem? hx, (List.mem_singleton.mp hj).symm⟩
      | _ => exact .inl hj
  cases a with
  | ledger | drop => exact .inr (hidle rfl rfl)
  | request r =>
    rcases Site.request_takes (c := c) r with hr | ⟨hg, htakes⟩
    · exact .inr (hidle (congrArg Site.sessions hr) (congrArg (·.world.jobs) hr))
    · exact .inl ⟨r, rfl, hg, htakes⟩
  | advance n => exact .inr (hturns (c.advance_turns n))
  | abort n => exact .inr (hturns (c.abort_turns n))
  | write n =>
    right
    change (∀ y ∈ (c.write n).sessions, _) ∧ ∀ j ∈ (c.write n).world.jobs, _
    unfold Site.write
    cases c.writes[n]? with
    | none => exact hidle rfl rfl
    | some d =>
      simp only
      cases d.apply c.world.db with
      | ok db => exact hidle rfl rfl
      | error e => exact hidle rfl rfl

theorem perform_idle (o : Op) : ((site s).perform c o).1.sessions = c.sessions ∧
    ((site s).perform c o).1.world.jobs = c.world.jobs := by
  rcases Site.perform_cases s c o with hp | hp
  · rw [hp]
    rcases World.perform_cases s c.world o with hs | ⟨tx, rfl, hc⟩ | ⟨_, _, _, _, rfl, -, hc⟩
    · exact ⟨rfl, hs.jobs⟩
    · exact ⟨rfl, hc.jobs⟩
    · exact ⟨rfl, hc.jobs⟩
  · rw [hp]; exact ⟨rfl, rfl⟩

/-- What a run brings into the site comes from a step of the environment. -/
theorem env_origin {P : Site → Prop} (hP : ∀ c o, P ((site s).perform c o).1 → P c) (h0 : ¬ P (Site.start w))
    (h : P ((Site.start w).after s as).world) : ∃ front a rest, as = front ++ .env a :: rest ∧
      ¬ P ((Site.start w).after s front).world ∧ P (((Site.start w).after s front).world.env s a) := by
  obtain ⟨front, a, rest, rfl, hbefore, hafter⟩ := run_origin (fun c : SitePool => P c.world) as h0 h
  have hstep : (Pool.step (site s) (Worker.process s) ((Site.start w).after s front) a).world = _ ∨ _ :=
    pool_step_cases _ _
  rcases hstep with hw | ⟨i, rfl, hw⟩ | ⟨o, hw⟩
  · exact absurd ((congrArg P hw).mp hafter) hbefore
  · exact ⟨front, i, rest, rfl, hbefore, (congrArg P hw).mp hafter⟩
  · exact absurd (hP _ o ((congrArg P hw).mp hafter)) hbefore

theorem after_users : ((Site.start w).after s as).world.world.db.users = w.db.users :=
  (pool_rel (Site.later_evolves s) _ as).db.users

theorem session_origin {x : Session} (hx : x ∈ ((Site.start w).after s as).world.sessions) :
    (Request.createEscrow x.clientId x.dto x.idempotencyKey x.escrowId).CameIn s w as := by
  obtain ⟨front, a, rest, rfl, h0, st, h⟩ := env_origin (P := fun c => ∃ st, { x with stage := st } ∈ c.sessions)
    (fun c o h => by rw [(perform_idle o).1] at h; exact h) (fun ⟨_, h⟩ => by cases h) ⟨x.stage, hx⟩
  rcases Site.env_cases (s := s) (c := ((Site.start w).after s front).world) a with ⟨r, rfl, hg, ht⟩ | ⟨hsess, -⟩
  · generalize Site.env _ s (.request r) = c' at ht h
    cases ht with
    | none | job | write => exact absurd ⟨st, h⟩ h0
    | session hr _ =>
      rcases List.mem_append.mp h with h | h
      · exact absurd ⟨st, h⟩ h0
      · obtain ⟨rfl, rfl, rfl, rfl, -⟩ := Session.mk.inj (List.mem_singleton.mp h)
        exact ⟨front, rest, by rw [hr], hr ▸ hg⟩
  · obtain ⟨_, h'⟩ := hsess _ h
    exact absurd ⟨_, h'⟩ h0

/-- Behind a job is a request, and behind a funding one whose terms the row keeps. -/
theorem job_origin (hw : w.jobs = []) (hd : ((Site.start w).after s as).world.Drafted) {j : Job}
    (hj : j ∈ ((Site.start w).after s as).world.world.jobs) :
    ∃ r : Request, r.CameIn s w as ∧ r.Asks w.db j ∧ ∀ u dto key id, r = .createEscrow u dto key id → ∀ e,
      ((Site.start w).after s as).world.world.db.escrows.lookup id = some e →
        (EscrowService.newEscrow u dto).Fixed e := by
  by_cases hf : j.IsFund
  · obtain ⟨x, hx, rfl⟩ := hd.fundings j hj hf
    refine ⟨_, session_origin hx, .created, fun u dto key id hr e he => ?_⟩
    obtain ⟨rfl, rfl, -, rfl⟩ := Request.createEscrow.inj hr
    exact hd.rows x hx e he
  · obtain ⟨front, a, rest, rfl, h0, h⟩ := env_origin (P := fun c => j ∈ c.world.jobs)
      (fun c o h => by rw [(perform_idle o).2] at h; exact h) (fun h => by
        change j ∈ w.jobs at h
        rw [hw] at h; cases h) hj
    rcases Site.env_cases (s := s) (c := ((Site.start w).after s front).world) a with ⟨r, rfl, hg, ht⟩ | ⟨-, hjobs⟩
    · refine ⟨r, ⟨front, rest, rfl, hg⟩, ?_⟩
      generalize Site.env _ s (.request r) = c' at ht h
      cases ht with
      | none | session | write => exact absurd h h0
      | job _ hjobs hr _ =>
        rcases List.mem_append.mp (hjobs ▸ h) with h | h
        · exact absurd h h0
        · cases List.mem_singleton.mp h
          cases hr with
          | created => exact absurd trivial hf
          | queued hu hjob =>
            rw [after_users] at hu
            exact ⟨.queued hu hjob, fun u dto key id hr => by subst hr; cases hjob⟩
    · rcases hjobs j h with h | ⟨x, -, rfl⟩
      · exact absurd h h0
      · exact absurd trivial hf

end

/-! ## Main result -/

/-- Whose key a request is good for, besides the admin's. -/
def Request.signer : Request → Option UserId
  | createEscrow u .. | releaseEscrow u _ | approveRelease u _ | completeMilestone u _ => some u
  | refundEscrow .. | claimExpired .. | openDispute .. | setUnderReview .. | resolveDispute .. => none

/-- The calls that a request is good for. -/
inductive Request.Wants (s : Stellar) (w : World) : Request → Call → Prop where
  | init {u : UserId} {dto : CreateEscrowDto} {key : String} {id : Uuid} {f : User} {client freelancer : Address}
      {x : I128} {total expiry : UInt32} (hk : w.keyOf s u = some client)
      (hf : w.db.users.lookup dto.freelancerId = some f) (ha : f.stellarPublicKey = some freelancer)
      (hx : x.val = EscrowService.stroopsOf dto.amount) (htotal : total.toNat = dto.milestonesTotal.getD 0)
      (hexpiry : expiry.toNat = dto.expiryLedger.getD 0) :
      Wants s w (.createEscrow u dto key id) (.initEscrow id.bytes client freelancer s.tokenContract x
        (bufferFromHex (dto.milestoneHash.getD (s.sha256Hex id.text))) dto.description 0 total expiry)
  | fund {u : UserId} {dto : CreateEscrowDto} {key : String} {id : Uuid} :
      Wants s w (.createEscrow u dto key id) (.fund id.bytes)
  | refund {u : UserId} {id : Uuid} {reason : String} : Wants s w (.refundEscrow u id reason) (.refund id.bytes)
  | approve {u : UserId} {id : Uuid} {key : Address} (hk : w.keyOf s u = some key) :
      Wants s w (.approveRelease u id) (.approveRelease id.bytes key)
  | milestone {u : UserId} {id : Uuid} : Wants s w (.completeMilestone u id) (.completeMilestone id.bytes)
  | expire {u : UserId} {id : Uuid} : Wants s w (.claimExpired u id) (.claimExpired id.bytes)

structure Request.Covers (s : Stellar) (w : World) (r : Request) (method : String) (args : List ScVal)
    (signers : List Address) : Prop where
  signed : ∀ a ∈ signers, a = s.adminKey ∨ ∃ u ∈ r.signer, w.keyOf s u = some a
  wanted : ∀ call, dispatch method args = some call → r.Wants s w call

theorem Request.Asks.signer {db : Db} {r : Request} {j : Job} (h : r.Asks db j) : j.signer = r.signer := by
  cases h with
  | created => rfl
  | queued hu hj => cases r <;> cases hj <;> rfl

theorem Request.Asks.wants {s : Stellar} {w w' : World} {r : Request} {j : Job} {call : Call} (h : r.Asks w.db j)
    (hm : j.Makes s w' call) (hkey : ∀ u, w'.keyOf s u = w.keyOf s u) (husers : w'.db.users = w.db.users)
    (hrow : ∀ u dto key id, r = .createEscrow u dto key id → ∀ e, w'.db.escrows.lookup id = some e →
      (EscrowService.newEscrow u dto).Fixed e) : r.Wants s w call := by
  cases h with
  | created =>
    cases hm with
    | fund => exact .fund
    | init he hk hf ha hx htotal hexpiry =>
      have hfixed := hrow _ _ _ _ rfl _ he
      rw [Worker.milestoneHashOf, hfixed.milestoneHash, hfixed.description]
      refine .init (hkey _ ▸ hk) ?_ ha hx (htotal.trans hfixed.milestonesTotal) (hexpiry.trans hfixed.expiryLedger)
      rw [hfixed.freelancerId, husers] at hf
      exact hf
  | queued hu hj =>
    cases r <;> cases hj
    all_goals cases hm
    · exact .refund
    · rename_i hk
      exact .approve (hkey _ ▸ hk)
    · exact .milestone
    · exact .expire

theorem safe_asked {s : Stellar} (j : Job) (c : Site) (hj : j ∈ c.world.jobs) :
    Prog.Safe (site s) Site.Later (fun c o => ∃ j ∈ c.world.jobs, j.CallsIn s c.world o) (Worker.process s j) c := by
  have hcalls : Prog.Safe (site s) Site.Later (fun c o => j.CallsIn s c.world o) (Worker.process s j) c :=
    (site_safe (calls_process j)).imp (fun _ _ h => ⟨h.db.users, h.db.rows⟩) fun _ _ h => h
  have hqueued := Prog.safe_lasting (Site.later_evolves s) (P := fun c => j ∈ c.world.jobs)
    (fun _ _ h => h.jobs j) (Worker.process s j) hj
  exact (hcalls.and hqueued).imp (fun _ _ h => h) fun _ _ h => ⟨j, h.2, h.1⟩

def Handler.Submits (method : String) (args : List ScVal) (signers : List Address) : Handler Unit → Prop
  | .op (.submit m a g) _ => m = method ∧ a = args ∧ g = signers
  | _ => False

instance (method : String) (args : List ScVal) (signers : List Address) :
    (p : Handler Unit) → Decidable (Handler.Submits method args signers p)
  | .op (.submit m a g) _ => inferInstanceAs (Decidable (m = method ∧ a = args ∧ g = signers))
  | .op (.findEscrow _) _ | .op (.findUser _) _ | .op (.findEndpoints ..) _ | .op (.findSubscribers _) _
  | .op (.transact _) _ | .op (.createDelivery _) _ | .op (.enqueueWebhook _) _ | .op (.simulateGetEscrow _) _
  | .pure _ | .throw _ => .isFalse id

theorem Prog.Safe.submits {s : Stellar} {R : Site → Site → Prop} (hR : Prog.Evolves (site s) R)
    {ok : Site → Op → Prop} {p : Handler Unit} {c : Site} (h : Prog.Safe (site s) R ok p c) {method : String}
    {args : List ScVal} {signers : List Address} (hp : Handler.Submits method args signers p) :
    ok c (.submit method args signers) := by
  cases p with
  | pure | throw => exact hp.elim
  | op o k =>
    cases o with
    | submit m a g =>
      obtain ⟨rfl, rfl, rfl⟩ := hp
      exact (h c (hR.refl c)).1
    | _ => exact hp.elim

/-- Every call that a process is about to submit was asked for. -/
theorem calls_are_asked_for {s : Stellar} {w : World} (hw : w.jobs = []) (as : SiteRun)
    (has : (Site.start w).FromQueue s as) (method : String) (args : List ScVal) (signers : List Address)
    (hp : ∃ p ∈ ((Site.start w).after s as).procs, Handler.Submits method args signers p) :
    ∃ r : Request, r.CameIn s w as ∧ r.Covers s w method args signers := by
  have hR := Site.later_evolves s
  have hkeeps := pool_keeps_fromQueue (I := Site.Drafted) hR safe_asked
    (fun c a h => h.stepped (c.env_stepped s a)) (fun _ o h _ => h.perform s o) (drafted_start hw) as has
  obtain ⟨p, hmem, hp⟩ := hp
  obtain ⟨j, hj, hcalls⟩ := (hkeeps.procs p hmem).submits hR hp
  obtain ⟨r, hcame, hasks, hrow⟩ := job_origin hw hkeeps.world hj
  have hkey (u : UserId) : ((Site.start w).after s as).world.world.keyOf s u = w.keyOf s u := by
    rw [World.keyOf, after_users]; rfl
  refine ⟨r, hcame, fun a ha => ?_, fun call hc => hasks.wants (hcalls.made call hc) hkey after_users hrow⟩
  rcases hcalls.signed a ha with rfl | ⟨u, hu, hk⟩
  · exact .inl rfl
  · exact .inr ⟨u, hasks.signer ▸ hu, hkey u ▸ hk⟩

/-- The escrow is initialised, and its funding comes next. -/
def sampleFunding : SiteRun :=
  .env (.request (.createEscrow "client" sampleDto "key" sampleId)) :: List.replicate 7 (.env (.advance 0)) ++
    .spawn (.fundEscrow sampleId "client" 1000) :: List.replicate 5 (.step 0 .none)

theorem sample_funding : ∃ r : Request, r.CameIn sampleStellar sampleWorld sampleFunding ∧
    r.Covers sampleStellar sampleWorld "fund" [.bytes sampleId.bytes] [⟨3⟩, ⟨1⟩] :=
  calls_are_asked_for rfl sampleFunding (by decide +kernel) "fund" [.bytes sampleId.bytes] [⟨3⟩, ⟨1⟩]
    (by decide +kernel)

end NexusHub
