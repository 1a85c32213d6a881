import NexusHub.Auth
import NexusHub.Effects
import NexusHub.Requests

/-!
# Who becomes an admin

The role of a request is read from the database, so a token is worth what its
user is. Parties who hold no admin's password or token gain none by logging in,
refreshing or calling the escrow endpoints. What is left is the role in the
registration itself.
-/

namespace NexusHub

def Db.IsAdmin (db : Db) (id : UserId) : Prop := ∃ u ∈ db.users.lookup id, u.role = .admin

instance (db : Db) (id : UserId) : Decidable (db.IsAdmin id) :=
  inferInstanceAs (Decidable (∃ u ∈ db.users.lookup id, _))

/-! ## The parties -/

/-- The portal, and the tokens it has handed to the parties. -/
structure Parties where
  portal : Portal
  access : List JwtPayload
  refresh : List String

/-- Requests of the parties, time, and whatever else the platform does. -/
inductive PortalAction where
  | request (r : HttpRequest)
  | wait (ms : Nat)
  | env (a : EnvAction)
  | work (o : Op)

namespace Parties

def answer (c : Parties) (x : Portal × Except AuthError (Option TokenPair)) : Parties :=
  match x.2 with
  | .ok (some pair) => ⟨x.1, c.access ++ [pair.accessToken], c.refresh ++ [pair.refreshToken]⟩
  | .ok none | .error _ => { c with portal := x.1 }

def step (cfg : AuthConfig) (s : Stellar) (c : Parties) : PortalAction → Parties
  | .request r => c.answer (c.portal.respond cfg r)
  | .wait ms => { c with portal := { c.portal with now := c.portal.now + ms } }
  | .env a => { c with portal := { c.portal with world := (platform s).env c.portal.world a } }
  | .work o => { c with portal := { c.portal with world := (c.portal.world.perform s o).1 } }

def IsAdmin (c : Parties) (id : UserId) : Prop := c.portal.world.db.IsAdmin id

instance (c : Parties) (id : UserId) : Decidable (c.IsAdmin id) := inferInstanceAs (Decidable (Db.IsAdmin _ _))

/-- No token of theirs is one of a user in `A`. -/
structure HoldsNone (A : UserId → Prop) (c : Parties) : Prop where
  access : ∀ t ∈ c.access, ¬ A t.sub
  refresh : ∀ t ∈ c.refresh, ∀ row ∈ c.portal.refreshTokens.lookup t, ¬ A row.userId

end Parties

/-- The request is one they can make: signed tokens and refresh tokens are those
handed to them, and they know no password of a user in `A`. -/
def HttpRequest.Own (cfg : AuthConfig) (A : UserId → Prop) (c : Parties) : HttpRequest → Prop
  | .login dto _ => ∀ x ∈ c.portal.findByEmail (cfg.toLowerCase dto.email), A x.1.id →
    cfg.compare dto.password x.1.passwordHash = false
  | .refresh token _ => (c.portal.refreshTokens.lookup token).isSome → token ∈ c.refresh
  | .escrow bearer _ => ∀ t ∈ bearer, t ∈ c.portal.issued → t ∈ c.access
  | .register .. | .logout _ => True

def PortalAction.Own (cfg : AuthConfig) (A : UserId → Prop) (c : Parties) : PortalAction → Prop
  | .request r => r.Own cfg A c
  | .wait _ | .env _ | .work _ => True

def EscrowEndpoint.ForAdmin : EscrowEndpoint → Prop
  | refund .. | transferAdmin .. => True
  | _ => False

/-- The admins are the users in `A`, and no request the parties can make passes the guards of an admin's operation. -/
structure Parties.Unprivileged (cfg : AuthConfig) (A : UserId → Prop) (c : Parties) : Prop where
  admins : ∀ id, c.IsAdmin id ↔ A id
  guarded : ∀ bearer endpoint, endpoint.ForAdmin → (HttpRequest.escrow bearer endpoint).Own cfg A c →
    ∀ user, c.portal.guard bearer endpoint ≠ .ok user

def Portal.Vacant (p : Portal) (id : UserId) (email : String) : Prop :=
  (∀ a ∈ p.accounts, a.id ≠ id ∧ a.email ≠ email) ∧ p.world.db.users.lookup id = none ∧
    p.world.db.balances.lookup id = none

instance (p : Portal) (id : UserId) (email : String) : Decidable (p.Vacant id email) :=
  inferInstanceAs (Decidable (_ ∧ _ ∧ _))

/-- An acceptable registration with the role ADMIN. -/
def HttpRequest.RegistersAdmin (cfg : AuthConfig) (p : Portal) : HttpRequest → Prop
  | .register body id _ _ =>
    match body.validate cfg with
    | .ok dto =>
      dto.role = some .admin ∧ p.findByEmail dto.email = none ∧ p.Vacant id (cfg.toLowerCase dto.email)
    | .error _ => False
  | .login .. | .refresh .. | .logout _ | .escrow .. => False

def PortalAction.RegistersAdmin (cfg : AuthConfig) (p : Portal) : PortalAction → Prop
  | .request r => r.RegistersAdmin cfg p
  | .wait _ | .env _ | .work _ => False

instance (cfg : AuthConfig) (A : UserId → Prop) [DecidablePred A] (c : Parties) :
    (r : HttpRequest) → Decidable (r.Own cfg A c)
  | .login dto _ => inferInstanceAs (Decidable (∀ x ∈ c.portal.findByEmail (cfg.toLowerCase dto.email), _))
  | .refresh token _ =>
    inferInstanceAs (Decidable ((c.portal.refreshTokens.lookup token).isSome → token ∈ c.refresh))
  | .escrow bearer _ => inferInstanceAs (Decidable (∀ t ∈ bearer, t ∈ c.portal.issued → t ∈ c.access))
  | .register .. | .logout _ => .isTrue trivial

instance (cfg : AuthConfig) (A : UserId → Prop) [DecidablePred A] (c : Parties) :
    (a : PortalAction) → Decidable (a.Own cfg A c)
  | .request r => inferInstanceAs (Decidable (r.Own cfg A c))
  | .wait _ | .env _ | .work _ => .isTrue trivial

instance (cfg : AuthConfig) (p : Portal) : (r : HttpRequest) → Decidable (r.RegistersAdmin cfg p)
  | .register body id _ _ =>
    match h : body.validate cfg with
    | .ok dto => decidable_of_iff (dto.role = some .admin ∧ p.findByEmail dto.email = none ∧
        p.Vacant id (cfg.toLowerCase dto.email)) (by simp [HttpRequest.RegistersAdmin, h])
    | .error _ => .isFalse (by simp [HttpRequest.RegistersAdmin, h])
  | .login .. | .refresh .. | .logout _ | .escrow .. => .isFalse id

instance (cfg : AuthConfig) (p : Portal) : (a : PortalAction) → Decidable (a.RegistersAdmin cfg p)
  | .request r => inferInstanceAs (Decidable (r.RegistersAdmin cfg p))
  | .wait _ | .env _ | .work _ => .isFalse id

/-! ## What an answer does -/

/-- A pair of tokens for the user, or the failure to make one. -/
structure Portal.Granted (userId : UserId) (p : Portal) (x : Portal × Except AuthError TokenPair) : Prop where
  world : x.1.world = p.world
  rows : ∀ t row, x.1.refreshTokens.lookup t = some row → p.refreshTokens.lookup t = some row ∨
    row.userId = userId
  access : ∀ pair, x.2 = .ok pair → pair.accessToken.sub = userId
  refresh : ∀ pair, x.2 = .ok pair → ∀ row, x.1.refreshTokens.lookup pair.refreshToken = some row →
    row.userId = userId

theorem Portal.granted_error {userId : UserId} {p p' : Portal} {e : AuthError} (hw : p'.world = p.world)
    (ht : p'.refreshTokens = p.refreshTokens) : p.Granted userId (p', .error e) :=
  ⟨hw, fun _ _ h => .inl (by rw [← ht]; exact h), nofun, nofun⟩

theorem createRefreshToken_ok {p p' : Portal} {token : String} {row : RefreshToken} :
    p.createRefreshToken token row = .ok p' ↔ p.refreshTokens.lookup token = none ∧
      (p.world.db.users.lookup row.userId).isSome ∧
      p' = { p with refreshTokens := p.refreshTokens.insert token row } := by
  unfold Portal.createRefreshToken
  cases p.refreshTokens.lookup token <;> cases p.world.db.users.lookup row.userId <;> simp [eq_comm]

theorem generateTokenPair_granted (cfg : AuthConfig) (p : Portal) (userId : UserId) (email : String)
    (role : UserRole) (token : String) :
    p.Granted userId (AuthService.generateTokenPair cfg p userId email role token) := by
  unfold AuthService.generateTokenPair
  simp only
  split
  · rename_i p' hp'
    obtain ⟨-, -, rfl⟩ := createRefreshToken_ok.mp hp'
    refine ⟨rfl, fun t row h => ?_, fun pair h => ?_, fun pair h row hrow => ?_⟩
    · simp only [Store.lookup_insert'] at h
      split at h
      · cases h; exact .inr rfl
      · exact .inl h
    · cases h; rfl
    · cases h
      simp only [Finmap.lookup_insert] at hrow
      cases hrow; rfl
  · exact Portal.granted_error rfl rfl

theorem newUser_ok {cfg : AuthConfig} {p p' : Portal} {dto : RegisterDto} {role : UserRole} {id : UserId}
    {salt : String} : AuthService.newUser cfg p dto role id salt = .ok p' ↔
      p.Vacant id (cfg.toLowerCase dto.email) ∧
        p' = { p with
          accounts := p.accounts ++ [⟨id, cfg.toLowerCase dto.email, cfg.hash salt dto.password, dto.firstName,
            dto.lastName, .pendingVerification⟩]
          world := { p.world with db := { p.world.db with
            users := p.world.db.users.insert id ⟨role, none, none⟩
            balances := p.world.db.balances.insert id ⟨0, 0, 0⟩ } } } := by
  have hvacant : p.Vacant id (cfg.toLowerCase dto.email) ↔
      ¬ ((∃ a ∈ p.accounts, a.id = id ∨ a.email = cfg.toLowerCase dto.email) ∨
        (p.world.db.users.lookup id).isSome) ∧ ¬ (p.world.db.balances.lookup id).isSome := by
    simp [Portal.Vacant, and_assoc]
  rw [hvacant]
  simp only [AuthService.newUser, Portal.createUser]
  split
  · rename_i h
    exact ⟨nofun, fun hp => absurd h hp.1.1⟩
  · rename_i h
    change (Portal.createBalance _ id) = _ ↔ _
    simp only [Portal.createBalance, Finmap.lookup_insert]
    split
    · rename_i hb
      exact ⟨nofun, fun hp => absurd hb hp.1.2⟩
    · rename_i hb
      exact ⟨fun he => ⟨⟨h, hb⟩, (Except.ok.inj he).symm⟩, fun hp => by rw [hp.2]; rfl⟩

inductive Portal.Responds (cfg : AuthConfig) (p : Portal) :
    HttpRequest → Portal × Except AuthError (Option TokenPair) → Prop where
  | refused {r : HttpRequest} (e : AuthError) : Responds cfg p r (p, .error e)
  | registered {body : RegisterBody} {id : UserId} {salt token : String} {dto : RegisterDto} {role : UserRole}
      {p' : Portal} {x : Portal × Except AuthError TokenPair} (hdto : body.validate cfg = .ok dto)
      (hrole : dto.role = some role) (hmail : p.findByEmail dto.email = none)
      (hnew : AuthService.newUser cfg p dto role id salt = .ok p') (hx : p'.Granted id x) :
      Responds cfg p (.register body id salt token) (withTokens x)
  | loggedIn {dto : LoginDto} {token : String} {account : Account} {user : User}
      {x : Portal × Except AuthError TokenPair}
      (hfound : p.findByEmail (cfg.toLowerCase dto.email) = some (account, user))
      (hpass : cfg.compare dto.password account.passwordHash = true) (hx : p.Granted account.id x) :
      Responds cfg p (.login dto token) (withTokens x)
  | refreshed {token token' : String} {stored : RefreshToken} {x : Portal × Except AuthError TokenPair}
      (hstored : p.refreshTokens.lookup token = some stored)
      (hx : Granted stored.userId
        { p with refreshTokens := p.refreshTokens.insert token { stored with isRevoked := true } } x) :
      Responds cfg p (.refresh token token') (withTokens x)
  | loggedOut (token : String) : Responds cfg p (.logout token) (AuthService.logout p token, .ok none)
  | invoked {bearer : Option JwtPayload} {endpoint : EscrowEndpoint} {user : AuthenticatedUser}
      (hguard : p.guard bearer endpoint = .ok user) :
      Responds cfg p (.escrow bearer endpoint) ({ p with world := p.invoke user.id endpoint }, .ok none)

namespace Portal

variable {cfg : AuthConfig} {p : Portal}

theorem findById_id {id : UserId} {account : Account} {user : User} (h : p.findById id = some (account, user)) :
    account.id = id ∧ p.world.db.users.lookup id = some user := by
  simp only [findById, Option.bind_eq_bind, Option.bind_eq_some_iff, Option.pure_def, Option.some.injEq,
    Prod.mk.injEq] at h
  obtain ⟨a, ha, u, hu, rfl, rfl⟩ := h
  have hid : a.id = id := by simpa using List.find?_some ha
  exact ⟨hid, by rw [← hid]; exact hu⟩

theorem register_responds {body : RegisterBody} {id : UserId} {salt token : String} {dto : RegisterDto}
    (hdto : body.validate cfg = .ok dto) : p.Responds cfg (.register body id salt token)
      (withTokens (AuthService.register cfg p dto id salt token)) := by
  unfold AuthService.register
  by_cases hmail : (p.findByEmail dto.email).isSome
  · rw [if_pos hmail]; exact .refused _
  rw [if_neg hmail]
  cases hrole : dto.role with
  | none => exact .refused _
  | some role =>
    simp only
    split
    · rename_i p' hnew
      exact .registered hdto hrole (by simpa using hmail) hnew (generateTokenPair_granted ..)
    · exact .refused _

theorem login_responds (dto : LoginDto) (token : String) :
    p.Responds cfg (.login dto token) (withTokens (AuthService.login cfg p dto token)) := by
  unfold AuthService.login
  cases hfound : p.findByEmail (cfg.toLowerCase dto.email) with
  | none => exact .refused _
  | some x =>
    obtain ⟨account, user⟩ := x
    simp only
    by_cases hpass : cfg.compare dto.password account.passwordHash = true
    · rw [if_neg (not_not.mpr hpass)]
      split
      · exact .refused _
      · exact .loggedIn hfound hpass (generateTokenPair_granted ..)
    · rw [if_pos hpass]; exact .refused _

theorem refresh_responds (token token' : String) :
    p.Responds cfg (.refresh token token') (withTokens (AuthService.refresh cfg p token token')) := by
  unfold AuthService.refresh
  cases hstored : p.refreshTokens.lookup token with
  | none => exact .refused _
  | some stored =>
    simp only
    split
    · exact .refused _
    · refine .refreshed hstored ?_
      split
      · exact granted_error rfl rfl
      · rename_i account user hfound
        obtain ⟨hid, -⟩ := findById_id hfound
        rw [← hid]
        exact generateTokenPair_granted ..

theorem respond_responds (r : HttpRequest) : p.Responds cfg r (p.respond cfg r) := by
  cases r with
  | register body id salt token =>
    simp only [respond]
    split
    · rename_i dto hdto; exact register_responds hdto
    · exact .refused _
  | login dto token =>
    simp only [respond, LoginDto.validate]
    cases emailErrors cfg dto.email with
    | nil => exact login_responds dto token
    | cons => exact .refused _
  | refresh token token' => exact refresh_responds token token'
  | logout token => exact .loggedOut token
  | escrow bearer endpoint =>
    simp only [respond]
    split
    · rename_i user hguard; exact .invoked hguard
    · exact .refused _

theorem fromHttp_ok {α : Type} {x : Except HttpError α} {a : α} : fromHttp x = .ok a ↔ x = .ok a := by
  cases x <;> simp [fromHttp]

theorem jwtAuthGuard_ok {bearer : Option JwtPayload} {user : AuthenticatedUser} :
    p.jwtAuthGuard bearer = .ok user ↔
      ∃ t ∈ bearer, t ∈ p.issued ∧ p.now / 1000 < t.exp ∧ AuthService.validateUser p t = some user := by
  cases bearer with
  | none => simp [jwtAuthGuard]
  | some t =>
    simp only [jwtAuthGuard]
    by_cases hv : t ∈ p.issued ∧ p.now / 1000 < t.exp
    · rw [if_pos hv]
      cases hval : AuthService.validateUser p t <;> simp [hv, hval]
    · rw [if_neg hv]
      refine ⟨nofun, fun ⟨t', ht', hi, he, _⟩ => ?_⟩
      cases ht'
      exact absurd ⟨hi, he⟩ hv

theorem validateUser_role {t : JwtPayload} {user : AuthenticatedUser}
    (h : AuthService.validateUser p t = some user) : ∃ u, p.world.db.users.lookup t.sub = some u ∧
    u.role = user.role := by
  unfold AuthService.validateUser at h
  cases hfound : p.findById t.sub with
  | none => rw [hfound] at h; cases h
  | some x =>
    obtain ⟨account, u⟩ := x
    rw [hfound] at h
    simp only at h
    split at h
    · cases h
    · cases h
      exact ⟨u, (findById_id hfound).2, rfl⟩

/-- Whoever passes the guards of an admin's operation carries a signed token of an admin. -/
theorem admin_of_guard {bearer : Option JwtPayload} {endpoint : EscrowEndpoint} {user : AuthenticatedUser}
    (h : p.guard bearer endpoint = .ok user) (he : endpoint.ForAdmin) :
    ∃ t ∈ bearer, t ∈ p.issued ∧ p.world.db.IsAdmin t.sub := by
  simp only [guard, except_bind_ok, except_pure_ok] at h
  obtain ⟨user, hjwt, _, hrole, rfl⟩ := h
  obtain ⟨t, ht, hissued, -, hvalid⟩ := jwtAuthGuard_ok.mp hjwt
  obtain ⟨u, hu, hur⟩ := validateUser_role hvalid
  refine ⟨t, ht, hissued, u, hu, ?_⟩
  have hreq : endpoint.requiredRole = some .admin := by
    cases endpoint with
    | refund | transferAdmin => rfl
    | create | list | getOne | getMilestones | release | approveRelease | completeMilestone
    | claimExpired => exact he.elim
  rw [hur, checkRole_ok.mp (fromHttp_ok.mp hrole) .admin hreq]

end Portal

/-! ## Users of the platform -/

theorem World.request_users (w : World) (r : Request) : (w.request r).db.users = w.db.users :=
  World.request_db (fun db => db.users = w.db.users) rfl fun _ _ hserved => hserved.users

theorem platform_users (s : Stellar) : Prog.Evolves (platform s) fun w w' => w'.db.users = w.db.users where
  refl _ := rfl
  trans h h' := h'.trans h
  perform w o := World.perform_db (fun db => db.users = w.db.users) rfl fun _ _ _ ha =>
    (DbTx.apply_ok ha).1.users
  env w a := by
    cases a with
    | ledger => rfl
    | request r => exact w.request_users r

theorem transferAdmin_users {db : Db} {adminId : UserId} {escrowId : Uuid} {secretOf : String → String}
    {res : Response} (h : EscrowService.transferAdmin db adminId escrowId secretOf = .ok res) :
    res.db.users = db.users := by
  simp only [EscrowService.transferAdmin, except_bind_ok, inTransaction_ok, createAuditLog_ok,
    except_pure_ok] at h
  obtain ⟨_, -, _, -, _, ⟨-, rfl⟩, rfl⟩ := h
  rfl

theorem Portal.invoke_users (p : Portal) (userId : UserId) (endpoint : EscrowEndpoint) :
    (p.invoke userId endpoint).db.users = p.world.db.users := by
  cases endpoint with
  | list | getOne | getMilestones => rfl
  | release | approveRelease | completeMilestone | claimExpired => exact p.world.request_users _
  | create | refund =>
    simp only [invoke]
    split
    · rfl
    · exact p.world.request_users _
  | transferAdmin escrowId secretOf =>
    simp only [invoke]
    split
    · rename_i res hres; exact transferAdmin_users hres
    · rfl

/-! ## The invariant -/

namespace Parties

/-- The admins are those of the start, and the parties hold none of their tokens. -/
structure Ok (A : UserId → Prop) (c : Parties) : Prop extends HoldsNone A c where
  admins : ∀ id, c.IsAdmin id ↔ A id

variable {cfg : AuthConfig} {A : UserId → Prop} {c : Parties}

theorem isAdmin_congr {p p' : Portal} (h : p'.world.db.users = p.world.db.users) (id : UserId) :
    p'.world.db.IsAdmin id ↔ p.world.db.IsAdmin id := by
  unfold Db.IsAdmin
  rw [h]

theorem Ok.portal (h : c.Ok A) {p : Portal} (hu : p.world.db.users = c.portal.world.db.users)
    (ht : ∀ t row, p.refreshTokens.lookup t = some row → ∃ row', c.portal.refreshTokens.lookup t = some row' ∧
      row.userId = row'.userId) : Ok A { c with portal := p } where
  access := h.access
  refresh t htok row hrow := by
    obtain ⟨row', hrow', he⟩ := ht t row hrow
    rw [he]
    exact h.refresh t htok row' hrow'
  admins id := (isAdmin_congr hu id).trans (h.admins id)

theorem Ok.granted (h : c.Ok A) {userId : UserId} {x : Portal × Except AuthError TokenPair}
    (hx : c.portal.Granted userId x) (hno : ¬ A userId) : Ok A (c.answer (withTokens x)) := by
  obtain ⟨p, res⟩ := x
  have hrows : ∀ t ∈ c.refresh, ∀ row ∈ p.refreshTokens.lookup t, ¬ A row.userId := by
    intro t ht row hrow
    rcases hx.rows t row hrow with hold | hnew
    · exact h.refresh t ht row hold
    · rw [hnew]; exact hno
  have hadmins (id : UserId) : p.world.db.IsAdmin id ↔ A id :=
    (isAdmin_congr (congrArg (·.db.users) hx.world) id).trans (h.admins id)
  cases res with
  | error e => exact ⟨⟨h.access, hrows⟩, hadmins⟩
  | ok pair =>
    refine ⟨⟨fun t ht => ?_, fun t ht row hrow => ?_⟩, hadmins⟩
    · rcases List.mem_append.mp ht with ht | ht
      · exact h.access t ht
      · rw [List.mem_singleton.mp ht, hx.access pair rfl]; exact hno
    · rcases List.mem_append.mp ht with ht | ht
      · exact hrows t ht row hrow
      · rw [List.mem_singleton.mp ht] at hrow
        rw [hx.refresh pair rfl row hrow]; exact hno

theorem revoked_rows {tokens : Store String RefreshToken} {token : String} {stored : RefreshToken}
    (h : tokens.lookup token = some stored) (t : String) (row : RefreshToken)
    (hrow : (tokens.insert token { stored with isRevoked := true }).lookup t = some row) :
    ∃ row', tokens.lookup t = some row' ∧ row.userId = row'.userId := by
  rw [Store.lookup_insert'] at hrow
  split at hrow
  · rename_i ht
    cases hrow
    exact ⟨stored, by rw [ht]; exact h, rfl⟩
  · exact ⟨row, hrow, rfl⟩

theorem Ok.registered (h : c.Ok A) {dto : RegisterDto} {role : UserRole} {id : UserId} {salt : String}
    {p : Portal} (hnew : AuthService.newUser cfg c.portal dto role id salt = .ok p) (hrole : role ≠ .admin) :
    Ok A { c with portal := p } ∧ ¬ A id := by
  obtain ⟨⟨-, hid, -⟩, rfl⟩ := newUser_ok.mp hnew
  have hno : ¬ A id := by
    rw [← h.admins id]
    rintro ⟨u, hu, -⟩
    cases hid.symm.trans hu
  refine ⟨⟨⟨h.access, h.refresh⟩, fun k => ?_⟩, hno⟩
  by_cases hk : k = id
  · subst hk
    refine ⟨fun ⟨u, hu, hur⟩ => ?_, fun hA => absurd hA hno⟩
    have hu : (c.portal.world.db.users.insert k ⟨role, none, none⟩).lookup k = some u := hu
    rw [Finmap.lookup_insert] at hu
    cases hu
    exact absurd hur hrole
  · rw [← h.admins k]
    unfold IsAdmin Db.IsAdmin
    simp only [Finmap.lookup_insert_of_ne _ hk]

theorem Ok.request (h : c.Ok A) {r : HttpRequest} (hown : r.Own cfg A c)
    (hreg : ¬ r.RegistersAdmin cfg c.portal) : Ok A (c.answer (c.portal.respond cfg r)) := by
  have hr : c.portal.Responds cfg r (c.portal.respond cfg r) := Portal.respond_responds r
  generalize c.portal.respond cfg r = x at hr
  cases hr with
  | refused e => exact h.portal rfl fun t row hrow => ⟨row, hrow, rfl⟩
  | @registered body id salt token dto role p' x hdto hrole hmail hnew hx =>
    have hne : role ≠ .admin := by
      rintro rfl
      refine hreg ?_
      simp only [HttpRequest.RegistersAdmin, hdto]
      exact ⟨hrole, hmail, (newUser_ok.mp hnew).1⟩
    obtain ⟨h', hno⟩ := h.registered hnew hne
    exact h'.granted hx hno
  | loggedIn hfound hpass hx =>
    refine h.granted hx fun hA => ?_
    have hfail := hown _ hfound hA
    rw [hpass] at hfail
    cases hfail
  | @refreshed token token' stored x hstored hx =>
    have hno := h.refresh token (hown (by rw [hstored]; rfl)) stored hstored
    have h' : Ok A { c with portal := { c.portal with
        refreshTokens := c.portal.refreshTokens.insert token { stored with isRevoked := true } } } :=
      h.portal rfl (revoked_rows hstored)
    exact h'.granted hx hno
  | loggedOut token =>
    unfold AuthService.logout
    cases hstored : c.portal.refreshTokens.lookup token with
    | none => exact h
    | some stored => exact h.portal rfl (revoked_rows hstored)
  | invoked hguard => exact h.portal (c.portal.invoke_users _ _) fun t row hrow => ⟨row, hrow, rfl⟩

theorem Ok.step (h : c.Ok A) {s : Stellar} {a : PortalAction} (hown : a.Own cfg A c)
    (hreg : ¬ a.RegistersAdmin cfg c.portal) : Ok A (c.step cfg s a) := by
  cases a with
  | request r => exact h.request hown hreg
  | wait ms => exact h.portal rfl fun t row hrow => ⟨row, hrow, rfl⟩
  | env a => exact h.portal ((platform_users s).env _ a) fun t row hrow => ⟨row, hrow, rfl⟩
  | work o => exact h.portal ((platform_users s).perform _ o) fun t row hrow => ⟨row, hrow, rfl⟩

theorem Ok.unprivileged (h : c.Ok A) : c.Unprivileged cfg A where
  admins := h.admins
  guarded bearer endpoint he hown user hguard := by
    obtain ⟨t, ht, hissued, hadmin⟩ := Portal.admin_of_guard hguard he
    exact h.access t (hown t ht hissued) ((h.admins t.sub).mp hadmin)

theorem answer_portal (c : Parties) (x : Portal × Except AuthError (Option TokenPair)) :
    (c.answer x).portal = x.1 := by
  unfold answer
  split <;> rfl

theorem admin_of_registers {r : HttpRequest} (h : r.RegistersAdmin cfg c.portal) :
    ∃ id, ¬ c.IsAdmin id ∧ (c.answer (c.portal.respond cfg r)).IsAdmin id := by
  cases r with
  | login | refresh | logout | escrow => exact h.elim
  | register body id salt token =>
    simp only [HttpRequest.RegistersAdmin] at h
    split at h
    · rename_i dto hdto
      obtain ⟨hrole, hmail, hvacant⟩ := h
      refine ⟨id, fun ⟨u, hu, _⟩ => ?_, ?_⟩
      · cases hvacant.2.1.symm.trans hu
      · unfold IsAdmin
        rw [answer_portal]
        have hnew : AuthService.newUser cfg c.portal dto .admin id salt = .ok _ := newUser_ok.mpr ⟨hvacant, rfl⟩
        simp only [Portal.respond, hdto, AuthService.register, hmail, hrole, hnew, Option.isSome_none,
          Bool.false_eq_true, ite_false, withTokens]
        unfold Db.IsAdmin
        rw [(generateTokenPair_granted ..).world]
        exact ⟨_, Finmap.lookup_insert _, rfl⟩
    · exact h.elim

end Parties

/-- In every run of requests that the parties can make, amid whatever else the
platform does, the admins stay the same and no admin's operation lets a request
of theirs pass, if and only if nobody registers as ADMIN. -/
theorem admins_closed_iff (cfg : AuthConfig) (s : Stellar) {c : Parties} (h : c.HoldsNone c.IsAdmin)
    (as : List PortalAction) (hown : Meets (Parties.step cfg s) (fun d a => a.Own cfg c.IsAdmin d) c as) :
    Meets (Parties.step cfg s) (fun d a => ¬ a.RegistersAdmin cfg d.portal) c as ↔
      ∀ front, front <+: as → (run (Parties.step cfg s) c front).Unprivileged cfg c.IsAdmin := by
  refine meets_iff_along_of (Parties.Ok c.IsAdmin) _ (fun _ h => h.unprivileged)
    (fun d a ha hreg h => h.step ha hreg) (fun d a _ h hreg hun => ?_) as hown ⟨h, fun _ => Iff.rfl⟩
  cases a with
  | wait | env | work => exact hreg id
  | request r =>
    obtain ⟨id, hbefore, hafter⟩ := Parties.admin_of_registers (not_not.mp hreg)
    exact hbefore ((h.admins id).mpr ((hun.admins id).mp hafter))

/-! ## Sample runs -/

def sampleConfig : AuthConfig where
  isEmail email := email.toList.contains '@'
  toLowerCase text := String.ofList (text.toList.map Char.toLower)
  hash salt password := salt ++ password
  compare password hash := hash = "salt" ++ password
  jwtExpiresIn := 7 * 24 * 60 * 60

/-- The admin has an account; the parties have nothing. -/
def sampleParties : Parties where
  portal := {
    world := sampleWorld
    accounts := [⟨"admin", "admin@nexus.hub", "saltunguessable", "Ada", "Min", .active⟩]
    refreshTokens := ∅
    issued := []
    now := 0 }
  access := []
  refresh := []

def sampleRegistration (role : Option (Option String)) : RegisterBody :=
  ⟨"Mallory@example.com", "SecurePass123!", "Mallory", "Doe", role⟩

def sampleToken (role : UserRole) : JwtPayload :=
  AuthService.payload sampleConfig sampleParties.portal "mallory" "mallory@example.com" role

/-- Mallory registers as a freelancer, logs in, refreshes and tries the refund. -/
def sampleVisit : List PortalAction := [
  .request (.register (sampleRegistration (some (some "FREELANCER"))) "mallory" "salt" "first"),
  .request (.login ⟨"admin@nexus.hub", "SecurePass123!"⟩ "none"),
  .request (.login ⟨"mallory@example.com", "SecurePass123!"⟩ "second"),
  .request (.refresh "second" "third"),
  .request (.logout "third"),
  .request (.escrow (some (sampleToken .freelancer)) (.refund sampleId "no reason at all"))]

theorem sampleParties_holdsNone : sampleParties.HoldsNone sampleParties.IsAdmin where
  access t ht := by cases ht
  refresh t ht := by cases ht

theorem sample_unprivileged :
    (run (Parties.step sampleConfig sampleStellar) sampleParties sampleVisit).Unprivileged sampleConfig
    sampleParties.IsAdmin := by
  have hown : Meets (Parties.step sampleConfig sampleStellar)
    (fun c a => a.Own sampleConfig sampleParties.IsAdmin c)
      sampleParties sampleVisit := by decide +kernel
  have hreg : Meets (Parties.step sampleConfig sampleStellar)
      (fun c a => ¬ a.RegistersAdmin sampleConfig c.portal) sampleParties sampleVisit := by decide +kernel
  exact (admins_closed_iff sampleConfig sampleStellar sampleParties_holdsNone sampleVisit hown).mp hreg _
    List.prefix_rfl

def sampleIntrusion : List PortalAction :=
  [.request (.register (sampleRegistration (some (some "ADMIN"))) "mallory" "salt" "first")]

theorem registered_admin_passes : ¬ ∀ as,
    Meets (Parties.step sampleConfig sampleStellar) (fun c a => a.Own sampleConfig sampleParties.IsAdmin c)
      sampleParties as →
    (run (Parties.step sampleConfig sampleStellar) sampleParties as).Unprivileged sampleConfig
    sampleParties.IsAdmin := by
  intro h
  have hguard : (run (Parties.step sampleConfig sampleStellar) sampleParties sampleIntrusion).portal.guard
      (some (sampleToken .admin)) (.refund sampleId "no reason at all") =
      .ok ⟨"mallory", "mallory@example.com", .admin, .pendingVerification⟩ := by decide +kernel
  have hown :
    (HttpRequest.escrow (some (sampleToken .admin)) (.refund sampleId "no reason at all")).Own sampleConfig
      sampleParties.IsAdmin (run (Parties.step sampleConfig sampleStellar) sampleParties sampleIntrusion) := by
    decide +kernel
  exact (h sampleIntrusion (by decide +kernel)).guarded _ (.refund sampleId "no reason at all")
    trivial hown _ hguard

end NexusHub
