import NexusHub.Roles

/-!
# Refresh tokens, statement by statement

A refresh reads the token's row, decides on what it read, revokes the row in a
statement of its own and makes a new pair in a third. Two refreshes that have
both read the row unrevoked both get a pair; as long as no refresh reads the row
between the read and the revocation of another, each token is redeemed once.
-/

namespace NexusHub

/-! ## Requests under way -/

/-- A registration comes with the id and the salt drawn for it. -/
inductive AuthRequest where
  | register (dto : RegisterDto) (id : UserId) (salt : String)
  | login (dto : LoginDto)
  | refresh (token : String)
  | logout (token : String)

inductive AuthStage where
  | begun
  | vacant
  /-- The row was good when it was read; its owner was read with it. -/
  | found (owner : Option (Account × User))
  | granted (userId : UserId) (email : String) (role : UserRole)
  | answered (answer : Except AuthError (Option TokenPair))

def Portal.revoke (p : Portal) (token : String) (stored : RefreshToken) : Portal :=
  { p with refreshTokens := p.refreshTokens.insert token { stored with isRevoked := true } }

/-- One statement; `uuid` is the token drawn if it makes a pair. -/
def AuthRequest.next (cfg : AuthConfig) (p : Portal) (uuid : String) :
    AuthRequest → AuthStage → Portal × AuthStage
  | .register dto _ _, .begun =>
    if (p.findByEmail dto.email).isSome then (p, .answered (.error (.conflict "Email already registered")))
    else (p, .vacant)
  | .register dto id salt, .vacant =>
    match dto.role with
    | none => (p, .answered (.error .internal))
    | some role =>
      match AuthService.newUser cfg p dto role id salt with
      | .ok p => (p, .granted id (cfg.toLowerCase dto.email) role)
      | .error _ => (p, .answered (.error .internal))
  | .login dto, .begun =>
    match p.findByEmail (cfg.toLowerCase dto.email) with
    | none => (p, .answered (.error (.unauthorized "Invalid credentials")))
    | some (account, user) =>
      if ¬ cfg.compare dto.password account.passwordHash then
        (p, .answered (.error (.unauthorized "Invalid credentials")))
      else if account.status = .suspended then
        (p, .answered (.error (.unauthorized "Account suspended. Contact support.")))
      else (p, .granted account.id account.email user.role)
  | .refresh token, .begun =>
    match p.refreshTokens.lookup token with
    | none => (p, .answered (.error (.unauthorized "Invalid or expired refresh token")))
    | some stored =>
      if stored.isRevoked ∨ stored.expiresAt < p.now then
        (p, .answered (.error (.unauthorized "Invalid or expired refresh token")))
      else (p, .found (p.findById stored.userId))
  | .refresh token, .found owner =>
    match p.refreshTokens.lookup token with
    | none => (p, .answered (.error .internal))
    | some stored =>
      -- unconditional, whatever has become of the row since
      match owner with
      | none => (p.revoke token stored, .answered (.error .internal))
      | some (account, user) => (p.revoke token stored, .granted account.id account.email user.role)
  | .logout token, .begun => (AuthService.logout p token, .answered (.ok none))
  | _, .granted userId email role =>
    let made := AuthService.generateTokenPair cfg p userId email role uuid
    (made.1, .answered (made.2.map some))
  | _, stage => (p, stage)

structure AuthDesk where
  portal : Portal
  sessions : List (AuthRequest × AuthStage)

/-- Time passes, and the other tables may change in any way. -/
inductive AuthAction where
  | arrive (r : AuthRequest)
  | advance (n : Nat) (uuid : String)
  | wait (ms : Nat)
  | elsewhere (w : World)

namespace AuthDesk

def step (cfg : AuthConfig) (c : AuthDesk) : AuthAction → AuthDesk
  | .arrive r => { c with sessions := c.sessions ++ [(r, .begun)] }
  | .advance n uuid =>
    match c.sessions[n]? with
    | some (r, stage) =>
      let moved := r.next cfg c.portal uuid stage
      ⟨moved.1, c.sessions.set n (r, moved.2)⟩
    | none => c
  | .wait ms => { c with portal := { c.portal with now := c.portal.now + ms } }
  | .elsewhere w => { c with portal := { c.portal with world := w } }

end AuthDesk

/-! ## A request alone -/

/-- The request as the service answers it at once. -/
def AuthRequest.atOnce (cfg : AuthConfig) (p : Portal) (uuid : String) :
    AuthRequest → Portal × Except AuthError (Option TokenPair)
  | register dto id salt => withTokens (AuthService.register cfg p dto id salt uuid)
  | login dto => withTokens (AuthService.login cfg p dto uuid)
  | refresh token => withTokens (AuthService.refresh cfg p token uuid)
  | logout token => (AuthService.logout p token, .ok none)

def AuthRequest.alone (cfg : AuthConfig) (p : Portal) (uuid : String) (r : AuthRequest) : Portal × AuthStage :=
  let read := r.next cfg p uuid .begun
  let decided := r.next cfg read.1 uuid read.2
  r.next cfg decided.1 uuid decided.2

section
variable (cfg : AuthConfig) (p : Portal) (uuid : String)

@[simp] theorem next_answered (r : AuthRequest) (answer : Except AuthError (Option TokenPair)) :
    r.next cfg p uuid (.answered answer) = (p, .answered answer) := by
  cases r <;> rfl

@[simp] theorem next_granted (r : AuthRequest) (userId : UserId) (email : String) (role : UserRole) :
    r.next cfg p uuid (.granted userId email role) =
      ((AuthService.generateTokenPair cfg p userId email role uuid).1,
        .answered ((AuthService.generateTokenPair cfg p userId email role uuid).2.map some)) := by
  cases r <;> rfl

/-- Where no other request comes in between, the statements come to the request done at once. -/
theorem alone_eq_atOnce (r : AuthRequest) :
    r.alone cfg p uuid = ((r.atOnce cfg p uuid).1, .answered (r.atOnce cfg p uuid).2) := by
  unfold AuthRequest.alone
  cases r with
  | register dto id salt =>
    simp only [AuthRequest.atOnce, AuthService.register, withTokens]
    by_cases htaken : (p.findByEmail dto.email).isSome
    · simp [AuthRequest.next, htaken, Except.map]
    · have hbegun : (AuthRequest.register dto id salt).next cfg p uuid .begun = (p, .vacant) := if_neg htaken
      rw [hbegun, if_neg htaken]
      cases hrole : dto.role with
      | none => simp [AuthRequest.next, hrole, Except.map]
      | some role =>
        cases hnew : AuthService.newUser cfg p dto role id salt <;>
          simp [AuthRequest.next, hrole, hnew, Except.map]
  | login dto =>
    simp only [AuthRequest.atOnce, AuthService.login, withTokens]
    cases hfound : p.findByEmail (cfg.toLowerCase dto.email) with
    | none => simp [AuthRequest.next, hfound, Except.map]
    | some found =>
      by_cases hpassword : cfg.compare dto.password found.1.passwordHash
      · by_cases hstatus : found.1.status = .suspended <;>
          simp [AuthRequest.next, hfound, hpassword, hstatus, Except.map]
      · simp [AuthRequest.next, hfound, hpassword, Except.map]
  | refresh token =>
    simp only [AuthRequest.atOnce, AuthService.refresh, withTokens]
    cases hrow : p.refreshTokens.lookup token with
    | none => simp [AuthRequest.next, hrow, Except.map]
    | some stored =>
      by_cases hbad : stored.isRevoked ∨ stored.expiresAt < p.now
      · simp [AuthRequest.next, hrow, hbad, Except.map]
      · have howner : ({ p with refreshTokens := p.refreshTokens.insert token { stored with isRevoked := true } } :
            Portal).findById stored.userId = p.findById stored.userId := rfl
        have hbegun : (AuthRequest.refresh token).next cfg p uuid .begun =
            (p, .found (p.findById stored.userId)) := by simp [AuthRequest.next, hrow, hbad]
        rw [hbegun]
        simp only [if_neg hbad, howner]
        cases p.findById stored.userId <;> simp [AuthRequest.next, hrow, Portal.revoke, Except.map]
  | logout token => rfl

end

/-! ## Redemption -/

def AuthRequest.token? : AuthRequest → Option String
  | refresh token | logout token => some token
  | register .. | login _ => none

def AuthStage.IsAnswered : AuthStage → Prop
  | answered _ => True
  | _ => False

/-- The session is a refresh that was answered with a pair for the token. -/
def Redeemed (token : String) : AuthRequest × AuthStage → Prop
  | (.refresh t, .answered (.ok (some _))) => t = token
  | _ => False

/-- The session is a refresh of the token that has looked it up and not yet revoked it. -/
def Between (token : String) : AuthRequest × AuthStage → Prop
  | (.refresh t, .found _) => t = token
  | _ => False

/-- The session is a refresh of the token that has revoked it and gets, or got, a pair. -/
def Past (token : String) : AuthRequest × AuthStage → Prop
  | (.refresh t, .granted ..) | (.refresh t, .answered (.ok (some _))) => t = token
  | _ => False

/-- What a lookup finds is neither revoked nor expired. -/
def Portal.Live (p : Portal) (token : String) : Prop :=
  ∃ row, p.refreshTokens.lookup token = some row ∧ ¬ (row.isRevoked ∨ row.expiresAt < p.now)

namespace AuthDesk

/-- The uuid of a new pair is no token of the database and none that anybody has presented. -/
def FreshFor (c : AuthDesk) (uuid : String) : Option (AuthRequest × AuthStage) → Prop
  | some (_, .granted ..) =>
    c.portal.refreshTokens.lookup uuid = none ∧ ∀ s ∈ c.sessions, s.1.token? ≠ some uuid
  | _ => True

def Fresh (c : AuthDesk) : AuthAction → Prop
  | .advance n uuid => c.FreshFor uuid c.sessions[n]?
  | _ => True

/-- A good token is not looked up while another refresh is between its lookup and its revocation. -/
def UndisturbedFor (c : AuthDesk) : Option (AuthRequest × AuthStage) → Prop
  | some (.refresh token, .begun) => c.portal.Live token → ∀ s ∈ c.sessions, ¬ Between token s
  | _ => True

def Undisturbed (c : AuthDesk) : AuthAction → Prop
  | .advance n _ => c.UndisturbedFor c.sessions[n]?
  | _ => True

end AuthDesk

/-- In the run that `as` makes from `p` each token is redeemed once at most, and by no refresh
that had not looked it up when a logout or a refresh of it was answered. -/
structure SingleUse (cfg : AuthConfig) (p : Portal) (as : List AuthAction) : Prop where
  once : ∀ (token : String) (n m : Nat) x y, (run (AuthDesk.step cfg) ⟨p, []⟩ as).sessions[n]? = some x →
    (run (AuthDesk.step cfg) ⟨p, []⟩ as).sessions[m]? = some y → Redeemed token x → Redeemed token y → n = m
  later : ∀ front rest, as = front ++ rest → ∀ token,
    (∃ s ∈ (run (AuthDesk.step cfg) ⟨p, []⟩ front).sessions, s.1.token? = some token ∧ s.2.IsAnswered) →
    ∀ n : Nat, (∀ r stage, (run (AuthDesk.step cfg) ⟨p, []⟩ front).sessions[n]? = some (r, stage) →
        stage = .begun) →
      ∀ x, (run (AuthDesk.step cfg) ⟨p, []⟩ as).sessions[n]? = some x → ¬ Redeemed token x

/-! ## What one statement does to the tokens -/

theorem Portal.not_live_revoke (p : Portal) (token : String) (stored : RefreshToken) :
    ¬ (p.revoke token stored).Live token := by
  rintro ⟨row, hrow, hlive⟩
  simp only [Portal.revoke, Finmap.lookup_insert] at hrow
  cases hrow
  exact hlive (.inl rfl)

/-- Nothing but the making of a pair brings a token to life. -/
structure TokenStep (p p' : Portal) (created : Option String) : Prop where
  now : p'.now = p.now
  lives : ∀ token, some token ≠ created → p'.Live token → p.Live token

theorem TokenStep.refl (p : Portal) : TokenStep p p none := ⟨rfl, fun _ _ h => h⟩

theorem tokenStep_revoke {p : Portal} {token : String} {stored : RefreshToken} :
    TokenStep p (p.revoke token stored) none where
  now := rfl
  lives token' _ := by
    intro hlive
    by_cases heq : token' = token
    · subst heq; exact absurd hlive (p.not_live_revoke _ _)
    · obtain ⟨row, hrow, hrest⟩ := hlive
      simp only [Portal.revoke, Finmap.lookup_insert_of_ne _ heq] at hrow
      exact ⟨row, hrow, hrest⟩

theorem tokenStep_newUser {cfg : AuthConfig} {p p' : Portal} {dto : RegisterDto} {role : UserRole} {id : UserId}
    {salt : String} (h : AuthService.newUser cfg p dto role id salt = .ok p') : TokenStep p p' none := by
  obtain ⟨-, rfl⟩ := newUser_ok.mp h
  exact ⟨rfl, fun _ _ hlive => hlive⟩

theorem tokenStep_generate (cfg : AuthConfig) (p : Portal) (userId : UserId) (email : String) (role : UserRole)
    (uuid : String) :
    TokenStep p (AuthService.generateTokenPair cfg p userId email role uuid).1 (some uuid) := by
  unfold AuthService.generateTokenPair
  simp only
  split
  · rename_i p' hp'
    obtain ⟨-, -, rfl⟩ := createRefreshToken_ok.mp hp'
    refine ⟨rfl, fun token hne ⟨row, hrow, hlive⟩ => ⟨row, ?_, hlive⟩⟩
    simpa only [Finmap.lookup_insert_of_ne _ fun heq => hne (congrArg some heq)] using hrow
  · exact ⟨rfl, fun _ _ hlive => hlive⟩

theorem tokenStep_logout (p : Portal) (token : String) :
    TokenStep p (AuthService.logout p token) none ∧ ¬ (AuthService.logout p token).Live token := by
  unfold AuthService.logout
  split
  · rename_i hnone
    exact ⟨.refl p, fun ⟨_, hrow, _⟩ => nomatch hnone.symm.trans hrow⟩
  · rename_i stored hstored
    exact ⟨tokenStep_revoke, p.not_live_revoke token stored⟩

/-- A refresh goes on from its lookup exactly if the token is live. -/
theorem refresh_begun_cases (cfg : AuthConfig) (p : Portal) (uuid t : String) :
    ¬ p.Live t ∧ (∃ e, (AuthRequest.refresh t).next cfg p uuid .begun = (p, .answered (.error e))) ∨
      p.Live t ∧ ∃ owner, (AuthRequest.refresh t).next cfg p uuid .begun = (p, .found owner) := by
  simp only [AuthRequest.next]
  split
  · rename_i hnone
    exact .inl ⟨fun ⟨_, hrow, _⟩ => (nomatch hnone.symm.trans hrow), _, rfl⟩
  · rename_i stored hstored
    split
    · rename_i hbad
      refine .inl ⟨fun ⟨row, hrow, hlive⟩ => hlive ?_, _, rfl⟩
      rw [← Option.some.inj (hstored.symm.trans hrow)]
      exact hbad
    · rename_i hgood
      exact .inr ⟨⟨stored, hstored, hgood⟩, _, rfl⟩

/-- From its revocation on it is granted a pair or has failed, and the token is dead. -/
theorem refresh_found_cases (cfg : AuthConfig) (p : Portal) (uuid t : String) (owner : Option (Account × User)) :
    ∃ p', TokenStep p p' none ∧ ¬ p'.Live t ∧
      ((∃ e, (AuthRequest.refresh t).next cfg p uuid (.found owner) = (p', .answered (.error e))) ∨
        ∃ userId email role, (AuthRequest.refresh t).next cfg p uuid (.found owner) =
          (p', .granted userId email role)) := by
  simp only [AuthRequest.next]
  split
  · rename_i hnone
    exact ⟨p, .refl p, fun ⟨_, hrow, _⟩ => (nomatch hnone.symm.trans hrow), .inl ⟨_, rfl⟩⟩
  · rename_i stored hstored
    refine ⟨p.revoke t stored, tokenStep_revoke, p.not_live_revoke t stored, ?_⟩
    split
    · exact .inl ⟨_, rfl⟩
    · exact .inr ⟨_, _, _, rfl⟩

def AuthStage.creates (uuid : String) : AuthStage → Option String
  | granted .. => some uuid
  | _ => none

/-- The request has its answer, or only its new pair to be stored. -/
def AuthStage.IsDecided : AuthStage → Prop
  | granted .. | answered _ => True
  | _ => False

theorem next_tokens (cfg : AuthConfig) (p : Portal) (uuid : String) (r : AuthRequest) (stage : AuthStage) :
    TokenStep p (r.next cfg p uuid stage).1 (stage.creates uuid) := by
  cases stage with
  | answered answer => rw [next_answered]; exact .refl p
  | granted userId email role => rw [next_granted]; exact tokenStep_generate cfg p userId email role uuid
  | begun =>
    cases r with
    | register dto id salt =>
      simp only [AuthRequest.next]
      split <;> exact .refl p
    | login dto =>
      simp only [AuthRequest.next]
      split
      · exact .refl p
      · split
        · exact .refl p
        · split <;> exact .refl p
    | refresh t =>
      rcases refresh_begun_cases cfg p uuid t with ⟨-, _, h⟩ | ⟨-, _, h⟩ <;> rw [h] <;> exact .refl p
    | logout t => exact (tokenStep_logout p t).1
  | vacant =>
    cases r with
    | register dto id salt =>
      simp only [AuthRequest.next]
      split
      · exact .refl p
      · split
        · rename_i hnew; exact tokenStep_newUser hnew
        · exact .refl p
    | login | refresh | logout => exact .refl p
  | found owner =>
    cases r with
    | refresh t =>
      obtain ⟨p', hstep, -, ⟨_, h⟩ | ⟨_, _, _, h⟩⟩ := refresh_found_cases cfg p uuid t owner <;> rw [h] <;>
        exact hstep
    | register | login | logout => exact .refl p

theorem next_decides (cfg : AuthConfig) (p : Portal) (uuid : String) {r : AuthRequest} {stage : AuthStage}
    {token : String} (htoken : r.token? = some token) (hopen : ¬ stage.IsDecided)
    (hdecided : (r.next cfg p uuid stage).2.IsDecided) : ¬ (r.next cfg p uuid stage).1.Live token := by
  cases stage with
  | answered | granted => exact absurd trivial hopen
  | begun =>
    cases r with
    | register | login => cases htoken
    | refresh t =>
      cases htoken
      rcases refresh_begun_cases cfg p uuid token with ⟨hdead, _, h⟩ | ⟨-, _, h⟩
      · rw [h]; exact hdead
      · rw [h] at hdecided; exact hdecided.elim
    | logout t => cases htoken; exact (tokenStep_logout p token).2
  | vacant =>
    cases r with
    | register | login => cases htoken
    | refresh | logout => exact hdecided.elim
  | found owner =>
    cases r with
    | register | login => cases htoken
    | refresh t =>
      cases htoken
      obtain ⟨p', -, hdead, ⟨_, h⟩ | ⟨_, _, _, h⟩⟩ := refresh_found_cases cfg p uuid token owner <;> rw [h] <;>
        exact hdead
    | logout => exact hdecided.elim

/-! ## What one step does to the sessions -/

namespace AuthDesk

variable {cfg : AuthConfig} {c : AuthDesk} {a : AuthAction}

theorem step_session {m : Nat} {r : AuthRequest} {stage : AuthStage}
    (h : (step cfg c a).sessions[m]? = some (r, stage)) :
    c.sessions[m]? = some (r, stage) ∨ (c.sessions[m]? = none ∧ stage = .begun) ∨
      ∃ uuid before, a = .advance m uuid ∧ c.sessions[m]? = some (r, before) ∧
        (step cfg c a).portal = (r.next cfg c.portal uuid before).1 ∧
        stage = (r.next cfg c.portal uuid before).2 := by
  cases a with
  | wait | elsewhere => exact .inl h
  | arrive r' =>
    simp only [step, List.getElem?_append] at h
    split at h
    · exact .inl h
    · rename_i hlt
      rw [List.getElem?_singleton] at h
      split at h
      · cases h; exact .inr (.inl ⟨List.getElem?_eq_none (Nat.le_of_not_lt hlt), rfl⟩)
      · cases h
  | advance n uuid =>
    cases hn : c.sessions[n]? with
    | none =>
      have hstep : step cfg c (.advance n uuid) = c := by simp only [step, hn]
      exact .inl (hstep ▸ h)
    | some x =>
      obtain ⟨r', before⟩ := x
      have hstep : step cfg c (.advance n uuid) = ⟨(r'.next cfg c.portal uuid before).1,
          c.sessions.set n (r', (r'.next cfg c.portal uuid before).2)⟩ := by simp only [step, hn]
      rw [hstep] at h ⊢
      rw [List.getElem?_set] at h
      split at h
      · rename_i hnm
        subst hnm
        split at h
        · cases h; exact .inr (.inr ⟨uuid, before, rfl, hn, rfl, rfl⟩)
        · cases h
      · exact .inl h

theorem step_keeps {m : Nat} {r : AuthRequest} {stage : AuthStage} (h : c.sessions[m]? = some (r, stage)) :
    ∃ stage', (step cfg c a).sessions[m]? = some (r, stage') := by
  obtain ⟨hlt, -⟩ := List.getElem?_eq_some_iff.mp h
  cases a with
  | wait | elsewhere => exact ⟨stage, h⟩
  | arrive r' => exact ⟨stage, by rw [step, List.getElem?_append_left hlt]; exact h⟩
  | advance n uuid =>
    cases hn : c.sessions[n]? with
    | none => exact ⟨stage, by simp only [step, hn]; exact h⟩
    | some x =>
      simp only [step, hn]
      rw [List.getElem?_set]
      split
      · rename_i hnm
        subst hnm
        cases hn.symm.trans h
        exact ⟨_, if_pos hlt⟩
      · exact ⟨stage, h⟩

/-- Somebody has presented the token, and it is revoked, expired or was never made. -/
structure Spent (c : AuthDesk) (token : String) : Prop where
  presented : ∃ (n : Nat) (r : AuthRequest) (stage : AuthStage),
    c.sessions[n]? = some (r, stage) ∧ r.token? = some token
  dead : ¬ c.portal.Live token

theorem Spent.dead_step {token : String} (hfresh : c.Fresh a) (h : c.Spent token) :
    ¬ (AuthDesk.step cfg c a).portal.Live token := by
  intro hlive
  refine h.dead ?_
  cases a with
  | arrive | elsewhere => exact hlive
  | wait ms =>
    obtain ⟨row, hrow, hgood⟩ := hlive
    exact ⟨row, hrow, fun hbad => hgood (hbad.imp_right fun h => Nat.lt_of_lt_of_le h (Nat.le_add_right _ _))⟩
  | advance n uuid =>
    cases hn : c.sessions[n]? with
    | none => simp only [AuthDesk.step, hn] at hlive; exact hlive
    | some x =>
      obtain ⟨r, stage⟩ := x
      simp only [AuthDesk.step, hn] at hlive
      refine (next_tokens cfg c.portal uuid r stage).lives token ?_ hlive
      cases stage with
      | granted userId email role =>
        simp only [Fresh, hn, FreshFor] at hfresh
        obtain ⟨m, r', stage', hm, htoken⟩ := h.presented
        exact fun heq => hfresh.2 _ (List.mem_of_getElem? hm) (htoken.trans heq)
      | begun | vacant | found | answered => exact nofun

theorem Spent.step {token : String} (hfresh : c.Fresh a) (h : c.Spent token) :
    (AuthDesk.step cfg c a).Spent token := by
  refine ⟨?_, h.dead_step hfresh⟩
  obtain ⟨n, r, stage, hn, htoken⟩ := h.presented
  have hkept : ∃ stage', (AuthDesk.step cfg c a).sessions[n]? = some (r, stage') := step_keeps hn
  obtain ⟨stage', hn'⟩ := hkept
  exact ⟨n, r, stage', hn', htoken⟩

/-! ## After an answer -/

def Settled (c : AuthDesk) : Prop :=
  ∀ (n : Nat) (r : AuthRequest) (stage : AuthStage) (token : String), c.sessions[n]? = some (r, stage) →
    r.token? = some token → stage.IsDecided → c.Spent token

theorem Settled.step (hfresh : c.Fresh a) (h : c.Settled) : (AuthDesk.step cfg c a).Settled := by
  intro n r stage token hn htoken hdecided
  rcases step_session hn with hn | ⟨-, rfl⟩ | ⟨uuid, before, rfl, hn', hportal, rfl⟩
  · exact (h n r stage token hn htoken hdecided).step hfresh
  · exact hdecided.elim
  · by_cases hbefore : before.IsDecided
    · exact (h n r before token hn' htoken hbefore).step hfresh
    · exact ⟨⟨n, r, _, hn, htoken⟩, hportal ▸ next_decides cfg c.portal uuid htoken hbefore hdecided⟩

/-- Session `n`, if it is a refresh of the spent token, has not looked it up or was refused. -/
structure TooLate (c : AuthDesk) (token : String) (n : Nat) : Prop where
  spent : c.Spent token
  refused : ∀ stage, c.sessions[n]? = some (.refresh token, stage) →
    stage = .begun ∨ ∃ e, stage = .answered (.error e)

theorem TooLate.step {token : String} {n : Nat} (hfresh : c.Fresh a) (h : c.TooLate token n) :
    (AuthDesk.step cfg c a).TooLate token n := by
  refine ⟨h.spent.step hfresh, fun stage hn => ?_⟩
  rcases step_session hn with hn | ⟨-, rfl⟩ | ⟨uuid, before, rfl, hn', -, rfl⟩
  · exact h.refused stage hn
  · exact .inl rfl
  · rcases h.refused before hn' with rfl | ⟨e, rfl⟩
    · rcases refresh_begun_cases cfg c.portal uuid token with ⟨-, e, hnext⟩ | ⟨hlive, -⟩
      · exact .inr ⟨e, by rw [hnext]⟩
      · exact absurd hlive h.spent.dead
    · exact .inr ⟨e, by rw [next_answered]⟩

/-! ## One pair for a token -/

def Engaged (token : String) (x : AuthRequest × AuthStage) : Prop := Between token x ∨ Past token x

def AtMostOneEngaged (c : AuthDesk) : Prop :=
  ∀ token (n m : Nat) x y, c.sessions[n]? = some x → c.sessions[m]? = some y →
    Engaged token x → Engaged token y → n = m

/-- A refresh engages a token by finding it good. -/
theorem engaged_origin {p : Portal} {uuid token : String} {r : AuthRequest} {stage : AuthStage}
    (h : Engaged token (r, (r.next cfg p uuid stage).2)) :
    Engaged token (r, stage) ∨ r = .refresh token ∧ stage = .begun ∧ p.Live token := by
  cases r with
  | register | login | logout => exact (h.elim id id).elim
  | refresh t =>
    cases stage with
    | answered answer => rw [next_answered] at h; exact .inl h
    | granted userId email role =>
      rw [next_granted] at h
      refine .inl (.inr ?_)
      cases hmade : (AuthService.generateTokenPair cfg p userId email role uuid).2 with
      | ok pair => rw [hmade] at h; exact h.resolve_left id
      | error e => rw [hmade] at h; exact (h.elim id id).elim
    | begun =>
      rcases refresh_begun_cases cfg p uuid t with ⟨-, e, hnext⟩ | ⟨hlive, owner, hnext⟩ <;> rw [hnext] at h
      · exact (h.elim id id).elim
      · obtain rfl : t = token := h.resolve_right id
        exact .inr ⟨rfl, rfl, hlive⟩
    | vacant => exact (h.elim id id).elim
    | found owner =>
      refine .inl (.inl ?_)
      obtain ⟨p', -, -, ⟨e, hnext⟩ | ⟨userId, email, role, hnext⟩⟩ := refresh_found_cases cfg p uuid t owner <;>
        rw [hnext] at h
      · exact (h.elim id id).elim
      · exact h.resolve_left id

/-- A token that a refresh has got past is dead, so that no lookup finds it good. -/
theorem Settled.not_past {token : String} (h : c.Settled) (hlive : c.portal.Live token) :
    ∀ s ∈ c.sessions, ¬ Past token s := by
  rintro ⟨r, stage⟩ hs hpast
  obtain ⟨n, hn⟩ := List.mem_iff_getElem?.mp hs
  cases r with
  | register | login | logout => exact hpast
  | refresh t =>
    have hboth : t = token ∧ stage.IsDecided := by
      cases stage with
      | begun | vacant | found => exact hpast.elim
      | granted => exact ⟨hpast, trivial⟩
      | answered answer =>
        rcases answer with e | _ | pair
        · exact hpast.elim
        · exact hpast.elim
        · exact ⟨hpast, trivial⟩
    exact (h n _ stage token hn (congrArg some hboth.1) hboth.2).dead hlive

theorem AtMostOneEngaged.step (hsettled : c.Settled) (hundisturbed : c.Undisturbed a) (h : c.AtMostOneEngaged) :
    (AuthDesk.step cfg c a).AtMostOneEngaged := by
  intro token n m x y hn hm hx hy
  obtain ⟨r, stage⟩ := x
  obtain ⟨r', stage'⟩ := y
  -- an engaged session was engaged before, or it has just found the token good and nobody else was engaged
  have hbefore {k : Nat} {r : AuthRequest} {stage : AuthStage}
      (hk : (AuthDesk.step cfg c a).sessions[k]? = some (r, stage)) (hengaged : Engaged token (r, stage)) :
      (∃ z, c.sessions[k]? = some z ∧ Engaged token z) ∨
        (∃ uuid, a = .advance k uuid) ∧ ∀ s ∈ c.sessions, ¬ Engaged token s := by
    rcases step_session hk with hk | ⟨-, rfl⟩ | ⟨uuid, before, rfl, hk', -, rfl⟩
    · exact .inl ⟨_, hk, hengaged⟩
    · cases r <;> exact (hengaged.elim id id).elim
    · rcases engaged_origin hengaged with hengaged | ⟨rfl, rfl, hlive⟩
      · exact .inl ⟨_, hk', hengaged⟩
      · simp only [Undisturbed, hk', UndisturbedFor] at hundisturbed
        exact .inr ⟨⟨uuid, rfl⟩, fun s hs => not_or.mpr ⟨hundisturbed hlive s hs, hsettled.not_past hlive s hs⟩⟩
  rcases hbefore hn hx with ⟨z, hz, hez⟩ | ⟨⟨uuid, ha⟩, hnone⟩
  · rcases hbefore hm hy with ⟨z', hz', hez'⟩ | ⟨-, hnone⟩
    · exact h token n m z z' hz hz' hez hez'
    · exact absurd hez (hnone z (List.mem_of_getElem? hz))
  · rcases hbefore hm hy with ⟨z', hz', hez'⟩ | ⟨⟨uuid', ha'⟩, -⟩
    · exact absurd hez' (hnone z' (List.mem_of_getElem? hz'))
    · cases ha.symm.trans ha'; rfl

end AuthDesk

theorem eq_of_redeemed {token : String} {x : AuthRequest × AuthStage} (h : Redeemed token x) :
    ∃ pair, x = (.refresh token, .answered (.ok (some pair))) := by
  obtain ⟨r, stage⟩ := x
  cases r with
  | register | login | logout => exact h.elim
  | refresh t =>
    cases stage with
    | begun | vacant | found | granted => exact h.elim
    | answered answer =>
      cases answer with
      | error e => exact h.elim
      | ok pair =>
        cases pair with
        | none => exact h.elim
        | some pair => cases h; exact ⟨pair, rfl⟩

theorem past_of_redeemed {token : String} {x : AuthRequest × AuthStage} (h : Redeemed token x) :
    Past token x := by
  obtain ⟨pair, rfl⟩ := eq_of_redeemed h
  rfl

/-- In every run from no open sessions in which no good token is looked up between the lookup and the revocation
of another refresh, the refresh tokens are good for one use. -/
theorem rotation_single_use (cfg : AuthConfig) (p : Portal) (as : List AuthAction)
    (hfresh : Meets (AuthDesk.step cfg) AuthDesk.Fresh ⟨p, []⟩ as)
    (hundisturbed : Meets (AuthDesk.step cfg) AuthDesk.Undisturbed ⟨p, []⟩ as) : SingleUse cfg p as where
  once token n m x y hn hm hx hy := by
    have hboth : Meets (AuthDesk.step cfg) (fun c a => c.Settled ∧ c.Undisturbed a) ⟨p, []⟩ as :=
      hfresh.imp AuthDesk.Settled (fun _ _ ha h => h.step ha) (fun _ _ hs hu => ⟨hs, hu⟩)
        (fun n _ _ _ hn => nomatch n, hn) hundisturbed
    have hone := run_inv_of_meets AuthDesk.AtMostOneEngaged (fun _ _ ha h => h.step ha.1 ha.2) as hboth
      fun _ n _ _ _ hn => nomatch n, hn
    exact hone token n m x y hn hm (.inr (past_of_redeemed hx)) (.inr (past_of_redeemed hy))
  later := by
    rintro front rest rfl token ⟨⟨r, stage⟩, hs, htoken, hanswered⟩ n hbegun x hn hredeemed
    obtain ⟨hfront, hrest⟩ := (meets_append front rest).mp hfresh
    have hsettled := run_inv_of_meets AuthDesk.Settled (fun _ _ ha h => h.step ha) front hfront
      fun n _ _ _ hn => nomatch n, hn
    obtain ⟨m, hm⟩ := List.mem_iff_getElem?.mp hs
    have hdecided : stage.IsDecided := by cases stage <;> first | exact hanswered.elim | trivial
    have hlate := run_inv_of_meets (fun c : AuthDesk => c.TooLate token n) (fun _ _ ha h => h.step ha) rest hrest
      ⟨hsettled m r stage token hm htoken hdecided, fun stage hn => .inl (hbegun _ stage hn)⟩
    rw [← run_append] at hlate
    obtain ⟨pair, rfl⟩ := eq_of_redeemed hredeemed
    rcases hlate.refused _ hn with h | ⟨e, h⟩ <;> cases h

/-! ## Sample runs -/

instance (token : String) : (x : AuthRequest × AuthStage) → Decidable (Between token x)
  | (.refresh t, .found _) => inferInstanceAs (Decidable (t = token))
  | (.refresh _, .begun) | (.refresh _, .vacant) | (.refresh _, .granted ..) | (.refresh _, .answered _)
  | (.register .., _) | (.login _, _) | (.logout _, _) => .isFalse id

instance (token : String) : (x : AuthRequest × AuthStage) → Decidable (Redeemed token x)
  | (.refresh t, .answered (.ok (some _))) => inferInstanceAs (Decidable (t = token))
  | (.refresh _, .begun) | (.refresh _, .vacant) | (.refresh _, .found _) | (.refresh _, .granted ..)
  | (.refresh _, .answered (.error _)) | (.refresh _, .answered (.ok none)) | (.register .., _) | (.login _, _)
  | (.logout _, _) => .isFalse id

instance (c : AuthDesk) (uuid : String) :
    (x : Option (AuthRequest × AuthStage)) → Decidable (c.FreshFor uuid x)
  | some (_, .granted ..) => inferInstanceAs (Decidable (_ ∧ _))
  | some (_, .begun) | some (_, .vacant) | some (_, .found _) | some (_, .answered _) | none => .isTrue trivial

instance (p : Portal) (token : String) : Decidable (p.Live token) :=
  match h : p.refreshTokens.lookup token with
  | none => .isFalse fun ⟨_, hrow, _⟩ => nomatch h.symm.trans hrow
  | some row => decidable_of_iff (¬ (row.isRevoked ∨ row.expiresAt < p.now))
      ⟨fun hgood => ⟨row, h, hgood⟩, fun ⟨_, hrow, hgood⟩ => Option.some.inj (h.symm.trans hrow) ▸ hgood⟩

instance (c : AuthDesk) : (x : Option (AuthRequest × AuthStage)) → Decidable (c.UndisturbedFor x)
  | some (.refresh token, .begun) => inferInstanceAs (Decidable (c.portal.Live token → ∀ s ∈ c.sessions, _))
  | some (.refresh _, .vacant) | some (.refresh _, .found _) | some (.refresh _, .granted ..)
  | some (.refresh _, .answered _) | some (.register .., _) | some (.login _, _) | some (.logout _, _) | none =>
    .isTrue trivial

instance (c : AuthDesk) : (a : AuthAction) → Decidable (c.Fresh a)
  | .advance n uuid => inferInstanceAs (Decidable (c.FreshFor uuid c.sessions[n]?))
  | .arrive _ | .wait _ | .elsewhere _ => .isTrue trivial

instance (c : AuthDesk) : (a : AuthAction) → Decidable (c.Undisturbed a)
  | .advance n _ => inferInstanceAs (Decidable (c.UndisturbedFor c.sessions[n]?))
  | .arrive _ | .wait _ | .elsewhere _ => .isTrue trivial

def samplePortal : Portal where
  world := sampleWorld
  accounts := [⟨"client", "client@nexus.hub", "saltsecret", "Cleo", "Client", .active⟩]
  refreshTokens := (∅ : Store String RefreshToken).insert "token" ⟨"client", 1000, false⟩
  issued := []
  now := 0

/-- Two refreshes and a logout, with the second refresh after the first one's revocation. -/
def sampleTurns : List AuthAction :=
  [.arrive (.refresh "token"), .arrive (.refresh "token"), .arrive (.logout "token"), .advance 0 "",
    .advance 0 "", .advance 1 "", .advance 0 "first", .advance 2 ""]

theorem sample_single_use : SingleUse sampleConfig samplePortal sampleTurns :=
  rotation_single_use sampleConfig samplePortal sampleTurns (by decide +kernel) (by decide +kernel)

/-- Both refreshes look the token up before either revokes it. -/
def sampleRefreshRace : List AuthAction :=
  [.arrive (.refresh "token"), .arrive (.refresh "token"), .advance 0 "", .advance 1 "", .advance 0 "",
    .advance 1 "", .advance 0 "first", .advance 1 "second"]

theorem refresh_race : ¬ ∀ (cfg : AuthConfig) (p : Portal) (as : List AuthAction),
    Meets (AuthDesk.step cfg) AuthDesk.Fresh ⟨p, []⟩ as → SingleUse cfg p as := by
  intro h
  have hfirst : ((run (AuthDesk.step sampleConfig) ⟨samplePortal, []⟩ sampleRefreshRace).sessions[0]?).any
      (fun x => decide (Redeemed "token" x)) = true := by decide +kernel
  have hsecond : ((run (AuthDesk.step sampleConfig) ⟨samplePortal, []⟩ sampleRefreshRace).sessions[1]?).any
      (fun x => decide (Redeemed "token" x)) = true := by decide +kernel
  obtain ⟨x, hx, hredeemed⟩ := (Option.any_eq_true _ _).mp hfirst
  obtain ⟨y, hy, hredeemed'⟩ := (Option.any_eq_true _ _).mp hsecond
  have honce := (h sampleConfig samplePortal sampleRefreshRace (by decide +kernel)).once "token" 0 1 x y hx hy
    (of_decide_eq_true hredeemed) (of_decide_eq_true hredeemed')
  cases honce

end NexusHub
