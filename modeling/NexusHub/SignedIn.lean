import NexusHub.ApiClient

/-!
# Staying signed in

A tab has one refresh token at a time, and a refresh takes it away before the new
one comes. A tab whose refreshes do not overlap stays signed in, as long as no
refresh gets lost or comes too late; two calls that come back unauthorized at the
same time may sign it out.
-/

namespace NexusHub

/-! ## What a statement does -/

inductive AuthRequest.Moved (cfg : AuthConfig) (p : Portal) (uuid : String) :
    AuthRequest → AuthStage → Portal → AuthStage → Prop where
  | still {r : AuthRequest} {st : AuthStage} : Moved cfg p uuid r st p st
  | refused {r : AuthRequest} {st : AuthStage} {e : AuthError} (hopen : ¬ st.IsDecided)
      (hbegun : ∀ t, r = .refresh t → st = .begun → ¬ p.Live t)
      (hfound : ∀ t owner, r = .refresh t → st = .found owner → p.refreshTokens.lookup t = none) :
      Moved cfg p uuid r st p (.answered (.error e))
  | vacant {dto : RegisterDto} {id : UserId} {salt : String} :
      Moved cfg p uuid (.register dto id salt) .begun p .vacant
  | known {dto : LoginDto} {account : Account} {user : User}
      (hfound : p.findByEmail (cfg.toLowerCase dto.email) = some (account, user)) :
      Moved cfg p uuid (.login dto) .begun p (.granted account.id account.email user.role)
  | registered {dto : RegisterDto} {id : UserId} {salt : String} {role : UserRole} {p' : Portal}
      (hnew : AuthService.newUser cfg p dto role id salt = .ok p') :
      Moved cfg p uuid (.register dto id salt) .vacant p' (.granted id (cfg.toLowerCase dto.email) role)
  | found {t : String} {row : RefreshToken} (hrow : p.refreshTokens.lookup t = some row) :
      Moved cfg p uuid (.refresh t) .begun p (.found (p.findById row.userId))
  | orphan {t : String} {row : RefreshToken} (hrow : p.refreshTokens.lookup t = some row) :
      Moved cfg p uuid (.refresh t) (.found none) (p.revoke t row) (.answered (.error .internal))
  | revoked {t : String} {row : RefreshToken} {account : Account} {user : User}
      (hrow : p.refreshTokens.lookup t = some row) :
      Moved cfg p uuid (.refresh t) (.found (some (account, user))) (p.revoke t row)
        (.granted account.id account.email user.role)
  | loggedOut {t : String} : Moved cfg p uuid (.logout t) .begun (AuthService.logout p t) (.answered (.ok none))
  | paired {r : AuthRequest} {userId : UserId} {email : String} {role : UserRole} :
      Moved cfg p uuid r (.granted userId email role) (AuthService.generateTokenPair cfg p userId email role uuid).1
        (.answered ((AuthService.generateTokenPair cfg p userId email role uuid).2.map some))

section
variable {cfg : AuthConfig} {p p' : Portal} {uuid : String} {r : AuthRequest} {st st' : AuthStage}

theorem AuthRequest.Moved.refused_other {e : AuthError} (hopen : ¬ st.IsDecided) (hr : r.token? = none) :
    r.Moved cfg p uuid st p (.answered (.error e)) := by
  refine .refused hopen (fun t ht _ => ?_) fun t _ ht _ => ?_
  all_goals
    subst ht
    cases hr

theorem next_moved (cfg : AuthConfig) (p : Portal) (uuid : String) (r : AuthRequest) (st : AuthStage) :
    r.Moved cfg p uuid st (r.next cfg p uuid st).1 (r.next cfg p uuid st).2 := by
  cases st with
  | answered => rw [next_answered]; exact .still
  | granted => rw [next_granted]; exact .paired
  | begun =>
    cases r with
    | register dto id salt =>
      simp only [AuthRequest.next]
      split
      · exact .refused_other not_false rfl
      · exact .vacant
    | login dto =>
      simp only [AuthRequest.next]
      split
      · exact .refused_other not_false rfl
      · rename_i account user hfound
        split
        · exact .refused_other not_false rfl
        · split
          · exact .refused_other not_false rfl
          · exact .known hfound
    | logout t => exact .loggedOut
    | refresh t =>
      simp only [AuthRequest.next]
      split
      · rename_i hnone
        refine .refused not_false (fun t' ht _ hlive => ?_) fun _ _ _ h => by cases h
        cases ht
        obtain ⟨row, hrow, -⟩ := hlive
        cases hnone.symm.trans hrow
      · rename_i stored hstored
        split
        · rename_i hbad
          refine .refused not_false (fun t' ht _ hlive => ?_) fun _ _ _ h => by cases h
          cases ht
          obtain ⟨row, hrow, hgood⟩ := hlive
          cases hstored.symm.trans hrow
          exact hgood hbad
        · exact .found hstored
  | vacant =>
    cases r with
    | register dto id salt =>
      simp only [AuthRequest.next]
      split
      · exact .refused_other not_false rfl
      · split
        · rename_i hnew; exact .registered hnew
        · exact .refused_other not_false rfl
    | login | refresh | logout => exact .still
  | found owner =>
    cases r with
    | refresh t =>
      simp only [AuthRequest.next]
      split
      · rename_i hnone
        refine .refused not_false (fun _ _ h => by cases h) fun t' owner' ht _ => ?_
        cases ht
        exact hnone
      · rename_i stored hstored
        cases owner with
        | none => exact .orphan hstored
        | some owner => exact .revoked hstored
    | register | login | logout => exact .still

theorem findById_isSome {id : UserId} : (p.findById id).isSome ↔
    (∃ a ∈ p.accounts, a.id = id) ∧ (p.world.db.users.lookup id).isSome := by
  constructor
  · intro h
    obtain ⟨⟨account, user⟩, hfound⟩ := Option.isSome_iff_exists.mp h
    obtain ⟨hid, huser⟩ := Portal.findById_id hfound
    refine ⟨⟨account, ?_, hid⟩, by rw [huser]; rfl⟩
    simp only [Portal.findById, Option.bind_eq_bind, Option.bind_eq_some_iff] at hfound
    obtain ⟨a, ha, u, -, hpair⟩ := hfound
    cases hpair
    exact List.mem_of_find?_eq_some ha
  · rintro ⟨⟨a, ha, hid⟩, huser⟩
    obtain ⟨user, huser⟩ := Option.isSome_iff_exists.mp huser
    have hsome : (p.accounts.find? (·.id = id)).isSome := by
      rw [List.find?_isSome]
      exact ⟨a, ha, by simpa using hid⟩
    obtain ⟨a', ha'⟩ := Option.isSome_iff_exists.mp hsome
    have hid' : a'.id = id := by simpa using List.find?_some ha'
    rw [← hid'] at huser
    simp [Portal.findById, ha', huser]

/-- Owners and tokens stay. -/
structure Portal.Grows (p p' : Portal) : Prop where
  owners : ∀ u, (p.findById u).isSome → (p'.findById u).isSome
  rows : ∀ t row, p.refreshTokens.lookup t = some row →
    ∃ row', p'.refreshTokens.lookup t = some row' ∧ row'.userId = row.userId

theorem Portal.Grows.refl (p : Portal) : p.Grows p := ⟨fun _ h => h, fun _ row h => ⟨row, h, rfl⟩⟩

theorem grows_revoke {t : String} {row : RefreshToken} (hrow : p.refreshTokens.lookup t = some row) :
    p.Grows (p.revoke t row) := by
  refine ⟨fun _ h => h, fun t' row' h => ?_⟩
  simp only [Portal.revoke]
  rw [Store.lookup_insert']
  by_cases ht : t' = t
  · subst ht
    cases hrow.symm.trans h
    exact ⟨_, if_pos rfl, rfl⟩
  · exact ⟨row', by rw [if_neg ht]; exact h, rfl⟩

theorem generate_cases (cfg : AuthConfig) (p : Portal) (userId : UserId) (email : String) (role : UserRole)
    (uuid : String) :
    (∃ issued e, AuthService.generateTokenPair cfg p userId email role uuid = ({ p with issued }, .error e) ∧
      ¬ (p.refreshTokens.lookup uuid = none ∧ (p.world.db.users.lookup userId).isSome)) ∨
    ∃ issued access row, AuthService.generateTokenPair cfg p userId email role uuid =
      ({ p with issued, refreshTokens := p.refreshTokens.insert uuid row }, .ok ⟨access, uuid⟩) ∧
      p.refreshTokens.lookup uuid = none ∧ row.userId = userId ∧ row.isRevoked = false := by
  unfold AuthService.generateTokenPair
  simp only
  split
  · rename_i p' hp'
    obtain ⟨hnone, -, rfl⟩ := createRefreshToken_ok.mp hp'
    exact .inr ⟨_, _, _, rfl, hnone, rfl, rfl⟩
  · rename_i e hp'
    refine .inl ⟨_, _, rfl, fun ⟨hnone, husers⟩ => ?_⟩
    obtain ⟨user, huser⟩ := Option.isSome_iff_exists.mp husers
    simp [Portal.createRefreshToken, hnone, huser] at hp'

theorem AuthRequest.Moved.grows (h : r.Moved cfg p uuid st p' st') : p.Grows p' := by
  cases h with
  | still | refused | vacant | known | found => exact .refl p
  | orphan hrow | revoked hrow => exact grows_revoke hrow
  | registered hnew =>
    obtain ⟨-, rfl⟩ := newUser_ok.mp hnew
    refine ⟨fun u hu => ?_, fun _ row h => ⟨row, h, rfl⟩⟩
    rw [findById_isSome] at hu ⊢
    obtain ⟨⟨a, ha, hid⟩, huser⟩ := hu
    exact ⟨⟨a, List.mem_append_left _ ha, hid⟩, (Store.isSome_insert ..).mpr (.inl huser)⟩
  | loggedOut =>
    unfold AuthService.logout
    split
    · exact .refl p
    · rename_i hrow; exact grows_revoke hrow
  | @paired r userId email role =>
    rcases generate_cases cfg p userId email role uuid with ⟨_, _, he, -⟩ | ⟨_, _, row, he, hnone, -⟩
    · rw [he]; exact ⟨fun _ h => h, fun _ row h => ⟨row, h, rfl⟩⟩
    · rw [he]
      refine ⟨fun _ h => h, fun t row' h => ⟨row', ?_, rfl⟩⟩
      have hne : t ≠ uuid := fun ht => by rw [ht, hnone] at h; cases h
      exact (Store.lookup_insert' ..).trans (by rw [if_neg hne]; exact h)

/-- A token that the request does not present keeps its row. -/
theorem AuthRequest.Moved.spares (h : r.Moved cfg p uuid st p' st') {t : String} {row : RefreshToken}
    (hrow : p.refreshTokens.lookup t = some row) (ht : r.token? ≠ some t) :
    p'.refreshTokens.lookup t = some row := by
  have hrevoke {t' : String} {row' : RefreshToken} (hne : t ≠ t') :
      (p.revoke t' row').refreshTokens.lookup t = some row :=
    (Store.lookup_insert' ..).trans (by rw [if_neg hne]; exact hrow)
  cases h with
  | still | refused | vacant | known | found => exact hrow
  | orphan | revoked => exact hrevoke fun he => ht (congrArg some he.symm)
  | registered hnew =>
    obtain ⟨-, rfl⟩ := newUser_ok.mp hnew
    exact hrow
  | loggedOut =>
    unfold AuthService.logout
    split
    · exact hrow
    · exact hrevoke fun he => ht (congrArg some he.symm)
  | @paired r userId email role =>
    rcases generate_cases cfg p userId email role uuid with ⟨_, _, he, -⟩ | ⟨_, _, row', he, hnone, -⟩
    · rw [he]; exact hrow
    · rw [he]
      have hne : t ≠ uuid := fun ht => by rw [ht, hnone] at hrow; cases hrow
      exact (Store.lookup_insert' ..).trans (by rw [if_neg hne]; exact hrow)

theorem AuthRequest.Moved.answered {answer : Except AuthError (Option TokenPair)}
    (h : r.Moved cfg p uuid (.answered answer) p' st') : p' = p ∧ st' = .answered answer := by
  cases h with
  | still => exact ⟨rfl, rfl⟩
  | refused hopen => exact absurd trivial hopen

theorem AuthRequest.Moved.begun (h : r.Moved cfg p uuid st p' .begun) : p' = p ∧ st = .begun := by
  cases h with
  | still => exact ⟨rfl, rfl⟩

theorem AuthRequest.Moved.found_cases {owner : Option (Account × User)}
    (h : r.Moved cfg p uuid st p' (.found owner)) : p' = p ∧ (st = .found owner ∨ ∃ t row, r = .refresh t ∧ st = .begun ∧ p.refreshTokens.lookup t = some row ∧
      owner = p.findById row.userId) := by
  generalize hst' : AuthStage.found owner = st' at h
  cases h with
  | still => exact ⟨rfl, .inl rfl⟩
  | refused | orphan | loggedOut | vacant | known | registered | revoked | paired => cases hst'
  | found hrow => exact ⟨rfl, .inr ⟨_, _, rfl, rfl, hrow, AuthStage.found.inj hst'⟩⟩

theorem findById_of_findByEmail {email : String} {account : Account} {user : User}
    (h : p.findByEmail email = some (account, user)) : (p.findById account.id).isSome := by
  simp only [Portal.findByEmail, Option.bind_eq_bind, Option.bind_eq_some_iff] at h
  obtain ⟨a, ha, u, hu, hpair⟩ := h
  cases hpair
  rw [findById_isSome, hu]
  exact ⟨⟨account, List.mem_of_find?_eq_some ha, rfl⟩, rfl⟩

/-- Who gets a pair is a user. -/
theorem AuthRequest.Moved.granted {userId : UserId} {email : String} {role : UserRole}
    (h : r.Moved cfg p uuid st p' (.granted userId email role))
    (hstill : st = .granted userId email role → (p.findById userId).isSome)
    (howner : ∀ t (x : Account × User), r = .refresh t → st = .found (some x) → (p.findById x.1.id).isSome) :
    (p'.findById userId).isSome := by
  have hgrows := h.grows
  generalize hst' : AuthStage.granted userId email role = st' at h
  cases h with
  | still => exact hstill hst'.symm
  | refused | orphan | loggedOut | vacant | found | paired => cases hst'
  | known hfound =>
    cases hst'
    exact findById_of_findByEmail hfound
  | registered hnew =>
    cases hst'
    obtain ⟨-, rfl⟩ := newUser_ok.mp hnew
    rw [findById_isSome]
    exact ⟨⟨_, List.mem_append_right _ (List.mem_singleton.mpr rfl), rfl⟩,
      (Store.isSome_insert ..).mpr (.inr rfl)⟩
  | revoked hrow =>
    cases hst'
    exact hgrows.owners _ (howner _ _ rfl rfl)

/-- A pair is made of the drawn token, in one statement. -/
theorem AuthRequest.Moved.pair {pair : TokenPair} (h : r.Moved cfg p uuid st p' (.answered (.ok (some pair)))) :
    st = .answered (.ok (some pair)) ∨ ∃ userId email role, st = .granted userId email role ∧
      pair.refreshToken = uuid ∧ ∃ row, p'.refreshTokens.lookup uuid = some row ∧ row.userId = userId ∧
        row.isRevoked = false := by
  generalize hst' : AuthStage.answered (.ok (some pair)) = st' at h
  cases h with
  | still => exact .inl rfl
  | refused | orphan | loggedOut => cases hst'
  | vacant | known | registered | found | revoked => cases hst'
  | @paired r userId email role =>
    rcases generate_cases cfg p userId email role uuid with ⟨_, _, he, -⟩ | ⟨_, access, row, he, -, ho, hr⟩
    · rw [he] at hst'; cases hst'
    · rw [he] at hst' ⊢
      cases hst'
      exact .inr ⟨userId, email, role, rfl, rfl, row, (Store.lookup_insert' ..).trans (if_pos rfl), ho, hr⟩

end

/-! ## What the auth service owes -/

namespace AuthDesk

/-- Session `n` was answered with the token. -/
def Grants (c : AuthDesk) (n : Nat) (t : String) : Prop :=
  ∃ r pair, c.sessions[n]? = some (r, .answered (.ok (some pair))) ∧ pair.refreshToken = t

/-- All that present the token have yet to look it up. -/
def Unread (c : AuthDesk) (t : String) : Prop :=
  ∀ (m : Nat) (r : AuthRequest) (st : AuthStage), c.sessions[m]? = some (r, st) → r.token? = some t → st = .begun

/-- A token that was granted has an owner, and is good until somebody has presented it. -/
structure Sound (c : AuthDesk) : Prop where
  unique : ∀ t (n m : Nat), c.Grants n t → c.Grants m t → n = m
  owned : ∀ t (n : Nat), c.Grants n t →
    ∃ row, c.portal.refreshTokens.lookup t = some row ∧ (c.portal.findById row.userId).isSome
  unspent : ∀ t (n : Nat), c.Grants n t → c.Unread t →
    ∀ row, c.portal.refreshTokens.lookup t = some row → row.isRevoked = false
  found : ∀ (n : Nat) t owner, c.sessions[n]? = some (.refresh t, .found owner) →
    (∀ k : Nat, c.Grants k t → owner.isSome) ∧
      ∀ x : Account × User, owner = some x → (c.portal.findById x.1.id).isSome
  granted : ∀ (n : Nat) r userId email role, c.sessions[n]? = some (r, .granted userId email role) →
    (c.portal.findById userId).isSome

variable {cfg : AuthConfig} {c : AuthDesk}

theorem Grants.lt {n : Nat} {t : String} (h : c.Grants n t) : n < c.sessions.length := by
  obtain ⟨r, pair, hn, -⟩ := h
  exact (List.getElem?_eq_some_iff.mp hn).1

/-- Only the other tables change, and no owner goes. -/
theorem Sound.of_owners (h : c.Sound) {p : Portal} (hrows : p.refreshTokens = c.portal.refreshTokens)
    (howners : ∀ u, (c.portal.findById u).isSome → (p.findById u).isSome) :
    Sound { c with portal := p } where
  unique := h.unique
  owned t n hg := by
    obtain ⟨row, hrow, ho⟩ := h.owned t n hg
    exact ⟨row, by rw [← hrow, ← hrows], howners _ ho⟩
  unspent t n hg hu row hrow := h.unspent t n hg hu row (by rw [← hrows]; exact hrow)
  found n t owner hn := ⟨(h.found n t owner hn).1, fun x hx => howners _ ((h.found n t owner hn).2 x hx)⟩
  granted n r userId email role hn := howners _ (h.granted n r userId email role hn)

theorem session_arrive {r r' : AuthRequest} {st : AuthStage} {n : Nat}
    (h : (c.sessions ++ [(r, .begun)])[n]? = some (r', st)) :
    c.sessions[n]? = some (r', st) ∨ n = c.sessions.length ∧ r' = r ∧ st = .begun := by
  rw [List.getElem?_append] at h
  split at h
  · exact .inl h
  · rename_i hlt
    rw [List.getElem?_singleton] at h
    split at h
    · cases h
      exact .inr ⟨by omega, rfl, rfl⟩
    · cases h

theorem grants_arrive {r : AuthRequest} {n : Nat} {t : String} :
    Grants { c with sessions := c.sessions ++ [(r, .begun)] } n t ↔ c.Grants n t := by
  constructor
  · rintro ⟨r', pair, hn, ht⟩
    rcases session_arrive hn with hn | ⟨-, -, hst⟩
    · exact ⟨r', pair, hn, ht⟩
    · cases hst
  · intro h
    have hlt := h.lt
    obtain ⟨r', pair, hn, ht⟩ := h
    exact ⟨r', pair, (List.getElem?_append_left hlt).trans hn, ht⟩

theorem Sound.arrive (h : c.Sound) (r : AuthRequest) : Sound { c with sessions := c.sessions ++ [(r, .begun)] } where
  unique t n m hn hm := h.unique t n m (grants_arrive.mp hn) (grants_arrive.mp hm)
  owned t n hg := h.owned t n (grants_arrive.mp hg)
  unspent t n hg hu := by
    refine h.unspent t n (grants_arrive.mp hg) fun m r' st hm ht => ?_
    obtain ⟨hlt, -⟩ := List.getElem?_eq_some_iff.mp hm
    exact hu m r' st ((List.getElem?_append_left hlt).trans hm) ht
  found n t owner hn := by
    rcases session_arrive hn with hn | ⟨-, -, hst⟩
    · exact ⟨fun k hk => (h.found n t owner hn).1 k (grants_arrive.mp hk), (h.found n t owner hn).2⟩
    · cases hst
  granted n r' userId email role hn := by
    rcases session_arrive hn with hn | ⟨-, -, hst⟩
    · exact h.granted n r' userId email role hn
    · cases hst

section
variable {p' : Portal} {uuid : String} {n : Nat} {r : AuthRequest} {st st' : AuthStage}

theorem session_set {m : Nat} {r' : AuthRequest} {st₁ : AuthStage}
    (h : (c.sessions.set n (r, st'))[m]? = some (r', st₁)) :
    m = n ∧ r' = r ∧ st₁ = st' ∨ m ≠ n ∧ c.sessions[m]? = some (r', st₁) := by
  rw [List.getElem?_set] at h
  split at h
  · rename_i hmn
    split at h
    · cases h
      exact .inl ⟨hmn.symm, rfl, rfl⟩
    · cases h
  · rename_i hmn
    exact .inr ⟨fun he => hmn he.symm, h⟩

variable (hn : c.sessions[n]? = some (r, st)) (hm : r.Moved cfg c.portal uuid st p' st')
include hn hm

/-- A session keeps its request, and its answer once it has one. -/
theorem session_moved {m : Nat} {r' : AuthRequest} {st₁ : AuthStage} (h : c.sessions[m]? = some (r', st₁)) :
    ∃ st₂, (c.sessions.set n (r, st'))[m]? = some (r', st₂) ∧
      ∀ answer, st₁ = .answered answer → st₂ = .answered answer := by
  by_cases hmn : n = m
  · subst hmn
    cases hn.symm.trans h
    obtain ⟨hlt, -⟩ := List.getElem?_eq_some_iff.mp hn
    refine ⟨st', List.getElem?_set_self hlt, fun answer hst => ?_⟩
    subst hst
    exact hm.answered.2
  · exact ⟨st₁, by rw [List.getElem?_set_ne hmn]; exact h, fun _ hst => hst⟩

theorem grants_old {m : Nat} {t : String} (h : c.Grants m t) : Grants ⟨p', c.sessions.set n (r, st')⟩ m t := by
  obtain ⟨r', pair, hs, ht⟩ := h
  obtain ⟨st₂, hs', hkept⟩ := session_moved hn hm hs
  cases hkept _ rfl
  exact ⟨r', pair, hs', ht⟩

theorem grants_moved {m : Nat} {t : String} (h : Grants ⟨p', c.sessions.set n (r, st')⟩ m t) :
    c.Grants m t ∨ m = n ∧ t = uuid ∧ ∃ userId email role, st = .granted userId email role ∧
      ∃ row, p'.refreshTokens.lookup uuid = some row ∧ row.userId = userId ∧ row.isRevoked = false := by
  obtain ⟨r', pair, hs, ht⟩ := h
  rcases session_set hs with ⟨rfl, rfl, rfl⟩ | ⟨-, hs⟩
  · rcases hm.pair with rfl | ⟨userId, email, role, rfl, huuid, hrow⟩
    · exact .inl ⟨_, pair, hn, ht⟩
    · exact .inr ⟨rfl, ht.symm.trans huuid, userId, email, role, rfl, hrow⟩
  · exact .inl ⟨r', pair, hs, ht⟩

variable (hfresh : c.FreshFor uuid (some (r, st)))
include hfresh

theorem Sound.moved (h : c.Sound) : Sound ⟨p', c.sessions.set n (r, st')⟩ := by
  have hgrows := hm.grows
  -- a token granted before is no token that is drawn now
  have hother {k : Nat} {t : String} (hg : c.Grants k t)
      (hst : ∃ userId email role, st = .granted userId email role) : t ≠ uuid := by
    obtain ⟨userId, email, role, rfl⟩ := hst
    obtain ⟨row, hrow, -⟩ := h.owned t k hg
    rintro rfl
    rw [hfresh.1] at hrow
    cases hrow
  refine ⟨fun t k m hk hk' => ?_, fun t k hk => ?_, fun t k hk hu row hrow => ?_, fun k t owner hk => ?_,
    fun k r' userId email role hk => ?_⟩
  · rcases grants_moved hn hm hk with hk₀ | ⟨rfl, ht, userId, email, role, hst, -⟩ <;>
      rcases grants_moved hn hm hk' with hk₁ | ⟨rfl, ht', userId', email', role', hst', -⟩
    · exact h.unique t k m hk₀ hk₁
    · exact absurd ht' (hother hk₀ ⟨_, _, _, hst'⟩)
    · exact absurd ht (hother hk₁ ⟨_, _, _, hst⟩)
    · rfl
  · rcases grants_moved hn hm hk with hk | ⟨rfl, rfl, userId, email, role, hst, row, hrow, ho, -⟩
    · obtain ⟨row, hrow, ho⟩ := h.owned t k hk
      obtain ⟨row', hrow', huser⟩ := hgrows.rows t row hrow
      exact ⟨row', hrow', by rw [huser]; exact hgrows.owners _ ho⟩
    · refine ⟨row, hrow, hgrows.owners _ ?_⟩
      rw [ho]
      exact h.granted _ _ _ _ _ (hst ▸ hn)
  · rcases grants_moved hn hm hk with hold | ⟨rfl, rfl, userId, email, role, hst, row', hrow', -, hr⟩
    · have hrest (m : Nat) (r₁ : AuthRequest) (st₁ : AuthStage) (hne : n ≠ m) (hs : c.sessions[m]? = some (r₁, st₁))
          (ht : r₁.token? = some t) : st₁ = .begun :=
        hu m r₁ st₁ ((List.getElem?_set_ne hne).trans hs) ht
      obtain ⟨hlt, -⟩ := List.getElem?_eq_some_iff.mp hn
      by_cases ht : r.token? = some t
      · obtain rfl := hu n r st' (List.getElem?_set_self hlt) ht
        obtain ⟨rfl, rfl⟩ := hm.begun
        refine h.unspent t k hold (fun m r₁ st₁ hs ht₁ => ?_) row hrow
        by_cases hne : n = m
        · subst hne
          cases hn.symm.trans hs
          rfl
        · exact hrest m r₁ st₁ hne hs ht₁
      · obtain ⟨row₀, hrow₀, -⟩ := h.owned t k hold
        cases hrow.symm.trans (hm.spares hrow₀ ht)
        refine h.unspent t k hold (fun m r₁ st₁ hs ht₁ => ?_) row hrow₀
        by_cases hne : n = m
        · subst hne
          cases hn.symm.trans hs
          exact absurd ht₁ ht
        · exact hrest m r₁ st₁ hne hs ht₁
    · cases hrow.symm.trans hrow'
      exact hr
  · rcases session_set hk with ⟨rfl, rfl, rfl⟩ | ⟨-, hk⟩
    · obtain ⟨rfl, hst⟩ := hm.found_cases
      have hold (j : Nat)
          (hj : Grants ⟨c.portal, c.sessions.set k (.refresh t, .found owner)⟩ j t) : c.Grants j t := by
        rcases grants_moved hn hm hj with hj | ⟨-, -, _, _, _, rfl, -⟩
        · exact hj
        · rcases hst with hst | ⟨_, _, _, hst, -⟩ <;> cases hst
      rcases hst with rfl | ⟨t', row, ht, -, hrow, rfl⟩
      · exact ⟨fun j hj => (h.found k t owner hn).1 j (hold j hj), (h.found k t owner hn).2⟩
      · cases ht
        refine ⟨fun j hj => ?_, fun ⟨account, user⟩ hx => ?_⟩
        · obtain ⟨row', hrow', ho⟩ := h.owned t j (hold j hj)
          cases hrow.symm.trans hrow'
          exact ho
        · obtain ⟨hid, -⟩ := Portal.findById_id hx
          rw [hid, hx]
          rfl
    · refine ⟨fun j hj => ?_, fun x hx => hgrows.owners _ ((h.found k t owner hk).2 x hx)⟩
      rcases grants_moved hn hm hj with hj | ⟨-, rfl, _, _, _, rfl, -⟩
      · exact (h.found k t owner hk).1 j hj
      · exact absurd rfl (hfresh.2 _ (List.mem_of_getElem? hk))
  · rcases session_set hk with ⟨rfl, rfl, rfl⟩ | ⟨-, hk⟩
    · refine hm.granted (fun hst => ?_) fun t x hr hst => ?_
      · subst hst
        exact h.granted _ _ _ _ _ hn
      · subst hr hst
        exact (h.found _ _ _ hn).2 x rfl
    · exact hgrows.owners _ (h.granted k r' userId email role hk)

end

end AuthDesk

/-! ## A careful tab -/

def AuthStage.grants? : AuthStage → Option String
  | answered (.ok (some pair)) => some pair.refreshToken
  | _ => none

/-- A refresh at this stage has not failed. -/
def AuthStage.Going : AuthStage → Prop
  | vacant | answered (.error _) | answered (.ok none) => False
  | _ => True

def CallStage.session? : CallStage → Option Nat
  | waiting n | refreshing n _ => some n
  | _ => none

def CallStage.isRefreshing : CallStage → Bool
  | refreshing .. => true
  | _ => false

def ApiCall.isLogout : ApiCall → Bool
  | logout _ => true
  | _ => false

def AuthDesk.Unpresented (c : AuthDesk) (t : String) : Prop := ∀ s ∈ c.sessions, s.1.token? ≠ some t

namespace Browser

/-- The tokens that nobody else has to know of. -/
def Holds (c : Browser) (t : String) : Prop :=
  c.store.refreshToken = some t ∨ ∃ x ∈ c.calls, ∃ n ∈ x.stage.session?, ∃ s ∈ c.desk.sessions[n]?,
    s.1.token? = some t ∨ s.2.grants? = some t

/-- A call is back unauthorized and would have the token redeemed. -/
def Redeeming (c : Browser) (x : ClientCall) : Prop :=
  match c.reply? x with
  | some (.error e) => e.isUnauthorized ∧ ¬ x.retry
  | _ => False

/-- A refresh of the tab is looked up before its token expires. -/
def InTime (c : Browser) (n : Nat) : Prop :=
  match c.desk.sessions[n]? with
  | some (.refresh t, .begun) =>
    c.Holds t → ∀ row ∈ c.desk.portal.refreshTokens.lookup t, c.desk.portal.now ≤ row.expiresAt
  | _ => True

/-- Refreshes of the tab do not overlap, and none gets lost; its tokens are its own, and users stay. -/
def Careful (c : Browser) : BrowserAction → Prop
  | .call request => ¬ request.isLogout
  | .turn i => ∀ x ∈ c.calls[i]?, c.Redeeming x → ∀ y ∈ c.calls, ¬ y.stage.isRefreshing
  | .lose i => ∀ x ∈ c.calls[i]?, ¬ x.stage.isRefreshing
  | .leave => ∀ y ∈ c.calls, ¬ y.stage.isRefreshing
  | .serve _ | .auth (.wait _) => True
  | .auth (.arrive r) => ∀ t ∈ r.token?, ¬ c.Holds t
  | .auth (.advance n uuid) => c.desk.Fresh (.advance n uuid) ∧ c.InTime n
  | .auth (.elsewhere w) => ∀ a ∈ c.desk.portal.accounts, (c.desk.portal.world.db.users.lookup a.id).isSome →
    (w.db.users.lookup a.id).isSome

/-- The token was granted to the tab, and the pair has been delivered. -/
def Has (c : Browser) (t : String) : Prop :=
  ∃ k : Nat, c.desk.Grants k t ∧ ∀ (i : Nat) (x : ClientCall), c.calls[i]? = some x → x.stage.session? ≠ some k

/-- Session `n` alone redeems a token of the tab, and has not failed. -/
def Redeems (c : Browser) (n : Nat) (t : String) : Prop :=
  (∃ st, c.desk.sessions[n]? = some (.refresh t, st) ∧ st.Going) ∧ c.Has t ∧
    ∀ (m : Nat) (s : AuthRequest × AuthStage), c.desk.sessions[m]? = some s → s.1.token? = some t → m = n

/-- The token of the store is unused, or the one refresh that there is has taken it. -/
structure Trusty (c : Browser) : Prop where
  straight : c.Straight
  sound : c.desk.Sound
  noLogout : ∀ x ∈ c.calls, ¬ x.request.isLogout
  sessions : ∀ (i : Nat) x n, c.calls[i]? = some x → x.stage.session? = some n → n < c.desk.sessions.length
  apart : ∀ (i j : Nat) x y n, c.calls[i]? = some x → c.calls[j]? = some y → x.stage.session? = some n →
    y.stage.session? = some n → i = j
  single : ∀ (i j : Nat) x y, c.calls[i]? = some x → c.calls[j]? = some y → x.stage.isRefreshing →
    y.stage.isRefreshing → i = j
  fresh : ∀ (i : Nat) x n t, c.calls[i]? = some x → x.stage.session? = some n → c.desk.Grants n t →
    c.desk.Unpresented t
  redeems : ∀ (i : Nat) x n e, c.calls[i]? = some x → x.stage = .refreshing n e → ∃ t, c.Redeems n t
  stored : ∀ t, c.store.refreshToken = some t → c.Has t ∧ (c.desk.Unpresented t ∨
    ∃ (i : Nat) (x : ClientCall) (n : Nat) (e : AuthError), c.calls[i]? = some x ∧ x.stage = .refreshing n e ∧
      c.Redeems n t)
  tokens : c.store.accessToken.isSome = c.store.refreshToken.isSome

variable {c c' : Browser} {cfg : AuthConfig}

theorem isRefreshing_iff {st : CallStage} : st.isRefreshing ↔ ∃ n e, st = .refreshing n e := by
  cases st <;> simp [CallStage.isRefreshing]

theorem session_of_refreshing {st : CallStage} (h : st.isRefreshing) : ∃ n, st.session? = some n := by
  obtain ⟨n, e, rfl⟩ := isRefreshing_iff.mp h
  exact ⟨n, rfl⟩

/-- Fewer calls wait for the auth service, and one may have got its pair. -/
structure Fewer (c c' : Browser) : Prop where
  desk : c'.desk = c.desk
  noLogout : ∀ x ∈ c'.calls, ¬ x.request.isLogout
  calls : ∀ (j : Nat) y n, c'.calls[j]? = some y → y.stage.session? = some n → c.calls[j]? = some y
  store : (c'.store = c.store ∧ ∀ (j : Nat) y, c.calls[j]? = some y → y.stage.isRefreshing → c'.calls[j]? = some y) ∨
    ∃ (i : Nat) (x : ClientCall) (n : Nat) (pair : TokenPair), c.calls[i]? = some x ∧ x.stage.session? = some n ∧
      (∀ y, c'.calls[i]? = some y → y.stage.session? = none) ∧ c.desk.Grants n pair.refreshToken ∧
      c'.store = .setTokens pair

theorem Has.fewer {t : String} (h : c.Has t) (hf : c.Fewer c') : c'.Has t := by
  obtain ⟨k, hk, hno⟩ := h
  exact ⟨k, by rw [hf.desk]; exact hk, fun j y hy hs => hno j y (hf.calls j y k hy hs) hs⟩

theorem Redeems.fewer {n : Nat} {t : String} (h : c.Redeems n t) (hf : c.Fewer c') : c'.Redeems n t := by
  obtain ⟨hgoing, hhas, hsole⟩ := h
  refine ⟨?_, hhas.fewer hf, ?_⟩
  · rw [hf.desk]; exact hgoing
  · rw [hf.desk]; exact hsole

theorem Trusty.fewer (h : c.Trusty) (hs : c'.Straight) (hf : c.Fewer c') : c'.Trusty where
  straight := hs
  sound := hf.desk ▸ h.sound
  noLogout := hf.noLogout
  sessions i x n hx hn := by
    rw [hf.desk]
    exact h.sessions i x n (hf.calls i x n hx hn) hn
  apart i j x y n hx hy hn hm := h.apart i j x y n (hf.calls i x n hx hn) (hf.calls j y n hy hm) hn hm
  single i j x y hx hy hxr hyr := by
    obtain ⟨n, hn⟩ := session_of_refreshing hxr
    obtain ⟨m, hm⟩ := session_of_refreshing hyr
    exact h.single i j x y (hf.calls i x n hx hn) (hf.calls j y m hy hm) hxr hyr
  fresh i x n t hx hn hg := by
    rw [hf.desk] at hg ⊢
    exact h.fresh i x n t (hf.calls i x n hx hn) hn hg
  redeems i x n e hx hst := by
    obtain ⟨t, ht⟩ := h.redeems i x n e (hf.calls i x n hx (by rw [hst]; rfl)) hst
    exact ⟨t, ht.fewer hf⟩
  stored t ht := by
    rcases hf.store with ⟨hstore, hkept⟩ | ⟨i, x, n, pair, hx, hn, hgone, hg, hstore⟩
    · rw [hstore] at ht
      obtain ⟨hhas, hu | ⟨i, x, n, e, hx, hst, hr⟩⟩ := h.stored t ht
      · exact ⟨hhas.fewer hf, .inl (by rw [hf.desk]; exact hu)⟩
      · exact ⟨hhas.fewer hf, .inr ⟨i, x, n, e, hkept i x hx (by rw [hst]; rfl), hst, hr.fewer hf⟩⟩
    · rw [hstore] at ht
      cases ht
      refine ⟨⟨n, by rw [hf.desk]; exact hg, fun j y hy hs => ?_⟩, .inl ?_⟩
      · obtain rfl := h.apart i j x y n hx (hf.calls j y n hy hs) hn hs
        rw [hgone y hy] at hs
        cases hs
      · rw [hf.desk]
        exact h.fresh i x n _ hx hn hg
  tokens := by
    rcases hf.store with ⟨hstore, -⟩ | ⟨_, _, _, pair, -, -, -, -, hstore⟩
    · rw [hstore]; exact h.tokens
    · rw [hstore]; rfl

theorem noLogout_set (h : c.Trusty) {i : Nat} {x x' : ClientCall} (hx : c.calls[i]? = some x)
    (hreq : x'.request = x.request) : ∀ y ∈ c.calls.set i x', ¬ y.request.isLogout := by
  intro y hy
  rcases List.mem_or_eq_of_mem_set hy with hy | rfl
  · exact h.noLogout y hy
  · rw [hreq]
    exact h.noLogout x (List.mem_of_getElem? hx)

/-- The tab is as before, and signed in if it was. -/
def Stays (c c' : Browser) : Prop := c'.Trusty ∧ (c.store.isAuthenticated → c'.store.isAuthenticated)

/-- A call that waits for no session any more. -/
theorem Trusty.drop (h : c.Trusty) {i : Nat} {x x' : ClientCall} (hx : c.calls[i]? = some x) (hs : c'.Straight)
    (hdesk : c'.desk = c.desk) (hcalls : c'.calls = c.calls.set i x') (hreq : x'.request = x.request)
    (hgone : x'.stage.session? = none) (hstore : c'.store = c.store ∧ ¬ x.stage.isRefreshing ∨
      ∃ n pair, x.stage.session? = some n ∧ c.desk.Grants n pair.refreshToken ∧ c'.store = .setTokens pair) :
    c.Stays c' := by
  have hold (j : Nat) (y : ClientCall) (n : Nat) (hy : c'.calls[j]? = some y) (hn : y.stage.session? = some n) :
      c.calls[j]? = some y := by
    rw [hcalls] at hy
    rcases call_of_set hy with ⟨-, rfl⟩ | ⟨-, hy⟩
    · rw [hgone] at hn; cases hn
    · exact hy
  refine ⟨h.fewer hs ⟨hdesk, fun y hy => ?_, hold, ?_⟩, fun hin => ?_⟩
  · rw [hcalls] at hy
    exact noLogout_set h hx hreq y hy
  · rcases hstore with ⟨hstore, hnot⟩ | ⟨n, pair, hn, hg, hstore⟩
    · refine .inl ⟨hstore, fun j y hy hyr => ?_⟩
      have hne : i ≠ j := by
        rintro rfl
        cases hx.symm.trans hy
        exact hnot hyr
      rw [hcalls, List.getElem?_set_ne hne]
      exact hy
    · refine .inr ⟨i, x, n, pair, hx, hn, fun y hy => ?_, hg, hstore⟩
      obtain ⟨hlt, -⟩ := List.getElem?_eq_some_iff.mp hx
      rw [hcalls, List.getElem?_set_self hlt] at hy
      cases hy
      exact hgone
  · rcases hstore with ⟨hstore, -⟩ | ⟨_, _, -, -, hstore⟩
    · rw [hstore]; exact hin
    · rw [hstore]; rfl

/-! ### Requests that arrive -/

theorem unpresented_arrive {d : AuthDesk} {r : AuthRequest} {t : String} :
    AuthDesk.Unpresented { d with sessions := d.sessions ++ [(r, .begun)] } t ↔
      d.Unpresented t ∧ r.token? ≠ some t := by
  simp [AuthDesk.Unpresented, or_imp, forall_and]

/-- Somebody else's request. -/
theorem Trusty.arrive (h : c.Trusty) {r : AuthRequest} (hr : ∀ t ∈ r.token?, ¬ c.Holds t) :
    Trusty { c with desk := { c.desk with sessions := c.desk.sessions ++ [(r, .begun)] } } := by
  have hsession {n : Nat} {s : AuthRequest × AuthStage} (hn : c.desk.sessions[n]? = some s) :
      (c.desk.sessions ++ [(r, .begun)])[n]? = some s :=
    (List.getElem?_append_left (List.getElem?_eq_some_iff.mp hn).1).trans hn
  have hhas {t : String} (ht : c.Has t) :
      Has { c with desk := { c.desk with sessions := c.desk.sessions ++ [(r, .begun)] } } t := by
    obtain ⟨k, hk, hno⟩ := ht
    exact ⟨k, AuthDesk.grants_arrive.mpr hk, hno⟩
  have hredeems {i n : Nat} {x : ClientCall} {e : AuthError} {t : String} (hx : c.calls[i]? = some x)
      (hst : x.stage = .refreshing n e) (ht : c.Redeems n t) :
      Redeems { c with desk := { c.desk with sessions := c.desk.sessions ++ [(r, .begun)] } } n t := by
    obtain ⟨⟨st, hn, hgoing⟩, hhad, hsole⟩ := ht
    refine ⟨⟨st, hsession hn, hgoing⟩, hhas hhad, fun m s hm htoken => ?_⟩
    obtain ⟨r', st'⟩ := s
    rcases AuthDesk.session_arrive hm with hm | ⟨-, rfl, -⟩
    · exact hsole m _ hm htoken
    · refine absurd (.inr ⟨x, List.mem_of_getElem? hx, n, ?_, _, hn, .inl rfl⟩) (hr t htoken)
      rw [hst]
      rfl
  refine ⟨⟨h.straight.same, h.straight.told⟩, h.sound.arrive r, h.noLogout, fun i x n hx hn => ?_, h.apart,
    h.single, fun i x n t hx hn hg => ?_, fun i x n e hx hst => ?_, fun t ht => ?_, h.tokens⟩
  · simp only [List.length_append]
    exact Nat.lt_add_right _ (h.sessions i x n hx hn)
  · rw [AuthDesk.grants_arrive] at hg
    refine unpresented_arrive.mpr ⟨h.fresh i x n t hx hn hg, fun hrt => ?_⟩
    obtain ⟨r', pair, hs, rfl⟩ := hg
    exact hr _ hrt (.inr ⟨x, List.mem_of_getElem? hx, n, hn, _, hs, .inr rfl⟩)
  · obtain ⟨t, ht⟩ := h.redeems i x n e hx hst
    exact ⟨t, hredeems hx hst ht⟩
  · obtain ⟨hhad, hu | ⟨i, x, n, e, hx, hst, hr'⟩⟩ := h.stored t ht
    · exact ⟨hhas hhad, .inl (unpresented_arrive.mpr ⟨hu, fun hrt => hr t hrt (.inl ht)⟩)⟩
    · exact ⟨hhas hhad, .inr ⟨i, x, n, e, hx, hst, hredeems hx hst hr'⟩⟩

/-- A call of the tab waits for a request that has just arrived. -/
theorem Trusty.await (h : c.Trusty) {i n : Nat} {x : ClientCall} {r : AuthRequest} (hx : c.calls[i]? = some x)
    (hst : x.stage.session? = none) (hn : c.desk.sessions[n]? = some (r, .begun))
    (hnew : ∀ (j : Nat) y, c.calls[j]? = some y → y.stage.session? ≠ some n)
    (hs : Straight { c with calls := c.calls.set i { x with stage := .waiting n } }) :
    Trusty { c with calls := c.calls.set i { x with stage := .waiting n } } := by
  have hnone (t : String) : ¬ c.desk.Grants n t := by
    rintro ⟨r', pair, hs, -⟩
    cases hn.symm.trans hs
  have hhas {t : String} (ht : c.Has t) : Has { c with calls := c.calls.set i { x with stage := .waiting n } } t := by
    obtain ⟨k, hk, hno⟩ := ht
    refine ⟨k, hk, fun j y hy hs => ?_⟩
    rcases call_of_set hy with ⟨rfl, rfl⟩ | ⟨-, hy⟩
    · cases hs
      exact hnone t hk
    · exact hno j y hy hs
  have hredeems {m : Nat} {t : String} (ht : c.Redeems m t) :
      Redeems { c with calls := c.calls.set i { x with stage := .waiting n } } m t := ⟨ht.1, hhas ht.2.1, ht.2.2⟩
  refine ⟨hs, h.sound, noLogout_set h hx rfl, fun j y m hy hm => ?_, fun j j' y y' m hy hy' hm hm' => ?_,
    fun j j' y y' hy hy' hr hr' => ?_, fun j y m t hy hm hg => ?_,
    fun j y m e hy hst' => ?_, fun t ht => ?_, h.tokens⟩
  · rcases call_of_set hy with ⟨rfl, rfl⟩ | ⟨-, hy⟩
    · cases hm
      exact (List.getElem?_eq_some_iff.mp hn).1
    · exact h.sessions j y m hy hm
  · rcases call_of_set hy with ⟨rfl, rfl⟩ | ⟨-, hold⟩ <;> rcases call_of_set hy' with ⟨rfl, rfl⟩ | ⟨-, hold'⟩
    · rfl
    · cases hm
      exact absurd hm' (hnew j' y' hold')
    · cases hm'
      exact absurd hm (hnew j y hold)
    · exact h.apart j j' y y' m hold hold' hm hm'
  · rcases call_of_set hy with ⟨rfl, rfl⟩ | ⟨-, hy⟩
    · cases hr
    · rcases call_of_set hy' with ⟨rfl, rfl⟩ | ⟨-, hy'⟩
      · cases hr'
      · exact h.single j j' y y' hy hy' hr hr'
  · rcases call_of_set hy with ⟨rfl, rfl⟩ | ⟨-, hy⟩
    · cases hm
      exact absurd hg (hnone t)
    · exact h.fresh j y m t hy hm hg
  · rcases call_of_set hy with ⟨rfl, rfl⟩ | ⟨-, hy⟩
    · cases hst'
    · obtain ⟨t, ht⟩ := h.redeems j y m e hy hst'
      exact ⟨t, hredeems ht⟩
  · obtain ⟨hhad, hu | ⟨j, y, m, e, hy, hst', hr⟩⟩ := h.stored t ht
    · exact ⟨hhas hhad, .inl hu⟩
    · have hne : i ≠ j := by
        rintro rfl
        cases hx.symm.trans hy
        rw [hst'] at hst
        cases hst
      exact ⟨hhas hhad, .inr ⟨j, y, m, e, by rw [List.getElem?_set_ne hne]; exact hy, hst', hredeems hr⟩⟩

/-- The token of the store goes out to be redeemed. -/
theorem Trusty.redeem (h : c.Trusty) {i : Nat} {x : ClientCall} {token : String} {e : AuthError}
    (hx : c.calls[i]? = some x) (htoken : c.store.refreshToken = some token)
    (hnone : ∀ y ∈ c.calls, ¬ y.stage.isRefreshing)
    (hs : Straight { c with
      desk := { c.desk with sessions := c.desk.sessions ++ [(.refresh token, .begun)] }
      calls := c.calls.set i ⟨x.request, true, .refreshing c.desk.sessions.length e⟩ }) :
    Trusty { c with
      desk := { c.desk with sessions := c.desk.sessions ++ [(.refresh token, .begun)] }
      calls := c.calls.set i ⟨x.request, true, .refreshing c.desk.sessions.length e⟩ } := by
  obtain ⟨hlt, -⟩ := List.getElem?_eq_some_iff.mp hx
  have hcalm {j : Nat} {y : ClientCall} (hy : c.calls[j]? = some y) : ¬ y.stage.isRefreshing :=
    hnone y (List.mem_of_getElem? hy)
  obtain ⟨hhad, hunused | ⟨j, y, n, e', hy, hst, -⟩⟩ := h.stored token htoken
  swap
  · exact absurd (by rw [hst]; rfl) (hcalm hy)
  have hhas : Has { c with
      desk := { c.desk with sessions := c.desk.sessions ++ [(.refresh token, .begun)] }
      calls := c.calls.set i ⟨x.request, true, .refreshing c.desk.sessions.length e⟩ } token := by
    obtain ⟨k, hk, hno⟩ := hhad
    refine ⟨k, AuthDesk.grants_arrive.mpr hk, fun j y hy hn => ?_⟩
    rcases call_of_set hy with ⟨rfl, rfl⟩ | ⟨-, hy⟩
    · cases hn
      exact Nat.lt_irrefl _ hk.lt
    · exact hno j y hy hn
  have hredeems : Redeems { c with
      desk := { c.desk with sessions := c.desk.sessions ++ [(.refresh token, .begun)] }
      calls := c.calls.set i ⟨x.request, true, .refreshing c.desk.sessions.length e⟩ }
      c.desk.sessions.length token := by
    refine ⟨⟨.begun, by simp, trivial⟩, hhas, fun m s hm ht => ?_⟩
    obtain ⟨r, st⟩ := s
    rcases AuthDesk.session_arrive hm with hm | ⟨hm, -, -⟩
    · exact absurd ht (hunused _ (List.mem_of_getElem? hm))
    · exact hm
  refine ⟨hs, h.sound.arrive _, noLogout_set h hx rfl, fun j y m hy hm => ?_, fun j j' y y' m hy hy' hm hm' => ?_,
    fun j j' y y' hy hy' hr hr' => ?_, fun j y m t hy hm hg => ?_,
    fun j y m e hy hst' => ?_, fun t ht => ?_, h.tokens⟩
  · simp only [List.length_append, List.length_singleton]
    rcases call_of_set hy with ⟨rfl, rfl⟩ | ⟨-, hy⟩
    · cases hm
      exact Nat.lt_succ_self _
    · exact Nat.lt_succ_of_lt (h.sessions j y m hy hm)
  · rcases call_of_set hy with ⟨rfl, rfl⟩ | ⟨-, hold⟩ <;> rcases call_of_set hy' with ⟨rfl, rfl⟩ | ⟨-, hold'⟩
    · rfl
    · cases hm
      exact absurd (h.sessions j' y' _ hold' hm') (Nat.lt_irrefl _)
    · cases hm'
      exact absurd (h.sessions j y _ hold hm) (Nat.lt_irrefl _)
    · exact h.apart j j' y y' m hold hold' hm hm'
  · rcases call_of_set hy with ⟨rfl, rfl⟩ | ⟨-, hy⟩
    · rcases call_of_set hy' with ⟨rfl, rfl⟩ | ⟨-, hy'⟩
      · rfl
      · exact absurd hr' (hcalm hy')
    · exact absurd hr (hcalm hy)
  · rw [AuthDesk.grants_arrive] at hg
    rcases call_of_set hy with ⟨rfl, rfl⟩ | ⟨-, hy⟩
    · cases hm
      exact absurd hg.lt (Nat.lt_irrefl _)
    · refine unpresented_arrive.mpr ⟨h.fresh j y m t hy hm hg, fun heq => ?_⟩
      obtain rfl : token = t := Option.some.inj heq
      obtain ⟨k, hk, hno⟩ := hhad
      obtain rfl := h.sound.unique token m k hg hk
      exact hno j y hy hm
  · rcases call_of_set hy with ⟨rfl, rfl⟩ | ⟨-, hy⟩
    · cases hst'
      exact ⟨token, hredeems⟩
    · exact absurd (by rw [hst']; rfl) (hcalm hy)
  · obtain rfl : token = t := Option.some.inj (htoken.symm.trans ht)
    exact ⟨hhas, .inr ⟨i, _, _, e, List.getElem?_set_self hlt, rfl, hredeems⟩⟩

/-! ### The auth service at work -/

theorem Trusty.of_portal (h : c.Trusty) {p : Portal} {rs : List ApiRequest}
    (hsound : AuthDesk.Sound { c.desk with portal := p })
    (hs : Straight { c with desk := { c.desk with portal := p }, requests := rs }) :
    Trusty { c with desk := { c.desk with portal := p }, requests := rs } :=
  ⟨hs, hsound, h.noLogout, h.sessions, h.apart, h.single, h.fresh, h.redeems, h.stored, h.tokens⟩

section
variable {p' : Portal} {uuid t : String} {n : Nat} {r : AuthRequest} {st st' : AuthStage}
  (hn : c.desk.sessions[n]? = some (r, st)) (hm : r.Moved cfg c.desk.portal uuid st p' st')
include hn

theorem unpresented_moved (h : c.desk.Unpresented t) :
    AuthDesk.Unpresented ⟨p', c.desk.sessions.set n (r, st')⟩ t := by
  intro s hs
  rcases List.mem_or_eq_of_mem_set hs with hs | rfl
  · exact h s hs
  · exact h (r, st) (List.mem_of_getElem? hn)

include hm

/-- A refresh that the tab has to itself goes on. -/
theorem going_moved (h : c.desk.Sound) (hfresh : c.desk.FreshFor uuid (some (r, st))) (hr : r = .refresh t)
    (hgoing : st.Going) (hhas : c.Has t)
    (hsole : ∀ (m : Nat) (s : AuthRequest × AuthStage), c.desk.sessions[m]? = some s → s.1.token? = some t → m = n)
    (htime : st = .begun → ∀ row ∈ c.desk.portal.refreshTokens.lookup t, c.desk.portal.now ≤ row.expiresAt) :
    st'.Going := by
  obtain ⟨k, hk, -⟩ := hhas
  obtain ⟨row, hrow, -⟩ := h.owned t k hk
  subst hr
  cases hm with
  | still => exact hgoing
  | found | revoked => trivial
  | orphan =>
    have howner := (h.found n t none hn).1 k hk
    cases howner
  | refused hopen hbegun hfound =>
    cases st with
    | vacant => exact hgoing.elim
    | granted | answered => exact absurd trivial hopen
    | found owner =>
      have hnone := hfound t owner rfl rfl
      cases hrow.symm.trans hnone
    | begun =>
      refine absurd ⟨row, hrow, ?_⟩ (hbegun t rfl rfl)
      have hunread : c.desk.Unread t := by
        intro m r' st₁ hs ht
        obtain rfl := hsole m _ hs ht
        cases hn.symm.trans hs
        rfl
      have hrevoked := h.unspent t k hk hunread row hrow
      have hexpires := htime rfl row hrow
      simp [hrevoked, hexpires]
  | @paired _ userId email role =>
    have huser : (c.desk.portal.world.db.users.lookup userId).isSome :=
      (findById_isSome.mp (h.granted _ _ _ _ _ hn)).2
    rcases generate_cases cfg c.desk.portal userId email role uuid with ⟨_, _, -, hbad⟩ | ⟨_, _, _, he, -⟩
    · exact absurd ⟨hfresh.1, huser⟩ hbad
    · rw [he]
      trivial

theorem Trusty.moved (h : c.Trusty) (hfresh : c.desk.FreshFor uuid (some (r, st))) (htime : c.InTime n) :
    Trusty { c with desk := ⟨p', c.desk.sessions.set n (r, st')⟩ } := by
  have hhas {t : String} (ht : c.Has t) : Has { c with desk := ⟨p', c.desk.sessions.set n (r, st')⟩ } t := by
    obtain ⟨k, hk, hno⟩ := ht
    exact ⟨k, AuthDesk.grants_old hn hm hk, hno⟩
  have hredeems {i m : Nat} {x : ClientCall} {e : AuthError} {t : String} (hx : c.calls[i]? = some x)
      (hst : x.stage = .refreshing m e) (ht : c.Redeems m t) :
      Redeems { c with desk := ⟨p', c.desk.sessions.set n (r, st')⟩ } m t := by
    obtain ⟨⟨st₁, hs, hgoing⟩, hhad, hsole⟩ := ht
    refine ⟨?_, hhas hhad, fun m' s hs' ht => ?_⟩
    · by_cases hnm : n = m
      · subst hnm
        obtain ⟨rfl, rfl⟩ := Prod.mk.inj (Option.some.inj (hn.symm.trans hs))
        obtain ⟨hlt, -⟩ := List.getElem?_eq_some_iff.mp hn
        refine ⟨st', List.getElem?_set_self hlt, going_moved hn hm h.sound hfresh rfl hgoing hhad hsole
          fun hst₁ => ?_⟩
        subst hst₁
        simp only [InTime, hn] at htime
        exact htime (.inr ⟨x, List.mem_of_getElem? hx, n, by rw [hst]; rfl, _, hn, .inl rfl⟩)
      · exact ⟨st₁, by rw [List.getElem?_set_ne hnm]; exact hs, hgoing⟩
    · obtain ⟨r', st₂⟩ := s
      rcases AuthDesk.session_set hs' with ⟨rfl, rfl, rfl⟩ | ⟨-, hs'⟩
      · exact hsole m' _ hn ht
      · exact hsole m' _ hs' ht
  refine ⟨⟨h.straight.same, h.straight.told⟩, h.sound.moved hn hm hfresh, h.noLogout, fun i x m hx hm' => ?_, h.apart,
    h.single, fun i x m t hx hm' hg => ?_, fun i x m e hx hst => ?_, fun t ht => ?_, h.tokens⟩
  · rw [List.length_set]
    exact h.sessions i x m hx hm'
  · rcases AuthDesk.grants_moved hn hm hg with hg | ⟨-, rfl, _, _, _, rfl, -⟩
    · exact unpresented_moved hn (h.fresh i x m t hx hm' hg)
    · exact unpresented_moved hn hfresh.2
  · obtain ⟨t, ht⟩ := h.redeems i x m e hx hst
    exact ⟨t, hredeems hx hst ht⟩
  · obtain ⟨hhad, hu | ⟨i, x, m, e, hx, hst, hr⟩⟩ := h.stored t ht
    · exact ⟨hhas hhad, .inl (unpresented_moved hn hu)⟩
    · exact ⟨hhas hhad, .inr ⟨i, x, m, e, hx, hst, hredeems hx hst hr⟩⟩

end

theorem owners_of_users {p p' : Portal} (ha : p'.accounts = p.accounts)
    (hw : ∀ a ∈ p.accounts, (p.world.db.users.lookup a.id).isSome → (p'.world.db.users.lookup a.id).isSome)
    (u : UserId) (hu : (p.findById u).isSome) : (p'.findById u).isSome := by
  rw [findById_isSome] at hu ⊢
  obtain ⟨⟨a, hmem, rfl⟩, huser⟩ := hu
  exact ⟨⟨a, by rw [ha]; exact hmem, rfl⟩, hw a hmem huser⟩

theorem Trusty.serve (h : c.Trusty) (k : Nat) : (c.serve cfg k).Trusty := by
  have hs : (c.serve cfg k).Straight := h.straight.serve k
  unfold Browser.serve at hs ⊢
  split
  · rename_i call bearer endpoint hr
    simp only [hr] at hs
    refine h.of_portal (h.sound.of_owners ?_ ?_) hs
    · simp only [Portal.respond]
      split <;> rfl
    · simp only [Portal.respond]
      split
      · exact owners_of_users rfl fun a _ hu => by rw [Portal.invoke_users]; exact hu
      · exact fun _ hu => hu
  · exact h

/-! ### The tab at work -/

theorem waits_of_reply {x : ClientCall} {answer : Except AuthError (Option TokenPair)}
    (ha : c.reply? x = some answer) : ¬ x.stage.isRefreshing := by
  cases hst : x.stage with
  | refreshing => simp [reply?, hst] at ha
  | ready | sent | waiting | done | gone => exact nofun

/-- The success handlers store what the session has granted, if anything. -/
theorem fulfil_store (h : c.Trusty) {i : Nat} {x : ClientCall} (hx : c.calls[i]? = some x)
    {tokens : Option TokenPair} (ha : c.reply? x = some (.ok tokens)) :
    (c.fulfil i x tokens).store = c.store ∨ ∃ n pair, x.stage.session? = some n ∧
      c.desk.Grants n pair.refreshToken ∧ (c.fulfil i x tokens).store = .setTokens pair := by
  have hgrants (pair : TokenPair) (htokens : tokens = some pair) (hauth : x.request.auth?.isSome) :
      ∃ n, x.stage.session? = some n ∧ c.desk.Grants n pair.refreshToken := by
    subst htokens
    unfold reply? at ha
    cases hst : x.stage with
    | sent k =>
      have htold := h.straight.told i x hx
      simp only [ClientCall.Told, hst] at htold
      obtain ⟨⟨r, hr, hc⟩, -⟩ := htold
      obtain ⟨y, hy, hyr⟩ := h.straight.same r (List.mem_of_getElem? hr)
      rw [hc, hx] at hy
      cases hy
      rw [hyr] at hauth
      cases hauth
    | waiting n =>
      simp only [hst, AuthDesk.answer?] at ha
      split at ha
      · rename_i r answer hs
        cases ha
        exact ⟨n, rfl, r, pair, hs, rfl⟩
      · cases ha
    | ready | refreshing | done | gone => simp only [hst] at ha; cases ha
  have hno := h.noLogout x (List.mem_of_getElem? hx)
  unfold fulfil
  cases hreq : x.request with
  | escrow => exact .inl rfl
  | logout token => rw [hreq] at hno; exact absurd rfl hno
  | register | login =>
    cases htokens : tokens with
    | none => exact .inl rfl
    | some pair =>
      obtain ⟨n, hn, hg⟩ := hgrants pair htokens (by rw [hreq]; rfl)
      exact .inr ⟨n, pair, hn, hg, rfl⟩

theorem reject_store {b : Browser} {i : Nat} {x : ClientCall} {e : CallError} (hx : ¬ x.request.isLogout) :
    (b.reject i x e).store = b.store := by
  unfold reject
  cases hreq : x.request with
  | logout token => rw [hreq] at hx; exact absurd rfl hx
  | escrow | register | login => rfl

theorem Trusty.turned (h : c.Trusty) {i : Nat} {x : ClientCall} (hx : c.calls[i]? = some x)
    (hcareful : c.Redeeming x → ∀ y ∈ c.calls, ¬ y.stage.isRefreshing) (ht : c.Turned i x c') : c.Stays c' := by
  have hs := h.straight.turned hx ht
  have hno := h.noLogout x (List.mem_of_getElem? hx)
  cases ht with
  | idle => exact ⟨h, id⟩
  | sent hst hreq =>
    exact h.drop hx hs rfl rfl rfl rfl (.inl ⟨rfl, by rw [hst]; exact nofun⟩)
  | @arrived authorization r hst hr =>
    have hnone : r.token? = none := by
      cases hreq : x.request with
      | logout token => rw [hreq] at hno; exact absurd rfl hno
      | escrow => rw [hreq] at hr; cases hr
      | register | login => rw [hreq] at hr; cases hr; rfl
    have harrived := h.arrive (r := r) (by rw [hnone]; exact fun _ => nofun)
    have hlast : (c.desk.sessions ++ [(r, .begun)])[c.desk.sessions.length]? = some (r, .begun) := by simp
    exact ⟨harrived.await hx (by rw [hst]; rfl) hlast
      (fun j y hy hn => Nat.lt_irrefl _ (h.sessions j y _ hy hn)) hs, id⟩
  | fulfilled ha =>
    refine h.drop hx hs rfl rfl rfl rfl ?_
    rcases fulfil_store h hx ha with hstore | hstore
    · exact .inl ⟨hstore, waits_of_reply ha⟩
    · exact .inr hstore
  | rejected he =>
    exact h.drop hx hs rfl rfl rfl rfl (.inl ⟨reject_store hno, waits_of_reply he⟩)
  | @signedOut e he _ hnone =>
    have hclear : c.clear.store = c.store := by
      have htokens := h.tokens
      rw [hnone] at htokens
      cases hstore : c.store with
      | mk access refresh =>
        rw [hstore] at htokens hnone
        cases access with
        | none => cases hnone; exact congrArg (AuthStore.mk none) rfl
        | some token => cases htokens
    have hrejected : (c.clear.reject i { x with retry := true } (.answered e)).store = c.clear.store :=
      reject_store hno
    exact h.drop hx hs rfl rfl rfl rfl (.inl ⟨hrejected.trans hclear, waits_of_reply he⟩)
  | redeemed he hfirst htoken =>
    have hredeeming : c.Redeeming x := by
      simp only [Redeeming, he]
      exact hfirst
    exact ⟨h.redeem hx htoken (hcareful hredeeming) hs, id⟩
  | @renewed n e pair hst ha =>
    refine h.drop hx hs rfl rfl rfl rfl (.inr ⟨n, pair, by rw [hst]; rfl, ?_, rfl⟩)
    unfold AuthDesk.answer? at ha
    split at ha
    · rename_i r answer hsession
      cases ha
      exact ⟨r, pair, hsession, rfl⟩
    · cases ha
  | @failed n e answer hst ha hbad =>
    obtain ⟨t, ⟨st, hsession, hgoing⟩, -⟩ := h.redeems i x n e hx hst
    simp only [AuthDesk.answer?, hsession] at ha
    cases st with
    | answered answer' =>
      cases ha
      cases answer with
      | error e => exact hgoing.elim
      | ok tokens =>
        cases tokens with
        | none => exact hgoing.elim
        | some pair => exact absurd rfl (hbad pair)
    | begun | vacant | found | granted => cases ha

theorem Trusty.lose (h : c.Trusty) (i : Nat) (hcareful : ∀ x ∈ c.calls[i]?, ¬ x.stage.isRefreshing) :
    c.Stays (c.lose i) := by
  have hs := h.straight.lose i
  unfold Browser.lose at hs ⊢
  cases hx : c.calls[i]? with
  | none => exact ⟨h, id⟩
  | some x =>
    have hno := h.noLogout x (List.mem_of_getElem? hx)
    have hnot := hcareful x hx
    simp only [hx] at hs ⊢
    cases hst : x.stage with
    | sent | waiting =>
      simp only [hst] at hs
      exact h.drop hx hs rfl rfl rfl rfl (.inl ⟨reject_store hno, hnot⟩)
    | refreshing => rw [hst] at hnot; exact absurd rfl hnot
    | ready | done | gone => exact ⟨h, id⟩

theorem Trusty.leave (h : c.Trusty) (hcareful : ∀ y ∈ c.calls, ¬ y.stage.isRefreshing) : c.Stays c.leave := by
  refine ⟨h.fewer h.straight.leave ⟨rfl, fun y hy => ?_, fun j y n hy hn => ?_, .inl ⟨rfl, fun j y hy hr => ?_⟩⟩, id⟩
  · obtain ⟨x, hx, rfl⟩ := List.mem_map.mp hy
    have hno := h.noLogout x hx
    split <;> exact hno
  · replace hy := (List.getElem?_map ..).symm.trans hy
    obtain ⟨x, hx, rfl⟩ := Option.map_eq_some_iff.mp hy
    split at hn
    · exact hx
    · cases hn
  · exact absurd hr (hcareful y (List.mem_of_getElem? hy))

theorem Trusty.call (h : c.Trusty) {request : ApiCall} (hno : ¬ request.isLogout) :
    c.Stays { c with calls := c.calls ++ [⟨request, false, .ready none⟩] } := by
  refine ⟨h.fewer (h.straight.call request) ⟨rfl, fun y hy => ?_, fun j y n hy hn => ?_,
    .inl ⟨rfl, fun j y hy _ => ?_⟩⟩, id⟩
  · rcases List.mem_append.mp hy with hy | hy
    · exact h.noLogout y hy
    · rw [List.mem_singleton.mp hy]
      exact hno
  · replace hy := List.getElem?_append.symm.trans hy
    split at hy
    · exact hy
    · rw [List.getElem?_singleton] at hy
      split at hy
      · cases hy; cases hn
      · cases hy
  · exact (List.getElem?_append_left (List.getElem?_eq_some_iff.mp hy).1).trans hy

theorem Trusty.step (h : c.Trusty) {a : BrowserAction} (ha : c.Careful a) : c.Stays (Browser.step cfg c a) := by
  cases a with
  | call request => exact h.call ha
  | turn i =>
    change c.Stays (c.turn i)
    cases hx : c.calls[i]? with
    | none => simp only [Browser.turn, hx]; exact ⟨h, id⟩
    | some x => exact h.turned hx (ha x hx) (turn_turned hx)
  | lose i => exact h.lose i ha
  | leave => exact h.leave ha
  | serve k =>
    refine ⟨h.serve k, fun hin => ?_⟩
    change (c.serve cfg k).store.isAuthenticated
    unfold Browser.serve
    split <;> exact hin
  | auth a =>
    have hstraight (d : AuthDesk) : Straight { c with desk := d } := ⟨h.straight.same, h.straight.told⟩
    cases a with
    | arrive r => exact ⟨h.arrive ha, id⟩
    | advance n uuid =>
      refine ⟨?_, id⟩
      change Trusty { c with desk := c.desk.step cfg (.advance n uuid) }
      cases hn : c.desk.sessions[n]? with
      | none =>
        simp only [AuthDesk.step, hn]
        exact h
      | some s =>
        obtain ⟨r, st⟩ := s
        simp only [AuthDesk.step, hn]
        obtain ⟨hfresh, htime⟩ := ha
        simp only [AuthDesk.Fresh, hn] at hfresh
        exact h.moved hn (next_moved cfg c.desk.portal uuid r st) hfresh htime
    | wait ms => exact ⟨h.of_portal (h.sound.of_owners rfl fun _ hu => hu) (hstraight _), id⟩
    | elsewhere w => exact ⟨h.of_portal (h.sound.of_owners rfl (owners_of_users rfl ha)) (hstraight _), id⟩

theorem start_trusty (p : Portal) : (start p).Trusty := by
  have hnone (n : Nat) (t : String) : ¬ (start p).desk.Grants n t := by
    rintro ⟨_, _, hn, -⟩
    cases hn
  have hempty {n : Nat} {s : AuthRequest × AuthStage}
      (hn : (start p).desk.sessions[n]? = some s) : False := by cases hn
  have hcall {i : Nat} {x : ClientCall} (hx : (start p).calls[i]? = some x) : False := by cases hx
  exact ⟨⟨List.forall_mem_nil _, fun _ _ hx => (hcall hx).elim⟩,
    ⟨fun t n _ hn => absurd hn (hnone n t), fun t n hn => absurd hn (hnone n t), fun t n hn => absurd hn (hnone n t),
      fun _ _ _ hn => (hempty hn).elim, fun _ _ _ _ _ hn => (hempty hn).elim⟩,
    List.forall_mem_nil _, fun _ _ _ hx => (hcall hx).elim, fun _ _ _ _ _ hx => (hcall hx).elim,
    fun _ _ _ _ hx => (hcall hx).elim, fun _ _ _ _ hx => (hcall hx).elim, fun _ _ _ _ hx => (hcall hx).elim,
    fun _ ht => (Option.some_ne_none _ ht.symm).elim, rfl⟩

/-- A tab whose refreshes do not overlap, get lost or come too late stays signed in, and between
refreshes its refresh token is a user's and good until it expires. -/
theorem stays_signed_in (cfg : AuthConfig) (p : Portal) (front rest : List BrowserAction)
    (h : Meets (Browser.step cfg) Careful (start p) (front ++ rest))
    (hin : (run (Browser.step cfg) (start p) front).store.isAuthenticated) :
    let c := run (Browser.step cfg) (start p) (front ++ rest)
    c.store.isAuthenticated ∧ ((∀ y ∈ c.calls, ¬ y.stage.isRefreshing) →
      ∃ t row, c.store.refreshToken = some t ∧ c.desk.portal.refreshTokens.lookup t = some row ∧
        row.isRevoked = false ∧ (c.desk.portal.findById row.userId).isSome) := by
  obtain ⟨hfront, hrest⟩ := (meets_append front rest).mp h
  have hmid := run_inv_of_meets Trusty (fun _ _ ha hc => (hc.step ha).1) front hfront (start_trusty p)
  obtain ⟨htrusty, hstill⟩ := run_inv_of_meets (fun c : Browser => c.Trusty ∧ c.store.isAuthenticated)
    (fun _ _ ha hc => (hc.1.step ha).imp id fun hkept => hkept hc.2) rest hrest ⟨hmid, hin⟩
  rw [← run_append] at htrusty hstill
  refine ⟨hstill, fun hcalm => ?_⟩
  obtain ⟨t, ht⟩ := Option.isSome_iff_exists.mp (htrusty.tokens.symm.trans hstill)
  obtain ⟨⟨k, hk, -⟩, hu | ⟨i, x, n, e, hx, hst, -⟩⟩ := htrusty.stored t ht
  · obtain ⟨row, hrow, howner⟩ := htrusty.sound.owned t k hk
    refine ⟨t, row, ht, hrow, htrusty.sound.unspent t k hk (fun m r st hm htoken => ?_) row hrow, howner⟩
    exact absurd htoken (hu _ (List.mem_of_getElem? hm))
  · exact absurd (by rw [hst]; rfl) (hcalm x (List.mem_of_getElem? hx))

end Browser

/-! ## Sample runs -/

instance (c : Browser) (t : String) : Decidable (c.Holds t) :=
  inferInstanceAs (Decidable (_ ∨ ∃ x ∈ c.calls, ∃ n ∈ x.stage.session?, ∃ s ∈ c.desk.sessions[n]?, _ ∨ _))

instance (c : Browser) (x : ClientCall) : Decidable (c.Redeeming x) := by
  unfold Browser.Redeeming
  split <;> infer_instance

instance (c : Browser) (n : Nat) : Decidable (c.InTime n) := by
  unfold Browser.InTime
  split <;> infer_instance

instance (c : Browser) : (a : BrowserAction) → Decidable (c.Careful a)
  | .call request => inferInstanceAs (Decidable (¬ request.isLogout))
  | .turn i => inferInstanceAs (Decidable (∀ x ∈ c.calls[i]?, c.Redeeming x → ∀ y ∈ c.calls, ¬ y.stage.isRefreshing))
  | .lose i => inferInstanceAs (Decidable (∀ x ∈ c.calls[i]?, ¬ x.stage.isRefreshing))
  | .leave => inferInstanceAs (Decidable (∀ y ∈ c.calls, ¬ y.stage.isRefreshing))
  | .serve _ | .auth (.wait _) => .isTrue trivial
  | .auth (.arrive r) => inferInstanceAs (Decidable (∀ t ∈ r.token?, ¬ c.Holds t))
  | .auth (.advance n uuid) => inferInstanceAs (Decidable (c.desk.Fresh (.advance n uuid) ∧ c.InTime n))
  | .auth (.elsewhere w) => inferInstanceAs (Decidable (∀ a ∈ c.desk.portal.accounts,
    (c.desk.portal.world.db.users.lookup a.id).isSome → (w.db.users.lookup a.id).isSome))

/-- Two calls come back unauthorized before either has a new pair. -/
def sampleOverlap : List BrowserAction :=
  [.auth (.wait 1000000000), .call (.escrow .list), .call (.escrow .list), .turn 1, .turn 2, .serve 0, .serve 1,
    .turn 1, .turn 2, .auth (.advance 1 ""), .auth (.advance 1 ""), .auth (.advance 1 "second"),
    .auth (.advance 2 ""), .turn 1, .turn 2]

theorem sample_stays_signed_in :
    let c := run (Browser.step sampleConfig) (Browser.start samplePortal) (sampleSignIn ++ sampleRenewal)
    c.store.isAuthenticated ∧ ((∀ y ∈ c.calls, ¬ y.stage.isRefreshing) →
      ∃ t row, c.store.refreshToken = some t ∧ c.desk.portal.refreshTokens.lookup t = some row ∧
        row.isRevoked = false ∧ (c.desk.portal.findById row.userId).isSome) :=
  Browser.stays_signed_in sampleConfig samplePortal sampleSignIn sampleRenewal (by decide +kernel) (by decide +kernel)

/-- The overlap is what signs the tab out. -/
theorem overlap_signs_out : (run (Browser.step sampleConfig) (Browser.start samplePortal)
      sampleSignIn).store.isAuthenticated ∧
    ¬ (run (Browser.step sampleConfig) (Browser.start samplePortal)
      (sampleSignIn ++ sampleOverlap)).store.isAuthenticated := by
  decide +kernel

end NexusHub
