import NexusHub.Rotation

/-!
# The web client

A browser tab that calls the API through the client with its two interceptors.
A call goes out with the access token of the store. When it comes back
unauthorized for the first time, the client redeems the refresh token, stores
the new pair and sends the call again; when that fails, it clears the store.
Calls of one tab overlap, and so do the requests of others.
-/

namespace NexusHub

/-- The tokens of `useAuthStore`. -/
structure AuthStore where
  accessToken : Option JwtPayload
  refreshToken : Option String
  deriving DecidableEq

namespace AuthStore

def setTokens (pair : TokenPair) : AuthStore := ⟨some pair.accessToken, some pair.refreshToken⟩

def clearAuth : AuthStore := ⟨none, none⟩

def isAuthenticated (a : AuthStore) : Bool := a.accessToken.isSome

end AuthStore

/-- What the hooks and the sidebar ask of the API. -/
inductive ApiCall where
  | escrow (endpoint : EscrowEndpoint)
  | register (dto : RegisterDto) (id : UserId) (salt : String)
  | login (dto : LoginDto)
  | logout (token : String)

def ApiCall.auth? : ApiCall → Option AuthRequest
  | escrow _ => none
  | register dto id salt => some (.register dto id salt)
  | login dto => some (.login dto)
  | logout token => some (.logout token)

inductive CallError where
  | answered (e : AuthError)
  | network
  deriving DecidableEq

inductive CallStage where
  /-- `authorization` is the header that a retry was given. -/
  | ready (authorization : Option JwtPayload)
  /-- Before the guards of the escrow controller, or back from them. -/
  | sent (request : Nat)
  | waiting (session : Nat)
  /-- The refresh that the call waits for, and what the call itself was told. -/
  | refreshing (session : Nat) (error : AuthError)
  | done (result : Except CallError Unit)
  /-- The page was left. -/
  | gone

/-- `retry` is the mark `_retry` on the request's configuration. -/
structure ClientCall where
  request : ApiCall
  retry : Bool
  stage : CallStage

/-- A request of call `call` to the escrow controller, and what the guards said. -/
structure ApiRequest where
  call : Nat
  bearer : Option JwtPayload
  endpoint : EscrowEndpoint
  answer : Option (Except AuthError (Option TokenPair))

/-- The tab and the API. -/
structure Browser where
  desk : AuthDesk
  requests : List ApiRequest
  store : AuthStore
  calls : List ClientCall

inductive BrowserAction where
  | call (request : ApiCall)
  /-- The client goes on with a call if it can. -/
  | turn (i : Nat)
  | lose (i : Nat)
  | leave
  | serve (k : Nat)
  | auth (a : AuthAction)

def AuthError.isUnauthorized : AuthError → Bool
  | unauthorized _ => true
  | _ => false

def AuthDesk.answer? (c : AuthDesk) (n : Nat) : Option (Except AuthError (Option TokenPair)) :=
  match c.sessions[n]? with
  | some (_, .answered answer) => some answer
  | _ => none

namespace Browser

variable (c : Browser)

/-- The request interceptor, and the request. -/
def dispatch (i : Nat) (x : ClientCall) (authorization : Option JwtPayload) : Browser :=
  match x.request with
  | .escrow endpoint =>
    { c with
      requests := c.requests ++ [⟨i, c.store.accessToken <|> authorization, endpoint, none⟩]
      calls := c.calls.set i { x with stage := .sent c.requests.length } }
  | .register dto id salt => arrive (.register dto id salt)
  | .login dto => arrive (.login dto)
  | .logout token => arrive (.logout token)
where
  arrive (r : AuthRequest) : Browser :=
    { c with
      desk := { c.desk with sessions := c.desk.sessions ++ [(r, .begun)] }
      calls := c.calls.set i { x with stage := .waiting c.desk.sessions.length } }

/-- The success handlers. -/
def fulfil (i : Nat) (x : ClientCall) (tokens : Option TokenPair) : Browser :=
  { c with
    store :=
      match x.request, tokens with
      | .register .., some pair | .login _, some pair => .setTokens pair
      | .logout _, _ => .clearAuth
      | _, _ => c.store
    calls := c.calls.set i { x with stage := .done (.ok ()) } }

/-- The sidebar clears the store whatever a logout has come to. -/
def reject (i : Nat) (x : ClientCall) (e : CallError) : Browser :=
  { c with
    store :=
      match x.request with
      | .logout _ => .clearAuth
      | _ => c.store
    calls := c.calls.set i { x with stage := .done (.error e) } }

/-- The page is left next. -/
def clear : Browser := { c with store := .clearAuth }

/-- The response interceptor on an error of the API. -/
def refuse (i : Nat) (x : ClientCall) (e : AuthError) : Browser :=
  if e.isUnauthorized ∧ ¬ x.retry then
    match c.store.refreshToken with
    | none => c.clear.reject i { x with retry := true } (.answered e)
    | some token =>
      { c with
        desk := { c.desk with sessions := c.desk.sessions ++ [(.refresh token, .begun)] }
        calls := c.calls.set i ⟨x.request, true, .refreshing c.desk.sessions.length e⟩ }
  else c.reject i x (.answered e)

/-- What the API has answered to the call itself. -/
def reply? (x : ClientCall) : Option (Except AuthError (Option TokenPair)) :=
  match x.stage with
  | .sent k => c.requests[k]?.bind (·.answer)
  | .waiting n => c.desk.answer? n
  | _ => none

def turn (i : Nat) : Browser :=
  match c.calls[i]? with
  | none => c
  | some x =>
    match x.stage with
    | .ready authorization => c.dispatch i x authorization
    | .sent _ | .waiting _ =>
      match c.reply? x with
      | none => c
      | some (.ok tokens) => c.fulfil i x tokens
      | some (.error e) => c.refuse i x e
    | .refreshing n e =>
      match c.desk.answer? n with
      | none => c
      | some (.ok (some pair)) =>
        { c with
          store := .setTokens pair
          calls := c.calls.set i { x with stage := .ready (some pair.accessToken) } }
      | some (.ok none) | some (.error _) => c.clear.reject i x (.answered e)
    | .done _ | .gone => c

/-- No answer comes, or none in time; the API may go on with the request. -/
def lose (i : Nat) : Browser :=
  match c.calls[i]? with
  | none => c
  | some x =>
    match x.stage with
    | .sent _ | .waiting _ => c.reject i x .network
    | .refreshing _ e => c.clear.reject i x (.answered e)
    | .ready _ | .done _ | .gone => c

def leave : Browser :=
  { c with calls := c.calls.map fun x =>
      match x.stage with
      | .done _ => x
      | _ => { x with stage := .gone } }

def serve (cfg : AuthConfig) (k : Nat) : Browser :=
  match c.requests[k]? with
  | some ⟨call, bearer, endpoint, none⟩ =>
    let responded := c.desk.portal.respond cfg (.escrow bearer endpoint)
    { c with
      desk := { c.desk with portal := responded.1 }
      requests := c.requests.set k ⟨call, bearer, endpoint, some responded.2⟩ }
  | _ => c

def start (p : Portal) : Browser := ⟨⟨p, []⟩, [], .clearAuth, []⟩

end Browser

def Browser.step (cfg : AuthConfig) (c : Browser) : BrowserAction → Browser
  | .call request => { c with calls := c.calls ++ [⟨request, false, .ready none⟩] }
  | .turn i => c.turn i
  | .lose i => c.lose i
  | .leave => c.leave
  | .serve k => c.serve cfg k
  | .auth a => { c with desk := c.desk.step cfg a }

/-! ## What a turn does -/

inductive Browser.Turned (c : Browser) (i : Nat) (x : ClientCall) : Browser → Prop where
  | idle : Turned c i x c
  | sent {authorization : Option JwtPayload} {endpoint : EscrowEndpoint} (hst : x.stage = .ready authorization)
      (hx : x.request = .escrow endpoint) : Turned c i x { c with
        requests := c.requests ++ [⟨i, c.store.accessToken <|> authorization, endpoint, none⟩]
        calls := c.calls.set i { x with stage := .sent c.requests.length } }
  | arrived {authorization : Option JwtPayload} {r : AuthRequest} (hst : x.stage = .ready authorization)
      (hr : x.request.auth? = some r) : Turned c i x { c with
        desk := { c.desk with sessions := c.desk.sessions ++ [(r, .begun)] }
        calls := c.calls.set i { x with stage := .waiting c.desk.sessions.length } }
  | fulfilled {tokens : Option TokenPair} (ha : c.reply? x = some (.ok tokens)) :
      Turned c i x (c.fulfil i x tokens)
  | rejected {e : AuthError} (he : c.reply? x = some (.error e)) : Turned c i x (c.reject i x (.answered e))
  | signedOut {e : AuthError} (he : c.reply? x = some (.error e)) (hfirst : e.isUnauthorized ∧ ¬ x.retry)
      (hnone : c.store.refreshToken = none) :
      Turned c i x (c.clear.reject i { x with retry := true } (.answered e))
  | redeemed {e : AuthError} {token : String} (he : c.reply? x = some (.error e))
      (hfirst : e.isUnauthorized ∧ ¬ x.retry) (htoken : c.store.refreshToken = some token) :
      Turned c i x { c with
        desk := { c.desk with sessions := c.desk.sessions ++ [(.refresh token, .begun)] }
        calls := c.calls.set i ⟨x.request, true, .refreshing c.desk.sessions.length e⟩ }
  | renewed {n : Nat} {e : AuthError} {pair : TokenPair} (hst : x.stage = .refreshing n e)
      (ha : c.desk.answer? n = some (.ok (some pair))) : Turned c i x { c with
        store := .setTokens pair
        calls := c.calls.set i { x with stage := .ready (some pair.accessToken) } }
  | failed {n : Nat} {e : AuthError} {answer : Except AuthError (Option TokenPair)} (hst : x.stage = .refreshing n e)
      (ha : c.desk.answer? n = some answer) (hbad : ∀ pair, answer ≠ .ok (some pair)) :
      Turned c i x (c.clear.reject i x (.answered e))

section
variable {c : Browser} {i : Nat} {x : ClientCall}

theorem refuse_turned {e : AuthError} (he : c.reply? x = some (.error e)) : c.Turned i x (c.refuse i x e) := by
  unfold Browser.refuse
  by_cases hfirst : e.isUnauthorized ∧ ¬ x.retry
  · rw [if_pos hfirst]
    cases htoken : c.store.refreshToken with
    | none => exact .signedOut he hfirst htoken
    | some token => exact .redeemed he hfirst htoken
  · rw [if_neg hfirst]
    exact .rejected he

theorem dispatch_turned {authorization : Option JwtPayload} (hst : x.stage = .ready authorization) :
    c.Turned i x (c.dispatch i x authorization) := by
  obtain ⟨request, retry, stage⟩ := x
  cases request with
  | escrow endpoint => exact .sent hst rfl
  | register | login | logout => exact .arrived hst rfl

theorem turn_turned (hx : c.calls[i]? = some x) : c.Turned i x (c.turn i) := by
  simp only [Browser.turn, hx]
  cases hst : x.stage with
  | ready authorization => exact dispatch_turned hst
  | sent | waiting =>
    cases ha : c.reply? x with
    | none => exact .idle
    | some answer =>
      cases answer with
      | ok tokens => exact .fulfilled ha
      | error e => exact refuse_turned ha
  | refreshing n e =>
    cases ha : c.desk.answer? n with
    | none => simp only [ha]; exact .idle
    | some answer =>
      simp only [ha]
      cases answer with
      | ok tokens =>
        cases tokens with
        | none => exact .failed hst ha nofun
        | some pair => exact .renewed hst ha
      | error e => exact .failed hst ha nofun
  | done | gone => exact .idle

end

/-! ## Requests of a call -/

namespace ApiRequest

def Refused (r : ApiRequest) : Prop := ∃ e, r.answer = some (.error e)

/-- The guards let the request through to its handler. -/
def Handled (r : ApiRequest) : Prop := ∃ tokens, r.answer = some (.ok tokens)

theorem Handled.not_refused {r : ApiRequest} (h : r.Handled) : ¬ r.Refused := by
  rintro ⟨e, he⟩
  obtain ⟨tokens, ht⟩ := h
  cases he.symm.trans ht

end ApiRequest

/-- All requests of call `i` have been refused, except perhaps the one at `k`. -/
def RefusedBut (k : Option Nat) (i : Nat) (rs : List ApiRequest) : Prop :=
  ∀ (m : Nat) (r : ApiRequest), rs[m]? = some r → r.call = i → some m ≠ k → r.Refused

/-- What a call has been told is so. -/
def ClientCall.Told (x : ClientCall) (i : Nat) (rs : List ApiRequest) : Prop :=
  match x.stage with
  | .ready _ | .refreshing .. | .done (.error (.answered _)) => RefusedBut none i rs
  | .waiting _ => x.request.auth?.isSome ∧ RefusedBut none i rs
  | .sent k => (∃ r, rs[k]? = some r ∧ r.call = i) ∧ RefusedBut (some k) i rs
  | .done (.ok _) => (∃ k, RefusedBut k i rs) ∧ ∀ endpoint, x.request = .escrow endpoint →
    ∃ (k : Nat) (r : ApiRequest), rs[k]? = some r ∧ r.call = i ∧ r.Handled
  | .done (.error .network) | .gone => ∃ k, RefusedBut k i rs

/-- Requests stay, and only those without an answer change. -/
structure Answers (i : Nat) (rs rs' : List ApiRequest) : Prop where
  kept : ∀ (k : Nat) (r : ApiRequest), rs[k]? = some r →
    ∃ r', rs'[k]? = some r' ∧ r'.call = r.call ∧ (r' = r ∨ r.answer = none)
  old : ∀ (k : Nat) (r' : ApiRequest), rs'[k]? = some r' → r'.call = i → ∃ r, rs[k]? = some r ∧ r.call = i

section
variable {i : Nat} {rs rs' : List ApiRequest}

theorem RefusedBut.answers {k : Option Nat} (h : RefusedBut k i rs) (ha : Answers i rs rs') : RefusedBut k i rs' := by
  intro m r' hr' hc hm
  obtain ⟨r, hr, hrc⟩ := ha.old m r' hr' hc
  have hrefused := h m r hr hrc hm
  obtain ⟨r₁, hr₁, -, rfl | hnone⟩ := ha.kept m r hr
  · rw [Option.some.inj (hr'.symm.trans hr₁)]
    exact hrefused
  · obtain ⟨e, he⟩ := hrefused
    cases hnone.symm.trans he

theorem ApiRequest.Handled.answers {k : Nat} {r : ApiRequest} (hr : rs[k]? = some r) (h : r.Handled)
    (ha : Answers i rs rs') : rs'[k]? = some r := by
  obtain ⟨r', hr', -, rfl | hnone⟩ := ha.kept k r hr
  · exact hr'
  · obtain ⟨tokens, ht⟩ := h
    cases hnone.symm.trans ht

theorem ClientCall.Told.answers {x : ClientCall} (h : x.Told i rs) (ha : Answers i rs rs') : x.Told i rs' := by
  unfold Told at h ⊢
  cases hst : x.stage with
  | ready | refreshing => rw [hst] at h; exact RefusedBut.answers h ha
  | waiting => rw [hst] at h; exact ⟨h.1, h.2.answers ha⟩
  | gone =>
    rw [hst] at h
    obtain ⟨k, hk⟩ := h
    exact ⟨k, hk.answers ha⟩
  | sent k =>
    rw [hst] at h
    obtain ⟨⟨r, hr, hc⟩, hbut⟩ := h
    obtain ⟨r', hr', hc', -⟩ := ha.kept k r hr
    exact ⟨⟨r', hr', hc'.trans hc⟩, hbut.answers ha⟩
  | done result =>
    rw [hst] at h
    cases result with
    | ok u =>
      obtain ⟨⟨k, hk⟩, hhandled⟩ := h
      refine ⟨⟨k, hk.answers ha⟩, fun endpoint hx => ?_⟩
      obtain ⟨m, r, hr, hc, hh⟩ := hhandled endpoint hx
      exact ⟨m, r, hh.answers hr ha, hc, hh⟩
    | error e =>
      cases e with
      | answered e => exact RefusedBut.answers h ha
      | network =>
        obtain ⟨k, hk⟩ := h
        exact ⟨k, hk.answers ha⟩

/-- At most one request of the call has not been refused. -/
theorem ClientCall.Told.refusedBut {x : ClientCall} (h : x.Told i rs) : ∃ k, RefusedBut k i rs := by
  unfold Told at h
  cases hst : x.stage with
  | ready | refreshing => rw [hst] at h; exact ⟨none, h⟩
  | waiting => rw [hst] at h; exact ⟨none, h.2⟩
  | sent k => rw [hst] at h; exact ⟨some k, h.2⟩
  | gone => rw [hst] at h; exact h
  | done result =>
    rw [hst] at h
    cases result with
    | ok u => exact h.1
    | error e =>
      cases e with
      | answered e => exact ⟨none, h⟩
      | network => exact h

end

namespace Browser

/-- The requests of a call are for its endpoint, and the call has been told what is so of them. -/
structure Straight (c : Browser) : Prop where
  same : ∀ r ∈ c.requests, ∃ x, c.calls[r.call]? = some x ∧ x.request = .escrow r.endpoint
  told : ∀ (i : Nat) (x : ClientCall), c.calls[i]? = some x → x.Told i c.requests

variable {c c' : Browser} {cfg : AuthConfig}

theorem call_of_set {calls : List ClientCall} {i j : Nat} {x y : ClientCall} (h : (calls.set i x)[j]? = some y) :
    j = i ∧ y = x ∨ j ≠ i ∧ calls[j]? = some y := by
  rw [List.getElem?_set] at h
  split at h
  · rename_i hij
    split at h
    · exact .inl ⟨hij.symm, (Option.some.inj h).symm⟩
    · cases h
  · rename_i hij
    exact .inr ⟨fun he => hij he.symm, h⟩

theorem request_of_set {calls : List ClientCall} {i j : Nat} {x x' y : ClientCall} (hx : calls[i]? = some x)
    (hx' : x'.request = x.request) (hy : calls[j]? = some y) :
    ∃ y', (calls.set i x')[j]? = some y' ∧ y'.request = y.request := by
  by_cases hij : i = j
  · subst hij
    cases hx.symm.trans hy
    obtain ⟨hlt, -⟩ := List.getElem?_eq_some_iff.mp hx
    exact ⟨x', List.getElem?_set_self hlt, hx'⟩
  · exact ⟨y, by rw [List.getElem?_set_ne hij]; exact hy, rfl⟩

/-- A call moves on, knowing what is so; the requests stay as they are. -/
theorem Straight.move (h : c.Straight) {i : Nat} {x x' : ClientCall} (hx : c.calls[i]? = some x)
    (hreq : c'.requests = c.requests) (hcalls : c'.calls = c.calls.set i x') (hx' : x'.request = x.request)
    (htold : x'.Told i c.requests) : c'.Straight where
  same r hr := by
    rw [hreq] at hr
    obtain ⟨y, hy, hyr⟩ := h.same r hr
    obtain ⟨y', hy', hyr'⟩ := request_of_set hx hx' hy
    exact ⟨y', by rw [hcalls]; exact hy', hyr'.trans hyr⟩
  told j y hy := by
    rw [hcalls] at hy
    rw [hreq]
    rcases call_of_set hy with ⟨rfl, rfl⟩ | ⟨-, hy⟩
    · exact htold
    · exact h.told j y hy

theorem answers_append (rs : List ApiRequest) {r : ApiRequest} {j : Nat} (hne : r.call ≠ j) :
    Answers j rs (rs ++ [r]) := by
  refine ⟨fun k r' h => ⟨r', ?_, rfl, .inl rfl⟩, fun k r' h hc => ?_⟩
  · obtain ⟨hlt, -⟩ := List.getElem?_eq_some_iff.mp h
    rw [List.getElem?_append_left hlt]
    exact h
  · rw [List.getElem?_append] at h
    split at h
    · exact ⟨r', h, hc⟩
    · rw [List.getElem?_singleton] at h
      split at h
      · cases h; exact absurd hc hne
      · cases h

theorem refusedBut_append {rs : List ApiRequest} {i : Nat} (h : RefusedBut none i rs) (r : ApiRequest) :
    RefusedBut (some rs.length) i (rs ++ [r]) := by
  intro m r' hr' hc hm
  rw [List.getElem?_append] at hr'
  split at hr'
  · exact h m r' hr' hc nofun
  · rename_i hlt
    rw [List.getElem?_singleton] at hr'
    split at hr'
    · exact absurd (congrArg some (by omega)) hm
    · cases hr'

theorem Straight.sent (h : c.Straight) {i : Nat} {x : ClientCall} (hx : c.calls[i]? = some x)
    {authorization bearer : Option JwtPayload} {endpoint : EscrowEndpoint} (hst : x.stage = .ready authorization)
    (hreq : x.request = .escrow endpoint) : Straight { c with
      requests := c.requests ++ [⟨i, bearer, endpoint, none⟩]
      calls := c.calls.set i { x with stage := .sent c.requests.length } } where
  same r hr := by
    rcases List.mem_append.mp hr with hr | hr
    · obtain ⟨y, hy, hyr⟩ := h.same r hr
      have hsent : ({ x with stage := .sent c.requests.length } : ClientCall).request = x.request := rfl
      obtain ⟨y', hy', hyr'⟩ := request_of_set hx hsent hy
      exact ⟨y', hy', hyr'.trans hyr⟩
    · obtain rfl := List.mem_singleton.mp hr
      obtain ⟨hlt, -⟩ := List.getElem?_eq_some_iff.mp hx
      exact ⟨_, List.getElem?_set_self hlt, hreq⟩
  told j y hy := by
    rcases call_of_set hy with ⟨rfl, rfl⟩ | ⟨hne, hy⟩
    · have htold := h.told j x hx
      simp only [ClientCall.Told, hst] at htold
      exact ⟨⟨⟨j, bearer, endpoint, none⟩, by simp, rfl⟩, refusedBut_append htold _⟩
    · exact (h.told j y hy).answers (answers_append _ (Ne.symm hne))

theorem refusedBut_of_sent {x : ClientCall} {i k : Nat} {rs : List ApiRequest} {r : ApiRequest} (h : x.Told i rs)
    (hst : x.stage = .sent k) (hr : rs[k]? = some r) (hrefused : r.Refused) : RefusedBut none i rs := by
  simp only [ClientCall.Told, hst] at h
  intro m r' hr' hc _
  by_cases hm : m = k
  · subst hm
    cases hr.symm.trans hr'
    exact hrefused
  · exact h.2 m r' hr' hc fun he => hm (Option.some.inj he)

/-- A refused call has no request left that was not refused. -/
theorem Straight.refused (h : c.Straight) {i : Nat} {x : ClientCall} (hx : c.calls[i]? = some x) {e : AuthError}
    (he : c.reply? x = some (.error e)) : RefusedBut none i c.requests := by
  have htold := h.told i x hx
  unfold reply? at he
  cases hst : x.stage with
  | sent k =>
    simp only [hst] at he
    obtain ⟨r, hr, ha⟩ := Option.bind_eq_some_iff.mp he
    exact refusedBut_of_sent htold hst hr ⟨e, ha⟩
  | waiting n =>
    simp only [ClientCall.Told, hst] at htold
    exact htold.2
  | ready | refreshing | done | gone => simp only [hst] at he; cases he

theorem Straight.fulfilled (h : c.Straight) {i : Nat} {x : ClientCall} (hx : c.calls[i]? = some x)
    {tokens : Option TokenPair} (ha : c.reply? x = some (.ok tokens)) : (c.fulfil i x tokens).Straight := by
  have htold := h.told i x hx
  unfold reply? at ha
  cases hst : x.stage with
  | sent k =>
    simp only [hst] at ha
    simp only [ClientCall.Told, hst] at htold
    obtain ⟨⟨r', hr', hc⟩, hbut⟩ := htold
    obtain ⟨r, hr, ha⟩ := Option.bind_eq_some_iff.mp ha
    obtain rfl : r = r' := Option.some.inj (hr.symm.trans hr')
    exact h.move hx rfl rfl rfl ⟨⟨some k, hbut⟩, fun endpoint hreq => ⟨k, r, hr, hc, tokens, ha⟩⟩
  | waiting n =>
    simp only [ClientCall.Told, hst] at htold
    refine h.move hx rfl rfl rfl ⟨⟨none, htold.2⟩, fun endpoint hreq => ?_⟩
    have hauth := htold.1
    rw [show x.request = .escrow endpoint from hreq] at hauth
    cases hauth
  | ready | refreshing | done | gone => simp only [hst] at ha; cases ha

theorem Straight.turned (h : c.Straight) {i : Nat} {x : ClientCall} (hx : c.calls[i]? = some x)
    (ht : c.Turned i x c') : c'.Straight := by
  have htold := h.told i x hx
  cases ht with
  | idle => exact h
  | sent hst hreq => exact h.sent hx hst hreq
  | arrived hst hr =>
    simp only [ClientCall.Told, hst] at htold
    exact h.move hx rfl rfl rfl ⟨by rw [hr]; rfl, htold⟩
  | fulfilled ha => exact h.fulfilled hx ha
  | rejected he => exact h.move hx rfl rfl rfl (h.refused hx he)
  | signedOut he _ _ => exact h.move hx rfl rfl rfl (h.refused hx he)
  | redeemed he _ _ => exact h.move hx rfl rfl rfl (h.refused hx he)
  | renewed hst _ => exact h.move hx rfl rfl rfl (by simpa only [ClientCall.Told, hst] using htold)
  | failed hst _ _ => exact h.move hx rfl rfl rfl (by simpa only [ClientCall.Told, hst] using htold)

theorem Straight.lose (h : c.Straight) (i : Nat) : (c.lose i).Straight := by
  unfold Browser.lose
  cases hx : c.calls[i]? with
  | none => exact h
  | some x =>
    have htold := h.told i x hx
    simp only
    cases hst : x.stage with
    | sent | waiting => exact h.move hx rfl rfl rfl htold.refusedBut
    | refreshing => exact h.move hx rfl rfl rfl (by simpa only [ClientCall.Told, hst] using htold)
    | ready | done | gone => exact h

theorem Straight.leave (h : c.Straight) : c.leave.Straight where
  same r hr := by
    obtain ⟨x, hx, hreq⟩ := h.same r hr
    refine ⟨_, (List.getElem?_map ..).trans (congrArg (Option.map _) hx), ?_⟩
    dsimp only
    split <;> exact hreq
  told i y hy := by
    replace hy := (List.getElem?_map ..).symm.trans hy
    obtain ⟨x, hx, rfl⟩ := Option.map_eq_some_iff.mp hy
    have htold := h.told i x hx
    split
    · exact htold
    · exact htold.refusedBut

theorem Straight.serve (h : c.Straight) (k : Nat) : (c.serve cfg k).Straight := by
  unfold Browser.serve
  split
  · rename_i call bearer endpoint hr
    have hlt := (List.getElem?_eq_some_iff.mp hr).1
    simp only
    generalize c.desk.portal.respond cfg (.escrow bearer endpoint) = responded
    have hset (m : Nat) : (c.requests.set k ⟨call, bearer, endpoint, some responded.2⟩)[m]? =
        if k = m then some ⟨call, bearer, endpoint, some responded.2⟩ else c.requests[m]? := by
      by_cases hkm : k = m
      · subst hkm
        rw [if_pos rfl, List.getElem?_set_self hlt]
      · rw [if_neg hkm, List.getElem?_set_ne hkm]
    refine ⟨fun r' hr' => ?_, fun i x hx => (h.told i x hx).answers ⟨fun m r hm => ?_, fun m r' hm hc => ?_⟩⟩
    · rcases List.mem_or_eq_of_mem_set hr' with hr' | rfl
      · exact h.same r' hr'
      · have hsame := h.same _ (List.mem_of_getElem? hr)
        exact hsame
    · rw [hset]
      by_cases hkm : k = m
      · subst hkm
        cases hr.symm.trans hm
        exact ⟨_, if_pos rfl, rfl, .inr rfl⟩
      · exact ⟨r, by rw [if_neg hkm]; exact hm, rfl, .inl rfl⟩
    · rw [hset] at hm
      by_cases hkm : k = m
      · subst hkm
        rw [if_pos rfl] at hm
        cases hm
        exact ⟨_, hr, hc⟩
      · rw [if_neg hkm] at hm
        exact ⟨r', hm, hc⟩
  · exact h

theorem Straight.call (h : c.Straight) (request : ApiCall) :
    Straight { c with calls := c.calls ++ [⟨request, false, .ready none⟩] } where
  same r hr := by
    obtain ⟨x, hx, hreq⟩ := h.same r hr
    obtain ⟨hlt, -⟩ := List.getElem?_eq_some_iff.mp hx
    exact ⟨x, (List.getElem?_append_left hlt).trans hx, hreq⟩
  told i x hx := by
    replace hx := List.getElem?_append.symm.trans hx
    split at hx
    · exact h.told i x hx
    · rename_i hlt
      rw [List.getElem?_singleton] at hx
      split at hx
      · cases hx
        intro m r hr hc _
        obtain ⟨y, hy, -⟩ := h.same r (List.mem_of_getElem? hr)
        obtain ⟨hlt', -⟩ := List.getElem?_eq_some_iff.mp hy
        exact absurd (hc ▸ hlt') hlt
      · cases hx

theorem Straight.step (h : c.Straight) (a : BrowserAction) : (Browser.step cfg c a).Straight := by
  cases a with
  | call request => exact h.call request
  | turn i =>
    change (c.turn i).Straight
    cases hx : c.calls[i]? with
    | none => simp only [Browser.turn, hx]; exact h
    | some x => exact h.turned hx (turn_turned hx)
  | lose i => exact h.lose i
  | leave => exact h.leave
  | serve k => exact h.serve k
  | auth a => exact ⟨h.same, h.told⟩

/-- What the requests of call `i` have come to. -/
structure HandledOnce (c : Browser) (i : Nat) (x : ClientCall) : Prop where
  once : ∀ (k m : Nat) (r r' : ApiRequest), c.requests[k]? = some r → c.requests[m]? = some r' → r.call = i →
    r'.call = i → r.Handled → r'.Handled → k = m
  fulfilled : ∀ endpoint, x.request = .escrow endpoint → x.stage = .done (.ok ()) →
    ∃ r ∈ c.requests, r.call = i ∧ r.endpoint = endpoint ∧ r.Handled
  refused : ∀ e, x.stage = .done (.error (.answered e)) → ∀ r ∈ c.requests, r.call = i → ¬ r.Handled

/-- However the calls of the tab overlap and whatever gets lost, each is handled at most once, once if
it went well and not at all if an error came back. -/
theorem calls_handled_once (cfg : AuthConfig) (p : Portal) (as : List BrowserAction) (i : Nat) (x : ClientCall)
    (hx : (run (Browser.step cfg) (Browser.start p) as).calls[i]? = some x) :
    (run (Browser.step cfg) (Browser.start p) as).HandledOnce i x := by
  have hstart : (Browser.start p).Straight := ⟨List.forall_mem_nil _, fun _ _ h => by cases h⟩
  have h := run_inv Browser.Straight (fun c a h => (h.step a : (Browser.step cfg c a).Straight)) as
    hstart
  have htold := h.told i x hx
  refine ⟨fun k m r r' hr hr' hc hc' hh hh' => ?_, fun endpoint hreq hst => ?_, fun e hst r hr hc hh => ?_⟩
  · obtain ⟨b, hb⟩ := htold.refusedBut
    have hk : some k = b := by
      by_contra hne
      exact hh.not_refused (hb k r hr hc hne)
    have hm : some m = b := by
      by_contra hne
      exact hh'.not_refused (hb m r' hr' hc' hne)
    exact Option.some.inj (hk.trans hm.symm)
  · simp only [ClientCall.Told, hst] at htold
    obtain ⟨k, r, hr, hc, hh⟩ := htold.2 endpoint hreq
    obtain ⟨y, hy, hyr⟩ := h.same r (List.mem_of_getElem? hr)
    rw [hc, hx] at hy
    cases hy
    exact ⟨r, List.mem_of_getElem? hr, hc, (ApiCall.escrow.inj (hyr.symm.trans hreq)), hh⟩
  · simp only [ClientCall.Told, hst] at htold
    obtain ⟨k, hk⟩ := List.mem_iff_getElem?.mp hr
    exact hh.not_refused (htold k r hk hc nofun)

end Browser

/-! ## A sample run -/

def sampleSignIn : List BrowserAction :=
  [.call (.login ⟨"client@nexus.hub", "secret"⟩), .turn 0, .auth (.advance 0 ""), .auth (.advance 0 "first"), .turn 0]

/-- The access token has run out when the call comes before the guards. -/
def sampleRenewal : List BrowserAction :=
  [.auth (.wait 1000000000), .call (.escrow .list), .turn 1, .serve 0, .turn 1, .auth (.advance 1 ""),
    .auth (.advance 1 ""), .auth (.advance 1 "second"), .turn 1, .turn 1, .serve 1, .turn 1]

theorem sample_handled_once :
    ∃ x, (run (Browser.step sampleConfig) (Browser.start samplePortal)
        (sampleSignIn ++ sampleRenewal)).calls[1]? = some x ∧
      (run (Browser.step sampleConfig) (Browser.start samplePortal)
        (sampleSignIn ++ sampleRenewal)).HandledOnce 1 x := by
  obtain ⟨x, hx⟩ := Option.isSome_iff_exists.mp (show (run (Browser.step sampleConfig) (Browser.start samplePortal)
    (sampleSignIn ++ sampleRenewal)).calls[1]?.isSome by decide +kernel)
  exact ⟨x, hx, Browser.calls_handled_once sampleConfig samplePortal (sampleSignIn ++ sampleRenewal) 1 x hx⟩

end NexusHub
