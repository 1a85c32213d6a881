import NexusHub.Platform

/-!
# Accounts and tokens

Registration, login, refresh and logout, and the guards in front of the escrow
controller. What the server draws for a request (ids, salts, refresh tokens)
comes with the request. Access tokens are the payloads they sign; only those
that the service has signed verify.
-/

namespace NexusHub

inductive UserStatus where
  | active | suspended | pendingVerification
  deriving DecidableEq, Repr

/-- The columns of a user that only the auth service reads. -/
structure Account where
  id : UserId
  email : String
  passwordHash : String
  firstName : String
  lastName : String
  status : UserStatus
  deriving DecidableEq

structure RefreshToken where
  userId : UserId
  expiresAt : Nat
  isRevoked : Bool
  deriving DecidableEq

/-- `iat` and `exp` are seconds. -/
structure JwtPayload where
  sub : UserId
  email : String
  role : UserRole
  iat : Nat
  exp : Nat
  deriving DecidableEq

structure TokenPair where
  accessToken : JwtPayload
  refreshToken : String
  deriving DecidableEq

structure AuthenticatedUser where
  id : UserId
  email : String
  role : UserRole
  status : UserStatus
  deriving DecidableEq

inductive AuthError where
  | badRequest (messages : List String)
  | unauthorized (message : String)
  | conflict (message : String)
  | internal
  | http (e : HttpError)
  deriving DecidableEq

/-- The libraries, and the lifetime of an access token in seconds. -/
structure AuthConfig where
  isEmail : String → Bool
  toLowerCase : String → String
  hash : (salt password : String) → String
  compare : (password hash : String) → Bool
  jwtExpiresIn : Nat

/-! ## What the validation pipe accepts -/

/-- `role` is absent, null or a text. -/
structure RegisterBody where
  email : String
  password : String
  firstName : String
  lastName : String
  role : Option (Option String)

/-- A null role passes the pipe as it is. -/
structure RegisterDto where
  email : String
  password : String
  firstName : String
  lastName : String
  role : Option UserRole

structure LoginDto where
  email : String
  password : String

def UserRole.ofText : String → Option UserRole
  | "ADMIN" => some .admin
  | "CLIENT" => some .client
  | "FREELANCER" => some .freelancer
  | "MARKETPLACE" => some .marketplace
  | _ => none

def emailErrors (cfg : AuthConfig) (email : String) : List String :=
  if cfg.isEmail email then [] else ["email must be an email"]

/-- The length that `@MinLength` checks: characters, without the variation selectors U+FE0E and U+FE0F. -/
def checkedLength (text : String) : Nat :=
  (text.toList.filter fun c => c.toNat ≠ 0xFE0E ∧ c.toNat ≠ 0xFE0F).length

namespace RegisterBody

variable (body : RegisterBody)

def passwordErrors : List String :=
  if 8 ≤ checkedLength body.password then [] else ["password must be longer than or equal to 8 characters"]

def userRole : Except String (Option UserRole) :=
  match body.role with
  | none => .ok (some .client)
  | some none => .ok none
  | some (some text) =>
    match UserRole.ofText text with
    | some role => .ok (some role)
    | none => .error "role must be one of the following values: ADMIN, CLIENT, FREELANCER, MARKETPLACE"

def validate (cfg : AuthConfig) : Except AuthError RegisterDto :=
  match emailErrors cfg body.email ++ body.passwordErrors, body.userRole with
  | [], .ok role => .ok ⟨body.email, body.password, body.firstName, body.lastName, role⟩
  | messages, .ok _ => .error (.badRequest messages)
  | messages, .error message => .error (.badRequest (messages ++ [message]))

end RegisterBody

def LoginDto.validate (cfg : AuthConfig) (dto : LoginDto) : Except AuthError LoginDto :=
  match emailErrors cfg dto.email with
  | [] => .ok dto
  | messages => .error (.badRequest messages)

/-! ## Tables -/

/-- The platform with the tables of the auth service, the access tokens signed
so far and the clock in milliseconds. Ids and emails of accounts are unique. -/
structure Portal where
  world : World
  accounts : List Account
  refreshTokens : Store String RefreshToken
  issued : List JwtPayload
  now : Nat

namespace Portal

variable (p : Portal)

def findByEmail (email : String) : Option (Account × User) := do
  let account ← p.accounts.find? (·.email = email)
  let user ← p.world.db.users.lookup account.id
  return (account, user)

def findById (id : UserId) : Option (Account × User) := do
  let account ← p.accounts.find? (·.id = id)
  let user ← p.world.db.users.lookup account.id
  return (account, user)

def createUser (account : Account) (role : UserRole) : Except DbError Portal :=
  if (∃ a ∈ p.accounts, a.id = account.id ∨ a.email = account.email) ∨
    (p.world.db.users.lookup account.id).isSome then .error .uniqueViolation
  else .ok { p with
    accounts := p.accounts ++ [account]
    world := { p.world with db := { p.world.db with users := p.world.db.users.insert account.id ⟨role, none, none⟩ } } }

def createBalance (userId : UserId) : Except DbError Portal :=
  if (p.world.db.balances.lookup userId).isSome then .error .uniqueViolation
  else if (p.world.db.users.lookup userId).isNone then .error .foreignKeyViolation
  else .ok { p with
    world :=
      { p.world with db := { p.world.db with balances := p.world.db.balances.insert userId ⟨0, 0, 0⟩ } } }

def createRefreshToken (token : String) (row : RefreshToken) : Except DbError Portal :=
  if (p.refreshTokens.lookup token).isSome then .error .uniqueViolation
  else if (p.world.db.users.lookup row.userId).isNone then .error .foreignKeyViolation
  else .ok { p with refreshTokens := p.refreshTokens.insert token row }

end Portal

/-! ## AuthService -/

namespace AuthService

variable (cfg : AuthConfig) (p : Portal)

def refreshLifetime : Nat := 30 * 24 * 60 * 60 * 1000

def payload (userId : UserId) (email : String) (role : UserRole) : JwtPayload where
  sub := userId
  email := email
  role := role
  iat := p.now / 1000
  exp := p.now / 1000 + cfg.jwtExpiresIn

/-- The access token is signed before the refresh token is stored. -/
def generateTokenPair (userId : UserId) (email : String) (role : UserRole) (refreshToken : String) :
    Portal × Except AuthError TokenPair :=
  let accessToken := payload cfg p userId email role
  let p := { p with issued := p.issued ++ [accessToken] }
  match p.createRefreshToken refreshToken ⟨userId, p.now + refreshLifetime, false⟩ with
  | .ok p => (p, .ok ⟨accessToken, refreshToken⟩)
  | .error _ => (p, .error .internal)

/-- The address is looked up as it was sent and stored in lower case. -/
def newUser (dto : RegisterDto) (role : UserRole) (id : UserId) (salt : String) : Except DbError Portal := do
  let p ← p.createUser ⟨id, cfg.toLowerCase dto.email, cfg.hash salt dto.password, dto.firstName, dto.lastName,
    .pendingVerification⟩ role
  p.createBalance id

def register (dto : RegisterDto) (id : UserId) (salt refreshToken : String) :
    Portal × Except AuthError TokenPair :=
  if (p.findByEmail dto.email).isSome then (p, .error (.conflict "Email already registered"))
  else match dto.role with
    -- the client library refuses a null in a mandatory column
    | none => (p, .error .internal)
    | some role =>
      match newUser cfg p dto role id salt with
      | .ok p => generateTokenPair cfg p id (cfg.toLowerCase dto.email) role refreshToken
      | .error _ => (p, .error .internal)

def login (dto : LoginDto) (refreshToken : String) : Portal × Except AuthError TokenPair :=
  match p.findByEmail (cfg.toLowerCase dto.email) with
  | none => (p, .error (.unauthorized "Invalid credentials"))
  | some (account, user) =>
    if ¬ cfg.compare dto.password account.passwordHash then (p, .error (.unauthorized "Invalid credentials"))
    else if account.status = .suspended then (p, .error (.unauthorized "Account suspended. Contact support."))
    else generateTokenPair cfg p account.id account.email user.role refreshToken

/-- The old token is revoked before the new pair is made. -/
def refresh (token refreshToken : String) : Portal × Except AuthError TokenPair :=
  match p.refreshTokens.lookup token with
  | none => (p, .error (.unauthorized "Invalid or expired refresh token"))
  | some stored =>
    if stored.isRevoked ∨ stored.expiresAt < p.now then
      (p, .error (.unauthorized "Invalid or expired refresh token"))
    else
      let p := { p with refreshTokens := p.refreshTokens.insert token { stored with isRevoked := true } }
      match p.findById stored.userId with
      | none => (p, .error .internal)
      | some (account, user) => generateTokenPair cfg p account.id account.email user.role refreshToken

def logout (token : String) : Portal :=
  match p.refreshTokens.lookup token with
  | none => p
  | some stored => { p with refreshTokens := p.refreshTokens.insert token { stored with isRevoked := true } }

def validateUser (payload : JwtPayload) : Option AuthenticatedUser :=
  match p.findById payload.sub with
  | none => none
  | some (account, user) =>
    if account.status = .suspended then none else some ⟨account.id, account.email, user.role, account.status⟩

end AuthService

/-! ## The escrow controller -/

inductive EscrowEndpoint where
  | create (dto : CreateEscrowDto) (idempotencyKey : String) (escrowId : Uuid)
  | list
  | getOne (escrowId : Uuid)
  | getMilestones (escrowId : Uuid)
  | release (escrowId : Uuid)
  | approveRelease (escrowId : Uuid)
  | completeMilestone (escrowId : Uuid)
  | claimExpired (escrowId : Uuid)
  | refund (escrowId : Uuid) (reason : String)
  | transferAdmin (escrowId : Uuid) (secretOf : String → String)

def EscrowEndpoint.requiredRole : EscrowEndpoint → Option UserRole
  | create .. | release _ => some .client
  | completeMilestone _ => some .freelancer
  | refund .. | transferAdmin .. => some .admin
  | list | getOne _ | getMilestones _ | approveRelease _ | claimExpired _ => none

def fromHttp {α : Type} (x : Except HttpError α) : Except AuthError α :=
  match x with
  | .ok a => .ok a
  | .error e => .error (.http e)

namespace Portal

variable (p : Portal)

/-- `JwtAuthGuard` and `JwtStrategy`: the role comes from the database. -/
def jwtAuthGuard (bearer : Option JwtPayload) : Except AuthError AuthenticatedUser :=
  match bearer with
  | none => .error (.unauthorized "Unauthorized")
  | some token =>
    if token ∈ p.issued ∧ p.now / 1000 < token.exp then
      match AuthService.validateUser p token with
      | some user => .ok user
      | none => .error (.unauthorized "Token invalid or user inactive")
    else .error (.unauthorized "Unauthorized")

def guard (bearer : Option JwtPayload) (endpoint : EscrowEndpoint) : Except AuthError AuthenticatedUser := do
  let user ← p.jwtAuthGuard bearer
  fromHttp (checkRole endpoint.requiredRole user.role)
  return user

/-- What the endpoint does for a user who has passed the guards; the reads change nothing. -/
def invoke (userId : UserId) : EscrowEndpoint → World
  | .create dto key escrowId =>
    -- an empty header counts as missing
    if key = "" then p.world else p.world.request (.createEscrow userId dto key escrowId)
  | .release escrowId => p.world.request (.releaseEscrow userId escrowId)
  | .approveRelease escrowId => p.world.request (.approveRelease userId escrowId)
  | .completeMilestone escrowId => p.world.request (.completeMilestone userId escrowId)
  | .claimExpired escrowId => p.world.request (.claimExpired userId escrowId)
  | .refund escrowId reason =>
    if reason.length < 10 then p.world else p.world.request (.refundEscrow userId escrowId reason)
  | .transferAdmin escrowId secretOf =>
    match EscrowService.transferAdmin p.world.db userId escrowId secretOf with
    | .ok res => { p.world with db := res.db }
    | .error _ => p.world
  | .list | .getOne _ | .getMilestones _ => p.world

end Portal

/-! ## Requests -/

inductive HttpRequest where
  | register (body : RegisterBody) (id : UserId) (salt refreshToken : String)
  | login (dto : LoginDto) (refreshToken : String)
  | refresh (token refreshToken : String)
  | logout (token : String)
  | escrow (bearer : Option JwtPayload) (endpoint : EscrowEndpoint)

def withTokens (x : Portal × Except AuthError TokenPair) : Portal × Except AuthError (Option TokenPair) :=
  (x.1, x.2.map some)

/-- The new state, and the tokens in the answer. -/
def Portal.respond (cfg : AuthConfig) (p : Portal) : HttpRequest → Portal × Except AuthError (Option TokenPair)
  | .register body id salt refreshToken =>
    match body.validate cfg with
    | .ok dto => withTokens (AuthService.register cfg p dto id salt refreshToken)
    | .error e => (p, .error e)
  | .login dto refreshToken =>
    match dto.validate cfg with
    | .ok dto => withTokens (AuthService.login cfg p dto refreshToken)
    | .error e => (p, .error e)
  | .refresh token refreshToken => withTokens (AuthService.refresh cfg p token refreshToken)
  | .logout token => (AuthService.logout p token, .ok none)
  | .escrow bearer endpoint =>
    match p.guard bearer endpoint with
    | .ok user => ({ p with world := p.invoke user.id endpoint }, .ok none)
    | .error e => (p, .error e)

end NexusHub
