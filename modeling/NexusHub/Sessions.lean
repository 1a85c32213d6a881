import NexusHub.Writes

/-!
# Requests in several steps

`createEscrow` is one transaction of several statements, with a check before it
and a job queued from inside it; a dispute is read in one step and written in
another. Between the steps anything may happen. A statement waits for a balance
row or a unique key that another open transaction has written, and what it
writes shows at the commit.
-/

namespace NexusHub

/-! ## createEscrow -/

/-- How far a request has come; from `locked` to `enqueued` its transaction holds what it wrote. -/
inductive Stage where
  | begun
  | checked
  | balanceRead (version : Nat)
  | locked
  | rowInserted
  | keyInserted
  | enqueued
  | committed
  | ended
  deriving DecidableEq

def Stage.HoldsBalance (st : Stage) : Prop := st = locked ∨ st = rowInserted ∨ st = keyInserted ∨ st = enqueued

def Stage.HoldsKey (st : Stage) : Prop := st = keyInserted ∨ st = enqueued

def Stage.Closed (st : Stage) : Prop := st = committed ∨ st = ended

instance (st : Stage) : Decidable st.HoldsBalance := inferInstanceAs (Decidable (_ ∨ _))

instance (st : Stage) : Decidable st.HoldsKey := inferInstanceAs (Decidable (_ ∨ _))

instance (st : Stage) : Decidable st.Closed := inferInstanceAs (Decidable (_ ∨ _))

structure Session where
  clientId : UserId
  dto : CreateEscrowDto
  idempotencyKey : String
  escrowId : Uuid
  stage : Stage

/-- The reads of the transaction and the checks made on them. -/
def EscrowService.readBalance (db : Db) (clientId : UserId) (dto : CreateEscrowDto) :
    Except HttpError Balance := do
  let freelancer ← orFail (db.users.lookup dto.freelancerId) (.notFound "Freelancer not found")
  throwIf (freelancer.role ≠ .freelancer) (.badRequest "Target user is not a freelancer")
  throwIf (freelancer.stellarPublicKey.isNone) (.badRequest "Freelancer has no Stellar address on file")
  let insufficient := .badRequest "Insufficient balance. Please top up first."
  let balance ← orFail (db.balances.lookup clientId) insufficient
  throwIf (balance.availableAmount < totalDebitOf dto.amount * 10 ^ 6) insufficient
  return balance

namespace Session

variable (x : Session)

def row : Escrow := EscrowService.newEscrow x.clientId x.dto

def transaction : Transaction := EscrowService.lockTransaction x.clientId x.dto x.escrowId

def auditLog : AuditLog := ⟨some x.clientId, "ESCROW_CREATED", x.escrowId.text⟩

def job : Job := .fundEscrow x.escrowId x.clientId (EscrowService.stroopsOf x.dto.amount)

/-- The statements of the transaction, as the commit shows them. -/
def apply (db : Db) : Except DbError Db := do
  let db ← EscrowService.lockFunds db x.clientId x.dto.amount
  let db ← db.createEscrow x.escrowId x.row
  let db ← db.createTransaction x.idempotencyKey x.transaction
  db.createAuditLog x.auditLog

end Session

/-! ## Disputes -/

/-- A dispute transaction whose guards have been passed. -/
inductive DisputeWrite where
  | opening (userId : UserId) (escrowId : Uuid) (disputeId : String)
  | verdict (adminId : UserId) (disputeId : String) (escrowId : Uuid) (resolution : DisputeStatus)
  | review (disputeId : String)
  deriving DecidableEq

namespace DisputesService

def checkOpening (db : Db) (userId : UserId) (escrowId : Uuid) : Except HttpError Unit := do
  let denied := .notFound "Escrow not found or access denied"
  let escrow ← orFail (db.escrows.lookup escrowId) denied
  throwIf (escrow.clientId ≠ userId ∧ escrow.freelancerId ≠ userId) denied
  throwIf (¬ EscrowService.isOpen escrow)
    (.badRequest ("Cannot dispute escrow in status: " ++ escrow.status.text))
  throwIf (escrowId ∈ db.disputedEscrows) (.conflict "A dispute already exists for this escrow")

def checkResolution (db : Db) (disputeId : String) : Except HttpError Dispute := do
  let dispute ← orFail (db.disputes.lookup disputeId) (.notFound "Dispute not found")
  throwIf (dispute.status ≠ .opened ∧ dispute.status ≠ .underReview)
    (.badRequest "Dispute is not open for resolution")
  return dispute

def checkReview (db : Db) (disputeId : String) : Except HttpError Unit := do
  let dispute ← orFail (db.disputes.lookup disputeId) (.notFound "Dispute not found")
  throwIf (dispute.status ≠ .opened) (.badRequest "Dispute is not open")

end DisputesService

def Db.updateByVerdict (db : Db) (escrowId : Uuid) : DisputeStatus → Except DbError Db
  | .resolvedClient => db.updateEscrow escrowId fun e => { e with status := .refunded }
  | .resolvedFreelancer => db.updateEscrow escrowId fun e => { e with status := .released }
  | _ => .ok db

namespace DisputeWrite

def apply (db : Db) : DisputeWrite → Except DbError Db
  | opening userId escrowId disputeId => do
    let db ← db.createDispute disputeId ⟨escrowId, userId, .opened⟩
    db.updateEscrow escrowId fun e => { e with status := .disputed }
  | verdict adminId disputeId escrowId resolution => do
    let db ← db.updateDispute disputeId fun d => { d with status := resolution }
    let db ← db.updateByVerdict escrowId resolution
    db.createAuditLog ⟨some adminId, "RESOLVE_DISPUTE", disputeId⟩
  | review disputeId => db.updateDispute disputeId fun d => { d with status := .underReview }

def webhooks : DisputeWrite → List WebhookJob
  | opening userId escrowId disputeId =>
    [⟨none, none, none, .disputeOpened, .disputeOpened disputeId escrowId userId⟩]
  | verdict _ disputeId _ resolution =>
    [⟨none, none, none, .disputeResolved, .disputeResolved disputeId resolution⟩]
  | review _ => []

end DisputeWrite

def Request.guards (db : Db) (r : Request) : Except HttpError Unit := do
  let user ← orFail (db.users.lookup r.caller) (.forbidden "Access denied")
  checkRole r.requiredRole user.role

/-! ## The site -/

/-- The platform with the requests under way: sessions of `createEscrow`, past and
present, and the dispute transactions to come. -/
structure Site where
  world : World
  sessions : List Session
  writes : List DisputeWrite

inductive SiteAction where
  | ledger (a : Action)
  | request (r : Request)
  | advance (n : Nat)
  /-- A session fails; what it has queued stays queued. -/
  | abort (n : Nat)
  | write (n : Nat)
  | drop (n : Nat)

namespace Site

variable (c : Site)

def BalanceLocked (u : UserId) : Prop := ∃ x ∈ c.sessions, x.clientId = u ∧ x.stage.HoldsBalance

def KeyLocked (key : String) : Prop := ∃ x ∈ c.sessions, x.idempotencyKey = key ∧ x.stage.HoldsKey

instance (u : UserId) : Decidable (c.BalanceLocked u) := inferInstanceAs (Decidable (∃ x ∈ c.sessions, _))

instance (key : String) : Decidable (c.KeyLocked key) := inferInstanceAs (Decidable (∃ x ∈ c.sessions, _))

/-- A transaction of the worker waits for rows that a session holds, until it runs out of time. -/
def Blocks (tx : DbTx) : Prop := (∃ m ∈ tx.moves, c.BalanceLocked m.user) ∨ ∃ key ∈ tx.key, c.KeyLocked key

instance (tx : DbTx) : Decidable (c.Blocks tx) := inferInstanceAs (Decidable (_ ∨ _))

/-- Ids are generated and have not been in use. -/
def Fresh (id : Uuid) : Prop :=
  c.world.db.escrows.lookup id = none ∧ (∀ x ∈ c.sessions, x.escrowId ≠ id) ∧ ∀ j ∈ c.world.jobs,
    j.escrowId ≠ id

instance (id : Uuid) : Decidable (c.Fresh id) := inferInstanceAs (Decidable (_ ∧ _ ∧ _))

/-- Where the next statement of a session leaves the world and the session. -/
def next (x : Session) : World × Stage :=
  let w := c.world
  match x.stage with
  | .begun => (w, if (w.db.transactions.lookup x.idempotencyKey).isSome then .ended else .checked)
  | .checked =>
    match EscrowService.readBalance w.db x.clientId x.dto with
    | .ok b => (w, .balanceRead b.version)
    | .error _ => (w, .ended)
  | .balanceRead version =>
    if c.BalanceLocked x.clientId then (w, x.stage)
    else if (w.db.balances.lookup x.clientId).any fun b =>
        b.version = version ∧ (EscrowService.lockBalance x.dto.amount b).Storable then (w, .locked)
    else (w, .ended)
  | .locked =>
    match w.db.createEscrow x.escrowId x.row with
    | .ok _ => (w, .rowInserted)
    | .error _ => (w, .ended)
  | .rowInserted =>
    if c.KeyLocked x.idempotencyKey then (w, x.stage)
    else match w.db.createTransaction x.idempotencyKey x.transaction with
      | .ok _ => (w, .keyInserted)
      | .error _ => (w, .ended)
  | .keyInserted =>
    match w.db.createAuditLog x.auditLog with
    | .ok _ => ({ w with jobs := w.jobs ++ [x.job] }, .enqueued)
    | .error _ => (w, .ended)
  | .enqueued =>
    match x.apply w.db with
    | .ok db => ({ w with db }, .committed)
    | .error _ => (w, .ended)
  | .committed | .ended => (w, x.stage)

def put (n : Nat) (x : Session) (p : World × Stage) : Site :=
  { c with world := p.1, sessions := c.sessions.set n { x with stage := p.2 } }

def advance (n : Nat) : Site :=
  match c.sessions[n]? with
  | some x => c.put n x (c.next x)
  | none => c

def abort (n : Nat) : Site :=
  match c.sessions[n]? with
  | some x => if x.stage.Closed then c else c.put n x (c.world, .ended)
  | none => c

def write (n : Nat) : Site :=
  match c.writes[n]? with
  | some d =>
    match d.apply c.world.db with
    | .ok db =>
      { c with
        world := { c.world with
          db, outbox := { c.world.outbox with queue := c.world.outbox.queue ++ d.webhooks } }
        writes := c.writes.eraseIdx n }
    | .error _ => { c with writes := c.writes.eraseIdx n }
  | none => c

/-- What passes its guards goes on in steps of its own; the rest is done at once. -/
def request (r : Request) : Site :=
  match r.guards c.world.db with
  | .error _ => c
  | .ok _ =>
    match r with
    | .createEscrow clientId dto key id =>
      if c.Fresh id then { c with sessions := c.sessions ++ [⟨clientId, dto, key, id, .begun⟩] } else c
    | .openDispute userId id disputeId =>
      match DisputesService.checkOpening c.world.db userId id with
      | .ok _ => { c with writes := c.writes ++ [.opening userId id disputeId] }
      | .error _ => c
    | .resolveDispute adminId disputeId resolution =>
      match DisputesService.checkResolution c.world.db disputeId with
      | .ok d => { c with writes := c.writes ++ [.verdict adminId disputeId d.escrowId resolution] }
      | .error _ => c
    | .setUnderReview _ disputeId =>
      match DisputesService.checkReview c.world.db disputeId with
      | .ok _ => { c with writes := c.writes ++ [.review disputeId] }
      | .error _ => c
    | r => { c with world := c.world.request r }

def perform (s : Stellar) (o : Op) : Site × Except WorkerError o.Res :=
  match o with
  | .transact tx =>
    if c.Blocks tx then (c, .error .infrastructure)
    else ({ c with world := (c.world.perform s (.transact tx)).1 }, (c.world.perform s (.transact tx)).2)
  | o => ({ c with world := (c.world.perform s o).1 }, (c.world.perform s o).2)

def env (s : Stellar) : SiteAction → Site
  | .ledger a => { c with world := { c.world with ledger := c.world.ledger.step s.contract a } }
  | .request r => c.request r
  | .advance n => c.advance n
  | .abort n => c.abort n
  | .write n => c.write n
  | .drop n => { c with writes := c.writes.eraseIdx n }

end Site

def site (s : Stellar) : Machine Op Op.Res WorkerError Site SiteAction where
  perform c o := c.perform s o
  env c a := c.env s a

def Site.start (w : World) : Site := ⟨w, [], []⟩

abbrev Site.after (s : Stellar) (c : Site) (as : List (PoolAction Job SiteAction WorkerError)) :
    Pool Op Op.Res WorkerError Unit Site :=
  run (Pool.step (site s) (Worker.process s)) ⟨c, []⟩ as

/-! ## What a step does -/

section
variable {x : Session} {db db' : Db}

theorem readBalance_ok {clientId : UserId} {dto : CreateEscrowDto} {b : Balance} :
    EscrowService.readBalance db clientId dto = .ok b ↔
      (∃ f, db.users.lookup dto.freelancerId = some f ∧ f.role = .freelancer ∧ f.stellarPublicKey.isSome) ∧
        db.balances.lookup clientId = some b ∧
        EscrowService.totalDebitOf dto.amount * 10 ^ 6 ≤ b.availableAmount := by
  simp only [EscrowService.readBalance, except_bind_ok, throwIf_ok, orFail_ok, except_pure_ok,
    exists_const, not_not, not_lt]
  constructor
  · rintro ⟨f, hf, hrole, hkey, b, hb, hle, rfl⟩
    exact ⟨⟨f, hf, hrole, by simpa [Option.isSome_iff_ne_none] using hkey⟩, hb, hle⟩
  · rintro ⟨⟨f, hf, hrole, hkey⟩, hb, hle⟩
    exact ⟨f, hf, hrole, by simpa [Option.isSome_iff_ne_none] using hkey, b, hb, hle, rfl⟩

theorem Session.apply_ok : x.apply db = .ok db' ↔
    ∃ b, db.balances.lookup x.clientId = some b ∧ db.escrows.lookup x.escrowId = none ∧
      (db.users.lookup x.clientId).isSome ∧
      ((db.users.lookup x.dto.freelancerId).isSome ∧ x.row.Storable ∧
        (EscrowService.lockBalance x.dto.amount b).Storable) ∧
      db.transactions.lookup x.idempotencyKey = none ∧
      db' = { db with
        balances := db.balances.insert x.clientId (EscrowService.lockBalance x.dto.amount b)
        escrows := db.escrows.insert x.escrowId x.row
        transactions := db.transactions.insert x.idempotencyKey x.transaction
        auditLogs := db.auditLogs ++ [x.auditLog] } := by
  simp only [apply, except_bind_ok, lockFunds_ok, createEscrow_ok, createTransaction_ok, createAuditLog_ok]
  constructor
  · rintro ⟨_, ⟨b, hb, hfits, rfl⟩, _, ⟨hid, hc, ⟨hf, hrow⟩, rfl⟩, _, ⟨hk, -, rfl⟩, -, rfl⟩
    exact ⟨b, hb, hid, hc, ⟨hf, hrow, hfits⟩, hk, rfl⟩
  · rintro ⟨b, hb, hid, hc, ⟨hf, hrow, hfits⟩, hk, rfl⟩
    exact ⟨_, ⟨b, hb, hfits, rfl⟩, _, ⟨hid, hc, ⟨hf, hrow⟩, rfl⟩, _, ⟨hk, hc, rfl⟩,
      fun u hu => by cases hu; exact hc, rfl⟩

end

/-- What the next statement of a session may come to. -/
inductive Session.Moves (c : Site) (x : Session) : World → Stage → Prop where
  | checked (hx : x.stage = .begun) (hkey : c.world.db.transactions.lookup x.idempotencyKey = none) :
      Moves c x c.world .checked
  | balanceRead {b : Balance} (hx : x.stage = .checked) (hb : c.world.db.balances.lookup x.clientId = some b)
      (hle : EscrowService.totalDebitOf x.dto.amount * 10 ^ 6 ≤ b.availableAmount) :
      Moves c x c.world (.balanceRead b.version)
  | locked {version : Nat} {b : Balance} (hx : x.stage = .balanceRead version)
      (hfree : ¬ c.BalanceLocked x.clientId) (hb : c.world.db.balances.lookup x.clientId = some b)
        (hv : b.version = version) : Moves c x c.world .locked
  | rowInserted (hx : x.stage = .locked) : Moves c x c.world .rowInserted
  | keyInserted (hx : x.stage = .rowInserted) (hfree : ¬ c.KeyLocked x.idempotencyKey)
      (hkey : c.world.db.transactions.lookup x.idempotencyKey = none) : Moves c x c.world .keyInserted
  | enqueued (hx : x.stage = .keyInserted) : Moves c x { c.world with jobs := c.world.jobs ++ [x.job] }
      .enqueued
  | committed {db : Db} (hx : x.stage = .enqueued) (ha : x.apply c.world.db = .ok db) :
      Moves c x { c.world with db } .committed
  | ended (hx : ¬ x.stage.Closed) : Moves c x c.world .ended

theorem Site.next_cases (c : Site) (x : Session) :
    c.next x = (c.world, x.stage) ∨ x.Moves c (c.next x).1 (c.next x).2 := by
  have hended (hx : ¬ x.stage.Closed) : x.Moves c c.world .ended := .ended hx
  unfold next
  cases hx : x.stage with
  | begun =>
    right
    by_cases hk : (c.world.db.transactions.lookup x.idempotencyKey).isSome
    · simp only [hk, ite_true]
      exact hended (by simp [hx, Stage.Closed])
    · simp only [hk, Bool.false_eq_true, ite_false]
      exact .checked hx (by simpa using hk)
  | checked =>
    right
    simp only
    cases hb : EscrowService.readBalance c.world.db x.clientId x.dto with
    | ok b =>
      obtain ⟨-, hb, hle⟩ := readBalance_ok.mp hb
      exact .balanceRead hx hb hle
    | error e => exact hended (by simp [hx, Stage.Closed])
  | balanceRead version =>
    simp only
    by_cases hl : c.BalanceLocked x.clientId
    · simp [hl]
    · right
      simp only [hl, ite_false]
      by_cases hv : (c.world.db.balances.lookup x.clientId).any fun b =>
          b.version = version ∧ (EscrowService.lockBalance x.dto.amount b).Storable
      · simp only [hv, ite_true]
        rw [Option.any_eq_true] at hv
        obtain ⟨b, hb, hv⟩ := hv
        exact .locked hx hl hb (of_decide_eq_true hv).1
      · simp only [hv, Bool.false_eq_true, ite_false]
        exact hended (by simp [hx, Stage.Closed])
  | locked =>
    right
    simp only
    cases hc : c.world.db.createEscrow x.escrowId x.row with
    | ok db => exact .rowInserted hx
    | error e => exact hended (by simp [hx, Stage.Closed])
  | rowInserted =>
    simp only
    by_cases hl : c.KeyLocked x.idempotencyKey
    · simp [hl]
    · right
      simp only [hl, ite_false]
      cases hc : c.world.db.createTransaction x.idempotencyKey x.transaction with
      | ok db => exact .keyInserted hx hl (createTransaction_ok.mp hc).1
      | error e => exact hended (by simp [hx, Stage.Closed])
  | keyInserted =>
    right
    simp only
    cases hc : c.world.db.createAuditLog x.auditLog with
    | ok db => exact .enqueued hx
    | error e => exact hended (by simp [hx, Stage.Closed])
  | enqueued =>
    right
    simp only
    cases hc : x.apply c.world.db with
    | ok db => exact .committed hx hc
    | error e => exact hended (by simp [hx, Stage.Closed])
  | committed | ended => simp

def Request.Enqueues : Request → Prop
  | createEscrow .. | openDispute .. | resolveDispute .. | setUnderReview .. => False
  | _ => True

theorem World.request_enqueues {w : World} {r : Request} (hr : r.Enqueues) :
    w.request r = w ∨ ∃ j : Job, ¬ j.IsFund ∧ (w.request r).db = w.db ∧ (w.request r).ledger = w.ledger ∧
      (w.request r).jobs = w.jobs ++ [j] := by
  unfold World.request
  cases hs : r.serve w.db with
  | error e => exact .inl rfl
  | ok res =>
    obtain ⟨user, -, hserved⟩ := Request.served hs
    cases hserved with
    | queued hj _ _ => exact .inr ⟨_, Request.job_not_fund hj, rfl, rfl, rfl⟩
    | replayed | created | disputed | reviewed | resolved => exact hr.elim

/-- What a step outside the worker may do to the site. -/
inductive Site.Stepped (s : Stellar) (c : Site) : Site → Prop where
  | idle : Stepped s c c
  | ledger (a : Action) :
      Stepped s c { c with world := { c.world with ledger := c.world.ledger.step s.contract a } }
  | begun {x : Session} (hx : x.stage = .begun) (hfresh : c.Fresh x.escrowId) :
      Stepped s c { c with sessions := c.sessions ++ [x] }
  | asked {w : World} {j : Job} (hj : ¬ j.IsFund) (hdb : w.db = c.world.db) (hl : w.ledger = c.world.ledger)
      (hjobs : w.jobs = c.world.jobs ++ [j]) : Stepped s c { c with world := w }
  | guarded (d : DisputeWrite) : Stepped s c { c with writes := c.writes ++ [d] }
  | moved {n : Nat} {x : Session} {w : World} {st : Stage} (hx : c.sessions[n]? = some x)
      (hm : x.Moves c w st) : Stepped s c (c.put n x (w, st))
  | written {n : Nat} {d : DisputeWrite} {w : World} (hd : c.writes[n]? = some d)
      (ha : d.apply c.world.db = .ok w.db) (hl : w.ledger = c.world.ledger) (hj : w.jobs = c.world.jobs) :
      Stepped s c { c with world := w, writes := c.writes.eraseIdx n }
  | dropped (n : Nat) : Stepped s c { c with writes := c.writes.eraseIdx n }

namespace Site

variable (c : Site)

theorem put_self {n : Nat} {x : Session} (hx : c.sessions[n]? = some x) : c.put n x (c.world, x.stage) = c := by
  obtain ⟨h, rfl⟩ := List.getElem?_eq_some_iff.mp hx
  exact congrArg (fun xs => Site.mk c.world xs c.writes) (List.set_getElem_self h)

def Turns (c c' : Site) : Prop :=
  c' = c ∨ ∃ n x w st, c.sessions[n]? = some x ∧ x.Moves c w st ∧ c' = c.put n x (w, st)

theorem advance_turns (n : Nat) : c.Turns (c.advance n) := by
  unfold advance
  cases hx : c.sessions[n]? with
  | none => exact .inl rfl
  | some x =>
    rcases c.next_cases x with h | h
    · simp only [h, c.put_self hx]
      exact .inl rfl
    · exact .inr ⟨n, x, _, _, hx, h, rfl⟩

theorem abort_turns (n : Nat) : c.Turns (c.abort n) := by
  unfold abort
  cases hx : c.sessions[n]? with
  | none => exact .inl rfl
  | some x =>
    by_cases hc : x.stage.Closed
    · simp only [hc, ite_true]
      exact .inl rfl
    · simp only [hc, ite_false]
      exact .inr ⟨n, x, _, _, hx, .ended hc, rfl⟩

theorem Turns.stepped {c c' : Site} (h : c.Turns c') (s : Stellar) : c.Stepped s c' := by
  rcases h with rfl | ⟨n, x, w, st, hx, hm, rfl⟩
  · exact .idle
  · exact .moved hx hm

theorem write_stepped (s : Stellar) (n : Nat) : c.Stepped s (c.write n) := by
  unfold write
  cases hd : c.writes[n]? with
  | none => exact .idle
  | some d =>
    simp only
    cases ha : d.apply c.world.db with
    | ok db => exact .written hd ha rfl rfl
    | error e => exact .dropped n

theorem request_stepped (s : Stellar) (r : Request) : c.Stepped s (c.request r) := by
  have hasked (hr : r.Enqueues) : c.Stepped s { c with world := c.world.request r } := by
    rcases World.request_enqueues (w := c.world) hr with h | ⟨j, hj, hdb, hl, hjobs⟩
    · rw [h]; exact .idle
    · exact .asked hj hdb hl hjobs
  unfold request
  cases r.guards c.world.db with
  | error e => exact .idle
  | ok u =>
    cases r with
    | createEscrow clientId dto key id =>
      simp only
      split
      · rename_i hf; exact .begun rfl hf
      · exact .idle
    | openDispute userId id disputeId =>
      simp only
      split
      · exact .guarded _
      · exact .idle
    | resolveDispute adminId disputeId resolution =>
      simp only
      split
      · exact .guarded _
      · exact .idle
    | setUnderReview adminId disputeId =>
      simp only
      split
      · exact .guarded _
      · exact .idle
    | releaseEscrow | refundEscrow | approveRelease | completeMilestone | claimExpired =>
      exact hasked trivial

theorem request_db (r : Request) :
    (c.request r).world.db = c.world.db ∧ (c.request r).world.ledger = c.world.ledger := by
  have hasked (hr : r.Enqueues) :
      (c.world.request r).db = c.world.db ∧ (c.world.request r).ledger = c.world.ledger := by
    rcases World.request_enqueues (w := c.world) hr with h | ⟨_, -, hdb, hl, -⟩
    · rw [h]; exact ⟨rfl, rfl⟩
    · exact ⟨hdb, hl⟩
  unfold request
  cases r.guards c.world.db with
  | error e => exact ⟨rfl, rfl⟩
  | ok u =>
    cases r with
    | createEscrow | openDispute | resolveDispute | setUnderReview =>
      simp only
      split <;> exact ⟨rfl, rfl⟩
    | releaseEscrow | refundEscrow | approveRelease | completeMilestone | claimExpired =>
      exact hasked trivial

theorem env_stepped (s : Stellar) (a : SiteAction) : c.Stepped s (c.env s a) := by
  cases a with
  | ledger a => exact .ledger a
  | request r => exact c.request_stepped s r
  | advance n => exact (c.advance_turns n).stepped s
  | abort n => exact (c.abort_turns n).stepped s
  | write n => exact c.write_stepped s n
  | drop n => exact .dropped n

end Site

theorem put_sessions {c : Site} {n m : Nat} {x y : Session} {p : World × Stage} (hx : c.sessions[n]? = some x)
    (hy : (c.put n x p).sessions[m]? = some y) :
    m = n ∧ y = { x with stage := p.2 } ∨ m ≠ n ∧ c.sessions[m]? = some y := by
  obtain ⟨hlt, -⟩ := List.getElem?_eq_some_iff.mp hx
  simp only [Site.put, List.getElem?_set] at hy
  split at hy
  · rename_i h
    subst h
    cases hy
    exact .inl ⟨rfl, rfl⟩
  · rename_i h
    exact .inr ⟨fun he => h he.symm, hy⟩

/-! ## What the worker sees -/

theorem Site.perform_lifts (s : Stellar) (c : Site) (o : Op) :
    (((site s).perform c o).1.world = ((platform s).perform c.world o).1 ∧
      ((site s).perform c o).2 = ((platform s).perform c.world o).2) ∨
    ((site s).perform c o).1.world = c.world ∧ ∃ e, ((site s).perform c o).2 = .error e := by
  cases o with
  | transact tx =>
    simp only [site, Site.perform]
    split
    · exact .inr ⟨rfl, _, rfl⟩
    · exact .inl ⟨rfl, rfl⟩
  | findEscrow | findUser | findEndpoints | findSubscribers | createDelivery | enqueueWebhook | submit
  | simulateGetEscrow =>
    exact .inl ⟨rfl, rfl⟩

theorem Site.perform_cases (s : Stellar) (c : Site) (o : Op) :
    ((site s).perform c o).1 = { c with world := (c.world.perform s o).1 } ∨ ((site s).perform c o).1 = c := by
  cases o with
  | transact tx =>
    simp only [site, Site.perform]
    split
    · exact .inr rfl
    · exact .inl rfl
  | findEscrow | findUser | findEndpoints | findSubscribers | createDelivery | enqueueWebhook | submit
  | simulateGetEscrow =>
    exact .inl rfl

theorem site_safe {s : Stellar} {R : World → World → Prop} {ok : World → Op → Prop} {p : Handler Unit}
    {c : Site} (h : Prog.Safe (platform s) R ok p c.world) :
    Prog.Safe (site s) (fun c c' : Site => R c.world c'.world) (fun c o => ok c.world o) p c :=
  Prog.Safe.lift (π := Site.world) (Site.perform_lifts s) h

/-! ## Rows under a site -/

def DisputeWrite.sets : DisputeWrite → Option (Uuid × EscrowStatus)
  | opening _ id _ => some (id, .disputed)
  | verdict _ _ id resolution => resolution.verdict.map fun v => (id, v)
  | review _ => none

structure DisputeWrite.Applied (d : DisputeWrite) (db db' : Db) : Prop where
  set : ∀ id v, d.sets = some (id, v) →
    ∃ e, db.escrows.lookup id = some e ∧ db'.escrows = db.escrows.insert id { e with status := v }
  rest : d.sets = none → db'.escrows = db.escrows
  balances : db'.balances = db.balances
  transactions : db'.transactions = db.transactions

theorem DisputeWrite.apply_ok {d : DisputeWrite} {db db' : Db} (h : d.apply db = .ok db') :
    d.Applied db db' := by
  cases d with
  | opening userId id k =>
    simp only [apply, except_bind_ok, createDispute_ok, updateEscrow_ok] at h
    obtain ⟨_, ⟨-, -, rfl⟩, e, he, rfl⟩ := h
    exact ⟨fun id' v hs => by cases hs; exact ⟨e, he, rfl⟩, nofun, rfl, rfl⟩
  | review k =>
    obtain ⟨d, -, rfl⟩ := updateDispute_ok.mp h
    exact ⟨nofun, fun _ => rfl, rfl, rfl⟩
  | verdict adminId k id resolution =>
    simp only [apply, except_bind_ok, updateDispute_ok, createAuditLog_ok] at h
    obtain ⟨_, ⟨d, -, rfl⟩, db₁, hv, -, rfl⟩ := h
    cases resolution with
    | resolvedClient | resolvedFreelancer =>
      obtain ⟨e, he, rfl⟩ := updateEscrow_ok.mp hv
      exact ⟨fun id' v hs => by cases hs; exact ⟨e, he, rfl⟩, nofun, rfl, rfl⟩
    | opened | underReview | closed =>
      cases hv
      exact ⟨nofun, fun _ => rfl, rfl, rfl⟩

theorem DisputeWrite.Applied.rows {d : DisputeWrite} {db db' : Db} (h : d.Applied db db') :
    db.RowsKept db' := by
  cases hs : d.sets with
  | none => exact .of_eq (h.rest hs)
  | some p =>
    obtain ⟨e, he, hins⟩ := h.set p.1 p.2 hs
    exact .of_insert hins fun e' he' => by cases he.symm.trans he'; exact Escrow.kept_status _ _

theorem DisputeWrite.Applied.isSome {d : DisputeWrite} {db db' : Db} (h : d.Applied db db') {id : Uuid}
    (hr : (db'.escrows.lookup id).isSome) : (db.escrows.lookup id).isSome := by
  cases hs : d.sets with
  | none => rw [← h.rest hs]; exact hr
  | some p =>
    obtain ⟨e, he, hins⟩ := h.set p.1 p.2 hs
    rw [hins, Store.lookup_insert'] at hr
    split at hr
    · rename_i heq; rw [heq, he]; rfl
    · exact hr

theorem site_evolves {s : Stellar} {R : World → World → Prop} (hR : Prog.Evolves (platform s) R)
    (h : ∀ c c' : Site, c.Stepped s c' → R c.world c'.world) :
    Prog.Evolves (site s) fun c c' => R c.world c'.world where
  refl c := hR.refl _
  trans h h' := hR.trans h h'
  perform c o := by
    rcases Site.perform_cases s c o with hp | hp
    · rw [hp]; exact hR.perform _ _
    · rw [hp]; exact hR.refl _
  env c a := h _ _ (c.env_stepped s a)

theorem site_keeps (s : Stellar) : Prog.Evolves (site s) fun c c' => c.world.RowsKept c'.world := by
  refine site_evolves (platform_keeps s) fun c c' h => ?_
  cases h with
  | idle | ledger | begun | guarded | dropped => exact .of_eq rfl
  | asked _ hdb _ _ => exact .of_eq (by rw [hdb])
  | written _ ha _ _ => exact (DisputeWrite.apply_ok ha).rows
  | moved hx hm =>
    cases hm with
    | committed _ ha =>
      obtain ⟨b, -, hid, -, -, -, rfl⟩ := Session.apply_ok.mp ha
      exact Db.RowsKept.of_insert rfl fun e he => by rw [hid] at he; cases he
    | checked | balanceRead | locked | rowInserted | keyInserted | enqueued | ended => exact .of_eq rfl

/-! ## A request alone is done at once -/

theorem inTransaction_bind {α β : Type} (x : Except DbError α) (f : α → Except DbError β) :
    inTransaction (x >>= f) = inTransaction x >>= fun a => inTransaction (f a) := by
  cases x <;> rfl

namespace DisputesService

theorem openDispute_eq (db : Db) (userId : UserId) (id : Uuid) (k : String) : openDispute db userId id k = do
    checkOpening db userId id
    let db ← inTransaction ((DisputeWrite.opening userId id k).apply db)
    return ⟨db, [], (DisputeWrite.opening userId id k).webhooks⟩ := by
  simp only [openDispute, checkOpening, DisputeWrite.apply, inTransaction_bind, bind_assoc]
  rfl

theorem setUnderReview_eq (db : Db) (k : String) : setUnderReview db k = do
    checkReview db k
    let db ← inTransaction ((DisputeWrite.review k).apply db)
    return ⟨db, [], (DisputeWrite.review k).webhooks⟩ := by
  simp only [setUnderReview, checkReview, DisputeWrite.apply, bind_assoc]
  rfl

theorem resolveDispute_eq (db : Db) (adminId : UserId) (k : String) (resolution : DisputeStatus) :
    resolveDispute db adminId k resolution = do
      let d ← checkResolution db k
      let db ← inTransaction ((DisputeWrite.verdict adminId k d.escrowId resolution).apply db)
      return ⟨db, [], (DisputeWrite.verdict adminId k d.escrowId resolution).webhooks⟩ := by
  simp only [resolveDispute, checkResolution, DisputeWrite.apply, inTransaction_bind, bind_assoc, pure_bind]
  cases resolution <;> rfl

end DisputesService

theorem Request.serve_of_guards {db : Db} {r : Request} {u : Unit} (h : r.guards db = .ok u) :
    ∃ role, r.serve db = r.handle db role := by
  simp only [guards, except_bind_ok, orFail_ok] at h
  obtain ⟨user, hu, hrole⟩ := h
  refine ⟨user.role, ?_⟩
  simp only [serve, hu, orFail]
  change (checkRole r.requiredRole user.role >>= fun _ => r.handle db user.role) = _
  rw [hrole]; rfl

theorem Request.serve_of_not_guards {db : Db} {r : Request} {e : HttpError} (h : r.guards db = .error e) :
    r.serve db = .error e := by
  simp only [guards, serve] at h ⊢
  cases hu : orFail (db.users.lookup r.caller) (.forbidden "Access denied") with
  | error e' =>
    rw [hu] at h
    have h : (.error e' : Except HttpError Unit) = .error e := h
    cases h
    rfl
  | ok user =>
    rw [hu] at h
    change checkRole r.requiredRole user.role = .error e at h
    change (checkRole r.requiredRole user.role >>= fun _ => r.handle db user.role) = _
    rw [h]; rfl

namespace Site

variable {s : Stellar} {c : Site}

theorem world_request_ok {w : World} {r : Request} {res : Response} (h : r.serve w.db = .ok res) :
    w.request r = { w with
      db := res.db, jobs := w.jobs ++ res.jobs
      outbox := { w.outbox with queue := w.outbox.queue ++ res.webhooks } } := by
  simp [World.request, h]

theorem world_request_error {w : World} {r : Request} {e : HttpError} (h : r.serve w.db = .error e) :
    w.request r = w := by
  simp [World.request, h]

theorem write_none (hc : c.writes = []) : c.write 0 = c := by simp [write, hc]

theorem write_alone {r : Request} {d : DisputeWrite} (hc : c.writes = [])
    (hr : r.serve c.world.db = inTransaction (d.apply c.world.db) >>= fun db => pure ⟨db, [], d.webhooks⟩) :
    ({ c with writes := c.writes ++ [d] } : Site).write 0 = { c with world := c.world.request r } := by
  unfold write
  rw [hc]
  simp only [List.nil_append, List.getElem?_cons_zero]
  cases ha : d.apply c.world.db with
  | ok db =>
    rw [ha] at hr
    rw [world_request_ok hr]
    simp
  | error e =>
    rw [ha] at hr
    rw [world_request_error hr]
    simp

/-- A dispute transaction written right after its guards is the request served at once. -/
theorem dispute_alone {r : Request} (hr : (∃ u id k, r = .openDispute u id k) ∨ (∃ u k v, r = .resolveDispute u k v) ∨
    ∃ u k, r = .setUnderReview u k) (hc : c.writes = []) :
    (run (site s).env c [.request r, .write 0]).world = c.world.request r := by
  change ((c.request r).write 0).world = c.world.request r
  unfold request
  cases ha : r.guards c.world.db with
  | error e =>
    simp only
    rw [write_none hc, world_request_error (Request.serve_of_not_guards ha)]
  | ok u =>
    obtain ⟨role, hs⟩ := Request.serve_of_guards ha
    rcases hr with ⟨u, id, k, rfl⟩ | ⟨u, k, v, rfl⟩ | ⟨u, k, rfl⟩
    · have hs := hs.trans (DisputesService.openDispute_eq _ u id k)
      simp only
      cases hch : DisputesService.checkOpening c.world.db u id with
      | error e =>
        rw [hch] at hs
        rw [world_request_error hs, write_none hc]
      | ok _ =>
        rw [hch] at hs
        rw [write_alone hc hs]
    · have hs := hs.trans (DisputesService.resolveDispute_eq _ u k v)
      simp only
      cases hch : DisputesService.checkResolution c.world.db k with
      | error e =>
        rw [hch] at hs
        rw [world_request_error hs, write_none hc]
      | ok d =>
        rw [hch] at hs
        rw [write_alone hc hs]
    · have hs := hs.trans (DisputesService.setUnderReview_eq _ k)
      simp only
      cases hch : DisputesService.checkReview c.world.db k with
      | error e =>
        rw [hch] at hs
        rw [world_request_error hs, write_none hc]
      | ok _ =>
        rw [hch] at hs
        rw [write_alone hc hs]

/-! ### createEscrow -/

theorem createEscrow_eq (db : Db) (x : Session) :
    EscrowService.createEscrow db x.clientId x.dto x.idempotencyKey x.escrowId =
      if (db.transactions.lookup x.idempotencyKey).isSome then .ok ⟨db, [], []⟩
      else EscrowService.readBalance db x.clientId x.dto >>= fun _ => inTransaction (x.apply db) >>= fun db =>
        pure ⟨db, [x.job], []⟩ := by
  unfold EscrowService.createEscrow
  by_cases hk : (db.transactions.lookup x.idempotencyKey).isSome
  · rw [if_pos hk, if_pos hk]; rfl
  · rw [if_neg hk, if_neg hk]
    unfold EscrowService.readBalance
    simp only [bind_assoc, pure_bind]
    cases hb : db.balances.lookup x.clientId with
    | none => rfl
    | some b =>
      simp only [Session.apply, inTransaction_bind, bind_assoc]
      rfl

/-- The site with one more session, at `p.2`, in the world `p.1`. -/
def alone (c : Site) (x : Session) (p : World × Stage) : Site :=
  ⟨p.1, c.sessions ++ [{ x with stage := p.2 }], c.writes⟩

section
variable {x : Session} {p : World × Stage}

theorem alone_advance :
    (c.alone x p).advance c.sessions.length = c.alone x ((c.alone x p).next { x with stage := p.2 }) := by
  unfold advance
  have hx : (c.alone x p).sessions[c.sessions.length]? = some { x with stage := p.2 } := by simp [alone]
  rw [hx]
  simp [alone, put]

variable (hc : ∀ y ∈ c.sessions, y.stage.Closed)
include hc

theorem alone_not_balanceLocked (hp : ¬ p.2.HoldsBalance) (u : UserId) : ¬ (c.alone x p).BalanceLocked u := by
  rintro ⟨y, hy, -, hh⟩
  rcases List.mem_append.mp hy with hy | hy
  · rcases hc y hy with h | h <;> rw [h] at hh <;> simp [Stage.HoldsBalance] at hh
  · rw [List.mem_singleton.mp hy] at hh
    exact hp hh

theorem alone_not_keyLocked (hp : ¬ p.2.HoldsKey) (key : String) : ¬ (c.alone x p).KeyLocked key := by
  rintro ⟨y, hy, -, hh⟩
  rcases List.mem_append.mp hy with hy | hy
  · rcases hc y hy with h | h <;> rw [h] at hh <;> simp [Stage.HoldsKey] at hh
  · rw [List.mem_singleton.mp hy] at hh
    exact hp hh

/-- `n` statements of the last session. -/
def finish (c : Site) (x : Session) : Nat → World × Stage → World × Stage
  | 0, p => p
  | n + 1, p => finish c x n ((c.alone x p).next { x with stage := p.2 })

omit hc in
theorem run_alone (n : Nat) :
    run (site s).env (c.alone x p) (List.replicate n (.advance c.sessions.length)) = c.alone x
    (finish c x n p) := by
  induction n generalizing p with
  | zero => rfl
  | succ n ih =>
    rw [List.replicate_succ, run_cons]
    change run (site s).env ((c.alone x p).advance c.sessions.length) _ = _
    rw [alone_advance]
    exact ih

omit hc in
theorem finish_ended (n : Nat) (w : World) : finish c x n (w, .ended) = (w, .ended) := by
  induction n with
  | zero => rfl
  | succ n ih => exact ih

theorem finish_begun {role : UserRole}
    (hs : Request.serve c.world.db (.createEscrow x.clientId x.dto x.idempotencyKey x.escrowId) =
      Request.handle c.world.db role (.createEscrow x.clientId x.dto x.idempotencyKey x.escrowId)) :
    (finish c x 7 (c.world, .begun)).1 =
      c.world.request (.createEscrow x.clientId x.dto x.idempotencyKey x.escrowId) := by
  have hs := hs.trans (createEscrow_eq c.world.db x)
  by_cases hk : (c.world.db.transactions.lookup x.idempotencyKey).isSome
  · rw [if_pos hk] at hs
    have h1 : (c.alone x (c.world, .begun)).next { x with stage := .begun } = (c.world, .ended) := by
      simp [next, alone, hk]
    rw [finish, h1, finish_ended, world_request_ok hs]
    simp
  rw [if_neg hk] at hs
  have h1 : (c.alone x (c.world, .begun)).next { x with stage := .begun } = (c.world, .checked) := by
    simp [next, alone, hk]
  rw [finish, h1]
  cases hr : EscrowService.readBalance c.world.db x.clientId x.dto with
  | error e =>
    rw [hr] at hs
    have h2 : (c.alone x (c.world, .checked)).next { x with stage := .checked } = (c.world, .ended) := by
      simp [next, alone, hr]
    rw [finish, h2, finish_ended, world_request_error hs]
  | ok b =>
    rw [hr] at hs
    have hs : _ = inTransaction (x.apply c.world.db) >>= _ := hs
    obtain ⟨-, hb, -⟩ := readBalance_ok.mp hr
    have h2 : (c.alone x (c.world, .checked)).next { x with stage := .checked } = (c.world, .balanceRead b.version) := by
      simp [next, alone, hr]
    have hfail (n : Nat) (hn : ∀ db, x.apply c.world.db ≠ .ok db) :
        (finish c x n (c.world, .ended)).1 =
          c.world.request (.createEscrow x.clientId x.dto x.idempotencyKey x.escrowId) := by
      cases ha : x.apply c.world.db with
      | ok db => exact absurd ha (hn db)
      | error e =>
        rw [ha] at hs
        rw [finish_ended, world_request_error hs]
    have hl := alone_not_balanceLocked (x := x) (p := (c.world, .balanceRead b.version)) hc
      (by simp [Stage.HoldsBalance]) x.clientId
    by_cases hfits : (EscrowService.lockBalance x.dto.amount b).Storable
    case neg =>
      have h3 : (c.alone x (c.world, .balanceRead b.version)).next { x with stage := .balanceRead b.version } =
          (c.world, .ended) := by
        simp only [next, hl, ite_false]
        simp [alone, hb, hfits]
      rw [finish, h2, finish, h3]
      refine hfail 4 fun db ha => hfits ?_
      obtain ⟨b', hb', -, -, ⟨-, -, hfits'⟩, -⟩ := Session.apply_ok.mp ha
      cases hb.symm.trans hb'
      exact hfits'
    have h3 : (c.alone x (c.world, .balanceRead b.version)).next { x with stage := .balanceRead b.version } =
        (c.world, .locked) := by
      simp only [next, hl, ite_false]
      simp [alone, hb, hfits]
    rw [finish, h2, finish, h3]
    cases h4 : c.world.db.createEscrow x.escrowId x.row with
    | error e =>
      have hn : (c.alone x (c.world, .locked)).next { x with stage := .locked } = (c.world, .ended) := by
        change (match c.world.db.createEscrow x.escrowId x.row with | .ok _ => _ | .error _ => _) = _
        rw [h4]
        rfl
      rw [finish, hn]
      refine hfail 3 fun db ha => ?_
      obtain ⟨_, -, hid, hu, ⟨hf, hrow, -⟩, -⟩ := Session.apply_ok.mp ha
      rw [createEscrow_ok.mpr ⟨hid, hu, ⟨hf, hrow⟩, rfl⟩] at h4
      cases h4
    | ok db₁ =>
    have hn : (c.alone x (c.world, .locked)).next { x with stage := .locked } = (c.world, .rowInserted) := by
      change (match c.world.db.createEscrow x.escrowId x.row with | .ok _ => _ | .error _ => _) = _
      rw [h4]
      rfl
    rw [finish, hn]
    obtain ⟨hid, hu, ⟨hf, hrow⟩, -⟩ := createEscrow_ok.mp h4
    have hk : c.world.db.transactions.lookup x.idempotencyKey = none := by simpa using hk
    obtain ⟨db, hdb⟩ : ∃ db, x.apply c.world.db = .ok db :=
      ⟨_, Session.apply_ok.mpr ⟨b, hb, hid, hu, ⟨hf, hrow, hfits⟩, hk, rfl⟩⟩
    have h5 : (c.alone x (c.world, .rowInserted)).next { x with stage := .rowInserted } =
      (c.world, .keyInserted) := by
      have hl := alone_not_keyLocked (x := x) (p := (c.world, .rowInserted)) hc (by simp [Stage.HoldsKey])
        x.idempotencyKey
      simp only [next, hl, ite_false]
      change (match c.world.db.createTransaction x.idempotencyKey x.transaction with | .ok _ => _ | .error _ => _) = _
      rw [createTransaction_ok.mpr ⟨hk, hu, rfl⟩]
      rfl
    have h6 : (c.alone x (c.world, .keyInserted)).next { x with stage := .keyInserted } =
        ({ c.world with jobs := c.world.jobs ++ [x.job] }, .enqueued) := by
      change (match c.world.db.createAuditLog x.auditLog with | .ok _ => _ | .error _ => _) = _
      rw [createAuditLog_ok.mpr ⟨fun u h => by cases h; exact hu, rfl⟩]
      rfl
    have h7 : (c.alone x ({ c.world with jobs := c.world.jobs ++ [x.job] }, .enqueued)).next
        { x with stage := .enqueued } = ({ c.world with jobs := c.world.jobs ++ [x.job], db }, .committed) := by
      change (match x.apply c.world.db with | .ok _ => _ | .error _ => _) = _
      rw [hdb]
      rfl
    rw [finish, h5, finish, h6, finish, h7, finish]
    rw [hdb] at hs
    rw [world_request_ok hs]
    simp

/-- Where no other session is open, a `createEscrow` carried out statement by statement is the one done at once. -/
theorem createEscrow_alone {clientId : UserId} {dto : CreateEscrowDto} {key : String} {id : Uuid}
    (hid : c.Fresh id) : (run (site s).env c (.request (.createEscrow clientId dto key id) ::
      List.replicate 7 (.advance c.sessions.length))).world = c.world.request
      (.createEscrow clientId dto key id) := by
  rw [run_cons]
  change (run (site s).env (c.request _) _).world = _
  unfold request
  cases ha : Request.guards c.world.db (.createEscrow clientId dto key id) with
  | error e =>
    have hnone (n : Nat) : run (site s).env c (List.replicate n (.advance c.sessions.length)) = c := by
      induction n with
      | zero => rfl
      | succ n ih =>
        rw [List.replicate_succ, run_cons]
        have h0 : (site s).env c (.advance c.sessions.length) = c := by
          change c.advance _ = c
          simp [advance]
        rw [h0, ih]
    simp only
    rw [hnone, world_request_error (Request.serve_of_not_guards ha)]
  | ok u =>
    obtain ⟨role, hs⟩ := Request.serve_of_guards ha
    simp only [hid, ite_true]
    have hrun := run_alone (s := s) (c := c) (x := ⟨clientId, dto, key, id, .begun⟩) (p := (c.world, .begun)) 7
    change (run (site s).env (c.alone ⟨clientId, dto, key, id, .begun⟩ (c.world, .begun)) _).world = _
    rw [hrun]
    exact finish_begun (x := ⟨clientId, dto, key, id, .begun⟩) hc hs

end

end Site

end NexusHub
