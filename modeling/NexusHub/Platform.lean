import NexusHub.Api
import NexusHub.Ledger

/-!
# The platform

The database, the ledger with the contract on it, and the queues. A handler's
operations act on it one at a time; requests and the rest of the ledger's
traffic come in between.
-/

namespace NexusHub

structure Outbox where
  deliveries : List WebhookDelivery
  queue : List WebhookJob

/-- `jobs` are all jobs ever put on the escrow queue, `commits` the worker's
transactions that went through. -/
structure World where
  db : Db
  ledger : Ledger
  outbox : Outbox
  jobs : List Job
  commits : List DbTx

inductive EnvAction where
  | ledger (a : Action)
  | request (r : Request)

namespace World

def transact (w : World) (tx : DbTx) : World × Except WorkerError Unit :=
  match tx.apply w.db with
  | .ok db => ({ w with db, commits := w.commits ++ [tx] }, .ok ())
  | .error e => (w, .error (.database e))

/-- Simulated, signed, submitted and confirmed: the call takes effect or is rejected. -/
def submit (s : Stellar) (w : World) (method : String) (args : List ScVal) (signers : List Address) :
    World × Except WorkerError TxHash :=
  match dispatch method args with
  | some call =>
    match call.exec (w.ledger.env s.contract signers) w.ledger.host with
    | .ok h => ({ w with ledger := w.ledger.commit signers call h }, .ok w.ledger.history.length)
    | .error _ => (w, .error (.callFailed method))
  | none => (w, .error (.callFailed method))

def perform (s : Stellar) (w : World) : (o : Op) → World × Except WorkerError o.Res
  | .findEscrow id => (w, .ok (w.db.escrows.lookup id))
  | .findUser id => (w, .ok (w.db.users.lookup id))
  | .findEndpoints userId event =>
    (w, .ok (w.db.webhookEndpoints.filter fun e => e.userId = userId ∧ e.isActive ∧ event ∈ e.events))
  | .findSubscribers event => (w, .ok (w.db.webhookEndpoints.filter fun e => event ∈ e.events ∧ e.isActive))
  | .transact tx => w.transact tx
  | .createDelivery d =>
    ({ w with outbox := { w.outbox with deliveries := w.outbox.deliveries ++ [d] } },
      .ok w.outbox.deliveries.length)
  | .enqueueWebhook job => ({ w with outbox := { w.outbox with queue := w.outbox.queue ++ [job] } }, .ok ())
  | .submit method args signers => w.submit s method args signers
  | .simulateGetEscrow id =>
    (w, match NexusEscrow.getEscrow w.ledger.storage id with
      | .ok r => .ok r
      | .error _ => .error (.message "get_escrow simulation failed"))

/-- A rejected request changes nothing. -/
def request (w : World) (r : Request) : World :=
  match r.serve w.db with
  | .ok res =>
    { w with
      db := res.db, jobs := w.jobs ++ res.jobs
      outbox := { w.outbox with queue := w.outbox.queue ++ res.webhooks } }
  | .error _ => w

def env (s : Stellar) (w : World) : EnvAction → World
  | .ledger a => { w with ledger := w.ledger.step s.contract a }
  | .request r => w.request r

end World

def platform (s : Stellar) : Machine Op Op.Res WorkerError World EnvAction where
  perform := World.perform s
  env := World.env s

/-! ## A sample platform

The admin's key is 3, the client's 1 and the freelancer's 2. The client holds
1000 units of the token and a balance of 0.001, and nothing has happened yet. -/

def sampleId : Uuid := ⟨List.replicate 16 7, rfl⟩

def sampleOther : Uuid := ⟨List.replicate 16 8, rfl⟩

def sampleStellar : Stellar where
  contract := ⟨0⟩
  adminKey := ⟨3⟩
  adminPublicKey := "admin key"
  tokenContract := ⟨9⟩
  keypairOf := fun secret => if secret = "client secret" then some ⟨1⟩ else some ⟨2⟩
  sha256Hex := fun _ => ""

def sampleUsers : Store UserId User :=
  (((∅ : Store UserId User).insert "client" ⟨.client, some ⟨1⟩, some "client secret"⟩).insert "freelancer"
    ⟨.freelancer, some ⟨2⟩, some "freelancer secret"⟩).insert "admin" ⟨.admin, none, none⟩

def sampleWorld : World where
  db := {
    users := sampleUsers
    balances := (((∅ : Store UserId Balance).insert "client" ⟨1000, 0, 0⟩).insert "freelancer" ⟨0, 0, 0⟩).insert
      "admin" ⟨0, 0, 0⟩
    escrows := ∅
    transactions := ∅
    disputes := ∅
    auditLogs := []
    webhookEndpoints := [] }
  ledger := run (Ledger.step ⟨0⟩) (Ledger.genesis sampleBalances) (sampleActions.take 1)
  outbox := ⟨[], []⟩
  jobs := []
  commits := []

def sampleDto : CreateEscrowDto where
  freelancerId := "freelancer"
  amount := 1 / 10000
  description := ""
  milestoneHash := none
  milestonesTotal := none
  expiryLedger := none
  amount_pos := by norm_num
  milestones_le := nofun

theorem sampleWorld_reachable : sampleWorld.ledger.Reachable sampleStellar.contract :=
  ⟨sampleBalances, sampleActions.take 1, fun T => by simp [sampleBalances, sampleStellar], rfl⟩

end NexusHub
