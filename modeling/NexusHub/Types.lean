import NexusHub.Store

/-!
# Data of the NexusEscrow contract

The persistent storage of the contract, the error codes, the events and what
one call can read and write. Arguments come in the machine types of the source
(`i128`, `u32`); records hold them as integers, and every arithmetic operation
of the contract checks the width it is carried out in.
-/

namespace NexusHub

/-- An account or contract address; only equality of addresses matters. -/
structure Address where
  raw : Nat
  deriving DecidableEq, Repr

abbrev Bytes := List UInt8

def FitsI128 (x : Int) : Prop := -2 ^ 127 ≤ x ∧ x < 2 ^ 127

instance (x : Int) : Decidable (FitsI128 x) := inferInstanceAs (Decidable (_ ∧ _))

structure I128 where
  val : Int
  fits : FitsI128 val
  deriving DecidableEq, Repr

inductive EscrowStatus where
  | pending | funded | active | disputed | released | refunded | cancelled
  deriving DecidableEq, Repr

inductive EscrowError where
  | unauthorized | escrowNotFound | invalidStatus | transferFailed | invalidAmount | alreadyExists
  | disputeNotReady | feeTooHigh | milestoneHashMismatch | contractPaused | invalidMilestone
  | allMilestonesComplete | escrowNotExpired | invalidExpiry | invalidDelay
  deriving DecidableEq, Repr

/-- How a call fails: a returned error code, or a trap of the host (a missing
authorisation, a failed token transfer, an overflow). Both roll back. -/
inductive Failure where
  | error (e : EscrowError)
  | trap
  deriving DecidableEq, Repr

structure EscrowRecord where
  escrowId : Bytes
  client : Address
  freelancer : Address
  admin : Address
  token : Address
  amount : Int
  platformFee : Int
  status : EscrowStatus
  milestoneHash : Bytes
  disputeDeadlineLedger : Nat
  fundedLedger : Nat
  milestonesTotal : Nat
  milestonesCompleted : Nat
  expiryLedger : Nat
  clientApproved : Bool
  freelancerApproved : Bool
  description : String
  deriving DecidableEq, Repr

inductive Event where
  | initialized (escrowId : Bytes) (client freelancer : Address) (amount : Int)
  | funded (escrowId : Bytes) (client : Address) (amount : Int) (ledger : Nat)
  | activated (escrowId : Bytes) (ledger : Nat)
  | released (escrowId : Bytes) (freelancer : Address) (amount fee : Int)
  | refunded (escrowId : Bytes) (client : Address) (amount : Int)
  | disputed (escrowId : Bytes) (raisedBy : Address)
  | disputeResolved (escrowId : Bytes) (inFavourOf : Address)
  | cancelled (escrowId : Bytes)
  | milestoneCompleted (escrowId : Bytes) (completed total : Nat)
  | adminTransferred (oldAdmin newAdmin : Address)
  | approvalRecorded (escrowId : Bytes) (approver : Address) (clientApproved freelancerApproved : Bool)
  deriving DecidableEq, Repr

/-! ## Token balances -/

structure Transfer where
  token : Address
  src : Address
  dst : Address
  amount : Int
  deriving DecidableEq, Repr

abbrev Balances := Address → Address → Int

def Balances.move (b : Balances) (t : Transfer) : Balances := fun T a =>
  b T a - (if T = t.token ∧ a = t.src then t.amount else 0) + (if T = t.token ∧ a = t.dst then t.amount else 0)

/-! ## Storage -/

/-- The persistent entries under `DataKey`. -/
structure Storage where
  admin : Option Address
  feeBps : Option Nat
  paused : Option Bool
  escrows : Store Bytes EscrowRecord

namespace Storage

def setAdmin (s : Storage) (admin : Address) : Storage := { s with admin := some admin }

def getAdmin (s : Storage) : Except Failure Address :=
  match s.admin with
  | some a => .ok a
  | none => .error (.error .unauthorized)

def setFeeBps (s : Storage) (bps : Nat) : Storage := { s with feeBps := some bps }

def getFeeBps (s : Storage) : Nat := s.feeBps.getD 100

def setPaused (s : Storage) (paused : Bool) : Storage := { s with paused := some paused }

def isPaused (s : Storage) : Bool := s.paused.getD false

/-- The record is stored under its own `escrowId`. -/
def saveEscrow (s : Storage) (record : EscrowRecord) : Storage :=
  { s with escrows := s.escrows.insert record.escrowId record }

def loadEscrow (s : Storage) (escrowId : Bytes) : Except Failure EscrowRecord :=
  match s.escrows.lookup escrowId with
  | some r => .ok r
  | none => .error (.error .escrowNotFound)

def escrowExists (s : Storage) (escrowId : Bytes) : Bool := (s.escrows.lookup escrowId).isSome

end Storage

/-! ## The host as one call sees it -/

/-- `signers` are the addresses that authorised the invocation. -/
structure Env where
  contract : Address
  sequence : Nat
  signers : List Address

/-- What a call reads and writes; `transfers` and `events` are those of this call. -/
structure Host where
  storage : Storage
  balances : Balances
  transfers : List Transfer
  events : List Event

namespace Host

def saveEscrow (h : Host) (record : EscrowRecord) : Host := { h with storage := h.storage.saveEscrow record }

def emit (h : Host) (e : Event) : Host := { h with events := h.events ++ [e] }

end Host

end NexusHub
