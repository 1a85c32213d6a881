import Mathlib.Tactic.Positivity
import NexusHub.Spec
import NexusHub.Trace

/-!
# The ledger around the contract

A ledger run interleaves calls to the contract with transfers made outside it
and with the passing of ledgers. A failed call changes nothing. The history
keeps a receipt of every successful call and of every outside transfer.
-/

namespace NexusHub

structure Receipt where
  call : Call
  signers : List Address
  sequence : Nat
  transfers : List Transfer
  events : List Event

inductive Entry where
  | call (receipt : Receipt)
  | outside (t : Transfer)

structure Ledger where
  storage : Storage
  balances : Balances
  sequence : Nat
  history : List Entry

inductive Action where
  | advance (ledgers : Nat)
  | outside (t : Transfer)
  | invoke (signers : List Address) (call : Call)

namespace Ledger

def host (l : Ledger) : Host := ⟨l.storage, l.balances, [], []⟩

def env (self : Address) (l : Ledger) (signers : List Address) : Env := ⟨self, l.sequence, signers⟩

@[simp] theorem env_contract (self : Address) (l : Ledger) (ss : List Address) :
    (l.env self ss).contract = self := rfl

@[simp] theorem env_sequence (self : Address) (l : Ledger) (ss : List Address) :
    (l.env self ss).sequence = l.sequence := rfl

@[simp] theorem env_signers (self : Address) (l : Ledger) (ss : List Address) :
    (l.env self ss).signers = ss := rfl

def commit (l : Ledger) (signers : List Address) (call : Call) (h : Host) : Ledger where
  storage := h.storage
  balances := h.balances
  sequence := l.sequence
  history := l.history ++ [.call ⟨call, signers, l.sequence, h.transfers, h.events⟩]

/-- An outside transfer never debits the contract `self`. -/
def outside (self : Address) (l : Ledger) (t : Transfer) : Ledger :=
  if t.src = self ∨ t.amount < 0 ∨ l.balances t.token t.src < t.amount then l
  else { l with balances := l.balances.move t, history := l.history ++ [.outside t] }

def invoke (self : Address) (l : Ledger) (signers : List Address) (call : Call) : Ledger :=
  match call.exec (l.env self signers) l.host with
  | .ok h => l.commit signers call h
  | .error _ => l

def step (self : Address) (l : Ledger) : Action → Ledger
  | .advance n => { l with sequence := l.sequence + n }
  | .outside t => l.outside self t
  | .invoke signers call => l.invoke self signers call

def genesis (b : Balances) : Ledger where
  storage := ⟨none, none, none, ∅⟩
  balances := b
  sequence := 0
  history := []

/-- Any run of the contract, deployed with no token to its name. -/
def Reachable (self : Address) (l : Ledger) : Prop :=
  ∃ b as, (∀ T, b T self = 0) ∧ l = run (step self) (genesis b) as

theorem invoke_cases (self : Address) (l : Ledger) (signers : List Address) (call : Call) :
    (∃ h, call.exec (l.env self signers) l.host = .ok h ∧
      l.invoke self signers call = l.commit signers call h) ∨
      l.invoke self signers call = l := by
  unfold invoke
  cases h : call.exec (l.env self signers) l.host with
  | ok h' => exact .inl ⟨h', rfl, rfl⟩
  | error e => exact .inr rfl

theorem outside_cases (self : Address) (l : Ledger) (t : Transfer) :
    (t.src ≠ self ∧ 0 ≤ t.amount ∧ t.amount ≤ l.balances t.token t.src ∧
      l.outside self t = { l with balances := l.balances.move t, history := l.history ++ [.outside t] }) ∨
      l.outside self t = l := by
  unfold outside
  split
  · exact .inr rfl
  · rename_i h
    simp only [not_or, not_lt] at h
    exact .inl ⟨h.1, h.2.1, h.2.2, rfl⟩

theorem reachable_run {self : Address} {l : Ledger} (hl : Reachable self l) (as : List Action) :
    Reachable self (run (step self) l as) := by
  obtain ⟨b, as', hb, rfl⟩ := hl
  exact ⟨b, as' ++ as, hb, (run_append _ _ _ _).symm⟩

/-- An invariant of reachable ledgers: kept by ledgers passing, by outside
transfers and by successful calls. -/
theorem reachable_inv {self : Address} (I : Ledger → Prop)
    (h0 : ∀ b : Balances, (∀ T, b T self = 0) → I (genesis b))
    (hadv : ∀ l n, I l → I { l with sequence := l.sequence + n })
    (hout : ∀ l t, I l → t.src ≠ self → 0 ≤ t.amount → t.amount ≤ l.balances t.token t.src →
      I { l with balances := l.balances.move t, history := l.history ++ [.outside t] })
    (hcall : ∀ l signers call h, l.Reachable self → I l → call.exec (l.env self signers) l.host = .ok h →
      I (l.commit signers call h))
    {l : Ledger} (hl : Reachable self l) : I l := by
  suffices h : l.Reachable self ∧ I l from h.2
  obtain ⟨b, as, hb, rfl⟩ := hl
  refine run_inv (fun l : Ledger => l.Reachable self ∧ I l) ?_ as ⟨⟨b, [], hb, rfl⟩, h0 b hb⟩
  rintro l a ⟨hl, hi⟩
  refine ⟨reachable_run hl [a], ?_⟩
  cases a with
  | advance n => exact hadv l n hi
  | outside t =>
    rcases outside_cases self l t with ⟨h1, h2, h3, h4⟩ | h4
    · rw [step, h4]; exact hout l t hi h1 h2 h3
    · rw [step, h4]; exact hi
  | invoke signers call =>
    rcases invoke_cases self l signers call with ⟨h, hx, he⟩ | he
    · rw [step, he]; exact hcall l signers call h hl hi hx
    · rw [step, he]; exact hi

end Ledger

/-! ## Well-formed records -/

/-- The record as it was created: what no call changes. -/
def EscrowRecord.terms (r : EscrowRecord) : EscrowRecord :=
  { r with
    status := .pending, fundedLedger := 0, milestonesCompleted := 0, clientApproved := false
    freelancerApproved := false }

theorem EscrowRecord.get_of_terms {α : Type} {r r' : EscrowRecord} (ht : r'.terms = r.terms)
    (f : EscrowRecord → α) (hf : ∀ r, f r.terms = f r) : f r' = f r := by
  rw [← hf r', ht, hf r]

@[elab_as_elim] theorem EscrowRecord.of_terms {motive : EscrowRecord → Prop} {r r' : EscrowRecord}
    (ht : r'.terms = r.terms) (h : motive r) (hm : ∀ r, motive r.terms = motive r) : motive r' :=
  (get_of_terms ht motive hm).mpr h

theorem Call.change_terms (env : Env) (r : EscrowRecord) (call : Call) :
    (call.change env r).record.terms = r.terms := by
  cases call with
  | resolveDispute _ b => cases b <;> rfl
  | approveRelease _ a =>
    simp only [Call.change]
    split <;> rfl
  | _ => rfl

/-- The terms of a record stored under key `k`. -/
structure EscrowRecord.TermsOk (k : Bytes) (r : EscrowRecord) : Prop where
  keyed : r.escrowId = k
  amount_pos : 0 < r.amount
  amount_fits : FitsI128 r.amount
  fee_nonneg : 0 ≤ r.platformFee
  fee_cap : 10 * r.platformFee ≤ r.amount
  total_fits : r.milestonesTotal < 2 ^ 32
  deadline_ge : minDisputeDelay ≤ r.disputeDeadlineLedger

structure EscrowRecord.ProgressOk (r : EscrowRecord) : Prop where
  completed_le : r.milestonesCompleted ≤ r.milestonesTotal
  both_approved : r.clientApproved = true → r.freelancerApproved = true → r.status = .released
  not_approved : r.status = .pending ∨ r.status = .cancelled ∨ r.status = .disputed →
    r.clientApproved = false ∧ r.freelancerApproved = false
  not_begun : r.status = .pending ∨ r.status = .cancelled → r.fundedLedger = 0 ∧ r.milestonesCompleted = 0

structure EscrowRecord.Ok (k : Bytes) (r : EscrowRecord) : Prop extends r.TermsOk k, r.ProgressOk

theorem EscrowRecord.TermsOk.fee_lt {k : Bytes} {r : EscrowRecord} (h : r.TermsOk k) :
    r.platformFee < r.amount := by
  have := h.amount_pos; have := h.fee_nonneg; have := h.fee_cap; omega

theorem EscrowRecord.TermsOk.payout_fits {k : Bytes} {r : EscrowRecord} (h : r.TermsOk k) :
    FitsI128 (r.amount - r.platformFee) := by
  have := h.amount_pos; have := h.fee_nonneg; have := h.fee_cap; have := h.amount_fits
  unfold FitsI128 at *; omega

theorem EscrowRecord.TermsOk.of_terms {k : Bytes} {r r' : EscrowRecord} (h : r.TermsOk k)
    (ht : r'.terms = r.terms) : r'.TermsOk k := by
  obtain ⟨h1, h2, h3, h4, h5, h6, h7⟩ := h
  have hid := EscrowRecord.get_of_terms ht (·.escrowId) fun _ => rfl
  have ha := EscrowRecord.get_of_terms ht (·.amount) fun _ => rfl
  have hf := EscrowRecord.get_of_terms ht (·.platformFee) fun _ => rfl
  have hm := EscrowRecord.get_of_terms ht (·.milestonesTotal) fun _ => rfl
  have hd := EscrowRecord.get_of_terms ht (·.disputeDeadlineLedger) fun _ => rfl
  exact ⟨hid ▸ h1, ha ▸ h2, ha ▸ h3, hf ▸ h4, ha ▸ hf ▸ h5, hm ▸ h6, hd ▸ h7⟩

theorem EscrowRecord.ProgressOk.change {env : Env} {paused : Bool} {call : Call} {r : EscrowRecord}
    (h : r.ProgressOk) (ha : call.Admits env paused r) : (call.change env r).record.ProgressOk := by
  obtain ⟨h1, h2, h3, h4⟩ := h
  cases call with
  | initializeContract | setFee | setPaused | transferAdmin | initEscrow => exact ha.elim
  | resolveDispute _ b => cases b <;> constructor <;> simp_all [Call.change, Call.Admits]
  | approveRelease id a =>
    obtain ⟨-, hs, -, -⟩ := ha
    simp only [Call.change]
    split
    · constructor <;> simp_all
    · rename_i hb
      rcases hs with hs | hs <;> constructor <;> simp_all
  | refund => rcases ha.2.1 with (hs | hs) | hs <;> constructor <;> simp_all [Call.change]
  | claimExpired => rcases ha.1 with hs | hs <;> constructor <;> simp_all [Call.change]
  | completeMilestone =>
    obtain ⟨-, hs, -, hm⟩ := ha
    refine ⟨hm, h2, h3, fun hc => ?_⟩
    simp only [Call.change] at hc
    rcases hs with hs | hs <;> simp [hs] at hc
  | _ => constructor <;> simp_all [Call.change, Call.Admits, EscrowRecord.Open]

theorem fee_cap_of_bps {amount : Int} {bps : Nat} (ha : 0 < amount) (hb : bps ≤ maxFeeBps) :
    0 ≤ (amount * bps).tdiv 10000 ∧ 10 * (amount * bps).tdiv 10000 ≤ amount := by
  have hp : 0 ≤ amount * bps := by positivity
  have hle : amount * bps ≤ amount * 1000 := by
    have : (bps : Int) ≤ 1000 := by exact_mod_cast hb
    exact Int.mul_le_mul_of_nonneg_left this (le_of_lt ha)
  rw [Int.tdiv_eq_ediv_of_nonneg hp]
  omega

theorem Call.Creates.record_ok {env : Env} {s : Storage} {call : Call} {id : Bytes} {r : EscrowRecord}
    (hc : call.Creates env s id r) (hs : s.getFeeBps ≤ maxFeeBps) : r.Ok id := by
  have hf := fee_cap_of_bps hc.amount_pos hs
  rw [← hc.fee] at hf
  exact {
    keyed := hc.escrowId, amount_pos := hc.amount_pos, amount_fits := hc.amount_fits, fee_nonneg := hf.1
    fee_cap := hf.2, total_fits := hc.total_fits, completed_le := by rw [hc.no_milestone]; exact Nat.zero_le _
    deadline_ge := le_trans (Nat.le_add_left _ _) hc.deadline
    both_approved := fun h => by rw [hc.no_client_approval] at h; cases h
    not_approved := fun _ => ⟨hc.no_client_approval, hc.no_freelancer_approval⟩
    not_begun := fun _ => ⟨hc.unfunded, hc.no_milestone⟩ }

theorem EscrowRecord.Ok.change {env : Env} {paused : Bool} {call : Call} {k : Bytes} {r : EscrowRecord}
    (h : r.Ok k) (ha : call.Admits env paused r) : (call.change env r).record.Ok k where
  toTermsOk := h.toTermsOk.of_terms (call.change_terms env r)
  toProgressOk := h.toProgressOk.change ha

/-- Records well formed, fee rate capped. -/
structure Storage.Ok (s : Storage) : Prop where
  fee : s.getFeeBps ≤ maxFeeBps
  records : ∀ k r, s.escrows.lookup k = some r → r.Ok k

theorem Storage.Ok.of_config {h h' : Host} {env : Env} {call : Call} (hs : h.storage.Ok)
    (hx : call.exec env h = .ok h') (hn : call.escrowId? = none) : h'.storage.Ok := by
  cases call with
  | initializeContract admin bps =>
    obtain ⟨-, hb, -, rfl⟩ := initializeContract_ok.mp hx; exact ⟨hb, hs.records⟩
  | setFee bps => obtain ⟨_, -, -, hb, rfl⟩ := setFee_ok.mp hx; exact ⟨hb, hs.records⟩
  | setPaused b => obtain ⟨_, -, -, rfl⟩ := setPaused_ok.mp hx; exact ⟨hs.fee, hs.records⟩
  | transferAdmin a => obtain ⟨_, -, -, rfl⟩ := transferAdmin_ok.mp hx; exact ⟨hs.fee, hs.records⟩
  | _ => cases hn

theorem Storage.Ok.exec {h h' : Host} {env : Env} {call : Call} (hs : h.storage.Ok)
    (hx : call.exec env h = .ok h') : h'.storage.Ok := by
  rcases exec_cases hx with hc | ⟨id, r, hc, rfl⟩ | ⟨id, hid, r, hr, ha, -, -, rfl⟩
  · exact hs.of_config hx hc.named
  · have hr := hc.record_ok hs.fee
    exact ⟨hs.fee, Store.forall_insert (P := fun k r => EscrowRecord.Ok k r) (hc.escrowId ▸ hr) hs.records⟩
  · have hr' := (hs.records id r hr).change ha
    exact ⟨hs.fee, Store.forall_insert (P := fun k r => EscrowRecord.Ok k r) (hr'.keyed ▸ hr') hs.records⟩

theorem exec_changes {env : Env} {h h' : Host} {call : Call} {id : Bytes} {r : EscrowRecord} (hs : h.storage.Ok)
    (hid : call.escrowId? = some id) (hr : h.storage.escrows.lookup id = some r) (hx : call.exec env h = .ok h') :
    call.Admits env h.storage.isPaused r ∧ h'.storage.escrows.lookup id = some (call.change env r).record := by
  obtain ⟨ha, rfl⟩ := updates_of_exec hid hr hx
  have hkey := ((hs.records id r hr).change ha).keyed
  refine ⟨ha, ?_⟩
  simp only [Host.apply, Storage.saveEscrow, hkey, Finmap.lookup_insert]

theorem exec_lookup_ne {h h' : Host} {env : Env} {call : Call} {k : Bytes} (hs : h.storage.Ok)
    (hx : call.exec env h = .ok h') (hne : call.escrowId? ≠ some k) :
    h'.storage.escrows.lookup k = h.storage.escrows.lookup k := by
  rcases exec_cases hx with hc | ⟨id, r, hc, rfl⟩ | ⟨id, hid, r, hr, ha, -, -, rfl⟩
  · rw [hc.escrows]
  · have hk : k ≠ r.escrowId := fun hk => hne (by rw [hc.named, hk, hc.escrowId])
    exact Finmap.lookup_insert_of_ne _ hk
  · have hkey := ((hs.records id r hr).change ha).keyed
    have hk : k ≠ (call.change env r).record.escrowId := fun hk => hne (by rw [hid, hk, hkey])
    exact Finmap.lookup_insert_of_ne _ hk

theorem Ledger.Reachable.storage_ok {self : Address} {l : Ledger} (hl : l.Reachable self) : l.storage.Ok := by
  refine reachable_inv (fun l => l.storage.Ok) ?_ (fun _ _ h => h) (fun _ _ h _ _ _ => h)
    (fun l signers call h _ hi hx => hi.exec hx) hl
  intro b _
  exact ⟨show (100 : Nat) ≤ 1000 by decide, fun k r h => by cases h⟩

/-! ## One escrow of the ledger -/

def receiptsOf (id : Bytes) (history : List Entry) : List Receipt :=
  history.filterMap fun
    | .call rc => if rc.call.escrowId? = some id then some rc else none
    | .outside _ => none

theorem receiptsOf_append (id : Bytes) (es fs : List Entry) :
    receiptsOf id (es ++ fs) = receiptsOf id es ++ receiptsOf id fs := List.filterMap_append

@[simp] theorem receiptsOf_outside (id : Bytes) (t : Transfer) : receiptsOf id [.outside t] = [] := rfl

theorem receiptsOf_call {id : Bytes} {rc : Receipt} :
    receiptsOf id [.call rc] = if rc.call.escrowId? = some id then [rc] else [] := by
  unfold receiptsOf; split <;> simp_all

/-- The receipt a call leaves that made the change `c`. -/
def Env.receipt (env : Env) (call : Call) (c : Change) : Receipt :=
  ⟨call, env.signers, env.sequence, c.transfers, c.events⟩

/-- What an escrow looks like from outside: its record and its receipts. -/
structure View where
  record : Option EscrowRecord
  receipts : List Receipt

def Ledger.view (id : Bytes) (l : Ledger) : View := ⟨l.storage.escrows.lookup id, receiptsOf id l.history⟩

/-- One call moves the view of one escrow by creating or by updating it. -/
inductive View.Moves (self : Address) (id : Bytes) (l : Ledger) : View → View → Prop where
  | create {signers : List Address} {call : Call} {r : EscrowRecord} {rcs : List Receipt}
      (hc : call.Creates (l.env self signers) l.storage id r) (hr : r.Ok id) :
      Moves self id l ⟨none, rcs⟩ ⟨some r, rcs ++ [(l.env self signers).receipt call
        ⟨r, [], [.initialized id r.client r.freelancer r.amount]⟩]⟩
  | update {signers : List Address} {call : Call} {r : EscrowRecord} {rcs : List Receipt}
      (hid : call.escrowId? = some id) (hr : r.Ok id)
      (ha : call.Admits (l.env self signers) l.storage.isPaused r) :
      Moves self id l ⟨some r, rcs⟩ ⟨some (call.change (l.env self signers) r).record,
        rcs ++ [(l.env self signers).receipt call (call.change (l.env self signers) r)]⟩

namespace Ledger

variable {self : Address} {l : Ledger}

theorem view_commit (hs : l.storage.Ok) {signers : List Address} {call : Call} {h : Host}
    (hx : call.exec (l.env self signers) l.host = .ok h) (id : Bytes) :
    (l.commit signers call h).view id = l.view id ∨
      View.Moves self id l (l.view id) ((l.commit signers call h).view id) := by
  simp only [view, commit, receiptsOf_append, receiptsOf_call]
  rcases exec_cases hx with hc | ⟨k, r, hc, rfl⟩ | ⟨k, hk, r, hr, ha, -, -, rfl⟩
  · left; simp [hc.named, hc.escrows, host]
  · have hok := hc.record_ok hs.fee
    have hfresh : l.storage.escrows.lookup k = none := hc.fresh
    by_cases hid : k = id
    · subst hid; right
      simp only [hfresh, hc.named, Host.apply, host, Storage.saveEscrow, hok.keyed, Finmap.lookup_insert,
        ite_true, List.nil_append]
      exact .create hc hok
    · left
      have hne : id ≠ k := fun h => hid h.symm
      simp [hc.named, hid, Host.apply, host, Storage.saveEscrow, hok.keyed, Finmap.lookup_insert_of_ne _ hne]
  · have hok := hs.records k r hr
    have hkey := (hok.change ha).keyed
    by_cases hid : k = id
    · subst hid; right
      have hr' : l.storage.escrows.lookup k = some r := hr
      simp only [hr', hk, Host.apply, host, Storage.saveEscrow, hkey, Finmap.lookup_insert, ite_true,
        List.nil_append]
      exact .update hk hok ha
    · left
      have hne : id ≠ k := fun h => hid h.symm
      simp [hk, hid, Host.apply, host, Storage.saveEscrow, hkey, Finmap.lookup_insert_of_ne _ hne]

theorem view_step (self : Address) (hs : l.storage.Ok) (a : Action) (id : Bytes) :
    (step self l a).view id = l.view id ∨ View.Moves self id l (l.view id) ((step self l a).view id) := by
  cases a with
  | advance n => exact .inl rfl
  | outside t =>
    left
    rcases outside_cases self l t with ⟨-, -, -, h⟩ | h
    · simp [step, h, view, receiptsOf_append]
    · rw [step, h]
  | invoke signers call =>
    rcases invoke_cases self l signers call with ⟨h, hx, he⟩ | he
    · rw [step, he]; exact view_commit hs hx id
    · rw [step, he]; exact .inl rfl

theorem view_run {id : Bytes} (I : View → Prop)
    (hmove : ∀ l v v', l.Reachable self → View.Moves self id l v v' → I v → I v') (hl : l.Reachable self)
    (h : I (l.view id)) (as : List Action) : I ((run (step self) l as).view id) := by
  refine (run_inv (fun l : Ledger => l.Reachable self ∧ I (l.view id)) ?_ as ⟨hl, h⟩).2
  rintro l a ⟨hl, hi⟩
  refine ⟨reachable_run hl [a], ?_⟩
  rcases view_step self hl.storage_ok a id with h | h
  · rw [h]; exact hi
  · exact hmove l _ _ hl h hi

/-- What holds of an absent escrow and survives every move holds of each
escrow of every reachable ledger. -/
theorem view_inv {id : Bytes} (I : View → Prop) (h0 : I ⟨none, []⟩)
    (hmove : ∀ l v v', l.Reachable self → View.Moves self id l v v' → I v → I v') (hl : l.Reachable self) :
    I (l.view id) := by
  obtain ⟨b, as, hb, rfl⟩ := hl
  exact view_run I hmove ⟨b, [], hb, rfl⟩ h0 as

end Ledger

/-! ## A sample run

Admin 3 sets the contract 0 up; client 1 creates and funds an escrow for
freelancer 2, who can complete two milestones, in token 9. -/

def sampleBalances : Balances := fun T a => if T = ⟨9⟩ ∧ a = ⟨1⟩ then 1000 else 0

def sampleAmount : I128 := ⟨1000, by decide⟩

def sampleActions : List Action := [
  .invoke [⟨3⟩] (.initializeContract ⟨3⟩ 100),
  .invoke [⟨1⟩] (.initEscrow [7] ⟨1⟩ ⟨2⟩ ⟨9⟩ sampleAmount [] "" 0 2 0),
  .invoke [⟨1⟩] (.fund [7])]

def sampleLedger : Ledger := run (Ledger.step ⟨0⟩) (Ledger.genesis sampleBalances) sampleActions

def sampleRecord : EscrowRecord where
  escrowId := [7]
  client := ⟨1⟩
  freelancer := ⟨2⟩
  admin := ⟨3⟩
  token := ⟨9⟩
  amount := 1000
  platformFee := 10
  status := .funded
  milestoneHash := []
  disputeDeadlineLedger := 43200
  fundedLedger := 0
  milestonesTotal := 2
  milestonesCompleted := 0
  expiryLedger := 0
  clientApproved := false
  freelancerApproved := false
  description := ""

theorem sample_lookup : sampleLedger.storage.escrows.lookup [7] = some sampleRecord := by decide +kernel

theorem sample_reachable : sampleLedger.Reachable ⟨0⟩ :=
  ⟨sampleBalances, sampleActions, fun T => by simp [sampleBalances], rfl⟩

end NexusHub
