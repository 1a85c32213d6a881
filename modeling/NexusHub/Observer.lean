import NexusHub.Evolution

/-!
# The event log determines the escrows

An observer who folds the emitted events of an escrow arrives at its stored state:
every call emits what it did to the record, in the order it did it.
-/

namespace NexusHub

/-! ## The observer -/

structure Observation where
  freelancer : Address
  status : EscrowStatus
  milestonesCompleted : Nat
  clientApproved : Bool
  freelancerApproved : Bool
  fundedLedger : Nat
  deriving DecidableEq, Repr

def EscrowRecord.observation (r : EscrowRecord) : Observation :=
  ⟨r.freelancer, r.status, r.milestonesCompleted, r.clientApproved, r.freelancerApproved, r.fundedLedger⟩

def Event.escrowId? : Event → Option Bytes
  | initialized id .. | funded id .. | activated id _ | released id .. | refunded id .. | disputed id _
  | disputeResolved id _ | cancelled id | milestoneCompleted id .. | approvalRecorded id .. => some id
  | adminTransferred .. => none

/-- A dispute clears the approvals; its resolution names who was favoured. -/
def Observation.learn (o : Observation) : Event → Observation
  | .initialized .. | .adminTransferred .. => o
  | .funded _ _ _ ledger => { o with status := .funded, fundedLedger := ledger }
  | .activated .. => { o with status := .active }
  | .released .. => { o with status := .released }
  | .refunded .. => { o with status := .refunded }
  | .disputed .. => { o with status := .disputed, clientApproved := false, freelancerApproved := false }
  | .disputeResolved _ inFavourOf =>
    if inFavourOf = o.freelancer then { o with status := .released } else { o with status := .refunded }
  | .cancelled _ => { o with status := .cancelled }
  | .milestoneCompleted _ completed _ => { o with milestonesCompleted := completed }
  | .approvalRecorded _ _ byClient byFreelancer =>
    { o with clientApproved := byClient, freelancerApproved := byFreelancer }

def observe (id : Bytes) (o : Option Observation) (e : Event) : Option Observation :=
  if e.escrowId? = some id then
    match e with
    | .initialized _ _ freelancer _ => some ⟨freelancer, .pending, 0, false, false, 0⟩
    | e => o.map (·.learn e)
  else o

def Entry.events : Entry → List Event
  | .call rc => rc.events
  | .outside _ => []

def Ledger.events (l : Ledger) : List Event := l.history.flatMap Entry.events

def Ledger.observed (id : Bytes) (l : Ledger) : Option Observation := l.events.foldl (observe id) none

/-- The amounts the event tells are those of the transfers of its call. -/
def Event.PaidBy (self : Address) (r : EscrowRecord) (ts : List Transfer) : Event → Prop
  | .funded _ client amount _ => ts = [⟨r.token, client, self, amount⟩]
  | .released _ freelancer amount fee =>
    ts = ⟨r.token, self, freelancer, amount⟩ :: if fee > 0 then [⟨r.token, self, r.admin, fee⟩] else []
  | .refunded _ client amount => ts = [⟨r.token, self, client, amount⟩]
  | _ => True

/-! ## One call -/

theorem observe_frame {id : Bytes} {es : List Event} (h : ∀ e ∈ es, e.escrowId? ≠ some id)
    (o : Option Observation) : es.foldl (observe id) o = o := by
  induction es generalizing o with
  | nil => rfl
  | cons e es ih =>
    have he : observe id o e = o := if_neg (h e (List.mem_cons_self ..))
    rw [List.foldl_cons, he]
    exact ih (fun e' he' => h e' (List.mem_cons_of_mem _ he')) o

theorem config_events {env : Env} {h h' : Host} {call : Call} (hx : call.exec env h = .ok h')
    (hn : call.escrowId? = none) (he : h.events = []) : ∀ e ∈ h'.events, e.escrowId? = none := by
  cases call with
  | initializeContract => obtain ⟨-, -, -, rfl⟩ := initializeContract_ok.mp hx; simp [he]
  | setFee => obtain ⟨_, -, -, -, rfl⟩ := setFee_ok.mp hx; simp [he]
  | setPaused => obtain ⟨_, -, -, rfl⟩ := setPaused_ok.mp hx; simp [he]
  | transferAdmin => obtain ⟨_, -, -, rfl⟩ := transferAdmin_ok.mp hx; simp [Host.emit, he, Event.escrowId?]
  | _ => cases hn

section
variable {env : Env} {paused : Bool} {r : EscrowRecord} {call : Call} {id : Bytes}

theorem change_events (hid : call.escrowId? = some id) (ha : call.Admits env paused r) :
    ∀ e ∈ (call.change env r).events, e.escrowId? = some id := by
  cases call with
  | initializeContract | setFee | setPaused | transferAdmin | initEscrow => exact ha.elim
  | resolveDispute _ toFreelancer =>
    obtain rfl := Option.some.inj hid
    cases toFreelancer <;> simp [Call.change, Event.escrowId?]
  | approveRelease _ approver =>
    obtain rfl := Option.some.inj hid
    simp only [Call.change]
    split <;> simp [Event.escrowId?, EscrowRecord.releasedEvent]
  | _ =>
    obtain rfl := Option.some.inj hid
    simp [Call.change, Event.escrowId?, EscrowRecord.releasedEvent]

theorem observe_change (hid : call.escrowId? = some id) (ha : call.Admits env paused r)
    (hne : r.client ≠ r.freelancer) :
    (call.change env r).events.foldl (observe id) (some r.observation) =
      some (call.change env r).record.observation := by
  cases call with
  | initializeContract | setFee | setPaused | transferAdmin | initEscrow => exact ha.elim
  | resolveDispute _ toFreelancer =>
    obtain rfl := Option.some.inj hid
    cases toFreelancer with
    | true => simp [Call.change, observe, Event.escrowId?, Observation.learn, EscrowRecord.observation]
    | false => simp [Call.change, observe, Event.escrowId?, Observation.learn, EscrowRecord.observation, hne]
  | approveRelease _ approver =>
    obtain rfl := Option.some.inj hid
    simp only [Call.change]
    split
    · simp [observe, Event.escrowId?, Observation.learn, EscrowRecord.observation, EscrowRecord.releasedEvent,
        EscrowRecord.approve]
    · simp [observe, Event.escrowId?, Observation.learn, EscrowRecord.observation, EscrowRecord.approve]
  | _ =>
    obtain rfl := Option.some.inj hid
    simp [Call.change, observe, Event.escrowId?, Observation.learn, EscrowRecord.observation,
      EscrowRecord.releasedEvent]

theorem change_paidBy (ha : call.Admits env paused r) :
    ∀ e ∈ (call.change env r).events, e.PaidBy env.contract r (call.change env r).transfers := by
  cases call with
  | initializeContract | setFee | setPaused | transferAdmin | initEscrow => exact ha.elim
  | resolveDispute _ toFreelancer => cases toFreelancer <;> simp [Call.change, Event.PaidBy]
  | approveRelease _ approver =>
    simp only [Call.change]
    split <;> simp [Event.PaidBy, EscrowRecord.releasedEvent, EscrowRecord.payout]
  | _ =>
    simp [Call.change, Event.PaidBy, EscrowRecord.releasedEvent, EscrowRecord.payout, EscrowRecord.deposit,
      EscrowRecord.repayment]

theorem Event.PaidBy.of_terms {self : Address} {r r' : EscrowRecord} {ts : List Transfer} {e : Event}
    (h : e.PaidBy self r ts) (ht : r'.terms = r.terms) : e.PaidBy self r' ts :=
  EscrowRecord.of_terms ht h fun _ => by cases e <;> rfl

end

/-! ## Every run -/

/-- What the observer knows agrees with the stored record. -/
structure Observed (o : Option Observation) (stored : Option EscrowRecord) : Prop where
  absent : stored = none → o = none
  same : ∀ r, stored = some r → r.client ≠ r.freelancer → o = some r.observation

namespace Ledger

variable {self : Address} {l : Ledger} {id : Bytes}

theorem events_commit {signers : List Address} {call : Call} {h : Host} :
    (l.commit signers call h).events = l.events ++ h.events := by
  simp [events, commit, Entry.events]

theorem observed_commit {signers : List Address} {call : Call} {h : Host} :
    (l.commit signers call h).observed id = h.events.foldl (observe id) (l.observed id) := by
  unfold observed
  rw [events_commit, List.foldl_append]

theorem Observed.commit (hl : l.Reachable self) (ho : Observed (l.observed id) (l.storage.escrows.lookup id))
    {signers : List Address} {call : Call} {h : Host} (hx : call.exec (l.env self signers) l.host = .ok h) :
    Observed ((l.commit signers call h).observed id) (h.storage.escrows.lookup id) := by
  rw [observed_commit]
  by_cases hid : call.escrowId? = some id
  · rcases exec_cases hx with hc | ⟨k, r, hc, rfl⟩ | ⟨k, hk, r, hr, ha, -, -, rfl⟩
    · exact absurd (hc.named.symm.trans hid) nofun
    · obtain rfl := Option.some.inj (hc.named.symm.trans hid)
      refine ⟨fun h => by simp [Host.apply, Storage.saveEscrow, hc.escrowId] at h, fun r' hr' _ => ?_⟩
      obtain rfl : r = r' := by
        simpa [Host.apply, Storage.saveEscrow, hc.escrowId] using hr'
      simp [Host.apply, host, observe, Event.escrowId?, EscrowRecord.observation, hc.pending, hc.no_milestone,
        hc.no_client_approval, hc.no_freelancer_approval, hc.unfunded]
    · obtain rfl := Option.some.inj (hk.symm.trans hid)
      have hkey := ((hl.storage_ok.records k r hr).change ha).keyed
      refine ⟨fun h => by simp [Host.apply, Storage.saveEscrow, hkey] at h, fun r' hr' hne => ?_⟩
      obtain rfl : (call.change (l.env self signers) r).record = r' := by
        simpa [Host.apply, Storage.saveEscrow, hkey] using hr'
      have ht := call.change_terms (l.env self signers) r
      have h1 := EscrowRecord.get_of_terms ht (·.client) fun _ => rfl
      have h2 := EscrowRecord.get_of_terms ht (·.freelancer) fun _ => rfl
      rw [h1, h2] at hne
      rw [ho.same r hr hne]
      exact observe_change hid ha hne
  · have hev : ∀ e ∈ h.events, e.escrowId? ≠ some id := by
      rcases exec_cases hx with hc | ⟨k, r, hc, rfl⟩ | ⟨k, hk, r, hr, ha, -, -, rfl⟩
      · intro e he
        rw [config_events hx hc.named rfl e he]; nofun
      · intro e he
        obtain rfl := List.mem_singleton.mp he
        exact fun hk => hid (hc.named.trans hk)
      · intro e he
        rw [change_events hk ha e he]
        exact hk ▸ hid
    rw [observe_frame hev, exec_lookup_ne hl.storage_ok hx hid]
    exact ho

theorem Reachable.observed_ok (hl : l.Reachable self) (id : Bytes) :
    Observed (l.observed id) (l.storage.escrows.lookup id) := by
  refine reachable_inv (fun l => Observed (l.observed id) (l.storage.escrows.lookup id)) ?_ (fun _ _ h => h) ?_
    (fun l signers call h hl hi hx => Observed.commit hl hi hx) hl
  · intro b _
    exact ⟨fun _ => rfl, fun _ h => (nomatch h)⟩
  · intro l t hi _ _ _
    simpa [observed, events, Entry.events] using hi

/-- The events of the calls so far tell what the calls paid. -/
def EventsPaid (self : Address) (l : Ledger) : Prop :=
  ∀ rc, .call rc ∈ l.history → ∀ e ∈ rc.events, ∀ id, e.escrowId? = some id →
    ∃ r, l.storage.escrows.lookup id = some r ∧ e.PaidBy self r rc.transfers

theorem EventsPaid.commit (hl : l.Reachable self) (hp : l.EventsPaid self) {signers : List Address}
    {call : Call} {h : Host} (hx : call.exec (l.env self signers) l.host = .ok h) :
    (l.commit signers call h).EventsPaid self := by
  intro rc hrc e he id hid
  rcases List.mem_append.mp hrc with hrc | hrc
  · obtain ⟨r, hr, hpaid⟩ := hp rc hrc e he id hid
    obtain ⟨r', hr', hev⟩ := exec_evolves hl.storage_ok hr hx
    exact ⟨r', hr', hpaid.of_terms hev.terms⟩
  · cases List.mem_singleton.mp hrc
    rcases exec_cases hx with hc | ⟨k, r, hc, rfl⟩ | ⟨k, hk, r, hr, ha, -, -, rfl⟩
    · exact absurd ((config_events hx hc.named rfl e he).symm.trans hid) nofun
    · obtain rfl := List.mem_singleton.mp he
      have hk : k = id := Option.some.inj hid
      subst hk
      exact ⟨r, by simp [Ledger.commit, Host.apply, Storage.saveEscrow, hc.escrowId], trivial⟩
    · obtain rfl := Option.some.inj ((change_events hk ha e he).symm.trans hid)
      have hkey := ((hl.storage_ok.records k r hr).change ha).keyed
      refine ⟨(call.change (l.env self signers) r).record, ?_, ?_⟩
      · simp [Ledger.commit, Host.apply, Storage.saveEscrow, hkey]
      · exact (change_paidBy ha e he).of_terms (call.change_terms _ _)

theorem Reachable.events_paid (hl : l.Reachable self) : l.EventsPaid self := by
  refine reachable_inv (fun l => l.EventsPaid self) ?_ (fun _ _ h => h) ?_
    (fun l signers call h hl hi hx => EventsPaid.commit hl hi hx) hl
  · intro b _ rc hrc
    cases hrc
  · intro l t hi _ _ _ rc hrc
    rcases List.mem_append.mp hrc with hrc | hrc
    · exact hi rc hrc
    · cases List.mem_singleton.mp hrc

end Ledger

/-- In every reachable ledger the observer of the events knows exactly the stored
escrows, and the amounts in the events are those transferred. -/
theorem events_determine_state {self : Address} {l : Ledger} (hl : l.Reachable self) :
    (∀ id, l.storage.escrows.lookup id = none → l.observed id = none) ∧
    (∀ id r, l.storage.escrows.lookup id = some r → r.client ≠ r.freelancer →
      l.observed id = some r.observation) ∧
    l.EventsPaid self :=
  ⟨fun id => (hl.observed_ok id).absent, fun id => (hl.observed_ok id).same, hl.events_paid⟩

theorem sample_observed : sampleLedger.observed [7] = some ⟨⟨2⟩, .funded, 0, false, false, 0⟩ :=
  (events_determine_state sample_reachable).2.1 [7] sampleRecord sample_lookup (by decide)

end NexusHub
