import NexusHub.Credits
import NexusHub.Network

/-!
# How a call is submitted

`StellarService.invoke` over an RPC server that may fail at any request, and
answers what it likes except about what it has seen included. What the outcome
of an invocation tells of its transaction, then and ever after.
-/

namespace NexusHub

/-! ## Transactions -/

/-- An authorisation that the simulation asks for; those without credentials come with the source account. -/
structure AuthEntry where
  credentials : Option Address
  validUntil : Option Nat
  deriving DecidableEq

structure Body where
  method : String
  args : List ScVal
  auth : List AuthEntry
  deriving DecidableEq

/-- Whose signatures count in the ledger `ledger`. -/
def Body.signersAt (b : Body) (ledger : Nat) : List Address :=
  b.auth.filterMap fun e => if e.validUntil.any (ledger ≤ ·) then e.credentials else none

/-- What a ledger does with a transaction of the admin account. -/
def Stellar.execute (s : Stellar) (b : Body) (l : Ledger) : Option (Ledger × TxHash) :=
  match dispatch b.method b.args with
  | some call =>
    match call.exec (l.env s.contract (s.adminKey :: b.signersAt l.sequence)) l.host with
    | .ok h => some (l.commit (s.adminKey :: b.signersAt l.sequence) call h, l.history.length)
    | .error _ => none
  | none => none

abbrev StellarNetwork := Network Ledger Body TxHash

/-! ## The service -/

inductive SendStatus where
  | pending | duplicate | tryAgainLater | error
  deriving DecidableEq

inductive GetStatus where
  | success | failed | notFound
  deriving DecidableEq

inductive RpcOp where
  | getAccount
  /-- `Date.now()`, in seconds. -/
  | now
  | simulateTransaction (method : String) (args : List ScVal)
  | sendTransaction (tx : Envelope Body)
  /-- A second at least. -/
  | setTimeout
  | getTransaction (hash : Envelope Body)

/-- A simulation answers with the credentials asked for and the latest ledger, or with an error. -/
abbrev RpcOp.Res : RpcOp → Type
  | getAccount | now => Nat
  | simulateTransaction .. => Option (List (Option Address) × Nat)
  | sendTransaction _ => SendStatus
  | setTimeout => Unit
  | getTransaction _ => GetStatus

inductive InvokeError where
  | simulationFailed (method : String)
  | sendFailed (method : String)
  | failedOnChain (hash : Envelope Body)
  | timedOut (hash : Envelope Body)
  /-- The server cannot be reached or does not answer. -/
  | rpc
  deriving DecidableEq

namespace StellarService

abbrev Rpc (α : Type) := Prog RpcOp RpcOp.Res InvokeError α

def server (o : RpcOp) : Rpc o.Res := Prog.call o

def authorize (signers : List Address) (validUntil : Nat) (credentials : Option Address) : AuthEntry where
  credentials
  validUntil := if ∃ a ∈ credentials, a ∈ signers then some validUntil else none

def waitForTransaction (hash : Envelope Body) : Nat → Rpc (Envelope Body)
  | 0 => throw (.timedOut hash)
  | attempts + 1 => do
    server .setTimeout
    let status ← server (.getTransaction hash)
    match status with
    | .success => return hash
    | .failed => throw (.failedOnChain hash)
    | .notFound => waitForTransaction hash attempts

def timeoutLedgers : Nat := 30

def pollAttempts : Nat := 30

def invoke (method : String) (args : List ScVal) (signers : List Address) : Rpc (Envelope Body) := do
  let sequence ← server .getAccount
  let now ← server .now
  let simResult ← server (.simulateTransaction method args)
  match simResult with
  | none => throw (.simulationFailed method)
  | some (rawAuth, latestLedger) =>
    let assembled : Envelope Body :=
      ⟨sequence + 1, now + timeoutLedgers,
        ⟨method, args, rawAuth.map (authorize signers (latestLedger + timeoutLedgers))⟩⟩
    let status ← server (.sendTransaction assembled)
    if status = .error then throw (.sendFailed method)
    else waitForTransaction assembled pollAttempts

end StellarService

/-! ## The server -/

inductive Acceptance where
  | accepts | busy | refuses
  deriving DecidableEq

/-- How the server answers next; it has seen the first `horizon` inclusions. -/
structure RpcServer where
  account : Nat
  simulation : Option (List (Option Address) × Nat)
  acceptance : Acceptance
  horizon : Nat

/-- `sent` is what the invocation has sent and the server has not refused. -/
structure Uplink where
  net : StellarNetwork
  clock : Nat
  rpc : RpcServer
  sent : List (Envelope Body)

inductive UplinkAction where
  | network (a : NetworkAction Action Body)
  | tick (seconds : Nat)
  | rpc (server : RpcServer)

namespace Uplink

def statusOf (u : Uplink) (hash : Envelope Body) : GetStatus :=
  match (u.net.included.take u.rpc.horizon).find? (·.tx = hash) with
  | some x => if x.result.isSome then .success else .failed
  | none => .notFound

def send (u : Uplink) (tx : Envelope Body) : Uplink × SendStatus :=
  match u.rpc.acceptance with
  | .accepts =>
    ({ u with net := { u.net with received := u.net.received ++ [tx] }, sent := u.sent ++ [tx] },
      if tx ∈ u.net.received then .duplicate else .pending)
  | .busy => ({ u with sent := u.sent ++ [tx] }, .tryAgainLater)
  | .refuses => (u, .error)

def perform (u : Uplink) : (o : RpcOp) → Uplink × Except InvokeError o.Res
  | .getAccount => (u, .ok u.rpc.account)
  | .now => (u, .ok u.clock)
  | .simulateTransaction .. => (u, .ok u.rpc.simulation)
  | .sendTransaction tx => ((u.send tx).1, .ok (u.send tx).2)
  | .setTimeout => ({ u with clock := u.clock + 1 }, .ok ())
  | .getTransaction hash => (u, .ok (u.statusOf hash))

def env (s : Stellar) (u : Uplink) : UplinkAction → Uplink
  | .network a => { u with net := u.net.step s.execute (Ledger.step s.contract) a }
  | .tick seconds => { u with clock := u.clock + seconds }
  | .rpc server => { u with rpc := server }

/-- The inclusions of what the invocation has sent. -/
def applied (u : Uplink) : List (Inclusion Body TxHash) := u.net.included.filter (·.tx ∈ u.sent)

end Uplink

def uplink (s : Stellar) : Machine RpcOp RpcOp.Res InvokeError Uplink UplinkAction where
  perform := Uplink.perform
  env := Uplink.env s

/-- Anything may happen on the network; requests are lost, answers are lost, the worker dies. -/
def atAnyTime : Prog.Regime RpcOp Uplink UplinkAction InvokeError where
  env _ _ := True
  op _ _ fault := fault = .none ∨ fault = .lost .rpc ∨ fault = .late .rpc ∨ fault = .crash

/-! ## What the environment keeps -/

/-- The call asked for, authorised by no others. -/
structure Envelope.Of (method : String) (args : List ScVal) (signers : List Address) (tx : Envelope Body) :
    Prop where
  method : tx.body.method = method
  args : tx.body.args = args
  signers : ∀ ledger, ∀ a ∈ tx.body.signersAt ledger, a ∈ signers

theorem authorize_signed {signers : List Address} {validUntil v : Nat} {credentials : Option Address}
    (h : (StellarService.authorize signers validUntil credentials).validUntil = some v) :
    ∃ a ∈ credentials, a ∈ signers := by
  unfold StellarService.authorize at h
  by_contra hs
  rw [if_neg hs] at h
  cases h

theorem signersAt_authorize {signers : List Address} {validUntil : Nat} {rawAuth : List (Option Address)}
    {method : String} {args : List ScVal} {ledger : Nat} {a : Address}
    (h : a ∈ (Body.mk method args (rawAuth.map (StellarService.authorize signers validUntil))).signersAt ledger) :
    a ∈ signers := by
  simp only [Body.signersAt, List.mem_filterMap, List.mem_map] at h
  obtain ⟨_, ⟨credentials, -, rfl⟩, hc⟩ := h
  split at hc
  · rename_i hany
    rw [Option.any_eq_true] at hany
    obtain ⟨v, hv, -⟩ := hany
    obtain ⟨b, hb, hmem⟩ := authorize_signed hv
    change credentials = some a at hc
    rw [hc] at hb
    cases hb
    exact hmem
  · cases hc

namespace Uplink

structure Evolves (u u' : Uplink) : Prop where
  net : u.net.Precedes u'.net
  sent : u'.sent = u.sent
  clock : u.clock ≤ u'.clock

variable {s : Stellar} {start : Nat} {u u' : Uplink}

theorem evolves_env (u : Uplink) (a : UplinkAction) : u.Evolves (u.env s a) := by
  cases a with
  | network a => exact ⟨Network.precedes_step _ a, rfl, Nat.le_refl _⟩
  | tick n => exact ⟨.refl _, rfl, Nat.le_add_right _ _⟩
  | rpc r => exact ⟨.refl _, rfl, Nat.le_refl _⟩

theorem ok_env (h : u.net.Ok start) (a : UplinkAction) : (u.env s a).net.Ok start := by
  cases a with
  | network a => exact h.step a
  | tick | rpc => exact h

theorem evolves_run (u : Uplink) (as : List UplinkAction) : u.Evolves (run (env s) u as) := by
  refine run_rel Evolves (fun u => ⟨.refl _, rfl, Nat.le_refl _⟩) (fun h h' => ?_) evolves_env u as
  exact ⟨h.net.trans h'.net, h'.sent.trans h.sent, Nat.le_trans h.clock h'.clock⟩

theorem ok_run (h : u.net.Ok start) (as : List UplinkAction) : (run (env s) u as).net.Ok start :=
  run_inv (fun u : Uplink => u.net.Ok start) (fun _ a h => ok_env h a) as h

/-! ## An invocation -/

/-- What an outcome tells of the transaction. -/
def Tells (u : Uplink) : Outcome InvokeError (Envelope Body) → Prop
  | .returned hash => u.sent = [hash] ∧ ∃ x ∈ u.net.included, x.tx = hash ∧ x.result.isSome
  | .threw (.failedOnChain hash) => u.sent = [hash] ∧ ∃ x ∈ u.net.included, x.tx = hash ∧ x.result = none
  | .threw (.timedOut hash) => u.sent = [hash] ∧ hash.maxTime ≤ u.clock
  | .threw (.simulationFailed _) | .threw (.sendFailed _) => u.sent = []
  | .threw .rpc | .crashed => u.sent.length ≤ 1

/-- The ends of an invocation. -/
structure Ends (start : Nat) (method : String) (args : List ScVal) (signers : List Address) (u : Uplink)
    (out : Outcome InvokeError (Envelope Body)) : Prop where
  ok : u.net.Ok start
  sent : ∀ tx ∈ u.sent, tx.Of method args signers
  tells : u.Tells out

/-- Before anything is sent. -/
structure Unsent (start : Nat) (u : Uplink) : Prop where
  ok : u.net.Ok start
  sent : u.sent = []

/-- Waiting for `hash`, with so many polls to go. -/
structure Waiting (start : Nat) (method : String) (args : List ScVal) (signers : List Address)
    (hash : Envelope Body) (polls : Nat) (u : Uplink) : Prop where
  ok : u.net.Ok start
  sent : u.sent = [hash]
  of : hash.Of method args signers
  clock : hash.maxTime ≤ u.clock + polls

variable {method : String} {args : List ScVal} {signers : List Address} {hash : Envelope Body} {polls : Nat}

theorem Unsent.env (h : u.Unsent start) (a : UplinkAction) : (u.env s a).Unsent start :=
  ⟨ok_env h.ok a, (evolves_env u a).sent.trans h.sent⟩

theorem Waiting.env (h : u.Waiting start method args signers hash polls) (a : UplinkAction) :
    (u.env s a).Waiting start method args signers hash polls :=
  ⟨ok_env h.ok a, (evolves_env u a).sent.trans h.sent, h.of,
    Nat.le_trans h.clock (Nat.add_le_add_right (evolves_env u a).clock _)⟩

theorem Unsent.ends (h : u.Unsent start) {out : Outcome InvokeError (Envelope Body)}
    (hout : ∀ u : Uplink, u.sent = [] → u.Tells out) : u.Ends start method args signers out := by
  refine ⟨h.ok, fun tx htx => ?_, hout u h.sent⟩
  rw [h.sent] at htx
  cases htx

theorem Waiting.ends (h : u.Waiting start method args signers hash polls)
    {out : Outcome InvokeError (Envelope Body)} (hout : u.Tells out) : u.Ends start method args signers out := by
  refine ⟨h.ok, fun tx htx => ?_, hout⟩
  rw [h.sent] at htx
  rw [List.mem_singleton.mp htx]
  exact h.of

theorem Unsent.ends_open (h : u.Unsent start) : u.Ends start method args signers (.threw .rpc) ∧
    u.Ends start method args signers .crashed :=
  ⟨h.ends fun u hu => by simp [Tells, hu], h.ends fun u hu => by simp [Tells, hu]⟩

theorem Waiting.ends_open (h : u.Waiting start method args signers hash polls) :
    u.Ends start method args signers (.threw .rpc) ∧ u.Ends start method args signers .crashed :=
  ⟨h.ends (by simp [Tells, h.sent]), h.ends (by simp [Tells, h.sent])⟩

/-- A request may be lost, its answer may be lost, or it is answered. -/
theorem always_server {P : Uplink → Prop} {Q : Uplink → Outcome InvokeError (Envelope Body) → Prop} {o : RpcOp}
    {f : o.Res → StellarService.Rpc (Envelope Body)} (henv : ∀ u a, P u → P (u.env s a)) (hP : P u)
    (hlost : ∀ u, P u → Q u (.threw .rpc) ∧ Q u .crashed)
    (hlate : ∀ u, P u → Q (u.perform o).1 (.threw .rpc) ∧ Q (u.perform o).1 .crashed)
    (hok : ∀ u, P u → ∀ r, (u.perform o).2 = .ok r →
      Prog.Always (uplink s) atAnyTime Q (f r) (u.perform o).1) :
    Prog.Always (uplink s) atAnyTime Q (StellarService.server o >>= f) u := by
  refine Prog.stable_call_bind (P := P) (fun u a _ h => henv u a h) hP fun u hu fault hf => ?_
  cases fault with
  | none =>
    change Prog.Always (uplink s) atAnyTime Q _ (u.perform o).1
    have hsome : ∃ r, (u.perform o).2 = .ok r := by cases o <;> exact ⟨_, rfl⟩
    obtain ⟨r, hr⟩ := hsome
    rw [show ((uplink s).perform u o).2 = .ok r from hr]
    exact hok u hu r hr
  | lost e =>
    have he : e = .rpc := by simpa [atAnyTime] using hf
    subst he
    exact Prog.always_throw (hlost u hu).1 fun _ => (hlost u hu).2
  | late e =>
    have he : e = .rpc := by simpa [atAnyTime] using hf
    subst he
    exact Prog.always_throw (hlate u hu).1 fun _ => (hlate u hu).2
  | crash => exact (hlost u hu).2

/-- A request that changes nothing. -/
theorem always_read {P : Uplink → Prop} {Q : Uplink → Outcome InvokeError (Envelope Body) → Prop} {o : RpcOp}
    {f : o.Res → StellarService.Rpc (Envelope Body)} (hread : ∀ u : Uplink, (u.perform o).1 = u)
    (henv : ∀ u a, P u → P (u.env s a)) (hP : P u) (hlost : ∀ u, P u → Q u (.threw .rpc) ∧ Q u .crashed)
    (hok : ∀ u, P u → ∀ r, (u.perform o).2 = .ok r → Prog.Always (uplink s) atAnyTime Q (f r) u) :
    Prog.Always (uplink s) atAnyTime Q (StellarService.server o >>= f) u := by
  refine always_server henv hP hlost (fun u hu => ?_) fun u hu r hr => ?_
  · rw [hread]; exact hlost u hu
  · rw [hread]; exact hok u hu r hr

theorem statusOf_success (h : u.statusOf hash = .success) :
    ∃ x ∈ u.net.included, x.tx = hash ∧ x.result.isSome := by
  unfold statusOf at h
  split at h
  · rename_i x hx
    refine ⟨x, List.mem_of_mem_take (List.mem_of_find?_eq_some hx), by simpa using List.find?_some hx, ?_⟩
    by_contra hr
    rw [if_neg hr] at h
    cases h
  · cases h

theorem statusOf_failed (h : u.statusOf hash = .failed) :
    ∃ x ∈ u.net.included, x.tx = hash ∧ x.result = none := by
  unfold statusOf at h
  split at h
  · rename_i x hx
    refine ⟨x, List.mem_of_mem_take (List.mem_of_find?_eq_some hx), by simpa using List.find?_some hx, ?_⟩
    by_contra hr
    rw [if_pos (Option.isSome_iff_ne_none.mpr hr)] at h
    cases h
  · cases h

/-- By induction on the polls left: each takes a second at least. -/
theorem always_waitForTransaction : ∀ {polls : Nat} {u : Uplink},
    u.Waiting start method args signers hash polls →
    Prog.Always (uplink s) atAnyTime (Ends start method args signers)
      (StellarService.waitForTransaction hash polls) u
  | 0, u, h => Prog.always_throw (h.ends ⟨h.sent, h.clock⟩) fun _ => h.ends_open.2
  | polls + 1, u, h => by
    have hslept (u : Uplink) (hu : u.Waiting start method args signers hash (polls + 1)) :
        (u.perform .setTimeout).1.Waiting start method args signers hash polls :=
      ⟨hu.ok, hu.sent, hu.of, by have := hu.clock; simp only [perform]; omega⟩
    refine always_server (fun u a hu => hu.env a) h (fun u hu => hu.ends_open) (fun u hu => (hslept u hu).ends_open)
      fun u hu _ _ => ?_
    refine always_read (fun _ => rfl) (fun u a hu => hu.env a) (hslept u hu) (fun u hu => hu.ends_open)
      fun u hu status hstatus => ?_
    have hstatus : u.statusOf hash = status := Except.ok.inj hstatus
    cases status with
    | success => exact Prog.always_pure (hu.ends ⟨hu.sent, statusOf_success hstatus⟩) fun _ => hu.ends_open.2
    | failed => exact Prog.always_throw (hu.ends ⟨hu.sent, statusOf_failed hstatus⟩) fun _ => hu.ends_open.2
    | notFound => exact always_waitForTransaction hu

/-- The server takes the transaction or refuses it. -/
theorem send_cases {now : Nat} (h : u.Unsent start ∧ now ≤ u.clock) (hof : hash.Of method args signers)
    (htime : hash.maxTime = now + StellarService.timeoutLedgers) :
    (u.send hash).2 = .error ∧ (u.send hash).1 = u ∨ (u.send hash).2 ≠ .error ∧
      (u.send hash).1.Waiting start method args signers hash StellarService.pollAttempts := by
  obtain ⟨⟨hok, hs⟩, hclock⟩ := h
  have hle : hash.maxTime ≤ u.clock + StellarService.pollAttempts := by
    rw [htime]
    exact Nat.add_le_add_right hclock _
  have hone : u.sent ++ [hash] = [hash] := by rw [hs]; rfl
  unfold send
  cases u.rpc.acceptance with
  | accepts =>
    refine .inr ⟨?_, ⟨hok.counted, hok.ordered, fun x hx => List.mem_append_left _ (hok.received x hx), hok.inTime⟩,
      hone, hof, hle⟩
    simp only
    split <;> exact SendStatus.noConfusion
  | busy => exact .inr ⟨SendStatus.noConfusion, hok, hone, hof, hle⟩
  | refuses => exact .inl ⟨rfl, rfl⟩

theorem Unsent.env_since {now : Nat} (h : u.Unsent start ∧ now ≤ u.clock) (a : UplinkAction) :
    (u.env s a).Unsent start ∧ now ≤ (u.env s a).clock :=
  ⟨h.1.env a, Nat.le_trans h.2 (evolves_env u a).clock⟩

theorem always_send {now : Nat} (h : u.Unsent start ∧ now ≤ u.clock) (hof : hash.Of method args signers)
    (htime : hash.maxTime = now + StellarService.timeoutLedgers) :
    Prog.Always (uplink s) atAnyTime (Ends start method args signers) (do
      let status ← StellarService.server (.sendTransaction hash)
      if status = .error then throw (.sendFailed method)
      else StellarService.waitForTransaction hash StellarService.pollAttempts) u := by
  have hopen (u : Uplink) (hu : u.Unsent start ∧ now ≤ u.clock) :
      u.Ends start method args signers (.threw .rpc) ∧ u.Ends start method args signers .crashed := hu.1.ends_open
  refine always_server (P := fun u => u.Unsent start ∧ now ≤ u.clock) (fun u a hu => Unsent.env_since hu a) h hopen
    (fun u hu => ?_) fun u hu status hstatus => ?_
  · change Ends start method args signers (u.send hash).1 _ ∧ Ends start method args signers (u.send hash).1 _
    rcases send_cases hu hof htime with ⟨-, hsame⟩ | ⟨-, hw⟩
    · rw [hsame]; exact hopen u hu
    · exact hw.ends_open
  · have hstatus : (u.send hash).2 = status := Except.ok.inj hstatus
    change Prog.Always (uplink s) atAnyTime _ _ (u.send hash).1
    rcases send_cases hu hof htime with ⟨he, hsame⟩ | ⟨hne, hw⟩
    · rw [if_pos (hstatus ▸ he), hsame]
      exact Prog.always_throw (hu.1.ends fun _ h => h) fun _ => (hopen u hu).2
    · rw [if_neg (hstatus ▸ hne)]
      exact always_waitForTransaction hw

theorem always_invoke (h : u.Unsent start) :
    Prog.Always (uplink s) atAnyTime (Ends start method args signers) (StellarService.invoke method args signers)
      u := by
  have hopen (u : Uplink) (hu : u.Unsent start) :
      u.Ends start method args signers (.threw .rpc) ∧ u.Ends start method args signers .crashed := hu.ends_open
  refine always_read (fun _ => rfl) (fun u a hu => hu.env a) h hopen fun u hu sequence _ => ?_
  refine always_read (P := Unsent start) (fun _ => rfl) (fun u a hu => hu.env a) hu hopen fun u₁ hu₁ now hnow => ?_
  have hnow : u₁.clock = now := Except.ok.inj hnow
  refine always_read (P := fun u => u.Unsent start ∧ now ≤ u.clock) (fun _ => rfl)
    (fun u a hu => Unsent.env_since hu a) ⟨hu₁, Nat.le_of_eq hnow.symm⟩
    (fun u hu => hopen u hu.1) fun u hu simResult _ => ?_
  cases simResult with
  | none => exact Prog.always_throw (hu.1.ends fun _ h => h) fun _ => (hopen u hu.1).2
  | some sim => exact always_send hu ⟨rfl, rfl, fun ledger a ha => signersAt_authorize ha⟩ rfl

/-! ## Ever after -/

/-- What an outcome says of the inclusions, at any time from then on. -/
def Settled (u : Uplink) : Outcome InvokeError (Envelope Body) → Prop
  | .returned hash => ∃ x, u.applied = [x] ∧ x.tx = hash ∧ x.result.isSome
  | .threw (.failedOnChain hash) => ∃ x, u.applied = [x] ∧ x.tx = hash ∧ x.result = none
  | .threw (.simulationFailed _) | .threw (.sendFailed _) => u.applied = []
  | .threw (.timedOut _) | .threw .rpc | .crashed => u.applied.length ≤ 1

theorem Tells.sent_le {out : Outcome InvokeError (Envelope Body)} (h : u.Tells out) : u.sent.length ≤ 1 := by
  cases out with
  | returned hash => simp [h.1]
  | crashed => exact h
  | threw e =>
    cases e with
    | failedOnChain hash | timedOut hash => simp [h.1]
    | simulationFailed | sendFailed => simp [show u.sent = [] from h]
    | rpc => exact h

theorem applied_of_sent_nil (h : u.sent = []) : u.applied = [] := by
  simp [applied, h]

theorem length_applied_le (hok : u.net.Ok start) (h : u.sent.length ≤ 1) : u.applied.length ≤ 1 := by
  by_contra hlt
  obtain ⟨x, y, rest, he⟩ : ∃ x y rest, u.applied = x :: y :: rest := by
    match hxs : u.applied with
    | [] | [_] => simp [hxs] at hlt
    | x :: y :: rest => exact ⟨x, y, rest, rfl⟩
  have hnodup : u.applied.Nodup := hok.nodup.filter _
  have hx : x ∈ u.applied := by simp [he]
  have hy : y ∈ u.applied := by simp [he]
  simp only [applied, List.mem_filter, decide_eq_true_eq] at hx hy
  have htx : x.tx = y.tx := by
    match hs : u.sent with
    | [] => simp [hs] at hx
    | [tx] =>
      rw [hs] at hx hy
      rw [List.mem_singleton.mp hx.2, List.mem_singleton.mp hy.2]
    | _ :: _ :: _ => simp [hs] at h
  have hxy := hok.unique hx.1 hy.1 (congrArg _ htx)
  rw [he, hxy] at hnodup
  simp at hnodup

theorem applied_eq_singleton (hok : u.net.Ok start) (h : u.sent = [hash]) {x : Inclusion Body TxHash}
    (hx : x ∈ u.net.included) (htx : x.tx = hash) : u.applied = [x] := by
  have hmem : x ∈ u.applied := by simp [applied, h, hx, htx]
  have hle := length_applied_le hok (by simp [h])
  match ha : u.applied with
  | [] => simp [ha] at hmem
  | [y] =>
    rw [ha] at hmem
    rw [List.mem_singleton.mp hmem]
  | _ :: _ :: _ => simp [ha] at hle

theorem Ends.settled {out : Outcome InvokeError (Envelope Body)} (h : u.Ends start method args signers out)
    (hev : u.Evolves u') (hok : u'.net.Ok start) : u'.Settled out := by
  have hsent := hev.sent
  have htells := h.tells
  cases out with
  | returned hash =>
    obtain ⟨hs, x, hx, htx, hr⟩ := htells
    exact ⟨x, applied_eq_singleton hok (hsent.trans hs) (hev.net.mem hx) htx, htx, hr⟩
  | crashed => exact length_applied_le hok (hsent ▸ h.tells.sent_le)
  | threw e =>
    cases e with
    | failedOnChain hash =>
      obtain ⟨hs, x, hx, htx, hr⟩ := htells
      exact ⟨x, applied_eq_singleton hok (hsent.trans hs) (hev.net.mem hx) htx, htx, hr⟩
    | simulationFailed | sendFailed => exact applied_of_sent_nil (hsent.trans htells)
    | timedOut | rpc => exact length_applied_le hok (hsent ▸ h.tells.sent_le)

end Uplink

/-! ## On the contract's ledger -/

section
variable {s : Stellar}

/-- The hash finds the call in the history, signed by the admin account and whose signatures were valid. -/
def Inclusion.Recorded (s : Stellar) (l : Ledger) (x : Inclusion Body TxHash) : Prop :=
  ∀ r, x.result = some r → ∃ e : Receipt, l.history[r]? = some (.call e) ∧
    dispatch x.tx.body.method x.tx.body.args = some e.call ∧
      e.signers = s.adminKey :: x.tx.body.signersAt e.sequence

def Uplink.Recorded (s : Stellar) (u : Uplink) : Prop := ∀ x ∈ u.net.included, x.Recorded s u.net.state

theorem Inclusion.Recorded.later {l l' : Ledger} {x : Inclusion Body TxHash} (h : x.Recorded s l)
    (hl : l.history <+: l'.history) : x.Recorded s l' := by
  intro r hr
  obtain ⟨e, he, hd⟩ := h r hr
  obtain ⟨new, hnew⟩ := hl
  obtain ⟨hlt, -⟩ := List.getElem?_eq_some_iff.mp he
  exact ⟨e, by rw [← hnew, List.getElem?_append_left hlt]; exact he, hd⟩

theorem execute_ok {b : Body} {l l' : Ledger} {r : TxHash} (h : s.execute b l = some (l', r)) :
    ∃ (call : Call) (host : Host), dispatch b.method b.args = some call ∧ r = l.history.length ∧
      l' = l.commit (s.adminKey :: b.signersAt l.sequence) call host := by
  unfold Stellar.execute at h
  cases hd : dispatch b.method b.args with
  | none => simp [hd] at h
  | some call =>
    simp only [hd] at h
    split at h
    · cases h
      exact ⟨call, _, rfl, rfl, rfl⟩
    · cases h

theorem recorded_apply {n : StellarNetwork} (h : ∀ x ∈ n.included, x.Recorded s n.state) (tx : Envelope Body) :
    ∀ x ∈ (n.apply s.execute tx).included, x.Recorded s (n.apply s.execute tx).state := by
  unfold Network.apply
  split
  · intro x hx
    cases hexec : s.execute tx.body n.state with
    | none =>
      simp only [hexec] at hx ⊢
      rcases List.mem_append.mp hx with hx | hx
      · exact h x hx
      · rw [List.mem_singleton.mp hx]
        exact fun r hr => by cases hr
    | some p =>
      obtain ⟨l', r⟩ := p
      obtain ⟨call, host, hd, rfl, rfl⟩ := execute_ok hexec
      simp only [hexec] at hx ⊢
      rcases List.mem_append.mp hx with hx | hx
      · exact (h x hx).later ⟨_, rfl⟩
      · rw [List.mem_singleton.mp hx]
        intro r hr
        cases hr
        exact ⟨⟨call, s.adminKey :: tx.body.signersAt n.state.sequence, n.state.sequence, host.transfers,
          host.events⟩, by simp [Ledger.commit], hd, rfl⟩
  · exact h

theorem recorded_env {u : Uplink} (h : u.Recorded s) (a : UplinkAction) : (u.env s a).Recorded s := by
  cases a with
  | tick | rpc => exact h
  | network a =>
    cases a with
    | receive tx => exact h
    | outside a => exact fun x hx => (h x hx).later (Ledger.history_step _ _ a)
    | close time txs =>
      simp only [Uplink.env, Uplink.Recorded, Network.step]
      split
      · exact run_inv (fun n : StellarNetwork => ∀ x ∈ n.included, x.Recorded s n.state)
          (fun _ tx h => recorded_apply h tx) txs h
      · exact h

theorem recorded_evolves (s : Stellar) :
    Prog.Evolves (uplink s) fun u u' => u.Recorded s → u'.Recorded s where
  refl _ h := h
  trans h h' hr := h' (h hr)
  perform u o h := by
    cases o with
    | sendTransaction tx =>
      change (u.send tx).1.Recorded s
      unfold Uplink.send
      cases u.rpc.acceptance <;> exact h
    | _ => exact h
  env _ a h := recorded_env h a

end

/-! ## Main results -/

/-- A ledger closes no earlier than the worker's clock reads. -/
def Uplink.Prompt (u : Uplink) : UplinkAction → Prop
  | .network (.close time _) => u.clock ≤ time
  | .network (.outside _) | .network (.receive _) | .tick _ | .rpc _ => True

instance (u : Uplink) : (a : UplinkAction) → Decidable (u.Prompt a)
  | .network (.close time _) => inferInstanceAs (Decidable (u.clock ≤ time))
  | .network (.outside _) | .network (.receive _) | .tick _ | .rpc _ => .isTrue trivial

/-- The inclusion is of the call asked for, in time, and a success stands in the history with no other
signatures than the admin's and those of the signers. -/
structure Inclusion.Carries (s : Stellar) (l : Ledger) (method : String) (args : List ScVal)
    (signers : List Address) (x : Inclusion Body TxHash) : Prop where
  of : x.tx.Of method args signers
  inTime : x.closeTime ≤ x.tx.maxTime
  recorded : ∀ r, x.result = some r → ∃ e : Receipt, l.history[r]? = some (.call e) ∧
    dispatch method args = some e.call ∧ ∀ a ∈ e.signers, a = s.adminKey ∨ a ∈ signers

section
variable {s : Stellar} {start : Nat} {u : Uplink} (hok : u.net.Ok start) (hrec : u.Recorded s)
  (hsent : u.sent = []) {method : String} {args : List ScVal} {signers : List Address}
  {ts : List (Tick UplinkAction InvokeError)}
  (hts : (StellarService.invoke method args signers).Obeys (uplink s) atAnyTime ts u)
include hok hrec hsent hts

/-- Whatever happens on the network and to the server during an invocation and afterwards: one transaction
at most is sent for it, included at most once and in time, what it returns or reports as failed on chain is
final, and what it reports as not sent never happens. -/
theorem invocation_settles (as : List UplinkAction) :
    let ended := (StellarService.invoke method args signers).exec (uplink s) ts u
    let later := run (Uplink.env s) ended.1 as
    ended.1.sent.length ≤ 1 ∧ later.Settled ended.2 ∧
      ∀ x ∈ later.applied, x.Carries s later.net.state method args signers := by
  intro ended later
  have hends : ended.1.Ends start method args signers ended.2 := Uplink.always_invoke ⟨hok, hsent⟩ ts hts
  have hev : ended.1.Evolves later := Uplink.evolves_run ended.1 as
  have hlater : later.net.Ok start := Uplink.ok_run hends.ok as
  have hrecorded : later.Recorded s :=
    run_inv (Uplink.Recorded s) (fun _ a h => recorded_env h a) as ((recorded_evolves s).exec _ ts u hrec)
  refine ⟨hends.tells.sent_le, hends.settled hev hlater, fun x hx => ?_⟩
  simp only [Uplink.applied, List.mem_filter, decide_eq_true_eq] at hx
  obtain ⟨hx, hmem⟩ := hx
  rw [hev.sent] at hmem
  have hof := hends.sent x.tx hmem
  refine ⟨hof, hlater.inTime x hx, fun r hr => ?_⟩
  obtain ⟨e, he, hd, hs⟩ := hrecorded x hx r hr
  rw [hof.method, hof.args] at hd
  refine ⟨e, he, hd, fun a ha => ?_⟩
  rw [hs] at ha
  rcases List.mem_cons.mp ha with rfl | ha
  · exact .inl rfl
  · exact .inr (hof.signers _ a ha)

omit hrec in
/-- The polls outlast the transaction: after a timeout it is included only by a ledger that closes in the
very second in which the worker gave up, if it has not been included before. -/
theorem timeout_is_final {hash : Envelope Body}
    (hout : ((StellarService.invoke method args signers).exec (uplink s) ts u).2 = .threw (.timedOut hash))
    (as : List UplinkAction)
    (hprompt : Meets (Uplink.env s) Uplink.Prompt ((StellarService.invoke method args signers).exec (uplink s) ts u).1
      as) :
    ∀ x ∈ (run (Uplink.env s) ((StellarService.invoke method args signers).exec (uplink s) ts u).1 as).applied,
      x ∈ ((StellarService.invoke method args signers).exec (uplink s) ts u).1.applied ∨
        x.closeTime = hash.maxTime ∧
          ((StellarService.invoke method args signers).exec (uplink s) ts u).1.clock = hash.maxTime := by
  have hends : Uplink.Ends start method args signers _ _ := Uplink.always_invoke ⟨hok, hsent⟩ ts hts
  generalize (StellarService.invoke method args signers).exec (uplink s) ts u = ended at hout hprompt hends ⊢
  obtain ⟨ended, out⟩ := ended
  subst hout
  obtain ⟨hone, htime⟩ := hends.tells
  change hash.maxTime ≤ ended.clock at htime
  have hstep (v : Uplink) (a : UplinkAction) (ha : v.Prompt a)
      (hv : ended.clock ≤ v.clock ∧ ∀ x ∈ v.net.included, x.tx = hash → x ∈ ended.net.included ∨
        x.closeTime = hash.maxTime ∧ ended.clock = hash.maxTime) :
      ended.clock ≤ (v.env s a).clock ∧ ∀ x ∈ (v.env s a).net.included, x.tx = hash → x ∈ ended.net.included ∨
        x.closeTime = hash.maxTime ∧ ended.clock = hash.maxTime := by
    refine ⟨Nat.le_trans hv.1 (Uplink.evolves_env v a).clock, fun x hx htx => ?_⟩
    by_cases hold : x ∈ v.net.included
    · exact hv.2 x hold htx
    · cases a with
      | tick | rpc => exact absurd hx hold
      | network a =>
        obtain ⟨time, txs, rfl, hle, hmax⟩ := Network.step_included hx hold
        have hclose : v.clock ≤ time := ha
        rw [htx] at hmax
        have := hv.1
        exact .inr (by omega)
  have hall := run_inv_of_meets (P := Uplink.Prompt)
    (fun v : Uplink => ended.clock ≤ v.clock ∧ ∀ x ∈ v.net.included, x.tx = hash →
      x ∈ ended.net.included ∨ x.closeTime = hash.maxTime ∧ ended.clock = hash.maxTime)
    hstep as hprompt ⟨Nat.le_refl _, fun x hx _ => .inl hx⟩
  intro x hx
  simp only [Uplink.applied, List.mem_filter, decide_eq_true_eq] at hx ⊢
  obtain ⟨hx, hmem⟩ := hx
  rw [(Uplink.evolves_run ended as).sent] at hmem
  have htx : x.tx = hash := by
    rw [hone] at hmem
    exact List.mem_singleton.mp hmem
  rcases hall.2 x hx htx with h | h
  · exact .inl ⟨h, hmem⟩
  · exact .inr h

end

/-! ## Samples -/

instance Prog.decidableObeys {Op : Type} {Res : Op → Type} {ε α σ ι : Type} (M : Machine Op Res ε σ ι)
    (C : Regime Op σ ι ε) [∀ s i, Decidable (C.env s i)] [∀ s o f, Decidable (C.op s o f)] :
    (p : Prog Op Res ε α) → (ts : List (Tick ι ε)) → (s : σ) → Decidable (p.Obeys M C ts s)
  | .pure _, ts, s | .throw _, ts, s => inferInstanceAs (Decidable (∀ t ∈ ts.head?, C.op s none t.fault))
  | .op o k, [], s => @instDecidableAnd _ _ _ (decidableObeys M C (k (M.perform s o).2) [] (M.perform s o).1)
  | .op o k, ⟨env, .none⟩ :: ts, s =>
    @instDecidableAnd _ _ _ <| @instDecidableAnd _ _ _ <|
      decidableObeys M C (k (M.perform (run M.env s env) o).2) ts (M.perform (run M.env s env) o).1
  | .op _ k, ⟨env, .lost e⟩ :: ts, s =>
    @instDecidableAnd _ _ _ <| @instDecidableAnd _ _ _ <| decidableObeys M C (k (.error e)) ts (run M.env s env)
  | .op o k, ⟨env, .late e⟩ :: ts, s =>
    @instDecidableAnd _ _ _ <| @instDecidableAnd _ _ _ <|
      decidableObeys M C (k (.error e)) ts (M.perform (run M.env s env) o).1
  | .op _ _, ⟨_, .crash⟩ :: _, _ => @instDecidableAnd _ _ _ <| @instDecidableAnd _ _ _ <| .isTrue trivial

instance (u : Uplink) (a : UplinkAction) : Decidable (atAnyTime.env u a) := .isTrue trivial

instance (u : Uplink) (o : Option RpcOp) (f : Fault InvokeError) : Decidable (atAnyTime.op u o f) :=
  inferInstanceAs (Decidable (_ ∨ _ ∨ _ ∨ _))

def sampleUplink : Uplink where
  net := ⟨sampleWorld.ledger, 0, 0, [], []⟩
  clock := 0
  rpc := ⟨0, some ([some ⟨1⟩], 0), .accepts, 1⟩
  sent := []

def sampleArgs : List ScVal :=
  [.bytes [7], .address ⟨1⟩, .address ⟨2⟩, .address ⟨9⟩, .i128 sampleAmount, .bytes [], .string "", .u32 0, .u32 2,
    .u32 0]

def sampleTx : Envelope Body := ⟨1, 30, ⟨"init_escrow", sampleArgs, [⟨some ⟨1⟩, some 30⟩]⟩⟩

/-- A ledger closes with the transaction before the first poll. -/
def sampleTicks : List (Tick UplinkAction InvokeError) :=
  List.replicate 5 .calm ++ [⟨[.network (.close 5 [sampleTx])], .none⟩]

def sampleInvocation (ts : List (Tick UplinkAction InvokeError)) : Uplink × Outcome InvokeError (Envelope Body) :=
  (StellarService.invoke "init_escrow" sampleArgs [⟨1⟩]).exec (uplink sampleStellar) ts sampleUplink

theorem sampleNetwork_ok : sampleUplink.net.Ok 0 := ⟨rfl, rfl, List.forall_mem_nil _, List.forall_mem_nil _⟩

theorem sample_invocation :
    let later := run (Uplink.env sampleStellar) (sampleInvocation sampleTicks).1 [.network (.close 9 [sampleTx])]
    (sampleInvocation sampleTicks).1.sent.length ≤ 1 ∧ later.Settled (sampleInvocation sampleTicks).2 ∧
      ∀ x ∈ later.applied, x.Carries sampleStellar later.net.state "init_escrow" sampleArgs [⟨1⟩] :=
  invocation_settles sampleNetwork_ok (List.forall_mem_nil _) rfl (by decide +kernel) _

/-- Time passes before the first poll, so that the worker gives up well after the bound. -/
def sampleDelay : List (Tick UplinkAction InvokeError) := List.replicate 5 .calm ++ [⟨[.tick 5], .none⟩]

theorem sample_timeout : (run (Uplink.env sampleStellar) (sampleInvocation sampleDelay).1
    [.tick 1, .network (.close 36 [sampleTx])]).applied = [] := by
  refine List.eq_nil_iff_forall_not_mem.mpr fun x hx => ?_
  have hfinal := timeout_is_final sampleNetwork_ok rfl (by decide +kernel) (by rfl)
    [.tick 1, .network (.close 36 [sampleTx])] (by decide +kernel) x hx
  have hnone : (sampleInvocation sampleDelay).1.applied = [] := by decide +kernel
  have hclock : (sampleInvocation sampleDelay).1.clock = 35 := by decide +kernel
  rcases hfinal with hold | ⟨-, hnow⟩
  · change x ∈ (sampleInvocation sampleDelay).1.applied at hold
    rw [hnone] at hold
    exact absurd hold List.not_mem_nil
  · exact absurd (hclock.symm.trans hnow) (by decide)

end NexusHub
