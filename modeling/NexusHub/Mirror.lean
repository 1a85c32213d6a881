import NexusHub.Plans

/-!
# The row mirrors the record

The escrow row and the on-chain record are kept by three code bases. Where
every operation is carried through before the next, rows on-chain mirror their
records as long as no dispute is opened (the service writes it to the database
alone) and no settlement finds its idempotency key taken.
-/

namespace NexusHub

/-! ## Rounds -/

def jobAttempts : Nat := 3

/-- Up to `n` attempts, none meeting any failure but the contract's. -/
def World.attempts (s : Stellar) (j : Job) : Nat → World → World
  | 0, w => w
  | n + 1, w =>
    match ((Worker.process s j).complete (platform s) w).2 with
    | .ok _ => ((Worker.process s j).complete (platform s) w).1
    | .error _ => World.attempts s j n ((Worker.process s j).complete (platform s) w).1

/-- A request carried through with the jobs it queues, or the ledger's own traffic. -/
inductive Round where
  | request (r : Request)
  | ledger (a : Action)

def World.round (s : Stellar) (w : World) : Round → World
  | .request r =>
    ((w.request r).jobs.drop w.jobs.length).foldl (fun w j => w.attempts s j jobAttempts) (w.request r)
  | .ledger a => { w with ledger := w.ledger.step s.contract a }

theorem attempts_inv {s : Stellar} {j : Job} {I J : World → Prop} (hIJ : ∀ w, J w → I w)
    (hok : ∀ w, J w → ((Worker.process s j).complete (platform s) w).2 = .ok () →
      I ((Worker.process s j).complete (platform s) w).1)
    (herr : ∀ w e, J w → ((Worker.process s j).complete (platform s) w).2 = .error e →
      J ((Worker.process s j).complete (platform s) w).1) (n : Nat) {w : World} (h : J w) :
      I (w.attempts s j n) := by
  induction n generalizing w with
  | zero => exact hIJ w h
  | succ n ih =>
    simp only [World.attempts]
    split
    · rename_i heq; exact hok w h heq
    · rename_i e heq; exact ih (herr w e h heq)

/-! ## The invariant -/

/-- A row's parties exist; it is blank until it has a contract and mirrors the record from then on. -/
structure RowOk (users : Store UserId User) (records : Store Bytes EscrowRecord) (id : Uuid) (e : Escrow) :
    Prop where
  client : (users.lookup e.clientId).isSome
  freelancer : (users.lookup e.freelancerId).isSome
  blank : e.stellarContractId = none →
    e.clientApproved = false ∧ e.freelancerApproved = false ∧ e.milestonesCompleted = 0
  mirror : e.stellarContractId.isSome → ∃ r, records.lookup id.bytes = some r ∧ Mirrors e r

theorem RowOk.of_records {users : Store UserId User} {records records' : Store Bytes EscrowRecord} {id : Uuid}
    {e : Escrow} (h : RowOk users records id e) (hr : records'.lookup id.bytes = records.lookup id.bytes) :
    RowOk users records' id e :=
  ⟨h.client, h.freelancer, h.blank, by rw [hr]; exact h.mirror⟩

structure MirrorInv (contract : Address) (w : World) : Prop where
  reachable : w.ledger.Reachable contract
  balances : ∀ u, (w.db.users.lookup u).isSome → (w.db.balances.lookup u).isSome
  undisputed : w.db.disputes = ∅
  rows : ∀ id e, w.db.escrows.lookup id = some e → RowOk w.db.users w.ledger.storage.escrows id e

/-- The same but for one row, as between the call and the commit of an attempt. -/
structure MirrorRest (contract : Address) (id : Uuid) (w : World) : Prop where
  reachable : w.ledger.Reachable contract
  balances : ∀ u, (w.db.users.lookup u).isSome → (w.db.balances.lookup u).isSome
  undisputed : w.db.disputes = ∅
  rows : ∀ k e, k ≠ id → w.db.escrows.lookup k = some e → RowOk w.db.users w.ledger.storage.escrows k e

namespace MirrorRest

variable {contract : Address} {id : Uuid} {w w' : World}

theorem called (h : MirrorRest contract id w) {signers : List Address} {call : Call}
    (hc : w.Called contract signers call w') (hid : call.escrowId? = some id.bytes) :
    MirrorRest contract id w' where
  reachable := hc.reachable h.reachable
  balances := by rw [hc.db]; exact h.balances
  undisputed := by rw [hc.db]; exact h.undisputed
  rows k e hk he := by
    rw [hc.db] at he ⊢
    exact (h.rows k e hk he).of_records (hc.lookup_ne h.reachable hid fun hb => hk (Uuid.bytes_injective hb))

theorem committed (h : MirrorRest contract id w) {tx : DbTx} (hc : w.Committed tx w') (hid : tx.escrowId = id)
    {e : Escrow} (he : w.db.escrows.lookup id = some e)
    (hok : RowOk w.db.users w.ledger.storage.escrows id (tx.onEscrow e)) : MirrorInv contract w' := by
  have happ := (DbTx.apply_ok hc.db).1
  refine ⟨by rw [hc.ledger]; exact h.reachable, fun u hu => ?_, by rw [happ.disputes]; exact h.undisputed,
    fun k e' he' => ?_⟩
  · rw [happ.balances, lookup_applyMoves, Option.isSome_map]
    exact h.balances u (happ.users ▸ hu)
  · rw [happ.escrows k, hid] at he'
    rw [happ.users, hc.ledger]
    by_cases hk : k = id
    · subst hk
      rw [if_pos rfl, he, Option.map_some, Option.some.injEq] at he'
      exact he' ▸ hok
    · rw [if_neg hk] at he'
      exact h.rows k e' hk he'

end MirrorRest

/-- The job's actor exists, and its key is free while the escrow can still be settled. -/
structure JobReady (j : Job) (w : World) : Prop where
  actor : ∀ u ∈ j.actor, (w.db.users.lookup u).isSome
  key : ∀ r, w.ledger.storage.escrows.lookup j.escrowId.bytes = some r → r.Live →
    ∀ k ∈ j.settleKey, w.db.transactions.lookup k = none

namespace MirrorInv

variable {contract : Address} {w w' : World}

theorem rest (h : MirrorInv contract w) (id : Uuid) : MirrorRest contract id w :=
  ⟨h.reachable, h.balances, h.undisputed, fun k e _ he => h.rows k e he⟩

theorem of_same (h : MirrorInv contract w) (hs : w.Same w') : MirrorInv contract w' where
  reachable := by rw [hs.ledger]; exact h.reachable
  balances := by rw [hs.db]; exact h.balances
  rows := by rw [hs.db, hs.ledger]; exact h.rows
  undisputed := by rw [hs.db]; exact h.undisputed

theorem plan_ready (h : MirrorInv contract w) {j : Job} {p : Plan} {e : Escrow} {r : EscrowRecord}
    (hj : JobReady j w) (he : w.db.escrows.lookup j.escrowId = some e) (hs : p.Sound j.escrowId e)
    (hp : p.Refers j e)
    (hr : w.ledger.storage.escrows.lookup j.escrowId.bytes = some r) (hlive : r.Live) (r' : EscrowRecord)
    (txHash : TxHash) : (p.tx r' txHash).Ready w.db := by
  have hok := h.rows _ e he
  refine ⟨by rw [hs.row, he]; rfl, fun m hm => ?_, fun k hk => ?_, fun u hu => ?_⟩
  · rcases hp.moves r' txHash m hm with hm | hm <;> rw [hm]
    · exact h.balances _ hok.client
    · exact h.balances _ hok.freelancer
  · exact hj.key r hr hlive k (hp.key r' txHash k hk)
  · rcases hp.users r' txHash u hu with rfl | rfl | hu
    · exact hok.client
    · exact hok.freelancer
    · exact hj.actor u hu

theorem of_plan {s : Stellar} {j : Job} {p : Plan} (h : MirrorInv s.contract w) (hj : JobReady j w)
    (hp : j.plan s w = some p) (ha : Attempted s World.Same False j.escrowId p w w') :
    MirrorInv s.contract w' ∧ JobReady j w' := by
  obtain ⟨e, hrow, hs⟩ := Job.plan_sound hp
  have hrefers := Job.plan_refers hp hrow
  obtain ⟨he, hcid⟩ := World.contractRow_eq_some.mp hrow
  have hok := h.rows _ e he
  cases ha with
  | refused hsame _ =>
    exact ⟨h.of_same hsame, by rw [hsame.db]; exact hj.actor, by rw [hsame.db, hsame.ledger]; exact hj.key⟩
  | called hc why =>
    have hc := hc.called
    obtain ⟨r, hr, -, ha, -⟩ := hc.updates h.reachable hs.named hs.no_init
    obtain ⟨r', txHash, -, hn⟩ := why.resolve_left id
    obtain ⟨db, hdb⟩ := (h.plan_ready hj he hs hrefers hr ha.live r' txHash).apply
    exact absurd (hc.db ▸ hdb) (hn db)
  | @committed w₁ r' txHash hc hr' hcom =>
    have hc := hc.called
    have hcom := hcom.committed
    obtain ⟨r, hr, -, ha, hlook⟩ := hc.updates h.reachable hs.named hs.no_init
    have hrec : (p.call.change (w.ledger.env s.contract p.signers) r).record = r' :=
      Option.some.inj (((hlook _).trans (if_pos rfl)).symm.trans hr')
    have hmirrors := hs.mirrors ha e txHash
    have hkeeps := hs.keeps ha
    rw [hrec] at hmirrors hkeeps
    have happ := (DbTx.apply_ok hcom.db).1
    have hok' : RowOk w₁.db.users w₁.ledger.storage.escrows j.escrowId
        ((p.tx r' txHash).onEscrow e) := by
      obtain ⟨r₀, hr₀, hm⟩ := hok.mirror hcid
      rw [hr] at hr₀; cases hr₀
      refine ⟨?_, ?_, fun hn => ?_, fun _ => ⟨r', hr', hmirrors hm⟩⟩
      · rw [DbTx.onEscrow_clientId, hc.db]; exact hok.client
      · rw [DbTx.onEscrow_freelancerId, hc.db]; exact hok.freelancer
      · rw [hs.contract] at hn
        rw [hn] at hcid; cases hcid
    refine ⟨((h.rest _).called hc hs.named).committed hcom (hs.row _ _) (by rw [hc.db]; exact he) hok',
      ⟨by rw [happ.users, hc.db]; exact hj.actor, fun r'' hr'' hlive k hk => ?_⟩⟩
    rw [hcom.ledger, hr'] at hr''
    cases hr''
    have hns : ¬ r'.Settled := fun hset => hlive.not_closed (.inl hset)
    obtain ⟨-, -, hkey⟩ := (hkeeps hns).2 txHash
    have hfree := hj.key r hr ha.live k hk
    rw [← Option.not_isSome_iff_eq_none, happ.keys, hkey, hc.db, hfree]
    simp

end MirrorInv

/-! ## Funding -/

/-- The escrow is in the database and not on-chain as far as the row knows. -/
def World.Unlinked (w : World) (id : Uuid) : Prop :=
  ∃ e, w.db.escrows.lookup id = some e ∧ e.stellarContractId = none

namespace MirrorInv

variable {s : Stellar} {id : Uuid} {clientId : UserId} {amount : Int} {w w' : World}

theorem of_unlinked (h : MirrorInv s.contract w) (hu : w.Unlinked id) {signers : List Address} {call : Call}
    (hc : w.Called s.contract signers call w') (hid : call.escrowId? = some id.bytes) :
    MirrorInv s.contract w' where
  reachable := hc.reachable h.reachable
  balances := by rw [hc.db]; exact h.balances
  undisputed := by rw [hc.db]; exact h.undisputed
  rows k e he := by
    by_cases hk : k = id
    · subst hk
      obtain ⟨e', he', hnone⟩ := hu
      rw [hc.db] at he ⊢
      cases he.symm.trans he'
      have hok := h.rows k e he
      exact ⟨hok.client, hok.freelancer, hok.blank, fun hs => by rw [hnone] at hs; cases hs⟩
    · exact ((h.rest id).called hc hid).rows k e hk he

theorem of_begun (h : MirrorInv s.contract w) (hu : w.Unlinked id) {input : Worker.FundingInput}
    (hin : w.fundingInput s id clientId = some input) (hb : Begun s World.Same id input amount w w') :
    MirrorInv s.contract w' ∧ w'.Unlinked id ∧ ∃ r, w'.ledger.storage.escrows.lookup id.bytes = some r ∧
      r.clientApproved = false ∧ r.freelancerApproved = false ∧ r.milestonesCompleted = 0 := by
  obtain ⟨e, he, hnone⟩ := hu
  obtain rfl : e = input.escrow := Option.some.inj (he.symm.trans (World.escrow_of_fundingInput hin))
  cases hb with
  | before hrow _ => rw [hnone] at hrow; cases hrow
  | now _ hcall hc =>
    have hc := hc.called
    obtain ⟨hid, hinit⟩ := Stellar.initCall_spec hcall
    obtain ⟨r, hr, -, hlook⟩ := hc.creates h.reachable hid hinit
    exact ⟨h.of_unlinked ⟨_, he, hnone⟩ hc hid, ⟨_, by rw [hc.db]; exact he, hnone⟩, r,
      (hlook _).trans (if_pos rfl), hr.no_client_approval, hr.no_freelancer_approval,
      hr.no_milestone⟩

theorem of_fundTried {out : Outcome WorkerError Unit} (h : MirrorInv s.contract w) (hu : w.Unlinked id)
    (ht : FundTried s World.Same False id clientId amount w w' out) (ho : out.Failed) :
    MirrorInv s.contract w' ∧ w'.Unlinked id := by
  cases ht with
  | stopped hs _ _ => exact ⟨h.of_same hs, by unfold World.Unlinked; rw [hs.db]; exact hu⟩
  | begun hin hb _ _ =>
    obtain ⟨h', hu', -⟩ := h.of_begun hu hin hb
    exact ⟨h', hu'⟩
  | deposited hin hb hc _ _ =>
    obtain ⟨h', hu', -⟩ := h.of_begun hu hin hb
    exact ⟨h'.of_unlinked hu' hc.called rfl, by unfold World.Unlinked; rw [hc.called.db]; exact hu'⟩
  | committed _ _ _ _ hF => exact (hF ho).elim

theorem of_funded (h : MirrorInv s.contract w) (hu : w.Unlinked id)
    (ht : FundTried s World.Same False id clientId amount w w' (.returned ())) : MirrorInv s.contract w' := by
  cases ht with
  | stopped _ ho _ => exact absurd rfl (ho ())
  | begun _ _ _ ho => exact absurd rfl (ho ())
  | deposited _ _ _ _ ho => exact absurd rfl (ho ())
  | @committed input w₁ w₂ _ hin hb hc hcom _ =>
    have hc := hc.called
    have hcom := hcom.committed
    obtain ⟨h₁, ⟨e, he, hnone⟩, r₁, hr₁, hca, hfa, hm⟩ := h.of_begun hu hin hb
    obtain ⟨r, hr, -, ha, hlook⟩ := hc.updates h₁.reachable rfl rfl
    obtain rfl : r₁ = r := Option.some.inj (hr₁.symm.trans hr)
    have hok := h₁.rows id e he
    obtain ⟨b1, b2, b3⟩ := hok.blank hnone
    refine ((h₁.rest id).called hc rfl).committed hcom rfl (by rw [hc.db]; exact he)
      ⟨?_, ?_, nofun, fun _ => ?_⟩
    · rw [hc.db]; exact hok.client
    · rw [hc.db]; exact hok.freelancer
    · exact ⟨_, (hlook _).trans (if_pos rfl), rfl, b1.trans hca.symm, b2.trans hfa.symm, b3.trans hm.symm⟩

theorem of_fundHandled (h : MirrorInv s.contract w) (hu : w.Unlinked id)
    (hh : FundHandled World.Same False id clientId w w') : MirrorInv s.contract w' ∧ w'.Unlinked id := by
  have hmark {w₁ : World} (hm : w.Committed (.failLocks id) w₁) : MirrorInv s.contract w₁ ∧ w₁.Unlinked id := by
    obtain ⟨e, he, hnone⟩ := hu
    refine ⟨(h.rest id).committed hm rfl he (h.rows id e he), e, ?_, hnone⟩
    rw [DbTx.lookup_failLocks (DbTx.apply_ok hm.db).1]; exact he
  cases hh with
  | cut _ hF => exact hF.elim
  | marked hm _ => exact hmark hm.committed
  | @compensated w₁ e hm he hc =>
    have hm := hm.committed
    have hc := hc.committed
    obtain ⟨h₁, e', he', hnone⟩ := hmark hm
    obtain rfl : e' = e := Option.some.inj (he'.symm.trans he)
    have hok := h₁.rows id e' he'
    refine ⟨(h₁.rest id).committed hc rfl he ⟨hok.client, hok.freelancer, hok.blank, fun hs => ?_⟩,
      { e' with status := .cancelled }, ?_, hnone⟩
    · exact absurd hs (by
        rw [show (DbTx.onEscrow _ e').stellarContractId = e'.stellarContractId from rfl, hnone]
        nofun)
    · rw [(DbTx.apply_ok hc.db).1.escrows id, if_pos (by rfl), he]; rfl

theorem of_fund_attempts (h : MirrorInv s.contract w) (hu : w.Unlinked id) (n : Nat) :
    MirrorInv s.contract (w.attempts s (.fundEscrow id clientId amount) n) := by
  refine attempts_inv (J := fun w => MirrorInv s.contract w ∧ w.Unlinked id) (fun _ h => h.1) (fun w h hr => ?_)
    (fun w e h hr => ?_) n ⟨h, hu⟩
  all_goals
    have hend := Prog.complete_of_always (@fundEscrow_ends s World.Same False w id clientId amount (.quiet _ _))
    change FundEnded s World.Same False id clientId amount w
      ((Worker.process s (.fundEscrow id clientId amount)).complete (platform s) w).1
        (.ofExcept ((Worker.process s (.fundEscrow id clientId amount)).complete (platform s) w).2) at hend
    rw [hr] at hend
  · cases hend with
    | done ht _ => exact h.1.of_funded h.2 ht
    | handled _ _ ho => exact absurd rfl (ho ())
  · cases hend with
    | done _ ho => exact absurd rfl (ho e)
    | handled ht hh _ =>
      obtain ⟨h₁, hu₁⟩ := h.1.of_fundTried h.2 ht failed_threw
      exact h₁.of_fundHandled hu₁ hh

/-! ## Other jobs -/

theorem of_job_attempts {j : Job} (h : MirrorInv s.contract w) (hj : JobReady j w) (hf : ¬ j.IsFund) (n : Nat) :
    MirrorInv s.contract (w.attempts s j n) := by
  have hstep : ∀ w, MirrorInv s.contract w ∧ JobReady j w →
      MirrorInv s.contract ((Worker.process s j).complete (platform s) w).1 ∧
        JobReady j ((Worker.process s j).complete (platform s) w).1 := by
    intro w ⟨h, hj⟩
    have hend := Prog.complete_of_always (process_ends (F := False) (.quiet _ _) h.reachable hf)
    unfold Job.Ended at hend
    cases hp : j.plan s w with
    | none =>
      rw [hp] at hend
      exact ⟨h.of_same hend, by rw [hend.db]; exact hj.actor, by rw [hend.db, hend.ledger]; exact hj.key⟩
    | some p =>
      rw [hp] at hend
      exact h.of_plan hj hp hend
  exact attempts_inv (J := fun w => MirrorInv s.contract w ∧ JobReady j w) (fun _ h => h.1)
    (fun w h _ => (hstep w h).1) (fun w _ h _ => hstep w h) n ⟨h, hj⟩

end MirrorInv

/-! ## Every run -/

/-- No party disputes an open escrow, a settlement asked for finds its key free, and
nobody but the worker calls the contract for an escrow of the platform. -/
def MirrorSafe (w : World) : Round → Prop
  | .request r =>
    (∀ u id d, r = .openDispute u id d → ∀ e, w.db.escrows.lookup id = some e →
      u = e.clientId ∨ u = e.freelancerId → ¬ EscrowService.isOpen e) ∧
    ∀ role j, r.job role = some j → ∀ e, w.db.escrows.lookup j.escrowId = some e →
      EscrowService.isOpen e ∨ e.status = .disputed → ∀ k ∈ j.settleKey, w.db.transactions.lookup k = none
  | .ledger a => ∀ signers call, a = .invoke signers call →
      ∀ id e, w.db.escrows.lookup id = some e → call.escrowId? ≠ some id.bytes

theorem Ledger.step_lookup {contract : Address} {l : Ledger} (hl : l.Reachable contract) {a : Action}
    {k : Bytes} (ha : ∀ signers call, a = .invoke signers call → call.escrowId? ≠ some k) :
    (Ledger.step contract l a).storage.escrows.lookup k = l.storage.escrows.lookup k := by
  cases a with
  | advance n => rfl
  | outside t =>
    rcases Ledger.outside_cases contract l t with ⟨-, -, -, h⟩ | h
    · rw [Ledger.step, h]
    · rw [Ledger.step, h]
  | invoke signers call =>
    have hne := ha signers call rfl
    rcases Ledger.invoke_cases contract l signers call with ⟨h, hx, he⟩ | he
    · rw [Ledger.step, he]; exact exec_lookup_ne hl.storage_ok hx hne
    · rw [Ledger.step, he]

namespace MirrorInv

variable {s : Stellar} {w : World}

theorem of_request (h : MirrorInv s.contract w) {r : Request} (hsafe : MirrorSafe w (.request r)) :
    MirrorInv s.contract (w.round s (.request r)) := by
  simp only [World.round]
  unfold World.request
  cases hr : r.serve w.db with
  | error e => simpa using h
  | ok res =>
    simp only [List.drop_left]
    obtain ⟨user, huser, hserved⟩ := Request.served hr
    cases hserved with
    | replayed _ => exact ⟨h.reachable, h.balances, h.undisputed, h.rows⟩
    | @created clientId dto key id b hc =>
      simp only [List.foldl_cons, List.foldl_nil]
      refine of_fund_attempts ?_ ?_ _
      rotate_left
      · exact ⟨EscrowService.newEscrow clientId dto, Finmap.lookup_insert _, rfl⟩
      refine ⟨h.reachable, fun u hu => ?_, h.undisputed, ?_⟩
      · rw [Store.lookup_insert']
        split
        · rfl
        · exact h.balances u hu
      · refine Store.forall_insert ⟨hc.client, ?_, fun _ => ⟨rfl, rfl, rfl⟩, nofun⟩ h.rows
        obtain ⟨f, hf, -⟩ := hc.freelancer
        change (w.db.users.lookup dto.freelancerId).isSome
        rw [hf]; rfl
    | @queued _ j e hj he hs =>
      simp only [List.foldl_cons, List.foldl_nil]
      refine of_job_attempts ?_ ?_ (Request.job_not_fund hj) _
      · exact ⟨h.reachable, h.balances, h.undisputed, h.rows⟩
      refine ⟨fun u hu => ?_, fun _ _ _ => ?_⟩
      · rw [Request.job_actor hj u hu]
        change (w.db.users.lookup r.caller).isSome
        rw [huser]; rfl
      · exact hsafe.2 user.role j hj e he hs
    | disputed he hp hs => exact absurd hs (hsafe.1 _ _ _ rfl _ he hp)
    | reviewed hd => rw [h.undisputed] at hd; cases hd
    | resolved hd _ => rw [h.undisputed] at hd; cases hd

theorem of_round (h : MirrorInv s.contract w) {a : Round} (hsafe : MirrorSafe w a) :
    MirrorInv s.contract (w.round s a) := by
  cases a with
  | request r => exact h.of_request hsafe
  | ledger a =>
    refine ⟨Ledger.reachable_run h.reachable [a], h.balances, h.undisputed, fun id e he => ?_⟩
    exact (h.rows id e he).of_records (Ledger.step_lookup h.reachable fun ss call ha =>
      hsafe ss call ha id e he)

end MirrorInv

end NexusHub
