import NexusHub.Effects
import NexusHub.Requests
import NexusHub.Settlement

/-!
# Settlement credits

Release, 2-of-2 approval, refund and expiry each credit an available amount
under an idempotency key of their own. The keys alone allow one credit of each
kind; that only one kind ever occurs is the ledger's doing, where an escrow is
settled once, and a credit follows a settlement of its kind.
-/

namespace NexusHub

inductive SettleKind where
  | release | approve | refund | expire
  deriving DecidableEq

def Receipt.settles (rc : Receipt) : Option SettleKind :=
  match rc.call with
  | .release .. => some .release
  | .approveRelease .. => if rc.transfers = [] then none else some .approve
  | .refund _ => some .refund
  | .claimExpired _ => some .expire
  | _ => none

def DbTx.settles : DbTx → Option SettleKind
  | release .. => some .release
  | approve _ _ _ _ clientApproved freelancerApproved _ =>
    if clientApproved && freelancerApproved then some .approve else none
  | refund .. => some .refund
  | expire .. => some .expire
  | fund .. | failLocks _ | compensate .. | milestone .. => none

def SettleKind.key (id : Uuid) : SettleKind → String
  | release => "release-" ++ id.text
  | approve => "approve-release-" ++ id.text
  | refund => "refund-" ++ id.text
  | expire => "expired-" ++ id.text

theorem DbTx.key_of_settles {tx : DbTx} {k : SettleKind} (h : tx.settles = some k) :
    tx.key = some (k.key tx.escrowId) := by
  cases tx with
  | approve id e u role c f txHash =>
    simp only [settles] at h
    split at h
    · rename_i hb; cases h; simp only [key, hb, ite_true]; rfl
    · cases h
  | fund | failLocks | compensate | milestone => cases h
  | release | refund | expire => cases h; rfl

/-! ## One settlement on the ledger -/

/-- The receipts of an escrow show at most one kind of settlement, and both flags only a 2-of-2 one. -/
structure View.SettledOnce (v : View) : Prop where
  absent : v.record = none → v.receipts = []
  live : ∀ r, v.record = some r → r.Live → ∀ rc ∈ v.receipts, rc.settles = none
  unique : ∀ rc ∈ v.receipts, ∀ rc' ∈ v.receipts, ∀ k k', rc.settles = some k → rc'.settles = some k' → k = k'
  both : ∀ r, v.record = some r → r.clientApproved = true → r.freelancerApproved = true →
    ∃ rc ∈ v.receipts, rc.settles = some .approve

section
variable {env : Env} {paused : Bool} {r : EscrowRecord} {call : Call}

theorem payout_ne_nil {contract : Address} : r.payout contract ≠ [] := by simp [EscrowRecord.payout]

theorem settles_of_live (hlive : (call.change env r).record.Live) :
    (env.receipt call (call.change env r)).settles = none := by
  have hnot := hlive.not_closed
  cases call with
  | release | refund | claimExpired =>
    exact absurd (.inl (by simp [Call.change, EscrowRecord.Settled])) hnot
  | approveRelease id a =>
    simp only [Receipt.settles, Env.receipt]
    simp only [Call.change] at hnot ⊢
    split
    · rename_i hb
      rw [if_pos hb] at hnot
      exact absurd (.inl (.inl rfl)) hnot
    · rfl
  | _ => rfl

theorem settles_of_both (hprog : r.ProgressOk) (ha : call.Admits env paused r)
    (hc : (call.change env r).record.clientApproved = true)
    (hf : (call.change env r).record.freelancerApproved = true) :
    (env.receipt call (call.change env r)).settles = some .approve := by
  have hkept : ¬ (r.clientApproved = true ∧ r.freelancerApproved = true) := by
    intro ⟨h1, h2⟩
    have := hprog.both_approved h1 h2
    exact ha.live.not_closed (.inl (.inl this))
  cases call with
  | initializeContract | setFee | setPaused | transferAdmin | initEscrow => exact ha.elim
  | raiseDispute => cases hc
  | resolveDispute _ b => cases b <;> exact absurd ⟨hc, hf⟩ hkept
  | approveRelease id a =>
    simp only [Receipt.settles, Env.receipt]
    simp only [Call.change] at hc hf ⊢
    split
    · exact if_neg payout_ne_nil
    · rename_i hb
      rw [if_neg hb] at hc hf
      exact absurd ⟨hc, hf⟩ hb
  | fund | activate | release | refund | cancel | completeMilestone | claimExpired =>
    exact absurd ⟨hc, hf⟩ hkept

end

theorem View.SettledOnce.move {contract : Address} {id : Bytes} {l : Ledger} {v v' : View}
    (hm : View.Moves contract id l v v') (h : v.SettledOnce) : v'.SettledOnce := by
  cases hm with
  | @create signers call r rcs hc hr =>
    obtain rfl := h.absent rfl
    have hnone : ∀ rc ∈ [(l.env contract signers).receipt call
        ⟨r, [], [.initialized id r.client r.freelancer r.amount]⟩], rc.settles = none := by
      intro rc hrc
      obtain ⟨_, _, _, _, -, hcall⟩ := hc.call_eq
      rw [List.mem_singleton.mp hrc, hcall]; rfl
    refine ⟨fun h => by simp at h, fun _ _ _ => hnone, fun rc hrc _ _ k _ hk => ?_, ?_⟩
    · rw [hnone rc hrc] at hk; cases hk
    · intro r' hr' h1
      cases hr'
      rw [hc.no_client_approval] at h1; cases h1
  | @update signers call r rcs hid hr ha =>
    have hold := h.live r rfl ha.live
    refine ⟨fun h => by simp at h, ?_, ?_, ?_⟩
    · intro r' hr' hlive rc hrc
      cases hr'
      rcases List.mem_append.mp hrc with hrc | hrc
      · exact hold rc hrc
      · rw [List.mem_singleton.mp hrc]; exact settles_of_live hlive
    · have hlast :
        ∀ rc ∈ rcs ++ [(l.env contract signers).receipt call (call.change (l.env contract signers) r)],
          ∀ k, rc.settles = some k →
            ((l.env contract signers).receipt call (call.change (l.env contract signers) r)).settles =
              some k := by
        intro rc hrc k hk
        rcases List.mem_append.mp hrc with hrc | hrc
        · rw [hold rc hrc] at hk; cases hk
        · rw [← List.mem_singleton.mp hrc]; exact hk
      intro rc hrc rc' hrc' k k' hk hk'
      exact Option.some.inj ((hlast rc hrc k hk).symm.trans (hlast rc' hrc' k' hk'))
    · intro r' hr' hc hf
      cases hr'
      exact ⟨_, List.mem_append_right _ (List.mem_singleton_self _), settles_of_both hr.toProgressOk ha hc hf⟩

namespace Ledger

def SettledAs (id : Bytes) (k : SettleKind) (l : Ledger) : Prop :=
  ∃ rc ∈ receiptsOf id l.history, rc.settles = some k

variable {contract : Address} {l l' : Ledger} {id : Bytes} {k k' : SettleKind}

theorem Reachable.settledOnce (hl : l.Reachable contract) (id : Bytes) : (l.view id).SettledOnce :=
  view_inv (fun v => v.SettledOnce)
    ⟨fun _ => rfl, fun _ h => (nomatch h), fun _ h => (nomatch h), fun _ h => (nomatch h)⟩
    (fun _ _ _ _ hm h => h.move hm) hl

theorem SettledAs.unique (hl : l.Reachable contract) (h : l.SettledAs id k) (h' : l.SettledAs id k') :
    k = k' := by
  obtain ⟨rc, hrc, hk⟩ := h
  obtain ⟨rc', hrc', hk'⟩ := h'
  exact (hl.settledOnce id).unique rc hrc rc' hrc' k k' hk hk'

theorem SettledAs.mono (h : l.SettledAs id k) (hp : l.history <+: l'.history) : l'.SettledAs id k := by
  obtain ⟨rc, hrc, hk⟩ := h
  obtain ⟨es, he⟩ := hp
  exact ⟨rc, by rw [← he, receiptsOf_append]; exact List.mem_append_left _ hrc, hk⟩

theorem settledAs_commit {signers : List Address} {call : Call} {h : Host} (hid : call.escrowId? = some id)
    (hk : Receipt.settles ⟨call, signers, l.sequence, h.transfers, h.events⟩ = some k) :
    (l.commit signers call h).SettledAs id k := by
  refine ⟨_, ?_, hk⟩
  rw [commit, receiptsOf_append, receiptsOf_call, if_pos hid]
  exact List.mem_append_right _ (List.mem_singleton_self _)

end Ledger

/-! ## The ledger only grows -/

theorem Ledger.history_step (contract : Address) (l : Ledger) (a : Action) :
    l.history <+: (Ledger.step contract l a).history := by
  cases a with
  | advance n => exact List.prefix_rfl
  | outside t =>
    rcases Ledger.outside_cases contract l t with ⟨-, -, -, h⟩ | h
    · rw [Ledger.step, h]; exact List.prefix_append _ _
    · rw [Ledger.step, h]
  | invoke signers call =>
    rcases Ledger.invoke_cases contract l signers call with ⟨h, -, he⟩ | he
    · rw [Ledger.step, he]; exact List.prefix_append _ _
    · rw [Ledger.step, he]

/-- What the others may do to the ledger while a handler runs. -/
structure World.Later (contract : Address) (w w' : World) : Prop where
  reachable : w.ledger.Reachable contract → w'.ledger.Reachable contract
  history : w.ledger.history <+: w'.ledger.history

theorem World.Same.later {contract : Address} {w w' : World} (h : w.Same w') : w.Later contract w' :=
  ⟨fun hr => by rw [h.ledger]; exact hr, by rw [h.ledger]⟩

theorem World.later_of_step {contract : Address} {w w' : World} {a : Action}
    (h : w'.ledger = Ledger.step contract w.ledger a) : w.Later contract w' :=
  ⟨fun hr => by rw [h]; exact Ledger.reachable_run hr [a], by rw [h]; exact Ledger.history_step _ _ _⟩

theorem World.request_ledger (w : World) (r : Request) : (w.request r).ledger = w.ledger := by
  unfold World.request; split <;> rfl

theorem World.request_commits (w : World) (r : Request) : (w.request r).commits = w.commits := by
  unfold World.request; split <;> rfl

theorem platform_evolves (s : Stellar) : Prog.Evolves (platform s) (World.Later s.contract) where
  refl w := (World.Same.refl w).later
  trans h h' := ⟨fun hr => h'.reachable (h.reachable hr), h.history.trans h'.history⟩
  perform w o := by
    rcases World.perform_cases s w o with h | ⟨tx, -, h⟩ | ⟨m, args, ss, call, -, -, h⟩
    · exact h.later
    · exact ⟨fun hr => by rw [show ((platform s).perform w o).1.ledger = w.ledger from h.ledger]; exact hr,
        by rw [show ((platform s).perform w o).1.ledger = w.ledger from h.ledger]⟩
    · exact World.later_of_step h.step
  env w i := by
    cases i with
    | ledger a => exact World.later_of_step rfl
    | request r =>
      have h := w.request_ledger r
      exact ⟨fun hr => by rw [show ((platform s).env w (.request r)).ledger = w.ledger from h]; exact hr,
        by rw [show ((platform s).env w (.request r)).ledger = w.ledger from h]⟩

/-! ## Credits follow settlements -/

/-- A commit that credits is made when the ledger already shows the settlement. -/
def World.Backed (w : World) : Op → Prop
  | .transact tx => ∀ k, tx.settles = some k → w.ledger.SettledAs tx.escrowId.bytes k
  | _ => True

abbrev Handler.Backed {α : Type} (s : Stellar) (p : Handler α) (w : World) : Prop :=
  Prog.Safe (platform s) (World.Later s.contract) World.Backed p w

section
variable {s : Stellar} {w : World} {α β : Type}

theorem backed_of_read (w : World) (o : Op) (h : o.NoCommit) : w.Backed o := by
  cases o with
  | transact tx => exact h.elim
  | _ => trivial

theorem backed_invoke {method : String} {args : List ScVal} {signers : List Address} {call : Call} {id : Uuid}
    {f : TxHash → Handler β} (hd : dispatch method args = some call) (hid : call.escrowId? = some id.bytes)
    (hf : ∀ hash w', w.Later s.contract w' →
    (∀ k, (∀ ss n ts es, Receipt.settles ⟨call, ss, n, ts, es⟩ = some k) →
      w'.ledger.SettledAs id.bytes k) → (f hash).Backed s w') :
    (s.invoke method args signers >>= f).Backed s w := by
  refine Prog.safe_call_bind (fun _ _ => trivial) fun w' hash h hr => ?_
  refine hf hash _ ((platform_evolves s).trans h ((platform_evolves s).perform w' _)) fun k hk => ?_
  obtain ⟨hc, -⟩ := World.submit_ok hd hr
  obtain ⟨host, -, hl⟩ := hc.ledger
  change (w'.submit s method args (s.adminKey :: signers)).1.ledger.SettledAs id.bytes k
  rw [hl]
  exact Ledger.settledAs_commit hid (hk _ _ _ _)

theorem World.Backed.transact {tx : DbTx} {w : World} (h : tx.settles = none) : w.Backed (.transact tx) := by
  intro k hk
  rw [h] at hk; cases hk

/-! ### The handlers -/

theorem backed_fundEscrow (id : Uuid) (clientId : UserId) (amount : Int) :
    (Worker.fundEscrow s id clientId amount).Backed s w := by
  refine Prog.safe_tryCatch (platform_evolves s) ?_ fun e w _ => ?_
  · refine Prog.safe_bind (platform_evolves s)
      (safe_readFundingInput (platform_evolves s) backed_of_read id clientId) fun input w _ => ?_
    refine Prog.safe_bind (platform_evolves s)
      (safe_initIfNeeded (platform_evolves s) backed_of_read id input amount) fun _ w _ => ?_
    refine backed_invoke dispatch_fund rfl fun hash w _ _ => ?_
    refine safe_perform (platform_evolves s) (fun _ _ => .transact rfl) fun _ w _ => ?_
    exact safe_fireWebhook (platform_evolves s) backed_of_read _ _ _
  · refine Prog.safe_bind (platform_evolves s) ?_ fun _ _ _ => trivial
    refine safe_perform (platform_evolves s) (fun _ _ => .transact rfl) fun _ w _ => ?_
    refine safe_read (platform_evolves s) backed_of_read trivial fun escrow w _ => ?_
    cases escrow with
    | none => trivial
    | some e => exact Prog.safe_call fun _ _ => .transact rfl

theorem backed_releaseEscrow (id : Uuid) (clientId : UserId) :
    (Worker.releaseEscrow s id clientId).Backed s w := by
  refine safe_read (platform_evolves s) backed_of_read trivial fun found w _ => ?_
  refine safe_read (platform_evolves s) backed_of_read trivial fun client w _ => ?_
  refine safe_orThrow fun escrow _ => safe_secretOf (platform_evolves s) fun key w _ => ?_
  -- the call is never dispatched, so nothing after it runs
  refine Prog.safe_call_bind (fun _ _ => trivial) fun w' hash _ hr => ?_
  change (w'.submit s "release" _ _).2 = _ at hr
  simp only [World.submit, dispatch_release] at hr
  cases hr

theorem backed_refundEscrow (id : Uuid) (adminId : UserId) (reason : String) :
    (Worker.refundEscrow s id adminId reason).Backed s w := by
  refine safe_read (platform_evolves s) backed_of_read trivial fun found w _ => safe_orThrow fun escrow _ => ?_
  refine backed_invoke dispatch_refund rfl fun hash w _ hs => ?_
  refine safe_perform (platform_evolves s) (fun w' hw k hk => ?_) fun _ w _ =>
    safe_fireWebhook (platform_evolves s) backed_of_read _ _ _
  cases hk
  exact (hs .refund fun _ _ _ _ => rfl).mono hw.history

theorem backed_claimExpired (id : Uuid) (triggeredBy : Option UserId) :
    (Worker.claimExpired s id triggeredBy).Backed s w := by
  refine safe_read (platform_evolves s) backed_of_read trivial fun found w _ => safe_orThrow fun escrow _ => ?_
  refine backed_invoke dispatch_expire rfl fun hash w _ hs => ?_
  refine safe_perform (platform_evolves s) (fun w' hw k hk => ?_) fun _ w _ =>
    safe_fireWebhook (platform_evolves s) backed_of_read _ _ _
  cases hk
  exact (hs .expire fun _ _ _ _ => rfl).mono hw.history

theorem backed_completeMilestone (id : Uuid) (freelancerId : UserId) :
    (Worker.completeMilestone s id freelancerId).Backed s w := by
  refine safe_read (platform_evolves s) backed_of_read trivial fun found w _ => ?_
  refine safe_read (platform_evolves s) backed_of_read trivial fun client w _ => ?_
  refine safe_orThrow fun escrow _ => safe_secretOf (platform_evolves s) fun key w _ => ?_
  refine backed_invoke dispatch_milestone rfl fun hash w _ _ => ?_
  refine safe_read (platform_evolves s) backed_of_read trivial fun onChain w _ => ?_
  exact safe_perform (platform_evolves s) (fun _ _ => .transact rfl) fun _ w _ =>
    safe_fireWebhook (platform_evolves s) backed_of_read _ _ _

theorem settledAs_of_both {contract : Address} {l : Ledger} {id : Bytes} {r : EscrowRecord}
    (hl : l.Reachable contract) (hr : l.storage.escrows.lookup id = some r)
    (hb : (r.clientApproved && r.freelancerApproved) = true) : l.SettledAs id .approve := by
  simp only [Bool.and_eq_true] at hb
  exact (hl.settledOnce id).both r hr hb.1 hb.2

theorem backed_approveRelease (hw : w.ledger.Reachable s.contract) (id : Uuid) (approverId : UserId)
    (role : ApproverRole) : (Worker.approveRelease s id approverId role).Backed s w := by
  refine safe_read (platform_evolves s) backed_of_read trivial fun found w₁ h₁ => ?_
  refine safe_read (platform_evolves s) backed_of_read trivial fun approver w₂ h₂ => ?_
  refine safe_orThrow fun escrow _ => safe_secretOf (platform_evolves s) fun key w₃ h₃ => ?_
  refine backed_invoke dispatch_approve rfl fun hash w₄ h₄ _ => ?_
  have hw₄ := h₄.reachable (h₃.reachable (h₂.reachable (h₁.reachable hw)))
  refine Prog.safe_call_bind (fun _ _ => trivial) fun w₅ onChain h₅ hr => ?_
  refine safe_perform (platform_evolves s) (fun w₆ h₆ k hk => ?_) fun _ w _ => ?_
  · simp only [DbTx.settles] at hk
    split at hk
    · rename_i hb
      cases hk
      refine Ledger.SettledAs.mono ?_ h₆.history
      have hrec : w₅.ledger.storage.escrows.lookup id.bytes = some onChain := (World.simulate_ok (s := s)).mp hr
      exact settledAs_of_both (h₅.reachable hw₄) hrec hb
    · cases hk
  · split
    · exact safe_fireWebhook (platform_evolves s) backed_of_read _ _ _
    · trivial

theorem backed_process (hw : w.ledger.Reachable s.contract) (j : Job) : (Worker.process s j).Backed s w := by
  cases j with
  | fundEscrow => exact backed_fundEscrow _ _ _
  | releaseEscrow => exact backed_releaseEscrow _ _
  | refundEscrow => exact backed_refundEscrow _ _ _
  | approveRelease => exact backed_approveRelease hw _ _ _
  | completeMilestone => exact backed_completeMilestone _ _
  | claimExpired => exact backed_claimExpired _ _

end

/-! ## At most one credit -/

/-- The commit credits an available amount for the settlement of `id`. -/
def DbTx.Credits (id : Uuid) (tx : DbTx) : Prop := tx.escrowId = id ∧ tx.settles ≠ none

instance (id : Uuid) (tx : DbTx) : Decidable (tx.Credits id) := inferInstanceAs (Decidable (_ ∧ _))

def World.creditsOf (id : Uuid) (w : World) : List DbTx := w.commits.filter (·.Credits id)

structure World.CreditsOk (contract : Address) (w : World) : Prop where
  reachable : w.ledger.Reachable contract
  backed : ∀ tx ∈ w.commits, ∀ k, tx.settles = some k → w.ledger.SettledAs tx.escrowId.bytes k
  keyed : ∀ tx ∈ w.commits, ∀ key ∈ tx.key, (w.db.transactions.lookup key).isSome
  once : ∀ id, (w.creditsOf id).length ≤ 1

theorem World.CreditsOk.later {contract : Address} {w w' : World} (h : w.CreditsOk contract)
    (hl : w.Later contract w') (hc : w'.commits = w.commits)
    (hk : ∀ key, (w.db.transactions.lookup key).isSome → (w'.db.transactions.lookup key).isSome) :
    w'.CreditsOk contract where
  reachable := hl.reachable h.reachable
  backed tx htx k hs := (h.backed tx (hc ▸ htx) k hs).mono hl.history
  keyed tx htx key hkey := hk key (h.keyed tx (hc ▸ htx) key hkey)
  once id := by rw [creditsOf, hc]; exact h.once id

/-- The key of a second credit would be taken, since a settled escrow is settled in one way. -/
theorem World.CreditsOk.commit {contract : Address} {w w' : World} {tx : DbTx} (h : w.CreditsOk contract)
    (hc : w.Committed tx w') (hb : w.Backed (.transact tx)) : w'.CreditsOk contract := by
  have happ := (DbTx.apply_ok hc.db).1
  have hmem : ∀ tx' ∈ w'.commits, tx' ∈ w.commits ∨ tx' = tx := by
    intro tx' h'
    rw [hc.commits] at h'
    simpa using h'
  refine ⟨by rw [hc.ledger]; exact h.reachable, fun tx' htx' k hk => ?_,
    fun tx' htx' key hkey => ?_, fun id => ?_⟩
  · rw [hc.ledger]
    rcases hmem tx' htx' with h' | rfl
    · exact h.backed tx' h' k hk
    · exact hb k hk
  · rw [happ.keys key]
    rcases hmem tx' htx' with h' | rfl
    · exact .inl (h.keyed tx' h' key hkey)
    · exact .inr hkey
  · rw [creditsOf, hc.commits, List.filter_append, List.length_append]
    by_cases hid : tx.Credits id
    · have hnone : w.commits.filter (·.Credits id) = [] := by
        rw [List.filter_eq_nil_iff]
        intro tx' h' hcr
        have hcr : tx'.Credits id := of_decide_eq_true hcr
        obtain ⟨k, hk⟩ := Option.ne_none_iff_exists'.mp hid.2
        obtain ⟨k', hk'⟩ := Option.ne_none_iff_exists'.mp hcr.2
        have he : tx'.escrowId = tx.escrowId := hcr.1.trans hid.1.symm
        have hb' := h.backed tx' h' k' hk'
        rw [he] at hb'
        obtain rfl := (hb k hk).unique h.reachable hb'
        have hkey := h.keyed tx' h' _ (DbTx.key_of_settles hk')
        rw [he, happ.fresh _ (DbTx.key_of_settles hk)] at hkey
        cases hkey
      rw [hnone, List.length_nil, Nat.zero_add]
      exact List.length_filter_le _ [tx]
    · have : [tx].filter (·.Credits id) = [] := by simp [hid]
      rw [this]
      exact h.once id

/-- However workers, retries, crashes, unreported calls, requests and the rest
of the ledger interleave, an escrow is credited at most once. -/
theorem credits_at_most_once {s : Stellar} {w : World} (hl : w.ledger.Reachable s.contract)
    (hw : w.commits = []) (as : List (PoolAction Job EnvAction WorkerError)) (id : Uuid) :
    ((run (Pool.step (platform s) (Worker.process s)) ⟨w, []⟩ as).world.creditsOf id).length ≤ 1 := by
  have h0 : w.CreditsOk s.contract := by
    refine ⟨hl, ?_, ?_, fun id => ?_⟩
    · rw [hw]; exact fun _ h => nomatch h
    · rw [hw]; exact fun _ h => nomatch h
    · rw [World.creditsOf, hw]; exact Nat.zero_le _
  suffices h :
    (run (Pool.step (platform s) (Worker.process s)) ⟨w, []⟩ as).world.CreditsOk s.contract from h.once id
  refine pool_inv (platform_evolves s) (World.CreditsOk s.contract) (fun j w h => backed_process h.reachable j)
    ?_ ?_ h0 as
  · intro w i h
    have hlater := (platform_evolves s).env w i
    cases i with
    | ledger a => exact h.later hlater rfl fun _ hk => hk
    | request r =>
      exact h.later hlater (w.request_commits r) fun key hk =>
        World.request_db (fun db => (db.transactions.lookup key).isSome) hk fun _ _ hserved => hserved.keys hk
  · intro w o h hb
    have hlater := (platform_evolves s).perform w o
    rcases World.perform_cases s w o with hs | ⟨tx, rfl, hc⟩ | ⟨m, args, ss, call, rfl, -, hc⟩
    · exact h.later hlater hs.commits fun key hk => by
        change ((w.perform s o).1.db.transactions.lookup key).isSome
        rw [hs.db]; exact hk
    · exact h.commit hc hb
    · exact h.later hlater hc.commits fun key hk => by
        change ((w.perform s _).1.db.transactions.lookup key).isSome
        rw [hc.db]; exact hk

/-- After creation and funding two refunds race; the commit of the first goes unreported. -/
def sampleRace : List (PoolAction Job EnvAction WorkerError) :=
  [.env (.request (.createEscrow "client" sampleDto "key" sampleId)),
    .spawn (.fundEscrow sampleId "client" 1000)] ++
    List.replicate 8 (.step 0 .none) ++
    [.spawn (.refundEscrow sampleId "admin" ""), .spawn (.refundEscrow sampleId "admin" ""), .step 1 .none,
      .step 2 .none, .step 1 .none, .step 1 (.late .infrastructure), .step 2 .none]

theorem sample_credited_once :
    ((run (Pool.step (platform sampleStellar) (Worker.process sampleStellar)) ⟨sampleWorld, []⟩
      sampleRace).world.creditsOf sampleId).length ≤ 1 :=
  credits_at_most_once sampleWorld_reachable rfl _ _

end NexusHub
