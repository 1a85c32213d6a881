import NexusHub.Effects
import NexusHub.Requests

/-!
# What an attempt of a job comes to

A job that acts on a funded escrow follows a plan: one call, then one
transaction. Beside an environment that keeps its hands off the escrow (`K`),
and with faults of its own operations or without (`F`), an attempt stops before
the call, between the two, or after both. A funding attempt has an
initialisation before its call and a compensation behind every failure.
-/

namespace NexusHub

/-! ## Environments -/

/-- What an environment with its hands off an escrow may do. -/
structure Frame (contract : Address) (id : Uuid) (K : World → World → Prop) : Prop where
  same : ∀ {w w'}, w.Same w' → K w w'
  trans : ∀ {w w' w''}, K w w' → K w' w'' → K w w''
  row : ∀ {w w'}, K w w' → w'.db.escrows.lookup id = w.db.escrows.lookup id
  users : ∀ {w w'}, K w w' → w'.db.users = w.db.users
  record : ∀ {w w'}, K w w' →
    w'.ledger.storage.escrows.lookup id.bytes = w.ledger.storage.escrows.lookup id.bytes
  reachable : ∀ {w w'}, K w w' → w.ledger.Reachable contract → w'.ledger.Reachable contract

theorem Frame.refl {contract : Address} {id : Uuid} {K : World → World → Prop} (hK : Frame contract id K)
    (w : World) : K w w := hK.same (.refl w)

theorem Frame.quiet (contract : Address) (id : Uuid) : Frame contract id World.Same where
  same h := h
  trans h h' := h.trans h'
  row h := by rw [h.db]
  users h := by rw [h.db]
  record h := by rw [h.ledger]
  reachable h hw := by rw [h.ledger]; exact hw

/-- `R` happens once while the environment keeps to `K`. -/
def Amid (K R : World → World → Prop) (w w' : World) : Prop := ∃ w₁ w₂, K w w₁ ∧ R w₁ w₂ ∧ K w₂ w'

section
variable {contract : Address} {id : Uuid} {K R : World → World → Prop} {w w' w'' : World}

theorem Frame.amid (hK : Frame contract id K) (h : K w w') (hr : R w' w'') : Amid K R w w'' :=
  ⟨w', w'', h, hr, hK.refl w''⟩

theorem Frame.amid_then (hK : Frame contract id K) (h : Amid K R w w') (h' : K w' w'') : Amid K R w w'' := by
  obtain ⟨w₁, w₂, h₁, hr, h₂⟩ := h
  exact ⟨w₁, w₂, h₁, hr, hK.trans h₂ h'⟩

theorem Amid.called {signers : List Address} {call : Call}
    (h : Amid World.Same (World.Called contract signers call) w w') : w.Called contract signers call w' := by
  obtain ⟨w₁, w₂, h₁, hc, h₂⟩ := h
  have hc := hc.then_same h₂
  exact ⟨by rw [← h₁.ledger]; exact hc.ledger, hc.db.trans h₁.db, hc.jobs.trans h₁.jobs,
    hc.commits.trans h₁.commits⟩

theorem Amid.committed {tx : DbTx} (h : Amid World.Same (World.Committed tx) w w') : w.Committed tx w' := by
  obtain ⟨w₁, w₂, h₁, hc, h₂⟩ := h
  have hc := hc.then_same h₂
  exact ⟨by rw [← h₁.db]; exact hc.db, hc.ledger.trans h₁.ledger, hc.jobs.trans h₁.jobs,
    by rw [← h₁.commits]; exact hc.commits⟩

end

/-! ## Rules for attempts -/

def Outcome.Failed {ε α : Type} (out : Outcome ε α) : Prop := ∀ a, out ≠ .returned a

abbrev Handler.Ends {α : Type} (s : Stellar) (K : World → World → Prop) (F : Prop)
    (Q : World → Outcome WorkerError α → Prop) (p : Handler α) (w : World) : Prop :=
  Prog.Always (platform s) (.beside (platform s) K F) Q p w

theorem failed_threw {α : Type} {e : WorkerError} : (.threw e : Outcome WorkerError α).Failed := nofun

theorem failed_crashed {α : Type} : (.crashed : Outcome WorkerError α).Failed := nofun

section
variable {s : Stellar} {id : Uuid} {K : World → World → Prop} {F : Prop} {w : World} {α β : Type}
  {Q : World → Outcome WorkerError β → Prop}

theorem ends_throw {e : WorkerError} (h : ∀ out, out.Failed → Q w out) : (throw e : Handler β).Ends s K F Q w :=
  Prog.always_throw (h _ failed_threw) fun _ => h _ failed_crashed

theorem ends_pure {b : β} (h : Q w (.returned b)) (hF : F → Q w .crashed) :
    (pure b : Handler β).Ends s K F Q w :=
  Prog.always_pure h fun hc => hF (hc.resolve_left nofun)

theorem ends_orThrow {x : Option α} {e : WorkerError} {f : α → Handler β}
    (hnone : x = none → ∀ out, out.Failed → Q w out) (h : ∀ a, x = some a → (f a).Ends s K F Q w) :
    (orThrow x e >>= f).Ends s K F Q w := by
  cases x with
  | none => exact ends_throw (hnone rfl)
  | some a => exact h a rfl

theorem continues_failed {f : α → Handler β} (h : ∀ out, out.Failed → Q w out) :
    ∀ out : Outcome WorkerError α, out.Failed →
      Prog.Continues (platform s) (.beside (platform s) K F) Q f .throw w out := by
  intro out ho
  cases out with
  | returned a => exact absurd rfl (ho a)
  | threw e => exact ends_throw h
  | crashed => exact h _ failed_crashed

variable (hK : Frame s.contract id K)
include hK

theorem ends_read {o : Op} {g : World → o.Res} {f : o.Res → Handler β}
    (hr : ∀ w₁ : World, w₁.perform s o = (w₁, .ok (g w₁)))
    (hF : F → ∀ w₁, K w w₁ → ∀ out, out.Failed → Q w₁ out)
    (h : ∀ w₁, K w w₁ → (f (g w₁)).Ends s K F Q w₁) :
    (perform o >>= f).Ends s K F Q w := by
  have hr' (w₁ : World) : (platform s).perform w₁ o = (w₁, .ok (g w₁)) := hr w₁
  refine Prog.beside_call_bind hK.refl hK.trans (fun hf w₁ h₁ out ho => ?_) (fun w₁ _ e he => ?_)
    fun w₁ h₁ r he => ?_
  · rw [hr']; exact ⟨hF hf w₁ h₁ out ho, hF hf w₁ h₁ out ho⟩
  · rw [hr'] at he; cases he
  · rw [hr'] at he ⊢; cases he; exact h w₁ h₁

theorem ends_findEscrow {f : Option Escrow → Handler β} (hF : F → ∀ w₁, K w w₁ → ∀ out, out.Failed → Q w₁ out)
    (h : ∀ w₁, K w w₁ → (f (w.db.escrows.lookup id)).Ends s K F Q w₁) :
    (perform (.findEscrow id) >>= f).Ends s K F Q w := by
  refine ends_read hK (fun _ => rfl) hF fun w₁ h₁ => ?_
  rw [hK.row h₁]
  exact h w₁ h₁

theorem ends_findUser {u : UserId} {f : Option User → Handler β}
    (hF : F → ∀ w₁, K w w₁ → ∀ out, out.Failed → Q w₁ out)
    (h : ∀ w₁, K w w₁ → (f (w.db.users.lookup u)).Ends s K F Q w₁) :
    (perform (.findUser u) >>= f).Ends s K F Q w := by
  refine ends_read hK (fun _ => rfl) hF fun w₁ h₁ => ?_
  rw [hK.users h₁]
  exact h w₁ h₁

/-- A call that dispatches goes through or is refused, and a fault may hide which. -/
theorem ends_invoke {method : String} {args : List ScVal} {signers : List Address} {call : Call}
    {f : TxHash → Handler β} (hd : dispatch method args = some call)
    (hstop : ∀ w₁, K w w₁ → F ∨ ¬ w₁.Accepts s.contract (s.adminKey :: signers) call →
      ∀ out, out.Failed → Q w₁ out)
    (hcalled : F → ∀ w₁, Amid K (World.Called s.contract (s.adminKey :: signers) call) w w₁ →
      ∀ out, out.Failed → Q w₁ out)
    (h : ∀ hash w₁, Amid K (World.Called s.contract (s.adminKey :: signers) call) w w₁ →
    (f hash).Ends s K F Q w₁) : (s.invoke method args signers >>= f).Ends s K F Q w := by
  refine Prog.beside_call_bind hK.refl hK.trans (fun hf w₁ h₁ out ho => ?_) (fun w₁ h₁ e he => ?_)
    fun w₁ h₁ r he => ?_
  · refine ⟨hstop w₁ h₁ (.inl hf) out ho, ?_⟩
    change Q (w₁.submit s method args (s.adminKey :: signers)).1 out
    rcases World.submit_effect s w₁ method args (s.adminKey :: signers) with hs | ⟨call', hd', hc⟩
    · rw [hs]; exact hstop w₁ h₁ (.inl hf) out ho
    · rw [hd] at hd'; cases hd'
      exact hcalled hf _ (hK.amid h₁ hc) out ho
  · obtain ⟨hs, hn⟩ := World.submit_error he
    change Q (w₁.submit s method args (s.adminKey :: signers)).1 _
    rw [hs]
    exact hstop w₁ h₁ (.inr (hn call hd)) _ failed_threw
  · exact h _ _ (hK.amid h₁ (World.submit_ok hd he).1)

theorem ends_transact {tx : DbTx} {f : Unit → Handler β}
    (hstop : ∀ w₁, K w w₁ → (F ∨ ∀ db, tx.apply w₁.db ≠ .ok db) → ∀ out, out.Failed → Q w₁ out)
    (hcommitted : F → ∀ w₁, Amid K (World.Committed tx) w w₁ → ∀ out, out.Failed → Q w₁ out)
    (h : ∀ w₁, Amid K (World.Committed tx) w w₁ → (f ()).Ends s K F Q w₁) :
    (perform (.transact tx) >>= f).Ends s K F Q w := by
  refine Prog.beside_call_bind hK.refl hK.trans (fun hf w₁ h₁ out ho => ?_) (fun w₁ h₁ e he => ?_)
    fun w₁ h₁ r he => ?_
  · refine ⟨hstop w₁ h₁ (.inl hf) out ho, ?_⟩
    change Q (w₁.transact tx).1 out
    rcases World.transact_effect w₁ tx with hs | hc
    · rw [hs]; exact hstop w₁ h₁ (.inl hf) out ho
    · exact hcommitted hf _ (hK.amid h₁ hc) out ho
  · obtain ⟨hs, hn⟩ := World.transact_error he
    change Q (w₁.transact tx).1 _
    rw [hs]
    exact hstop w₁ h₁ (.inr hn) _ failed_threw
  · exact h _ (hK.amid h₁ (World.transact_ok he))

omit hK in
theorem perform_last (o : Op) : perform o = perform o >>= pure := by
  change Prog.call o = (Prog.call o).bind Prog.pure
  unfold Prog.call
  simp only [Prog.bind]
  congr 1
  funext r
  cases r <;> rfl

theorem ends_last_findUser {u : UserId} {Q : World → Outcome WorkerError (Option User) → Prop}
    (hF : F → ∀ w₁, K w w₁ → ∀ out, out.Failed → Q w₁ out)
    (h : ∀ w₁, K w w₁ → Q w₁ (.returned (w.db.users.lookup u))) : (perform (.findUser u)).Ends s K F Q w := by
  rw [perform_last]
  exact ends_findUser hK hF fun w₁ h₁ => ends_pure (h w₁ h₁) fun hf => hF hf w₁ h₁ _ failed_crashed

theorem ends_last_transact {tx : DbTx} {Q : World → Outcome WorkerError Unit → Prop}
    (hstop : ∀ w₁, K w w₁ → (F ∨ ∀ db, tx.apply w₁.db ≠ .ok db) → ∀ out, Q w₁ out)
    (hcommitted : ∀ w₁, Amid K (World.Committed tx) w w₁ → ∀ out, Q w₁ out) :
    (perform (.transact tx)).Ends s K F Q w := by
  rw [perform_last]
  exact ends_transact hK (fun w₁ h₁ why out _ => hstop w₁ h₁ why out)
    (fun _ w₁ h₁ out _ => hcommitted w₁ h₁ out) fun w₁ h₁ => ends_pure (hcommitted w₁ h₁ _) fun _ =>
      hcommitted w₁ h₁ _

theorem ends_deliver {o : Op} {f : o.Res → Handler β} (hq : o.Quiet)
    (hok : ∀ (w₁ : World) e, (w₁.perform s o).2 ≠ .error e)
    (hF : F → ∀ w₁, K w w₁ → ∀ out, out.Failed → Q w₁ out)
    (h : ∀ r w₁, K w w₁ → (f r).Ends s K F Q w₁) :
    (perform o >>= f).Ends s K F Q w := by
  have hsame (w₁ : World) (h₁ : K w w₁) : K w (w₁.perform s o).1 :=
    hK.trans h₁ (hK.same (World.perform_quiet hq))
  refine Prog.beside_call_bind hK.refl hK.trans (fun hf w₁ h₁ out ho => ?_)
    (fun w₁ _ e he => absurd he (hok w₁ e)) fun w₁ h₁ r _ => h r _ (hsame w₁ h₁)
  exact ⟨hF hf w₁ h₁ out ho, hF hf _ (hsame w₁ h₁) out ho⟩

theorem ends_fireWebhook {Q : World → Outcome WorkerError Unit → Prop} (event : WebhookEvent) (userId : UserId)
    (payload : WebhookPayload) (h : ∀ w₁, K w w₁ → Q w₁ (.returned ()))
    (hF : F → ∀ w₁, K w w₁ → ∀ out, out.Failed → Q w₁ out) :
    (Worker.fireWebhook event userId payload).Ends s K F Q w := by
  refine ends_deliver hK trivial (fun _ _ => nofun) hF fun endpoints w₁ h₁ => ?_
  have hdeliver : ∀ (es : List WebhookEndpoint) (w₁ : World), K w w₁ →
      (Worker.deliverTo event payload es).Ends s K F Q w₁ := by
    intro es
    induction es with
    | nil => exact fun w₁ h₁ => ends_pure (h w₁ h₁) fun hf => hF hf w₁ h₁ _ failed_crashed
    | cons e es ih =>
      intro w₁ h₁
      refine ends_deliver hK trivial (fun _ _ => nofun) (fun hf w₂ h₂ => hF hf w₂ (hK.trans h₁ h₂))
        fun _ w₂ h₂ => ?_
      have h₂ := hK.trans h₁ h₂
      refine ends_deliver hK trivial (fun _ _ => nofun) (fun hf w₃ h₃ => hF hf w₃ (hK.trans h₂ h₃))
        fun _ w₃ h₃ => ?_
      exact ih w₃ (hK.trans h₂ h₃)
  exact hdeliver endpoints w₁ h₁

end

/-! ## Plans -/

/-- What a job on a funded escrow is about to do, from the rows it reads. `tx`
takes the record as it is after the call, and the hash of the call. -/
structure Plan where
  signers : List Address
  call : Call
  tx : EscrowRecord → TxHash → DbTx

def World.contractRow (w : World) (id : Uuid) : Option Escrow :=
  (w.db.escrows.lookup id).filter (·.stellarContractId.isSome)

theorem World.contractRow_eq_some {w : World} {id : Uuid} {e : Escrow} :
    w.contractRow id = some e ↔ w.db.escrows.lookup id = some e ∧ e.stellarContractId.isSome := by
  simp [contractRow, Option.filter_eq_some_iff]

def World.keyOf (s : Stellar) (w : World) (userId : UserId) : Option Address :=
  ((w.db.users.lookup userId).bind (·.stellarSecretEncrypted)).bind s.keypairOf

/-- A release has no plan: its call is never dispatched. -/
def Job.plan (s : Stellar) (w : World) : Job → Option Plan
  | fundEscrow .. | releaseEscrow .. => none
  | refundEscrow id adminId reason => (w.contractRow id).map fun e =>
    ⟨[s.adminKey], .refund id.bytes, fun _ txHash => .refund id e adminId reason txHash⟩
  | approveRelease id approverId role => (w.contractRow id).bind fun e => (w.keyOf s approverId).map fun key =>
    ⟨[s.adminKey, key], .approveRelease id.bytes key, fun r txHash =>
      .approve id e approverId role r.clientApproved r.freelancerApproved txHash⟩
  | completeMilestone id freelancerId =>
    (w.contractRow id).bind fun _ => (w.keyOf s freelancerId).map fun key =>
    ⟨[s.adminKey, key], .completeMilestone id.bytes, fun r txHash =>
      .milestone id freelancerId r.milestonesCompleted txHash⟩
  | claimExpired id triggeredBy => (w.contractRow id).map fun e =>
    ⟨[s.adminKey], .claimExpired id.bytes, fun _ txHash => .expire id e triggeredBy txHash⟩

/-- How far an attempt came with its plan. -/
inductive Attempted (s : Stellar) (K : World → World → Prop) (F : Prop) (id : Uuid) (p : Plan)
    (w w' : World) : Prop where
  | refused (h : K w w') (why : F ∨ ∃ w₁, K w w₁ ∧ ¬ w₁.Accepts s.contract p.signers p.call)
  | called (h : Amid K (World.Called s.contract p.signers p.call) w w')
      (why : F ∨ ∃ r txHash, w'.ledger.storage.escrows.lookup id.bytes = some r ∧
        ∀ db, (p.tx r txHash).apply w'.db ≠ .ok db)
  | committed {w₁ : World} {r : EscrowRecord} {txHash : TxHash}
      (h : Amid K (World.Called s.contract p.signers p.call) w w₁)
      (hr : w₁.ledger.storage.escrows.lookup id.bytes = some r)
      (h' : Amid K (World.Committed (p.tx r txHash)) w₁ w')

def Job.Ended (s : Stellar) (K : World → World → Prop) (F : Prop) (j : Job) (w w' : World) : Prop :=
  match j.plan s w with
  | some p => Attempted s K F j.escrowId p w w'
  | none => K w w'

section
variable {s : Stellar} {K : World → World → Prop} {F : Prop} {w w' : World}

theorem ends_contractRow {id : Uuid} {e : WorkerError} {f : Escrow → Handler Unit} {w₁ : World}
    {Q : World → Outcome WorkerError Unit → Prop} (hnone : w.contractRow id = none → ∀ out, out.Failed →
    Q w₁ out) (h : ∀ e, w.contractRow id = some e → (f e).Ends s K F Q w₁) :
    (orThrow ((w.db.escrows.lookup id).filter (·.stellarContractId.isSome)) e >>= f).Ends s K F Q w₁ :=
  ends_orThrow hnone h

theorem ends_secretOf {u : UserId} {missing : String} {f : Address → Handler Unit} {w₁ : World}
    {Q : World → Outcome WorkerError Unit → Prop} (hnone : w.keyOf s u = none → ∀ out, out.Failed → Q w₁ out)
    (h : ∀ key, w.keyOf s u = some key → (f key).Ends s K F Q w₁) :
    (Worker.secretOf s (w.db.users.lookup u) missing >>= f).Ends s K F Q w₁ := by
  unfold World.keyOf at hnone h
  unfold Worker.secretOf
  cases hs : (w.db.users.lookup u).bind (·.stellarSecretEncrypted) with
  | none => exact ends_throw (hnone (by rw [hs]; rfl))
  | some secret =>
    rw [hs] at hnone h
    cases hk : s.keypairOf secret with
    | none =>
      have : orThrow (some secret) (.message missing) >>= (fun secret => orThrow (s.keypairOf secret) .badKey) =
          (throw .badKey : Handler Address) := by
        change orThrow (s.keypairOf secret) .badKey = _
        rw [hk]; rfl
      rw [this]
      exact ends_throw (hnone hk)
    | some key =>
      have : orThrow (some secret) (.message missing) >>= (fun secret => orThrow (s.keypairOf secret) .badKey) =
          (pure key : Handler Address) := by
        change orThrow (s.keypairOf secret) .badKey = _
        rw [hk]; rfl
      rw [this]
      exact h key hk

theorem ended_of_plan {j : Job} {p : Plan} (hp : j.plan s w = some p) (h : Attempted s K F j.escrowId p w w') :
    j.Ended s K F w w' := by
  unfold Job.Ended; rw [hp]; exact h

theorem ended_idle {j : Job} (h : K w w') (why : F ∨ j.plan s w = none) : j.Ended s K F w w' := by
  unfold Job.Ended
  split
  · rename_i p hp
    exact .refused h (why.imp_right fun hn => by rw [hp] at hn; cases hn)
  · exact h

theorem release_ends {id : Uuid} (hK : Frame s.contract id K) (clientId : UserId) :
    (Worker.releaseEscrow s id clientId).Ends s K F
      (fun w' _ => (Job.releaseEscrow id clientId).Ended s K F w w') w := by
  have hstop {w₁ : World} (h : K w w₁) : (Job.releaseEscrow id clientId).Ended s K F w w₁ :=
    ended_idle h (.inr rfl)
  refine ends_findEscrow hK (fun _ w₁ h₁ _ _ => hstop h₁) fun w₁ h₁ => ?_
  refine ends_findUser hK (fun _ w₂ h₂ _ _ => hstop (hK.trans h₁ h₂)) fun w₂ h₂ => ?_
  rw [hK.users h₁]
  have h₂ := hK.trans h₁ h₂
  refine ends_contractRow (fun _ _ _ => hstop h₂) fun e _ => ends_secretOf (fun _ _ _ => hstop h₂)
    fun key _ => ?_
  have hsub (w₃ : World) (signers : List Address) : (w₃.submit s "release"
      [.bytes (escrowIdToBytes id.text), .address key, .bytes
        (bufferFromHex (Worker.milestoneHashOf s id e))] signers) =
      (w₃, .error (.callFailed "release")) := by
    rw [World.submit, dispatch_release]
  refine Prog.beside_call_bind hK.refl hK.trans (fun _ w₃ h₃ _ _ => ?_) (fun w₃ h₃ _ _ => ?_)
    fun w₃ h₃ r hr => ?_
  · change _ ∧ Job.Ended s K F _ w (w₃.submit s "release" _ _).1
    rw [hsub]; exact ⟨hstop (hK.trans h₂ h₃), hstop (hK.trans h₂ h₃)⟩
  · change Job.Ended s K F _ w (w₃.submit s "release" _ _).1
    rw [hsub]; exact hstop (hK.trans h₂ h₃)
  · change (w₃.submit s "release" _ _).2 = _ at hr
    rw [hsub] at hr; cases hr

theorem Amid.record {id : Uuid} (hK : Frame s.contract id K) (hw : w.ledger.Reachable s.contract)
    {signers : List Address} {call : Call} (h : Amid K (World.Called s.contract signers call) w w')
    (hid : call.escrowId? = some id.bytes) (hinit : call.isInit = false) :
    w'.ledger.Reachable s.contract ∧ w'.db.escrows.lookup id = w.db.escrows.lookup id ∧
    w'.db.users = w.db.users ∧ ∃ env paused r, w.ledger.storage.escrows.lookup id.bytes = some r ∧
    call.Admits env paused r ∧
      w'.ledger.storage.escrows.lookup id.bytes = some (call.change env r).record := by
  obtain ⟨w₁, w₂, h₁, hc, h₂⟩ := h
  have hw₁ := hK.reachable h₁ hw
  obtain ⟨r, hr, -, ha, hlook⟩ := hc.updates hw₁ hid hinit
  refine ⟨hK.reachable h₂ (hc.reachable hw₁), ?_, ?_, _, _, r, by rw [← hK.record h₁]; exact hr, ha, ?_⟩
  · rw [hK.row h₂, hc.db, hK.row h₁]
  · rw [hK.users h₂, hc.db, hK.users h₁]
  · rw [hK.record h₂, hlook, if_pos rfl]

section
variable {j : Job} {p : Plan} (hK : Frame s.contract j.escrowId K) (hp : j.plan s w = some p)
include hK hp

theorem ends_plan {w₁ w₂ : World} {r : EscrowRecord} {txHash : TxHash}
    (h : Amid K (World.Called s.contract p.signers p.call) w w₁)
    (hr : w₁.ledger.storage.escrows.lookup j.escrowId.bytes = some r) (h₂ : K w₁ w₂) {tail : Handler Unit}
    (htail : (∃ event userId payload, tail = Worker.fireWebhook event userId payload) ∨ tail = pure ()) :
    (perform (.transact (p.tx r txHash)) >>= fun _ => tail).Ends s K F (fun w' _ => j.Ended s K F w w') w₂ := by
  have hcommitted {w₃ : World} (h₃ : Amid K (World.Committed (p.tx r txHash)) w₂ w₃) : j.Ended s K F w w₃ :=
    ended_of_plan hp (.committed (hK.amid_then h h₂) (by rw [hK.record h₂]; exact hr) h₃)
  refine ends_transact hK (fun w₃ h₃ why _ _ => ended_of_plan hp (.called ?_ (why.imp_right fun hn => ?_)))
    (fun _ w₃ h₃ _ _ => hcommitted h₃) fun w₃ h₃ => ?_
  · exact hK.amid_then h (hK.trans h₂ h₃)
  · exact ⟨r, txHash, by rw [hK.record h₃, hK.record h₂]; exact hr, hn⟩
  · rcases htail with ⟨event, userId, payload, rfl⟩ | rfl
    · exact ends_fireWebhook hK _ _ _ (fun w₄ h₄ => hcommitted (hK.amid_then h₃ h₄))
        fun _ w₄ h₄ _ _ => hcommitted (hK.amid_then h₃ h₄)
    · exact ends_pure (hcommitted h₃) fun _ => hcommitted h₃

theorem ends_planned {method : String} {args : List ScVal} {signers : List Address} {w₁ : World}
    {f : TxHash → Handler Unit} (h₁ : K w w₁) (hd : dispatch method args = some p.call)
    (hs : p.signers = s.adminKey :: signers)
    (h : ∀ txHash w₂, Amid K (World.Called s.contract p.signers p.call) w w₂ →
      (f txHash).Ends s K F (fun w' _ => j.Ended s K F w w') w₂) :
    (s.invoke method args signers >>= f).Ends s K F (fun w' _ => j.Ended s K F w w') w₁ := by
  have hamid {w₂ : World} (h₂ : Amid K (World.Called s.contract (s.adminKey :: signers) p.call) w₁ w₂) :
      Amid K (World.Called s.contract p.signers p.call) w w₂ := by
    obtain ⟨w₃, w₄, h₃, hc, h₄⟩ := h₂
    exact ⟨w₃, w₄, hK.trans h₁ h₃, by rw [hs]; exact hc, h₄⟩
  refine ends_invoke hK hd (fun w₂ h₂ why _ _ => ended_of_plan hp (.refused (hK.trans h₁ h₂) ?_))
    (fun hF w₂ h₂ _ _ => ended_of_plan hp (.called (hamid h₂) (.inl hF))) fun txHash w₂ h₂ =>
      h txHash w₂ (hamid h₂)
  exact why.imp_right fun hn => ⟨w₂, hK.trans h₁ h₂, by rw [hs]; exact hn⟩

theorem ends_getEscrowRecord {w₁ : World} {r : EscrowRecord} {f : EscrowRecord → Handler Unit}
    (h : Amid K (World.Called s.contract p.signers p.call) w w₁)
    (hr : w₁.ledger.storage.escrows.lookup j.escrowId.bytes = some r)
    (hf : ∀ w₂, K w₁ w₂ → (f r).Ends s K F (fun w' _ => j.Ended s K F w w') w₂) :
    (Stellar.getEscrowRecord j.escrowId.text >>= f).Ends s K F (fun w' _ => j.Ended s K F w w') w₁ := by
  have hread {w₂ : World} (h₂ : K w₁ w₂) :
      (platform s).perform w₂ (.simulateGetEscrow (escrowIdToBytes j.escrowId.text)) = (w₂, .ok r) :=
    Prod.ext rfl ((@World.simulate_ok s _ _ _).mpr (by rw [hK.record h₂]; exact hr))
  have hstop {w₂ : World} (hF : F) (h₂ : K w₁ w₂) : j.Ended s K F w w₂ :=
    ended_of_plan hp (.called (hK.amid_then h h₂) (.inl hF))
  refine Prog.beside_call_bind hK.refl hK.trans (fun hF w₂ h₂ _ _ => ?_) (fun w₂ h₂ e he => ?_)
    fun w₂ h₂ r' he => ?_
  · rw [hread h₂]; exact ⟨hstop hF h₂, hstop hF h₂⟩
  · rw [hread h₂] at he; cases he
  · rw [hread h₂] at he ⊢; cases he
    exact hf w₂ h₂

end

theorem refund_ends {id : Uuid} (hK : Frame s.contract id K) (hw : w.ledger.Reachable s.contract)
    (adminId : UserId) (reason : String) : (Worker.refundEscrow s id adminId reason).Ends s K F
      (fun w' _ => (Job.refundEscrow id adminId reason).Ended s K F w w') w := by
  refine ends_findEscrow hK (fun hF w₁ h₁ _ _ => ended_idle h₁ (.inl hF)) fun w₁ h₁ => ?_
  refine ends_contractRow (fun hrow _ _ => ended_idle h₁ (.inr (by rw [Job.plan, hrow]; rfl))) fun e hrow => ?_
  have hp : (Job.refundEscrow id adminId reason).plan s w = some
    ⟨[s.adminKey], .refund id.bytes, fun _ txHash =>
      .refund id e adminId reason txHash⟩ := by rw [Job.plan, hrow]; rfl
  refine ends_planned hK hp h₁ dispatch_refund rfl fun txHash w₂ h₂ => ?_
  obtain ⟨-, -, -, _, _, r, -, -, hr⟩ := h₂.record hK hw rfl rfl
  exact ends_plan hK hp h₂ hr (hK.refl w₂) (.inl ⟨_, _, _, rfl⟩)

theorem claim_ends {id : Uuid} (hK : Frame s.contract id K) (hw : w.ledger.Reachable s.contract)
    (triggeredBy : Option UserId) : (Worker.claimExpired s id triggeredBy).Ends s K F
      (fun w' _ => (Job.claimExpired id triggeredBy).Ended s K F w w') w := by
  refine ends_findEscrow hK (fun hF w₁ h₁ _ _ => ended_idle h₁ (.inl hF)) fun w₁ h₁ => ?_
  refine ends_contractRow (fun hrow _ _ => ended_idle h₁ (.inr (by rw [Job.plan, hrow]; rfl))) fun e hrow => ?_
  have hp : (Job.claimExpired id triggeredBy).plan s w = some ⟨[s.adminKey], .claimExpired id.bytes,
      fun _ txHash => .expire id e triggeredBy txHash⟩ := by rw [Job.plan, hrow]; rfl
  refine ends_planned hK hp h₁ dispatch_expire rfl fun txHash w₂ h₂ => ?_
  obtain ⟨-, -, -, _, _, r, -, -, hr⟩ := h₂.record hK hw rfl rfl
  exact ends_plan hK hp h₂ hr (hK.refl w₂) (.inl ⟨_, _, _, rfl⟩)

theorem approve_ends {id : Uuid} (hK : Frame s.contract id K) (hw : w.ledger.Reachable s.contract)
    (approverId : UserId) (role : ApproverRole) : (Worker.approveRelease s id approverId role).Ends s K F
      (fun w' _ => (Job.approveRelease id approverId role).Ended s K F w w') w := by
  refine ends_findEscrow hK (fun hF w₁ h₁ _ _ => ended_idle h₁ (.inl hF)) fun w₁ h₁ => ?_
  refine ends_findUser hK (fun hF w₂ h₂ _ _ => ended_idle (hK.trans h₁ h₂) (.inl hF)) fun w₂ h₂ => ?_
  rw [hK.users h₁]
  have h₂ := hK.trans h₁ h₂
  refine ends_contractRow (fun hrow _ _ => ended_idle h₂ (.inr (by rw [Job.plan, hrow]; rfl))) fun e hrow => ?_
  refine ends_secretOf (fun hkey _ _ => ended_idle h₂ (.inr (by rw [Job.plan, hrow, hkey]; rfl)))
    fun key hkey => ?_
  have hp : (Job.approveRelease id approverId role).plan s w = some ⟨[s.adminKey, key],
      .approveRelease id.bytes key, fun r txHash =>
        .approve id e approverId role r.clientApproved r.freelancerApproved txHash⟩ := by
    rw [Job.plan, hrow, hkey]; rfl
  refine ends_planned hK hp h₂ dispatch_approve rfl fun txHash w₃ h₃ => ?_
  obtain ⟨-, -, -, _, _, r, -, -, hr⟩ := h₃.record hK hw rfl rfl
  refine ends_getEscrowRecord hK hp h₃ hr fun w₄ h₄ => ends_plan hK hp h₃ hr h₄ ?_
  split
  · exact .inl ⟨_, _, _, rfl⟩
  · exact .inr rfl

theorem milestone_ends {id : Uuid} (hK : Frame s.contract id K) (hw : w.ledger.Reachable s.contract)
    (freelancerId : UserId) : (Worker.completeMilestone s id freelancerId).Ends s K F
      (fun w' _ => (Job.completeMilestone id freelancerId).Ended s K F w w') w := by
  refine ends_findEscrow hK (fun hF w₁ h₁ _ _ => ended_idle h₁ (.inl hF)) fun w₁ h₁ => ?_
  refine ends_findUser hK (fun hF w₂ h₂ _ _ => ended_idle (hK.trans h₁ h₂) (.inl hF)) fun w₂ h₂ => ?_
  rw [hK.users h₁]
  have h₂ := hK.trans h₁ h₂
  refine ends_contractRow (fun hrow _ _ => ended_idle h₂ (.inr (by rw [Job.plan, hrow]; rfl))) fun e hrow => ?_
  refine ends_secretOf (fun hkey _ _ => ended_idle h₂ (.inr (by rw [Job.plan, hrow, hkey]; rfl)))
    fun key hkey => ?_
  have hp : (Job.completeMilestone id freelancerId).plan s w = some ⟨[s.adminKey, key],
      .completeMilestone id.bytes, fun r txHash =>
        .milestone id freelancerId r.milestonesCompleted txHash⟩ := by
    rw [Job.plan, hrow, hkey]; rfl
  refine ends_planned hK hp h₂ dispatch_milestone rfl fun txHash w₃ h₃ => ?_
  obtain ⟨-, -, -, _, _, r, -, -, hr⟩ := h₃.record hK hw rfl rfl
  exact ends_getEscrowRecord hK hp h₃ hr fun w₄ h₄ => ends_plan hK hp h₃ hr h₄ (.inl ⟨_, _, _, rfl⟩)

theorem process_ends {j : Job} (hK : Frame s.contract j.escrowId K) (hw : w.ledger.Reachable s.contract)
    (hj : ¬ j.IsFund) : (Worker.process s j).Ends s K F (fun w' _ => j.Ended s K F w w') w := by
  cases j with
  | fundEscrow => exact absurd trivial hj
  | releaseEscrow id u => exact release_ends hK u
  | refundEscrow id u reason => exact refund_ends hK hw u reason
  | approveRelease id u role => exact approve_ends hK hw u role
  | completeMilestone id u => exact milestone_ends hK hw u
  | claimExpired id u => exact claim_ends hK hw u

end

/-! ## Funding -/

def World.fundingInput (s : Stellar) (w : World) (id : Uuid) (clientId : UserId) : Option Worker.FundingInput :=
  (w.db.escrows.lookup id).bind fun e =>
    ((w.db.users.lookup e.freelancerId).bind (·.stellarPublicKey)).bind fun freelancer =>
      (w.keyOf s clientId).map fun key => ⟨e, key, freelancer⟩

theorem World.escrow_of_fundingInput {s : Stellar} {w : World} {id : Uuid} {clientId : UserId}
    {input : Worker.FundingInput} (h : w.fundingInput s id clientId = some input) :
    w.db.escrows.lookup id = some input.escrow := by
  obtain ⟨e, he, h⟩ := Option.bind_eq_some_iff.mp h
  obtain ⟨freelancer, -, h⟩ := Option.bind_eq_some_iff.mp h
  obtain ⟨key, -, rfl⟩ := Option.map_eq_some_iff.mp h
  exact he

/-- The call `initEscrow` makes, when its numbers fit. -/
def Stellar.initCall (s : Stellar) (id : Uuid) (input : Worker.FundingInput) (amount : Int) : Option Call :=
  (Stellar.toI128 amount).bind fun amount =>
    (Stellar.toU32 0).bind fun delay =>
      (Stellar.toU32 input.escrow.milestonesTotal).bind fun total =>
        (Stellar.toU32 input.escrow.expiryLedger).map fun expiry =>
          .initEscrow id.bytes input.clientKey input.freelancerAddress s.tokenContract amount
            (bufferFromHex (Worker.milestoneHashOf s id input.escrow))
              input.escrow.description delay total expiry

theorem Stellar.initCall_spec {s : Stellar} {id : Uuid} {input : Worker.FundingInput} {amount : Int}
    {call : Call} (h : s.initCall id input amount = some call) : call.escrowId? = some id.bytes ∧
    call.isInit = true := by
  obtain ⟨_, -, h⟩ := Option.bind_eq_some_iff.mp h
  obtain ⟨_, -, h⟩ := Option.bind_eq_some_iff.mp h
  obtain ⟨_, -, h⟩ := Option.bind_eq_some_iff.mp h
  obtain ⟨_, -, rfl⟩ := Option.map_eq_some_iff.mp h
  exact ⟨rfl, rfl⟩

def Stellar.fundTx (s : Stellar) (id : Uuid) (clientId : UserId) (txHash : TxHash) : DbTx :=
  .fund id clientId (s.adminPublicKey ++ "_" ++ id.text) txHash

/-- The escrow is on-chain: from an earlier attempt, as the row says, or initialised now. -/
inductive Begun (s : Stellar) (K : World → World → Prop) (id : Uuid) (input : Worker.FundingInput)
    (amount : Int) (w w' : World) : Prop where
  | before (hrow : input.escrow.stellarContractId.isSome) (h : K w w')
  | now {call : Call} (hrow : input.escrow.stellarContractId = none)
      (hcall : s.initCall id input amount = some call)
        (h : Amid K (World.Called s.contract [s.adminKey, input.clientKey] call) w w')

inductive FundTried (s : Stellar) (K : World → World → Prop) (F : Prop) (id : Uuid) (clientId : UserId)
    (amount : Int) (w w' : World) (out : Outcome WorkerError Unit) : Prop where
  | stopped (h : K w w') (ho : out.Failed)
      (why : F ∨ ∀ input, w.fundingInput s id clientId = some input → input.escrow.stellarContractId = none ∧
        ∀ call, s.initCall id input amount = some call →
          ∃ w₁, K w w₁ ∧ ¬ w₁.Accepts s.contract [s.adminKey, input.clientKey] call)
  | begun {input : Worker.FundingInput} (hin : w.fundingInput s id clientId = some input)
      (hb : Begun s K id input amount w w')
      (why : F ∨ ¬ w'.Accepts s.contract [s.adminKey, input.clientKey] (.fund id.bytes)) (ho : out.Failed)
  | deposited {input : Worker.FundingInput} {w₁ : World} (hin : w.fundingInput s id clientId = some input)
      (hb : Begun s K id input amount w w₁)
      (h : Amid K (World.Called s.contract [s.adminKey, input.clientKey] (.fund id.bytes)) w₁ w')
      (why : F ∨ ∃ txHash, ∀ db, (s.fundTx id clientId txHash).apply w'.db ≠ .ok db) (ho : out.Failed)
  | committed {input : Worker.FundingInput} {w₁ w₂ : World} {txHash : TxHash}
      (hin : w.fundingInput s id clientId = some input) (hb : Begun s K id input amount w w₁)
      (h : Amid K (World.Called s.contract [s.adminKey, input.clientKey] (.fund id.bytes)) w₁ w₂)
      (h' : Amid K (World.Committed (s.fundTx id clientId txHash)) w₂ w') (ho : out.Failed → F)

inductive FundHandled (K : World → World → Prop) (F : Prop) (id : Uuid) (clientId : UserId) (w w' : World) :
    Prop where
  | cut (h : K w w') (hF : F)
  | marked (h : Amid K (World.Committed (.failLocks id)) w w')
      (why : F ∨ ∀ e, w'.db.escrows.lookup id = some e →
        ∀ db, (DbTx.compensate id clientId e.amount e.fee).apply w'.db ≠ .ok db)
  | compensated {w₁ : World} {e : Escrow} (h : Amid K (World.Committed (.failLocks id)) w w₁)
      (he : w₁.db.escrows.lookup id = some e)
      (h' : Amid K (World.Committed (.compensate id clientId e.amount e.fee)) w₁ w')

inductive FundEnded (s : Stellar) (K : World → World → Prop) (F : Prop) (id : Uuid) (clientId : UserId)
    (amount : Int) (w w' : World) (out : Outcome WorkerError Unit) : Prop where
  | done (h : FundTried s K F id clientId amount w w' out) (ho : ∀ e, out ≠ .threw e)
  | handled {w₁ : World} {e : WorkerError} (h : FundTried s K F id clientId amount w w₁ (.threw e))
      (h' : FundHandled K F id clientId w₁ w') (ho : out.Failed)

section
variable {s : Stellar} {K : World → World → Prop} {F : Prop} {w : World} {id : Uuid} {clientId : UserId}
    {amount : Int}

theorem FundTried.fail {w' : World} {out out' : Outcome WorkerError Unit}
    (h : FundTried s K F id clientId amount w w' out) (hF : F) (ho : out'.Failed) :
    FundTried s K F id clientId amount w w' out' := by
  cases h with
  | stopped h _ _ => exact .stopped h ho (.inl hF)
  | begun hin hb _ _ => exact .begun hin hb (.inl hF) ho
  | deposited hin hb h _ _ => exact .deposited hin hb h (.inl hF) ho
  | committed hin hb h h' _ => exact .committed hin hb h h' fun _ => hF

variable (hK : Frame s.contract id K)
include hK

theorem Begun.then {input : Worker.FundingInput} {w₁ w₂ : World} (h : Begun s K id input amount w w₁)
    (h' : K w₁ w₂) : Begun s K id input amount w w₂ := by
  cases h with
  | before hrow h => exact .before hrow (hK.trans h h')
  | now hrow hcall h => exact .now hrow hcall (hK.amid_then h h')

theorem handleFundFailure_ends :
    (Worker.handleFundFailure id clientId).Ends s K F (fun w' _ => FundHandled K F id clientId w w') w := by
  refine ends_transact hK (fun w₁ h₁ why _ _ => .cut h₁ (why.resolve_right fun hn => hn _ rfl))
    (fun hF w₁ h₁ _ _ => .marked h₁ (.inl hF)) fun w₁ h₁ => ?_
  refine ends_findEscrow hK (fun hF w₂ h₂ _ _ => .marked (hK.amid_then h₁ h₂) (.inl hF)) fun w₂ h₂ => ?_
  have h₁₂ := hK.amid_then h₁ h₂
  cases he : w₁.db.escrows.lookup id with
  | none =>
    have hm : FundHandled K F id clientId w w₂ :=
      .marked h₁₂ (.inr fun e hn => by rw [hK.row h₂, he] at hn; cases hn)
    exact ends_pure hm fun _ => hm
  | some e =>
    have he₂ : w₂.db.escrows.lookup id = some e := by rw [hK.row h₂]; exact he
    refine ends_last_transact hK (fun w₃ h₃ why _ => .marked (hK.amid_then h₁₂ h₃)
      (why.imp_right fun hn e' he' => ?_)) fun w₃ h₃ _ => .compensated h₁₂ he₂ h₃
    rw [hK.row h₃, he₂] at he'; cases he'; exact hn

theorem freelancerOf_ends {Q : World → Outcome WorkerError (Option User) → Prop}
    (hF : F → ∀ w₁, K w w₁ → ∀ out, out.Failed → Q w₁ out)
    (h : ∀ w₁, K w w₁ →
      Q w₁ (.returned ((w.db.escrows.lookup id).bind fun e => w.db.users.lookup e.freelancerId))) :
    (Worker.freelancerOf id).Ends s K F Q w := by
  refine ends_findEscrow hK hF fun w₁ h₁ => ?_
  cases he : w.db.escrows.lookup id with
  | none =>
    rw [he] at h
    exact ends_pure (h w₁ h₁) fun hf => hF hf w₁ h₁ _ failed_crashed
  | some e =>
    rw [he] at h
    refine ends_last_findUser hK (fun hf w₂ h₂ => hF hf w₂ (hK.trans h₁ h₂)) fun w₂ h₂ => ?_
    rw [hK.users h₁]
    exact h w₂ (hK.trans h₁ h₂)

theorem readFundingInput_ends {Q : World → Outcome WorkerError Worker.FundingInput → Prop}
    (hfault : F → ∀ w₁, K w w₁ → ∀ out, out.Failed → Q w₁ out)
    (hnone : w.fundingInput s id clientId = none → ∀ w₁, K w w₁ → ∀ out, out.Failed → Q w₁ out)
    (h : ∀ input, w.fundingInput s id clientId = some input → ∀ w₁, K w w₁ → Q w₁ (.returned input)) :
    (Worker.readFundingInput s id clientId).Ends s K F Q w := by
  refine ends_findEscrow hK hfault fun w₁ h₁ => ?_
  refine ends_findUser hK (fun hF w₂ h₂ => hfault hF w₂ (hK.trans h₁ h₂)) fun w₂ h₂ => ?_
  rw [hK.users h₁]
  have h₂ := hK.trans h₁ h₂
  refine Prog.always_bind (freelancerOf_ends hK
    (fun hF w₃ h₃ => continues_failed (hfault hF w₃ (hK.trans h₂ h₃))) fun w₃ h₃ => ?_)
  rw [hK.row h₂, hK.users h₂]
  have h₃ := hK.trans h₂ h₃
  have hstop (hn : w.fundingInput s id clientId = none) := hnone hn w₃ h₃
  refine ends_orThrow (fun he => hstop (by simp [World.fundingInput, he])) fun e he => ?_
  rw [he, Option.bind_some]
  refine ends_orThrow (fun hs => hstop (by simp [World.fundingInput, World.keyOf, hs])) fun secret hs => ?_
  refine ends_orThrow (fun hf => hstop (by simp [World.fundingInput, he, hf])) fun freelancer hf => ?_
  refine ends_orThrow (fun hk => hstop (by simp [World.fundingInput, World.keyOf, hs, hk])) fun key hk => ?_
  have hin : w.fundingInput s id clientId = some ⟨e, key, freelancer⟩ := by
    simp [World.fundingInput, World.keyOf, he, hf, hs, hk]
  exact ends_pure (h _ hin w₃ h₃) fun hF => hfault hF w₃ h₃ _ failed_crashed

theorem initIfNeeded_ends {input : Worker.FundingInput} {w₁ : World}
    {Q : World → Outcome WorkerError Unit → Prop} (h₁ : K w w₁)
    (hfault : F → ∀ w', K w w' → ∀ out, out.Failed → Q w' out)
    (hrefused : input.escrow.stellarContractId = none → (∀ call, s.initCall id input amount = some call →
        ∃ w₂, K w w₂ ∧ ¬ w₂.Accepts s.contract [s.adminKey, input.clientKey] call) →
      ∀ w', K w w' → ∀ out, out.Failed → Q w' out)
    (hbegun : F → ∀ w', Begun s K id input amount w w' → ∀ out, out.Failed → Q w' out)
    (h : ∀ w', Begun s K id input amount w w' → Q w' (.returned ())) :
    (Worker.initIfNeeded s id input amount).Ends s K F Q w₁ := by
  unfold Worker.initIfNeeded
  split
  · rename_i hrow
    have hrow : input.escrow.stellarContractId = none := Option.isNone_iff_eq_none.mp hrow
    have hstop (hn : s.initCall id input amount = none) : ∀ out, out.Failed → Q w₁ out :=
      hrefused hrow (fun call hc => by rw [hn] at hc; cases hc) w₁ h₁
    refine Prog.always_bind (ends_orThrow (fun hn => continues_failed (hstop ?_)) fun a ha => ?_)
    · simp [Stellar.initCall, hn]
    refine ends_orThrow (fun hn => continues_failed (hstop ?_)) fun d hd => ?_
    · simp [Stellar.initCall, hn]
    refine ends_orThrow (fun hn => continues_failed (hstop ?_)) fun m hm => ?_
    · simp [Stellar.initCall, hn]
    refine ends_orThrow (fun hn => continues_failed (hstop ?_)) fun x hx => ?_
    · simp [Stellar.initCall, hn]
    have hcall : s.initCall id input amount = some (.initEscrow id.bytes input.clientKey input.freelancerAddress
        s.tokenContract a (bufferFromHex (Worker.milestoneHashOf s id input.escrow)) input.escrow.description
        d m x) := by
      simp [Stellar.initCall, ha, hd, hm, hx]
    have hnow {w' : World}
      (h' : Amid K (World.Called s.contract [s.adminKey, input.clientKey] (.initEscrow id.bytes
        input.clientKey input.freelancerAddress s.tokenContract a
        (bufferFromHex (Worker.milestoneHashOf s id input.escrow)) input.escrow.description d m x)) w₁ w') :
        Begun s K id input amount w w' := by
      obtain ⟨w₂, w₃, h₂, hc, h₃⟩ := h'
      exact .now hrow hcall ⟨w₂, w₃, hK.trans h₁ h₂, hc, h₃⟩
    unfold Stellar.invoke
    rw [perform_last]
    refine ends_invoke hK dispatch_init (fun w₂ h₂ why => continues_failed ?_)
      (fun hF w' h' => continues_failed (hbegun hF w' (hnow h'))) fun _ w' h' => ?_
    · have h₂ := hK.trans h₁ h₂
      rcases why with hF | hn
      · exact hfault hF w₂ h₂
      · refine hrefused hrow (fun call hc => ?_) w₂ h₂
        rw [hcall] at hc; cases hc
        exact ⟨w₂, h₂, hn⟩
    · exact ends_pure (ends_pure (h w' (hnow h')) fun hF => hbegun hF w' (hnow h') _ failed_crashed)
        fun hF => hbegun hF w' (hnow h') _ failed_crashed
  · rename_i hrow
    have hb : Begun s K id input amount w w₁ := .before (by simpa [Option.isSome_iff_ne_none] using hrow) h₁
    exact ends_pure (h w₁ hb) fun hF => hfault hF w₁ h₁ _ failed_crashed

theorem tryFundEscrow_ends :
    (Worker.tryFundEscrow s id clientId amount).Ends s K F (FundTried s K F id clientId amount w) w := by
  have hfault (hF : F) (w₁ : World) (h₁ : K w w₁) (out : Outcome WorkerError Unit) (ho : out.Failed) :
      FundTried s K F id clientId amount w w₁ out := .stopped h₁ ho (.inl hF)
  refine Prog.always_bind (readFundingInput_ends hK (fun hF w₁ h₁ => continues_failed (hfault hF w₁ h₁))
    (fun hn w₁ h₁ => continues_failed fun out ho => .stopped h₁ ho (.inr fun input hin => ?_))
      fun input hin w₁ h₁ => ?_)
  · rw [hn] at hin; cases hin
  refine Prog.always_bind (initIfNeeded_ends hK h₁ (fun hF w₁ h₁ => continues_failed (hfault hF w₁ h₁))
    (fun hrow hn w₂ h₂ => continues_failed fun out ho => .stopped h₂ ho (.inr fun input' hin' => ?_))
    (fun hF w₂ hb => continues_failed fun out ho => .begun hin hb (.inl hF) ho) fun w₂ hb => ?_)
  · rw [hin] at hin'; cases hin'
    exact ⟨hrow, hn⟩
  refine ends_invoke hK dispatch_fund (fun w₃ h₃ why out ho => .begun hin (hb.then hK h₃) why ho)
    (fun hF w₃ h₃ out ho => .deposited hin hb h₃ (.inl hF) ho) fun txHash w₃ h₃ => ?_
  refine ends_transact hK
    (fun w₄ h₄ why out ho => .deposited hin hb (hK.amid_then h₃ h₄) (why.imp_right fun hn => ⟨txHash, hn⟩) ho)
    (fun hF w₄ h₄ out ho => .committed hin hb h₃ h₄ fun _ => hF) fun w₄ h₄ => ?_
  exact ends_fireWebhook hK _ _ _
    (fun w₅ h₅ => .committed hin hb h₃ (hK.amid_then h₄ h₅) fun hf => absurd rfl (hf ()))
    fun hF w₅ h₅ _ _ => .committed hin hb h₃ (hK.amid_then h₄ h₅) fun _ => hF

theorem fundEscrow_ends :
    (Worker.fundEscrow s id clientId amount).Ends s K F (FundEnded s K F id clientId amount w) w := by
  refine Prog.always_tryCatch (Prog.always_mono (tryFundEscrow_ends hK) fun w₁ out h => ?_)
  cases out with
  | returned a =>
    exact ends_pure (.done h nofun) fun hF => .done (h.fail hF failed_crashed) nofun
  | crashed => exact .done h nofun
  | threw e =>
    refine Prog.always_bind (Prog.always_mono (handleFundFailure_ends hK) fun w₂ out h' => ?_)
    have hend (out : Outcome WorkerError Unit) (ho : out.Failed) :
      FundEnded s K F id clientId amount w w₂ out :=
      .handled h h' ho
    cases out with
    | returned u => exact ends_throw hend
    | threw e' => exact ends_throw hend
    | crashed => exact hend _ failed_crashed

end

end NexusHub
