import NexusHub.Funding
import NexusHub.Mirror

/-!
# Milestones and their retries

A milestone is completed on-chain by counting up, and the job that does it is
tried again whenever anything after the call fails: the confirmation, the read,
the transaction or the webhooks. The chain counts one milestone for every
attempt whose call gets through.
-/

namespace NexusHub

/-! ## What a job does to the count -/

/-- The platform with the operations of other workers among what comes in between. -/
def crowded (s : Stellar) : Machine Op Op.Res WorkerError World (EnvAction ⊕ Op) where
  perform := World.perform s
  env w := Sum.elim (w.env s) fun o => (w.perform s o).1

abbrev Attempt := List (Tick (EnvAction ⊕ Op) WorkerError)

def World.milestones (id : Uuid) (w : World) : Int :=
  (w.ledger.storage.escrows.lookup id.bytes).elim 0 fun r => r.milestonesCompleted

/-- By how much the attempts at a job, one after another until one of them
returns, move the count of its escrow. -/
def Job.advance (s : Stellar) (j : Job) (w : World) : List Attempt → Int
  | [] => 0
  | ts :: tss => (Worker.process s j).gain (crowded s) (World.milestones j.escrowId) ts w +
    match (Worker.process s j).exec (crowded s) ts w with
    | (_, .returned _) => 0
    | (w', _) => j.advance s w' tss

/-! ## Calls that get through -/

instance (env : Env) (paused : Bool) (r : EscrowRecord) (id : Bytes) :
    Decidable ((Call.completeMilestone id).Admits env paused r) :=
  inferInstanceAs (Decidable (_ ∧ _ ∧ _ ∧ _))

/-- The world in which an attempt performs its `n`-th operation, while the earlier ones only read. -/
def World.before (s : Stellar) (w : World) (ts : Attempt) : Nat → World
  | 0 => run (crowded s).env w (ts.getD 0 .calm).env
  | n + 1 => run (crowded s).env (w.before s ts n) (ts.getD (n + 1) .calm).env

/-- The contract takes the call: it is not paused, the escrow is open, the
freelancer has signed and a milestone is left. -/
def World.TakesMilestone (s : Stellar) (id : Uuid) (key : Address) (w : World) : Prop :=
  ∃ r ∈ w.ledger.storage.escrows.lookup id.bytes, (Call.completeMilestone id.bytes).Admits
    (w.ledger.env s.contract [s.adminKey, key]) w.ledger.storage.isPaused r

instance (s : Stellar) (id : Uuid) (key : Address) (w : World) : Decidable (w.TakesMilestone s id key) :=
  inferInstanceAs (Decidable (∃ r ∈ _, _))

/-- An attempt reads the rows it needs, makes its call, at worst without hearing
of its success, and the contract takes it. -/
def World.GetsThrough (s : Stellar) (id : Uuid) (freelancerId : UserId) (ts : Attempt) (w : World) : Prop :=
  ((ts.getD 0 .calm).fault = .none ∧ (ts.getD 1 .calm).fault = .none ∧ (ts.getD 2 .calm).fault.Effective) ∧
  ((w.before s ts 0).contractRow id).isSome ∧
  ∃ key ∈ (w.before s ts 1).keyOf s freelancerId, (w.before s ts 2).TakesMilestone s id key

instance (s : Stellar) (id : Uuid) (freelancerId : UserId) (ts : Attempt) (w : World) :
    Decidable (w.GetsThrough s id freelancerId ts) :=
  inferInstanceAs (Decidable (_ ∧ _ ∧ ∃ key ∈ _, _))

/-- After an attempt whose call got through and that failed all the same, no
call of a later attempt gets through. -/
def World.CallsOnce (s : Stellar) (id : Uuid) (freelancerId : UserId) (called : Prop) (w : World) :
    List Attempt → Prop
  | [] => True
  | ts :: tss => (called → ¬ w.GetsThrough s id freelancerId ts) ∧
    match (Worker.process s (.completeMilestone id freelancerId)).exec (crowded s) ts w with
    | (_, .returned _) => True
    | (w', _) => w'.CallsOnce s id freelancerId (called ∨ w.GetsThrough s id freelancerId ts) tss

section
variable {s : Stellar} {w : World} {id : Uuid} {freelancerId : UserId} {key : Address}

theorem crowded_evolves (s : Stellar) : Prog.Evolves (crowded s) (World.Later s.contract) where
  refl := (platform_evolves s).refl
  trans := (platform_evolves s).trans
  perform := (platform_evolves s).perform
  env w i := by
    cases i with
    | inl i => exact (platform_evolves s).env w i
    | inr o => exact (platform_evolves s).perform w o

theorem before_reachable (hw : w.ledger.Reachable s.contract) (ts : Attempt) (n : Nat) :
    (w.before s ts n).ledger.Reachable s.contract := by
  have henv (w : World) (is : List (EnvAction ⊕ Op)) : World.Later s.contract w (run (crowded s).env w is) :=
    run_rel _ (crowded_evolves s).refl (crowded_evolves s).trans (crowded_evolves s).env w is
  induction n with
  | zero => exact (henv w _).reachable hw
  | succ n ih => exact (henv _ _).reachable ih

/-- The call is accepted exactly as its guard says: the count stays in range. -/
theorem accepts_iff_takes (hw : w.ledger.Reachable s.contract) :
    w.Accepts s.contract [s.adminKey, key] (.completeMilestone id.bytes) ↔ w.TakesMilestone s id key := by
  constructor
  · rintro ⟨h, hx⟩
    obtain ⟨r, hr, ha, -⟩ := completeMilestone_ok.mp hx
    exact ⟨r, hr, ha⟩
  · rintro ⟨r, hr, ha⟩
    have hfit := (hw.storage_ok.records _ r hr).total_fits
    have hlt : r.milestonesCompleted < r.milestonesTotal := ha.2.2.2
    exact ⟨_, completeMilestone_ok.mpr ⟨r, hr, ha, Nat.lt_of_le_of_lt hlt hfit, trivial, rfl⟩⟩

theorem milestones_submit (hw : w.ledger.Reachable s.contract) :
    World.milestones id (w.submit s "complete_milestone" [.bytes (escrowIdToBytes id.text)]
      [s.adminKey, key]).1 - w.milestones id = if w.TakesMilestone s id key then 1 else 0 := by
  cases h : (w.submit s "complete_milestone" [.bytes (escrowIdToBytes id.text)] [s.adminKey, key]).2 with
  | error e =>
    obtain ⟨hsame, hno⟩ := World.submit_error h
    rw [hsame, Int.sub_self, if_neg fun ht => hno _ dispatch_milestone ((accepts_iff_takes hw).mpr ht)]
  | ok hash =>
    have hcalled := (World.submit_ok dispatch_milestone h).1
    rw [if_pos ((accepts_iff_takes hw).mp hcalled.accepts)]
    obtain ⟨r, hr, -, -, hlook⟩ := hcalled.updates hw rfl rfl
    simp only [World.milestones, hlook, hr, if_true, Option.elim, Call.change]
    omega

/-! ## One attempt, one call -/

def Op.OffChain : Op → Prop
  | submit .. => False
  | _ => True

theorem milestones_offChain {o : Op} (ho : o.OffChain) (w : World) :
    World.milestones id ((crowded s).perform w o).1 = w.milestones id := by
  have hledger : (w.perform s o).1.ledger = w.ledger := by
    rcases World.perform_cases s w o with h | ⟨tx, -, h⟩ | ⟨m, args, ss, call, rfl, -, -⟩
    · exact h.ledger
    · exact h.ledger
    · exact ho.elim
  show World.milestones id (w.perform s o).1 = _
  rw [World.milestones, hledger, World.milestones]

def Worker.recordMilestone (id : Uuid) (freelancerId : UserId) (e : Escrow) (txHash : TxHash) : Handler Unit := do
  let onChain ← Stellar.getEscrowRecord id.text
  perform (.transact (.milestone id freelancerId onChain.milestonesCompleted txHash))
  Worker.fireWebhook .milestoneCompleted e.clientId
    (.milestone id onChain.milestonesCompleted onChain.milestonesTotal txHash)

theorem recordMilestone_offChain (e : Escrow) (txHash : TxHash) :
    (Worker.recordMilestone id freelancerId e txHash).Performs Op.OffChain := by
  refine Prog.performs_bind (Prog.performs_call trivial) fun onChain => ?_
  refine Prog.performs_bind (Prog.performs_call trivial) fun _ => ?_
  refine (fireWebhook_performs _ _ _).mono fun o ho => ?_
  cases o with
  | transact | submit => exact ho.elim
  | _ => trivial

theorem call_gain {ts : Attempt} {w' : World} (hrun : run (crowded s).env w (ts.getD 0 .calm).env = w')
    (hw : w'.ledger.Reachable s.contract) (e : Escrow) :
    (s.completeMilestone id.text key >>= Worker.recordMilestone id freelancerId e).gain (crowded s)
      (World.milestones id) ts w =
      if (ts.getD 0 .calm).fault.Effective ∧ w'.TakesMilestone s id key then 1 else 0 := by
  have hrest (txHash : TxHash) (ts : Attempt) (w : World) :
      (Worker.recordMilestone id freelancerId e txHash).gain (crowded s) (World.milestones id) ts w = 0 :=
    Prog.gain_eq_zero (fun w _ ho => milestones_offChain ho w) (recordMilestone_offChain e txHash) ts w
  refine (Prog.gain_act_bind hrun hrest).trans ?_
  rw [ite_and]
  exact if_congr Iff.rfl (milestones_submit hw) rfl

theorem secretOf_gain {f : World → Int} {missing : String} {k : Address → Handler Unit} (w : World)
    (freelancerId : UserId) (ts : Attempt) (w' : World) :
    (Worker.secretOf s (w.db.users.lookup freelancerId) missing >>= k).gain (crowded s) f ts w' =
      (w.keyOf s freelancerId).elim 0 fun key => (k key).gain (crowded s) f ts w' := by
  unfold World.keyOf Worker.secretOf
  cases (w.db.users.lookup freelancerId).bind (·.stellarSecretEncrypted) with
  | none => exact Prog.gain_throw _
  | some secret =>
    change (orThrow (s.keypairOf secret) _ >>= k).gain _ _ _ _ = (s.keypairOf secret).elim 0 _
    cases s.keypairOf secret with
    | none => exact Prog.gain_throw _
    | some key => rfl

theorem completeMilestone_gain (hw : w.ledger.Reachable s.contract) (ts : Attempt) :
    (Worker.completeMilestone s id freelancerId).gain (crowded s) (World.milestones id) ts w =
      if w.GetsThrough s id freelancerId ts then 1 else 0 := by
  have h1 : ts.tail.getD 0 .calm = ts.getD 1 .calm := by cases ts <;> rfl
  have h2 : ts.tail.tail.getD 0 .calm = ts.getD 2 .calm := by
    rcases ts with - | ⟨t, - | ⟨t', ts⟩⟩ <;> rfl
  refine (Prog.gain_read_bind rfl rfl).trans ?_
  by_cases hf0 : (ts.getD 0 .calm).fault = .none
  swap
  · rw [if_neg hf0, if_neg fun h => hf0 h.1.1]
  rw [if_pos hf0]
  refine (Prog.gain_read_bind (by rw [h1]) rfl).trans ?_
  by_cases hf1 : (ts.getD 1 .calm).fault = .none
  swap
  · rw [h1, if_neg hf1, if_neg fun h => hf1 h.1.2.1]
  rw [h1, if_pos hf1]
  change (orThrow ((w.before s ts 0).contractRow id) _ >>= _ : Handler Unit).gain _ _ _ (w.before s ts 1) = _
  cases hrow : (w.before s ts 0).contractRow id with
  | none =>
    rw [if_neg fun h => Option.isSome_iff_ne_none.mp h.2.1 hrow]
    exact Prog.gain_throw _
  | some e =>
    refine (secretOf_gain (w.before s ts 1) freelancerId ts.tail.tail _).trans ?_
    cases hkey : (w.before s ts 1).keyOf s freelancerId with
    | none =>
      refine (if_neg ?_).symm
      rintro ⟨-, -, key, hk, -⟩
      exact nomatch hkey.symm.trans hk
    | some key =>
      refine (call_gain (by rw [h2]; rfl) (before_reachable hw ts 2) e).trans (if_congr ?_ rfl rfl)
      rw [h2]
      constructor
      · rintro ⟨hf2, ht⟩
        exact ⟨⟨hf0, hf1, hf2⟩, by rw [hrow]; rfl, key, hkey, ht⟩
      · rintro ⟨⟨-, -, hf2⟩, -, key', hk, ht⟩
        cases hkey.symm.trans hk
        exact ⟨hf2, ht⟩

/-! ## All attempts -/

theorem exec_reachable (hw : w.ledger.Reachable s.contract) (j : Job) (ts : Attempt) :
    ((Worker.process s j).exec (crowded s) ts w).1.ledger.Reachable s.contract :=
  ((crowded_evolves s).exec (Worker.process s j) ts w).reachable hw

theorem advance_nonneg (hw : w.ledger.Reachable s.contract) (tss : List Attempt) :
    0 ≤ (Job.completeMilestone id freelancerId).advance s w tss := by
  induction tss generalizing w with
  | nil => exact le_refl _
  | cons ts tss ih =>
    have hgain : 0 ≤ (Worker.completeMilestone s id freelancerId).gain (crowded s) (World.milestones id) ts w := by
      rw [completeMilestone_gain hw]; split <;> decide
    have hnext := exec_reachable hw (.completeMilestone id freelancerId) ts
    refine Int.add_nonneg hgain ?_
    split
    · exact le_refl _
    · rename_i heq; rw [heq] at hnext; exact ih hnext

/-- `called` says that the call of an earlier attempt got through. -/
theorem advance_iff_callsOnce (hw : w.ledger.Reachable s.contract) (called : Prop) [Decidable called]
    (tss : List Attempt) :
    (if called then 1 else 0) + (Job.completeMilestone id freelancerId).advance s w tss ≤ 1 ↔
      w.CallsOnce s id freelancerId called tss := by
  induction tss generalizing w called with
  | nil =>
    simp only [Job.advance, World.CallsOnce, iff_true]
    split <;> decide
  | cons ts tss ih =>
    have hgain : (Worker.process s (.completeMilestone id freelancerId)).gain (crowded s)
        (World.milestones id) ts w = if w.GetsThrough s id freelancerId ts then 1 else 0 :=
      completeMilestone_gain hw ts
    have hnext := exec_reachable hw (.completeMilestone id freelancerId) ts
    simp only [Job.advance, Job.escrowId, World.CallsOnce, hgain]
    generalize (Worker.process s (.completeMilestone id freelancerId)).exec (crowded s) ts w = res at hnext ⊢
    obtain ⟨w', out⟩ := res
    cases out with
    | returned _ =>
      by_cases hc : called <;> by_cases hg : w.GetsThrough s id freelancerId ts <;> simp [hc, hg]
    | threw _ | crashed =>
      have hrest := ih hnext (called ∨ w.GetsThrough s id freelancerId ts)
      have hnonneg : 0 ≤ (Job.completeMilestone id freelancerId).advance s w' tss := advance_nonneg hnext tss
      by_cases hc : called
      · by_cases hg : w.GetsThrough s id freelancerId ts
        · -- counted before and counted again
          simp only [hc, hg, if_true, not_true, false_and, imp_false, iff_false]
          omega
        · simpa [hc, hg] using hrest
      · by_cases hg : w.GetsThrough s id freelancerId ts
        · simpa [hc, hg] using hrest
        · simpa [hc, hg] using hrest

end

/-- A job counts at most one milestone exactly if no attempt that fails after its
call got through is followed by an attempt whose call gets through. -/
theorem counts_once_iff {s : Stellar} {w : World} (hw : w.ledger.Reachable s.contract) (id : Uuid)
    (freelancerId : UserId) (tss : List Attempt) :
    (Job.completeMilestone id freelancerId).advance s w tss ≤ 1 ↔ w.CallsOnce s id freelancerId False tss := by
  have h : 0 + (Job.completeMilestone id freelancerId).advance s w tss ≤ 1 ↔
      w.CallsOnce s id freelancerId False tss := advance_iff_callsOnce hw False tss
  rwa [Int.zero_add] at h

def sampleMilestoneDto : CreateEscrowDto :=
  { sampleDto with milestonesTotal := some 2, milestones_le := by simp }

def sampleMilestones : World :=
  ((Worker.process sampleStellar (.fundEscrow sampleId "client" 1000)).complete (platform sampleStellar)
    (sampleWorld.request (.createEscrow "client" sampleMilestoneDto "key" sampleId))).1

theorem sampleMilestones_reachable : sampleMilestones.ledger.Reachable sampleStellar.contract := by
  refine ((platform_evolves sampleStellar).complete _ _).reachable ?_
  rw [World.request_ledger]
  exact sampleWorld_reachable

/-- Two attempts, the call of the first of which meets `fault`. -/
def sampleAttempts (fault : Fault WorkerError) : List Attempt := [[.calm, .calm, ⟨[], fault⟩], []]

/-- A call that got lost is made again and counted once. -/
theorem sample_counts_once : (Job.completeMilestone sampleId "freelancer").advance sampleStellar
    sampleMilestones (sampleAttempts (.lost .infrastructure)) ≤ 1 := by
  have hlost : ¬ sampleMilestones.GetsThrough sampleStellar sampleId "freelancer"
      [.calm, .calm, ⟨[], .lost .infrastructure⟩] := fun h => h.1.2.2
  refine (counts_once_iff sampleMilestones_reachable _ _ _).mpr ⟨False.elim, ?_⟩
  split
  · trivial
  · exact ⟨fun h => (h.elim id hlost).elim, by split <;> trivial⟩

/-- The first call takes effect and is reported as timed out; the second attempt
runs through. -/
theorem timeout_counts_two : ¬ ∀ (s : Stellar) (w : World) (r : Request), w.ledger.Reachable s.contract →
    ∀ id freelancerId, .completeMilestone id freelancerId ∈ (w.request r).jobs.drop w.jobs.length →
    ∀ tss : List Attempt, tss.length ≤ jobAttempts →
    (Job.completeMilestone id freelancerId).advance s (w.request r) tss ≤ 1 := by
  intro h
  have hqueued : .completeMilestone sampleId "freelancer" ∈
      (sampleMilestones.request (.completeMilestone "freelancer" sampleId)).jobs.drop
        sampleMilestones.jobs.length := by
    decide +kernel
  have hlength : (sampleAttempts (.late .infrastructure)).length ≤ jobAttempts := by decide
  have htwo : (Job.completeMilestone sampleId "freelancer").advance sampleStellar
      (sampleMilestones.request (.completeMilestone "freelancer" sampleId))
      (sampleAttempts (.late .infrastructure)) = 2 := by
    decide +kernel
  have hone := h _ _ _ sampleMilestones_reachable _ _ hqueued _ hlength
  rw [htwo] at hone
  exact absurd hone (by decide)

end NexusHub
