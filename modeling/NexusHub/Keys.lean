import NexusHub.Credits

/-!
# Clients' keys and settlement keys

The keys of the clients and those the worker derives from escrow ids share one
unique column. The row of a settlement that is due collides exactly when a
client was served a `createEscrow` under its key.
-/

namespace NexusHub

/-- The transaction records the settlement of `id` as `k`. -/
def DbTx.Records (id : Uuid) (k : SettleKind) (tx : DbTx) : Prop := tx.escrowId = id ∧ tx.settles = some k

/-- The settlement has taken effect on the ledger and is not recorded yet. -/
structure World.Due (id : Uuid) (k : SettleKind) (w : World) : Prop where
  settled : w.ledger.SettledAs id.bytes k
  unrecorded : ∀ tx ∈ w.commits, ¬ tx.Records id k

def DbTx.Collides (db : Db) (tx : DbTx) : Prop := ∃ key ∈ tx.key, (db.transactions.lookup key).isSome

theorem DbTx.not_ok_of_collides {db db' : Db} {tx : DbTx} (h : tx.Collides db) : tx.apply db ≠ .ok db' := by
  intro ha
  obtain ⟨key, hk, hs⟩ := h
  have hnone := (apply_ok ha).1.fresh key hk
  rw [hnone] at hs; cases hs

/-! ## Keys tell settlements apart -/

theorem SettleKind.key_injective {k k' : SettleKind} {id id' : Uuid} (h : k.key id = k'.key id') :
    k = k' ∧ id = id' := by
  have hd := congrArg String.toList h
  cases k <;> cases k' <;> simp [SettleKind.key, String.toList_append] at hd
  all_goals exact ⟨rfl, Uuid.text_injective (String.toList_inj.mp hd)⟩

theorem DbTx.records_of_key {tx : DbTx} {id : Uuid} {k : SettleKind} (h : tx.key = some (k.key id)) :
    tx.Records id k := by
  have hs : ∃ k', tx.settles = some k' := by
    cases tx with
    | approve id e u role c f txHash =>
      simp only [key] at h
      split at h
      · rename_i hb; exact ⟨.approve, if_pos hb⟩
      · cases h
    | fund | failLocks | compensate | milestone => cases h
    | release | refund | expire => exact ⟨_, rfl⟩
  obtain ⟨k', hk'⟩ := hs
  have hkey := Option.some.inj ((key_of_settles hk').symm.trans h)
  obtain ⟨rfl, rfl⟩ := SettleKind.key_injective hkey
  exact ⟨rfl, hk'⟩

theorem DbTx.Records.key {tx : DbTx} {id : Uuid} {k : SettleKind} (h : tx.Records id k) :
    tx.key = some (k.key id) := by
  rw [key_of_settles h.2, h.1]

/-! ## Where keys come from -/

abbrev Platform := Pool Op Op.Res WorkerError Unit World

abbrev PlatformAction := PoolAction Job EnvAction WorkerError

/-- The platform after a run that starts with no handler at work. -/
abbrev World.after (s : Stellar) (w : World) (as : List PlatformAction) : Platform :=
  run (Pool.step (platform s) (Worker.process s)) ⟨w, []⟩ as

/-- The step serves a client's `createEscrow` under the key. -/
def TakesKey (key : String) (c : Platform) (a : PlatformAction) : Prop :=
  ∃ clientId dto escrowId res, a = .env (.request (.createEscrow clientId dto key escrowId)) ∧
    Request.serve c.world.db (.createEscrow clientId dto key escrowId) = .ok res

def World.HasKey (key : String) (w : World) : Prop := (w.db.transactions.lookup key).isSome

theorem key_of_request {w : World} {r : Request} {key : String} (h : (w.request r).HasKey key) :
    w.HasKey key ∨ ∃ clientId dto escrowId res, r = .createEscrow clientId dto key escrowId ∧
      r.serve w.db = .ok res := by
  unfold World.request at h
  split at h
  · rename_i res hres
    obtain ⟨_, -, hserved⟩ := Request.served hres
    cases hserved with
    | @created clientId dto key' id _ _ =>
      rcases (Store.isSome_insert _ _ _ _).mp h with h | h
      · exact .inl h
      · obtain rfl := Option.some.inj h
        exact .inr ⟨clientId, dto, id, _, rfl, hres⟩
    | _ => exact .inl h
  · exact .inl h

theorem hasKey_of_served {w : World} {clientId : UserId} {dto : CreateEscrowDto} {key : String} {id : Uuid}
    {res : Response} (h : Request.serve w.db (.createEscrow clientId dto key id) = .ok res) :
    (w.request (.createEscrow clientId dto key id)).HasKey key := by
  unfold World.request World.HasKey
  rw [h]
  obtain ⟨_, -, hserved⟩ := Request.served h
  cases hserved with
  | replayed hk => exact hk
  | created => exact (Store.isSome_insert _ _ _ _).mpr (.inr rfl)
  | queued hj => cases hj

theorem key_of_step {s : Stellar} {c : Platform} {a : PlatformAction} {key : String} (h0 : ¬ c.world.HasKey key)
    (h : (Pool.step (platform s) (Worker.process s) c a).world.HasKey key) :
    TakesKey key c a ∨
      ∃ tx ∈ (Pool.step (platform s) (Worker.process s) c a).world.commits, tx.key = some key := by
  have hcases : (Pool.step (platform s) (Worker.process s) c a).world = c.world ∨ _ ∨ _ := pool_step_cases c a
  rcases hcases with he | ⟨i, rfl, he⟩ | ⟨o, he⟩
  · rw [he] at h; exact absurd h h0
  · rw [he] at h
    cases i with
    | ledger a => exact absurd h h0
    | request r =>
      rcases key_of_request h with h | ⟨clientId, dto, id, res, rfl, hr⟩
      · exact absurd h h0
      · exact .inl ⟨clientId, dto, id, res, rfl, hr⟩
  · rw [he] at h ⊢
    rcases World.perform_cases s c.world o with hs | ⟨tx, rfl, hc⟩ | ⟨m, args, ss, call, rfl, -, hc⟩
    · have hdb : ((platform s).perform c.world o).1.db = c.world.db := hs.db
      rw [World.HasKey, hdb] at h; exact absurd h h0
    · right
      have happ := (DbTx.apply_ok hc.db).1
      rcases (happ.keys key).mp h with h | hk
      · exact absurd h h0
      · refine ⟨tx, ?_, hk⟩
        change tx ∈ (c.world.perform s (.transact tx)).1.commits
        rw [hc.commits]
        exact List.mem_append_right _ (List.mem_singleton_self _)
    · have hdb : ((platform s).perform c.world (.submit m args ss)).1.db = c.world.db := hc.db
      rw [World.HasKey, hdb] at h; exact absurd h h0

/-! ## Every run -/

structure World.Recorded (w w' : World) : Prop where
  keys : ∀ key, w.HasKey key → w'.HasKey key
  commits : ∀ tx ∈ w.commits, tx ∈ w'.commits

theorem platform_records (s : Stellar) : Prog.Evolves (platform s) World.Recorded where
  refl w := ⟨fun _ h => h, fun _ h => h⟩
  trans h h' := ⟨fun key hk => h'.keys key (h.keys key hk), fun tx ht => h'.commits tx (h.commits tx ht)⟩
  perform w o := by
    change w.Recorded (w.perform s o).1
    rcases World.perform_cases s w o with hs | ⟨tx, rfl, hc⟩ | ⟨m, args, ss, call, rfl, -, hc⟩
    · exact ⟨fun key hk => by rw [World.HasKey, hs.db]; exact hk, fun tx ht => by rw [hs.commits]; exact ht⟩
    · exact ⟨fun key hk => ((DbTx.apply_ok hc.db).1.keys key).mpr (.inl hk),
        fun tx ht => by rw [hc.commits]; exact List.mem_append_left _ ht⟩
    · exact ⟨fun key hk => by rw [World.HasKey, hc.db]; exact hk, fun tx ht => by rw [hc.commits]; exact ht⟩
  env w i := by
    cases i with
    | ledger a => exact ⟨fun _ h => h, fun _ h => h⟩
    | request r =>
      refine ⟨fun key hk => ?_, fun tx htx => ?_⟩
      · exact World.request_db (fun db => (db.transactions.lookup key).isSome) hk fun _ _ hserved => hserved.keys hk
      · change tx ∈ (w.request r).commits
        rw [World.request_commits]
        exact htx

/-- In every run from a fresh database the row of a due settlement collides if
and only if a client was served a `createEscrow` under its key. -/
theorem settlement_collides_iff {s : Stellar} {w : World} (ht : w.db.transactions = ∅)
    (as : List PlatformAction) {id : Uuid} {k : SettleKind} (hdue : (w.after s as).world.Due id k)
    {tx : DbTx} (htx : tx.Records id k) :
    tx.Collides (w.after s as).world.db ↔
      ∃ front a rest, as = front ++ a :: rest ∧ TakesKey (k.key id) (w.after s front) a := by
  have later (c : Platform) (as : List PlatformAction) :
      c.world.Recorded (run (Pool.step (platform s) (Worker.process s)) c as).world :=
    pool_rel (platform_records s) c as
  constructor
  · rintro ⟨key, hk, hs⟩
    obtain rfl := Option.some.inj (htx.key.symm.trans hk)
    obtain ⟨front, a, rest, rfl, h0, h1⟩ :=
      run_origin (fun c : Platform => c.world.HasKey (k.key id)) (s := ⟨w, []⟩) as
        (by simp [World.HasKey, ht]) hs
    refine ⟨front, a, rest, rfl, ?_⟩
    rcases key_of_step h0 h1 with h | ⟨tx', hmem, hkey⟩
    · exact h
    · -- the commit that took the key would have recorded the settlement
      rw [World.after, run_append, run_cons] at hdue
      exact absurd (DbTx.records_of_key hkey) (hdue.unrecorded tx' ((later _ rest).commits tx' hmem))
  · rintro ⟨front, a, rest, rfl, clientId, dto, escrowId, res, rfl, hr⟩
    refine ⟨k.key id, htx.key, ?_⟩
    rw [World.after, run_append, run_cons]
    exact (later _ rest).keys _ (hasKey_of_served hr)

/-! ## A taken key

The client creates a second escrow under the key of the first one's refund;
then the admin's refund of the first takes effect. -/

def sampleSquat : List PlatformAction :=
  [.env (.request (.createEscrow "client" sampleDto "key" sampleId)),
    .spawn (.fundEscrow sampleId "client" 1000)] ++
    List.replicate 8 (.step 0 .none) ++
    [.env (.request (.createEscrow "client" sampleDto ("refund-" ++ sampleId.text) sampleOther)),
      .env (.request (.refundEscrow "admin" sampleId "")), .spawn (.refundEscrow sampleId "admin" ""),
      .step 1 .none, .step 1 .none]

def sampleSquatted : World := (sampleWorld.after sampleStellar sampleSquat).world

def sampleRefundTx : DbTx :=
  .refund sampleId { EscrowService.newEscrow "client" sampleDto with
    status := .funded, stellarContractId := some ("admin key_" ++ sampleId.text), stellarTxHash := some 2 }
      "admin" "" 3

instance (id : Bytes) (k : SettleKind) (l : Ledger) : Decidable (l.SettledAs id k) :=
  inferInstanceAs (Decidable (∃ rc ∈ receiptsOf id l.history, rc.settles = some k))

instance (id : Uuid) (k : SettleKind) (tx : DbTx) : Decidable (tx.Records id k) :=
  inferInstanceAs (Decidable (_ ∧ _))

theorem sampleSquatted_due : sampleSquatted.Due sampleId .refund := ⟨by decide +kernel, by decide +kernel⟩

theorem sample_refund_collides : ∃ front a rest, sampleSquat = front ++ a :: rest ∧
    TakesKey (SettleKind.refund.key sampleId) (sampleWorld.after sampleStellar front) a :=
  (settlement_collides_iff rfl sampleSquat sampleSquatted_due
    (show sampleRefundTx.Records _ _ from ⟨rfl, rfl⟩)).mp
      ⟨_, rfl, show (sampleSquatted.db.transactions.lookup _).isSome by decide +kernel⟩

theorem client_key_blocks_refund :
    ¬ ∀ (as : List PlatformAction) (id : Uuid) (k : SettleKind) (tx : DbTx),
      (sampleWorld.after sampleStellar as).world.Due id k → tx.Records id k →
        ¬ tx.Collides (sampleWorld.after sampleStellar as).world.db := by
  intro h
  refine h sampleSquat sampleId .refund sampleRefundTx sampleSquatted_due ⟨rfl, rfl⟩ ⟨_, rfl, ?_⟩
  decide +kernel

end NexusHub
