import NexusHub.Credits
import NexusHub.Sessions

/-!
# Final statuses

No update of a row looks at the status it replaces. What the worker settles is
final all the same: the ledger settles an escrow once, and the worker follows
the ledger. The rest comes in time or does not: a verdict that the ledger
contradicts, a dispute or a funding that finds the row closed, a compensation
for a funding that has worked.
-/

namespace NexusHub

def EscrowStatus.Settled (v : EscrowStatus) : Prop := v = released ∨ v = refunded

def EscrowStatus.Terminal (v : EscrowStatus) : Prop := v.Settled ∨ v = cancelled

instance (v : EscrowStatus) : Decidable v.Settled := inferInstanceAs (Decidable (_ ∨ _))

instance (v : EscrowStatus) : Decidable v.Terminal := inferInstanceAs (Decidable (_ ∨ _))

/-! ## Settlements in the record -/

def SettleKind.status : SettleKind → EscrowStatus
  | release | approve => .released
  | refund | expire => .refunded

theorem SettleKind.settled_status (k : SettleKind) : k.status.Settled := by
  cases k with
  | release | approve => exact .inl rfl
  | refund | expire => exact .inr rfl

theorem settles_status {env : Env} {r : EscrowRecord} {call : Call} {k : SettleKind}
    (h : (env.receipt call (call.change env r)).settles = some k) :
    (call.change env r).record.status = k.status := by
  cases call with
  | release | refund | claimExpired => cases h; rfl
  | approveRelease id a =>
    by_cases hb : (r.approve a).clientApproved ∧ (r.approve a).freelancerApproved
    · simp only [Receipt.settles, Env.receipt, Call.change, if_pos hb, if_neg payout_ne_nil] at h ⊢
      cases h
      rfl
    · simp only [Receipt.settles, Env.receipt, Call.change, if_neg hb, ite_true] at h
      cases h
  | _ => cases h

def View.Recorded (v : View) : Prop :=
  ∀ rc ∈ v.receipts, ∀ k, rc.settles = some k → ∃ r, v.record = some r ∧ r.status = k.status

theorem View.Recorded.move {contract : Address} {id : Bytes} {l : Ledger} {v v' : View}
    (hm : View.Moves contract id l v v') (h : v.Recorded) : v'.Recorded := by
  cases hm with
  | @create signers call r rcs hc hr =>
    intro rc hrc k hk
    rcases List.mem_append.mp hrc with hrc | hrc
    · obtain ⟨r', hr', -⟩ := h rc hrc k hk
      cases hr'
    · obtain ⟨_, _, _, _, -, hcall⟩ := hc.call_eq
      rw [List.mem_singleton.mp hrc, hcall] at hk
      cases hk
  | @update signers call r rcs hid hr ha =>
    intro rc hrc k hk
    refine ⟨_, rfl, ?_⟩
    rcases List.mem_append.mp hrc with hrc | hrc
    · -- nothing acts on the record once it is settled
      obtain ⟨r', hr', hst⟩ := h rc hrc k hk
      cases hr'
      have hs : r.Settled := by
        unfold EscrowRecord.Settled
        rw [hst]
        exact k.settled_status
      exact absurd (.inl hs) ha.live.not_closed
    · rw [List.mem_singleton.mp hrc] at hk
      exact settles_status hk

theorem Ledger.SettledAs.record {contract : Address} {l : Ledger} {id : Bytes} {k : SettleKind}
    (h : l.SettledAs id k) (hl : l.Reachable contract) :
    ∃ r, l.storage.escrows.lookup id = some r ∧ r.status = k.status := by
  obtain ⟨rc, hrc, hk⟩ := h
  have hrec : (l.view id).Recorded := view_inv View.Recorded (fun _ h => nomatch h)
    (fun _ _ _ _ hm h => h.move hm) hl
  exact hrec rc hrc k hk

/-! ## Settlements in the row -/

theorem DbTx.onEscrow_settles {tx : DbTx} {k : SettleKind} (h : tx.settles = some k) (e : Escrow) :
    (tx.onEscrow e).status = k.status := by
  cases tx with
  | fund | failLocks | compensate | milestone => cases h
  | release | refund | expire => cases h; rfl
  | approve id e' u role c f txHash =>
    simp only [settles] at h
    split at h
    · rename_i hb
      cases h
      simp only [onEscrow, hb, ite_true]
      rfl
    · cases h

theorem DbTx.settles_cases (tx : DbTx) :
    (∃ k, tx.settles = some k) ∨ (∃ id u c txHash, tx = .fund id u c txHash) ∨
    (∃ id u amount fee, tx = .compensate id u amount fee) ∨
      ∀ e, (tx.onEscrow e).status = e.status ∧ (tx.onEscrow e).stellarContractId = e.stellarContractId := by
  cases tx with
  | fund id u c txHash => exact .inr (.inl ⟨id, u, c, txHash, rfl⟩)
  | compensate id u amount fee => exact .inr (.inr (.inl ⟨id, u, amount, fee, rfl⟩))
  | failLocks | milestone => exact .inr (.inr (.inr fun _ => ⟨rfl, rfl⟩))
  | release | refund | expire => exact .inl ⟨_, rfl⟩
  | approve id e' u role c f txHash =>
    by_cases hb : (c && f) = true
    · exact .inl ⟨.approve, by simp only [settles, hb, ite_true]⟩
    · refine .inr (.inr (.inr fun e => ?_))
      simp only [onEscrow, if_neg hb, and_self]

theorem DbTx.Drawn.linked {db : Db} {tx : DbTx} {k : SettleKind} {e : Escrow} (h : tx.Drawn db)
    (hk : tx.settles = some k) (he : db.escrows.lookup tx.escrowId = some e) : e.stellarContractId.isSome := by
  cases tx with
  | fund | failLocks | compensate | milestone => cases hk
  | release | refund | expire | approve =>
    obtain ⟨hc, e', he', hkept⟩ := h
    cases he'.symm.trans he
    exact hkept.linked hc

theorem DisputeWrite.sets_status {d : DisputeWrite} {id : Uuid} {v : EscrowStatus} (h : d.sets = some (id, v)) :
    v ≠ .pending ∧ v ≠ .cancelled := by
  cases d with
  | opening => cases h; exact ⟨nofun, nofun⟩
  | verdict _ _ id' resolution => cases resolution <;> cases h <;> exact ⟨nofun, nofun⟩
  | review => cases h

/-! ## Rows and records -/

/-- The row and the record are not settled in two ways. -/
def Escrow.Agrees (l : Ledger) (id : Uuid) (e : Escrow) : Prop :=
  ∀ r ∈ l.storage.escrows.lookup id.bytes, e.status.Settled → r.Settled → r.status = e.status

def Db.Agrees (l : Ledger) (db : Db) : Prop := ∀ id e, db.escrows.lookup id = some e → e.Agrees l id

/-- A row that was never funded has no contract. -/
def Escrow.Unlinked (e : Escrow) : Prop :=
  e.status = .pending ∨ e.status = .cancelled → e.stellarContractId = none

def Escrow.Final (e e' : Escrow) : Prop := e.status.Terminal → e'.status = e.status

def Db.Final (db db' : Db) : Prop :=
  ∀ id e, db.escrows.lookup id = some e → ∃ e', db'.escrows.lookup id = some e' ∧ e.Final e'

structure World.Aligned (contract : Address) (w : World) : Prop where
  reachable : w.ledger.Reachable contract
  unlinked : ∀ id e, w.db.escrows.lookup id = some e → e.Unlinked
  agrees : w.db.Agrees w.ledger

structure World.Admits (w : World) (id : Uuid) (e' : Escrow) : Prop where
  unlinked : e'.Unlinked
  agrees : e'.Agrees w.ledger id
  final : ∀ e, w.db.escrows.lookup id = some e → e.Final e'

/-! ## Steps in time -/

/-- The row can take the status: it is in no terminal one, and the ledger does not contradict it. -/
def World.MaySet (w : World) (id : Uuid) (v : EscrowStatus) : Prop :=
  ∀ e ∈ w.db.escrows.lookup id,
    e.status = v ∨ ¬ e.status.Terminal ∧ ({ e with status := v } : Escrow).Agrees w.ledger id

/-- A funding finds its row open, a compensation one that was never funded, and a
call settles no escrow against its row. -/
def Op.Timely (s : Stellar) (w : World) : Op → Prop
  | .transact (.fund id _ _ _) => w.MaySet id .funded
  | .transact (.compensate id _ _ _) =>
    ∀ e ∈ w.db.escrows.lookup id, e.status = .pending ∨ e.status = .cancelled
  | .submit method args signers => w.db.Agrees (w.submit s method args signers).1.ledger
  | _ => True

/-- A dispute transaction finds a row that can take its status, and the rest of
the ledger settles no escrow against its row. -/
def SiteAction.Timely (s : Stellar) (c : Site) : SiteAction → Prop
  | .ledger a => c.world.db.Agrees (c.world.ledger.step s.contract a)
  | .write n => ∀ d ∈ c.writes[n]?, ∀ p ∈ d.sets, c.world.MaySet p.1 p.2
  | _ => True

instance (l : Ledger) (id : Uuid) (e : Escrow) : Decidable (e.Agrees l id) :=
  inferInstanceAs (Decidable (∀ r ∈ l.storage.escrows.lookup id.bytes, _))

instance (l : Ledger) (db : Db) : Decidable (db.Agrees l) :=
  decidable_of_iff (∀ p ∈ db.escrows.entries, Escrow.Agrees l p.1 p.2)
    ⟨fun h id e he => h ⟨id, e⟩ (Finmap.lookup_eq_some_iff.mp he), fun h p hp =>
      h p.1 p.2 (Finmap.lookup_eq_some_iff.mpr hp)⟩

instance (w : World) (id : Uuid) (v : EscrowStatus) : Decidable (w.MaySet id v) :=
  inferInstanceAs (Decidable (∀ e ∈ w.db.escrows.lookup id, _))

instance (s : Stellar) (w : World) : (o : Op) → Decidable (o.Timely s w)
  | .transact (.fund id _ _ _) => inferInstanceAs (Decidable (w.MaySet id .funded))
  | .transact (.compensate id _ _ _) => inferInstanceAs (Decidable (∀ e ∈ w.db.escrows.lookup id, _))
  | .submit .. => inferInstanceAs (Decidable (Db.Agrees _ _))
  | .transact (.failLocks _) | .transact (.release ..) | .transact (.refund ..) | .transact (.approve ..)
  | .transact (.milestone ..) | .transact (.expire ..) | .findEscrow _ | .findUser _ | .findEndpoints ..
  | .findSubscribers _ | .createDelivery .. | .enqueueWebhook _ | .simulateGetEscrow _ => .isTrue trivial

instance (s : Stellar) (c : Site) : (a : SiteAction) → Decidable (a.Timely s c)
  | .ledger _ => inferInstanceAs (Decidable (Db.Agrees _ _))
  | .write n => inferInstanceAs (Decidable (∀ d ∈ c.writes[n]?, ∀ p ∈ d.sets, c.world.MaySet p.1 p.2))
  | .request _ | .advance _ | .abort _ | .drop _ => .isTrue trivial

/-! ## What a step keeps -/

theorem Db.Final.of_eq {db db' : Db} (h : db'.escrows = db.escrows) : db.Final db' :=
  fun _ e he => ⟨e, by rw [h]; exact he, fun _ => rfl⟩

namespace World.Aligned

variable {s : Stellar} {contract : Address} {w w' : World}

theorem same (h : w.Aligned contract) (hdb : w'.db.escrows = w.db.escrows) (hl : w'.ledger.Reachable contract)
    (ha : w.db.Agrees w'.ledger) : w'.Aligned contract ∧ w.db.Final w'.db :=
  ⟨⟨hl, by rw [hdb]; exact h.unlinked, by unfold Db.Agrees; rw [hdb]; exact ha⟩, .of_eq hdb⟩

theorem row (h : w.Aligned contract) (hl : w'.ledger = w.ledger) (id : Uuid)
    (hne : ∀ k, k ≠ id → w'.db.escrows.lookup k = w.db.escrows.lookup k)
    (hsome : (w.db.escrows.lookup id).isSome → (w'.db.escrows.lookup id).isSome)
    (hid : ∀ e', w'.db.escrows.lookup id = some e' → w.Admits id e') :
    w'.Aligned contract ∧ w.db.Final w'.db := by
  refine ⟨⟨by rw [hl]; exact h.reachable, fun k e he => ?_, fun k e he => ?_⟩, fun k e he => ?_⟩
  · by_cases hk : k = id
    · subst hk; exact (hid e he).unlinked
    · exact h.unlinked k e (by rw [← hne k hk]; exact he)
  · rw [hl]
    by_cases hk : k = id
    · subst hk; exact (hid e he).agrees
    · exact h.agrees k e (by rw [← hne k hk]; exact he)
  · by_cases hk : k = id
    · subst hk
      obtain ⟨e', he'⟩ := Option.isSome_iff_exists.mp (hsome (by rw [he]; rfl))
      exact ⟨e', he', (hid e' he').final e he⟩
    · exact ⟨e, by rw [hne k hk]; exact he, fun _ => rfl⟩

theorem admits {id : Uuid} {e e' : Escrow} {v : EscrowStatus} (h : w.Aligned contract)
    (he : w.db.escrows.lookup id = some e) (hv : e'.status = v) (hp : v ≠ .pending ∧ v ≠ .cancelled)
    (hset : w.MaySet id v) : w.Admits id e' := by
  subst hv
  refine ⟨fun hpc => hpc.elim (absurd · hp.1) (absurd · hp.2), fun r hr hs hrs => ?_, fun e₀ he₀ ht => ?_⟩
  · rcases hset e he with heq | ⟨-, ha⟩
    · rw [← heq]
      exact h.agrees id e he r hr (by rw [heq]; exact hs) hrs
    · exact ha r hr hs hrs
  · cases he.symm.trans he₀
    rcases hset e he with heq | ⟨hn, -⟩
    · exact heq.symm
    · exact absurd ht hn

/-- The ledger has settled as the commit says, so a settled row already has its status. -/
theorem commit (h : w.Aligned contract) {tx : DbTx} (hc : w.Committed tx w') (ht : (Op.transact tx).Timely s w)
    (hb : w.Backed (.transact tx)) (hd : tx.Drawn w.db) : w'.Aligned contract ∧ w.db.Final w'.db := by
  have happ := (DbTx.apply_ok hc.db).1
  refine h.row hc.ledger tx.escrowId (fun k hk => by rw [happ.escrows, if_neg hk]) (fun hs => ?_)
    fun e' he' => ?_
  · rw [happ.escrows, if_pos rfl, Option.isSome_map]; exact hs
  rw [happ.escrows, if_pos rfl] at he'
  obtain ⟨e, he, rfl⟩ := Option.map_eq_some_iff.mp he'
  rcases tx.settles_cases with ⟨k, hk⟩ | ⟨id, u, c, txHash, rfl⟩ | ⟨id, u, amount, fee, rfl⟩ | hsame
  · obtain ⟨r, hr, hrk⟩ := (hb k hk).record h.reachable
    refine h.admits he (DbTx.onEscrow_settles hk e) (by cases k <;> exact ⟨nofun, nofun⟩) fun e₀ he₀ => ?_
    cases he.symm.trans he₀
    by_cases hterm : e.status.Terminal
    · rcases hterm with hs | hcan
      · have hrs : r.Settled := by
          unfold EscrowRecord.Settled
          rw [hrk]
          exact k.settled_status
        exact .inl ((h.agrees _ e he r hr hs hrs).symm.trans hrk)
      · have hlinked := hd.linked hk he
        rw [h.unlinked _ e he (.inr hcan)] at hlinked
        cases hlinked
    · refine .inr ⟨hterm, fun r' hr' _ _ => ?_⟩
      cases hr.symm.trans hr'
      exact hrk
  · exact h.admits he rfl ⟨nofun, nofun⟩ ht
  · have hpc : e.status = .pending ∨ e.status = .cancelled := ht e he
    refine ⟨fun _ => h.unlinked id e he hpc, fun _ _ hs => ?_, fun e₀ he₀ hterm => ?_⟩
    · rcases hs with hs | hs <;> cases hs
    · cases he.symm.trans he₀
      rcases hpc with hpc | hpc
      · rw [hpc] at hterm
        rcases hterm with (hs | hs) | hs <;> cases hs
      · exact hpc.symm
  · obtain ⟨hst, hcon⟩ := hsame e
    refine ⟨fun hpc => ?_, fun r hr hs hrs => ?_, fun e₀ he₀ _ => ?_⟩
    · rw [hst] at hpc; rw [hcon]; exact h.unlinked _ e he hpc
    · rw [hst] at hs ⊢; exact h.agrees _ e he r hr hs hrs
    · cases he.symm.trans he₀
      exact hst

theorem perform (h : w.Aligned s.contract) {o : Op} {id : Uuid} (ht : o.Timely s w) (hb : w.Backed o)
    (hd : w.Draws id o) : (w.perform s o).1.Aligned s.contract ∧ w.db.Final (w.perform s o).1.db := by
  have hl := ((platform_evolves s).perform w o).reachable h.reachable
  change (w.perform s o).1.ledger.Reachable s.contract at hl
  rcases World.perform_cases s w o with hs | ⟨tx, rfl, hc⟩ | ⟨m, args, ss, call, rfl, -, hc⟩
  · exact h.same (by rw [hs.db]) hl (by rw [hs.ledger]; exact h.agrees)
  · exact h.commit hc ht hb hd.2
  · exact h.same (by rw [hc.db]) hl ht

theorem insert (h : w.Aligned contract) (hl : w'.ledger = w.ledger) {id : Uuid} {e' : Escrow}
    (hins : w'.db.escrows = w.db.escrows.insert id e') (hid : w.Admits id e') :
    w'.Aligned contract ∧ w.db.Final w'.db := by
  refine h.row hl id (fun k hk => ?_) (fun _ => ?_) fun e he => ?_
  · rw [hins, Finmap.lookup_insert_of_ne _ hk]
  · rw [hins, Finmap.lookup_insert]; rfl
  · rw [hins, Finmap.lookup_insert] at he
    cases he
    exact hid

theorem moved (h : w.Aligned contract) {c : Site} (hc : c.world = w) {x : Session} {st : Stage}
    (hm : x.Moves c w' st) : w'.Aligned contract ∧ w.db.Final w'.db := by
  subst hc
  cases hm with
  | committed _ ha =>
    obtain ⟨b, -, hid, -, -, -, rfl⟩ := Session.apply_ok.mp ha
    refine h.insert rfl rfl ⟨fun _ => rfl, fun _ _ hs => ?_, fun e he => ?_⟩
    · rcases hs with hs | hs <;> cases hs
    · cases hid.symm.trans he
  | checked | balanceRead | locked | rowInserted | keyInserted | enqueued | ended =>
    exact h.same rfl h.reachable h.agrees

theorem written (h : w.Aligned contract) {d : DisputeWrite} (hd : d.Applied w.db w'.db)
    (hl : w'.ledger = w.ledger) (hset : ∀ p ∈ d.sets, w.MaySet p.1 p.2) :
    w'.Aligned contract ∧ w.db.Final w'.db := by
  cases hs : d.sets with
  | none => exact h.same (hd.rest hs) (by rw [hl]; exact h.reachable) (by rw [hl]; exact h.agrees)
  | some p =>
    obtain ⟨e, he, hins⟩ := hd.set p.1 p.2 hs
    exact h.insert hl hins (h.admits he rfl (DisputeWrite.sets_status hs) (hset p hs))

end World.Aligned

/-! ## Every run -/

section
variable {s : Stellar}

theorem site_later (s : Stellar) : Prog.Evolves (site s) fun c c' => c.world.Later s.contract c'.world := by
  refine site_evolves (platform_evolves s) fun c c' h => ?_
  cases h with
  | idle | begun | guarded | dropped => exact (platform_evolves s).refl _
  | ledger a => exact World.later_of_step rfl
  | asked _ _ hl _ | written _ _ hl _ => exact ⟨fun hr => by rw [hl]; exact hr, by rw [hl]⟩
  | moved hx hm => cases hm <;> exact ⟨fun hr => hr, List.prefix_rfl⟩

theorem Site.env_aligned {c : Site} (h : c.world.Aligned s.contract) {a : SiteAction} (ha : a.Timely s c) :
    (c.env s a).world.Aligned s.contract ∧ c.world.db.Final (c.env s a).world.db := by
  have hturns {c' : Site} (ht : c.Turns c') : c'.world.Aligned s.contract ∧ c.world.db.Final c'.world.db := by
    rcases ht with rfl | ⟨n, x, w, st, -, hm, rfl⟩
    · exact h.same rfl h.reachable h.agrees
    · exact h.moved rfl hm
  cases a with
  | ledger a => exact h.same rfl (Ledger.reachable_run h.reachable [a]) ha
  | request r =>
    obtain ⟨hdb, hl⟩ := c.request_db r
    refine h.same (congrArg Db.escrows hdb) ?_ ?_
    · change (c.request r).world.ledger.Reachable s.contract
      rw [hl]; exact h.reachable
    · change c.world.db.Agrees (c.request r).world.ledger
      rw [hl]; exact h.agrees
  | advance n => exact hturns (c.advance_turns n)
  | abort n => exact hturns (c.abort_turns n)
  | drop n => exact h.same rfl h.reachable h.agrees
  | write n =>
    simp only [env, write]
    cases hd : c.writes[n]? with
    | none => exact h.same rfl h.reachable h.agrees
    | some d =>
      simp only
      cases happ : d.apply c.world.db with
      | ok db => exact h.written (DisputeWrite.apply_ok happ) rfl (ha d hd)
      | error e => exact h.same rfl h.reachable h.agrees

theorem Site.perform_aligned {c : Site} (h : c.world.Aligned s.contract) {o : Op} {id : Uuid}
    (ht : o.Timely s c.world) (hb : c.world.Backed o) (hd : c.world.Draws id o) :
    ((site s).perform c o).1.world.Aligned s.contract ∧ c.world.db.Final ((site s).perform c o).1.world.db := by
  rcases Site.perform_cases s c o with hp | hp
  · rw [hp]; exact h.perform ht hb hd
  · rw [hp]; exact h.same rfl h.reachable h.agrees

/-- A pool of handlers at work on a site whose rows follow the ledger and meet `Q`. -/
abbrev Site.Following (s : Stellar) (Q : Db → Prop) (c : Pool Op Op.Res WorkerError Unit Site) : Prop :=
  c.Keeps (site s) (fun c c' => c.world.Later s.contract c'.world ∧ c.world.RowsKept c'.world)
    (fun c o => c.world.Backed o ∧ ∃ id, c.world.Draws id o) fun c => c.world.Aligned s.contract ∧ Q c.world.db

abbrev Site.TimelyRun (s : Stellar) : Pool Op Op.Res WorkerError Unit Site →
    List (PoolAction Job SiteAction WorkerError) → Prop :=
  Meets (Pool.step (site s) (Worker.process s)) fun c a =>
    c.Allows (fun c a => a.Timely s c) (fun c o => o.Timely s c.world) a

theorem Site.Following.run {Q : Db → Prop} (hQ : ∀ db db', db.Final db' → Q db → Q db')
    {c : Pool Op Op.Res WorkerError Unit Site} {as : List (PoolAction Job SiteAction WorkerError)}
    (h : Site.Following s Q c) (has : Site.TimelyRun s c as) :
    Site.Following s Q (run (Pool.step (site s) (Worker.process s)) c as) := by
  refine Pool.Keeps.run ((site_later s).and (site_keeps s)) (fun j c h => ?_) (fun c a ha h => ?_)
    (fun c o ht ho h => ?_) h has
  · have hb := site_safe (backed_process h.1.reachable j)
    have hd := site_safe (s := s) (c := c) (draws_process j)
    exact (hb.imp (fun _ _ h => h.1) fun _ _ ho => ho).and
      (hd.imp (fun _ _ h => h.2) fun _ _ ho => ⟨j.escrowId, ho⟩)
  · obtain ⟨ha, hf⟩ := Site.env_aligned h.1 ha
    exact ⟨ha, hQ _ _ hf h.2⟩
  · obtain ⟨hb, id, hd⟩ := ho
    obtain ⟨ha, hf⟩ := Site.perform_aligned h.1 ht hb hd
    exact ⟨ha, hQ _ _ hf h.2⟩

end

/-- In a run whose steps come in time, from a platform without escrows, a row
that is RELEASED, REFUNDED or CANCELLED stays so. -/
theorem terminal_final {s : Stellar} {w : World} (hl : w.ledger.Reachable s.contract) (he : w.db.escrows = ∅)
    (as bs : List (PoolAction Job SiteAction WorkerError)) (ht : Site.TimelyRun s ⟨Site.start w, []⟩ (as ++ bs))
    {id : Uuid} {e : Escrow} (hrow : ((Site.start w).after s as).world.world.db.escrows.lookup id = some e)
    (hterm : e.status.Terminal) :
    ∃ e', ((Site.start w).after s (as ++ bs)).world.world.db.escrows.lookup id = some e' ∧
      e'.status = e.status := by
  obtain ⟨has, hbs⟩ := (meets_append as bs).mp ht
  have h0 : w.Aligned s.contract := by
    refine ⟨hl, fun _ _ h => ?_, fun _ _ h => ?_⟩ <;> rw [he] at h <;> cases h
  have hmid : Site.Following s (fun _ => True) ((Site.start w).after s as) :=
    Site.Following.run (fun _ _ _ h => h) ⟨⟨h0, trivial⟩, fun _ h => nomatch h⟩ has
  have hstay : Site.Following s (fun db => ∃ e', db.escrows.lookup id = some e' ∧ e'.status = e.status)
      (run (Pool.step (site s) (Worker.process s)) ((Site.start w).after s as) bs) := by
    refine Site.Following.run (fun db db' hf ⟨e₁, he₁, hst⟩ => ?_)
      ⟨⟨hmid.world.1, e, hrow, rfl⟩, hmid.procs⟩ hbs
    obtain ⟨e₂, he₂, hfin⟩ := hf id e₁ he₁
    exact ⟨e₂, he₂, (hfin (by rw [hst]; exact hterm)).trans hst⟩
  unfold Site.after
  rw [run_append]
  exact hstay.world.2

/-- An escrow is created and funded, and then disputed by the freelancer. -/
def sampleDisputed : List (PoolAction Job SiteAction WorkerError) :=
  .env (.request (.createEscrow "client" sampleDto "key" sampleId)) :: List.replicate 7 (.env (.advance 0)) ++
    .spawn (.fundEscrow sampleId "client" 1000) :: List.replicate 8 (.step 0 .none) ++
    [.env (.request (.openDispute "freelancer" sampleId "dispute")), .env (.write 0)]

def sampleResolved (resolution : DisputeStatus) : List (PoolAction Job SiteAction WorkerError) :=
  [.env (.request (.resolveDispute "admin" "dispute" resolution)), .env (.write 0)]

def sampleRefund : List (PoolAction Job SiteAction WorkerError) :=
  .spawn (.refundEscrow sampleId "admin" "") :: List.replicate 5 (.step 1 .none)

/-- A verdict for the client, and then the refund. -/
theorem sample_final : ∃ e', ((Site.start sampleWorld).after sampleStellar
    (sampleDisputed ++ sampleResolved .resolvedClient ++ sampleRefund)).world.world.db.escrows.lookup
    sampleId = some e' ∧
      e'.status = .refunded := by
  have hst : (((Site.start sampleWorld).after sampleStellar
      (sampleDisputed ++ sampleResolved .resolvedClient)).world.world.db.escrows.lookup sampleId).map
        (·.status) =
      some .refunded := by decide +kernel
  obtain ⟨e, he, hst⟩ := Option.map_eq_some_iff.mp hst
  obtain ⟨e', he', hst'⟩ :=
    terminal_final sampleWorld_reachable rfl (sampleDisputed ++ sampleResolved .resolvedClient) sampleRefund
      (by decide +kernel) he (by rw [hst]; exact .inl (.inr rfl))
  exact ⟨e', he', hst'.trans hst⟩

/-- The refund, and then a verdict for the freelancer. -/
theorem verdict_overrules_refund : ¬ ∀ as bs e,
    ((Site.start sampleWorld).after sampleStellar as).world.world.db.escrows.lookup sampleId = some e →
    e.status.Terminal →
      ∃ e', ((Site.start sampleWorld).after sampleStellar (as ++ bs)).world.world.db.escrows.lookup
      sampleId = some e' ∧
        e'.status = e.status := by
  intro h
  have hrefunded : (((Site.start sampleWorld).after sampleStellar
      (sampleDisputed ++ sampleRefund)).world.world.db.escrows.lookup sampleId).map
        (·.status) = some .refunded := by
    decide +kernel
  have hreleased : (((Site.start sampleWorld).after sampleStellar (sampleDisputed ++ sampleRefund ++
      sampleResolved .resolvedFreelancer)).world.world.db.escrows.lookup sampleId).map
        (·.status) = some .released := by
    decide +kernel
  obtain ⟨e, he, hst⟩ := Option.map_eq_some_iff.mp hrefunded
  obtain ⟨e', he', hst'⟩ := h (sampleDisputed ++ sampleRefund) (sampleResolved .resolvedFreelancer) e he
    (by rw [hst]; exact .inl (.inr rfl))
  rw [he', Option.map_some, hst', hst] at hreleased
  cases hreleased

end NexusHub
