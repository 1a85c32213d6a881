import NexusHub.Effects
import NexusHub.Settlement

/-!
# The key of an escrow

`initEscrow` encodes the id by itself, the other methods through
`escrowIdToBytes`. Canonical ids are the texts of sixteen bytes and lose nothing
in either, so that each escrow of the database has a record of its own.
-/

namespace NexusHub

/-- On-chain the operation names the escrow stored under `b`. -/
def Op.Addresses (b : Bytes) : Op → Prop
  | submit _ args _ => args.head? = some (.bytes b)
  | simulateGetEscrow escrowId => escrowId = b
  | _ => False

/-- Every operation of every method, for whatever it is passed besides the id. -/
structure Stellar.Addresses (s : Stellar) (escrowId : String) (b : Bytes) : Prop where
  init : ∀ client freelancer amount milestoneHash description disputeDelay milestonesTotal expiryLedger,
    (s.initEscrow escrowId client freelancer amount milestoneHash description disputeDelay milestonesTotal
      expiryLedger).Performs (Op.Addresses b)
  fund : ∀ client, (s.fundEscrow escrowId client).Performs (Op.Addresses b)
  release : ∀ client milestoneHash, (s.releaseEscrow escrowId client milestoneHash).Performs (Op.Addresses b)
  refund : (s.refundEscrow escrowId).Performs (Op.Addresses b)
  approve : ∀ approver, (s.approveRelease escrowId approver).Performs (Op.Addresses b)
  milestone : ∀ freelancer, (s.completeMilestone escrowId freelancer).Performs (Op.Addresses b)
  expire : (s.claimExpired escrowId).Performs (Op.Addresses b)
  read : (Stellar.getEscrowRecord escrowId).Performs (Op.Addresses b)

def World.recordAt (w : World) (escrowId : String) : Option EscrowRecord :=
  w.ledger.storage.escrows.lookup (escrowIdToBytes escrowId)

/-! ## What the service names -/

theorem invoke_addresses {s : Stellar} {b : Bytes} {method : String} {args : List ScVal} {signers : List Address} :
    (s.invoke method (.bytes b :: args) signers).Performs (Op.Addresses b) := Prog.performs_call rfl

theorem initEscrow_addresses {s : Stellar} {escrowId : String} {client freelancer : Address} {amount : Int}
    {hash description : String} {delay total expiry : Nat} :
    (s.initEscrow escrowId client freelancer amount hash description delay total expiry).Performs
      (Op.Addresses (escrowIdToBytes escrowId)) := by
  unfold Stellar.initEscrow
  refine Prog.performs_bind (performs_orThrow _ _) fun amount => Prog.performs_bind (performs_orThrow _ _)
    fun delay => ?_
  refine Prog.performs_bind (performs_orThrow _ _) fun total => Prog.performs_bind (performs_orThrow _ _)
    fun expiry => ?_
  exact invoke_addresses

theorem Stellar.addresses (s : Stellar) (escrowId : String) : s.Addresses escrowId (escrowIdToBytes escrowId) where
  init _ _ _ _ _ _ _ _ := initEscrow_addresses
  fund _ := invoke_addresses
  release _ _ := invoke_addresses
  refund := invoke_addresses
  approve _ := invoke_addresses
  milestone _ := invoke_addresses
  expire := invoke_addresses
  read := Prog.performs_call rfl

theorem dispatch_named {method : String} {args : List ScVal} {b : Bytes} {call : Call}
    (hd : dispatch method args = some call) (hb : args.head? = some (.bytes b)) : call.escrowId? = some b := by
  unfold dispatch at hd
  split at hd
  all_goals cases hd
  all_goals cases hb
  all_goals rfl

theorem isInit_of_dispatch {args : List ScVal} {call : Call} (hd : dispatch "init_escrow" args = some call) :
    call.isInit = true := by
  unfold dispatch at hd
  split at hd
  all_goals cases hd
  all_goals first | rfl | contradiction

/-! ## Records of their own -/

section
variable {s : Stellar} {w : World} {b : Bytes}

theorem Op.Addresses.frame {o : Op} (ho : o.Addresses b) (hw : w.ledger.Reachable s.contract) {k : Bytes}
    (hk : k ≠ b) : (w.perform s o).1.ledger.storage.escrows.lookup k = w.ledger.storage.escrows.lookup k := by
  rcases World.perform_cases s w o with hs | ⟨tx, rfl, -⟩ | ⟨method, args, signers, call, rfl, hd, hc⟩
  · rw [hs.ledger]
  · exact ho.elim
  · exact hc.lookup_ne hw (dispatch_named hd ho) hk

theorem init_creates {args : List ScVal} {signers : List Address} {txHash : TxHash}
    (ho : (Op.submit "init_escrow" args signers).Addresses b) (hw : w.ledger.Reachable s.contract)
    (h : (w.perform s (.submit "init_escrow" args signers)).2 = .ok txHash) :
    w.ledger.storage.escrows.lookup b = none ∧
    ∃ r : EscrowRecord, ∀ as, ∃ r', (run (Ledger.step s.contract)
      (w.perform s (.submit "init_escrow" args signers)).1.ledger as).storage.escrows.lookup b = some r' ∧
        r'.terms = r.terms := by
  change (w.submit s "init_escrow" args signers).2 = .ok txHash at h
  cases hd : dispatch "init_escrow" args with
  | none => unfold World.submit at h; rw [hd] at h; cases h
  | some call =>
    obtain ⟨hc, -⟩ := World.submit_ok hd h
    obtain ⟨r, hcr, -, hlook⟩ := hc.creates hw (dispatch_named hd ho) (isInit_of_dispatch hd)
    have hr : (w.submit s "init_escrow" args signers).1.ledger.storage.escrows.lookup b = some r :=
      (hlook b).trans (if_pos rfl)
    exact ⟨hcr.fresh, r, fun as => terms_run (hc.reachable hw) hr as⟩

end

/-- Every method names an escrow by the same bytes, whatever the id; from the
sixteen bytes of a canonical id the id can be read back; so operations for one id
leave the record of another alone, and those for the same id find the record
that its `init_escrow` created. -/
theorem escrow_key_unique (s : Stellar) :
    (∀ escrowId, s.Addresses escrowId (escrowIdToBytes escrowId)) ∧
    (∀ escrowId, IsUuidText escrowId →
      (escrowIdToBytes escrowId).length = 16 ∧ uuidText (escrowIdToBytes escrowId) = escrowId) ∧
    (∀ x y, IsUuidText x → IsUuidText y → x ≠ y → escrowIdToBytes x ≠ escrowIdToBytes y ∧
      ∀ w : World, w.ledger.Reachable s.contract → ∀ o : Op, o.Addresses (escrowIdToBytes x) →
        (w.perform s o).1.recordAt y = w.recordAt y) ∧
    ∀ escrowId, ∀ w : World, w.ledger.Reachable s.contract → ∀ args signers txHash,
      (Op.submit "init_escrow" args signers).Addresses (escrowIdToBytes escrowId) →
      (w.perform s (.submit "init_escrow" args signers)).2 = .ok txHash →
      w.recordAt escrowId = none ∧ ∃ r : EscrowRecord, ∀ w' : World, ∀ as,
        w'.ledger = run (Ledger.step s.contract) (w.perform s (.submit "init_escrow" args signers)).1.ledger as →
        ∃ r', w'.recordAt escrowId = some r' ∧ r'.terms = r.terms := by
  have hback {x : String} (hx : IsUuidText x) : ∃ u : Uuid, u.text = x ∧ escrowIdToBytes x = u.bytes := by
    obtain ⟨u, rfl⟩ := isUuidText_iff.mp hx
    exact ⟨u, rfl, escrowIdToBytes_text u⟩
  refine ⟨s.addresses, fun x hx => ?_, fun x y hx hy hne => ?_, fun x w hw args signers txHash ho h => ?_⟩
  · obtain ⟨u, rfl, hb⟩ := hback hx
    rw [hb]
    exact ⟨u.length_eq, rfl⟩
  · obtain ⟨u, rfl, hu⟩ := hback hx
    obtain ⟨v, rfl, hv⟩ := hback hy
    have hbytes : escrowIdToBytes u.text ≠ escrowIdToBytes v.text := by
      rw [hu, hv]
      exact fun h => hne (congrArg Uuid.text (Uuid.bytes_injective h))
    exact ⟨hbytes, fun w hw o ho => ho.frame hw hbytes.symm⟩
  · obtain ⟨hfresh, r, hr⟩ := init_creates ho hw h
    refine ⟨hfresh, r, fun w' as hw' => ?_⟩
    rw [World.recordAt, hw']
    exact hr as

theorem sample_keys_differ :
    escrowIdToBytes "f47ac10b-58cc-4372-a567-0e02b2c3d479" ≠
      escrowIdToBytes "f47ac10b-58cc-4372-a567-0e02b2c3d497" := by
  refine ((escrow_key_unique sampleStellar).2.2.1 _ _ ?_ ?_ (by decide)).1
  · exact ⟨"f47ac10b58cc4372a5670e02b2c3d479".toList, by decide, List.forall_iff_forall_mem.mp (by decide), by decide⟩
  · exact ⟨"f47ac10b58cc4372a5670e02b2c3d497".toList, by decide, List.forall_iff_forall_mem.mp (by decide), by decide⟩

end NexusHub
