import NexusHub.Requests

/-!
# Idempotency keys across users

Two runs of one client's `createEscrow` from states that differ in what another
user did. They come to the same as long as no key that the client names is
taken by somebody else; when one is, the client gets that user's transaction
and no escrow.
-/

namespace NexusHub

/-- The answer's body: the row found under the key, else the new row. -/
inductive CreateReply where
  | transaction (idempotencyKey : String) (t : Transaction)
  | escrow (id : Uuid) (e : Escrow)
  deriving DecidableEq

def EscrowService.createEscrowReply (db : Db) (clientId : UserId) (dto : CreateEscrowDto)
    (idempotencyKey : String) (escrowId : Uuid) : Except HttpError (Response × CreateReply) := do
  let res ← createEscrow db clientId dto idempotencyKey escrowId
  return (res, match db.transactions.lookup idempotencyKey with
    | some existing => .transaction idempotencyKey existing
    | none => .escrow escrowId (newEscrow clientId dto))

/-! ## What belongs to a user -/

structure ClientView where
  balance : Option Balance
  escrows : Uuid → Option Escrow
  transactions : String → Option Transaction
  auditLogs : List AuditLog

def Db.viewOf (db : Db) (u : UserId) : ClientView where
  balance := db.balances.lookup u
  escrows id := (db.escrows.lookup id).filter (·.clientId = u)
  transactions key := (db.transactions.lookup key).filter (·.userId = u)
  auditLogs := db.auditLogs.filter (·.userId = some u)

/-- Everything a run of `createEscrow` comes to for the client. -/
def EscrowService.createOutcome (db : Db) (clientId : UserId) (dto : CreateEscrowDto) (key : String) (id : Uuid) :
    Except HttpError (CreateReply × List Job × List WebhookJob × ClientView) :=
  (createEscrowReply db clientId dto key id).map fun (res, reply) =>
    (reply, res.jobs, res.webhooks, res.db.viewOf clientId)

/-- The states differ at most in what `u` did with the key, and with anything else that is not `v`'s. -/
structure SameButFor (u v : UserId) (key : String) (id : Uuid) (db₁ db₂ : Db) : Prop where
  users : db₁.users = db₂.users
  view : db₁.viewOf v = db₂.viewOf v
  id_free : db₁.escrows.lookup id = none ↔ db₂.escrows.lookup id = none
  others : ∀ t, t.userId ≠ u → (db₁.transactions.lookup key = some t ↔ db₂.transactions.lookup key = some t)

def Db.KeyLeftTo (db : Db) (v : UserId) (key : String) : Prop :=
  ∀ t, db.transactions.lookup key = some t → t.userId = v

structure Grantable (db : Db) (v : UserId) (dto : CreateEscrowDto) (id : Uuid) : Prop where
  freelancer : ∃ f, db.users.lookup dto.freelancerId = some f ∧ f.role = .freelancer ∧ f.stellarPublicKey.isSome
  client : (db.users.lookup v).isSome
  covered : ∃ b, db.balances.lookup v = some b ∧
    EscrowService.totalDebitOf dto.amount * 10 ^ 6 ≤ b.availableAmount ∧
      (EscrowService.lockBalance dto.amount b).Storable
  row_fits : (EscrowService.newEscrow v dto).Storable
  id_fresh : db.escrows.lookup id = none

/-- What `v` is entitled to in one state. -/
structure ServedFairly (db : Db) (v : UserId) (dto : CreateEscrowDto) (key : String) (id : Uuid) : Prop where
  own : ∀ res t, EscrowService.createEscrowReply db v dto key id = .ok (res, .transaction key t) → t.userId = v
  created : (∀ t, db.transactions.lookup key = some t → t.userId ≠ v) → Grantable db v dto id →
    ∃ res, EscrowService.createEscrowReply db v dto key id =
        .ok (res, .escrow id (EscrowService.newEscrow v dto)) ∧
      res.db.escrows.lookup id = some (EscrowService.newEscrow v dto)

structure Unaffected (v : UserId) (dto : CreateEscrowDto) (key : String) (id : Uuid) (db₁ db₂ : Db) : Prop where
  same : EscrowService.createOutcome db₁ v dto key id = EscrowService.createOutcome db₂ v dto key id
  fair : ServedFairly db₁ v dto key id ∧ ServedFairly db₂ v dto key id

/-! ## The checks by themselves -/

/-- What is checked once the key is found unused, on what it is checked. -/
def admitted (users : Store UserId User) (balance : Option Balance) (idFree : Bool) (v : UserId)
    (dto : CreateEscrowDto) : Except HttpError Balance := do
  let freelancer ← orFail (users.lookup dto.freelancerId) (.notFound "Freelancer not found")
  throwIf (freelancer.role ≠ .freelancer) (.badRequest "Target user is not a freelancer")
  throwIf (freelancer.stellarPublicKey.isNone) (.badRequest "Freelancer has no Stellar address on file")
  let insufficient := .badRequest "Insufficient balance. Please top up first."
  let balance ← orFail balance insufficient
  throwIf (balance.availableAmount < EscrowService.totalDebitOf dto.amount * 10 ^ 6) insufficient
  throwIf (¬ (EscrowService.lockBalance dto.amount balance).Storable) (.internal .valueOutOfRange)
  throwIf (¬ (EscrowService.newEscrow v dto).Storable) (.internal .valueOutOfRange)
  throwIf (idFree = false) (.internal .uniqueViolation)
  throwIf (users.lookup v).isNone (.internal .foreignKeyViolation)
  return balance

def createdResponse (db : Db) (v : UserId) (dto : CreateEscrowDto) (key : String) (id : Uuid) (b : Balance) :
    Response :=
  ⟨{ db with
      balances := db.balances.insert v (EscrowService.lockBalance dto.amount b)
      escrows := db.escrows.insert id (EscrowService.newEscrow v dto)
      transactions := db.transactions.insert key (EscrowService.lockTransaction v dto id)
      auditLogs := db.auditLogs ++ [⟨some v, "ESCROW_CREATED", id.text⟩] },
    [.fundEscrow id v (EscrowService.stroopsOf dto.amount)], []⟩

variable {db db₁ db₂ : Db} {u v : UserId} {dto : CreateEscrowDto} {key : String} {id : Uuid}

theorem createEscrow_of_unused (hkey : db.transactions.lookup key = none) :
    EscrowService.createEscrow db v dto key id =
      (admitted db.users (db.balances.lookup v) (db.escrows.lookup id).isNone v dto).map
        (createdResponse db v dto key id) := by
  unfold EscrowService.createEscrow admitted
  rw [hkey]
  cases hf : db.users.lookup dto.freelancerId with
  | none => rfl
  | some f =>
    by_cases hrole : f.role = .freelancer
    · by_cases haddress : f.stellarPublicKey.isNone
      · simp [orFail, throwIf, hrole, haddress, Except.map, bind, Except.bind]
      · cases hb : db.balances.lookup v with
        | none => simp [orFail, throwIf, hrole, haddress, Except.map, bind, Except.bind]
        | some b =>
          by_cases hcov : b.availableAmount < EscrowService.totalDebitOf dto.amount * 10 ^ 6
          · simp [orFail, throwIf, hrole, haddress, hcov, Except.map, bind, Except.bind]
          · by_cases hfits : (EscrowService.lockBalance dto.amount b).Storable
            · have hlock : EscrowService.lockFunds db v dto.amount =
                  .ok { db with balances := db.balances.insert v (EscrowService.lockBalance dto.amount b) } :=
                lockFunds_ok.mpr ⟨b, hb, hfits, rfl⟩
              by_cases hrow : (EscrowService.newEscrow v dto).Storable
              · unfold EscrowService.newEscrow at hrow
                cases hid : db.escrows.lookup id <;> cases hv : db.users.lookup v <;>
                  simp [orFail, throwIf, hrole, haddress, hcov, hfits, hlock, hrow, Except.map, bind, Except.bind,
                    Db.createEscrow, Db.createTransaction, Db.createAuditLog, hid, hv, hf, hkey, inTransaction,
                    createdResponse, EscrowService.newEscrow, EscrowService.lockTransaction, pure, Except.pure]
              · simp [orFail, throwIf, hrole, haddress, hcov, hfits, hlock, hrow, Except.map, bind, Except.bind,
                  Db.createEscrow, inTransaction]
            · simp [orFail, throwIf, hrole, haddress, hcov, hfits, EscrowService.lockFunds, hb, Except.map, bind,
                Except.bind, inTransaction]
    · simp [orFail, throwIf, hrole, Except.map, bind, Except.bind]

theorem admitted_ok {users : Store UserId User} {balance : Option Balance} {idFree : Bool} {b : Balance} :
    admitted users balance idFree v dto = .ok b ↔
      (∃ f, users.lookup dto.freelancerId = some f ∧ f.role = .freelancer ∧ f.stellarPublicKey.isSome) ∧
      (users.lookup v).isSome ∧ balance = some b ∧
      EscrowService.totalDebitOf dto.amount * 10 ^ 6 ≤ b.availableAmount ∧
      (EscrowService.lockBalance dto.amount b).Storable ∧ (EscrowService.newEscrow v dto).Storable ∧
      idFree = true := by
  simp only [admitted, except_bind_ok, throwIf_ok, orFail_ok, except_pure_ok, exists_const, not_not, not_lt,
    Bool.not_eq_false, Option.isNone_iff_eq_none, ← Option.isSome_iff_ne_none, ← ne_eq]
  constructor
  · rintro ⟨f, hf, hrole, ha, b', hb, hcov, hfits, hrow, hid, hv, rfl⟩
    exact ⟨⟨f, hf, hrole, ha⟩, hv, hb, hcov, hfits, hrow, hid⟩
  · rintro ⟨⟨f, hf, hrole, ha⟩, hv, hb, hcov, hfits, hrow, hid⟩
    exact ⟨f, hf, hrole, ha, b, hb, hcov, hfits, hrow, hid, hv, rfl⟩

/-! ## The outcome by the key -/

theorem reply_of_used {t : Transaction} (hkey : db.transactions.lookup key = some t) :
    EscrowService.createEscrowReply db v dto key id = .ok (⟨db, [], []⟩, .transaction key t) := by
  unfold EscrowService.createEscrowReply EscrowService.createEscrow
  rw [hkey]
  rfl

theorem reply_of_unused (hkey : db.transactions.lookup key = none) :
    EscrowService.createEscrowReply db v dto key id =
      (admitted db.users (db.balances.lookup v) (db.escrows.lookup id).isNone v dto).map fun b =>
        (createdResponse db v dto key id b, .escrow id (EscrowService.newEscrow v dto)) := by
  unfold EscrowService.createEscrowReply
  rw [createEscrow_of_unused hkey, hkey]
  cases admitted db.users (db.balances.lookup v) (db.escrows.lookup id).isNone v dto <;> rfl

theorem viewOf_created (h : db₁.viewOf v = db₂.viewOf v) (b : Balance) :
    (createdResponse db₁ v dto key id b).db.viewOf v = (createdResponse db₂ v dto key id b).db.viewOf v := by
  simp only [Db.viewOf, ClientView.mk.injEq] at h ⊢
  obtain ⟨-, hescrows, htransactions, hlogs⟩ := h
  refine ⟨?_, funext fun k => ?_, funext fun k => ?_, ?_⟩
  · simp only [createdResponse, Finmap.lookup_insert]
  · simp only [createdResponse, Store.lookup_insert']
    split
    · rfl
    · exact congrFun hescrows k
  · simp only [createdResponse, Store.lookup_insert']
    split
    · rfl
    · exact congrFun htransactions k
  · simp only [createdResponse, List.filter_append, hlogs]

theorem SameButFor.lookup_key (h : SameButFor u v key id db₁ db₂) (h₁ : db₁.KeyLeftTo v key)
    (h₂ : db₂.KeyLeftTo v key) : db₁.transactions.lookup key = db₂.transactions.lookup key := by
  have hfilter {db : Db} (hleft : db.KeyLeftTo v key) :
      (db.viewOf v).transactions key = db.transactions.lookup key := by
    simp only [Db.viewOf]
    cases hk : db.transactions.lookup key with
    | none => rfl
    | some t => exact Option.filter_eq_some_iff.mpr ⟨rfl, decide_eq_true (hleft t hk)⟩
  rw [← hfilter h₁, ← hfilter h₂, h.view]

theorem SameButFor.createOutcome (h : SameButFor u v key id db₁ db₂) (h₁ : db₁.KeyLeftTo v key)
    (h₂ : db₂.KeyLeftTo v key) :
    EscrowService.createOutcome db₁ v dto key id = EscrowService.createOutcome db₂ v dto key id := by
  have hkey := h.lookup_key h₁ h₂
  unfold EscrowService.createOutcome
  cases hk : db₁.transactions.lookup key with
  | some t =>
    rw [reply_of_used hk, reply_of_used (hkey.symm.trans hk)]
    exact congrArg (fun view => Except.ok (_, [], [], view)) h.view
  | none =>
    have hbalance : db₁.balances.lookup v = db₂.balances.lookup v := congrArg ClientView.balance h.view
    have hfree : (db₁.escrows.lookup id).isNone = (db₂.escrows.lookup id).isNone := by
      rw [Bool.eq_iff_iff, Option.isNone_iff_eq_none, Option.isNone_iff_eq_none]
      exact h.id_free
    rw [reply_of_unused hk, reply_of_unused (hkey.symm.trans hk), h.users, hbalance, hfree]
    cases admitted db₂.users (db₂.balances.lookup v) (db₂.escrows.lookup id).isNone v dto with
    | error e => rfl
    | ok b => exact congrArg (fun view => Except.ok (_, _, _, view)) (viewOf_created h.view b)

theorem fair_of_left (h : db.KeyLeftTo v key) : ServedFairly db v dto key id where
  own res t ht := by
    cases hk : db.transactions.lookup key with
    | some t' =>
      rw [reply_of_used hk] at ht
      cases ht
      exact h t hk
    | none =>
      rw [reply_of_unused hk] at ht
      cases hb : admitted db.users (db.balances.lookup v) (db.escrows.lookup id).isNone v dto with
      | error e => rw [hb] at ht; cases ht
      | ok b => rw [hb] at ht; cases ht
  created hunused hgrant := by
    have hk : db.transactions.lookup key = none :=
      Option.eq_none_iff_forall_ne_some.mpr fun t ht => hunused t ht (h t ht)
    obtain ⟨hf, hv, ⟨b, hb, hcov, hfits⟩, hrow, hid⟩ := hgrant
    have hfree : (db.escrows.lookup id).isNone = true := by rw [hid]; rfl
    rw [reply_of_unused hk, admitted_ok.mpr ⟨hf, hv, hb, hcov, hfits, hrow, hfree⟩]
    exact ⟨_, rfl, Finmap.lookup_insert _⟩

theorem left_of_own (h : ∀ res t, EscrowService.createEscrowReply db v dto key id = .ok (res, .transaction key t) →
    t.userId = v) : db.KeyLeftTo v key := fun t ht => h _ t (reply_of_used ht)

/-- The states before and after a `createEscrow` of `u` differ just so for everybody else. -/
theorem sameButFor_created {dto' : CreateEscrowDto} {key' : String} {id' : Uuid} (huv : u ≠ v) (hid : id ≠ id')
    (hkey : db.transactions.lookup key' = none) (hfresh : db.escrows.lookup id' = none) (b : Balance) :
    SameButFor u v key id db (createdResponse db u dto' key' id' b).db where
  users := rfl
  view := by
    simp only [Db.viewOf, ClientView.mk.injEq, createdResponse]
    refine ⟨?_, funext fun k => ?_, funext fun k => ?_, ?_⟩
    · rw [Finmap.lookup_insert_of_ne _ (Ne.symm huv)]
    · exact (Store.filter_insert hfresh (decide_eq_false huv) k).symm
    · exact (Store.filter_insert hkey (decide_eq_false huv) k).symm
    · simp [List.filter_append, huv]
  id_free := by simp only [createdResponse, Finmap.lookup_insert_of_ne _ hid]
  others t ht := by
    simp only [createdResponse, Store.lookup_insert']
    split
    · rename_i hk
      rw [hk, hkey]
      refine iff_of_false nofun fun h => ht ?_
      cases h; rfl
    · rfl

/-- Two runs that differ in what `u` did come to the same for `v`, and fairly so,
exactly when neither finds the key taken by another than `v`. -/
theorem unaffected_iff (h : SameButFor u v key id db₁ db₂) :
    Unaffected v dto key id db₁ db₂ ↔ db₁.KeyLeftTo v key ∧ db₂.KeyLeftTo v key := by
  constructor
  · rintro ⟨-, hfair₁, hfair₂⟩
    exact ⟨left_of_own hfair₁.own, left_of_own hfair₂.own⟩
  · rintro ⟨h₁, h₂⟩
    exact ⟨h.createOutcome h₁ h₂, fair_of_left h₁, fair_of_left h₂⟩

/-! ## Two clients -/

def sampleClients : Db :=
  { sampleWorld.db with
    users := sampleWorld.db.users.insert "second client" ⟨.client, some ⟨4⟩, some "second secret"⟩
    balances := sampleWorld.db.balances.insert "second client" ⟨1000, 0, 0⟩ }

def sampleTaken (key : String) : Db :=
  (createdResponse sampleClients "second client" sampleDto key sampleOther ⟨1000, 0, 0⟩).db

theorem sample_unaffected :
    Unaffected "client" sampleDto "key" sampleId sampleClients (sampleTaken "second key") := by
  have hfree : sampleClients.transactions.lookup "key" = none := rfl
  have hkey : (sampleTaken "second key").transactions.lookup "key" = none :=
    Finmap.lookup_insert_of_ne _ (by decide)
  refine (unaffected_iff (sameButFor_created (by decide) (by decide) rfl rfl _)).mpr
    ⟨fun t ht => ?_, fun t ht => ?_⟩
  · cases hfree.symm.trans ht
  · cases hkey.symm.trans ht

/-- Both use one key: the first client is answered with the second one's transaction. -/
theorem shared_key_interferes : ¬ ∀ (u v : UserId) (dto : CreateEscrowDto) (key : String) (id : Uuid)
    (db₁ db₂ : Db), u ≠ v → SameButFor u v key id db₁ db₂ → Unaffected v dto key id db₁ db₂ := by
  intro h
  have hsame : SameButFor "second client" "client" "key" sampleId sampleClients (sampleTaken "key") :=
    sameButFor_created (by decide) (by decide) rfl rfl _
  obtain ⟨-, -, hfair⟩ := h "second client" "client" sampleDto "key" sampleId _ _ (by decide) hsame
  have hown := hfair.own _ _ (reply_of_used (Finmap.lookup_insert _))
  exact absurd hown (by decide)

end NexusHub
