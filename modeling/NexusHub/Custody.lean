import NexusHub.Attempts
import NexusHub.Base64

/-!
# Stored secrets

A user's secret is stored encrypted, as base64 of the initialisation vector, the
tag and the ciphertext. What the worker takes for a key is what was encrypted
under its own encryption key, whoever wrote the column.
-/

namespace NexusHub

/-! ## Authenticated encryption -/

/-- AES-256-GCM. `sealed` gives the ciphertext and the tag, `opened` is `none` where deciphering throws. -/
structure Gcm where
  sealed (key iv plaintext : Bytes) : Bytes × Bytes
  opened (key iv tag ciphertext : Bytes) : Option Bytes

/-- A tag may be cut, and is compared as far as it goes. -/
structure Gcm.Lawful (g : Gcm) : Prop where
  length_ciphertext : ∀ key iv m, (g.sealed key iv m).1.length = m.length
  length_tag : ∀ key iv m, (g.sealed key iv m).2.length = 16
  opens : ∀ key iv m, g.opened key iv (g.sealed key iv m).2 (g.sealed key iv m).1 = some m
  authentic : ∀ {key iv tag c m}, g.opened key iv tag c = some m →
    (g.sealed key iv m).1 = c ∧ tag <+: (g.sealed key iv m).2

/-! ## The service -/

namespace Stellar

section
variable (g : Gcm) (encryptionKey : Bytes)

/-- `iv` is what `randomBytes(12)` gives; a secret is taken as the bytes of its text. -/
def encryptSecret (iv secret : Bytes) : Option String :=
  if encryptionKey.length = 32 then
    let (encrypted, tag) := g.sealed encryptionKey iv secret
    some (Base64.encode (iv ++ tag ++ encrypted))
  else none

def decryptSecret (ciphertext : String) : Option Bytes :=
  let buf := Base64.decode ciphertext
  let iv := buf.take 12
  let tag := (buf.drop 12).take 16
  let encrypted := buf.drop 28
  if encryptionKey.length = 32 then g.opened encryptionKey iv tag encrypted else none

/-- `fromSecret` is `Keypair.fromSecret`, `none` where it throws. -/
def keypairFromEncrypted (fromSecret : Bytes → Option Address) (ciphertext : String) : Option Address :=
  (decryptSecret g encryptionKey ciphertext).bind fromSecret

/-- The text decodes to the same bytes as an encryption of the secret. -/
def Spells (text : String) (secret : Bytes) : Prop :=
  ∃ iv text', iv.length = 12 ∧ encryptSecret g encryptionKey iv secret = some text' ∧
    Base64.decode text = Base64.decode text'

end

variable {g : Gcm} {encryptionKey : Bytes}

theorem encryptSecret_eq_some {iv secret : Bytes} {text : String} :
    encryptSecret g encryptionKey iv secret = some text ↔ encryptionKey.length = 32 ∧
      text = Base64.encode (iv ++ (g.sealed encryptionKey iv secret).2 ++ (g.sealed encryptionKey iv secret).1) := by
  unfold encryptSecret
  split
  · rename_i h
    simp only [h, true_and, Option.some.injEq]
    exact eq_comm
  · rename_i h
    simp only [h, false_and, reduceCtorEq]

theorem decryptSecret_eq_some {text : String} {secret : Bytes} :
    decryptSecret g encryptionKey text = some secret ↔ encryptionKey.length = 32 ∧
      g.opened encryptionKey ((Base64.decode text).take 12) (((Base64.decode text).drop 12).take 16)
        ((Base64.decode text).drop 28) = some secret := by
  unfold decryptSecret
  split
  · rename_i h
    simp only [h, true_and]
  · rename_i h
    simp only [h, false_and, reduceCtorEq]

/-- The parts of a stored secret can be told apart again. -/
theorem split_frame {iv tag encrypted buf : Bytes} (hiv : iv.length = 12) (htag : tag.length = 16)
    (h : buf = iv ++ tag ++ encrypted) : buf.take 12 = iv ∧ (buf.drop 12).take 16 = tag ∧ buf.drop 28 = encrypted := by
  subst h
  have hframe : (iv ++ tag).length = 28 := by rw [List.length_append, hiv, htag]
  refine ⟨?_, ?_, List.drop_left' hframe⟩
  · rw [List.append_assoc, List.take_left' hiv]
  · rw [List.append_assoc, List.drop_left' hiv, List.take_left' htag]

theorem decryptSecret_of_spells (hg : g.Lawful) {text : String} {secret : Bytes}
    (h : Spells g encryptionKey text secret) : decryptSecret g encryptionKey text = some secret := by
  obtain ⟨iv, text', hiv, he, hdecode⟩ := h
  obtain ⟨hkey, rfl⟩ := encryptSecret_eq_some.mp he
  rw [Base64.decode_encode] at hdecode
  obtain ⟨h₁, h₂, h₃⟩ := split_frame hiv (hg.length_tag ..) hdecode
  refine decryptSecret_eq_some.mpr ⟨hkey, ?_⟩
  rw [h₁, h₂, h₃]
  exact hg.opens ..

/-- Only a secret of no length could be told by a text that is cut in its tag. -/
theorem spells_of_decryptSecret (hg : g.Lawful) {text : String} {secret : Bytes} (hne : secret ≠ [])
    (h : decryptSecret g encryptionKey text = some secret) : Spells g encryptionKey text secret := by
  obtain ⟨hkey, hopen⟩ := decryptSecret_eq_some.mp h
  obtain ⟨hcipher, htag⟩ := hg.authentic hopen
  generalize hbuf : Base64.decode text = buf at hcipher htag
  have hlen : 28 < buf.length := by
    have := congrArg List.length hcipher
    rw [hg.length_ciphertext, List.length_drop] at this
    have := List.length_pos_iff.mpr hne
    omega
  have hiv : (buf.take 12).length = 12 := by rw [List.length_take]; omega
  have hfull : ((buf.drop 12).take 16).length = 16 := by rw [List.length_take, List.length_drop]; omega
  have htag' := htag.eq_of_length (hfull.trans (hg.length_tag ..).symm)
  refine ⟨_, _, hiv, encryptSecret_eq_some.mpr ⟨hkey, rfl⟩, ?_⟩
  rw [Base64.decode_encode, hbuf, ← htag', hcipher]
  have hdrop : buf.drop 28 = (buf.drop 12).drop 16 := by rw [List.drop_drop]
  rw [hdrop, List.append_assoc, List.take_append_drop, List.take_append_drop]

end Stellar

/-! ## Whose key it is -/

/-- The service's keys come from stored secrets. -/
def Stellar.Custodial (s : Stellar) (g : Gcm) (encryptionKey : Bytes) (fromSecret : Bytes → Option Address) : Prop :=
  ∀ text, s.keypairOf text = Stellar.keypairFromEncrypted g encryptionKey fromSecret text

/-- The worker signs for a user with a key exactly if the user's row holds a secret of that key, encrypted
under the service's encryption key. -/
theorem keys_are_stored_secrets {s : Stellar} {g : Gcm} {encryptionKey : Bytes} {fromSecret : Bytes → Option Address}
    (hs : s.Custodial g encryptionKey fromSecret) (hg : g.Lawful) (hempty : fromSecret [] = none) (w : World)
    (u : UserId) (a : Address) : w.keyOf s u = some a ↔ ∃ user text secret, w.db.users.lookup u = some user ∧
      user.stellarSecretEncrypted = some text ∧ Stellar.Spells g encryptionKey text secret ∧
      fromSecret secret = some a := by
  simp only [World.keyOf, Option.bind_eq_some_iff]
  constructor
  · rintro ⟨text, ⟨user, hu, ht⟩, hk⟩
    rw [hs text, Stellar.keypairFromEncrypted, Option.bind_eq_some_iff] at hk
    obtain ⟨secret, hd, ha⟩ := hk
    have hne : secret ≠ [] := fun he => by rw [he, hempty] at ha; cases ha
    exact ⟨user, text, secret, hu, ht, Stellar.spells_of_decryptSecret hg hne hd, ha⟩
  · rintro ⟨user, text, secret, hu, ht, hspells, ha⟩
    refine ⟨text, ⟨user, hu, ht⟩, ?_⟩
    rw [hs text, Stellar.keypairFromEncrypted, Stellar.decryptSecret_of_spells hg hspells]
    exact ha

/-! ## A sample

The key and the initialisation vector are zeros; the secret is the text `SECRET`. -/

def xorStream : Bytes → Bytes → Bytes
  | k :: ks, m :: ms => (k ^^^ m) :: xorStream ks ms
  | _, ms => ms

theorem xorStream_length (ks ms : Bytes) : (xorStream ks ms).length = ms.length := by
  fun_induction xorStream ks ms with
  | case1 k ks m ms ih => simp [ih]
  | case2 => rfl

theorem xorStream_twice (ks ms : Bytes) : xorStream ks (xorStream ks ms) = ms := by
  fun_induction xorStream ks ms with
  | case1 k ks m ms ih =>
    rw [xorStream, ih, ← UInt8.xor_assoc, UInt8.xor_self, UInt8.zero_xor]
  | case2 ks ms h =>
    cases ks with
    | nil => cases ms <;> rfl
    | cons k ks =>
      cases ms with
      | nil => rfl
      | cons m ms => exact absurd rfl (h k ks m ms rfl)

def sampleSecret : Bytes := [0x53, 0x45, 0x43, 0x52, 0x45, 0x54]

/-- The key stream and the tag are those of the sample; elsewhere the tag is zero. -/
def sampleGcm : Gcm where
  sealed key iv m := (xorStream [0xce, 0xa7, 0x40, 0x3d, 0x4d, 0x60] m, tagOf key iv m)
  opened key iv tag c :=
    let m := xorStream [0xce, 0xa7, 0x40, 0x3d, 0x4d, 0x60] c
    if tag = tagOf key iv m then some m else none
where
  tagOf (key iv m : Bytes) : Bytes :=
    if key = List.replicate 32 0 ∧ iv = List.replicate 12 0 ∧ m = sampleSecret then
      [0x2e, 0xe1, 0x46, 0x71, 0x98, 0x7d, 0x14, 0x01, 0x46, 0x45, 0x0e, 0xbf, 0x51, 0xf1, 0x02, 0x29]
    else List.replicate 16 0

theorem sampleGcm_lawful : sampleGcm.Lawful where
  length_ciphertext _ _ m := xorStream_length _ m
  length_tag key iv m := by
    change (sampleGcm.tagOf key iv m).length = 16
    unfold sampleGcm.tagOf
    split <;> rfl
  opens key iv m := by
    simp only [sampleGcm, xorStream_twice, ite_true]
  authentic {key iv tag c m} h := by
    simp only [sampleGcm] at h ⊢
    split at h
    · rename_i htag
      cases h
      exact ⟨xorStream_twice _ c, htag ▸ List.prefix_rfl⟩
    · cases h

/-- The sample platform, with the client's secret in its row. -/
def sampleCustody : World :=
  { sampleWorld with db := { sampleWorld.db with
      users := sampleUsers.insert "client"
        ⟨.client, some ⟨1⟩, some "AAAAAAAAAAAAAAAALuFGcZh9FAFGRQ6/UfECKZ3iA28INA=="⟩ } }

def sampleFromSecret (secret : Bytes) : Option Address := if secret = sampleSecret then some ⟨1⟩ else none

def sampleCustodian : Stellar :=
  { sampleStellar with keypairOf := Stellar.keypairFromEncrypted sampleGcm (List.replicate 32 0) sampleFromSecret }

theorem sample_stored_secret : sampleCustody.keyOf sampleCustodian "client" = some ⟨1⟩ ↔
    ∃ user text secret, sampleCustody.db.users.lookup "client" = some user ∧
      user.stellarSecretEncrypted = some text ∧
      Stellar.Spells sampleGcm (List.replicate 32 0) text secret ∧ sampleFromSecret secret = some ⟨1⟩ :=
  keys_are_stored_secrets (fun _ => rfl) sampleGcm_lawful rfl sampleCustody "client" ⟨1⟩

example : sampleCustody.keyOf sampleCustodian "client" = some ⟨1⟩ := by decide +kernel

end NexusHub
