import Anymone.EthJson

/-! # Response capabilities

A caller of the Ethereum service hands it a capability: a secret, the context it is bound
to and the epochs in which the reply may be published.  Whoever holds it derives the
locator under which the reply appears in an epoch, and opens the reply.

The primitives are parameters (`EthCrypto`) on values before `bincode`; what makes them
ideal is `EthCrypto.Ideal`.  Sizes are those of the fixed-width encoding.
-/

namespace Anymone.Eth

/-- `u16`. -/
abbrev U16 := Fin 65536

/-- `VERSION`. -/
def version : U16 := 0

/-- `ResponseKeyContext`. -/
structure ResponseKeyContext where
  version : U16
  network : ByteArr 32
  service : ByteArr 32
  chain : U64
  operation : ByteArr 32
  requestDigest : ByteArr 32
  expiresAt : U64
  deriving DecidableEq

/-- `DeliverySpec`. -/
structure DeliverySpec where
  feed : ByteArr 32
  firstEpoch : U64
  lastEpoch : U64
  deriving DecidableEq

/-- `ResponseCapability`. -/
structure ResponseCapability where
  secret : ByteArr 32
  context : ResponseKeyContext
  delivery : DeliverySpec
  deriving DecidableEq

/-- `RequestEnvelope`. -/
structure RequestEnvelope where
  capability : ResponseCapability
  backendRoute : String
  payload : Bytes
  deriving DecidableEq

/-- `DeliveryBinding`. -/
structure DeliveryBinding (Locator : Type) where
  feed : ByteArr 32
  epoch : U64
  locator : Locator
  deriving DecidableEq

/-- `SignedResponse`. -/
structure SignedResponse where
  content : Bytes
  signature : Bytes
  deriving DecidableEq

/-- The primitives, on what they are applied to before it is encoded. -/
structure EthCrypto where
  /-- What HKDF yields. -/
  Key : Type
  Locator : Type
  Ciphertext : Type
  SigningKey : Type
  locatorOrd : LinearOrder Locator
  ciphertextEq : DecidableEq Ciphertext
  /-- `digest`, of a route and its payload, of a request, and of a submission. -/
  payloadDigest : String → Bytes → ByteArr 32
  requestDigest : RequestEnvelope → ByteArr 32
  submissionDigest : U64 → String → String → Option Json → ByteArr 32
  /-- HKDF under the response domain, with a label and the context as info. -/
  deriveKey : ByteArr 32 → String → ResponseKeyContext → Key
  /-- HMAC of a feed and an epoch. -/
  mac : Key → ByteArr 32 → U64 → Locator
  /-- XChaCha20-Poly1305 with a context and a binding as associated data. -/
  encrypt : Key → ByteArr 24 → ResponseKeyContext × DeliveryBinding Locator → SignedResponse →
    Ciphertext
  decrypt : Key → ByteArr 24 → ResponseKeyContext × DeliveryBinding Locator → Ciphertext →
    Option SignedResponse
  ciphertextLen : Ciphertext → Nat
  /-- Ed25519, over the associated data and the content. -/
  verifyingKey : SigningKey → ByteArr 32
  sign : SigningKey → (ResponseKeyContext × DeliveryBinding Locator) × Bytes → ByteArr 64
  verifyStrict : ByteArr 32 → (ResponseKeyContext × DeliveryBinding Locator) × Bytes → Bytes → Bool

namespace EthCrypto
variable (K : EthCrypto)

instance : LinearOrder K.Locator := K.locatorOrd

instance : DecidableEq K.Ciphertext := K.ciphertextEq

/-- `DeliveryBinding`, with its locator. -/
abbrev Binding := DeliveryBinding K.Locator

/-- What a reply is bound to: the additional authenticated data. -/
abbrev Aad := ResponseKeyContext × K.Binding

/-- Ideal primitives: a key and a locator say what they were made from, a ciphertext opens
under its own key and associated data and no others, and a signature verifies. -/
structure Ideal : Prop where
  derive_inj : ∀ {s s' l l' c c'}, K.deriveKey s l c = K.deriveKey s' l' c' → s = s' ∧ l = l' ∧ c = c'
  mac_inj : ∀ {k k' f f' e e'}, K.mac k f e = K.mac k' f' e' → k = k' ∧ f = f' ∧ e = e'
  decrypt_encrypt : ∀ k n a m, K.decrypt k n a (K.encrypt k n a m) = some m
  decrypt_bound : ∀ {k k' n n' a a' m m'}, K.decrypt k n a (K.encrypt k' n' a' m) = some m' →
    k = k' ∧ a = a'
  ciphertextLen_encrypt : ∀ k n a m,
    K.ciphertextLen (K.encrypt k n a m) = 8 + m.content.length + (8 + m.signature.length) + 16
  verify_sign : ∀ sk m, K.verifyStrict (K.verifyingKey sk) m (K.sign sk m).1 = true

end EthCrypto

/-- `SealedResponse`. -/
structure SealedResponse (K : EthCrypto) where
  nonce : ByteArr 24
  ciphertext : K.Ciphertext
  deriving DecidableEq

/-- `ReplyPacket`. -/
structure ReplyPacket (K : EthCrypto) where
  binding : K.Binding
  sealed : SealedResponse K
  deriving DecidableEq

variable {K : EthCrypto}

/-- `serialized_size` of a packet: its binding, its nonce and its ciphertext with a length. -/
def ReplyPacket.size (p : ReplyPacket K) : Nat :=
  32 + 8 + 32 + 24 + 8 + K.ciphertextLen p.sealed.ciphertext

namespace ResponseCapability
variable (cap : ResponseCapability)

/-- `derive`. -/
def derive (K : EthCrypto) (label : String) : K.Key := K.deriveKey cap.secret label cap.context

/-- `locator`. -/
def locator (K : EthCrypto) (epoch : U64) : Except Error K.Locator :=
  if epoch < cap.delivery.firstEpoch ∨ cap.delivery.lastEpoch < epoch then .error .context
  else .ok (K.mac (cap.derive K "lookup") cap.delivery.feed epoch)

/-- `aad`. -/
def aad (binding : K.Binding) (now : U64) : Except Error K.Aad :=
  if cap.context.version ≠ version ∨ cap.context.expiresAt ≤ now then .error .context
  else if cap.delivery.feed ≠ binding.feed then .error .context
  else do
    let locator ← cap.locator K binding.epoch
    if locator ≠ binding.locator then .error .context else .ok (cap.context, binding)

/-- The encoding of what is signed: the length-prefixed associated data, and the content. -/
def signedSize (content : Bytes) : Nat := 8 + 254 + 8 + content.length

/-- `seal`, under a nonce. -/
def sealResponse (binding : K.Binding) (content : Bytes) (signer : K.SigningKey) (nonce : ByteArr 24)
    (now : U64) : Except Error (SealedResponse K) :=
  if K.verifyingKey signer ≠ cap.context.service then .error .authentication
  else if maxMessageBytes < content.length then .error .limit
  else do
    let aad ← cap.aad binding now
    if maxMessageBytes < signedSize content then .error .binary
    else
      let signature := K.sign signer (aad, content)
      .ok ⟨nonce, K.encrypt (cap.derive K "encryption") nonce aad ⟨content, signature.1⟩⟩

/-- `open`. -/
def openResponse (binding : K.Binding) (sealed : SealedResponse K) (now : U64) :
    Except Error Bytes :=
  if maxMessageBytes + 96 < K.ciphertextLen sealed.ciphertext then .error .limit
  else do
    let aad ← cap.aad binding now
    match K.decrypt (cap.derive K "encryption") sealed.nonce aad sealed.ciphertext with
    | none => .error .authentication
    | some signed =>
        if !K.verifyStrict cap.context.service (aad, signed.content) signed.signature then
          .error .authentication
        else if maxMessageBytes < signed.content.length then .error .limit
        else .ok signed.content

/-! ## What the operations check -/

variable {cap}

theorem locator_eq_ok {epoch : U64} {l : K.Locator} :
    cap.locator K epoch = .ok l ↔
      cap.delivery.firstEpoch ≤ epoch ∧ epoch ≤ cap.delivery.lastEpoch ∧
        l = K.mac (cap.derive K "lookup") cap.delivery.feed epoch := by
  unfold locator
  split_ifs with h
  · simp only [false_iff]
    rintro ⟨hf, hl, -⟩
    exact h.elim (fun h => absurd hf (not_le.mpr h)) (fun h => absurd hl (not_le.mpr h))
  · obtain ⟨hf, hl⟩ := not_or.mp h
    simp [not_lt.mp hf, not_lt.mp hl, eq_comm]

/-- The associated data of a binding is made when the capability has not expired and the
binding is the capability's own for its epoch. -/
theorem aad_eq_ok {binding : K.Binding} {now : U64} {a : K.Aad} :
    cap.aad binding now = .ok a ↔
      cap.context.version = version ∧ now < cap.context.expiresAt ∧
        cap.delivery.feed = binding.feed ∧ cap.locator K binding.epoch = .ok binding.locator ∧
        a = (cap.context, binding) := by
  unfold aad
  split_ifs with h hf
  · simp only [false_iff]
    rintro ⟨hv, hlt, -⟩
    exact h.elim (fun h => h hv) (fun h => absurd hlt (not_lt.mpr h))
  · simp [hf]
  · obtain ⟨hv, he⟩ := not_or.mp h
    rw [ne_eq, not_not] at hv hf
    cases hloc : cap.locator K binding.epoch with
    | error e => simp [Except.bind, bind]
    | ok l =>
      simp only [bind, Except.bind, hv, not_le.mp he, hf, Except.ok.injEq, true_and]
      by_cases hl : l = binding.locator
      · simp [hl, eq_comm]
      · simp [hl]

/-- Sealing succeeds for the service's own key on a binding of the capability. -/
theorem sealResponse_eq_ok {binding : K.Binding} {content : Bytes} {signer : K.SigningKey}
    {nonce : ByteArr 24} {now : U64} {sealed : SealedResponse K} :
    cap.sealResponse binding content signer nonce now = .ok sealed ↔
      K.verifyingKey signer = cap.context.service ∧ signedSize content ≤ maxMessageBytes ∧
        cap.aad binding now = .ok (cap.context, binding) ∧
        sealed = ⟨nonce, K.encrypt (cap.derive K "encryption") nonce (cap.context, binding)
          ⟨content, (K.sign signer ((cap.context, binding), content)).1⟩⟩ := by
  unfold sealResponse
  by_cases hkey : K.verifyingKey signer = cap.context.service
  · rw [if_neg (not_not.mpr hkey)]
    by_cases hlen : maxMessageBytes < content.length
    · rw [if_pos hlen]
      simp only [reduceCtorEq, false_iff]
      rintro ⟨-, hsize, -⟩
      unfold signedSize at hsize
      omega
    · rw [if_neg hlen]
      cases haad : cap.aad binding now with
      | error e => simp [bind, Except.bind]
      | ok a =>
        obtain ⟨-, -, -, -, rfl⟩ := aad_eq_ok.mp haad
        simp only [bind, Except.bind, hkey, true_and]
        by_cases hsize : maxMessageBytes < signedSize content
        · simp [hsize]
        · simp [hsize, not_lt.mp hsize, eq_comm]
  · simp [hkey]

/-- What opens was encrypted under the capability's key for this binding. -/
theorem openResponse_eq_ok {binding : K.Binding} {sealed : SealedResponse K} {now : U64}
    {content : Bytes} (h : cap.openResponse binding sealed now = .ok content) :
    cap.aad binding now = .ok (cap.context, binding) ∧
      ∃ signed, K.decrypt (cap.derive K "encryption") sealed.nonce (cap.context, binding)
          sealed.ciphertext = some signed ∧ signed.content = content ∧
        K.verifyStrict cap.context.service ((cap.context, binding), content) signed.signature =
          true := by
  unfold openResponse at h
  split at h
  · cases h
  · cases haad : cap.aad binding now with
    | error e => simp [haad, bind, Except.bind] at h
    | ok a =>
      obtain ⟨-, -, -, -, rfl⟩ := aad_eq_ok.mp haad
      simp only [haad, bind, Except.bind] at h
      cases hdec : K.decrypt (cap.derive K "encryption") sealed.nonce (cap.context, binding)
          sealed.ciphertext with
      | none => simp [hdec] at h
      | some signed =>
        simp only [hdec] at h
        split_ifs at h with hver hlen
        cases h
        exact ⟨rfl, signed, rfl, rfl, by simpa using hver⟩

/-! ## Round trips -/

variable (ideal : K.Ideal)
include ideal

/-- **What a capability seals it opens**, while it has not expired. -/
theorem openResponse_sealResponse {binding : K.Binding} {content : Bytes} {signer : K.SigningKey}
    {nonce : ByteArr 24} {now later : U64} {sealed : SealedResponse K}
    (h : cap.sealResponse binding content signer nonce now = .ok sealed)
    (hlater : later < cap.context.expiresAt) :
    cap.openResponse binding sealed later = .ok content := by
  obtain ⟨hkey, hsize, haad, rfl⟩ := sealResponse_eq_ok.mp h
  obtain ⟨hver, -, hfeed, hloc, -⟩ := aad_eq_ok.mp haad
  have hopen : cap.aad binding later = .ok (cap.context, binding) :=
    aad_eq_ok.mpr ⟨hver, hlater, hfeed, hloc, rfl⟩
  have hlen := ideal.ciphertextLen_encrypt (cap.derive K "encryption") nonce (cap.context, binding)
    ⟨content, (K.sign signer ((cap.context, binding), content)).1⟩
  have hsig : (K.sign signer ((cap.context, binding), content)).1.length = 64 :=
    (K.sign signer ((cap.context, binding), content)).2
  have hverify := ideal.verify_sign signer ((cap.context, binding), content)
  unfold signedSize at hsize
  unfold openResponse
  rw [if_neg (by dsimp only at hlen ⊢; omega), hopen]
  simp only [bind, Except.bind, ideal.decrypt_encrypt]
  rw [← hkey, hverify]
  simp only [Bool.not_true, Bool.false_eq_true, if_false]
  rw [if_neg (by omega)]

/-- **A packet opens under the capability that sealed it and no other**, wherever its
ciphertext was moved. -/
theorem eq_of_openResponse {cap' : ResponseCapability} {binding binding' : K.Binding}
    {content content' : Bytes} {signer : K.SigningKey} {nonce : ByteArr 24} {now later : U64}
    {sealed : SealedResponse K}
    (hseal : cap'.sealResponse binding' content signer nonce now = .ok sealed)
    (hopen : cap.openResponse binding sealed later = .ok content') :
    cap.secret = cap'.secret ∧ cap.context = cap'.context ∧ binding = binding' ∧
      content' = content := by
  obtain ⟨-, -, -, rfl⟩ := sealResponse_eq_ok.mp hseal
  obtain ⟨-, signed, hdec, rfl, -⟩ := openResponse_eq_ok hopen
  obtain ⟨hkey, haad⟩ := ideal.decrypt_bound hdec
  obtain ⟨hsecret, -, hcontext⟩ := ideal.derive_inj hkey
  obtain ⟨-, hbinding⟩ := Prod.mk.inj haad
  refine ⟨hsecret, hcontext, hbinding, ?_⟩
  rw [hkey, haad, ideal.decrypt_encrypt] at hdec
  rw [← Option.some.inj hdec]

/-- A locator says which capability it is of, in which feed and epoch. -/
theorem eq_of_locator {cap' : ResponseCapability} {epoch epoch' : U64} {l : K.Locator}
    (h : cap.locator K epoch = .ok l) (h' : cap'.locator K epoch' = .ok l) :
    cap.secret = cap'.secret ∧ cap.context = cap'.context ∧
      cap.delivery.feed = cap'.delivery.feed ∧ epoch = epoch' := by
  obtain ⟨-, -, rfl⟩ := locator_eq_ok.mp h
  obtain ⟨-, -, hmac⟩ := locator_eq_ok.mp h'
  obtain ⟨hkey, hfeed, hepoch⟩ := ideal.mac_inj hmac
  obtain ⟨hsecret, -, hcontext⟩ := ideal.derive_inj hkey
  exact ⟨hsecret, hcontext, hfeed, hepoch⟩

/-- A sealed packet adds 200 bytes to its content. -/
theorem size_of_sealResponse {binding : K.Binding} {content : Bytes} {signer : K.SigningKey}
    {nonce : ByteArr 24} {now : U64} {sealed : SealedResponse K}
    (h : cap.sealResponse binding content signer nonce now = .ok sealed) :
    (⟨binding, sealed⟩ : ReplyPacket K).size = content.length + 200 := by
  obtain ⟨-, -, -, rfl⟩ := sealResponse_eq_ok.mp h
  have hsig : (K.sign signer ((cap.context, binding), content)).1.length = 64 :=
    (K.sign signer ((cap.context, binding), content)).2
  unfold ReplyPacket.size
  rw [ideal.ciphertextLen_encrypt]
  dsimp only
  omega

end ResponseCapability
end Anymone.Eth
