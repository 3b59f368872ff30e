import Anymone.Enrolment
import Mathlib.Data.List.Chain

/-! # Who signed an attested key

The two mobile verifiers, the certificate and object parsers a parameter.  The evidence carries a
chain of certificates whose first one binds the enrolment, and a policy pins the root.

`AndroidKeyVerifier` accepts no evidence whose chain leads over a certificate that may not issue
others.  `AppAttestVerifier` checks the signatures and leaves that out, so of what it accepts the
same holds exactly when no certificate after the first is one that may not issue
(`accepted_chains`).
-/

/-! ## Chains of signatures -/

namespace SignatureChain

/-- A chain whose links are checked on what its members parse to. -/
theorem parsed_of_linked {α β : Type} {f : α → Option β} {L : β → β → Prop} {z : α} :
    ∀ {l : List α} {a : α},
      (a :: (l ++ [z])).IsChain (fun a b => ∃ x y, f a = some x ∧ f b = some y ∧ L x y) →
        ∃ x xs w, f a = some x ∧ l.mapM f = some xs ∧ f z = some w ∧
          (x :: (xs ++ [w])).IsChain L
  | [], a, h => by
      obtain ⟨x, w, hx, hw, hL⟩ := (List.isChain_cons_cons.mp h).1
      exact ⟨x, [], w, hx, rfl, hw, List.isChain_pair.mpr hL⟩
  | b :: l, a, h => by
      obtain ⟨⟨x, y, hx, hy, hL⟩, htail⟩ := List.isChain_cons_cons.mp h
      obtain ⟨y', ys, w, hy', hys, hw, hchain⟩ := parsed_of_linked htail
      obtain rfl : y = y' := Option.some.inj (hy.symm.trans hy')
      refine ⟨x, y :: ys, w, hx, ?_, hw, List.isChain_cons_cons.mpr ⟨hL, hchain⟩⟩
      rw [List.mapM_cons, hy, hys]
      rfl

/-- What every link asks of its second member. -/
theorem forall_mem_of_isChain {α : Type} {P : α → Prop} : ∀ {l : List α} {a : α},
    (a :: l).IsChain (fun _ b => P b) → ∀ b ∈ l, P b
  | [], _, _ => by simp
  | b :: l, a, h => by
      obtain ⟨hb, htail⟩ := List.isChain_cons_cons.mp h
      exact List.forall_mem_cons.mpr ⟨hb, forall_mem_of_isChain htail⟩

variable {Cert Key : Type}

/-- Who signed what, when signatures are not forged: a key that is not a device's signs for a
device's key only certificates without the CA bit. -/
structure Signers (key : Cert → Key) (ca : Cert → Prop) (verifies : Cert → Key → Prop) where
  signed : Key → Cert → Prop
  device : Key → Prop
  unforgeable : ∀ {cert k}, verifies cert k → signed k cert
  discipline : ∀ {cert k}, ¬ device k → signed k cert → device (key cert) → ¬ ca cert

/-- **A chain over CA certificates ends at a certificate no device signed.** -/
theorem Signers.not_device {key : Cert → Key} {ca : Cert → Prop} {verifies : Cert → Key → Prop}
    (W : Signers key ca verifies) {root : Cert} (hroot : ¬ W.device (key root)) :
    ∀ {issuers : List Cert} {leaf : Cert},
      (leaf :: (issuers ++ [root])).IsChain (fun child issuer => verifies child (key issuer)) →
        (∀ c ∈ issuers, ca c) → ∃ k, ¬ W.device k ∧ W.signed k leaf
  | [], leaf, hchain, _ =>
      ⟨key root, hroot, W.unforgeable (List.isChain_cons_cons.mp hchain).1⟩
  | issuer :: issuers, leaf, hchain, hca => by
      obtain ⟨hleaf, htail⟩ := List.isChain_cons_cons.mp hchain
      obtain ⟨hissuer, hrest⟩ := List.forall_mem_cons.mp hca
      obtain ⟨k, hk, hsigned⟩ := W.not_device hroot htail hrest
      exact ⟨key issuer, fun hdevice => W.discipline hk hsigned hdevice hissuer,
        W.unforgeable hleaf⟩

end SignatureChain

namespace Anymone.Tee

/-! ## What is parsed outside -/

/-- `SubjectPublicKeyInfo`. -/
structure SubjectPublicKeyInfo where
  algorithm : Bytes
  subjectPublicKey : Bytes
  deriving DecidableEq

/-- `X509Certificate`, as the verifiers read it: the extensions by their identifier, and of the
two that bound its use whether they can be read, are there, and say so. -/
structure X509Certificate where
  publicKey : SubjectPublicKeyInfo
  basicConstraints : Except Unit (Option Bool)
  keyUsage : Except Unit (Option Bool)
  extensions : List (Text × Bytes)

/-- `asn1_rs::Any`. -/
structure Any where
  constructed : Bool
  contextSpecific : Bool
  tag : Nat
  data : Bytes

/-- `ciborium::Value`. -/
inductive Cbor where
  | map (entries : List (Cbor × Cbor))
  | array (items : List Cbor)
  | text (text : Text)
  | bytes (bytes : Bytes)
  | other

/-- The parsers, the signature check, the clock of the validity check and the hash. -/
structure TeeCrates where
  /-- `X509Certificate::from_der`, with what is left. -/
  fromDer : Bytes → Option (X509Certificate × Bytes)
  verifySignature : X509Certificate → SubjectPublicKeyInfo → Bool
  isValid : X509Certificate → Bool
  /-- `Any::from_der`, with what is left. -/
  anyFromDer : Bytes → Option (Any × Bytes)
  /-- `ciborium::from_reader`. -/
  fromReader : Bytes → Option Cbor
  sha256 : Bytes → ByteArr 32

variable (C : TeeCrates)

/-- `AttestationScheme::tag`. -/
def AttestationScheme.tag : AttestationScheme → Bytes
  | .tdx => ascii "tdx"
  | .playIntegrity => ascii "play-integrity"
  | .appAttest => ascii "app-attest"
  | .androidKeyAttestation => ascii "android-key-attestation"

/-- `challenge`. -/
def challenge (scheme : AttestationScheme) (statement : Bytes) (round : Round) : ByteArr 32 :=
  C.sha256 (ascii "anymone/attest/v0" ++ scheme.tag ++ statement ++ leBytes 8 round.val)

/-- The certificate of a DER string. -/
def certOf (der : Bytes) : Option X509Certificate := (C.fromDer der).map Prod.fst

/-- Every two neighbours are linked. -/
def linked (link : X509Certificate → X509Certificate → Bool) (ders : List Bytes) : Bool :=
  (ders.zip ders.tail).all (fun pair =>
    (certOf C pair.1).any (fun child => (certOf C pair.2).any (link child)))

/-! ## Android key attestation -/

/-- `AndroidKeyPolicy`. -/
structure AndroidKeyPolicy where
  packageName : Text
  certificateDigests : List (ByteArr 32)
  requireStrongbox : Bool
  rootCaDer : Bytes

/-- `MAX_CHAIN`. -/
def maxChain : Nat := 8

/-- `may_issue`. -/
def mayIssue (cert : X509Certificate) : Bool :=
  let ca := cert.basicConstraints.toOption.join.any id
  let canSignCerts := cert.keyUsage.toOption.join.all id
  ca && canSignCerts

/-- The loop of `certs`, with room for so many. -/
def certsFrom : Nat → Bytes → Option (List Bytes)
  | 0, rest => if rest.isEmpty then some [] else none
  | room + 1, rest =>
      if rest.isEmpty then some []
      else (C.fromDer rest).bind (fun parsed =>
        (certsFrom room parsed.2).map (rest.take (rest.length - parsed.2.length) :: ·))

/-- `certs`. -/
def certs (evidence : Bytes) : Option (List Bytes) :=
  (certsFrom C maxChain evidence).filter (fun out => !out.isEmpty)

/-- `items`: every `from_der` takes a header off, so the data bounds the number of items. -/
def itemsFrom : Nat → Bytes → Option (List Any)
  | 0, rest => if rest.isEmpty then some [] else none
  | fuel + 1, rest =>
      if rest.isEmpty then some []
      else (C.anyFromDer rest).bind (fun parsed =>
        (itemsFrom fuel parsed.2).map (parsed.1 :: ·))

def items (any : Any) : Option (List Any) :=
  if any.constructed then itemsFrom C any.data.length any.data else none

/-- `tagged`. -/
def tagged (list : Any) (tag : Nat) : Option Any := do
  let all ← items C list
  let item ← all.find? (fun item => item.contextSpecific && decide (item.tag = tag))
  (C.anyFromDer item.data).map Prod.fst

/-- `uint`: `INTEGER` or `ENUMERATED`. -/
def uint (any : Any) : Option Nat :=
  if any.tag = 2 ∨ any.tag = 10 then
    if !any.data.isEmpty && decide (any.data.length ≤ 8) then
      some (any.data.foldl (fun acc b => acc * 256 + b.val) 0)
    else none
  else none

/-- `octets`. -/
def octets (any : Any) : Option Bytes := if any.tag = 4 then some any.data else none

/-- `boolean`. -/
def boolean (any : Any) : Option Bool :=
  if any.tag = 1 then some (decide (any.data ≠ [0])) else none

/-- `KeyDescription`. -/
structure KeyDescription where
  attestationSecurityLevel : Nat
  keymasterSecurityLevel : Nat
  attestationChallenge : Bytes
  softwareEnforced : Any
  teeEnforced : Any

/-- `parse_key_description`. -/
def parseKeyDescription (der : Bytes) : Option KeyDescription := do
  let parsed ← C.anyFromDer der
  let fields ← items C parsed.1
  if fields.length < 8 then none
  else
    let attestationSecurityLevel ← fields[1]?.bind uint
    let keymasterSecurityLevel ← fields[3]?.bind uint
    let attestationChallenge ← fields[4]?.bind octets
    let softwareEnforced ← fields[6]?
    let teeEnforced ← fields[7]?
    some ⟨attestationSecurityLevel, keymasterSecurityLevel, attestationChallenge, softwareEnforced,
      teeEnforced⟩

namespace AndroidKeyPolicy
variable (policy : AndroidKeyPolicy)

/-- The certificates `chain_reaches_root` looks at. -/
def ders (chain : List Bytes) : List Bytes :=
  if chain.getLast? = some policy.rootCaDer then chain else chain ++ [policy.rootCaDer]

/-- A link of the chain. -/
def link (child issuer : X509Certificate) : Bool :=
  C.verifySignature child issuer.publicKey && C.isValid child && C.isValid issuer &&
    mayIssue issuer

/-- `AndroidKeyVerifier::chain_reaches_root`. -/
def chainReachesRoot (chain : List Bytes) : Bool :=
  let ders := policy.ders chain
  decide (2 ≤ ders.length) && linked C (link C) ders

/-- `app_is_ours`. -/
def appIsOurs (softwareEnforced : Any) : Bool :=
  let fields := do
    let any ← tagged C softwareEnforced 709
    let der ← octets any
    let id ← (C.anyFromDer der).map Prod.fst
    items C id
  match fields with
  | some [packages, digests] =>
      let namedOurs := (items C packages).any (fun infos => infos.any (fun info =>
        ((items C info).bind (fun f => f.head?.bind octets)).any
          (fun name => decide (name = policy.packageName))))
      let signedByOurs := (items C digests).any (fun ds => (ds.filterMap octets).any (fun d =>
        policy.certificateDigests.any (fun allowed => decide (allowed.val = d))))
      namedOurs && signedByOurs
  | _ => false

/-- `boot_is_trustworthy`. -/
def bootIsTrustworthy (teeEnforced : Any) : Bool :=
  ((tagged C teeEnforced 704).bind (items C)).any (fun fields =>
    decide (3 ≤ fields.length) && (fields[1]?.bind boolean == some true) &&
      (fields[2]?.bind uint == some 0))

/-- What `AndroidKeyVerifier::verify` asks of the leaf. -/
def leafAccepted (statement : Bytes) (att : Attestation) (leaf : X509Certificate) : Bool :=
  let extension := leaf.extensions.find? (fun e =>
    decide (e.1 = ascii "1.3.6.1.4.1.11129.2.1.17"))
  (extension.bind (fun e => parseKeyDescription C e.2)).any (fun description =>
    let floor := if policy.requireStrongbox then 2 else 1
    decide (description.attestationChallenge = (challenge C att.scheme statement att.round).val) &&
      !(decide (description.keymasterSecurityLevel < floor) ||
        decide (description.attestationSecurityLevel < floor)) &&
      bootIsTrustworthy C description.teeEnforced &&
      policy.appIsOurs C description.softwareEnforced)

/-- `AndroidKeyVerifier::verify`. -/
def verify (statement : Bytes) (att : Attestation) : Bool :=
  decide (att.scheme = .androidKeyAttestation) &&
    (certs C att.evidence).any (fun chain =>
      policy.chainReachesRoot C chain &&
        (chain.head?.bind (certOf C)).any (policy.leafAccepted C statement att))

end AndroidKeyPolicy

/-! ## App Attest -/

/-- `AppAttestPolicy`. -/
structure AppAttestPolicy where
  teamId : Text
  bundleId : Text
  production : Bool
  rootCaDer : Bytes

/-- `AttestationObject`. -/
structure AttestationObject where
  x5c : List Bytes
  authData : Bytes

def Cbor.asText : Cbor → Option Text
  | .text t => some t
  | _ => none

def Cbor.asBytes : Cbor → Option Bytes
  | .bytes b => some b
  | _ => none

def Cbor.asArray : Cbor → Option (List Cbor)
  | .array l => some l
  | _ => none

def Cbor.asMap : Cbor → Option (List (Cbor × Cbor))
  | .map l => some l
  | _ => none

/-- The first entry under a name. -/
def Cbor.field (entries : List (Cbor × Cbor)) (name : Text) : Option Cbor :=
  (entries.find? (fun e => decide (e.1.asText = some name))).map Prod.snd

namespace AppAttestPolicy
variable (policy : AppAttestPolicy)

/-- `AppAttestVerifier::parse`. -/
def parse (evidence : Bytes) : Option (Bytes × AttestationObject) :=
  if evidence.length < 32 then none
  else do
    let entries ← (← C.fromReader (evidence.drop 32)).asMap
    let fmt ← (← Cbor.field entries (ascii "fmt")).asText
    if fmt ≠ ascii "apple-appattest" then none
    else
      let authData ← (← Cbor.field entries (ascii "authData")).asBytes
      let stmt ← (← Cbor.field entries (ascii "attStmt")).asMap
      let items ← (← Cbor.field stmt (ascii "x5c")).asArray
      let x5c ← items.mapM Cbor.asBytes
      if x5c.isEmpty then none else some (evidence.take 32, ⟨x5c, authData⟩)

/-- A link of the chain. -/
def link (child issuer : X509Certificate) : Bool :=
  C.verifySignature child issuer.publicKey && C.isValid child

/-- `AppAttestVerifier::chain_reaches_root`. -/
def chainReachesRoot (x5c : List Bytes) : Bool := linked C (link C) (x5c ++ [policy.rootCaDer])

/-- The nonce the leaf is to carry. -/
def nonce (statement : Bytes) (att : Attestation) (authData : Bytes) : ByteArr 32 :=
  C.sha256 (authData ++ (challenge C att.scheme statement att.round).val)

/-- Whether the leaf carries the nonce. -/
def carriesNonce (leaf : X509Certificate) (nonce : ByteArr 32) : Bool :=
  (leaf.extensions.find? (fun e => decide (e.1 = ascii "1.2.840.113635.100.8.2"))).any (fun e =>
    e.2.tails.any (fun t => nonce.val.isPrefixOf t))

/-- What `AppAttestVerifier::verify` asks of the leaf. -/
def leafAccepted (statement : Bytes) (att : Attestation) (keyId authData : Bytes)
    (leaf : X509Certificate) : Bool :=
  let slice := fun (a b : Nat) => (authData.drop a).take (b - a)
  let appId := policy.teamId ++ ascii "." ++ policy.bundleId
  let expected := if policy.production then ascii "appattest" ++ List.replicate 7 0
    else ascii "appattestdevelop"
  carriesNonce leaf (nonce C statement att authData) &&
    decide ((C.sha256 leaf.publicKey.subjectPublicKey).val = keyId) &&
    decide (55 ≤ authData.length) &&
    decide (slice 0 32 = (C.sha256 appId).val) &&
    decide (slice 33 37 = [0, 0, 0, 0]) &&
    decide (slice 37 53 = expected) &&
    decide (slice 55 (55 + min 32 (authData.length - 55)) = keyId)

/-- `AppAttestVerifier::verify`. -/
def verify (statement : Bytes) (att : Attestation) : Bool :=
  decide (att.scheme = .appAttest) &&
    (parse C att.evidence).any (fun parsed =>
      policy.chainReachesRoot C parsed.2.x5c &&
        (parsed.2.x5c.head?.bind (certOf C)).any
          (policy.leafAccepted C statement att parsed.1 parsed.2.authData))

end AppAttestPolicy

/-! ## Who may have signed the leaf -/

/-- A certificate with the CA bit, and with the usage to sign certificates where it says what it
is for. -/
structure MayIssue (cert : X509Certificate) : Prop where
  ca : cert.basicConstraints = .ok (some true)
  certSign : cert.keyUsage ≠ .ok (some false)

theorem mayIssue_iff {cert : X509Certificate} : mayIssue cert = true ↔ MayIssue cert := by
  unfold mayIssue
  rw [Bool.and_eq_true]
  constructor
  · rintro ⟨hca, hsign⟩
    constructor
    · cases hread : cert.basicConstraints with
      | error => simp [hread, Except.toOption] at hca
      | ok bit => cases bit <;> simp_all [Except.toOption]
    · intro hread
      simp [hread, Except.toOption] at hsign
  · rintro ⟨hca, hsign⟩
    constructor
    · simp [hca, Except.toOption]
    · cases hread : cert.keyUsage with
      | error => simp [Except.toOption]
      | ok usage => cases usage <;> simp_all [Except.toOption]

/-- The leaf is signed by the root, directly or through certificates that all may issue. -/
structure Chains (root leaf : X509Certificate) (issuers : List X509Certificate) : Prop where
  signed : (leaf :: (issuers ++ [root])).IsChain
    (fun child issuer => C.verifySignature child issuer.publicKey = true)
  mayIssue : ∀ c ∈ issuers, MayIssue c

/-- Who may sign what, where no signature is forged and no authority gives a device's key a CA
certificate. -/
abbrev Pki : Type := SignatureChain.Signers X509Certificate.publicKey
  (fun cert => cert.basicConstraints = .ok (some true))
  (fun cert key => C.verifySignature cert key = true)

/-- The leaf is signed so, and under a root that is no device's not by a device. -/
structure Issued (root leaf : X509Certificate) (issuers : List X509Certificate) : Prop where
  chains : Chains C root leaf issuers
  authority : ∀ W : Pki C, ¬ W.device root.publicKey → ∃ k, ¬ W.device k ∧ W.signed k leaf

variable {C}

theorem Chains.issued {root leaf : X509Certificate} {issuers : List X509Certificate}
    (h : Chains C root leaf issuers) : Issued C root leaf issuers :=
  ⟨h, fun W hroot => W.not_device hroot h.signed (fun c hc => (h.mayIssue c hc).ca)⟩

theorem linked_iff {link : X509Certificate → X509Certificate → Bool} : ∀ {ders : List Bytes},
    linked C link ders = true ↔ ders.IsChain (fun a b =>
      ∃ x y, certOf C a = some x ∧ certOf C b = some y ∧ link x y = true)
  | [] => by simp [linked]
  | [a] => by simp [linked]
  | a :: b :: ders => by
      rw [List.isChain_cons_cons, ← @linked_iff link (b :: ders)]
      unfold linked
      rw [List.tail_cons, List.zip_cons_cons, List.all_cons, Bool.and_eq_true]
      simp only [Option.any_eq_true, List.tail_cons]
      constructor
      · rintro ⟨⟨x, hx, y, hy, hlink⟩, hrest⟩
        exact ⟨⟨x, y, hx, hy, hlink⟩, hrest⟩
      · rintro ⟨⟨x, y, hx, hy, hlink⟩, hrest⟩
        exact ⟨⟨x, hx, y, hy, hlink⟩, hrest⟩

namespace AndroidKeyPolicy

/-- The certificates of the evidence, the root appended or already present. -/
def Presents (C : TeeCrates) (att : Attestation) (root leaf : X509Certificate)
    (issuers : List X509Certificate) : Prop :=
  ∃ chain, certs C att.evidence = some chain ∧ (chain.mapM (certOf C) = some (leaf :: issuers) ∨
    chain.mapM (certOf C) = some (leaf :: (issuers ++ [root])))

/-- The certificate whose key description holds the challenge. -/
def Binds (C : TeeCrates) (statement : Bytes) (att : Attestation) (leaf : X509Certificate) : Prop :=
  ∃ e ∈ leaf.extensions, e.1 = ascii "1.3.6.1.4.1.11129.2.1.17" ∧
    ∃ description, parseKeyDescription C e.2 = some description ∧
      description.attestationChallenge = (challenge C att.scheme statement att.round).val

theorem binds_of_leafAccepted {policy : AndroidKeyPolicy} {statement : Bytes} {att : Attestation}
    {leaf : X509Certificate} (h : policy.leafAccepted C statement att leaf = true) :
    Binds C statement att leaf := by
  unfold leafAccepted at h
  dsimp only at h
  rw [Option.any_eq_true] at h
  obtain ⟨description, hparsed, h⟩ := h
  obtain ⟨e, hfind, hparse⟩ := Option.bind_eq_some_iff.mp hparsed
  simp only [Bool.and_eq_true, decide_eq_true_eq] at h
  exact ⟨e, List.mem_of_find?_eq_some hfind, by simpa using List.find?_some hfind, description,
    hparse, h.1.1.1⟩

/-- The certificates looked at end at the root, and the chain is what precedes it, with the root or
without. -/
theorem ders_eq {policy : AndroidKeyPolicy} {chain : List Bytes} (hne : chain ≠ [])
    (hlen : 2 ≤ (policy.ders chain).length) : ∃ first mids,
      policy.ders chain = first :: (mids ++ [policy.rootCaDer]) ∧
        (chain = first :: mids ∨ chain = first :: (mids ++ [policy.rootCaDer])) := by
  unfold ders at hlen ⊢
  obtain ⟨first, rest, rfl⟩ := List.exists_cons_of_ne_nil hne
  by_cases hlast : (first :: rest).getLast? = some policy.rootCaDer
  · rw [if_pos hlast] at hlen ⊢
    obtain ⟨mids, hmids⟩ : ∃ mids, rest = mids ++ [policy.rootCaDer] := by
      rcases List.eq_nil_or_concat' rest with rfl | ⟨mids, z, rfl⟩
      · simp at hlen
      · refine ⟨mids, ?_⟩
        rw [List.getLast?_cons, List.getLast?_concat] at hlast
        simpa using hlast
    exact ⟨first, mids, by rw [hmids], Or.inr (by rw [hmids])⟩
  · rw [if_neg hlast]
    exact ⟨first, rest, rfl, Or.inl rfl⟩

theorem mapM_append_root {mids : List Bytes} {root : X509Certificate} {rootDer : Bytes}
    {issuers : List X509Certificate} (hmids : mids.mapM (certOf C) = some issuers)
    (hroot : certOf C rootDer = some root) :
    (mids ++ [rootDer]).mapM (certOf C) = some (issuers ++ [root]) := by
  rw [List.mapM_append, hmids, List.mapM_cons, hroot]
  rfl

/-- **What `AndroidKeyVerifier` accepts is issued.** -/
theorem issued_of_verify {policy : AndroidKeyPolicy} {statement : Bytes} {att : Attestation}
    (h : policy.verify C statement att = true) : ∃ leaf issuers root,
      certOf C policy.rootCaDer = some root ∧ Presents C att root leaf issuers ∧
        Binds C statement att leaf ∧ Issued C root leaf issuers := by
  unfold verify at h
  rw [Bool.and_eq_true, Option.any_eq_true] at h
  obtain ⟨-, chain, hcerts, h⟩ := h
  rw [Bool.and_eq_true, Option.any_eq_true] at h
  obtain ⟨hreaches, leaf', hleaf, haccepted⟩ := h
  unfold chainReachesRoot at hreaches
  rw [Bool.and_eq_true, decide_eq_true_eq, linked_iff] at hreaches
  have hne : chain ≠ [] := by
    have := (Option.filter_eq_some_iff.mp hcerts).2
    simpa using this
  -- the chain may carry its root or leave it out
  obtain ⟨first, mids, hders, hchain⟩ := ders_eq hne hreaches.1
  have hlinks := hreaches.2
  rw [hders] at hlinks
  obtain ⟨leaf, issuers, root, hfirst, hmids, hroot, hlinked⟩ :=
    SignatureChain.parsed_of_linked (L := fun x y => link C x y = true) hlinks
  have hhead : chain.head? = some first := by rcases hchain with rfl | rfl <;> rfl
  rw [hhead, Option.bind_some, hfirst, Option.some_inj] at hleaf
  subst hleaf
  refine ⟨leaf, issuers, root, hroot, ⟨chain, hcerts, ?_⟩, binds_of_leafAccepted haccepted,
    Chains.issued ⟨?_, ?_⟩⟩
  · rcases hchain with rfl | rfl
    · refine Or.inl ?_
      rw [List.mapM_cons, hfirst, hmids]
      rfl
    · refine Or.inr ?_
      rw [List.mapM_cons, hfirst, mapM_append_root hmids hroot]
      rfl
  · refine hlinked.imp (fun child issuer hlink => ?_)
    simp only [link, Bool.and_eq_true] at hlink
    exact hlink.1.1.1
  · intro c hc
    have hmay : (leaf :: (issuers ++ [root])).IsChain (fun _ issuer => MayIssue issuer) := by
      refine hlinked.imp (fun child issuer hlink => ?_)
      simp only [link, Bool.and_eq_true] at hlink
      exact mayIssue_iff.mp hlink.2
    exact SignatureChain.forall_mem_of_isChain hmay c (List.mem_append_left _ hc)

end AndroidKeyPolicy

namespace AppAttestPolicy

/-- The certificates of the attestation object. -/
def Presents (C : TeeCrates) (att : Attestation) (leaf : X509Certificate)
    (issuers : List X509Certificate) : Prop :=
  ∃ keyId object, parse C att.evidence = some (keyId, object) ∧
    object.x5c.mapM (certOf C) = some (leaf :: issuers)

/-- The certificate whose extension holds the nonce. -/
def Binds (C : TeeCrates) (statement : Bytes) (att : Attestation) (leaf : X509Certificate) : Prop :=
  ∃ keyId object, parse C att.evidence = some (keyId, object) ∧
    carriesNonce leaf (nonce C statement att object.authData) = true

theorem x5c_ne_nil {evidence keyId : Bytes} {object : AttestationObject}
    (h : parse C evidence = some (keyId, object)) : object.x5c ≠ [] := by
  unfold parse at h
  split at h
  · cases h
  simp only [bind, Option.bind_eq_some_iff] at h
  obtain ⟨value, -, entries, -, fmtValue, -, fmt, -, h⟩ := h
  split at h
  · cases h
  simp only [Option.bind_eq_some_iff] at h
  obtain ⟨authValue, -, authData, -, stmtValue, -, stmt, -, x5cValue, -, items, -, x5c, -, h⟩ := h
  split at h
  · cases h
  rw [Option.some_inj, Prod.mk.injEq] at h
  rw [← h.2]
  simpa using ‹¬ x5c.isEmpty = true›

/-- **What `AppAttestVerifier` accepts is issued when every certificate after the first may issue
others**, and only then. -/
theorem issued_iff_of_verify {policy : AppAttestPolicy} {statement : Bytes} {att : Attestation}
    (h : policy.verify C statement att = true) : ∃ leaf issuers root,
      certOf C policy.rootCaDer = some root ∧ Presents C att leaf issuers ∧
        Binds C statement att leaf ∧
        (Issued C root leaf issuers ↔ ∀ c ∈ issuers, mayIssue c = true) := by
  unfold verify at h
  rw [Bool.and_eq_true, Option.any_eq_true] at h
  obtain ⟨-, ⟨keyId, object⟩, hparse, h⟩ := h
  rw [Bool.and_eq_true, Option.any_eq_true] at h
  obtain ⟨hreaches, leaf', hleaf, haccepted⟩ := h
  obtain ⟨first, mids, hx5c⟩ := List.exists_cons_of_ne_nil (x5c_ne_nil hparse)
  unfold chainReachesRoot at hreaches
  dsimp only at hreaches hleaf haccepted
  rw [linked_iff, hx5c] at hreaches
  obtain ⟨leaf, issuers, root, hfirst, hmids, hroot, hlinked⟩ :=
    SignatureChain.parsed_of_linked (L := fun x y => link C x y = true) hreaches
  rw [hx5c, List.head?_cons, Option.bind_some, hfirst, Option.some_inj] at hleaf
  subst hleaf
  have hsigned : (leaf :: (issuers ++ [root])).IsChain
      (fun child issuer => C.verifySignature child issuer.publicKey = true) := by
    refine hlinked.imp (fun child issuer hlink => ?_)
    simp only [link, Bool.and_eq_true] at hlink
    exact hlink.1
  refine ⟨leaf, issuers, root, hroot, ⟨keyId, object, hparse, ?_⟩, ⟨keyId, object, hparse, ?_⟩,
    ?_, ?_⟩
  · rw [hx5c, List.mapM_cons, hfirst, hmids]
    rfl
  · simp only [leafAccepted, Bool.and_eq_true] at haccepted
    exact haccepted.1.1.1.1.1.1
  · exact fun hissued c hc => mayIssue_iff.mpr (hissued.chains.mayIssue c hc)
  · exact fun hmay => Chains.issued ⟨hsigned, fun c hc => mayIssue_iff.mp (hmay c hc)⟩

end AppAttestPolicy

/-- **Whose chains are accepted.**  The leaf that binds the enrolment is signed by the pinned root,
directly or through certificates that may issue, in everything `AndroidKeyVerifier` accepts; and in
what `AppAttestVerifier` accepts if and only if every certificate after the first may issue. -/
theorem accepted_chains (C : TeeCrates) :
    (∀ (policy : AndroidKeyPolicy) (statement : Bytes) (att : Attestation),
      policy.verify C statement att = true → ∃ leaf issuers root,
        certOf C policy.rootCaDer = some root ∧
          AndroidKeyPolicy.Presents C att root leaf issuers ∧
          AndroidKeyPolicy.Binds C statement att leaf ∧ Issued C root leaf issuers) ∧
    (∀ (policy : AppAttestPolicy) (statement : Bytes) (att : Attestation),
      policy.verify C statement att = true → ∃ leaf issuers root,
        certOf C policy.rootCaDer = some root ∧
          AppAttestPolicy.Presents C att leaf issuers ∧
          AppAttestPolicy.Binds C statement att leaf ∧
          (Issued C root leaf issuers ↔ ∀ c ∈ issuers, mayIssue c = true)) :=
  ⟨fun _ _ _ h => AndroidKeyPolicy.issued_of_verify h,
    fun _ _ _ h => AppAttestPolicy.issued_iff_of_verify h⟩

/-! ## A device that mints -/

namespace ChainToy

/-- A public key of one byte. -/
def publicKey (k : U8) : SubjectPublicKeyInfo := ⟨[], [k]⟩

/-- The minter's `tlv`, of less than 128 bytes. -/
def tlv (tag content : Bytes) : Bytes := tag ++ [Fin.ofNat 256 content.length] ++ content

/-- A tag over 30 in two bytes. -/
def highTag (digits : Bytes) : Nat × Bytes :=
  (((digits.headD 0).val - 128) * 128 + (digits.tail.headD 0).val, digits.drop 2)

/-- `Any::from_der` of values of less than 128 bytes. -/
def anyFromDer (der : Bytes) : Option (Any × Bytes) :=
  der.head?.bind (fun id =>
    let header := if id.val % 32 = 31 then highTag der.tail else (id.val % 32, der.tail)
    header.2.head?.bind (fun len =>
      if len.val ≤ header.2.tail.length then
        some (⟨id.val / 32 % 2 = 1, id.val / 64 = 2, header.1, header.2.tail.take len.val⟩,
          header.2.tail.drop len.val)
      else none))

/-- The bytes a digest of the length fills. -/
def digest (n : U8) : ByteArr 32 := .filled 32 n

/-- The description of a key that a device in order generated for the app. -/
def keyDescription : Bytes :=
  tlv [48] (tlv [2] [4] ++ tlv [10] [1] ++ tlv [2] [4] ++ tlv [10] [1] ++ tlv [4] (digest 80).val ++
    tlv [4] [] ++
    tlv [48] (tlv [191, 133, 69] (tlv [4] (tlv [48]
      (tlv [49] (tlv [48] (tlv [4] [80] ++ tlv [2] [1])) ++ tlv [49] (tlv [4] (digest 7).val))))) ++
    tlv [48] (tlv [191, 133, 64] (tlv [48] (tlv [4] [] ++ tlv [1] [255] ++ tlv [10] [0]))))

def root : X509Certificate := ⟨publicKey 0, .ok (some true), .ok none, []⟩

/-- The vendor's certificate between the root and its devices. -/
def vendor : X509Certificate := ⟨publicKey 4, .ok (some true), .ok (some true), []⟩

def device : X509Certificate :=
  ⟨publicKey 1, .ok (some false), .ok none,
    [(ascii "1.3.6.1.4.1.11129.2.1.17", keyDescription),
      (ascii "1.2.840.113635.100.8.2", (digest 119).val)]⟩

/-- A certificate that the device signed. -/
def minted : X509Certificate :=
  ⟨publicKey 2, .ok none, .ok none, [(ascii "1.2.840.113635.100.8.2", (digest 119).val)]⟩

/-- The certificate of a number. -/
def der (n : U8) : Bytes := [48, n]

/-- The data the app signed: its identifier, the flags, the counter, the environment, the key. -/
def authData : Bytes :=
  (digest 3).val ++ [64] ++ [0, 0, 0, 0] ++ ascii "appattestdevelop" ++ [0, 32] ++ (digest 1).val

/-- An attestation object. -/
def object (x5c : List Bytes) : Cbor :=
  .map [(.text (ascii "fmt"), .text (ascii "apple-appattest")),
    (.text (ascii "attStmt"), .map [(.text (ascii "x5c"), .array (x5c.map Cbor.bytes))]),
    (.text (ascii "authData"), .bytes authData)]

/-- Who signed for which key: the root for itself and for the vendor, the vendor for the device,
the device for another. -/
def signatures : List (Bytes × Bytes × Option (Option Bool)) :=
  [([0], [0], some (some true)), ([0], [4], some (some true)), ([4], [1], some (some false)),
    ([1], [2], some none)]

/-- A hash by the length, and certificates by their number. -/
def crates : TeeCrates where
  fromDer bytes :=
    [root, device, minted, vendor][(bytes.tail.headD 4).val]?.map
      (fun cert => (cert, bytes.drop 2))
  verifySignature cert key :=
    signatures.any (fun e => decide (e = (key.subjectPublicKey, cert.publicKey.subjectPublicKey,
      cert.basicConstraints.toOption)))
  isValid _ := true
  anyFromDer := anyFromDer
  fromReader bytes :=
    [object [der 1, der 3], object [der 2, der 1, der 3]][(bytes.headD 0).val]?
  sha256 bytes := digest (Fin.ofNat 256 bytes.length)

def androidPolicy : AndroidKeyPolicy := ⟨[80], [digest 7], false, der 0⟩

def appPolicy : AppAttestPolicy := ⟨[84], [66], false, der 0⟩

def statement : Bytes := List.replicate 32 5

/-- The device's chain. -/
def androidEvidence : Attestation :=
  ⟨.androidKeyAttestation, 3, der 1 ++ der 3 ++ der 0⟩

/-- An object of the device, and one of a key that the device signed for. -/
def appEvidence (n : U8) : Attestation := ⟨.appAttest, 3, (digest 1).val ++ [n]⟩

/-- Every key but the root's and the vendor's is a device's. -/
def pki : Pki crates where
  signed key cert := crates.verifySignature cert key = true
  device key := key.subjectPublicKey ≠ [0] ∧ key.subjectPublicKey ≠ [4]
  unforgeable h := h
  discipline := by
    intro cert key hroot hsigned hdevice hca
    simp only [crates, signatures, List.any_eq_true, decide_eq_true_eq] at hsigned
    obtain ⟨e, he, rfl⟩ := hsigned
    rw [hca] at he
    simp only [List.mem_cons, Prod.mk.injEq, List.not_mem_nil, or_false] at he
    rcases he with ⟨-, hkey, -⟩ | ⟨-, hkey, -⟩ | ⟨-, -, hbit⟩ | ⟨-, -, hbit⟩
    · exact hdevice.1 hkey
    · exact hdevice.2 hkey
    · simp [Except.toOption] at hbit
    · simp [Except.toOption] at hbit

end ChainToy

open ChainToy in
theorem accepted_chains_toy :
    (∃ leaf issuers root, certOf crates (der 0) = some root ∧
      AndroidKeyPolicy.Presents crates androidEvidence root leaf issuers ∧
      AndroidKeyPolicy.Binds crates statement androidEvidence leaf ∧
      Issued crates root leaf issuers) ∧
    (∃ leaf issuers root, certOf crates (der 0) = some root ∧
      AppAttestPolicy.Presents crates (appEvidence 0) leaf issuers ∧
      AppAttestPolicy.Binds crates statement (appEvidence 0) leaf ∧
      (Issued crates root leaf issuers ↔ ∀ c ∈ issuers, mayIssue c = true)) :=
  ⟨(accepted_chains crates).1 androidPolicy statement androidEvidence (by decide +kernel),
    (accepted_chains crates).2 appPolicy statement (appEvidence 0) (by decide +kernel)⟩

open ChainToy in
/-- **A device's key mints**: its own certificate is no CA, and an object whose leaf it signed is
accepted. -/
theorem device_mints :
    appPolicy.verify crates statement (appEvidence 1) = true ∧
      ¬ (∃ leaf issuers root, certOf crates appPolicy.rootCaDer = some root ∧
        AppAttestPolicy.Presents crates (appEvidence 1) leaf issuers ∧
        AppAttestPolicy.Binds crates statement (appEvidence 1) leaf ∧
        Issued crates root leaf issuers) ∧
      ∃ leaf issuers, AppAttestPolicy.Presents crates (appEvidence 1) leaf issuers ∧
        ¬ pki.device (publicKey 0) ∧ ∀ k, pki.signed k leaf → pki.device k := by
  have hparse : AppAttestPolicy.parse crates (appEvidence 1).evidence =
      some ((digest 1).val, ⟨[der 2, der 1, der 3], authData⟩) := by rfl
  have hcerts : [der 2, der 1, der 3].mapM (certOf crates) = some [minted, device, vendor] := by rfl
  refine ⟨by decide +kernel, ?_, minted, [device, vendor], ⟨_, _, hparse, hcerts⟩, ?_, ?_⟩
  · rintro ⟨leaf, issuers, root, -, ⟨keyId, object, hobject, hpresents⟩, -, hissued⟩
    rw [hparse, Option.some_inj, Prod.mk.injEq] at hobject
    rw [← hobject.2, hcerts, Option.some_inj, List.cons.injEq] at hpresents
    have hca := (hissued.chains.mayIssue device (by rw [← hpresents.2]; simp)).ca
    simp [device] at hca
  · simp [pki, publicKey]
  · intro k hsigned
    simp only [pki, crates, signatures, minted, publicKey, List.any_eq_true, decide_eq_true_eq]
      at hsigned ⊢
    obtain ⟨e, he, rfl⟩ := hsigned
    refine ⟨fun hk => ?_, fun hk => ?_⟩
    · rw [hk] at he
      simp [Except.toOption] at he
    · rw [hk] at he
      simp [Except.toOption] at he

end Anymone.Tee
