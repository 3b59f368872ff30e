import Anymone.BincodeWords
import Anymone.NetworkConfig
import Anymone.Trace
import Mathlib.Data.Prod.Lex

/-! # Attested contributions

A session that runs outside its node enrols under a lease and sends each contribution as a manifest
signed by the platform key of the lease, with the payloads the manifest names by digest.  The
verifier checks both against its policy and asks a store, which outlives it as bytes, whether the
sequence number of the lease was used before.

What the module takes from elsewhere is a signature scheme and SHA-256 (`ContributionCrate`).
-/

namespace Anymone.Contribution

/-- The keys of an identity and `Sha256::digest`. -/
structure ContributionCrate where
  Identity : Type
  pubkey : Identity → Pubkey
  sign : Identity → Bytes → Bytes
  /-- `Pubkey::verify`. -/
  verify : Pubkey → Bytes → Bytes → Bool
  sha256 : Bytes → ByteArr 32

/-- An identity's signatures verify under its key. -/
def ContributionCrate.Signs (K : ContributionCrate) : Prop :=
  ∀ id msg, K.verify (K.pubkey id) msg (K.sign id msg) = true

/-! ## The data -/

/-- `MANIFEST_DOMAIN`. -/
def manifestDomain : Bytes := ascii "anymone/contribution-manifest/v1"

/-- `ENROLMENT_DOMAIN`. -/
def enrolmentDomain : Bytes := ascii "anymone/session-enrolment/v1"

/-- `MAX_PAYLOADS`. -/
def maxPayloads : Nat := 64

/-- `MAX_PAYLOAD_BYTES`. -/
def maxPayloadBytes : Nat := 16 * 1024 * 1024

/-- `ProtocolId`. -/
inductive ProtocolId where
  | noop
  | panetiere
  | scheduledPanetiere
  | adcnet
  | scheduledAdcnet
  deriving DecidableEq

/-- `protocol as u8`. -/
def ProtocolId.byte : ProtocolId → U8
  | .noop => 0
  | .panetiere => 1
  | .scheduledPanetiere => 2
  | .adcnet => 3
  | .scheduledAdcnet => 4

/-- `RemoteSessionPolicy`. -/
structure RemoteSessionPolicy where
  enabled : Bool
  allowDeveloper : Bool
  developerKeys : List Pubkey
  allowedProtocols : List ProtocolId
  maxLeaseRounds : Round

/-- `ContributionError`. -/
inductive ContributionError where
  | remoteSessionsDisabled
  | developerEvidenceRejected
  | unsupportedEvidence
  | protocolNotAllowed
  | leaseInvalid
  | leaseExpired
  | contextMismatch
  | wrongPlatformKey
  | badSignature
  | payloadMismatch
  | payloadTooLarge
  | tooManyPayloads (n : Nat)
  | duplicateDestination
  | replayConflict
  | outOfOrderSequence
  | replayStore
  deriving DecidableEq

/-- `EnrolmentStatement`. -/
structure EnrolmentStatement where
  leaseId : ByteArr 32
  configHash : ByteArr 32
  subnet : SubnetId
  protocol : ProtocolId
  participant : Pubkey
  forwarder : Pubkey
  platformKey : Pubkey
  processNonce : ByteArr 32
  validFrom : Round
  validUntil : Round
  deriving DecidableEq

/-- `EnrolmentStatement::canonical_bytes`. -/
def EnrolmentStatement.canonicalBytes (s : EnrolmentStatement) : Bytes :=
  enrolmentDomain ++ (s.leaseId.1 ++ (s.configHash.1 ++ ((Bincode.u32 .big).write s.subnet ++
    ([s.protocol.byte] ++ (s.participant.1 ++ (s.forwarder.1 ++ (s.platformKey.1 ++
      (s.processNonce.1 ++ ((Bincode.u64 .big).write s.validFrom ++
        (Bincode.u64 .big).write s.validUntil)))))))))

/-- `SessionEnrolment`. -/
inductive SessionEnrolment where
  | developer (statement : EnrolmentStatement) (signature : Bytes)
  | appAttest (statement : EnrolmentStatement) (evidence : Bytes)
  | android (statement : EnrolmentStatement) (certificateChain : List Bytes)
      (playToken possessionSignature : Bytes)

/-- `SessionEnrolment::statement`. -/
def SessionEnrolment.statement : SessionEnrolment → EnrolmentStatement
  | .developer statement _ => statement
  | .appAttest statement _ => statement
  | .android statement _ _ _ => statement

/-- `ContributionRecipient`. -/
inductive ContributionRecipient where
  | broadcast
  | relay (pk : Pubkey)
  | peer (pk : Pubkey)
  deriving DecidableEq

/-- The bytes a recipient is written as. -/
def ContributionRecipient.bytes : ContributionRecipient → Bytes
  | .broadcast => [0]
  | .relay pk => 1 :: pk.1
  | .peer pk => 2 :: pk.1

/-- `PayloadDigest`. -/
structure PayloadDigest where
  recipient : ContributionRecipient
  kind : Fin 65536
  length : U32
  hash : ByteArr 32
  deriving DecidableEq

/-- The bytes of one payload in the manifest. -/
def PayloadDigest.bytes (p : PayloadDigest) : Bytes :=
  p.recipient.bytes ++ ((Bincode.u16 .big).write p.kind ++ ((Bincode.u32 .big).write p.length ++
    p.hash.1))

/-- `ContributionManifest`. -/
structure ContributionManifest where
  leaseId : ByteArr 32
  configHash : ByteArr 32
  protocol : ProtocolId
  subnet : SubnetId
  round : Round
  phase : Fin 65536
  sequence : U64
  origin : Option (ByteArr 32)
  payloads : List PayloadDigest
  deriving DecidableEq

/-- The bytes of the origin. -/
def originBytes : Option (ByteArr 32) → Bytes
  | some origin => 1 :: origin.1
  | none => [0]

namespace ContributionManifest

/-- The bytes `canonical_bytes` builds when there are not too many payloads. -/
def signedBytes (m : ContributionManifest) : Bytes :=
  manifestDomain ++ (m.leaseId.1 ++ (m.configHash.1 ++ ([m.protocol.byte] ++
    ((Bincode.u32 .big).write m.subnet ++ ((Bincode.u64 .big).write m.round ++
      ((Bincode.u16 .big).write m.phase ++ ((Bincode.u64 .big).write m.sequence ++
        (originBytes m.origin ++ (ByteOrder.big.arrange (leBytes 2 m.payloads.length) ++
          m.payloads.flatMap PayloadDigest.bytes)))))))))

/-- `ContributionManifest::canonical_bytes`. -/
def canonicalBytes (m : ContributionManifest) : Except ContributionError Bytes :=
  if maxPayloads < m.payloads.length then .error (.tooManyPayloads m.payloads.length)
  else .ok m.signedBytes

/-- `ContributionManifest::digest`. -/
def digest (K : ContributionCrate) (m : ContributionManifest) :
    Except ContributionError (ByteArr 32) :=
  m.canonicalBytes.map K.sha256

end ContributionManifest

/-- `ContributionPayload`. -/
structure ContributionPayload where
  recipient : ContributionRecipient
  kind : Fin 65536
  bytes : Bytes
  deriving DecidableEq

/-- What `ContributionPayload::digest` says of a payload whose length fits a `u32`. -/
def ContributionPayload.described (K : ContributionCrate) (p : ContributionPayload) :
    PayloadDigest :=
  ⟨p.recipient, p.kind, Fin.ofNat 4294967296 p.bytes.length, K.sha256 p.bytes⟩

/-- `ContributionPayload::digest`. -/
def ContributionPayload.digest (K : ContributionCrate) (p : ContributionPayload) :
    Except ContributionError PayloadDigest :=
  if p.bytes.length < 4294967296 then .ok (p.described K) else .error .payloadTooLarge

/-- `ContributionEvidence`. -/
inductive ContributionEvidence where
  | devEd25519 (key : Pubkey) (signature : Bytes)
  | appAttestAssertion (assertion : Bytes)
  | androidP256Signature (signature : Bytes)
  deriving DecidableEq

/-- `AttestedContribution`. -/
structure AttestedContribution where
  manifest : ContributionManifest
  evidence : ContributionEvidence
  payloads : List ContributionPayload
  deriving DecidableEq

/-- `ReplayDecision`. -/
inductive ReplayDecision where
  | fresh
  | duplicate
  deriving DecidableEq

/-- `VerifiedContribution`. -/
structure VerifiedContribution where
  contribution : AttestedContribution
  replay : ReplayDecision
  deriving DecidableEq

/-! ## The replay store -/

/-- A lease and a sequence number, in the order of the pair. -/
abbrev LeaseSequence := ByteArr 32 ×ₗ U64

/-- `ReplaySnapshot`. -/
structure ReplaySnapshot where
  accepted : OrdMap LeaseSequence (ByteArr 32)
  highest : OrdMap (ByteArr 32) U64

namespace ReplaySnapshot

/-- `ReplayStore::default`. -/
def empty : ReplaySnapshot := ⟨.empty, .empty⟩

/-- The format of the snapshot: bincode with its default options. -/
def format : Bincode ReplaySnapshot :=
  (((Bincode.map .little
      (((Bincode.array 32).pair (Bincode.u64 .little)).iso toLex ofLex (fun _ => rfl))
      (Bincode.array 32)).pair
    (Bincode.map .little (Bincode.array 32) (Bincode.u64 .little))).iso
    (fun p => ⟨p.1, p.2⟩) (fun s => (s.accepted, s.highest)) (fun _ => rfl))

/-- `ReplayStore::to_bytes`. -/
def toBytes (s : ReplaySnapshot) : Bytes := format.write s

/-- `ReplayStore::from_bytes`: trailing bytes are not looked at. -/
def fromBytes (bytes : Bytes) : Except ContributionError ReplaySnapshot :=
  match format.read bytes with
  | some (s, _) => .ok s
  | none => .error .replayStore

/-- `ReplayStore::accept`. -/
def accept (held : ReplaySnapshot) (lease : ByteArr 32) (sequence : U64) (digest : ByteArr 32) :
    Except ContributionError (ReplayDecision × ReplaySnapshot) :=
  match held.accepted.get? (toLex (lease, sequence)) with
  | some existing => if existing = digest then .ok (.duplicate, held) else .error .replayConflict
  | none =>
      if (held.highest.get? lease).any (fun highest => decide (sequence ≤ highest)) then
        .error .outOfOrderSequence
      else .ok (.fresh, ⟨held.accepted.insert (toLex (lease, sequence)) digest,
        held.highest.insert lease sequence⟩)

end ReplaySnapshot

/-! ## The verifier -/

/-- `ContributionVerifier`. -/
structure ContributionVerifier where
  policy : RemoteSessionPolicy
  replay : ReplaySnapshot

/-- `usize::checked_add` in the fold over the payloads. -/
def checkedAdd (sum n : Nat) : Except ContributionError Nat :=
  if sum + n < 18446744073709551616 then .ok (sum + n) else .error .payloadTooLarge

namespace ContributionVerifier
variable (K : ContributionCrate) (v : ContributionVerifier)

/-- The evidence of `verify_enrolment`. -/
def checkEnrolment : SessionEnrolment → Except ContributionError EnrolmentStatement
  | .developer statement signature =>
      if v.policy.allowDeveloper = false ∨ statement.platformKey ∉ v.policy.developerKeys then
        .error .developerEvidenceRejected
      else if K.verify statement.platformKey statement.canonicalBytes signature = false then
        .error .badSignature
      else .ok statement
  | _ => .error .unsupportedEvidence

/-- `verify_enrolment`. -/
def verifyEnrolment (enrolment : SessionEnrolment) (now : Round) :
    Except ContributionError EnrolmentStatement :=
  let statement := enrolment.statement
  if v.policy.enabled = false then .error .remoteSessionsDisabled
  else if statement.validUntil ≤ statement.validFrom ∨
      v.policy.maxLeaseRounds < statement.validUntil.saturatingSub statement.validFrom.val ∨
      now < statement.validFrom ∨ statement.validUntil ≤ now then .error .leaseInvalid
  else if statement.protocol ∉ v.policy.allowedProtocols then .error .protocolNotAllowed
  else v.checkEnrolment K enrolment

/-- The evidence of `verify`. -/
def checkEvidence (lease : EnrolmentStatement) (manifestBytes : Bytes) :
    ContributionEvidence → Except ContributionError Unit
  | .devEd25519 key signature =>
      if v.policy.allowDeveloper = false ∨ key ≠ lease.platformKey ∨ key ∉ v.policy.developerKeys then
        .error .developerEvidenceRejected
      else if K.verify key manifestBytes signature = false then .error .badSignature
      else .ok ()
  | _ => .error .unsupportedEvidence

/-- `verify`, with the store it leaves behind. -/
def verify (lease : EnrolmentStatement) (contribution : AttestedContribution) (now : Round) :
    Except ContributionError (VerifiedContribution × ReplaySnapshot) :=
  let manifest := contribution.manifest
  if now < lease.validFrom ∨ lease.validUntil ≤ now ∨ manifest.round < lease.validFrom ∨
      lease.validUntil ≤ manifest.round then .error .leaseExpired
  else if manifest.leaseId ≠ lease.leaseId ∨ manifest.configHash ≠ lease.configHash ∨
      manifest.protocol ≠ lease.protocol ∨ manifest.subnet ≠ lease.subnet then
    .error .contextMismatch
  else if contribution.payloads.length ≠ manifest.payloads.length ∨
      maxPayloads < contribution.payloads.length then .error .payloadMismatch
  else do
    let total ← contribution.payloads.foldlM (fun sum p => checkedAdd sum p.bytes.length) 0
    if maxPayloadBytes < total then .error .payloadTooLarge
    else
      let actual ← contribution.payloads.mapM (ContributionPayload.digest K)
      if actual ≠ manifest.payloads then .error .payloadMismatch
      else
        let manifestBytes ← manifest.canonicalBytes
        v.checkEvidence K lease manifestBytes contribution.evidence
        let digest ← manifest.digest K
        (v.replay.accept lease.leaseId manifest.sequence digest).map
          (fun r => (⟨contribution, r.1⟩, r.2))

/-- `replay_snapshot`. -/
def replaySnapshot : Bytes := v.replay.toBytes

end ContributionVerifier

/-! ## The signer -/

section Signer
variable (K : ContributionCrate) (identity : K.Identity)

/-- `DeveloperSigner::enrol`. -/
def enrol (statement : EnrolmentStatement) : Except ContributionError SessionEnrolment :=
  if statement.platformKey ≠ K.pubkey identity then .error .wrongPlatformKey
  else .ok (.developer statement (K.sign identity statement.canonicalBytes))

/-- `DeveloperSigner::sign_manifest`. -/
def signManifest (manifest : ContributionManifest) :
    Except ContributionError ContributionEvidence :=
  manifest.canonicalBytes.map
    (fun bytes => .devEd25519 (K.pubkey identity) (K.sign identity bytes))

/-- `freeze_manifest`. -/
def freezeManifest (lease : EnrolmentStatement) (round : Round) (phase : Fin 65536)
    (sequence : U64) (origin : Option (ByteArr 32)) (payloads : List ContributionPayload) :
    Except ContributionError (ContributionManifest × List ContributionPayload) := do
  let digests ← payloads.mapM (ContributionPayload.digest K)
  if ¬ (digests.map (fun d => (d.recipient, d.kind))).Nodup then .error .duplicateDestination
  else
    let manifest : ContributionManifest := ⟨lease.leaseId, lease.configHash, lease.protocol,
      lease.subnet, round, phase, sequence, origin, digests⟩
    manifest.canonicalBytes.map (fun _ => (manifest, payloads))

end Signer

/-! ## A verifier at work -/

/-- A call on the verifier, or its process coming up again from the saved store, with the policy it
then reads. -/
inductive Op where
  | verify (lease : EnrolmentStatement) (contribution : AttestedContribution) (now : Round)
  | restart (policy : RemoteSessionPolicy)

/-- One accepted contribution: what the caller learns of it, and the policy in force. -/
structure Accepted where
  policy : RemoteSessionPolicy
  lease : EnrolmentStatement
  now : Round
  contribution : AttestedContribution
  replay : ReplayDecision

/-- The number the contribution carries under its lease. -/
def Accepted.key (a : Accepted) : LeaseSequence :=
  toLex (a.lease.leaseId, a.contribution.manifest.sequence)

namespace ContributionVerifier
variable (K : ContributionCrate)

/-- The verifier after a call.  A snapshot that did not read back would stop the restart. -/
def step (v : ContributionVerifier) : Op → ContributionVerifier
  | .verify lease contribution now =>
      match v.verify K lease contribution now with
      | .ok (_, held) => { v with replay := held }
      | .error _ => v
  | .restart policy =>
      match ReplaySnapshot.fromBytes v.replaySnapshot with
      | .ok replay => ⟨policy, replay⟩
      | .error _ => v

/-- What a call hands back. -/
def handed (v : ContributionVerifier) : Op → List Accepted
  | .verify lease contribution now =>
      match v.verify K lease contribution now with
      | .ok (verified, _) => [⟨v.policy, lease, now, verified.contribution, verified.replay⟩]
      | .error _ => []
  | .restart _ => []

/-- The verifier after a run, from an empty store. -/
def after (policy : RemoteSessionPolicy) (ops : List Op) : ContributionVerifier :=
  Trace.run ⟨policy, .empty⟩ (step K) ops

/-- What a run accepted, in order. -/
def accepted (policy : RemoteSessionPolicy) (ops : List Op) : List Accepted :=
  Trace.observed ⟨policy, .empty⟩ (step K) (handed K) ops

end ContributionVerifier

/-! ## The signed bytes as a format

Behind its domain every signed message is fixed-width fields, one-byte tags and one short count, so
it reads back, and no two messages have the same bytes. -/

namespace ContributionFormat
open Bincode

/-- A protocol is one byte. -/
def protocol : Bincode ProtocolId :=
  selected ProtocolId.byte (fun
    | 0 => some (unit .noop)
    | 1 => some (unit .panetiere)
    | 2 => some (unit .scheduledPanetiere)
    | 3 => some (unit .adcnet)
    | 4 => some (unit .scheduledAdcnet)
    | _ => none)

theorem write_protocol (p : ProtocolId) : protocol.write p = [p.byte] := by
  cases p <;> rfl

theorem fits_protocol (p : ProtocolId) : protocol.Fits p := by
  cases p <;> exact ⟨_, rfl, rfl⟩

/-- The tag of a recipient. -/
def recipientTag : ContributionRecipient → U8
  | .broadcast => 0
  | .relay _ => 1
  | .peer _ => 2

def recipient : Bincode ContributionRecipient :=
  selected recipientTag (fun
    | 0 => some (unit .broadcast)
    | 1 => some (variant (array 32) .relay
        (fun
          | .relay pk => some pk
          | _ => none)
        (by intro a b h; cases a <;> simp at h; subst h; rfl))
    | 2 => some (variant (array 32) .peer
        (fun
          | .peer pk => some pk
          | _ => none)
        (by intro a b h; cases a <;> simp at h; subst h; rfl))
    | _ => none)

theorem write_recipient (r : ContributionRecipient) : recipient.write r = r.bytes := by
  cases r <;> rfl

theorem fits_recipient (r : ContributionRecipient) : recipient.Fits r := by
  cases r with
  | broadcast => exact ⟨_, rfl, rfl⟩
  | relay pk => exact ⟨_, rfl, pk, rfl, trivial⟩
  | peer pk => exact ⟨_, rfl, pk, rfl, trivial⟩

def payloadDigest : Bincode PayloadDigest :=
  iso (pair recipient (pair (u16 .big) (pair (u32 .big) (array 32))))
    (fun p => ⟨p.1, p.2.1, p.2.2.1, p.2.2.2⟩) (fun d => (d.recipient, d.kind, d.length, d.hash))
    (fun _ => rfl)

theorem write_payloadDigest (d : PayloadDigest) : payloadDigest.write d = d.bytes := by
  show recipient.write d.recipient ++ _ = _
  rw [write_recipient]
  rfl

theorem fits_payloadDigest (d : PayloadDigest) : payloadDigest.Fits d :=
  ⟨fits_recipient d.recipient, trivial, trivial, trivial⟩

def statement : Bincode EnrolmentStatement :=
  iso (pair (array 32) (pair (array 32) (pair (u32 .big) (pair protocol (pair (array 32)
      (pair (array 32) (pair (array 32) (pair (array 32) (pair (u64 .big) (u64 .big))))))))))
    (fun p => ⟨p.1, p.2.1, p.2.2.1, p.2.2.2.1, p.2.2.2.2.1, p.2.2.2.2.2.1, p.2.2.2.2.2.2.1,
      p.2.2.2.2.2.2.2.1, p.2.2.2.2.2.2.2.2.1, p.2.2.2.2.2.2.2.2.2⟩)
    (fun s => (s.leaseId, s.configHash, s.subnet, s.protocol, s.participant, s.forwarder,
      s.platformKey, s.processNonce, s.validFrom, s.validUntil))
    (fun _ => rfl)

theorem canonicalBytes_statement (s : EnrolmentStatement) :
    s.canonicalBytes = enrolmentDomain ++ statement.write s := by
  unfold EnrolmentStatement.canonicalBytes
  rw [← write_protocol]
  rfl

theorem fits_statement (s : EnrolmentStatement) : statement.Fits s :=
  ⟨trivial, trivial, trivial, fits_protocol s.protocol, trivial, trivial, trivial, trivial, trivial,
    trivial⟩

theorem count_lt : 65536 ≤ 256 ^ 2 := by decide

def manifest : Bincode ContributionManifest :=
  iso (pair (array 32) (pair (array 32) (pair protocol (pair (u32 .big) (pair (u64 .big)
      (pair (u16 .big) (pair (u64 .big) (pair (option (array 32))
        (counted .big 2 65536 count_lt payloadDigest)))))))))
    (fun p => ⟨p.1, p.2.1, p.2.2.1, p.2.2.2.1, p.2.2.2.2.1, p.2.2.2.2.2.1, p.2.2.2.2.2.2.1,
      p.2.2.2.2.2.2.2.1, p.2.2.2.2.2.2.2.2⟩)
    (fun m => (m.leaseId, m.configHash, m.protocol, m.subnet, m.round, m.phase, m.sequence,
      m.origin, m.payloads))
    (fun _ => rfl)

theorem write_origin (origin : Option (ByteArr 32)) :
    (option (array 32)).write origin = originBytes origin := by
  cases origin <;> rfl

theorem signedBytes_manifest (m : ContributionManifest) :
    m.signedBytes = manifestDomain ++ manifest.write m := by
  have hpayloads : m.payloads.flatMap PayloadDigest.bytes =
      m.payloads.flatMap payloadDigest.write :=
    congrArg (fun f => m.payloads.flatMap f) (funext fun d => (write_payloadDigest d).symm)
  unfold ContributionManifest.signedBytes
  rw [← write_protocol, ← write_origin, hpayloads]
  rfl

theorem fits_manifest {m : ContributionManifest} (h : m.payloads.length ≤ maxPayloads) :
    manifest.Fits m :=
  ⟨trivial, trivial, fits_protocol m.protocol, trivial, trivial, trivial, trivial,
    fun _ _ => trivial, lt_of_le_of_lt h (by decide), fun d _ => fits_payloadDigest d⟩

end ContributionFormat

/-- **Two enrolment statements with the same bytes are the same statement.** -/
theorem EnrolmentStatement.canonicalBytes_inj {s s' : EnrolmentStatement}
    (h : s.canonicalBytes = s'.canonicalBytes) : s = s' := by
  rw [ContributionFormat.canonicalBytes_statement, ContributionFormat.canonicalBytes_statement] at h
  exact Bincode.write_inj _ (ContributionFormat.fits_statement s)
    (ContributionFormat.fits_statement s') (List.append_cancel_left h)

/-- **Two manifests with the same bytes are the same manifest.** -/
theorem ContributionManifest.signedBytes_inj {m m' : ContributionManifest}
    (hm : m.payloads.length ≤ maxPayloads) (hm' : m'.payloads.length ≤ maxPayloads)
    (h : m.signedBytes = m'.signedBytes) : m = m' := by
  rw [ContributionFormat.signedBytes_manifest, ContributionFormat.signedBytes_manifest] at h
  exact Bincode.write_inj _ (ContributionFormat.fits_manifest hm)
    (ContributionFormat.fits_manifest hm') (List.append_cancel_left h)

end Anymone.Contribution
