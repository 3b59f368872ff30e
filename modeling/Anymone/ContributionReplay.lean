import Anymone.Contribution
import Anymone.Guards

/-! # One contribution for each lease and sequence number

Whatever is handed to a verifier, and however often its process is restarted from the store it
saved, a lease's sequence number stands for one contribution (`one_contribution_per_sequence`): it
is fresh once, numbers grow, and what comes again under the number is the same contribution.  What
an enrolled signer freezes and signs is accepted, and accepted as a duplicate ever after
(`frozen_contribution_accepted`).

The invariant says of the store what it knows of the contributions accepted so far (`Recorded`);
a restart keeps the store because its format reads back (`ReplaySnapshot.fromBytes_toBytes`).
-/

namespace Anymone.Contribution
variable {K : ContributionCrate}

/-! ## A verified contribution -/

/-- The lengths of the payloads, added up. -/
def AttestedContribution.total (c : AttestedContribution) : Nat :=
  (c.payloads.map (fun p => p.bytes.length)).sum

/-- The evidence a policy accepts for a manifest under a lease. -/
def SignedBy (K : ContributionCrate) (policy : RemoteSessionPolicy) (lease : EnrolmentStatement)
    (c : AttestedContribution) : Prop :=
  ∃ signature, c.evidence = .devEd25519 lease.platformKey signature ∧
    policy.allowDeveloper = true ∧ lease.platformKey ∈ policy.developerKeys ∧
    K.verify lease.platformKey c.manifest.signedBytes signature = true

/-- What `verify` has checked of a contribution when it comes to the replay store. -/
structure Vouched (K : ContributionCrate) (policy : RemoteSessionPolicy)
    (lease : EnrolmentStatement) (c : AttestedContribution) (now : Round) : Prop where
  inForce : lease.validFrom ≤ now ∧ now < lease.validUntil ∧
    lease.validFrom ≤ c.manifest.round ∧ c.manifest.round < lease.validUntil
  context : c.manifest.leaseId = lease.leaseId ∧ c.manifest.configHash = lease.configHash ∧
    c.manifest.protocol = lease.protocol ∧ c.manifest.subnet = lease.subnet
  count : c.payloads.length ≤ maxPayloads
  size : c.total ≤ maxPayloadBytes
  named : c.manifest.payloads = c.payloads.map (ContributionPayload.described K)
  signed : SignedBy K policy lease c

theorem Vouched.manifest_count {policy : RemoteSessionPolicy} {lease : EnrolmentStatement}
    {c : AttestedContribution} {now : Round} (h : Vouched K policy lease c now) :
    c.manifest.payloads.length ≤ maxPayloads := by
  rw [h.named, List.length_map]
  exact h.count

theorem canonicalBytes_ok {m : ContributionManifest} {bytes : Bytes} :
    m.canonicalBytes = .ok bytes ↔ m.payloads.length ≤ maxPayloads ∧ bytes = m.signedBytes := by
  unfold ContributionManifest.canonicalBytes
  rw [Guards.guard_ok, not_lt]
  exact and_congr_right fun _ => ⟨fun h => (Except.ok.inj h).symm, fun h => by rw [h]⟩

theorem digest_ok {m : ContributionManifest} (h : m.payloads.length ≤ maxPayloads) :
    m.digest K = .ok (K.sha256 m.signedBytes) := by
  unfold ContributionManifest.digest
  rw [canonicalBytes_ok.mpr ⟨h, rfl⟩]
  rfl

theorem checkEvidence_ok {v : ContributionVerifier} {lease : EnrolmentStatement}
    {c : AttestedContribution} :
    v.checkEvidence K lease c.manifest.signedBytes c.evidence = .ok () ↔
      SignedBy K v.policy lease c := by
  unfold ContributionVerifier.checkEvidence SignedBy
  cases c.evidence with
  | devEd25519 key signature =>
    simp only [Guards.guard_ok, not_or, Bool.not_eq_false, not_not, and_true,
      ContributionEvidence.devEd25519.injEq]
    constructor
    · rintro ⟨⟨hallow, rfl, hkeys⟩, hverify⟩
      exact ⟨signature, ⟨rfl, rfl⟩, hallow, hkeys, hverify⟩
    · rintro ⟨signature', ⟨rfl, rfl⟩, hallow, hkeys, hverify⟩
      exact ⟨⟨hallow, rfl, hkeys⟩, hverify⟩
  | appAttestAssertion assertion =>
    exact ⟨fun h => (nomatch h), fun ⟨_, h, _⟩ => (nomatch h)⟩
  | androidP256Signature signature =>
    exact ⟨fun h => (nomatch h), fun ⟨_, h, _⟩ => (nomatch h)⟩

theorem length_le_total {l : List ContributionPayload} {p : ContributionPayload} (h : p ∈ l) :
    p.bytes.length ≤ (l.map (fun p => p.bytes.length)).sum := by
  induction l with
  | nil => cases h
  | cons q l ih =>
    rw [List.map_cons, List.sum_cons]
    rcases List.mem_cons.mp h with rfl | h
    · omega
    · have := ih h
      omega

/-- **What `verify` accepts.** -/
theorem verify_ok {v : ContributionVerifier} {lease : EnrolmentStatement}
    {c : AttestedContribution} {now : Round} {verified : VerifiedContribution}
    {held : ReplaySnapshot} :
    v.verify K lease c now = .ok (verified, held) ↔ Vouched K v.policy lease c now ∧
      verified.contribution = c ∧ v.replay.accept lease.leaseId c.manifest.sequence
        (K.sha256 c.manifest.signedBytes) = .ok (verified.replay, held) := by
  unfold ContributionVerifier.verify checkedAdd ContributionPayload.digest
  simp only [Guards.guard_ok, Guards.seq_ok, Guards.map_ok, Guards.mapM_ok, Guards.sumM_ok,
    not_or, not_lt, not_le, not_not, Nat.zero_add]
  constructor
  · rintro ⟨⟨h1, h2, h3, h4⟩, hcontext, ⟨-, hcount⟩, total, ⟨rfl, -⟩, hsize, actual, ⟨-, hactual⟩,
      hnamed, bytes, hbytes, _, hevidence, digest, hdigest, answer, haccept, hret⟩
    obtain ⟨hcount', rfl⟩ := canonicalBytes_ok.mp hbytes
    rw [digest_ok hcount'] at hdigest
    cases hdigest
    cases hret
    exact ⟨⟨⟨h1, h2, h3, h4⟩, hcontext, hcount, hsize, hnamed.symm.trans hactual,
      checkEvidence_ok.mp hevidence⟩, rfl, haccept⟩
  · rintro ⟨h, rfl, haccept⟩
    have hsize : (verified.contribution.payloads.map (fun p => p.bytes.length)).sum ≤
        maxPayloadBytes := h.size
    have hbig : maxPayloadBytes < 4294967296 := by decide
    refine ⟨h.inForce, h.context, ⟨by rw [h.named, List.length_map], h.count⟩, _,
      ⟨rfl, Or.inr (by omega)⟩, hsize, _, ⟨fun p hp => ?_, rfl⟩, h.named.symm, _,
      canonicalBytes_ok.mpr ⟨h.manifest_count, rfl⟩, (), checkEvidence_ok.mpr h.signed, _,
      digest_ok h.manifest_count, (verified.replay, held), haccept, rfl⟩
    have := length_le_total hp
    omega

/-! ## The store -/

namespace ReplaySnapshot

/-- **What `accept` can do.** -/
theorem accept_ok {held held' : ReplaySnapshot} {lease digest : ByteArr 32} {sequence : U64}
    {d : ReplayDecision} : held.accept lease sequence digest = .ok (d, held') ↔
      (d = .duplicate ∧ held' = held ∧
        held.accepted.get? (toLex (lease, sequence)) = some digest) ∨
      (d = .fresh ∧ held.accepted.get? (toLex (lease, sequence)) = none ∧
        (∀ highest, held.highest.get? lease = some highest → highest < sequence) ∧
        held' = ⟨held.accepted.insert (toLex (lease, sequence)) digest,
          held.highest.insert lease sequence⟩) := by
  unfold accept
  cases hget : held.accepted.get? (toLex (lease, sequence)) with
  | some existing =>
    by_cases hsame : existing = digest
    · simp only [hsame, if_true, Except.ok.injEq, Prod.mk.injEq]
      constructor
      · rintro ⟨rfl, rfl⟩
        exact .inl ⟨rfl, rfl, trivial⟩
      · rintro (⟨rfl, rfl, -⟩ | ⟨-, h, -⟩)
        · exact ⟨rfl, rfl⟩
        · cases h
    · simp only [hsame, if_false]
      constructor
      · exact fun h => nomatch h
      · rintro (⟨-, -, h⟩ | ⟨-, h, -⟩)
        · exact absurd (Option.some.inj h) hsame
        · cases h
  | none =>
    simp only [Guards.guard_ok, Option.any_eq_true, decide_eq_true_eq, not_exists, not_and, not_le,
      Except.ok.injEq, Prod.mk.injEq]
    constructor
    · rintro ⟨hhigh, rfl, rfl⟩
      exact .inr ⟨rfl, trivial, hhigh, rfl⟩
    · rintro (⟨-, -, h⟩ | ⟨rfl, -, hhigh, rfl⟩)
      · cases h
      · exact ⟨hhigh, rfl, rfl⟩

/-- A snapshot whose maps have lengths a `usize` can tell. -/
def Fits (s : ReplaySnapshot) : Prop :=
  s.accepted.size < 18446744073709551616 ∧ s.highest.size < 18446744073709551616

/-- **A saved store comes back as it was.** -/
theorem fromBytes_toBytes {s : ReplaySnapshot} (h : s.Fits) : fromBytes s.toBytes = .ok s := by
  have hfits : format.Fits s :=
    ⟨⟨h.1, fun _ _ => ⟨⟨trivial, trivial⟩, trivial⟩⟩, h.2, fun _ _ => ⟨trivial, trivial⟩⟩
  have hread := format.read_write hfits []
  rw [List.append_nil] at hread
  unfold fromBytes toBytes
  rw [hread]

end ReplaySnapshot

/-! ## Runs -/

/-- The sequence number of an accepted contribution. -/
def Accepted.sequence (a : Accepted) : U64 := a.contribution.manifest.sequence

/-- The digest the store keeps of it. -/
def Accepted.digest (K : ContributionCrate) (a : Accepted) : ByteArr 32 :=
  K.sha256 a.contribution.manifest.signedBytes

theorem Accepted.key_eq_iff {a b : Accepted} :
    a.key = b.key ↔ a.lease.leaseId = b.lease.leaseId ∧ a.sequence = b.sequence := by
  unfold Accepted.key Accepted.sequence
  rw [toLex_inj, Prod.mk.injEq]

/-- **What the store knows of the contributions accepted so far.** -/
structure Recorded (K : ContributionCrate) (s : ReplaySnapshot) (log : List Accepted) : Prop where
  accepted : ∀ key digest, s.accepted.get? key = some digest ↔
    ∃ a ∈ log, a.key = key ∧ a.digest K = digest
  reached : ∀ lease highest, s.highest.get? lease = some highest →
    ∃ a ∈ log, a.lease.leaseId = lease ∧ a.sequence = highest
  highest : ∀ a ∈ log, ∃ highest, s.highest.get? a.lease.leaseId = some highest ∧
    a.sequence ≤ highest

/-- An acceptance beside the ones before it: nothing was accepted under its number, or the same
manifest digest was. -/
def Follows (K : ContributionCrate) (log : List Accepted) (b : Accepted) : Prop :=
  (b.replay = .fresh ∧ ∀ a ∈ log, a.lease.leaseId = b.lease.leaseId → a.sequence < b.sequence) ∨
  (b.replay = .duplicate ∧ (∃ a ∈ log, a.key = b.key) ∧
    ∀ a ∈ log, a.key = b.key → a.digest K = b.digest K)

theorem recorded_empty : Recorded K .empty [] :=
  ⟨fun _ _ => ⟨fun h => (nomatch h), fun ⟨_, h, _⟩ => (nomatch h)⟩,
    fun _ _ h => (nomatch h), fun _ h => (nomatch h)⟩

/-- What one acceptance does to the store and says of the log. -/
theorem Recorded.accept {s s' : ReplaySnapshot} {log : List Accepted} {b : Accepted}
    (h : Recorded K s log)
    (haccept : s.accept b.lease.leaseId b.sequence (b.digest K) = .ok (b.replay, s')) :
    Recorded K s' (log ++ [b]) ∧ Follows K log b := by
  rcases ReplaySnapshot.accept_ok.mp haccept with ⟨hd, rfl, hget⟩ | ⟨hd, hnone, hhigh, rfl⟩
  -- a replay: the entry is that of an earlier acceptance, and the store stays
  · obtain ⟨a, ha, hkey, hdigest⟩ := (h.accepted _ _).mp hget
    have hlease := (Accepted.key_eq_iff.mp (show a.key = b.key from hkey)).1
    have hseq := (Accepted.key_eq_iff.mp (show a.key = b.key from hkey)).2
    refine ⟨⟨fun key digest => ?_, fun lease highest hh => ?_, fun c hc => ?_⟩, Or.inr ⟨hd,
      ⟨a, ha, hkey⟩, fun c hc hck => ?_⟩⟩
    · rw [h.accepted]
      constructor
      · rintro ⟨c, hc, hck⟩
        exact ⟨c, List.mem_append_left _ hc, hck⟩
      · rintro ⟨c, hc, rfl, rfl⟩
        rcases List.mem_append.mp hc with hc | hc
        · exact ⟨c, hc, rfl, rfl⟩
        · cases List.mem_singleton.mp hc
          exact ⟨a, ha, hkey, hdigest⟩
    · obtain ⟨c, hc, hcl⟩ := h.reached lease highest hh
      exact ⟨c, List.mem_append_left _ hc, hcl⟩
    · rcases List.mem_append.mp hc with hc | hc
      · exact h.highest c hc
      · cases List.mem_singleton.mp hc
        rw [← hlease, ← hseq]
        exact h.highest a ha
    · have hc' := (h.accepted b.key (c.digest K)).mpr ⟨c, hc, hck, rfl⟩
      rw [show s'.accepted.get? b.key = some (b.digest K) from hget] at hc'
      exact (Option.some.inj hc').symm
  -- a first acceptance: no key of the log is the new one, and all its sequences are lower
  · have hnew : ∀ a ∈ log, a.key ≠ b.key := by
      intro a ha hkey
      have := (h.accepted b.key (a.digest K)).mpr ⟨a, ha, hkey, rfl⟩
      rw [show s.accepted.get? b.key = none from hnone] at this
      cases this
    have hlower : ∀ a ∈ log, a.lease.leaseId = b.lease.leaseId → a.sequence < b.sequence := by
      intro a ha hlease
      obtain ⟨highest, hget, hle⟩ := h.highest a ha
      rw [hlease] at hget
      exact lt_of_le_of_lt hle (hhigh highest hget)
    refine ⟨⟨fun key digest => ?_, fun lease highest hh => ?_, fun c hc => ?_⟩,
      Or.inl ⟨hd, hlower⟩⟩
    · rw [OrdMap.get?_insert, show toLex (b.lease.leaseId, b.sequence) = b.key from rfl]
      by_cases hk : key = b.key
      · rw [if_pos hk, Option.some.injEq, hk]
        constructor
        · intro he
          exact ⟨b, by simp, rfl, he⟩
        · rintro ⟨c, hc, hck, hcd⟩
          rcases List.mem_append.mp hc with hc | hc
          · exact absurd hck (hnew c hc)
          · cases List.mem_singleton.mp hc
            exact hcd
      · rw [if_neg hk, h.accepted]
        constructor
        · rintro ⟨c, hc, hck⟩
          exact ⟨c, List.mem_append_left _ hc, hck⟩
        · rintro ⟨c, hc, hck, hcd⟩
          rcases List.mem_append.mp hc with hc | hc
          · exact ⟨c, hc, hck, hcd⟩
          · cases List.mem_singleton.mp hc
            exact absurd hck.symm hk
    · rw [OrdMap.get?_insert] at hh
      by_cases hl : lease = b.lease.leaseId
      · rw [if_pos hl] at hh
        cases hh
        exact ⟨b, by simp, hl.symm, rfl⟩
      · rw [if_neg hl] at hh
        obtain ⟨c, hc, hcl⟩ := h.reached lease highest hh
        exact ⟨c, List.mem_append_left _ hc, hcl⟩
    · rw [OrdMap.get?_insert]
      rcases List.mem_append.mp hc with hc | hc
      · by_cases hl : c.lease.leaseId = b.lease.leaseId
        · rw [if_pos hl]
          exact ⟨b.sequence, rfl, (hlower c hc hl).le⟩
        · rw [if_neg hl]
          exact h.highest c hc
      · cases List.mem_singleton.mp hc
        rw [if_pos rfl]
        exact ⟨b.sequence, rfl, le_rfl⟩

namespace ContributionVerifier

/-- **What a call does.** -/
theorem step_cases {v : ContributionVerifier} (hfits : v.replay.Fits) (op : Op) :
    (handed K v op = [] ∧ (step K v op).replay = v.replay) ∨
    ∃ b, handed K v op = [b] ∧ Vouched K b.policy b.lease b.contribution b.now ∧
      v.replay.accept b.lease.leaseId b.sequence (b.digest K) =
        .ok (b.replay, (step K v op).replay) := by
  cases op with
  | verify lease contribution now =>
    cases hv : v.verify K lease contribution now with
    | error e =>
      left
      unfold handed step
      simp only [hv, and_self]
    | ok answer =>
      obtain ⟨verified, held⟩ := answer
      obtain ⟨hvouched, rfl, haccept⟩ := verify_ok.mp hv
      right
      refine ⟨⟨v.policy, lease, now, verified.contribution, verified.replay⟩, ?_, hvouched, ?_⟩
      · unfold handed
        simp only [hv]
      · unfold step
        simp only [hv]
        exact haccept
  | restart policy =>
    left
    have hread := ReplaySnapshot.fromBytes_toBytes hfits
    refine ⟨rfl, ?_⟩
    unfold step replaySnapshot
    simp only [hread]

/-- The store and the log of a run. -/
structure Kept (K : ContributionCrate) (v : ContributionVerifier) (log : List Accepted) (n : Nat) :
    Prop where
  recorded : Recorded K v.replay log
  size : v.replay.accepted.size ≤ n ∧ v.replay.highest.size ≤ n
  follows : ∀ σ ∈ Trace.steps log, Follows K σ.1 σ.2
  vouched : ∀ a ∈ log, Vouched K a.policy a.lease a.contribution a.now

theorem Kept.fits {v : ContributionVerifier} {log : List Accepted} {n : Nat} (h : Kept K v log n)
    (hn : n < 18446744073709551616) : v.replay.Fits :=
  ⟨lt_of_le_of_lt h.size.1 hn, lt_of_le_of_lt h.size.2 hn⟩

theorem Kept.step {v : ContributionVerifier} {log : List Accepted} {n : Nat} (h : Kept K v log n)
    (hn : n < 18446744073709551616) (op : Op) :
    Kept K (step K v op) (log ++ handed K v op) (n + 1) := by
  rcases step_cases (h.fits hn) op with ⟨hnone, hsame⟩ | ⟨b, hb, hvouched, haccept⟩
  · rw [hnone, List.append_nil]
    refine ⟨by rw [hsame]; exact h.recorded, ?_, h.follows, h.vouched⟩
    rw [hsame]
    exact ⟨by have := h.size.1; omega, by have := h.size.2; omega⟩
  · rw [hb]
    obtain ⟨hrecorded, hfollows⟩ := h.recorded.accept haccept
    refine ⟨hrecorded, ?_, ?_, ?_⟩
    · rcases ReplaySnapshot.accept_ok.mp haccept with ⟨-, hsame, -⟩ | ⟨-, -, -, hnew⟩
      · rw [hsame]
        exact ⟨by have := h.size.1; omega, by have := h.size.2; omega⟩
      · rw [hnew]
        exact ⟨(OrdMap.size_insert_le _ _ _).trans (by have := h.size.1; omega),
          (OrdMap.size_insert_le _ _ _).trans (by have := h.size.2; omega)⟩
    · intro σ hσ
      rw [Trace.steps_concat, List.mem_append, List.mem_singleton] at hσ
      rcases hσ with hσ | rfl
      · exact h.follows σ hσ
      · exact hfollows
    · intro a ha
      rcases List.mem_append.mp ha with ha | ha
      · exact h.vouched a ha
      · cases List.mem_singleton.mp ha
        exact hvouched

/-- The run lemma. -/
theorem kept_after (policy : RemoteSessionPolicy) (ops : List Op)
    (hfit : ops.length < 18446744073709551616) :
    Kept K (after K policy ops) (accepted K policy ops) ops.length := by
  induction ops using List.reverseRecOn with
  | nil => exact ⟨recorded_empty, ⟨le_rfl, le_rfl⟩, fun _ h => (nomatch h), fun _ h => (nomatch h)⟩
  | append_singleton ops op ih =>
    rw [List.length_append, List.length_singleton] at hfit ⊢
    have hstep := (ih (by omega)).step (by omega) op
    unfold after accepted
    rw [Trace.run_concat, Trace.observed_concat]
    exact hstep

end ContributionVerifier

/-! ## The same contribution -/

/-- What was hashed of the contributions accepted: their manifests and their payloads. -/
def hashed (log : List Accepted) : List Bytes :=
  log.flatMap (fun a => a.contribution.manifest.signedBytes ::
    a.contribution.payloads.map ContributionPayload.bytes)

/-- SHA-256 tells these byte strings apart. -/
def Separates (K : ContributionCrate) (l : List Bytes) : Prop :=
  ∀ x ∈ l, ∀ y ∈ l, K.sha256 x = K.sha256 y → x = y

theorem mem_hashed_manifest {log : List Accepted} {a : Accepted} (h : a ∈ log) :
    a.contribution.manifest.signedBytes ∈ hashed log :=
  List.mem_flatMap.mpr ⟨a, h, List.mem_cons_self ..⟩

theorem mem_hashed_payload {log : List Accepted} {a : Accepted} (h : a ∈ log)
    {p : ContributionPayload} (hp : p ∈ a.contribution.payloads) : p.bytes ∈ hashed log :=
  List.mem_flatMap.mpr ⟨a, h, List.mem_cons_of_mem _ (List.mem_map_of_mem hp)⟩

/-- Payloads described alike are the same payloads, when their bytes are told apart. -/
theorem eq_of_described : ∀ {l l' : List ContributionPayload},
    (∀ p ∈ l, ∀ q ∈ l', K.sha256 p.bytes = K.sha256 q.bytes → p.bytes = q.bytes) →
    l.map (ContributionPayload.described K) = l'.map (ContributionPayload.described K) → l = l'
  | [], [], _, _ => rfl
  | [], _ :: _, _, h => nomatch h
  | _ :: _, [], _, h => nomatch h
  | ⟨r, k, bytes⟩ :: l, ⟨r', k', bytes'⟩ :: l', hsep, h => by
      rw [List.map_cons, List.map_cons, List.cons.injEq] at h
      obtain ⟨hhead, htail⟩ := h
      simp only [ContributionPayload.described, PayloadDigest.mk.injEq] at hhead
      obtain ⟨rfl, rfl, -, hhash⟩ := hhead
      have hbytes : bytes = bytes' :=
        hsep _ (List.mem_cons_self ..) _ (List.mem_cons_self ..) hhash
      have hrest := eq_of_described
        (fun p hp q hq => hsep p (List.mem_cons_of_mem _ hp) q (List.mem_cons_of_mem _ hq)) htail
      rw [hbytes, hrest]

/-- Two accepted contributions with one manifest digest are the same contribution. -/
theorem same_of_digest {log : List Accepted} (hsep : Separates K (hashed log)) {a b : Accepted}
    (ha : a ∈ log) (hb : b ∈ log)
    (hva : Vouched K a.policy a.lease a.contribution a.now)
    (hvb : Vouched K b.policy b.lease b.contribution b.now) (h : a.digest K = b.digest K) :
    a.contribution.manifest = b.contribution.manifest ∧
      a.contribution.payloads = b.contribution.payloads := by
  have hmanifest : a.contribution.manifest = b.contribution.manifest :=
    ContributionManifest.signedBytes_inj hva.manifest_count hvb.manifest_count
      (hsep _ (mem_hashed_manifest ha) _ (mem_hashed_manifest hb) h)
  refine ⟨hmanifest, eq_of_described (K := K) (fun p hp q hq hpq => ?_) ?_⟩
  · exact hsep _ (mem_hashed_payload ha hp) _ (mem_hashed_payload hb hq) hpq
  · rw [← hva.named, ← hvb.named, hmanifest]

/-- **One contribution for each lease and sequence number.**  In every run of calls and restarts,
what is accepted is vouched for by the platform key of its lease, under the policy in force.  It is
fresh when its number is above all that were accepted under the lease, and otherwise a duplicate of
what was accepted under the very number: the same manifest and the same payloads. -/
theorem one_contribution_per_sequence (K : ContributionCrate) (policy : RemoteSessionPolicy)
    (ops : List Op) (hfit : ops.length < 18446744073709551616)
    (hsep : Separates K (hashed (ContributionVerifier.accepted K policy ops))) :
    ∀ σ ∈ Trace.steps (ContributionVerifier.accepted K policy ops),
      Vouched K σ.2.policy σ.2.lease σ.2.contribution σ.2.now ∧
      ((σ.2.replay = .fresh ∧ ∀ a ∈ σ.1, a.lease.leaseId = σ.2.lease.leaseId →
          a.sequence < σ.2.sequence) ∨
        (σ.2.replay = .duplicate ∧ (∃ a ∈ σ.1, a.key = σ.2.key) ∧ ∀ a ∈ σ.1, a.key = σ.2.key →
          a.contribution.manifest = σ.2.contribution.manifest ∧
          a.contribution.payloads = σ.2.contribution.payloads)) := by
  intro σ hσ
  have hkept := ContributionVerifier.kept_after (K := K) policy ops hfit
  have hmem := Trace.mem_of_mem_steps hσ
  refine ⟨hkept.vouched σ.2 hmem, (hkept.follows σ hσ).imp_right ?_⟩
  rintro ⟨hdup, hearlier, hsame⟩
  refine ⟨hdup, hearlier, fun a ha hkey => ?_⟩
  have hmem' : a ∈ ContributionVerifier.accepted K policy ops :=
    (Trace.prefix_of_mem_steps hσ).subset (List.mem_append_left _ ha)
  exact same_of_digest hsep hmem' hmem (hkept.vouched a hmem') (hkept.vouched σ.2 hmem)
    (hsame a ha hkey)

namespace ContributionToy

/-- A scheme whose signatures are the signer's byte and the message, and a hash that keeps the last
bytes. -/
def crate : ContributionCrate where
  Identity := U8
  pubkey id := .filled 32 id
  sign id msg := id :: msg
  verify pk msg signature := decide (signature = pk.1.headD 0 :: msg)
  sha256 bytes := ⟨(bytes.reverse ++ List.replicate 32 0).take 32, by simp⟩

theorem signs : crate.Signs := by
  intro id msg
  exact decide_eq_true rfl

def policy : RemoteSessionPolicy := ⟨true, true, [.filled 32 9], [.panetiere], 10⟩

def lease : EnrolmentStatement where
  leaseId := .filled 32 1
  configHash := .filled 32 2
  subnet := 4
  protocol := .panetiere
  participant := .filled 32 5
  forwarder := .filled 32 6
  platformKey := .filled 32 9
  processNonce := .filled 32 3
  validFrom := 10
  validUntil := 20

def payload : ContributionPayload := ⟨.broadcast, 7, [104, 105]⟩

def manifest (sequence : U64) : ContributionManifest where
  leaseId := lease.leaseId
  configHash := lease.configHash
  protocol := .panetiere
  subnet := 4
  round := 12
  phase := 1
  sequence := sequence
  origin := none
  payloads := [payload.described crate]

def contribution (sequence : U64) : AttestedContribution :=
  ⟨manifest sequence, .devEd25519 (.filled 32 9) (9 :: (manifest sequence).signedBytes), [payload]⟩

/-- Accepted, saved and restored, sent again, and an older number. -/
def ops : List Op :=
  [.verify lease (contribution 3) 12, .restart policy, .verify lease (contribution 3) 13,
    .verify lease (contribution 2) 13]

end ContributionToy

open ContributionToy in
theorem one_contribution_per_sequence_toy :
    (ContributionVerifier.accepted crate policy ops).map Accepted.replay = [.fresh, .duplicate] ∧
    ∀ σ ∈ Trace.steps (ContributionVerifier.accepted crate policy ops),
      Vouched crate σ.2.policy σ.2.lease σ.2.contribution σ.2.now ∧
      ((σ.2.replay = .fresh ∧ ∀ a ∈ σ.1, a.lease.leaseId = σ.2.lease.leaseId →
          a.sequence < σ.2.sequence) ∨
        (σ.2.replay = .duplicate ∧ (∃ a ∈ σ.1, a.key = σ.2.key) ∧ ∀ a ∈ σ.1, a.key = σ.2.key →
          a.contribution.manifest = σ.2.contribution.manifest ∧
          a.contribution.payloads = σ.2.contribution.payloads)) :=
  ⟨by decide +kernel, one_contribution_per_sequence crate policy ops (by decide)
    (by unfold Separates; decide +kernel)⟩

/-! ## What an enrolled signer sends -/

theorem mapM_digest_ok {payloads : List ContributionPayload} {digests : List PayloadDigest} :
    payloads.mapM (ContributionPayload.digest K) = .ok digests ↔
      (∀ p ∈ payloads, p.bytes.length < 4294967296) ∧
        digests = payloads.map (ContributionPayload.described K) := by
  unfold ContributionPayload.digest
  exact Guards.mapM_ok

/-- **What `freeze_manifest` hands back.** -/
theorem freezeManifest_ok {lease : EnrolmentStatement} {round : Round} {phase : Fin 65536}
    {sequence : U64} {origin : Option (ByteArr 32)} {payloads payloads' : List ContributionPayload}
    {manifest : ContributionManifest}
    (h : freezeManifest K lease round phase sequence origin payloads = .ok (manifest, payloads')) :
    payloads' = payloads ∧ payloads.length ≤ maxPayloads ∧
      manifest = ⟨lease.leaseId, lease.configHash, lease.protocol, lease.subnet, round, phase,
        sequence, origin, payloads.map (ContributionPayload.described K)⟩ := by
  unfold freezeManifest at h
  simp only [Guards.seq_ok, Guards.guard_ok, Guards.map_ok, mapM_digest_ok] at h
  obtain ⟨digests, ⟨-, rfl⟩, -, bytes, hbytes, hret⟩ := h
  cases hret
  have hcount := (canonicalBytes_ok.mp hbytes).1
  rw [List.length_map] at hcount
  exact ⟨rfl, hcount, rfl⟩

/-- A lease the verifier handed out to the enrolment of an identity. -/
theorem verifyEnrolment_ok {v : ContributionVerifier} {identity : K.Identity}
    {statement lease : EnrolmentStatement} {enrolment : SessionEnrolment} {now : Round}
    (henrol : enrol K identity statement = .ok enrolment)
    (h : v.verifyEnrolment K enrolment now = .ok lease) :
    lease = statement ∧ lease.platformKey = K.pubkey identity ∧ v.policy.allowDeveloper = true ∧
      lease.platformKey ∈ v.policy.developerKeys := by
  unfold enrol at henrol
  obtain ⟨hkey, henrol⟩ := Guards.guard_ok.mp henrol
  cases henrol
  unfold ContributionVerifier.verifyEnrolment ContributionVerifier.checkEnrolment at h
  simp only [Guards.guard_ok, not_or, Bool.not_eq_false, not_not] at h
  obtain ⟨-, -, -, ⟨hallow, hkeys⟩, -, hlease⟩ := h
  cases hlease
  exact ⟨rfl, not_not.mp hkey, hallow, hkeys⟩

/-- A frozen and signed contribution is vouched for while its lease is in force. -/
theorem vouched_frozen (hsigns : K.Signs) {policy : RemoteSessionPolicy} {identity : K.Identity}
    {lease : EnrolmentStatement} {round now : Round} {phase : Fin 65536} {sequence : U64}
    {origin : Option (ByteArr 32)} {payloads payloads' : List ContributionPayload}
    {manifest : ContributionManifest} {evidence : ContributionEvidence}
    (hkey : lease.platformKey = K.pubkey identity) (hallow : policy.allowDeveloper = true)
    (hkeys : lease.platformKey ∈ policy.developerKeys)
    (hfreeze : freezeManifest K lease round phase sequence origin payloads =
      .ok (manifest, payloads'))
    (hsign : signManifest K identity manifest = .ok evidence)
    (hsize : (payloads.map (fun p => p.bytes.length)).sum ≤ maxPayloadBytes)
    (hnow : lease.validFrom ≤ now ∧ now < lease.validUntil)
    (hround : lease.validFrom ≤ round ∧ round < lease.validUntil) :
    Vouched K policy lease ⟨manifest, evidence, payloads'⟩ now := by
  obtain ⟨rfl, hcount, rfl⟩ := freezeManifest_ok hfreeze
  unfold signManifest ContributionManifest.canonicalBytes at hsign
  rw [if_neg (by rw [List.length_map]; omega)] at hsign
  cases hsign
  exact ⟨⟨hnow.1, hnow.2, hround.1, hround.2⟩, ⟨rfl, rfl, rfl, rfl⟩, hcount, hsize, rfl,
    _, by rw [hkey], hallow, hkeys, by rw [hkey]; exact hsigns _ _⟩

/-- A vouched contribution the store answers is handed back with the answer. -/
theorem accepted_concat {policy : RemoteSessionPolicy} {ops : List Op} {lease : EnrolmentStatement}
    {c : AttestedContribution} {now : Round} {replay : ReplayDecision} {held : ReplaySnapshot}
    (hvouched : Vouched K (ContributionVerifier.after K policy ops).policy lease c now)
    (haccept : (ContributionVerifier.after K policy ops).replay.accept lease.leaseId
      c.manifest.sequence (K.sha256 c.manifest.signedBytes) = .ok (replay, held)) :
    ContributionVerifier.accepted K policy (ops ++ [.verify lease c now]) =
      ContributionVerifier.accepted K policy ops ++
        [⟨(ContributionVerifier.after K policy ops).policy, lease, now, c, replay⟩] := by
  have hverify : (ContributionVerifier.after K policy ops).verify K lease c now =
      .ok (⟨c, replay⟩, held) := verify_ok.mpr ⟨hvouched, rfl, haccept⟩
  unfold ContributionVerifier.accepted
  rw [Trace.observed_concat]
  show _ ++ ContributionVerifier.handed K (ContributionVerifier.after K policy ops) _ = _
  unfold ContributionVerifier.handed
  simp only [hverify]

theorem accepted_append (policy : RemoteSessionPolicy) (ops post : List Op) :
    ContributionVerifier.accepted K policy ops <+:
      ContributionVerifier.accepted K policy (ops ++ post) := by
  unfold ContributionVerifier.accepted Trace.observed
  rw [Trace.steps_append, List.flatMap_append]
  exact List.prefix_append _ _

/-- **An enrolled signer's contribution is accepted, once.**  The developer enrols, the verifier
hands out the lease, and what the developer freezes and signs under it is fresh, when no
contribution with the same or a higher number was accepted under the lease.  Whatever the verifier
is called with afterwards, and through every restart, the same contribution is a duplicate as long
as its lease and its key are accepted. -/
theorem frozen_contribution_accepted (K : ContributionCrate) (hsigns : K.Signs)
    (policy : RemoteSessionPolicy) (pre post : List Op)
    (hfit : pre.length + post.length < 18446744073709551615)
    {identity : K.Identity} {statement lease : EnrolmentStatement} {enrolment : SessionEnrolment}
    {enrolled : Round} (henrol : enrol K identity statement = .ok enrolment)
    (hlease : (ContributionVerifier.after K policy pre).verifyEnrolment K enrolment enrolled =
      .ok lease)
    {round now : Round} {phase : Fin 65536} {sequence : U64} {origin : Option (ByteArr 32)}
    {payloads payloads' : List ContributionPayload} {manifest : ContributionManifest}
    {evidence : ContributionEvidence}
    (hfreeze : freezeManifest K lease round phase sequence origin payloads =
      .ok (manifest, payloads'))
    (hsign : signManifest K identity manifest = .ok evidence)
    (hsize : (payloads.map (fun p => p.bytes.length)).sum ≤ maxPayloadBytes)
    (hnow : lease.validFrom ≤ now ∧ now < lease.validUntil)
    (hround : lease.validFrom ≤ round ∧ round < lease.validUntil)
    (hnew : ∀ a ∈ ContributionVerifier.accepted K policy pre,
      a.lease.leaseId = lease.leaseId → a.sequence < sequence) :
    let send (at_ : Round) : Op := .verify lease ⟨manifest, evidence, payloads'⟩ at_
    (ContributionVerifier.accepted K policy (pre ++ [send now])).getLast?.map Accepted.replay =
      some .fresh ∧
    ∀ later, lease.validFrom ≤ later → later < lease.validUntil →
      (ContributionVerifier.after K policy (pre ++ send now :: post)).policy.allowDeveloper = true →
      lease.platformKey ∈
        (ContributionVerifier.after K policy (pre ++ send now :: post)).policy.developerKeys →
      ContributionVerifier.accepted K policy (pre ++ send now :: post ++ [send later]) =
        ContributionVerifier.accepted K policy (pre ++ send now :: post) ++
          [⟨(ContributionVerifier.after K policy (pre ++ send now :: post)).policy, lease, later,
            ⟨manifest, evidence, payloads'⟩, .duplicate⟩] := by
  intro send
  obtain ⟨-, hkey, hallow, hkeys⟩ := verifyEnrolment_ok henrol hlease
  have hseq : manifest.sequence = sequence := by rw [(freezeManifest_ok hfreeze).2.2]
  have hkept := ContributionVerifier.kept_after (K := K) policy pre (by omega)
  have hvouched := vouched_frozen hsigns hkey hallow hkeys hfreeze hsign hsize hnow hround
  -- No entry is kept under the number, and the highest of the lease is below it.
  have hnone : (ContributionVerifier.after K policy pre).replay.accepted.get?
      (toLex (lease.leaseId, manifest.sequence)) = none := by
    by_contra hsome
    obtain ⟨digest, hdigest⟩ := Option.ne_none_iff_exists'.mp hsome
    obtain ⟨a, ha, hakey, -⟩ := (hkept.recorded.accepted _ _).mp hdigest
    obtain ⟨hal, has⟩ := Prod.mk.inj (toLex_inj.mp hakey)
    exact absurd (hnew a ha hal) (by rw [← hseq, ← has]; exact lt_irrefl _)
  have hhigh : ∀ highest, (ContributionVerifier.after K policy pre).replay.highest.get?
      lease.leaseId = some highest → highest < manifest.sequence := by
    intro highest hget
    obtain ⟨a, ha, hal, rfl⟩ := hkept.recorded.reached _ _ hget
    rw [hseq]
    exact hnew a ha hal
  have hsent := accepted_concat hvouched
    (ReplaySnapshot.accept_ok.mpr (Or.inr ⟨rfl, hnone, hhigh, rfl⟩))
  refine ⟨by rw [hsent, List.getLast?_concat]; rfl, fun later hfrom huntil hallow' hkeys' => ?_⟩
  -- What was accepted stays in the log, and the store knows its digest.
  have hlen : (pre ++ send now :: post).length < 18446744073709551616 := by
    rw [List.length_append, List.length_cons]
    omega
  have hkept' := ContributionVerifier.kept_after (K := K) policy (pre ++ send now :: post) hlen
  have hlog : (⟨(ContributionVerifier.after K policy pre).policy, lease, now,
      ⟨manifest, evidence, payloads'⟩, .fresh⟩ : Accepted) ∈
      ContributionVerifier.accepted K policy (pre ++ send now :: post) := by
    have hprefix := accepted_append (K := K) policy (pre ++ [send now]) post
    rw [List.append_assoc, List.singleton_append] at hprefix
    exact hprefix.subset (by rw [hsent]; simp)
  have hget := (hkept'.recorded.accepted _ _).mpr ⟨_, hlog, rfl, rfl⟩
  exact accepted_concat
    (vouched_frozen hsigns hkey hallow' hkeys' hfreeze hsign hsize ⟨hfrom, huntil⟩ hround)
    (ReplaySnapshot.accept_ok.mpr (Or.inl ⟨rfl, rfl, hget⟩))

namespace ContributionToy

/-- The enrolment of the developer whose byte is nine. -/
def enrolment : SessionEnrolment := .developer lease (9 :: lease.canonicalBytes)

theorem enrol_lease : enrol crate (9 : U8) lease = .ok enrolment :=
  if_neg (by decide +kernel)

def before : List Op := [.verify lease (contribution 2) 12]

theorem lease_enrolled :
    (ContributionVerifier.after crate policy before).verifyEnrolment crate enrolment 11 =
      .ok lease := by
  decide +kernel

theorem manifest_frozen : freezeManifest crate lease 12 1 3 none [payload] =
    .ok (manifest 3, [payload]) := by
  decide +kernel

theorem manifest_signed :
    signManifest crate (9 : U8) (manifest 3) = .ok (contribution 3).evidence := by
  decide +kernel

end ContributionToy

open ContributionToy in
theorem frozen_contribution_accepted_toy :
    let send (at_ : Round) : Op :=
      .verify lease ⟨manifest 3, (contribution 3).evidence, [payload]⟩ at_
    (ContributionVerifier.accepted crate policy (before ++ [send 12])).getLast?.map
      Accepted.replay = some .fresh ∧
    ∀ later, lease.validFrom ≤ later → later < lease.validUntil →
      (ContributionVerifier.after crate policy
        (before ++ send 12 :: [.restart policy])).policy.allowDeveloper = true →
      lease.platformKey ∈ (ContributionVerifier.after crate policy
        (before ++ send 12 :: [.restart policy])).policy.developerKeys →
      ContributionVerifier.accepted crate policy
          (before ++ send 12 :: [.restart policy] ++ [send later]) =
        ContributionVerifier.accepted crate policy (before ++ send 12 :: [.restart policy]) ++
          [⟨(ContributionVerifier.after crate policy
            (before ++ send 12 :: [.restart policy])).policy, lease, later,
            ⟨manifest 3, (contribution 3).evidence, [payload]⟩, .duplicate⟩] :=
  frozen_contribution_accepted crate signs policy before [.restart policy] (by decide +kernel)
    enrol_lease lease_enrolled manifest_frozen manifest_signed (by decide +kernel)
    (by decide +kernel) (by decide +kernel) (by decide +kernel)

end Anymone.Contribution
