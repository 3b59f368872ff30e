import Anymone.SchedulerToy

/-! # What a committee member approves

A member approves a body by publishing its signature over the body's canonical bytes.
`on_decoded_body` is the only call that does (`decodedBody_of_publishSig`), after the
four checks of `accepts`.

A member's own signatures stay in `sigs`, so it could recognise a second body of a
round it has signed.  `on_decoded_body` does not look: it refuses lower rounds only.  A
member that is never shown such a body approves one body a version, and with a
threshold above half of the committee so does the committee.
-/

namespace Anymone
variable {C : SchedulerCrate} {O : ObserverSessions}

namespace SchedulerCore
variable {cfg : SchedulerConfig C} {s : SchedulerCore O}

/-! ## Approvals -/

theorem not_publishSig_tryAssemble {sig : CommitteeSig} {body : C.Body} :
    .publishSig sig ∉ (s.tryAssemble cfg body).2.toList := by
  unfold tryAssemble
  dsimp only
  split_ifs
  · simp
  · split
    · simp
    · split_ifs <;> simp

theorem not_publishSig_propose {sig : CommitteeSig} {clock : U64} :
    .publishSig sig ∉ (s.propose cfg clock).2 := by
  unfold propose
  dsimp only
  split_ifs <;> simp

/-- **A member signs only a proposal it accepts, and then its whole body.** -/
theorem decodedBody_of_publishSig {op : SchedulerOp C} {sig : CommitteeSig}
    (h : .publishSig sig ∈ s.actions cfg op) :
    ∃ proposal, op = .decodedBody proposal ∧ s.accepts cfg proposal = true ∧
      sig = approval cfg proposal.body := by
  cases op with
  | decodedBody proposal =>
    refine ⟨proposal, rfl, ?_⟩
    simp only [actions, onDecodedBody] at h
    split at h
    · simp at h
    · rename_i hacc
      rcases List.mem_cons.mp h with h | h
      · cases h
        exact ⟨by simpa using hacc, rfl⟩
      · exact absurd h not_publishSig_tryAssemble
  | committeeSig sig' =>
    simp only [actions, onCommitteeSig] at h
    split_ifs at h
    · simp at h
    · split at h
      · simp at h
      · split_ifs at h
        · simp at h
        · exact absurd h not_publishSig_tryAssemble
  | tick round now clock =>
    simp only [actions, tick] at h
    split_ifs at h
    · exact absurd h not_publishSig_propose
    · simp at h
  | registration _ | publishedConfig _ | faultReport _ _ _ | observedFaults _ _
  | subnetMessage _ _ _ | setCoverRate _ => simp [actions] at h

/-- `on_decoded_body` emits an approval. -/
def Approves (cfg : SchedulerConfig C) (s : SchedulerCore O) (proposal : SignedProposal C) : Prop :=
  ∃ sig, .publishSig sig ∈ (s.onDecodedBody cfg proposal).2

theorem approves_iff {proposal : SignedProposal C} :
    s.Approves cfg proposal ↔ s.accepts cfg proposal = true := by
  constructor
  · rintro ⟨sig, hsig⟩
    have hact : .publishSig sig ∈ s.actions cfg (.decodedBody proposal) := hsig
    obtain ⟨proposal', hop, hacc, -⟩ := decodedBody_of_publishSig hact
    cases hop
    exact hacc
  · intro hacc
    exact ⟨approval cfg proposal.body, by simp [onDecodedBody, hacc]⟩

theorem signed_approve {body : C.Body} :
    (s.approve cfg body).Signed body.canonicalBytes cfg.ourPk := by
  refine (keeps_learnConfig cfg _ body).signed ?_
  exact signed_recordSig.mpr (Or.inl ⟨rfl, rfl⟩)

/-! ## Versions -/

/-- The round a canonical body starts with. -/
def signedRound (canonical : Bytes) : Option Round :=
  (ConfigFormat.long.read canonical).map Prod.fst

theorem signedRound_canonicalBytes (body : C.Body) :
    signedRound body.canonicalBytes = some body.round := by
  have hread := ConfigFormat.long.read_write (a := body.round) trivial
  unfold signedRound
  rw [show body.canonicalBytes = ConfigFormat.long.write body.round ++ _ from rfl, hread]
  rfl

/-- The member has emitted an approval of the body in the run. -/
def Approved (O : ObserverSessions) (cfg : SchedulerConfig C) (ops : List (SchedulerOp C))
    (body : C.Body) : Prop :=
  ∃ sig, .publishSig sig ∈ performed O cfg ops ∧ sig.bodyBytes = body.canonicalBytes

/-- The member holds its own signature over another body of the proposal's round. -/
def conflicts (cfg : SchedulerConfig C) (s : SchedulerCore O) (body : C.Body) : Bool :=
  s.sigs.entries.any (fun e =>
    e.2.contains cfg.ourPk && decide (e.1 ≠ body.canonicalBytes) &&
      decide (signedRound e.1 = some body.round))

/-- The call shows the member a body it signs over its own signature. -/
def signsOver (cfg : SchedulerConfig C) (s : SchedulerCore O) : SchedulerOp C → Bool
  | .decodedBody proposal => s.accepts cfg proposal && s.conflicts cfg proposal.body
  | _ => false

/-- No call of the run has the member sign a second body of one round. -/
def SignsOnce (O : ObserverSessions) (cfg : SchedulerConfig C) (ops : List (SchedulerOp C)) : Prop :=
  ∀ σ ∈ Trace.steps ops, (after O cfg σ.1).signsOver cfg σ.2 = false

instance (ops : List (SchedulerOp C)) : Decidable (SignsOnce O cfg ops) :=
  inferInstanceAs (Decidable (∀ σ ∈ Trace.steps ops, (after O cfg σ.1).signsOver cfg σ.2 = false))

/-- One version, one body: the property a member keeps. -/
def VersionsUnique (O : ObserverSessions) (cfg : SchedulerConfig C) (ops : List (SchedulerOp C)) :
    Prop :=
  ∀ b₁ b₂, Approved O cfg ops b₁ → Approved O cfg ops b₂ → b₁.round = b₂.round →
    b₁.canonicalBytes = b₂.canonicalBytes

theorem approved_of_accepts (pre post : List (SchedulerOp C)) (proposal : SignedProposal C)
    (hacc : (after O cfg pre).accepts cfg proposal = true) :
    Approved O cfg (pre ++ .decodedBody proposal :: post) proposal.body := by
  refine ⟨approval cfg proposal.body, ?_, rfl⟩
  refine List.mem_flatMap.mpr ⟨_, Trace.mem_steps.mpr ⟨post, rfl⟩, ?_⟩
  show _ ∈ ((after O cfg pre).onDecodedBody cfg proposal).2
  simp [onDecodedBody, hacc]

/-- The member's approvals stay in its signature map. -/
theorem signed_of_approved {ops : List (SchedulerOp C)} {body : C.Body}
    (h : Approved O cfg ops body) :
    (after O cfg ops).Signed body.canonicalBytes cfg.ourPk := by
  induction ops using List.reverseRecOn with
  | nil =>
    obtain ⟨sig, hsig, -⟩ := h
    simp [performed] at hsig
  | append_singleton ops op ih =>
    obtain ⟨sig, hsig, hbytes⟩ := h
    rw [performed_concat, List.mem_append] at hsig
    rw [after_concat]
    rcases hsig with hold | hnew
    · have hkept := ih ⟨sig, hold, hbytes⟩
      by_cases hop : ∃ reg, op = .registration reg
      · obtain ⟨reg, rfl⟩ := hop
        obtain ⟨entry, hentry, hmem⟩ := hkept
        refine ⟨entry, ?_, hmem⟩
        show ((after O cfg ops).onRegistration reg).sigs.get? _ = some entry
        rw [sigs_onRegistration, hentry]
      · exact (keeps_apply cfg _ op (fun reg he => hop ⟨reg, he⟩)).signed hkept
    · obtain ⟨proposal, rfl, hacc, rfl⟩ := decodedBody_of_publishSig hnew
      have hbytes : proposal.body.canonicalBytes = body.canonicalBytes := hbytes
      rw [← hbytes]
      simp only [apply, onDecodedBody, hacc, Bool.not_true, Bool.false_eq_true, if_false]
      exact (keeps_tryAssemble cfg _ proposal.body).signed signed_approve

theorem not_signed_of_not_conflicts {body b : C.Body} (h : s.conflicts cfg body = false)
    (hs : s.Signed b.canonicalBytes cfg.ourPk) (hround : b.round = body.round) :
    b.canonicalBytes = body.canonicalBytes := by
  obtain ⟨entry, hentry, hmem⟩ := hs
  by_contra hne
  have hc : s.conflicts cfg body = true := by
    unfold conflicts
    rw [List.any_eq_true]
    refine ⟨_, OrdMap.get?_eq_some_iff.mp hentry, ?_⟩
    simp [hmem, hne, signedRound_canonicalBytes, hround]
  rw [h] at hc
  cases hc

/-- **A member that never signs over its own signature approves one body a version.** -/
theorem versionsUnique_of_signsOnce {ops : List (SchedulerOp C)} (h : SignsOnce O cfg ops) :
    VersionsUnique O cfg ops := by
  suffices hall : ∀ l, l <+: ops → VersionsUnique O cfg l from hall ops (List.prefix_refl ops)
  refine Trace.prefix_induction ?_ ?_
  · rintro b₁ b₂ ⟨sig, hsig, -⟩
    simp [performed] at hsig
  · rintro ⟨pre, op⟩ hσ ih b₁ b₂ ⟨sig₁, h₁, hb₁⟩ ⟨sig₂, h₂, hb₂⟩ hround
    rw [performed_concat, List.mem_append] at h₁ h₂
    -- a body approved by this call meets only bodies approved before it or now
    have hnew : ∀ {sig} {b b' : C.Body}, .publishSig sig ∈ (after O cfg pre).actions cfg op →
        sig.bodyBytes = b.canonicalBytes → Approved O cfg pre b' → b'.round = b.round →
        b'.canonicalBytes = b.canonicalBytes := by
      intro sig b b' hsig hb happ hr
      obtain ⟨proposal, hop, hacc, rfl⟩ := decodedBody_of_publishSig hsig
      have hcan : proposal.body.canonicalBytes = b.canonicalBytes := hb
      have hsame : proposal.body.round = b.round := by
        have := congrArg signedRound hcan
        rw [signedRound_canonicalBytes, signedRound_canonicalBytes] at this
        exact Option.some.inj this
      have hfree : (after O cfg pre).conflicts cfg proposal.body = false := by
        have := h _ hσ
        dsimp only at this hop
        simpa [hop, signsOver, hacc] using this
      rw [← hcan]
      exact not_signed_of_not_conflicts hfree (signed_of_approved happ) (hr.trans hsame.symm)
    rcases h₁ with h₁ | h₁ <;> rcases h₂ with h₂ | h₂
    · exact ih b₁ b₂ ⟨sig₁, h₁, hb₁⟩ ⟨sig₂, h₂, hb₂⟩ hround
    · exact hnew h₂ hb₂ ⟨sig₁, h₁, hb₁⟩ hround
    · exact (hnew h₁ hb₁ ⟨sig₂, h₂, hb₂⟩ hround.symm).symm
    · obtain ⟨p₁, hop₁, -, rfl⟩ := decodedBody_of_publishSig h₁
      obtain ⟨p₂, hop₂, -, rfl⟩ := decodedBody_of_publishSig h₂
      cases hop₁.symm.trans hop₂
      exact hb₁.symm.trans hb₂

end SchedulerCore

/-! ## A committee -/

/-- A committee: its keys and threshold, and what each honest member runs with. -/
structure Committee (C : SchedulerCrate) where
  members : List Pubkey
  threshold : U32
  identity : Pubkey → C.Identity
  params : Pubkey → SchedulerParams C

namespace Committee
open SchedulerCore

/-- What member `pk` is built with. -/
def config (K : Committee C) (pk : Pubkey) : SchedulerConfig C :=
  ⟨K.identity pk, K.members, K.threshold, K.params pk⟩

/-- Two quorums of a committee in which a quorum is a majority share a member. -/
theorem exists_common_member (K : Committee C) (hmaj : K.members.length < 2 * K.threshold.val)
    {A B : Finset Pubkey} (hA : A ⊆ K.members.toFinset) (hB : B ⊆ K.members.toFinset)
    (hcA : K.threshold.val ≤ A.card) (hcB : K.threshold.val ≤ B.card) : ∃ pk ∈ A, pk ∈ B := by
  by_contra hnone
  have hdisj : Disjoint A B :=
    Finset.disjoint_left.mpr (fun pk ha hb => hnone ⟨pk, ha, hb⟩)
  have hunion : (A ∪ B).card ≤ K.members.length :=
    (Finset.card_le_card (Finset.union_subset hA hB)).trans (List.toFinset_card_le _)
  rw [Finset.card_union_of_disjoint hdisj] at hunion
  omega

/-- **One version, one body.**  In runs in which no honest member is shown a body it
would sign over its own signature of the same round, each member approves one body a
version, and where a threshold is a majority so does the committee. -/
theorem one_body_per_version (K : Committee C) (honest : Finset Pubkey)
    (ops : Pubkey → List (SchedulerOp C))
    (honce : ∀ pk ∈ honest, SignsOnce O (K.config pk) (ops pk)) :
    (∀ pk ∈ honest, VersionsUnique O (K.config pk) (ops pk)) ∧
      (honest ⊆ K.members.toFinset → K.members.length < 2 * K.threshold.val →
        ∀ b₁ b₂ : C.Body, b₁.round = b₂.round → ∀ A ⊆ honest, ∀ B ⊆ honest,
          K.threshold.val ≤ A.card → K.threshold.val ≤ B.card →
          (∀ pk ∈ A, Approved O (K.config pk) (ops pk) b₁) →
          (∀ pk ∈ B, Approved O (K.config pk) (ops pk) b₂) →
          b₁.canonicalBytes = b₂.canonicalBytes) := by
  have hmember : ∀ pk ∈ honest, VersionsUnique O (K.config pk) (ops pk) :=
    fun pk hpk => versionsUnique_of_signsOnce (honce pk hpk)
  refine ⟨hmember, ?_⟩
  intro hsub hmaj b₁ b₂ hround A hA B hB hcA hcB happ₁ happ₂
  obtain ⟨pk, hpA, hpB⟩ :=
    K.exists_common_member hmaj (hA.trans hsub) (hB.trans hsub) hcA hcB
  exact hmember pk (hA hpA) b₁ b₂ (happ₁ pk hpA) (happ₂ pk hpB) hround

end Committee

namespace SchedulerCore

/-- The registration of relay 9, and then the lead's proposals. -/
def toyApprovals (bodies : List toyScheduler.Body) : List (SchedulerOp toyScheduler) :=
  .registration (toyRegistration [1]) :: bodies.map (fun b => .decodedBody (toyProposal b))

/-- Version 1 with a cap of eight clients, and with a cap of nine. -/
def eightClients : toyScheduler.Body := toyBody 1 (toyPanetiere 8) [1]

def nineClients : toyScheduler.Body := toyBody 1 (toyPanetiere 9) [1]

theorem eightClients_approved (post : List (SchedulerOp toyScheduler)) :
    Approved toyObservers (toyMember 2)
      (toyApprovals [] ++ .decodedBody (toyProposal eightClients) :: post) eightClients :=
  approved_of_accepts _ post (toyProposal eightClients) (by decide +kernel)

theorem nineClients_approved :
    Approved toyObservers (toyMember 2) (toyApprovals [eightClients, nineClients]) nineClients :=
  approved_of_accepts (toyApprovals [eightClients]) [] (toyProposal nineClients) (by decide +kernel)

/-- **The member signs both.** -/
theorem member_signs_two_bodies_of_a_version :
    ¬ VersionsUnique toyObservers (toyMember 2) (toyApprovals [eightClients, nineClients]) := by
  intro h
  have hsame := h _ _ (eightClients_approved _) nineClients_approved rfl
  revert hsame
  decide +kernel

end SchedulerCore

namespace Committee
open SchedulerCore

/-- The committee of nodes 1 and 2. -/
def toyCommittee : Committee toyScheduler :=
  ⟨[toyNode 1, toyNode 2], 2, id, fun _ => toySchedulerParams⟩

/-- Version 2, after the cap was raised. -/
def secondVersion : toyScheduler.Body := toyBody 2 (toyPanetiere 9) [1]

/-- The calls of both members under a lead that raises the version with the content. -/
def raisingRun : List (SchedulerOp toyScheduler) :=
  toyApprovals [eightClients, eightClients, secondVersion]

theorem toyCommittee_members :
    ({toyNode 1, toyNode 2} : Finset Pubkey) ⊆ toyCommittee.members.toFinset := by
  decide +kernel

/-- Both members sign both versions, the first of them twice, and never two bodies of one; and
whatever both sign as version 1 is the body with eight clients. -/
theorem one_body_per_version_toy :
    (∀ pk ∈ ({toyNode 1, toyNode 2} : Finset Pubkey),
        Approved toyObservers (toyCommittee.config pk) raisingRun eightClients ∧
          Approved toyObservers (toyCommittee.config pk) raisingRun secondVersion) ∧
      (∀ pk ∈ ({toyNode 1, toyNode 2} : Finset Pubkey),
        VersionsUnique toyObservers (toyCommittee.config pk) raisingRun) ∧
      ∀ b : toyScheduler.Body, b.round = 1 →
        (∀ pk ∈ ({toyNode 1, toyNode 2} : Finset Pubkey),
          Approved toyObservers (toyCommittee.config pk) raisingRun b) →
        b.canonicalBytes = eightClients.canonicalBytes := by
  have hfirst : ∀ pk ∈ ({toyNode 1, toyNode 2} : Finset Pubkey),
      Approved toyObservers (toyCommittee.config pk) raisingRun eightClients := by
    intro pk hpk
    refine approved_of_accepts (toyApprovals []) _ (toyProposal eightClients) ?_
    revert hpk pk
    decide +kernel
  have hsecond : ∀ pk ∈ ({toyNode 1, toyNode 2} : Finset Pubkey),
      Approved toyObservers (toyCommittee.config pk) raisingRun secondVersion := by
    intro pk hpk
    refine approved_of_accepts (toyApprovals [eightClients, eightClients]) []
      (toyProposal secondVersion) ?_
    revert hpk pk
    decide +kernel
  obtain ⟨hmembers, hcommittee⟩ := one_body_per_version (O := toyObservers) toyCommittee
    {toyNode 1, toyNode 2} (fun _ => raisingRun) (by decide +kernel)
  refine ⟨fun pk hpk => ⟨hfirst pk hpk, hsecond pk hpk⟩, hmembers, fun b hround hall => ?_⟩
  have hsize : toyCommittee.threshold.val ≤ ({toyNode 1, toyNode 2} : Finset Pubkey).card := by
    decide +kernel
  exact hcommittee toyCommittee_members (by decide +kernel) b eightClients hround _ subset_rfl _
    subset_rfl hsize hsize hall hfirst

end Committee
end Anymone
