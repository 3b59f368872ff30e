import Anymone.BincodeCanonical
import Anymone.Quorum
import Anymone.SchedulerApproval

/-! # Assembling a multisig

A core gathers the committee's approvals of a body from two sides: its own, when it accepts
a proposal, and its peers', from their messages.  Its own are filed under the bytes it
writes, a peer's under the bytes it received; the encoding being canonical
(`canonicalBytes_of_read`), these are one key.

`signers` reads off a run who has approved what.  A core holds exactly these approvals, and
has published or seen published exactly the bodies that reached the threshold or were shown
to it (`Assembled`).  So it publishes a body in the call that brings its signers to the
threshold, and in no other.
-/

namespace Anymone
open Bincode
variable {C : SchedulerCrate} {O : ObserverSessions}

/-! ## One key for one body -/

namespace ConfigFormat

theorem canonical_word : word.Canonical := canonical_uint (by decide)

theorem canonical_long : long.Canonical := canonical_uint (by decide)

theorem canonical_text : text.Canonical := canonical_bytes

theorem canonical_key : key.Canonical := canonical_array

theorem canonical_encoding : encoding.Canonical :=
  (canonical_uint (by decide)).iso (by decide)

theorem canonical_setFormation : setFormation.Canonical :=
  (canonical_uint (by decide)).iso (by decide)

theorem canonical_exchangeKey : exchangeKey.Canonical :=
  (canonical_text.pair (canonical_text.pair canonical_text)).iso (fun _ => rfl)

theorem canonical_noop : noop.Canonical :=
  (canonical_long.pair (canonical_long.pair (canonical_word.pair canonical_word))).iso
    (fun _ => rfl)

theorem canonical_panetiere : panetiere.Canonical :=
  (canonical_long.pair (canonical_long.pair (canonical_word.pair (canonical_word.pair
    (canonical_word.pair (canonical_word.pair (canonical_array.pair
      (canonical_encoding.pair canonical_setFormation)))))))).iso (fun _ => rfl)

theorem canonical_scheduledPanetiere : scheduledPanetiere.Canonical :=
  (canonical_long.pair (canonical_long.pair (canonical_long.pair (canonical_word.pair
    (canonical_word.pair (canonical_word.pair (canonical_word.pair
      (canonical_array.pair canonical_setFormation)))))))).iso (fun _ => rfl)

theorem canonical_aggregation : aggregation.Canonical :=
  canonical_key.list.iso (fun _ => rfl)

theorem canonical_adcnet : adcnet.Canonical :=
  (canonical_long.pair (canonical_long.pair (canonical_word.pair (canonical_word.pair
    (canonical_word.pair canonical_aggregation.option))))).iso (fun _ => rfl)

theorem canonical_scheduledAdcnet : scheduledAdcnet.Canonical :=
  (canonical_long.pair (canonical_long.pair (canonical_word.pair (canonical_word.pair
    (canonical_word.pair canonical_word))))).iso (fun _ => rfl)

/-- Each protocol reads under its own number. -/
theorem canonical_protocol : (tagged .big protocolTag protocolVariants).Canonical := by
  refine canonical_tagged ?_ ?_
  · intro t f hf
    unfold protocolVariants at hf
    split at hf
    · cases hf
      exact canonical_noop.through .noop (fun _ => rfl) (fun _ => rfl)
    · cases hf
      exact canonical_panetiere.through .panetiere (fun _ => rfl) (fun _ => rfl)
    · cases hf
      exact canonical_scheduledPanetiere.through .scheduledPanetiere (fun _ => rfl) (fun _ => rfl)
    · cases hf
      exact canonical_adcnet.through .adcnet (fun _ => rfl) (fun _ => rfl)
    · cases hf
      exact canonical_scheduledAdcnet.through .scheduledAdcnet (fun _ => rfl) (fun _ => rfl)
    · cases hf
  · intro t f hf bs a rest hread
    unfold protocolVariants at hf
    split at hf <;> cases hf <;>
    · obtain ⟨_, -, heq⟩ := Option.map_eq_some_iff.mp hread
      cases heq
      rfl

theorem canonical_subnet : subnet.Canonical :=
  (canonical_word.pair (canonical_key.list.pair (canonical_protocol.pair
    (canonical_word.pair canonical_bool)))).iso (fun _ => rfl)

theorem canonical_endpoints : endpoints.Canonical :=
  ((canonical_key.pair canonical_text).list.pair
    (canonical_array.pair canonical_text).list).iso (fun _ => rfl)

/-- A body's encoding is canonical when its policy's is. -/
theorem canonical_body {Policy : Type} {policy : Bincode Policy} (h : policy.Canonical) :
    (body policy).Canonical :=
  (canonical_long.pair (canonical_endpoints.pair (canonical_long.pair
    ((canonical_array.pair canonical_key).list.pair
      ((canonical_key.pair canonical_exchangeKey).list.pair (canonical_subnet.list.pair
        ((canonical_key.pair canonical_text).list.pair (canonical_key.list.pair h)))))))).iso
    (fun _ => rfl)

end ConfigFormat

/-- **The bytes a body is read from are its canonical bytes.** -/
theorem canonicalBytes_of_read (hpolicy : C.policyFormat.Canonical) {bytes : Bytes} {body : C.Body}
    (h : AnymoneRoundConfigurationBody.fromCanonicalBytes bytes = some body) :
    body.canonicalBytes = bytes := by
  unfold AnymoneRoundConfigurationBody.fromCanonicalBytes at h
  split at h
  · rename_i read hread
    cases h
    have := ConfigFormat.canonical_body hpolicy _ _ _ hread
    rw [List.append_nil] at this
    exact this.symm
  · cases h

/-! ## What a signature counts for -/

/-- What a member signs to approve the body with these canonical bytes. -/
def approvedBytes (canonical : Bytes) : Bytes := ascii "anymone/config/approve" ++ canonical

/-- **An approval says which body it is of, and no proposal is one.** -/
theorem approveBytes_domain (body body' : C.Body) :
    (body.approveBytes = body'.approveBytes ↔ body.canonicalBytes = body'.canonicalBytes) ∧
      body.approveBytes ≠ body'.proposeBytes := by
  refine ⟨List.append_right_inj _, fun h => ?_⟩
  -- the two tags differ in their second letter after the last slash
  have htags := congrArg (List.take 22) h
  unfold AnymoneRoundConfigurationBody.approveBytes AnymoneRoundConfigurationBody.proposeBytes at htags
  rw [List.take_append_of_le_length (by decide), List.take_append_of_le_length (by decide)] at htags
  revert htags
  decide

/-- A list of signatures counts whole when its signers differ and each is a member whose
signature verifies. -/
theorem multisigSigners_of_valid (committee : List Pubkey) (config : C.Config)
    (hnodup : (config.signatures.map Signature.signer).Nodup)
    (hvalid : ∀ sig ∈ config.signatures, sig.signer ∈ committee ∧
      C.pubkeyVerify sig.signer config.body.approveBytes sig.bytes = true) :
    multisigSigners committee config = config.signatures.map Signature.signer := by
  obtain ⟨body, signatures⟩ := config
  unfold multisigSigners
  dsimp only at *
  induction signatures using List.reverseRecOn with
  | nil => rfl
  | append_singleton l sig ih =>
    rw [List.map_append, List.nodup_append] at hnodup
    obtain ⟨hmem, hver⟩ := hvalid sig (by simp)
    have hnew : sig.signer ∉ l.map Signature.signer :=
      fun h => hnodup.2.2 _ h _ (by simp) rfl
    rw [List.foldl_append, ih hnodup.1 (fun sig' h => hvalid sig' (List.mem_append_left _ h))]
    simp [hmem, hver, hnew]

namespace SchedulerCore
variable {cfg : SchedulerConfig C} {s s' : SchedulerCore O}

/-- The body a committee member's message approves. -/
def validApproval (cfg : SchedulerConfig C) (sig : CommitteeSig) : Option C.Body :=
  (AnymoneRoundConfigurationBody.fromCanonicalBytes sig.bodyBytes).filter (fun body =>
    cfg.committee.contains sig.signer &&
      C.pubkeyVerify sig.signer body.approveBytes sig.signature)

/-- The vote a call casts for a body, or the body it shows published. -/
def ballot (cfg : SchedulerConfig C) (s : SchedulerCore O) :
    SchedulerOp C → Option (Quorum.Event Bytes Pubkey)
  | .decodedBody proposal =>
      if s.accepts cfg proposal then some (.vote proposal.body.canonicalBytes cfg.ourPk) else none
  | .committeeSig sig =>
      (validApproval cfg sig).map (fun body => .vote body.canonicalBytes sig.signer)
  | .publishedConfig config =>
      if verifyMultisig cfg.committee cfg.threshold config && validateStructure config.body then
        some (.settle config.body.canonicalBytes)
      else none
  | .registration _ | .faultReport .. | .observedFaults .. | .subnetMessage .. | .setCoverRate _
  | .tick .. => none

/-- The votes and news of a run. -/
def ballots (O : ObserverSessions) (cfg : SchedulerConfig C) (ops : List (SchedulerOp C)) :
    List (Quorum.Event Bytes Pubkey) :=
  Trace.observed (new (O := O) cfg) (apply cfg) (fun s op => (s.ballot cfg op).toList) ops

@[simp] theorem ballots_concat (ops : List (SchedulerOp C)) (op : SchedulerOp C) :
    ballots O cfg (ops ++ [op]) = ballots O cfg ops ++ ((after O cfg ops).ballot cfg op).toList :=
  Trace.observed_concat ..

/-- The members whose valid approvals of a body the run brought. -/
def signers (O : ObserverSessions) (cfg : SchedulerConfig C) (ops : List (SchedulerOp C))
    (canonical : Bytes) : Finset Pubkey :=
  Quorum.voters (ballots O cfg ops) canonical

/-- The run showed the body published. -/
def Shown (cfg : SchedulerConfig C) (ops : List (SchedulerOp C)) (canonical : Bytes) : Prop :=
  ∃ config : C.Config, .publishedConfig config ∈ ops ∧
    verifyMultisig cfg.committee cfg.threshold config = true ∧
    validateStructure config.body = true ∧ config.body.canonicalBytes = canonical

/-! ## The core is a tally -/

/-- The core holds what the tally holds, and only signatures that verify. -/
structure Tallies (cfg : SchedulerConfig C) (s : SchedulerCore O) (t : Quorum.Tally Bytes Pubkey) :
    Prop where
  signed : ∀ canonical signer, s.Signed canonical signer ↔ signer ∈ t.voters canonical
  settled : ∀ canonical, s.published.contains canonical = true ↔ canonical ∈ t.settled
  valid : ∀ canonical entry signer sig, s.sigs.get? canonical = some entry →
    entry.get? signer = some sig →
    signer ∈ cfg.committee ∧ C.pubkeyVerify signer (approvedBytes canonical) sig = true

/-- Only the approvals and the published set matter. -/
theorem Tallies.congr {t : Quorum.Tally Bytes Pubkey} (h : Tallies cfg s t)
    (hsigs : s'.sigs = s.sigs) (hpub : s'.published = s.published) : Tallies cfg s' t := by
  refine ⟨?_, ?_, ?_⟩
  · intro canonical signer
    unfold Signed
    rw [hsigs]
    exact h.signed canonical signer
  · rw [hpub]
    exact h.settled
  · rw [hsigs]
    exact h.valid

theorem Quiet.approvals (h : Quiet s s') : s'.sigs = s.sigs ∧ s'.published = s.published :=
  ⟨congrArg Ledger.sigs h.ledger, congrArg Ledger.published h.ledger⟩

theorem approvals_learnConfig (cfg : SchedulerConfig C) (s : SchedulerCore O) (body : C.Body) :
    (s.learnConfig cfg body).sigs = s.sigs ∧ (s.learnConfig cfg body).published = s.published := by
  unfold learnConfig
  dsimp only
  split <;> exact ⟨rfl, rfl⟩

theorem approvals_onRegistration (s : SchedulerCore O) (reg : Registration) :
    (s.onRegistration reg).sigs = s.sigs ∧ (s.onRegistration reg).published = s.published := by
  refine ⟨s.sigs_onRegistration reg, ?_⟩
  cases reg with
  | relay => unfold onRegistration; dsimp only; split <;> rfl
  | service | watcher => rfl

theorem approvals_propose (cfg : SchedulerConfig C) (s : SchedulerCore O) (clock : U64) :
    (s.propose cfg clock).1.sigs = s.sigs ∧ (s.propose cfg clock).1.published = s.published := by
  have hvectors := (quiet_resizeScheduledVectors cfg s (s.subnetProtocols cfg)).approvals
  unfold propose
  dsimp only
  split <;> split <;> exact hvectors

theorem approvals_tick (cfg : SchedulerConfig C) (s : SchedulerCore O) (round : Round)
    (now clock : U64) :
    (s.tick cfg round now clock).1.sigs = s.sigs ∧
      (s.tick cfg round now clock).1.published = s.published := by
  have hadv := (quiet_advance cfg s round now).approvals
  unfold tick
  dsimp only
  split
  · have hprop := approvals_propose cfg (s.advance cfg round now) clock
    exact ⟨hprop.1.trans hadv.1, hprop.2.trans hadv.2⟩
  · exact hadv

/-- A configuration of the body under signatures of these members. -/
structure Backed (cfg : SchedulerConfig C) (body : C.Body) (members : Finset Pubkey)
    (config : C.Config) : Prop where
  body_eq : config.body = body
  verifies : verifyMultisig cfg.committee cfg.threshold config = true
  signed : ∀ sig ∈ config.signatures, sig.signer ∈ members ∧
    C.pubkeyVerify sig.signer body.approveBytes sig.bytes = true

/-- The configuration `try_assemble` builds verifies when enough members signed. -/
theorem verifyMultisig_assembled (hthr : cfg.threshold ≠ 0) (body : C.Body)
    {entry : OrdMap Pubkey Bytes}
    (hvalid : ∀ signer sig, entry.get? signer = some sig → signer ∈ cfg.committee ∧
      C.pubkeyVerify signer body.approveBytes sig = true)
    (hsize : cfg.threshold.val ≤ entry.size) :
    verifyMultisig (C := C) cfg.committee cfg.threshold
      ⟨body, entry.entries.map (fun e => ⟨e.1, e.2⟩)⟩ = true := by
  have hkeys : (entry.entries.map (fun e => (⟨e.1, e.2⟩ : Signature))).map Signature.signer =
      entry.keys := by
    rw [List.map_map]
    rfl
  have hnodup : entry.keys.Nodup := entry.keys_sorted.imp (fun h => ne_of_lt h)
  have hcount := multisigSigners_of_valid (C := C) cfg.committee
    ⟨body, entry.entries.map (fun e => ⟨e.1, e.2⟩)⟩ (hkeys ▸ hnodup) ?_
  · have hlen : entry.keys.length = entry.size := List.length_map ..
    have hfits : entry.keys.length ≤ cfg.committee.length := by
      refine (hnodup.subperm ?_).length_le
      intro pk hpk
      obtain ⟨sig, hsig⟩ := OrdMap.mem_keys.mp hpk
      exact (hvalid pk sig hsig).1
    unfold verifyMultisig
    rw [hcount, hkeys]
    simp only [Bool.and_eq_true, decide_eq_true_eq]
    exact ⟨⟨hthr, by omega⟩, by omega⟩
  · intro sig hsig
    obtain ⟨e, he, rfl⟩ := List.mem_map.mp hsig
    exact hvalid e.1 e.2 (OrdMap.get?_eq_some_iff.mpr he)

/-- The signers held under a body are the voters counted. -/
theorem Tallies.size_eq {t : Quorum.Tally Bytes Pubkey} (h : Tallies cfg s t) {canonical : Bytes}
    {entry : OrdMap Pubkey Bytes} (hget : s.sigs.get? canonical = some entry) :
    entry.size = (t.voters canonical).card := by
  have hvoters : t.voters canonical = entry.keys.toFinset := by
    ext pk
    rw [← h.signed, List.mem_toFinset, OrdMap.mem_keys, ← OrdMap.contains_iff]
    constructor
    · rintro ⟨entry', hget', hmem⟩
      cases hget.symm.trans hget'
      exact hmem
    · exact fun hmem => ⟨entry, hget, hmem⟩
  have hnodup : entry.keys.Nodup := entry.keys_sorted.imp (fun h => ne_of_lt h)
  rw [hvoters, List.toFinset_card_of_nodup hnodup]
  exact (List.length_map ..).symm

theorem Tallies.voters_eq_empty {t : Quorum.Tally Bytes Pubkey} (h : Tallies cfg s t)
    {canonical : Bytes} (hget : s.sigs.get? canonical = none) : t.voters canonical = ∅ := by
  rw [Finset.eq_empty_iff_forall_notMem]
  intro pk hpk
  obtain ⟨entry, hentry, -⟩ := (h.signed canonical pk).mpr hpk
  cases hget.symm.trans hentry

/-- **`try_assemble` publishes a body that is not settled and has its quorum, and does
nothing otherwise.** -/
theorem tryAssemble_spec (hthr : cfg.threshold ≠ 0) {t : Quorum.Tally Bytes Pubkey}
    (h : Tallies cfg s t) (body : C.Body) :
    ((body.canonicalBytes ∉ t.settled ∧
          cfg.threshold.val ≤ (t.voters body.canonicalBytes).card) ∧
        ∃ config, (s.tryAssemble cfg body).2 = some (.publishConfig config) ∧
          Backed cfg body (t.voters body.canonicalBytes) config ∧
          Tallies cfg (s.tryAssemble cfg body).1 (t.settle body.canonicalBytes)) ∨
      (¬ (body.canonicalBytes ∉ t.settled ∧
          cfg.threshold.val ≤ (t.voters body.canonicalBytes).card) ∧
        s.tryAssemble cfg body = (s, none)) := by
  unfold tryAssemble
  dsimp only
  by_cases hpub : s.published.contains body.canonicalBytes = true
  · rw [if_pos hpub]
    exact Or.inr ⟨fun hopen => hopen.1 ((h.settled _).mp hpub), rfl⟩
  · rw [if_neg hpub]
    have hopen : body.canonicalBytes ∉ t.settled := fun hs => hpub ((h.settled _).mpr hs)
    cases hget : s.sigs.get? body.canonicalBytes with
    | none =>
      refine Or.inr ⟨?_, rfl⟩
      rintro ⟨-, hq⟩
      rw [h.voters_eq_empty hget, Finset.card_empty] at hq
      exact hthr (Fin.ext (Nat.le_zero.mp hq))
    | some entry =>
      have hsize := h.size_eq hget
      dsimp only
      by_cases hlt : entry.size < cfg.threshold.val
      · rw [if_pos hlt]
        exact Or.inr ⟨fun hq => by omega, rfl⟩
      · rw [if_neg hlt]
        have hvalid := fun signer sig => h.valid body.canonicalBytes entry signer sig hget
        have hver := verifyMultisig_assembled hthr body hvalid (Nat.le_of_not_lt hlt)
        rw [hver]
        -- enough signatures, each over this body by a member, so the multisig verifies
        refine Or.inl ⟨⟨hopen, by omega⟩, _, rfl, ⟨rfl, hver, ?_⟩, ?_⟩
        · intro sig hsig
          obtain ⟨e, he, rfl⟩ := List.mem_map.mp hsig
          have hentry := OrdMap.get?_eq_some_iff.mpr he
          exact ⟨(h.signed _ _).mp ⟨entry, hget, OrdMap.contains_iff.mpr ⟨_, hentry⟩⟩,
            (hvalid _ _ hentry).2⟩
        · refine ⟨h.signed, ?_, h.valid⟩
          intro canonical
          show (s.published.add body.canonicalBytes).contains canonical = true ↔ _
          rw [OrdSet.contains_add_iff, h.settled]
          exact Set.mem_insert_iff.symm

theorem get?_recordSig {sigs : OrdMap Bytes (OrdMap Pubkey Bytes)} {canonical canonical' : Bytes}
    {signer signer' : Pubkey} {sig sig' : Bytes} {entry : OrdMap Pubkey Bytes}
    (hget : (recordSig sigs canonical signer sig).get? canonical' = some entry)
    (hsig : entry.get? signer' = some sig') :
    (canonical' = canonical ∧ signer' = signer ∧ sig' = sig) ∨
      ∃ entry', sigs.get? canonical' = some entry' ∧ entry'.get? signer' = some sig' := by
  unfold recordSig at hget
  rw [OrdMap.get?_insert] at hget
  split_ifs at hget with hc
  · cases hget
    rw [OrdMap.get?_insert] at hsig
    split_ifs at hsig with hs
    · exact Or.inl ⟨hc, hs, (Option.some.inj hsig).symm⟩
    · rw [hc]
      cases hold : sigs.get? canonical with
      | none =>
        rw [hold] at hsig
        cases hsig
      | some entry' =>
        rw [hold] at hsig
        exact Or.inr ⟨entry', rfl, hsig⟩
  · exact Or.inr ⟨entry, hget, hsig⟩

/-- Recording a valid approval counts its signer. -/
theorem Tallies.record {t : Quorum.Tally Bytes Pubkey} (h : Tallies cfg s t) {canonical : Bytes}
    {signer : Pubkey} {sig : Bytes} (hmem : signer ∈ cfg.committee)
    (hver : C.pubkeyVerify signer (approvedBytes canonical) sig = true)
    (hsigs : s'.sigs = recordSig s.sigs canonical signer sig) (hpub : s'.published = s.published) :
    Tallies cfg s' (t.count canonical signer) := by
  refine ⟨?_, ?_, ?_⟩
  · intro canonical' signer'
    unfold Signed
    rw [hsigs, signed_recordSig]
    show _ ∨ s.Signed canonical' signer' ↔ _
    rw [h.signed]
    by_cases hc : canonical' = canonical
    · subst hc
      simp [Quorum.Tally.count]
    · simp [Quorum.Tally.count, hc]
  · rw [hpub]
    exact h.settled
  · intro canonical' entry signer' sig' hget hsig
    rw [hsigs] at hget
    rcases get?_recordSig hget hsig with ⟨rfl, rfl, rfl⟩ | ⟨entry', hget', hsig'⟩
    · exact ⟨hmem, hver⟩
    · exact h.valid canonical' entry' signer' sig' hget' hsig'

/-- **A recorded vote is a step of the tally**, and publishes when the tally decides. -/
theorem tryAssemble_vote (hthr : cfg.threshold ≠ 0) {t : Quorum.Tally Bytes Pubkey} {body : C.Body}
    {signer : Pubkey} (h : Tallies cfg s (t.count body.canonicalBytes signer)) :
    Tallies cfg (s.tryAssemble cfg body).1
        (t.step cfg.threshold.val (.vote body.canonicalBytes signer)) ∧
      ((t.Decides cfg.threshold.val (.vote body.canonicalBytes signer) body.canonicalBytes ∧
          ∃ config, (s.tryAssemble cfg body).2 = some (.publishConfig config) ∧
            Backed cfg body ((t.count body.canonicalBytes signer).voters body.canonicalBytes)
              config) ∨
        (¬ t.Decides cfg.threshold.val (.vote body.canonicalBytes signer) body.canonicalBytes ∧
          (s.tryAssemble cfg body).2 = none)) := by
  have hdecides : t.Decides cfg.threshold.val (.vote body.canonicalBytes signer)
      body.canonicalBytes ↔ body.canonicalBytes ∉ (t.count body.canonicalBytes signer).settled ∧
        cfg.threshold.val ≤
          ((t.count body.canonicalBytes signer).voters body.canonicalBytes).card := by
    unfold Quorum.Tally.Decides
    simp [Quorum.Tally.count]
  rcases tryAssemble_spec hthr h body with ⟨hq, config, hact, hback, htall⟩ | ⟨hq, hnone⟩
  · have hd := hdecides.mpr hq
    rw [Quorum.Tally.step_of_decides hd]
    exact ⟨htall, Or.inl ⟨hd, config, hact, hback⟩⟩
  · have hd := fun hd => hq (hdecides.mp hd)
    rw [Quorum.Tally.step_of_not_decides hd, hnone]
    exact ⟨h, Or.inr ⟨hd, rfl⟩⟩

/-- The configurations one call publishes. -/
def publicationsBy (cfg : SchedulerConfig C) (s : SchedulerCore O) (op : SchedulerOp C) :
    List C.Config :=
  (s.actions cfg op).filterMap (fun
    | .publishConfig config => some config
    | .stageProposal _ | .publishSig _ => none)

/-- The configurations a run publishes. -/
def publications (O : ObserverSessions) (cfg : SchedulerConfig C) (ops : List (SchedulerOp C)) :
    List C.Config :=
  Trace.observed (new (O := O) cfg) (apply cfg) (publicationsBy cfg) ops

@[simp] theorem publications_concat (ops : List (SchedulerOp C)) (op : SchedulerOp C) :
    publications O cfg (ops ++ [op]) =
      publications O cfg ops ++ (after O cfg ops).publicationsBy cfg op :=
  Trace.observed_concat ..

/-- What a call publishes, beside the tally: a body the tally decides, or nothing. -/
def Publishes (cfg : SchedulerConfig C) (s : SchedulerCore O) (t : Quorum.Tally Bytes Pubkey)
    (op : SchedulerOp C) : Prop :=
  (∃ body : C.Body, ∃ signer config, s.ballot cfg op = some (.vote body.canonicalBytes signer) ∧
      t.Decides cfg.threshold.val (.vote body.canonicalBytes signer) body.canonicalBytes ∧
      s.publicationsBy cfg op = [config] ∧
      Backed cfg body ((t.count body.canonicalBytes signer).voters body.canonicalBytes) config) ∨
    ((∀ e ∈ s.ballot cfg op, ∀ canonical, ¬ t.Decides cfg.threshold.val e canonical) ∧
      s.publicationsBy cfg op = [])

/-- A vote counted through `try_assemble`. -/
theorem publishes_of_vote (hthr : cfg.threshold ≠ 0) {t : Quorum.Tally Bytes Pubkey}
    {op : SchedulerOp C} {body : C.Body} {signer : Pubkey}
    (hballot : s.ballot cfg op = some (.vote body.canonicalBytes signer))
    (htall : Tallies cfg s' (t.count body.canonicalBytes signer))
    (hpub : s.publicationsBy cfg op = ((s'.tryAssemble cfg body).2.toList).filterMap (fun
      | .publishConfig config => some config
      | .stageProposal _ | .publishSig _ => none)) :
    Publishes cfg s t op := by
  rcases (tryAssemble_vote hthr htall).2 with ⟨hd, config, hact, hback⟩ | ⟨hd, hnone⟩
  · exact Or.inl ⟨body, signer, config, hballot, hd, by rw [hpub, hact]; rfl, hback⟩
  · refine Or.inr ⟨?_, by rw [hpub, hnone]; rfl⟩
    intro e he canonical hdec
    cases hballot.symm.trans he
    obtain ⟨_, hv, -⟩ := id hdec
    cases hv
    exact hd hdec

/-- A call that brings no vote. -/
theorem publishes_of_silent {t : Quorum.Tally Bytes Pubkey} {op : SchedulerOp C}
    (hballot : ∀ e ∈ s.ballot cfg op, ∃ canonical, e = .settle canonical)
    (hpub : s.publicationsBy cfg op = []) : Publishes cfg s t op := by
  refine Or.inr ⟨?_, hpub⟩
  rintro e he canonical ⟨signer, hv, -⟩
  obtain ⟨canonical', hs⟩ := hballot e he
  cases hv.symm.trans hs

theorem validApproval_eq_some {sig : CommitteeSig} {body : C.Body} :
    validApproval cfg sig = some body ↔
      AnymoneRoundConfigurationBody.fromCanonicalBytes sig.bodyBytes = some body ∧
        sig.signer ∈ cfg.committee ∧
        C.pubkeyVerify sig.signer body.approveBytes sig.signature = true := by
  unfold validApproval
  simp [Option.filter_eq_some_iff]

/-- `on_committee_sig` on a valid approval. -/
theorem onCommitteeSig_of_valid {sig : CommitteeSig} {body : C.Body}
    (h : validApproval cfg sig = some body) :
    s.onCommitteeSig cfg sig =
      (({ s with sigs := recordSig s.sigs sig.bodyBytes sig.signer sig.signature }.tryAssemble cfg
          body).1,
        ({ s with sigs := recordSig s.sigs sig.bodyBytes sig.signer sig.signature }.tryAssemble cfg
          body).2.toList) := by
  obtain ⟨hread, hmem, hver⟩ := validApproval_eq_some.mp h
  unfold onCommitteeSig
  simp [hmem, hread, hver]

/-- `on_committee_sig` on anything else. -/
theorem onCommitteeSig_of_invalid {sig : CommitteeSig} (h : validApproval cfg sig = none) :
    s.onCommitteeSig cfg sig = (s, []) := by
  unfold onCommitteeSig
  by_cases hmem : sig.signer ∈ cfg.committee
  · cases hread : (AnymoneRoundConfigurationBody.fromCanonicalBytes sig.bodyBytes : Option C.Body) with
    | none => simp
    | some body =>
      cases hver : C.pubkeyVerify sig.signer body.approveBytes sig.signature with
      | false => simp [hver]
      | true =>
        cases h.symm.trans (validApproval_eq_some.mpr ⟨hread, hmem, hver⟩)
  · simp [hmem]

/-- An accepted proposal counts the member's own approval. -/
theorem Tallies.approve {t : Quorum.Tally Bytes Pubkey} (hmember : cfg.ourPk ∈ cfg.committee)
    (h : Tallies cfg s t) (body : C.Body) :
    Tallies cfg (s.approve cfg body) (t.count body.canonicalBytes cfg.ourPk) := by
  have hown : C.pubkeyVerify cfg.ourPk body.approveBytes (C.idSign cfg.identity body.approveBytes) =
      true := C.pubkeyVerify_idSign _ _
  obtain ⟨hsigs, hpub⟩ := approvals_learnConfig cfg
    { s with
      lastAcceptedRound := raise s.lastAcceptedRound body.round
      sigs := recordSig s.sigs body.canonicalBytes cfg.ourPk
        (C.idSign cfg.identity body.approveBytes) } body
  exact h.record hmember hown hsigs hpub

/-- A configuration received and valid settles its body. -/
theorem Tallies.onPublishedConfig {t : Quorum.Tally Bytes Pubkey} (h : Tallies cfg s t)
    (config : C.Config) :
    Tallies cfg (s.onPublishedConfig cfg config).1
      (((s.ballot cfg (.publishedConfig config)).toList).foldl
        (Quorum.Tally.step cfg.threshold.val) t) := by
  by_cases hvalid : (verifyMultisig cfg.committee cfg.threshold config &&
      validateStructure config.body) = true
  · have hballot : s.ballot cfg (.publishedConfig config) =
        some (.settle config.body.canonicalBytes) := if_pos hvalid
    rw [hballot]
    obtain ⟨hsig, hbody⟩ := Bool.and_eq_true_iff.mp hvalid
    unfold SchedulerCore.onPublishedConfig
    simp only [hsig, hbody, Bool.not_true, Bool.false_eq_true, if_false]
    refine Tallies.congr ?_ (approvals_learnConfig cfg _ config.body).1
      (approvals_learnConfig cfg _ config.body).2
    refine ⟨h.signed, ?_, h.valid⟩
    intro canonical
    show (s.published.add config.body.canonicalBytes).contains canonical = true ↔ _
    rw [OrdSet.contains_add_iff, h.settled]
    exact Set.mem_insert_iff.symm
  · have hballot : s.ballot cfg (.publishedConfig config) = none := if_neg hvalid
    rw [hballot]
    unfold SchedulerCore.onPublishedConfig
    split_ifs with hsig hbody
    · exact h
    · exact h
    · exact absurd (by simpa using And.intro hsig hbody) hvalid

section Step
variable (hpolicy : C.policyFormat.Canonical) (hmember : cfg.ourPk ∈ cfg.committee)
  (hthr : cfg.threshold ≠ 0)
include hpolicy hmember hthr

/-- **A call is at most one event of the tally.** -/
theorem tallies_apply {t : Quorum.Tally Bytes Pubkey} (h : Tallies cfg s t) (op : SchedulerOp C) :
    Tallies cfg (s.apply cfg op)
        (((s.ballot cfg op).toList).foldl (Quorum.Tally.step cfg.threshold.val) t) ∧
      Publishes cfg s t op := by
  cases op with
  | decodedBody proposal =>
    by_cases hacc : s.accepts cfg proposal = true
    · have hcall : s.onDecodedBody cfg proposal =
          (((s.approve cfg proposal.body).tryAssemble cfg proposal.body).1,
            .publishSig (approval cfg proposal.body) ::
              ((s.approve cfg proposal.body).tryAssemble cfg proposal.body).2.toList) := by
        simp [onDecodedBody, hacc]
      have hballot : s.ballot cfg (.decodedBody proposal) =
          some (.vote proposal.body.canonicalBytes cfg.ourPk) := if_pos hacc
      have hrec := h.approve hmember proposal.body
      refine ⟨?_, publishes_of_vote hthr hballot hrec ?_⟩
      · rw [hballot]
        simp only [apply, hcall]
        exact (tryAssemble_vote hthr hrec).1
      · simp only [publicationsBy, actions, hcall]
        rfl
    · have hcall : s.onDecodedBody cfg proposal = (s, []) := by simp [onDecodedBody, hacc]
      have hballot : s.ballot cfg (.decodedBody proposal) = none := if_neg hacc
      refine ⟨?_, publishes_of_silent (by simp [hballot]) ?_⟩
      · rw [hballot]
        simp only [apply, hcall]
        exact h
      · simp only [publicationsBy, actions, hcall]
        rfl
  | committeeSig sig =>
    cases hvalid : validApproval cfg sig with
    | some body =>
      have hcall := onCommitteeSig_of_valid (s := s) hvalid
      have hballot : s.ballot cfg (.committeeSig sig) =
          some (.vote body.canonicalBytes sig.signer) := by simp [ballot, hvalid]
      obtain ⟨hread, hmem, hver⟩ := validApproval_eq_some.mp hvalid
      -- the bytes received are the bytes the member would write
      have hkey := canonicalBytes_of_read hpolicy hread
      have hrec : Tallies cfg
          { s with sigs := recordSig s.sigs sig.bodyBytes sig.signer sig.signature }
          (t.count body.canonicalBytes sig.signer) :=
        h.record hmem hver (by rw [hkey]) rfl
      refine ⟨?_, publishes_of_vote hthr hballot hrec ?_⟩
      · rw [hballot]
        simp only [apply, hcall]
        exact (tryAssemble_vote hthr hrec).1
      · simp only [publicationsBy, actions, hcall]
    | none =>
      have hcall := onCommitteeSig_of_invalid (s := s) hvalid
      have hballot : s.ballot cfg (.committeeSig sig) = none := by simp [ballot, hvalid]
      refine ⟨?_, publishes_of_silent (by simp [hballot]) ?_⟩
      · rw [hballot]
        simp only [apply, hcall]
        exact h
      · simp only [publicationsBy, actions, hcall]
        rfl
  | publishedConfig config =>
    refine ⟨h.onPublishedConfig config, publishes_of_silent ?_ rfl⟩
    intro e he
    simp only [ballot, Option.mem_def, Option.ite_none_right_eq_some, Option.some.injEq] at he
    exact ⟨_, he.2.symm⟩
  | tick round now clock =>
    obtain ⟨hsigs, hpub⟩ := approvals_tick cfg s round now clock
    refine ⟨h.congr hsigs hpub, publishes_of_silent (by simp [ballot]) ?_⟩
    simp only [publicationsBy, actions, tick, propose]
    split_ifs <;> rfl
  | registration reg =>
    obtain ⟨hsigs, hpub⟩ := approvals_onRegistration s reg
    exact ⟨h.congr hsigs hpub, publishes_of_silent (by simp [ballot]) rfl⟩
  | faultReport sender report now =>
    obtain ⟨hsigs, hpub⟩ := (quiet_onFaultReport cfg s sender report now).approvals
    exact ⟨h.congr hsigs hpub, publishes_of_silent (by simp [ballot]) rfl⟩
  | observedFaults faults now =>
    obtain ⟨hsigs, hpub⟩ := (quiet_applyObservedFaults cfg s faults now).approvals
    exact ⟨h.congr hsigs hpub, publishes_of_silent (by simp [ballot]) rfl⟩
  | subnetMessage subnet sender bytes =>
    obtain ⟨hsigs, hpub⟩ := (quiet_onSubnetMessage s subnet sender bytes).approvals
    exact ⟨h.congr hsigs hpub, publishes_of_silent (by simp [ballot]) rfl⟩
  | setCoverRate rate => exact ⟨h.congr rfl rfl, publishes_of_silent (by simp [ballot]) rfl⟩

/-- **After any run the core is the tally of its ballots.** -/
theorem tallies_after (ops : List (SchedulerOp C)) :
    Tallies cfg (after O cfg ops) (Quorum.Tally.run cfg.threshold.val (ballots O cfg ops)) := by
  induction ops using List.reverseRecOn with
  | nil =>
    refine ⟨?_, ?_, ?_⟩
    · intro canonical signer
      simp [Signed, after, Trace.run, new, ballots, Quorum.Tally.run, Quorum.Tally.empty]
    · intro canonical
      simp [after, Trace.run, new, ballots, Quorum.Tally.run, Quorum.Tally.empty]
    · intro canonical entry signer sig hget
      simp [after, Trace.run, new] at hget
  | append_singleton ops op ih =>
    rw [after_concat, ballots_concat]
    have hstep := (tallies_apply hpolicy hmember hthr ih op).1
    cases hb : (after O cfg ops).ballot cfg op with
    | none =>
      rw [hb] at hstep
      rw [Option.toList_none, List.append_nil]
      exact hstep
    | some e =>
      rw [hb] at hstep
      rw [Option.toList_some, Quorum.Tally.run_concat]
      exact hstep

end Step

/-! ## Runs -/

theorem mem_ballots {ops : List (SchedulerOp C)} {e : Quorum.Event Bytes Pubkey} :
    e ∈ ballots O cfg ops ↔ ∃ σ ∈ Trace.steps ops, (after O cfg σ.1).ballot cfg σ.2 = some e := by
  unfold ballots Trace.observed
  simp only [List.mem_flatMap, Option.mem_toList]
  rfl

/-- The news in the ballots is the valid configurations received. -/
theorem settle_mem_ballots {ops : List (SchedulerOp C)} {canonical : Bytes} :
    .settle canonical ∈ ballots O cfg ops ↔ Shown cfg ops canonical := by
  rw [mem_ballots]
  constructor
  · rintro ⟨⟨pre, op⟩, hσ, hb⟩
    cases op with
    | publishedConfig config =>
      simp only [ballot, Option.ite_none_right_eq_some, Option.some.injEq, Bool.and_eq_true,
        Quorum.Event.settle.injEq] at hb
      exact ⟨config, Trace.mem_of_mem_steps hσ, hb.1.1, hb.1.2, hb.2⟩
    | _ => simp [ballot] at hb
  · rintro ⟨config, hmem, hsig, hbody, rfl⟩
    obtain ⟨pre, hσ⟩ := Trace.exists_step_of_mem hmem
    exact ⟨_, hσ, by simp [ballot, hsig, hbody]⟩

theorem Shown.mono {l ops : List (SchedulerOp C)} {canonical : Bytes} (h : Shown cfg l canonical)
    (hl : l <+: ops) : Shown cfg ops canonical := by
  obtain ⟨config, hmem, hrest⟩ := h
  exact ⟨config, hl.subset hmem, hrest⟩

/-- The message is a member's valid approval of the body with these canonical bytes. -/
def ApprovalOf (cfg : SchedulerConfig C) (canonical : Bytes) (sig : CommitteeSig) : Prop :=
  sig.signer ∈ cfg.committee ∧ sig.bodyBytes = canonical ∧
    ∃ body : C.Body, AnymoneRoundConfigurationBody.fromCanonicalBytes canonical = some body ∧
      C.pubkeyVerify sig.signer body.approveBytes sig.signature = true

/-- The member accepted, in the run, a proposal of the body with these canonical bytes. -/
def Accepted (O : ObserverSessions) (cfg : SchedulerConfig C) (ops : List (SchedulerOp C))
    (canonical : Bytes) : Prop :=
  ∃ σ ∈ Trace.steps ops, ∃ proposal, σ.2 = .decodedBody proposal ∧
    (after O cfg σ.1).accepts cfg proposal = true ∧ proposal.body.canonicalBytes = canonical

/-- **Who counts**: the members whose valid approvals arrived, and the member itself once it
accepted the body. -/
theorem mem_signers (hpolicy : C.policyFormat.Canonical) {ops : List (SchedulerOp C)}
    {canonical : Bytes} {pk : Pubkey} :
    pk ∈ signers O cfg ops canonical ↔
      (∃ sig, .committeeSig sig ∈ ops ∧ sig.signer = pk ∧ ApprovalOf cfg canonical sig) ∨
        pk = cfg.ourPk ∧ Accepted O cfg ops canonical := by
  unfold signers
  rw [Quorum.mem_voters, mem_ballots]
  constructor
  · rintro ⟨⟨pre, op⟩, hσ, hb⟩
    cases op with
    | committeeSig sig =>
      simp only [ballot, Option.map_eq_some_iff] at hb
      obtain ⟨body, hvalid, he⟩ := hb
      cases he
      obtain ⟨hread, hmem, hver⟩ := validApproval_eq_some.mp hvalid
      have hkey := canonicalBytes_of_read hpolicy hread
      exact Or.inl ⟨sig, Trace.mem_of_mem_steps hσ, rfl, hmem, hkey.symm, body, hkey ▸ hread, hver⟩
    | decodedBody proposal =>
      simp only [ballot, Option.ite_none_right_eq_some, Option.some.injEq] at hb
      obtain ⟨hacc, he⟩ := hb
      cases he
      exact Or.inr ⟨rfl, _, hσ, proposal, rfl, hacc, rfl⟩
    | publishedConfig config => simp [ballot] at hb
    | _ => simp [ballot] at hb
  · rintro (⟨sig, hsig, rfl, hmem, rfl, body, hread, hver⟩ |
      ⟨rfl, ⟨pre, op⟩, hσ, proposal, rfl, hacc, rfl⟩)
    · obtain ⟨pre, hσ⟩ := Trace.exists_step_of_mem hsig
      have hvalid := validApproval_eq_some.mpr ⟨hread, hmem, hver⟩
      refine ⟨_, hσ, ?_⟩
      simp only [ballot, hvalid, Option.map_some, canonicalBytes_of_read hpolicy hread]
    · exact ⟨_, hσ, if_pos hacc⟩

theorem signers_concat_subset (ops : List (SchedulerOp C)) (op : SchedulerOp C)
    (canonical : Bytes) :
    signers O cfg ops canonical ⊆ signers O cfg (ops ++ [op]) canonical := by
  unfold signers
  rw [ballots_concat]
  exact Quorum.voters_append_subset ..

section Assembly
variable (hpolicy : C.policyFormat.Canonical) (hmember : cfg.ourPk ∈ cfg.committee)
  (hthr : cfg.threshold ≠ 0)
include hpolicy hmember hthr

/-- **A call publishes a body when it brings its signers to the threshold.** -/
theorem publicationsBy_iff (ops : List (SchedulerOp C)) (op : SchedulerOp C) (canonical : Bytes) :
    (∃ config ∈ (after O cfg ops).publicationsBy cfg op, config.body.canonicalBytes = canonical) ↔
      (signers O cfg ops canonical).card < cfg.threshold.val ∧
        cfg.threshold.val ≤ (signers O cfg (ops ++ [op]) canonical).card ∧
        ¬ Shown cfg ops canonical := by
  have hpos : 0 < cfg.threshold.val := Nat.pos_of_ne_zero (fun h => hthr (Fin.ext h))
  have hpubs := (tallies_apply hpolicy hmember hthr (tallies_after (O := O) hpolicy hmember hthr ops) op).2
  unfold signers
  rw [ballots_concat, ← settle_mem_ballots (O := O)]
  rcases hpubs with ⟨body, signer, config, hb, hd, hpub, hback⟩ | ⟨hno, hpub⟩
  · rw [hb, hpub, Option.toList_some, ← Quorum.decides_iff hpos]
    simp only [List.mem_singleton, exists_eq_left, hback.body_eq]
    constructor
    · rintro rfl
      exact hd
    · rintro ⟨_, he, -⟩
      cases he
      rfl
  · rw [hpub]
    simp only [List.not_mem_nil, false_and, exists_false, false_iff]
    rintro ⟨hlt, hq, hs⟩
    cases hb : (after O cfg ops).ballot cfg op with
    | none =>
      rw [hb, Option.toList_none, List.append_nil] at hq
      omega
    | some e =>
      rw [hb, Option.toList_some] at hq
      exact hno e hb canonical ((Quorum.decides_iff hpos _ e canonical).mpr ⟨hlt, hq, hs⟩)

/-- A published configuration verifies, under signatures of its signers. -/
theorem backed_of_publicationsBy {ops : List (SchedulerOp C)} {op : SchedulerOp C}
    {config : C.Config} (h : config ∈ (after O cfg ops).publicationsBy cfg op) :
    Backed cfg config.body (signers O cfg (ops ++ [op]) config.body.canonicalBytes) config := by
  rcases (tallies_apply hpolicy hmember hthr (tallies_after (O := O) hpolicy hmember hthr ops) op).2 with
    ⟨body, signer, config', hb, -, hpub, hback⟩ | ⟨-, hpub⟩
  · rw [hpub, List.mem_singleton] at h
    subst h
    obtain ⟨rfl, hver, hsigned⟩ := hback
    refine ⟨rfl, hver, ?_⟩
    have hcounted : signers O cfg (ops ++ [op]) config.body.canonicalBytes =
        ((Quorum.Tally.run cfg.threshold.val (ballots O cfg ops)).count
          config.body.canonicalBytes signer).voters config.body.canonicalBytes := by
      unfold signers
      rw [ballots_concat, hb, Option.toList_some, Quorum.voters_concat_vote, if_pos rfl]
      simp [Quorum.Tally.count, Quorum.voters_tally]
    rw [hcounted]
    exact hsigned
  · rw [hpub] at h
    cases h

/-- A body published has its quorum, and was published once. -/
theorem countP_publications (ops : List (SchedulerOp C)) (canonical : Bytes) :
    (publications O cfg ops).countP (fun config => config.body.canonicalBytes = canonical) ≤ 1 ∧
      (0 < (publications O cfg ops).countP
          (fun config => config.body.canonicalBytes = canonical) →
        cfg.threshold.val ≤ (signers O cfg ops canonical).card) := by
  induction ops using List.reverseRecOn with
  | nil => simp [publications]
  | append_singleton ops op ih =>
    obtain ⟨hle, hquorum⟩ := ih
    have hmono := Finset.card_le_card (@signers_concat_subset C O cfg ops op canonical)
    have hiff := publicationsBy_iff (O := O) hpolicy hmember hthr ops op canonical
    have hone : ((after O cfg ops).publicationsBy cfg op).length ≤ 1 := by
      rcases (tallies_apply hpolicy hmember hthr (tallies_after (O := O) hpolicy hmember hthr ops)
        op).2 with ⟨_, _, config, -, -, hpub, -⟩ | ⟨-, hpub⟩ <;> simp [hpub]
    have hcount := hone.trans' (List.countP_le_length
      (p := fun config : C.Config => config.body.canonicalBytes = canonical))
    rw [publications_concat, List.countP_append]
    by_cases hnew : 0 < ((after O cfg ops).publicationsBy cfg op).countP
        (fun config => config.body.canonicalBytes = canonical)
    · -- the call brings the signers to the threshold: nothing was published before
      obtain ⟨config, hmem, heq⟩ := List.countP_pos_iff.mp hnew
      obtain ⟨hlt, hreach, -⟩ := hiff.mp ⟨config, hmem, of_decide_eq_true heq⟩
      exact ⟨by omega, fun _ => hreach⟩
    · exact ⟨by omega, fun hpos => (hquorum (by omega)).trans hmono⟩

/-- A body that reaches its quorum without being shown published is published. -/
theorem published_of_quorum {ops : List (SchedulerOp C)} {canonical : Bytes}
    (hshown : ¬ Shown cfg ops canonical)
    (hquorum : cfg.threshold.val ≤ (signers O cfg ops canonical).card) :
    0 < (publications O cfg ops).countP
      (fun config => config.body.canonicalBytes = canonical) := by
  obtain ⟨⟨pre, op⟩, hσ, hbefore, hafter⟩ := Trace.exists_step_of_begins
    (P := fun l => cfg.threshold.val ≤ (signers O cfg l canonical).card)
    (fun h => hthr (Fin.ext (Nat.le_zero.mp h))) hquorum
  have hpre : pre <+: ops := (List.prefix_append pre [op]).trans (Trace.prefix_of_mem_steps hσ)
  obtain ⟨config, hmem, heq⟩ := (publicationsBy_iff (O := O) hpolicy hmember hthr pre op canonical).mpr
    ⟨Nat.lt_of_not_le hbefore, hafter, fun h => hshown (h.mono hpre)⟩
  exact List.countP_pos_iff.mpr ⟨config, List.mem_flatMap.mpr ⟨_, hσ, hmem⟩, decide_eq_true heq⟩

end Assembly

/-- **A body is published once, when its signers reach the threshold.**  Whatever a member's
core is handed and in whatever order: a call publishes a body exactly when it brings the
body's signers to the threshold and the body was not shown published; a run publishes it at
most once, and once if it reached the threshold without being shown; what is published
verifies for the committee, under its signers' approvals; and only valid approvals of the
body itself count, each signer once. -/
theorem published_at_threshold (hpolicy : C.policyFormat.Canonical)
    (hmember : cfg.ourPk ∈ cfg.committee) (hthr : cfg.threshold ≠ 0) (ops : List (SchedulerOp C))
    (canonical : Bytes) :
    (∀ σ ∈ Trace.steps ops,
      ((∃ config ∈ (after O cfg σ.1).publicationsBy cfg σ.2,
          config.body.canonicalBytes = canonical) ↔
        (signers O cfg σ.1 canonical).card < cfg.threshold.val ∧
          cfg.threshold.val ≤ (signers O cfg (σ.1 ++ [σ.2]) canonical).card ∧
          ¬ Shown cfg σ.1 canonical)) ∧
      (publications O cfg ops).countP (fun config => config.body.canonicalBytes = canonical) ≤ 1 ∧
      (¬ Shown cfg ops canonical →
        ((publications O cfg ops).countP
            (fun config => config.body.canonicalBytes = canonical) = 1 ↔
          cfg.threshold.val ≤ (signers O cfg ops canonical).card)) ∧
      (∀ σ ∈ Trace.steps ops, ∀ config ∈ (after O cfg σ.1).publicationsBy cfg σ.2,
        verifyMultisig cfg.committee cfg.threshold config = true ∧
          ∀ sig ∈ config.signatures,
            sig.signer ∈ signers O cfg (σ.1 ++ [σ.2]) config.body.canonicalBytes ∧
              C.pubkeyVerify sig.signer config.body.approveBytes sig.bytes = true) ∧
      (∀ pk, pk ∈ signers O cfg ops canonical ↔
        (∃ sig, .committeeSig sig ∈ ops ∧ sig.signer = pk ∧ ApprovalOf cfg canonical sig) ∨
          pk = cfg.ourPk ∧ Accepted O cfg ops canonical) ∧
      ∀ body body' : C.Body,
        (body.approveBytes = body'.approveBytes ↔ body.canonicalBytes = body'.canonicalBytes) ∧
          body.approveBytes ≠ body'.proposeBytes := by
  obtain ⟨hle, hquorum⟩ := countP_publications (O := O) hpolicy hmember hthr ops canonical
  refine ⟨fun σ _ => publicationsBy_iff hpolicy hmember hthr σ.1 σ.2 canonical, hle, ?_, ?_,
    fun pk => mem_signers hpolicy, approveBytes_domain⟩
  · intro hshown
    constructor
    · exact fun hone => hquorum (by omega)
    · intro hreach
      have := published_of_quorum (O := O) hpolicy hmember hthr hshown hreach
      omega
  · intro σ _ config hconfig
    have hback := backed_of_publicationsBy hpolicy hmember hthr hconfig
    exact ⟨hback.verifies, hback.signed⟩

/-! ### Two members -/

/-- Member 2 is shown the lead's signature twice, one of an outsider and one over the
proposal, and accepts the proposal in between. -/
def assemblyRun : List (SchedulerOp toyScheduler) :=
  [.registration (toyRegistration [1]),
    .committeeSig ⟨eightClients.canonicalBytes, toyNode 3,
      toySign (toyNode 3) eightClients.approveBytes⟩,
    .committeeSig ⟨eightClients.canonicalBytes, toyNode 1,
      toySign (toyNode 1) eightClients.proposeBytes⟩,
    .committeeSig (approval (toyMember 1) eightClients),
    .committeeSig (approval (toyMember 1) eightClients),
    .decodedBody (toyProposal eightClients),
    .committeeSig (approval (toyMember 1) eightClients)]

/-- The two signatures that do not count leave the lead alone; the member's own approval is
the second, and the body is published with it and not again. -/
theorem published_at_threshold_toy :
    signers toyObservers (toyMember 2) (assemblyRun.take 5) eightClients.canonicalBytes =
        {toyNode 1} ∧
      (publications toyObservers (toyMember 2) (assemblyRun.take 5)).length = 0 ∧
      (publications toyObservers (toyMember 2) assemblyRun).countP
        (fun config => config.body.canonicalBytes = eightClients.canonicalBytes) = 1 := by
  have hpolicy : toyScheduler.policyFormat.Canonical := by
    intro bytes policy rest hread
    cases hread
    rfl
  have hmain := @published_at_threshold toyScheduler toyObservers (toyMember 2) hpolicy
    (by decide +kernel) (by decide) assemblyRun eightClients.canonicalBytes
  refine ⟨by decide +kernel, by decide +kernel, (hmain.2.2.1 ?_).mpr (by decide +kernel)⟩
  rintro ⟨config, hmem, -⟩
  simp [assemblyRun] at hmem

end SchedulerCore
end Anymone
