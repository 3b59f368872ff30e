import Anymone.SchedulerContent

/-! # Published configurations

A core sees a configuration published when it assembles one itself or is handed one
with a valid multisig.  Either way its round counters only rise, while what the
configuration teaches (`learn_config`) replaces what was known.

Two things rest on the counters.  `on_published_config` compares a round with nothing,
so an old configuration is learned again; and a lead that has nothing to stage has
found `published_round` equal to `public_round`, which says that *a* body of that
version is out, not that it is the lead's own.
-/

namespace Anymone
variable {C : SchedulerCrate} {O : ObserverSessions}

namespace SchedulerCore
variable {cfg : SchedulerConfig C} {s s' : SchedulerCore O}

/-! ## Learning an old configuration -/

/-- What a core has learned of the network, and its round counters. -/
structure NetworkView (O : ObserverSessions) where
  currentSubnetsSig : List SubnetSig
  observers : OrdMap SubnetId (PublicObserver O)
  observerGrace : OrdMap SubnetId Nat
  epochUnixMs : Option U64
  subnetRoundMs : OrdMap SubnetId U64
  lastAcceptedRound : Option Round
  publicRound : Round
  publishedRound : Option Round

/-- The view of a core. -/
def networkView (s : SchedulerCore O) : NetworkView O :=
  ⟨s.currentSubnetsSig, s.observers, s.observerGrace, s.epochUnixMs, s.subnetRoundMs,
    s.lastAcceptedRound, s.publicRound, s.publishedRound⟩

/-- The body's version is below one the core accepted or saw published. -/
def stale (s : SchedulerCore O) (body : C.Body) : Bool :=
  s.lastAcceptedRound.any (fun r => decide (body.round < r)) ||
    s.publishedRound.any (fun r => decide (body.round < r))

/-- The body teaches the core nothing: its epoch, its subnets with their rosters and
kinds, their round durations and its version are known. -/
def knows (s : SchedulerCore O) (body : C.Body) : Bool :=
  decide (s.epochUnixMs = some body.epochUnixMs) &&
    decide (s.subnetRoundMs = OrdMap.empty.insertAll
      (body.subnets.map (fun s => (s.id, s.protocol.roundDurationMs)))) &&
    decide (body.subnets.map subnetSig = s.currentSubnetsSig) &&
    s.lastAcceptedRound.any (fun r => decide (body.round ≤ r)) &&
    decide (body.round ≤ s.publicRound) &&
    s.publishedRound.any (fun r => decide (body.round ≤ r))

theorem raise_eq_self_iff {last : Option Round} {r : Round} :
    raise last r = last ↔ last.any (fun l => decide (r ≤ l)) = true := by
  cases last with
  | none => simp [raise]
  | some l => simp [raise]

theorem learnConfig_counters (cfg : SchedulerConfig C) (s : SchedulerCore O) (body : C.Body) :
    (s.learnConfig cfg body).lastAcceptedRound = s.lastAcceptedRound ∧
      (s.learnConfig cfg body).publicRound = s.publicRound ∧
      (s.learnConfig cfg body).publishedRound = s.publishedRound ∧
      (s.learnConfig cfg body).lastContent = s.lastContent := by
  unfold learnConfig
  dsimp only
  split <;> exact ⟨rfl, rfl, rfl, rfl⟩

theorem learnConfig_learns (cfg : SchedulerConfig C) (s : SchedulerCore O) (body : C.Body) :
    (s.learnConfig cfg body).epochUnixMs = some body.epochUnixMs ∧
      (s.learnConfig cfg body).subnetRoundMs = OrdMap.empty.insertAll
        (body.subnets.map (fun s => (s.id, s.protocol.roundDurationMs))) ∧
      (s.learnConfig cfg body).currentSubnetsSig = body.subnets.map subnetSig := by
  unfold learnConfig
  dsimp only
  split
  · rename_i h
    exact ⟨rfl, rfl, h.symm⟩
  · exact ⟨rfl, rfl, rfl⟩

/-- A known subnet set keeps its observers. -/
theorem learnConfig_observers (cfg : SchedulerConfig C) {body : C.Body}
    (h : body.subnets.map subnetSig = s.currentSubnetsSig) :
    (s.learnConfig cfg body).observers = s.observers ∧
      (s.learnConfig cfg body).observerGrace = s.observerGrace := by
  unfold learnConfig
  dsimp only
  rw [if_pos h]
  exact ⟨rfl, rfl⟩

/-- **A valid configuration leaves the view alone exactly when it is known already.**
Its version plays no part in it. -/
theorem published_config_ignored_iff (ops : List (SchedulerOp C)) (config : C.Config)
    (hsig : verifyMultisig cfg.committee cfg.threshold config = true)
    (hstruct : validateStructure config.body = true) :
    ((after O cfg ops).onPublishedConfig cfg config).1.networkView =
        (after O cfg ops).networkView ↔
      (after O cfg ops).knows config.body = true := by
  generalize after O cfg ops = s
  simp only [onPublishedConfig, hsig, hstruct, Bool.not_true, Bool.false_eq_true, if_false]
  -- the state that `learn_config` starts from: the raised counters
  generalize hs' : ({ s with
    lastAcceptedRound := raise s.lastAcceptedRound config.body.round
    publicRound := max s.publicRound config.body.round
    publishedRound := raise s.publishedRound config.body.round
    published := s.published.add config.body.canonicalBytes } : SchedulerCore O) = s'
  obtain ⟨hacc, hpub, hpubd, -⟩ := learnConfig_counters cfg s' config.body
  obtain ⟨hepoch, hms, hsubs⟩ := learnConfig_learns cfg s' config.body
  simp only [knows, Bool.and_eq_true, decide_eq_true_eq, and_assoc, ← raise_eq_self_iff]
  constructor
  · intro h
    injection h with h1 h2 h3 h4 h5 h6 h7 h8
    rw [hsubs] at h1
    rw [hepoch] at h4
    rw [hms] at h5
    rw [hacc, ← hs'] at h6
    rw [hpub, ← hs'] at h7
    rw [hpubd, ← hs'] at h8
    exact ⟨h4.symm, h5.symm, h1, h6, max_eq_left_iff.mp h7, h8⟩
  · rintro ⟨h4, h5, h1, h6, h7, h8⟩
    have hsame : config.body.subnets.map subnetSig = s'.currentSubnetsSig := by rw [h1, ← hs']
    have hobs := learnConfig_observers cfg hsame
    unfold networkView
    rw [hsubs, hepoch, hms, hacc, hpub, hpubd, hobs.1, hobs.2, ← hs', h1, ← h4, ← h5, h6, h8,
      max_eq_left h7]

/-- A configuration under both toy members' approvals. -/
def toyPublished (body : toyScheduler.Body) : toyScheduler.Config :=
  ⟨body, [⟨toyNode 1, toySign (toyNode 1) body.approveBytes⟩,
    ⟨toyNode 2, toySign (toyNode 2) body.approveBytes⟩]⟩

/-- Version 5, and an old version 3 of another epoch. -/
def fifthVersion : toyScheduler.Body := toyBody 5 (toyPanetiere 8) [1]

def thirdVersion : toyScheduler.Body := { toyBody 3 (toyPanetiere 8) [1] with epochUnixMs := 1 }

/-- **A replay of the old version moves the epoch back.** -/
theorem old_config_rolls_back :
    let s := after toyObservers (toyMember 2) [.publishedConfig (toyPublished fifthVersion)]
    verifyMultisig (toyMember 2).committee (toyMember 2).threshold (toyPublished thirdVersion) =
        true ∧
      validateStructure (toyPublished thirdVersion).body = true ∧
      s.stale thirdVersion = true ∧
      (s.onPublishedConfig (toyMember 2) (toyPublished thirdVersion)).1.networkView ≠
        s.networkView := by
  refine ⟨by decide +kernel, by decide +kernel, by decide +kernel, ?_⟩
  intro h
  have hepoch := congrArg NetworkView.epochUnixMs h
  revert hepoch
  decide +kernel

/-- An old version that says what version 5 says changes nothing. -/
theorem published_config_ignored_toy :
    let s := after toyObservers (toyMember 2) [.publishedConfig (toyPublished fifthVersion)]
    s.stale (toyBody 3 (toyPanetiere 8) [1]) = true ∧
      (s.onPublishedConfig (toyMember 2)
        (toyPublished (toyBody 3 (toyPanetiere 8) [1]))).1.networkView = s.networkView :=
  ⟨by decide +kernel, (published_config_ignored_iff _ (toyPublished (toyBody 3 (toyPanetiere 8) [1]))
    (by decide +kernel) (by decide +kernel)).mpr (by decide +kernel)⟩

/-! ## A quiet lead -/

end SchedulerCore

/-- The canonical bytes of the body with its round zeroed: what the lead compares. -/
def AnymoneRoundConfigurationBody.content (body : C.Body) : Bytes :=
  AnymoneRoundConfigurationBody.canonicalBytes (C := C) { body with round := 0 }

namespace SchedulerCore
variable {cfg : SchedulerConfig C} {s s' : SchedulerCore O}

/-- The version counters, and the content of the latest proposal. -/
structure Versions where
  lastContent : Option Bytes
  publicRound : Round
  publishedRound : Option Round

/-- The versions of a core. -/
def versions (s : SchedulerCore O) : Versions := ⟨s.lastContent, s.publicRound, s.publishedRound⟩

theorem Quiet.versions (h : Quiet s s') : s'.versions = s.versions := by
  have hl := h.ledger
  unfold SchedulerCore.versions
  rw [show s'.lastContent = s.lastContent from congrArg Ledger.lastContent hl,
    show s'.publicRound = s.publicRound from congrArg Ledger.publicRound hl,
    show s'.publishedRound = s.publishedRound from congrArg Ledger.publishedRound hl]

theorem versions_onRegistration (s : SchedulerCore O) (reg : Registration) :
    (s.onRegistration reg).versions = s.versions := by
  cases reg with
  | relay => unfold onRegistration; dsimp only; split <;> rfl
  | service | watcher => rfl

theorem versions_learnConfig (cfg : SchedulerConfig C) (s : SchedulerCore O) (body : C.Body) :
    (s.learnConfig cfg body).versions = s.versions := by
  obtain ⟨-, hpub, hpubd, hcontent⟩ := learnConfig_counters cfg s body
  unfold versions
  rw [hpub, hpubd, hcontent]

/-- Assembling either does nothing or publishes the body. -/
theorem tryAssemble_cases (cfg : SchedulerConfig C) (s : SchedulerCore O) (body : C.Body) :
    s.tryAssemble cfg body = (s, none) ∨
      ∃ config : C.Config, config.body = body ∧
        (s.tryAssemble cfg body).2 = some (.publishConfig config) ∧
        (s.tryAssemble cfg body).1.versions =
          { s.versions with publishedRound := raise s.publishedRound body.round } := by
  unfold tryAssemble
  dsimp only
  split_ifs
  · exact Or.inl rfl
  · split
    · exact Or.inl rfl
    · split_ifs
      · exact Or.inl rfl
      · exact Or.inl rfl
      · exact Or.inr ⟨_, rfl, rfl, rfl⟩

/-- A received configuration is refused, or raises the counters to its version. -/
theorem onPublishedConfig_cases (cfg : SchedulerConfig C) (s : SchedulerCore O) (config : C.Config) :
    s.onPublishedConfig cfg config = (s, false) ∨
      ((s.onPublishedConfig cfg config).2 = true ∧
        (s.onPublishedConfig cfg config).1.versions =
          ⟨s.lastContent, max s.publicRound config.body.round,
            raise s.publishedRound config.body.round⟩) := by
  unfold onPublishedConfig
  split_ifs
  · exact Or.inl rfl
  · exact Or.inl rfl
  · exact Or.inr ⟨rfl, versions_learnConfig cfg _ _⟩

/-- The core as `build_body` reads it in the lead's part of a tick. -/
def primed (cfg : SchedulerConfig C) (s : SchedulerCore O) (clockMs : U64) : SchedulerCore O :=
  let t := s.resizeScheduledVectors cfg (s.subnetProtocols cfg)
  { t with epochUnixMs := some (t.epochUnixMs.getD clockMs) }

/-- The round-zeroed body that `build_body` yields there. -/
def nextBody (cfg : SchedulerConfig C) (s : SchedulerCore O) (clockMs : U64) : C.Body :=
  { (s.primed cfg clockMs).buildBody cfg (s.subnetProtocols cfg) clockMs with round := 0 }

theorem versions_primed (cfg : SchedulerConfig C) (s : SchedulerCore O) (clock : U64) :
    (s.primed cfg clock).versions = s.versions :=
  (quiet_resizeScheduledVectors cfg s (s.subnetProtocols cfg)).versions

/-- The state of the lead's part of a tick once the version is settled. -/
def settled (cfg : SchedulerConfig C) (s : SchedulerCore O) (clockMs : U64) : SchedulerCore O :=
  let t := s.primed cfg clockMs
  if t.lastContent = some (s.nextBody cfg clockMs).canonicalBytes then t
  else { t with
    publicRound := t.publicRound + 1
    lastContent := some (s.nextBody cfg clockMs).canonicalBytes }

/-- The lead's part of a tick stages the next body under the settled version, unless
that version is published. -/
theorem propose_eq (cfg : SchedulerConfig C) (s : SchedulerCore O) (clock : U64) :
    s.propose cfg clock = (s.settled cfg clock,
      if (s.settled cfg clock).publishedRound = some (s.settled cfg clock).publicRound then []
      else [.stageProposal (proposalOf cfg.identity
        { s.nextBody cfg clock with round := (s.settled cfg clock).publicRound })]) := by
  have hpropose : s.propose cfg clock =
      if (s.settled cfg clock).publishedRound = some (s.settled cfg clock).publicRound then
        (s.settled cfg clock, [])
      else (s.settled cfg clock, [.stageProposal (proposalOf cfg.identity
        { s.nextBody cfg clock with round := (s.settled cfg clock).publicRound })]) := rfl
  rw [hpropose]
  split <;> rfl

/-- The versions after the lead's part of a tick, and when it stages nothing. -/
theorem propose_versions (cfg : SchedulerConfig C) (s : SchedulerCore O) (clock : U64) :
    (s.propose cfg clock).1.versions =
        (if s.lastContent = some (s.nextBody cfg clock).canonicalBytes then s.versions
          else ⟨some (s.nextBody cfg clock).canonicalBytes, s.publicRound + 1, s.publishedRound⟩) ∧
      ((s.propose cfg clock).2 = [] ↔
        (s.propose cfg clock).1.publishedRound = some (s.propose cfg clock).1.publicRound) := by
  have hprimed := s.versions_primed cfg clock
  injection hprimed with hcontent hpub hpubd
  rw [propose_eq]
  refine ⟨?_, ?_⟩
  · unfold settled
    dsimp only
    rw [hcontent]
    split
    · exact s.versions_primed cfg clock
    · rw [← hpub, ← hpubd]
      rfl
  · dsimp only
    split_ifs with hq <;> simp [hq]

/-- A staged proposal is the next body, under the settled version and the lead's
signature. -/
theorem staged_eq {clock : U64} {proposal : SignedProposal C}
    (h : .stageProposal proposal ∈ (s.propose cfg clock).2) :
    proposal = proposalOf cfg.identity
      { s.nextBody cfg clock with round := (s.settled cfg clock).publicRound } := by
  rw [propose_eq] at h
  dsimp only at h
  split_ifs at h
  · simp at h
  · simpa using h

/-- The configurations one call shows published: assembled, or received and valid. -/
def seenBy (cfg : SchedulerConfig C) (s : SchedulerCore O) : SchedulerOp C → List C.Config
  | .publishedConfig config => if (s.onPublishedConfig cfg config).2 then [config] else []
  | op => (s.actions cfg op).filterMap (fun
      | .publishConfig config => some config
      | .stageProposal _ | .publishSig _ => none)

/-- The configurations the core has seen published. -/
def seenPublished (O : ObserverSessions) (cfg : SchedulerConfig C) (ops : List (SchedulerOp C)) :
    List C.Config :=
  Trace.observed (new (O := O) cfg) (apply cfg) (seenBy cfg) ops

@[simp] theorem seenPublished_concat (ops : List (SchedulerOp C)) (op : SchedulerOp C) :
    seenPublished O cfg (ops ++ [op]) =
      seenPublished O cfg ops ++ (after O cfg ops).seenBy cfg op :=
  Trace.observed_concat ..

/-- What a call does to the versions: nothing, raise both counters to a configuration
received, raise the published one to a configuration assembled, or the lead's part of a
tick. -/
theorem versions_cases (cfg : SchedulerConfig C) (s : SchedulerCore O) (op : SchedulerOp C) :
    (s.apply cfg op).versions = s.versions ∨
      (∃ config, op = .publishedConfig config ∧ s.seenBy cfg op = [config] ∧
        (s.apply cfg op).versions =
          ⟨s.lastContent, max s.publicRound config.body.round,
            raise s.publishedRound config.body.round⟩) ∨
      (∃ config, (∀ c, op ≠ .publishedConfig c) ∧ (∀ r n t, op ≠ .tick r n t) ∧
        s.seenBy cfg op = [config] ∧
        (s.apply cfg op).versions =
          { s.versions with publishedRound := raise s.publishedRound config.body.round }) ∨
      (∃ round now clock, op = .tick round now clock ∧
        (s.apply cfg op).versions = ((s.advance cfg round now).propose cfg clock).1.versions) := by
  cases op with
  | registration reg => exact Or.inl (s.versions_onRegistration reg)
  | faultReport sender report now => exact Or.inl (quiet_onFaultReport cfg s sender report now).versions
  | observedFaults faults now => exact Or.inl (quiet_applyObservedFaults cfg s faults now).versions
  | subnetMessage subnet sender bytes =>
    exact Or.inl (quiet_onSubnetMessage s subnet sender bytes).versions
  | setCoverRate rate => exact Or.inl rfl
  | publishedConfig config =>
    simp only [apply, seenBy]
    rcases onPublishedConfig_cases cfg s config with hno | ⟨hyes, hver⟩
    · rw [hno]
      exact Or.inl rfl
    · exact Or.inr (Or.inl ⟨config, rfl, if_pos hyes, hver⟩)
  | decodedBody proposal =>
    simp only [apply, seenBy, actions, onDecodedBody]
    split_ifs
    · exact Or.inl rfl
    · have happrove : (s.approve cfg proposal.body).versions = s.versions :=
        versions_learnConfig cfg _ _
      -- an approval may be the one that completes the configuration
      rcases tryAssemble_cases cfg (s.approve cfg proposal.body) proposal.body with
        hnone | ⟨config, hbody, hact, hver⟩
      · rw [hnone]
        exact Or.inl happrove
      · refine Or.inr (Or.inr (Or.inl ⟨config, by simp, by simp, by simp [hact], ?_⟩))
        injection happrove with h1 h2 h3
        rw [hver, hbody, ← h3]
        unfold versions
        rw [h1, h2]
  | committeeSig sig =>
    simp only [apply, seenBy, actions, onCommitteeSig]
    split_ifs
    · exact Or.inl rfl
    · split
      · exact Or.inl rfl
      · rename_i body _
        split_ifs
        · exact Or.inl rfl
        · rcases tryAssemble_cases cfg
            { s with sigs := recordSig s.sigs sig.bodyBytes sig.signer sig.signature } body with
            hnone | ⟨config, hbody, hact, hver⟩
          · rw [hnone]
            exact Or.inl rfl
          · exact Or.inr (Or.inr (Or.inl ⟨config, by simp, by simp, by simp [hact],
              by rw [hver, hbody]; rfl⟩))
  | tick round now clock =>
    simp only [apply, tick]
    split_ifs
    · exact Or.inr (Or.inr (Or.inr ⟨round, now, clock, rfl, rfl⟩))
    · exact Or.inl (quiet_advance cfg s round now).versions

/-- The lead has proposed nothing yet, or its latest proposal is the configuration. -/
def settledOn (s : SchedulerCore O) (config : C.Config) : Bool :=
  decide (s.lastContent = none) || decide (s.lastContent = some config.body.content)

/-- A call that keeps the published version the lead's own: a configuration received is
older than the lead's version or one it is settled on, one it assembles is no newer
than that version, and the version counter does not wrap. -/
def tracks (cfg : SchedulerConfig C) (s : SchedulerCore O) (op : SchedulerOp C) : Bool :=
  match op with
  | .publishedConfig _ => (s.seenBy cfg op).all (fun c =>
      decide (c.body.round < s.publicRound) || s.settledOn c)
  | .tick .. => decide (s.publicRound.val + 1 < 18446744073709551616)
  | _ => (s.seenBy cfg op).all (fun c =>
      decide (c.body.round < s.publicRound) ||
        (decide (c.body.round = s.publicRound) && s.settledOn c))

/-- Every call of the run keeps the published version the lead's own. -/
def Tracked (O : ObserverSessions) (cfg : SchedulerConfig C) (ops : List (SchedulerOp C)) : Prop :=
  ∀ σ ∈ Trace.steps ops, (after O cfg σ.1).tracks cfg σ.2 = true

instance (ops : List (SchedulerOp C)) : Decidable (Tracked O cfg ops) :=
  inferInstanceAs (Decidable (∀ σ ∈ Trace.steps ops, (after O cfg σ.1).tracks cfg σ.2 = true))

/-- The published version is not above the lead's, and when it is the lead's, what was
published is what the lead proposed last. -/
structure Current (v : Versions) (seen : List C.Config) : Prop where
  le : ∀ p, v.publishedRound = some p → p ≤ v.publicRound
  content : v.publishedRound = some v.publicRound → v.lastContent = none ∨
    ∃ config ∈ seen, config.body.round = v.publicRound ∧ v.lastContent = some config.body.content

theorem settledOn_iff {config : C.Config} : s.settledOn config = true ↔
    s.lastContent = none ∨ s.lastContent = some config.body.content := by
  simp [settledOn]

/-- A version below the lead's is published: nothing moves. -/
theorem Current.raise_lt {v : Versions} {seen : List C.Config} (h : Current v seen)
    {config : C.Config} (hlt : config.body.round < v.publicRound) :
    Current { v with publishedRound := raise v.publishedRound config.body.round }
      (seen ++ [config]) := by
  have hle : v.publishedRound.getD 0 ≤ v.publicRound := by
    cases hp : v.publishedRound with
    | none => exact Fin.zero_le _
    | some p => exact h.le p hp
  refine ⟨?_, ?_⟩
  · intro p hp
    cases hp
    exact max_le hle hlt.le
  · intro hp
    have hmax : max (v.publishedRound.getD 0) config.body.round = v.publicRound := Option.some.inj hp
    have hold : v.publishedRound = some v.publicRound := by
      rcases max_choice (v.publishedRound.getD 0) config.body.round with hm | hm
      · rw [hm] at hmax
        cases hp : v.publishedRound with
        | none =>
          -- then the lead's version is zero, and no round is below it
          rw [hp] at hmax
          have hzero : (0 : Round) = v.publicRound := hmax
          rw [← hzero] at hlt
          exact absurd hlt (Fin.not_lt_zero _)
        | some p =>
          rw [hp] at hmax
          exact congrArg some hmax
      · rw [hm] at hmax
        exact absurd hmax hlt.ne
    rcases h.content hold with hnone | ⟨c, hc, hround, hcontent⟩
    · exact Or.inl hnone
    · exact Or.inr ⟨c, List.mem_append_left _ hc, hround, hcontent⟩

/-- The lead's own version is published, and is what it is settled on. -/
theorem Current.raise_eq {v : Versions} {seen : List C.Config} (h : Current v seen)
    {config : C.Config} {r : Round} (hr : v.publicRound ≤ r) (hround : config.body.round = r)
    (hset : v.lastContent = none ∨ v.lastContent = some config.body.content) :
    Current ⟨v.lastContent, r, raise v.publishedRound r⟩ (seen ++ [config]) := by
  have hle : v.publishedRound.getD 0 ≤ r := by
    cases hp : v.publishedRound with
    | none => exact Fin.zero_le _
    | some p => exact (h.le p hp).trans hr
  refine ⟨?_, fun _ => ?_⟩
  · intro p hp
    cases hp
    exact max_le hle le_rfl
  · rcases hset with hnone | hcontent
    · exact Or.inl hnone
    · exact Or.inr ⟨config, by simp, hround, hcontent⟩

theorem Current.mono {v : Versions} {seen seen' : List C.Config} (h : Current v seen)
    (hsub : seen ⊆ seen') : Current v seen' := by
  refine ⟨h.le, fun hp => ?_⟩
  rcases h.content hp with hnone | ⟨c, hc, hrest⟩
  · exact Or.inl hnone
  · exact Or.inr ⟨c, hsub hc, hrest⟩

/-- The lead's part of a tick either keeps its version or moves above the published
one. -/
theorem Current.propose {seen : List C.Config} (h : Current s.versions seen)
    (hwrap : s.publicRound.val + 1 < 18446744073709551616) (clock : U64) :
    Current (s.propose cfg clock).1.versions seen := by
  rw [(propose_versions cfg s clock).1]
  split_ifs
  · exact h
  · have hlt : s.publicRound < s.publicRound + 1 := by
      rw [Fin.lt_def, Fin.val_add_one_of_lt' hwrap]
      omega
    refine ⟨fun p hp => (h.le p hp).trans hlt.le, fun hp => ?_⟩
    exact absurd (h.le _ hp) (not_le.mpr hlt)

/-- **In a run that keeps to the lead's own configurations, the published version is
current.** -/
theorem current_after {ops : List (SchedulerOp C)} (htrack : Tracked O cfg ops) :
    ∀ l, l <+: ops → Current (after O cfg l).versions (seenPublished O cfg l) := by
  refine Trace.prefix_induction ⟨fun p hp => by simp [after, Trace.run, new, versions] at hp,
    fun hp => by simp [after, Trace.run, new, versions] at hp⟩ ?_
  rintro ⟨pre, op⟩ hσ ih
  have htr := htrack _ hσ
  rw [after_concat, seenPublished_concat]
  generalize after O cfg pre = s at ih htr ⊢
  rcases versions_cases cfg s op with hsame | ⟨config, rfl, hseen, hver⟩ |
    ⟨config, hpub, htick, hseen, hver⟩ | ⟨round, now, clock, rfl, hver⟩
  · rw [hsame]
    exact ih.mono (List.subset_append_left _ _)
  · rw [hver, hseen]
    simp only [tracks, hseen, List.all_cons, List.all_nil, Bool.and_true, Bool.or_eq_true,
      decide_eq_true_eq, settledOn_iff] at htr
    by_cases hlt : config.body.round < s.publicRound
    · rw [max_eq_left hlt.le]
      exact ih.raise_lt hlt
    · have hle := not_lt.mp hlt
      rw [max_eq_right hle]
      exact ih.raise_eq hle rfl (htr.resolve_left hlt)
  -- a configuration that is published here is older than the public one, or settles it
  · have htr : (config.body.round < s.publicRound) ∨ (config.body.round = s.publicRound ∧
        (s.lastContent = none ∨ s.lastContent = some config.body.content)) := by
      cases op with
      | publishedConfig c => exact absurd rfl (hpub c)
      | tick r n t => exact absurd rfl (htick r n t)
      | _ =>
        simpa only [tracks, hseen, List.all_cons, List.all_nil, Bool.and_true, Bool.or_eq_true,
          Bool.and_eq_true, decide_eq_true_eq, settledOn_iff] using htr
    rw [hver, hseen]
    rcases htr with hlt | ⟨heq, hset⟩
    · exact ih.raise_lt hlt
    · rw [heq]
      exact ih.raise_eq le_rfl heq hset
  · rw [hver]
    refine Current.mono ?_ (List.subset_append_left _ _)
    have hadv := (quiet_advance cfg s round now).versions
    refine Current.propose (hadv ▸ ih) ?_ clock
    have hpub : (s.advance cfg round now).publicRound = s.publicRound :=
      congrArg Versions.publicRound hadv
    rw [hpub]
    simpa [tracks] using htr

/-- The two bodies say the same apart from their rounds: their round-zeroed canonical
bytes agree, and with them the bodies, when their lengths fit their length words. -/
def SameContent (b b' : C.Body) : Prop :=
  b.content = b'.content ∧
    ((ConfigFormat.body C.policyFormat).Fits { b with round := 0 } →
      (ConfigFormat.body C.policyFormat).Fits { b' with round := 0 } →
      ({ b with round := 0 } : C.Body) = { b' with round := 0 })

theorem sameContent_of_content {b b' : C.Body} (h : b.content = b'.content) : SameContent b b' :=
  ⟨h, fun hb hb' => Bincode.write_inj _ hb hb' h⟩

/-- The tick of a lead above its floors that stages nothing. -/
def quietTick (cfg : SchedulerConfig C) (s : SchedulerCore O) (round : Round) (now clock : U64) :
    Prop :=
  cfg.isLead = true ∧ (s.advance cfg round now).aboveFloors cfg = true ∧
    (s.tick cfg round now clock).2 = []

/-- A configuration seen published, of the published version, says what `build_body`
says in the tick. -/
def Converged (O : ObserverSessions) (cfg : SchedulerConfig C) (ops : List (SchedulerOp C))
    (round : Round) (now clock : U64) : Prop :=
  let s := after O cfg ops
  ∃ config ∈ seenPublished O cfg ops,
    (s.tick cfg round now clock).1.publishedRound = some config.body.round ∧
      SameContent config.body ((s.advance cfg round now).nextBody cfg clock)

/-- **A quiet lead has converged**, in a run that keeps to the lead's own
configurations. -/
theorem quiet_lead_converged (ops : List (SchedulerOp C)) (htrack : Tracked O cfg ops) :
    ∀ pre round now clock, (pre, .tick round now clock) ∈ Trace.steps ops →
      (after O cfg pre).quietTick cfg round now clock → Converged O cfg pre round now clock := by
  rintro pre round now clock hσ ⟨hlead, hfloors, hquiet⟩
  have hpre : pre <+: ops := (List.prefix_append _ _).trans (Trace.prefix_of_mem_steps hσ)
  have hcur := current_after htrack pre hpre
  have hwrap : (after O cfg pre).publicRound.val + 1 < 18446744073709551616 := by
    simpa [tracks] using htrack _ hσ
  unfold Converged
  generalize after O cfg pre = s at hfloors hquiet hcur hwrap ⊢
  have htick : s.tick cfg round now clock = (s.advance cfg round now).propose cfg clock := by
    unfold tick
    dsimp only
    rw [hlead, hfloors]
    rfl
  have hadv := (quiet_advance cfg s round now).versions
  injection hadv with hcontent hpub hpubd
  obtain ⟨hver, hsilent⟩ := propose_versions cfg (s.advance cfg round now) clock
  dsimp only
  rw [htick] at hquiet ⊢
  have hequal := hsilent.mp hquiet
  -- a changed content moves the lead above every published version
  have hsame : (s.advance cfg round now).lastContent =
      some ((s.advance cfg round now).nextBody cfg clock).canonicalBytes := by
    by_contra hne
    rw [if_neg hne] at hver
    injection hver with _ hp hq
    rw [hp, hq, hpub, hpubd] at hequal
    have hle := hcur.le _ hequal
    rw [Fin.le_def, Fin.val_add_one_of_lt' hwrap] at hle
    have : s.versions.publicRound.val = s.publicRound.val := rfl
    omega
  rw [if_pos hsame] at hver
  injection hver with _ hp hq
  rw [hp, hq, hpub, hpubd] at hequal
  rw [hcontent] at hsame
  rcases hcur.content hequal with hnone | ⟨config, hmem, hround, hcont⟩
  · exact absurd (hsame.symm.trans hnone) (by simp)
  · refine ⟨config, hmem, ?_, ?_⟩
    · rw [hq, hpubd, hround]
      exact hequal
    · exact sameContent_of_content (Option.some.inj (hcont.symm.trans hsame))

/-- The lead's first tick, with a relay and a service registered. -/
def leadRun : List (SchedulerOp toyScheduler) :=
  [.registration (toyRegistration [1]),
    .registration (.service ⟨List.replicate 20 0, rfl⟩ (toyNode 8) toyExchangeKeys none []),
    .tick 1 1000 1000]

/-- What the lead staged in it, as version 1. -/
def stagedBody : toyScheduler.Body :=
  { ((after toyObservers (toyMember 1) leadRun).nextBody (toyMember 1) 1000) with round := 1 }

/-- Version 5 of someone else: a larger cap, at the lead's epoch. -/
def otherVersion : toyScheduler.Body :=
  { toyBody 5 (toyPanetiere 9) [1] with epochUnixMs := 1000 }

/-- The first tick, and a configuration published. -/
def adoptedRun (body : toyScheduler.Body) : List (SchedulerOp toyScheduler) :=
  leadRun ++ [.publishedConfig (toyPublished body)]

theorem quietTick_of_length {s : SchedulerCore toyObservers}
    (hfloors : (s.advance (toyMember 1) 2 2000).aboveFloors (toyMember 1) = true)
    (hlen : (s.tick (toyMember 1) 2 2000 2000).2.length = 0) :
    s.quietTick (toyMember 1) 2 2000 2000 :=
  ⟨by decide +kernel, hfloors, List.length_eq_zero_iff.mp hlen⟩

/-- **The lead stays silent although another body is in force.** -/
theorem quiet_lead_on_other_version :
    (after toyObservers (toyMember 1) (adoptedRun otherVersion)).quietTick (toyMember 1) 2 2000 2000 ∧
      ¬ Converged toyObservers (toyMember 1) (adoptedRun otherVersion) 2 2000 2000 := by
  refine ⟨quietTick_of_length (by decide +kernel) (by decide +kernel), ?_⟩
  rintro ⟨config, hmem, -, hcontent, -⟩
  have hdiffer : ∀ c ∈ seenPublished toyObservers (toyMember 1) (adoptedRun otherVersion),
      c.body.content ≠ (((after toyObservers (toyMember 1) (adoptedRun otherVersion)).advance
        (toyMember 1) 2 2000).nextBody (toyMember 1) 2000).content := by decide +kernel
  exact hdiffer config hmem hcontent

/-- Once its own body is published, the lead is silent and has converged. -/
theorem quiet_lead_converged_toy :
    (after toyObservers (toyMember 1) (adoptedRun stagedBody)).quietTick (toyMember 1) 2 2000 2000 ∧
      Converged toyObservers (toyMember 1) (adoptedRun stagedBody) 2 2000 2000 := by
  have htick : (after toyObservers (toyMember 1) (adoptedRun stagedBody)).quietTick (toyMember 1) 2
      2000 2000 := quietTick_of_length (by decide +kernel) (by decide +kernel)
  exact ⟨htick, quiet_lead_converged (adoptedRun stagedBody ++ [.tick 2 2000 2000])
    (by decide +kernel) _ 2 2000 2000 (Trace.mem_steps.mpr ⟨[], rfl⟩) htick⟩

end SchedulerCore
end Anymone
