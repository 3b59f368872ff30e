import Anymone.SchedulerFaults

/-! # Replayed fault reports

A report is taken when its evidence proves the relay it names guilty and its mark, the
subnet and round *the reporter wrote* with the culprit, is new.  The evidence carries
its own round under the culprit's signature, but nobody compares the two: the same
evidence under another round leaves another mark.

A report that always names one subnet and one round is taken once, as long as its mark
is not dropped by a tick while the subnet's window still lets the report in.
-/

namespace Anymone
variable {C : SchedulerCrate} {O : ObserverSessions}

namespace SchedulerCore
variable {cfg : SchedulerConfig C} {s s' : SchedulerCore O}

/-! ## The marks over a run -/

/-- The frontier of the subnet is far past the round, once its clock is refreshed. -/
def farBehind (s : SchedulerCore O) (round : Round) (now : U64) (subnet : SubnetId) (r : Round) :
    Bool :=
  match (({ s with curRound := round }.refreshClocks now).observers.get? subnet).bind
      PublicObserver.shareFrontier with
  | some frontier => decide (r.saturatingAdd (2 * faultReportRoundWindow) < frontier)
  | none => false

/-- A tick drops the marks of the subnet and round. -/
def forgets (s : SchedulerCore O) (subnet : SubnetId) (r : Round) : SchedulerOp C → Bool
  | .tick round now _ => s.farBehind round now subnet r
  | _ => false

theorem seen_applyObservedFaults (cfg : SchedulerConfig C) (s : SchedulerCore O)
    (faults : List Fault) (now : U64) :
    (s.applyObservedFaults cfg faults now).seenIntegrityFaults = s.seenIntegrityFaults :=
  (rosterOnly_applyObservedFaults cfg s faults now).seenIntegrityFaults

/-- A tick keeps every mark it does not forget. -/
theorem mem_seen_tick {subnet : SubnetId} {r : Round} {pk : Pubkey} {round : Round} {now clock : U64}
    (h : (subnet, r, pk) ∈ s.seenIntegrityFaults)
    (hkeep : forgets (C := C) s subnet r (.tick round now clock) = false) :
    (subnet, r, pk) ∈ (s.tick cfg round now clock).1.seenIntegrityFaults := by
  have hclocked : (subnet, r, pk) ∈ (s.clocked round now).seenIntegrityFaults := by
    have hnear : s.farBehind round now subnet r = false := hkeep
    unfold farBehind at hnear
    unfold clocked forgetOldFaults
    refine List.mem_filter.mpr ⟨h, ?_⟩
    show (match (({ s with curRound := round }.refreshClocks now).observers.get? subnet).bind
        PublicObserver.shareFrontier with
      | some frontier => decide (frontier ≤ r.saturatingAdd (2 * faultReportRoundWindow))
      | none => true) = true
    generalize (({ s with curRound := round }.refreshClocks now).observers.get? subnet).bind
      PublicObserver.shareFrontier = frontier at hnear ⊢
    cases frontier with
    | none => rfl
    | some frontier => simpa using hnear
  have hadvance : (s.advance cfg round now).seenIntegrityFaults =
      (s.clocked round now).seenIntegrityFaults :=
    (congrArg FaultView.seen (faultView_resize cfg _)).trans
      (frame_endObserverRounds cfg round now _ (s.clocked round now)).1
  unfold tick
  dsimp only
  split
  · rw [show ((s.advance cfg round now).propose cfg clock).1.seenIntegrityFaults =
      (s.advance cfg round now).seenIntegrityFaults from
        congrArg FaultView.seen (faultView_propose cfg _ clock), hadvance]
    exact hclocked
  · rw [hadvance]
    exact hclocked

/-- **A mark stays through every call that does not forget it.** -/
theorem mem_seen_apply {op : SchedulerOp C} {subnet : SubnetId} {r : Round} {pk : Pubkey}
    (h : (subnet, r, pk) ∈ s.seenIntegrityFaults) (hkeep : s.forgets subnet r op = false) :
    (subnet, r, pk) ∈ (s.apply cfg op).seenIntegrityFaults := by
  cases op with
  | registration reg =>
    cases reg with
    | relay => simp only [apply, onRegistration]; split <;> exact h
    | service | watcher => exact h
  | decodedBody proposal =>
    rwa [show (s.apply cfg (.decodedBody proposal)).seenIntegrityFaults = s.seenIntegrityFaults from
      congrArg FaultView.seen (faultView_onDecodedBody cfg s proposal)]
  | committeeSig sig =>
    rwa [show (s.apply cfg (.committeeSig sig)).seenIntegrityFaults = s.seenIntegrityFaults from
      congrArg FaultView.seen (faultView_onCommitteeSig cfg s sig)]
  | publishedConfig config =>
    rwa [show (s.apply cfg (.publishedConfig config)).seenIntegrityFaults = s.seenIntegrityFaults from
      congrArg FaultView.seen (faultView_onPublishedConfig cfg s config)]
  | faultReport sender report now =>
    simp only [apply, onFaultReport_eq]
    split
    · exact h
    · rw [seen_applyObservedFaults]
      exact List.mem_cons_of_mem _ h
  | observedFaults faults now =>
    simp only [apply, seen_applyObservedFaults]
    exact h
  | subnetMessage subnet' sender bytes =>
    rwa [show (s.apply cfg (.subnetMessage subnet' sender bytes)).seenIntegrityFaults =
      s.seenIntegrityFaults from
        congrArg FaultView.seen (faultView_onSubnetMessage s subnet' sender bytes)]
  | setCoverRate rate => exact h
  | tick round now clock => exact mem_seen_tick h hkeep

/-! ## Offences and punishments -/

/-- The evidence and culprit of a report that takes effect. -/
def punishedBy (s : SchedulerCore O) : SchedulerOp C → List (Bytes × Pubkey)
  | .faultReport sender report _ =>
      (s.takenCulprit C sender report).toList.map (fun culprit => (report.fault.evidence, culprit))
  | _ => []

/-- All reports that took effect in a run. -/
def punished (O : ObserverSessions) (cfg : SchedulerConfig C) (ops : List (SchedulerOp C)) :
    List (Bytes × Pubkey) :=
  Trace.observed (new (O := O) cfg) (apply cfg) punishedBy ops

/-- The subnet and round of a report that proves `offence`, the evidence and its culprit,
whether or not it is taken. -/
def provenAt (s : SchedulerCore O) (offence : Bytes × Pubkey) :
    SchedulerOp C → Option (SubnetId × Round)
  | .faultReport sender report _ =>
      if report.fault.evidence = offence.1 ∧ s.reportCulprit C sender report = some offence.2 then
        some (report.subnet, report.round)
      else none
  | _ => none

/-- All reports that prove the offence name one subnet and one round, and none of them is
proven again after a tick that has dropped its mark. -/
def ReportedOnce (O : ObserverSessions) (cfg : SchedulerConfig C) (ops : List (SchedulerOp C))
    (offence : Bytes × Pubkey) (subnet : SubnetId) (r : Round) : Prop :=
  ∀ σ ∈ Trace.steps ops, ∀ key, (after O cfg σ.1).provenAt offence σ.2 = some key →
    key = (subnet, r) ∧
      ∀ τ ∈ Trace.steps σ.1, (after O cfg τ.1).forgets subnet r τ.2 = false

theorem countP_punishedBy_le_one (s : SchedulerCore O) (op : SchedulerOp C)
    (offence : Bytes × Pubkey) : (s.punishedBy op).countP (· == offence) ≤ 1 := by
  refine List.countP_le_length.trans ?_
  cases op with
  | faultReport sender report now =>
    simp only [punishedBy, List.length_map]
    cases s.takenCulprit C sender report <;> simp
  | registration _ | decodedBody _ | committeeSig _ | publishedConfig _ | observedFaults _ _
  | subnetMessage _ _ _ | setCoverRate _ | tick _ _ _ => simp [punishedBy]

/-- A report that takes effect is proven, its mark was new, and is there afterwards. -/
theorem marked_of_punishedBy (cfg : SchedulerConfig C) {op : SchedulerOp C}
    {offence : Bytes × Pubkey}
    (h : offence ∈ s.punishedBy op) :
    ∃ key, s.provenAt offence op = some key ∧
      (key.1, key.2, offence.2) ∉ s.seenIntegrityFaults ∧
      (key.1, key.2, offence.2) ∈ (s.apply cfg op).seenIntegrityFaults := by
  cases op with
  | faultReport sender report now =>
    obtain ⟨culprit, hculprit, rfl⟩ := List.mem_map.mp h
    have htaken : s.takenCulprit C sender report = some culprit := by simpa using hculprit
    have hproven : s.reportCulprit C sender report = some culprit ∧
        (report.subnet, report.round, culprit) ∉ s.seenIntegrityFaults := by
      simpa [takenCulprit, Option.filter_eq_some_iff] using htaken
    refine ⟨(report.subnet, report.round), if_pos ⟨rfl, hproven.1⟩, hproven.2, ?_⟩
    simp only [apply, onFaultReport_eq, htaken, seen_applyObservedFaults]
    exact List.mem_cons_self ..
  | registration _ | decodedBody _ | committeeSig _ | publishedConfig _ | observedFaults _ _
  | subnetMessage _ _ _ | setCoverRate _ | tick _ _ _ => simp [punishedBy] at h

/-- **What a report does**: nothing where it is not counted, and where it is, its mark is set and
its fault applied. -/
theorem apply_faultReport (cfg : SchedulerConfig C) (s : SchedulerCore O) (sender : Pubkey)
    (report : FaultReport) (now : U64) :
    (s.punishedBy (.faultReport sender report now : SchedulerOp C) = [] ∧
      s.apply cfg (.faultReport sender report now) = s) ∨
    ∃ culprit, s.punishedBy (.faultReport sender report now : SchedulerOp C) =
        [(report.fault.evidence, culprit)] ∧
      s.apply cfg (.faultReport sender report now) =
        applyObservedFaults cfg { s with seenIntegrityFaults :=
          (report.subnet, report.round, culprit) :: s.seenIntegrityFaults } [report.fault] now := by
  simp only [apply, onFaultReport_eq, punishedBy]
  cases s.takenCulprit C sender report with
  | none => exact Or.inl ⟨rfl, rfl⟩
  | some culprit => exact Or.inr ⟨culprit, rfl, rfl⟩

/-- The punishments of a run are the offences counted: a report that is counted is applied, and one
that is not leaves the core as it is. -/
def CountsApplied (O : ObserverSessions) (cfg : SchedulerConfig C) (ops : List (SchedulerOp C)) :
    Prop :=
  ∀ σ ∈ Trace.steps ops, ∀ sender report now, σ.2 = .faultReport sender report now →
    ((after O cfg σ.1).punishedBy σ.2 = [] ∧ after O cfg (σ.1 ++ [σ.2]) = after O cfg σ.1) ∨
    ∃ culprit, (after O cfg σ.1).punishedBy σ.2 = [(report.fault.evidence, culprit)] ∧
      after O cfg (σ.1 ++ [σ.2]) = applyObservedFaults cfg
        { after O cfg σ.1 with seenIntegrityFaults :=
            (report.subnet, report.round, culprit) :: (after O cfg σ.1).seenIntegrityFaults }
        [report.fault] now

theorem countsApplied (cfg : SchedulerConfig C) (ops : List (SchedulerOp C)) :
    CountsApplied O cfg ops := by
  intro σ _ sender report now hop
  rw [after_concat, hop]
  exact apply_faultReport cfg _ sender report now

/-- **One offence is punished once** in a run whose reports of it all name one subnet and
round, and do not come back after their mark was dropped. -/
theorem offence_punished_once (cfg : SchedulerConfig C) (ops : List (SchedulerOp C))
    (offence : Bytes × Pubkey) (subnet : SubnetId) (r : Round)
    (honce : ReportedOnce O cfg ops offence subnet r) :
    (punished O cfg ops).count offence ≤ 1 ∧ CountsApplied O cfg ops := by
  refine ⟨?_, countsApplied cfg ops⟩
  -- once punished, the mark is there or a tick has dropped it
  suffices h : ∀ l, l <+: ops → (punished O cfg l).count offence ≤ 1 ∧
      (0 < (punished O cfg l).count offence →
        (subnet, r, offence.2) ∈ (after O cfg l).seenIntegrityFaults ∨
          ∃ τ ∈ Trace.steps l, (after O cfg τ.1).forgets subnet r τ.2 = true) from
    (h ops (List.prefix_refl ops)).1
  refine Trace.prefix_induction ⟨by simp [punished], fun h => by simp [punished] at h⟩ ?_
  intro σ hσ ⟨hle, hmark⟩
  have hcount : (punished O cfg (σ.1 ++ [σ.2])).count offence =
      (punished O cfg σ.1).count offence + ((after O cfg σ.1).punishedBy σ.2).count offence := by
    rw [← List.count_append]
    exact congrArg (List.count offence) (Trace.observed_concat ..)
  have hone : ((after O cfg σ.1).punishedBy σ.2).count offence ≤ 1 :=
    countP_punishedBy_le_one _ σ.2 offence
  rw [hcount, after_concat, Trace.steps_concat]
  by_cases hnow : 0 < ((after O cfg σ.1).punishedBy σ.2).count offence
  · obtain ⟨key, hproven, hnew, hseen⟩ :=
      marked_of_punishedBy cfg (List.count_pos_iff.mp hnow)
    obtain ⟨rfl, hkept⟩ := honce σ hσ key hproven
    have hold : (punished O cfg σ.1).count offence = 0 := by
      by_contra hpos
      rcases hmark (Nat.pos_of_ne_zero hpos) with hmem | ⟨τ, hτ, hforget⟩
      · exact hnew hmem
      · rw [hkept τ hτ] at hforget
        cases hforget
    exact ⟨by omega, fun _ => Or.inl hseen⟩
  · refine ⟨by omega, fun hpos => ?_⟩
    rcases hmark (by omega) with hmem | ⟨τ, hτ, hforget⟩
    · by_cases hforget : (after O cfg σ.1).forgets subnet r σ.2 = true
      · exact Or.inr ⟨σ, by simp, hforget⟩
      · exact Or.inl (mem_seen_apply hmem (by simpa using hforget))
    · exact Or.inr ⟨τ, List.mem_append_left _ hτ, hforget⟩

/-! ## A replay -/

/-- A share of relay 9 that does not open, under its signature. -/
def badShare : Bytes :=
  PanetiereWire.serialize (.serverPublic 5 0 [] [] [255] [] []
    (toySign (toyNode 9) (serverPublicSigningBytes 5 0 [] [] [255] [] [])))

/-- The report of relay 9's share, for a round of the reporter's choice. -/
def badShareReport (round : Round) : FaultReport :=
  ⟨round, 0, toyNode 10, ⟨.integrity, .peers [toyNode 9], badShare⟩⟩

/-- A published subnet over relays 9 and 10. -/
def pairBody : toyScheduler.Body :=
  { toyBody 1 (toyPanetiere 8) [1] with
    subnets := [⟨0, [toyNode 9, toyNode 10], .panetiere ⟨1000, 256, 4, 0, 8, 2,
      subnetSeed toyScheduler [toyNode 9, toyNode 10], .prony, .leader⟩, 0x3f800000, false⟩] }

/-- Relay 10 reports relay 9's share for two rounds, a second apart. -/
def reportRun (first second : Round) : List (SchedulerOp toyScheduler) :=
  [.publishedConfig (toyPublished pairBody),
    .faultReport (toyNode 10) (badShareReport first) 1000,
    .faultReport (toyNode 10) (badShareReport second) 2000]

/-- **The same evidence under another round is punished again**, and the second time
starts the backoff anew. -/
theorem replayed_evidence_punished_twice :
    (punished toyObservers (toyMember 2) (reportRun 5 6)).count (badShare, toyNode 9) = 2 ∧
      (after toyObservers (toyMember 2) (reportRun 5 6)).integrityOffenders.get? (toyNode 9) =
        some 2000 := by
  refine ⟨by decide +kernel, by decide +kernel⟩

/-- Reported twice for its own round, the share is punished once. -/
theorem offence_punished_once_toy :
    0 < (punished toyObservers (toyMember 2) (reportRun 5 5)).count (badShare, toyNode 9) ∧
      (punished toyObservers (toyMember 2) (reportRun 5 5)).count (badShare, toyNode 9) ≤ 1 ∧
      CountsApplied toyObservers (toyMember 2) (reportRun 5 5) := by
  refine ⟨by decide +kernel, offence_punished_once (toyMember 2) (reportRun 5 5) _ 0 5 ?_⟩
  have hproven : ∀ σ ∈ Trace.steps (reportRun 5 5),
      ((after toyObservers (toyMember 2) σ.1).provenAt (badShare, toyNode 9) σ.2).all
          (fun key => decide (key = (0, 5))) = true ∧
        ∀ τ ∈ Trace.steps σ.1, (after toyObservers (toyMember 2) τ.1).forgets 0 5 τ.2 = false := by
    decide +kernel
  intro σ hσ key hkey
  have hσ := hproven σ hσ
  rw [hkey] at hσ
  exact ⟨by simpa using hσ.1, hσ.2⟩

end SchedulerCore
end Anymone
