import Anymone.SchedulerChannel

/-! # The lead's own proposals

`build_body` and `validate_body` state the rules of a configuration twice, once to build
one and once to check it.  What the lead builds within the limits of its parameters
passes the content checks of every member that has the same directory of registrations and
holds out the same relays: both read the same directory (members that ingested the same have one,
`directory_of_ingested`), the registered relays are the ones that registered and are not held out
(`registered_after`), and the sizes stay between their floors and caps (`Sized`).

The version is another matter.  A member compares it with counters of its own, and so
does the lead.
-/

namespace Anymone
variable {C : SchedulerCrate} {O : ObserverSessions}

/-! ## The same registrations -/

/-- A list of registrations leaves one directory. -/
theorem Directory.States.unique {d d' : Directory} {regs : List Registration}
    (h : d.States regs) (h' : d'.States regs) : d = d' := by
  have hwatchers : d.watchers = d'.watchers := by
    refine OrdMap.ext_get? (fun pk => ?_)
    have hiff : d.watchers.contains pk = true ↔ d'.watchers.contains pk = true := by
      rw [h.watchers, h'.watchers]
    unfold OrdMap.contains at hiff
    cases hget : d.watchers.get? pk with
    | none =>
      cases hget' : d'.watchers.get? pk with
      | none => rfl
      | some u => simp [hget, hget'] at hiff
    | some u =>
      cases hget' : d'.watchers.get? pk with
      | none => simp [hget, hget'] at hiff
      | some u' => rfl
  cases d with
  | mk services xpubs addrs urls descs watchers =>
    cases d' with
    | mk services' xpubs' addrs' urls' descs' watchers' =>
      congr 1
      · exact OrdMap.ext_get? (fun tag => (h.services tag).trans (h'.services tag).symm)
      · exact OrdMap.ext_get? (fun pk => (h.relayXpubs pk).trans (h'.relayXpubs pk).symm)
      · exact OrdMap.ext_get? (fun pk => (h.relayClientAddrs pk).trans (h'.relayClientAddrs pk).symm)
      · exact OrdMap.ext_get? (fun pk => (h.nodeRpcUrls pk).trans (h'.nodeRpcUrls pk).symm)
      · exact OrdMap.ext_get? (fun tag =>
          (h.serviceDescriptorUrls tag).trans (h'.serviceDescriptorUrls tag).symm)

namespace Roster
variable {r : Roster} {P : Pubkey → Prop}

/-- Every relay of `P` is registered or held out. -/
def Covers (r : Roster) (P : Pubkey → Prop) : Prop :=
  ∀ pk, P pk → r.registered.contains pk = true ∨ r.sidelined.contains pk = true

theorem Covers.punish (h : r.Covers P) (now : U64) (e : Pubkey × Bool) :
    (r.punish now e).Covers P := by
  intro pk hpk
  by_cases he : pk = e.1
  · exact Or.inr (OrdSet.contains_add_iff.mpr (Or.inl he))
  · rcases h pk hpk with hreg | hside
    · exact Or.inl (OrdMap.contains_erase_iff.mpr ⟨he, hreg⟩)
    · exact Or.inr (OrdSet.contains_add_of_contains hside)

theorem Covers.foldl_punish (now : U64) (l : List (Pubkey × Bool)) :
    ∀ {r : Roster}, r.Covers P → (l.foldl (Roster.punish now) r).Covers P := by
  induction l with
  | nil => exact fun h => h
  | cons e l ih => exact fun h => ih (h.punish now e)

/-- The relay that registers is covered as well. -/
theorem Covers.enroll {pk' : Pubkey} (h : r.Covers P)
    (hoff : r.integrityOffenders.contains pk' = false) :
    (r.enroll pk').Covers (fun pk => pk = pk' ∨ P pk) := by
  intro pk hpk
  unfold Roster.enroll
  rw [if_neg (by rw [hoff]; simp)]
  by_cases he : pk = pk'
  · exact Or.inl (OrdSet.contains_add_iff.mpr (Or.inl he))
  · rcases h pk (hpk.resolve_left he) with hreg | hside
    · exact Or.inl (OrdSet.contains_add_of_contains hreg)
    · exact Or.inr (OrdMap.contains_erase_iff.mpr ⟨he, hside⟩)

end Roster

namespace SchedulerCore
variable {cfg : SchedulerConfig C} {s s' : SchedulerCore O}

/-- Every relay that registered is registered still or held out. -/
theorem covers_after (O : ObserverSessions) (cfg : SchedulerConfig C) (ops : List (SchedulerOp C)) :
    (after O cfg ops).roster.Covers (fun pk => (latestRelay (ingested O cfg ops) pk).isSome) := by
  induction ops using List.reverseRecOn with
  | nil =>
    intro pk hpk
    simp [ingested, latestRelay] at hpk
  | append_singleton ops op ih =>
    rw [after_concat, ingested_concat]
    by_cases hop : ∃ reg, op = .registration reg
    · obtain ⟨reg, rfl⟩ := hop
      cases reg with
      | relay pk xk addr url sig =>
        have hroster : ((after O cfg ops).apply cfg (.registration (.relay pk xk addr url sig))).roster =
            (after O cfg ops).roster.enroll pk := roster_relay _ pk xk addr url sig
        have hing : (after O cfg ops).ingests (.relay pk xk addr url sig) =
            !(after O cfg ops).integrityOffenders.contains pk := rfl
        rw [hroster]
        simp only [ingestedBy]
        by_cases hoff : (after O cfg ops).integrityOffenders.contains pk = true
        · rw [hoff] at hing
          simp only [hing, Bool.not_true, Bool.false_eq_true, if_false, List.append_nil]
          unfold Roster.enroll
          rw [if_pos (by exact hoff)]
          exact ih
        -- a relay that is not barred joins the roster with what it states
        · have hfree := Bool.eq_false_iff.mpr hoff
          rw [hfree] at hing
          simp only [hing, Bool.not_false, if_true]
          intro pk' hpk'
          refine ih.enroll hfree pk' ?_
          rw [latestRelay_concat, Option.isSome_or] at hpk'
          by_cases he : pk = pk'
          · exact Or.inl he.symm
          · exact Or.inr (by simpa [Registration.ofRelay, he] using hpk')
      | service tag pk xk url sig =>
        intro pk' hpk'
        refine ih pk' ?_
        simpa [ingestedBy, ingests, Registration.ofRelay] using hpk'
      | watcher pk sig =>
        intro pk' hpk'
        refine ih pk' ?_
        simpa [ingestedBy, ingests, Registration.ofRelay] using hpk'
    · have hnone : (after O cfg ops).ingestedBy op = [] := by
        cases op with
        | registration reg => exact absurd ⟨reg, rfl⟩ hop
        | _ => rfl
      rw [hnone, List.append_nil]
      rcases roster_apply_cases cfg (after O cfg ops) op with
        ⟨-, h | ⟨reg, rfl, -⟩⟩ | ⟨now, -, h | ⟨-, h⟩⟩
      · rwa [h]
      · exact absurd ⟨reg, rfl⟩ hop
      · rw [h]
        exact ih.foldl_punish now _
      · rw [h]
        exact ih.foldl_punish now _

/-- **The registered relays are those that registered and are not held out.** -/
theorem registered_after (O : ObserverSessions) (cfg : SchedulerConfig C)
    (ops : List (SchedulerOp C)) (pk : Pubkey) :
    (after O cfg ops).registered.contains pk = true ↔
      (latestRelay (ingested O cfg ops) pk).isSome ∧
        (after O cfg ops).sidelined.contains pk = false := by
  constructor
  · exact fun h => ⟨(directory_after cfg ops).2 pk h, (barred_after O cfg ops).disjoint pk h⟩
  · rintro ⟨hreg, hside⟩
    rcases covers_after O cfg ops pk hreg with h | h
    · exact h
    · rw [show (after O cfg ops).sidelined.contains pk = true from h] at hside
      cases hside

/-! ## The sizes -/

/-- The capacity is at its floor or above, and the subnets within their cap. -/
structure Sized (s : SchedulerCore O) : Prop where
  capacity : minCapacity ≤ s.capacity
  subnetCount : s.subnetCount ≤ maxSubnets

/-- The sizes a tick changes, and nothing else. -/
def sizes (s : SchedulerCore O) : U32 × Nat := (s.capacity, s.subnetCount)

theorem Sized.congr (h : s.Sized) (he : s'.sizes = s.sizes) : s'.Sized := by
  obtain ⟨hcap, hcount⟩ := Prod.mk.inj he
  exact ⟨hcap ▸ h.capacity, hcount ▸ h.subnetCount⟩

theorem sizes_applyObservedFaults (cfg : SchedulerConfig C) (s : SchedulerCore O)
    (faults : List Fault) (now : U64) : (s.applyObservedFaults cfg faults now).sizes = s.sizes :=
  (rosterOnly_applyObservedFaults cfg s faults now).sizes

theorem sizes_learnConfig (cfg : SchedulerConfig C) (s : SchedulerCore O) (body : C.Body) :
    (s.learnConfig cfg body).sizes = s.sizes := by
  unfold learnConfig
  dsimp only
  split <;> rfl

theorem sizes_tryAssemble (cfg : SchedulerConfig C) (s : SchedulerCore O) (body : C.Body) :
    (s.tryAssemble cfg body).1.sizes = s.sizes := by
  unfold tryAssemble
  dsimp only
  split
  · rfl
  · split
    · rfl
    · split
      · rfl
      · split <;> rfl

theorem sizes_propose (cfg : SchedulerConfig C) (s : SchedulerCore O) (clock : U64) :
    (s.propose cfg clock).1.sizes = s.sizes := by
  obtain ⟨vectors, hvectors⟩ := resizeScheduledVectors_eq cfg (s.subnetProtocols cfg) s
  have hprimed : (s.primed cfg clock).sizes = s.sizes := by
    unfold primed
    rw [hvectors]
    rfl
  rw [propose_eq]
  refine Eq.trans ?_ hprimed
  unfold settled
  dsimp only
  split <;> rfl

theorem subnetCount_resizeCount (cfg : SchedulerConfig C) {s : SchedulerCore O} (load : U32)
    (h : s.subnetCount ≤ maxSubnets) :
    (s.resizeCount cfg load).subnetCount ≤ maxSubnets ∧
      (s.resizeCount cfg load).capacity = s.capacity := by
  unfold resizeCount
  dsimp only
  split_ifs
  · exact ⟨min_le_right _ _, rfl⟩
  · exact ⟨(Nat.sub_le _ _).trans h, rfl⟩
  · exact ⟨h, rfl⟩
  · exact ⟨h, rfl⟩

theorem capacity_resizeCapacity (cfg : SchedulerConfig C) {s : SchedulerCore O} (busiest load : U32)
    (h : minCapacity ≤ s.capacity) :
    minCapacity ≤ (s.resizeCapacity cfg busiest load).capacity ∧
      (s.resizeCapacity cfg busiest load).capacity ≤ maxSubnetClients ∧
      (s.resizeCapacity cfg busiest load).subnetCount = s.subnetCount := by
  have hsize : ∀ n, minCapacity ≤ sizeCapacity n := fun n => le_max_right _ _
  have hcaps : minCapacity ≤ maxSubnetClients := by decide
  unfold resizeCapacity
  dsimp only
  refine ⟨le_min ?_ hcaps, min_le_right _ _, ?_⟩
  · split_ifs
    · exact le_max_of_le_right h
    · exact le_min (le_max_of_le_left (hsize _)) hcaps
    · exact h
    · exact h
  · split_ifs <;> rfl

/-- After the sizing of a tick the capacity is also within its cap. -/
theorem sized_advance (cfg : SchedulerConfig C) (h : s.Sized) (round : Round) (now : U64) :
    (s.advance cfg round now).Sized ∧ (s.advance cfg round now).capacity ≤ maxSubnetClients := by
  generalize ht : ((s.clocked round now).observers.keys.foldl (endObserverRound cfg round now)
    (s.clocked round now)).releaseOffenders cfg now = t
  have hsame : t.sizes = s.sizes := by
    rw [← ht]
    exact (frame_endObserverRounds cfg round now _ (s.clocked round now)).2
  have hadvance : s.advance cfg round now = t.resize cfg := by
    rw [← ht]
    rfl
  have hsized := h.congr hsame
  obtain ⟨hcount, hcap⟩ := subnetCount_resizeCount cfg t.load hsized.subnetCount
  obtain ⟨hlo, hhi, hcount'⟩ := capacity_resizeCapacity cfg (s := t.resizeCount cfg t.load) t.busiest
    t.load (hcap ▸ hsized.capacity)
  rw [hadvance]
  exact ⟨⟨hlo, hcount' ▸ hcount⟩, hhi⟩

/-- The sizes are in bounds after every run. -/
theorem sized_after (O : ObserverSessions) (cfg : SchedulerConfig C) (ops : List (SchedulerOp C)) :
    (after O cfg ops).Sized := by
  induction ops using List.reverseRecOn with
  | nil => exact ⟨le_max_right _ _, show 1 ≤ 16 by decide⟩
  | append_singleton ops op ih =>
    rw [after_concat]
    cases op with
    | registration reg =>
      refine ih.congr ?_
      cases reg with
      | relay => simp only [apply, onRegistration]; split <;> rfl
      | service | watcher => rfl
    | decodedBody proposal =>
      refine ih.congr ?_
      simp only [apply, onDecodedBody]
      split
      · rfl
      · exact (sizes_tryAssemble cfg _ _).trans (sizes_learnConfig cfg _ _)
    | committeeSig sig =>
      refine ih.congr ?_
      simp only [apply, onCommitteeSig]
      split
      · rfl
      · split
        · rfl
        · split
          · rfl
          · exact sizes_tryAssemble cfg _ _
    | publishedConfig config =>
      refine ih.congr ?_
      simp only [apply, onPublishedConfig]
      split
      · rfl
      · split
        · rfl
        · exact sizes_learnConfig cfg _ _
    | faultReport sender report now =>
      refine ih.congr ?_
      simp only [apply, onFaultReport_eq]
      split
      · rfl
      · exact sizes_applyObservedFaults cfg _ _ now
    | observedFaults faults now => exact ih.congr (sizes_applyObservedFaults cfg _ faults now)
    | subnetMessage subnet sender bytes =>
      refine ih.congr ?_
      simp only [apply, onSubnetMessage]
      split <;> rfl
    | setCoverRate rate => exact ih.congr rfl
    | tick round now clock =>
      have hadvance := (sized_advance cfg ih round now).1
      simp only [apply, tick]
      split
      · exact hadvance.congr (sizes_propose cfg _ clock)
      · exact hadvance

end SchedulerCore

/-! ## The bounds of a built body -/

theorem val_divCeil32_two (a : U32) : (divCeil32 a 2).val = (a.val + 1) / 2 := by
  unfold divCeil32
  rw [Fin.val_ofNat]
  exact Nat.mod_eq_of_lt (by omega)

/-- The expected senders of a capacity in bounds. -/
theorem expectedActive_bounds {capacity : U32} (hlo : minCapacity ≤ capacity)
    (hhi : capacity ≤ maxSubnetClients) :
    4 ≤ (expectedActive capacity).val ∧ (expectedActive capacity).val ≤ 150 := by
  have hval : (expectedActive capacity).val = max ((capacity.val + 1) / 2) 4 := by
    unfold expectedActive
    rw [Fin.coe_max, val_divCeil32_two]
    rfl
  have hlo : 8 ≤ capacity.val := hlo
  have hhi : capacity.val ≤ 300 := hhi
  rw [hval]
  omega

theorem val_roundUpTo {x : U64} {step : Nat} (hstep : 0 < step) (hx : x.val + step < 4294967296) :
    (roundUpTo x step).val = (x.val + (step - 1)) / step * step := by
  unfold roundUpTo U64.divCeil
  have hq : (x.val + (step - 1)) / step * step ≤ x.val + (step - 1) := Nat.div_mul_le_self _ _
  have hle : (x.val + (step - 1)) / step ≤ x.val + (step - 1) := Nat.div_le_self _ _
  rw [Fin.val_mul, Fin.val_ofNat, Fin.val_ofNat, Nat.mod_eq_of_lt (a := step) (by omega),
    Nat.mod_eq_of_lt (a := (x.val + (step - 1)) / step) (by omega)]
  exact Nat.mod_eq_of_lt (by omega)

theorem thresholdOk_emitted {n : Nat} (hpos : 0 < n) (hmax : n ≤ maxCommitteeRelays) :
    thresholdOk n (SchedulerCore.emittedThreshold n) = true := by
  have hmax : n ≤ 16 := hmax
  have hval : (SchedulerCore.emittedThreshold n).val = max (n / 2 + 1) (n - 2) := by
    unfold SchedulerCore.emittedThreshold
    rw [Fin.val_ofNat]
    exact Nat.mod_eq_of_lt (by omega)
  unfold thresholdOk
  rw [hval, Bool.and_eq_true, decide_eq_true_eq, decide_eq_true_eq]
  omega

theorem map_fst_filterMap_sublist {α β : Type} (f : α → Option β) (l : List α) :
    ((l.filterMap (fun a => (f a).map (fun b => (a, b)))).map Prod.fst).Sublist l := by
  induction l with
  | nil => exact List.Sublist.slnil
  | cons a l ih =>
    rw [List.filterMap_cons]
    cases f a with
    | none => exact ih.cons a
    | some b => exact ih.cons_cons a

namespace SchedulerCore
variable {cfg : SchedulerConfig C} {s s' : SchedulerCore O}

/-- The protocol of every subnet. -/
def pinned (cfg : SchedulerConfig C) : SchedulerProtocol := cfg.params.pin.getD .panetiere

/-- **The limits on the parameters**: a round duration and a message size, within the
bound of the protocol, a cover rate, a consensus cadence that fits the placed relays, and
the wire estimate of every subnet. -/
structure WithinLimits (cfg : SchedulerConfig C) (s : SchedulerCore O) : Prop where
  duration : cfg.params.publicRoundDurationMs ≠ 0
  messageSize : cfg.params.messageSize ≠ 0
  scheduledSize : pinned cfg = .scheduledPanetiere → cfg.params.messageSize.val ≤ 65535
  auctionedSize : pinned cfg = .scheduledAdcnet → cfg.params.messageSize ≤ maxVectorBytes
  coverRate : coverRateInUnit s.coverRate = true
  cadence : pinned cfg = .panetiere ∨ pinned cfg = .scheduledPanetiere →
    consensusCadenceFits cfg.params.publicRoundDurationMs cfg.params.setFormation s.relayVec.length
      (emittedThreshold s.relayVec.length) = true
  wire : ∀ i < max s.subnetCount 1,
    subnetMaxWire C s.relayVec.length (s.buildProtocol cfg (pinned cfg) i) ≤ maxSubnetWire

theorem length_relayVec_le (s : SchedulerCore O) : s.relayVec.length ≤ maxCommitteeRelays :=
  List.length_take_le _ _

theorem nodup_relayVec (s : SchedulerCore O) : s.relayVec.Nodup :=
  (s.registered.keys_sorted.imp (fun h => h.ne)).sublist (List.take_sublist _ _)

/-- The width of the message vector is not zero. -/
theorem baseVector_ne_zero (hlo : minCapacity ≤ s.capacity) (hhi : s.capacity ≤ maxSubnetClients)
    (hsize : cfg.params.messageSize ≠ 0) (hbound : cfg.params.messageSize.val ≤ 65535) :
    min (s.baseVector cfg) maxVectorBytes ≠ 0 := by
  obtain ⟨hea, hea'⟩ := expectedActive_bounds hlo hhi
  have hmsg : 0 < cfg.params.messageSize.val := Nat.pos_of_ne_zero (fun h => hsize (Fin.ext h))
  -- at most 150 senders of 65535 bytes: nothing wraps
  have hprod : (expectedActive s.capacity).val * cfg.params.messageSize.val ≤ 150 * 65535 :=
    Nat.mul_le_mul hea' hbound
  have hpos : 4 * 1 ≤ (expectedActive s.capacity).val * cfg.params.messageSize.val :=
    Nat.mul_le_mul hea hmsg
  have hhalf : ((expectedActive s.capacity).toU64 * cfg.params.messageSize / 2).val =
      (expectedActive s.capacity).val * cfg.params.messageSize.val / 2 := by
    rw [Fin.div_val, Fin.val_mul]
    show (expectedActive s.capacity).val * cfg.params.messageSize.val % _ / 2 = _
    rw [Nat.mod_eq_of_lt (by omega)]
  have hbase : (s.baseVector cfg).val =
      ((expectedActive s.capacity).val * cfg.params.messageSize.val / 2 + 8191) / 8192 * 8192 := by
    unfold baseVector
    rw [val_roundUpTo (by decide) (by rw [hhalf]; omega), hhalf]
  intro hzero
  have hval := congrArg Fin.val hzero
  rw [Fin.coe_min, hbase] at hval
  have hmax : maxVectorBytes.val = 131072 := rfl
  rw [hmax] at hval
  have hz : (0 : U64).val = 0 := rfl
  rw [hz] at hval
  omega

/-- The aggregators are distinct and there is one. -/
theorem aggregationStructuralOk_build (hrelays : 0 < s.relayVec.length) :
    aggregationStructuralOk
      (if cfg.params.aggregation then buildSubnetAggregation s.capacity s.relayVec else none) =
        true := by
  split_ifs
  · unfold buildSubnetAggregation
    cases hcount : aggregatorGroupCount s.capacity s.relayVec.length with
    | none => rfl
    | some n =>
      have hn : 1 ≤ n := by
        unfold aggregatorGroupCount at hcount
        split_ifs at hcount
        cases hcount
        exact le_max_right _ _
      have hne : s.relayVec.take n ≠ [] := by
        intro he
        have hlen := congrArg List.length he
        rw [List.length_take, List.length_nil] at hlen
        omega
      simp only [Option.map_some, aggregationStructuralOk, Bool.and_eq_true, decide_eq_true_eq]
      exact ⟨by simpa using hne, s.nodup_relayVec.sublist (List.take_sublist _ _)⟩
  · rfl

/-- A built protocol keeps the bounds of its kind. -/
theorem protocolBoundsOk_buildProtocol (h : s.WithinLimits cfg) (hlo : minCapacity ≤ s.capacity)
    (hhi : s.capacity ≤ maxSubnetClients) (hrelays : 0 < s.relayVec.length) (i : Nat) :
    protocolBoundsOk s.relayVec.length (s.buildProtocol cfg (pinned cfg) i) = true := by
  have hthreshold := thresholdOk_emitted hrelays s.length_relayVec_le
  obtain ⟨hea, hea'⟩ := expectedActive_bounds hlo hhi
  have hactive : expectedActive s.capacity ≠ 0 := by
    intro he
    rw [he] at hea
    exact absurd hea (by decide)
  have hcap : s.capacity ≠ 0 := by
    intro he
    rw [he] at hlo
    exact absurd hlo (by decide)
  cases hpin : pinned cfg with
  | noop => simpa [protocolBoundsOk, buildProtocol] using hlo
  | panetiere =>
    simp only [protocolBoundsOk, buildProtocol, Bool.and_eq_true, decide_eq_true_eq]
    exact ⟨⟨⟨hlo, hactive⟩, hthreshold⟩, h.cadence (Or.inl hpin)⟩
  | scheduledPanetiere =>
    simp only [protocolBoundsOk, buildProtocol, Bool.and_eq_true, decide_eq_true_eq]
    refine ⟨⟨⟨⟨⟨hlo, hcap⟩, hthreshold⟩, h.scheduledSize hpin⟩, ?_⟩, h.cadence (Or.inr hpin)⟩
    -- a vector is the configured one, the one it has, or the base of the capacity
    split_ifs with hvec
    · exact hvec.ne'
    · split
      · rename_i v hv
        have hpos := (Option.filter_eq_some_iff.mp hv).2
        rw [decide_eq_true_eq] at hpos
        exact hpos.ne'
      · exact baseVector_ne_zero hlo hhi h.messageSize (h.scheduledSize hpin)
  | scheduledAdcnet =>
    have hsize : cfg.params.messageSize.val ≤ 131072 := h.auctionedSize hpin
    have hpos : 0 < cfg.params.messageSize.val :=
      Nat.pos_of_ne_zero (fun he => h.messageSize (Fin.ext he))
    -- the message rounded up to a whole number of blocks, which do not overflow
    have hlen : (roundUpTo cfg.params.messageSize 1024).val =
        (cfg.params.messageSize.val + 1023) / 1024 * 1024 := val_roundUpTo (by decide) (by omega)
    simp only [protocolBoundsOk, buildProtocol, Bool.and_eq_true, decide_eq_true_eq]
    refine ⟨⟨⟨⟨⟨⟨⟨hlo, hactive⟩, ?_⟩, ?_⟩, ?_⟩, ?_⟩, by decide⟩, ?_⟩
    · exact Fin.le_def.mpr (le_trans hea' (by decide))
    · rw [hlen]
      omega
    · rw [hlen]
      exact Nat.mul_mod_left _ _
    · rw [Fin.le_def, hlen]
      show _ ≤ 131072
      omega
    · rw [hlen]
      show 1 ≤ _
      omega
  | adcnet =>
    simp only [protocolBoundsOk, buildProtocol, Bool.and_eq_true, decide_eq_true_eq]
    exact ⟨⟨hlo, hactive⟩, aggregationStructuralOk_build hrelays⟩

/-- The fields of a built protocol that every kind has. -/
theorem fields_buildProtocol (h : s.WithinLimits cfg) (i : Nat) :
    (s.buildProtocol cfg (pinned cfg) i).roundDurationMs ≠ 0 ∧
      (s.buildProtocol cfg (pinned cfg) i).messageSize ≠ 0 ∧
      (s.buildProtocol cfg (pinned cfg) i).clientSetMin ≤
        (s.buildProtocol cfg (pinned cfg) i).clientSetMax := by
  cases hpin : pinned cfg with
  | scheduledAdcnet =>
    refine ⟨h.duration, ?_, Fin.zero_le _⟩
    have hsize : cfg.params.messageSize.val ≤ 131072 := h.auctionedSize hpin
    have hpos : 0 < cfg.params.messageSize.val :=
      Nat.pos_of_ne_zero (fun he => h.messageSize (Fin.ext he))
    have hlen : (roundUpTo cfg.params.messageSize 1024).val =
        (cfg.params.messageSize.val + 1023) / 1024 * 1024 := val_roundUpTo (by decide) (by omega)
    intro hzero
    have hval : (roundUpTo cfg.params.messageSize 1024).val = 0 := congrArg Fin.val hzero
    rw [hlen] at hval
    omega
  | noop | panetiere | scheduledPanetiere | adcnet =>
    exact ⟨h.duration, h.messageSize, Fin.zero_le _⟩

theorem mem_subnets_buildBody {n : Nat} {clock : U64} {subnet : Subnet}
    (h : subnet ∈ (s.buildBody cfg (List.replicate n (pinned cfg)) clock).subnets) :
    ∃ i < n, subnet = ⟨Fin.ofNat _ i, s.relayVec, s.buildProtocol cfg (pinned cfg) i, s.coverRate,
      cfg.params.attestedSubnets.contains (Fin.ofNat _ i)⟩ := by
  obtain ⟨⟨proto, i⟩, hmem, rfl⟩ := List.mem_map.mp h
  obtain ⟨hi, hproto⟩ := List.mem_zipIdx' hmem
  rw [List.length_replicate] at hi
  rw [List.getElem_replicate] at hproto
  exact ⟨i, hi, by rw [hproto]⟩

theorem ids_buildBody (s : SchedulerCore O) {n : Nat} (hn : n ≤ maxSubnets) (clock : U64) :
    ((s.buildBody cfg (List.replicate n (pinned cfg)) clock).subnets.map Subnet.id).Nodup := by
  have hids : (s.buildBody cfg (List.replicate n (pinned cfg)) clock).subnets.map Subnet.id =
      ((List.replicate n (pinned cfg)).zipIdx.map Prod.snd).map (Fin.ofNat 4294967296) := by
    simp only [buildBody, List.map_map]
    rfl
  rw [hids, List.zipIdx_map_snd, List.length_replicate]
  refine List.Nodup.map_on ?_ (List.nodup_range')
  intro i hi j hj hij
  have hn : n ≤ 16 := hn
  have hi := (List.mem_range'_1.mp hi).2
  have hj := (List.mem_range'_1.mp hj).2
  have hval := congrArg Fin.val hij
  rw [Fin.val_ofNat, Fin.val_ofNat, Nat.mod_eq_of_lt (by omega), Nat.mod_eq_of_lt (by omega)] at hval
  exact hval

/-- **A body built within the limits passes `validate_structure`.** -/
theorem validateStructure_buildBody (h : s.WithinLimits cfg) (hsized : s.Sized)
    (hhi : s.capacity ≤ maxSubnetClients) (hrelays : 0 < s.relayVec.length) (round : Round)
    (clock : U64) :
    validateStructure (C := C) { s.buildBody cfg
      (List.replicate (max s.subnetCount 1) (pinned cfg)) clock with round := round } = true := by
  have hcount : max s.subnetCount 1 ≤ maxSubnets := max_le hsized.subnetCount (by decide)
  have hservices : (s.services.entries.map Prod.fst).Nodup :=
    s.services.keys_sorted.imp (fun h => h.ne)
  have hkeys : ((s.relayVec.filterMap (fun pk => (s.relayXpubs.get? pk).map
      (fun xk => (pk, xk)))).map Prod.fst).Nodup := by
    exact s.nodup_relayVec.sublist (map_fst_filterMap_sublist _ _)
  have hsubnets : ∀ subnet ∈ (s.buildBody cfg
      (List.replicate (max s.subnetCount 1) (pinned cfg)) clock).subnets,
      subnetStructureOk C subnet = true := by
    intro subnet hsubnet
    obtain ⟨i, hi, rfl⟩ := mem_subnets_buildBody hsubnet
    have hne : s.relayVec ≠ [] := List.ne_nil_of_length_pos hrelays
    obtain ⟨hdur, hmsg, hclients⟩ := fields_buildProtocol h i
    simp only [subnetStructureOk, Bool.and_eq_true, decide_eq_true_eq]
    exact ⟨⟨⟨⟨⟨⟨by simpa using hne, s.length_relayVec_le⟩, s.nodup_relayVec⟩, h.coverRate⟩,
      ⟨hdur, hmsg⟩, hclients⟩, protocolBoundsOk_buildProtocol h hsized.capacity hhi hrelays i⟩,
      h.wire i hi⟩
  simp only [validateStructure, Bool.and_eq_true, decide_eq_true_eq, List.all_eq_true]
  refine ⟨⟨⟨⟨⟨?_, ?_⟩, ids_buildBody s hcount clock⟩, hservices⟩, hkeys⟩, hsubnets⟩
  · simp [buildBody]
  · simpa [buildBody] using hcount

/-! ## The checks of a member -/

/-- A member reads a body the way its builder does. -/
structure Agrees (cfg cfg' : SchedulerConfig C) (s m : SchedulerCore O) (clock : U64) : Prop where
  params : cfg'.params = cfg.params
  directory : m.directory = s.directory
  registered : ∀ {pk}, s.registered.contains pk = true → m.registered.contains pk = true
  known : ∀ {pk}, s.registered.contains pk = true → ∃ xk, s.relayXpubs.get? pk = some xk
  epoch : ∀ e ∈ m.epochUnixMs, e = s.epochUnixMs.getD clock

variable {cfg' : SchedulerConfig C} {m : SchedulerCore O} {clock : U64}

theorem Agrees.endpointsMatch (h : Agrees cfg cfg' s m clock) (protos : List SchedulerProtocol)
    (round : Round) :
    m.endpointsMatch (C := C) { s.buildBody cfg protos clock with round := round } = true := by
  have hurls : m.nodeRpcUrls = s.nodeRpcUrls := congrArg Directory.nodeRpcUrls h.directory
  have hdescs : m.serviceDescriptorUrls = s.serviceDescriptorUrls :=
    congrArg Directory.serviceDescriptorUrls h.directory
  simp only [SchedulerCore.endpointsMatch, buildBody, Bool.and_eq_true, List.all_eq_true,
    List.mem_filter, List.any_eq_true, decide_eq_true_eq, hurls, hdescs]
  refine ⟨?_, ?_⟩
  · rintro ⟨pk, url⟩ ⟨hmem, -, hplaced⟩
    have hpk : pk ∈ s.relayVec := List.contains_iff_mem.mp hplaced
    obtain ⟨xk, hxk⟩ := h.known (registered_of_mem_relayVec hpk)
    exact ⟨OrdMap.get?_eq_some_iff.mpr hmem, (pk, xk),
      List.mem_filterMap.mpr ⟨pk, hpk, by rw [hxk]; rfl⟩, rfl⟩
  · rintro ⟨tag, url⟩ ⟨hmem, hservice⟩
    obtain ⟨owner, howner⟩ := OrdMap.contains_iff.mp hservice
    exact ⟨OrdMap.get?_eq_some_iff.mpr hmem, (tag, owner), OrdMap.get?_eq_some_iff.mp howner, rfl⟩

theorem Agrees.exchangeKeysMatch (h : Agrees cfg cfg' s m clock) (protos : List SchedulerProtocol) :
    m.exchangeKeysMatch (s.buildBody cfg protos clock).relayExchangeKeys = true := by
  have hxpubs : m.relayXpubs = s.relayXpubs := congrArg Directory.relayXpubs h.directory
  simp only [SchedulerCore.exchangeKeysMatch, buildBody, List.all_eq_true, decide_eq_true_eq, hxpubs]
  intro e he
  obtain ⟨pk, -, hpk⟩ := List.mem_filterMap.mp he
  obtain ⟨xk, hxk, rfl⟩ := Option.map_eq_some_iff.mp hpk
  exact hxk

theorem Agrees.validateSubnet (h : Agrees cfg cfg' s m clock) (hrelays : 0 < s.relayVec.length)
    {n : Nat} {subnet : Subnet}
    (hsubnet : subnet ∈ (s.buildBody cfg (List.replicate n (pinned cfg)) clock).subnets) :
    m.validateSubnet cfg' subnet = true := by
  obtain ⟨i, -, rfl⟩ := mem_subnets_buildBody hsubnet
  have hall : ∀ pk ∈ s.relayVec, m.registered.contains pk = true :=
    fun pk hpk => h.registered (registered_of_mem_relayVec hpk)
  simp only [SchedulerCore.validateSubnet, h.params, beq_self_eq_true, Bool.true_and, Bool.and_eq_true,
    List.all_eq_true]
  refine ⟨hall, ?_⟩
  cases pinned cfg with
  | adcnet =>
    simp only [buildProtocol, aggregationValid, aggregationStructuralOk_build hrelays, Bool.true_and]
    split
    · rfl
    · rename_i a ha
      split_ifs at ha
      obtain ⟨k, -, rfl⟩ := Option.map_eq_some_iff.mp ha
      exact List.all_eq_true.mpr (fun pk hpk => hall pk (List.mem_of_mem_take hpk))
  | noop | panetiere | scheduledPanetiere | scheduledAdcnet => rfl

/-- **A body that passes `validate_structure` passes `validate_body` at every member that
agrees with its builder.** -/
theorem Agrees.validateBody (h : Agrees cfg cfg' s m clock) (hrelays : 0 < s.relayVec.length)
    {n : Nat} {round : Round}
    (hstruct : validateStructure (C := C)
      { s.buildBody cfg (List.replicate n (pinned cfg)) clock with round := round } = true) :
    m.validateBody cfg'
      { s.buildBody cfg (List.replicate n (pinned cfg)) clock with round := round } = true := by
  have hservices : m.services = s.services := congrArg Directory.services h.directory
  simp only [SchedulerCore.validateBody, Bool.and_eq_true]
  refine ⟨⟨⟨⟨⟨⟨hstruct, ?_⟩, ?_⟩, h.endpointsMatch _ round⟩, h.exchangeKeysMatch _⟩, ?_⟩, ?_⟩
  · cases hepoch : m.epochUnixMs with
    | none => rfl
    | some e => simpa [buildBody] using h.epoch e hepoch
  · simp only [List.all_eq_true, decide_eq_true_eq, hservices]
    exact fun e he => OrdMap.get?_eq_some_iff.mpr he
  · rw [h.params]
    exact C.policyEq_self _
  · exact List.all_eq_true.mpr (fun subnet hsubnet => h.validateSubnet hrelays hsubnet)

/-! ## Versions -/

/-- The checks of `on_decoded_body` that do not read the member's counters: the lead's
signature and the content. -/
def contentOk (cfg : SchedulerConfig C) (s : SchedulerCore O) (proposal : SignedProposal C) : Bool :=
  decide (proposal.proposer = cfg.lead) &&
    C.pubkeyVerify proposal.proposer proposal.body.proposeBytes proposal.signature &&
    s.validateBody cfg proposal.body

/-- Freshness. -/
def fresh (s : SchedulerCore O) (body : C.Body) : Bool :=
  s.lastAcceptedRound.all (fun last => decide (last ≤ body.round))

/-- Reachability. -/
def reachable (s : SchedulerCore O) (body : C.Body) : Bool :=
  decide (body.round ≤ s.established.saturatingAdd maxRoundAdvance)

theorem accepts_iff {proposal : SignedProposal C} : s.accepts cfg proposal = true ↔
    s.contentOk cfg proposal = true ∧ s.fresh proposal.body = true ∧
      s.reachable proposal.body = true := by
  unfold accepts contentOk fresh reachable
  simp only [Bool.and_eq_true]
  tauto

/-- The call raises the accepted version no further than the lead's own: a proposal it
accepts is not above `public_round`, and the version counter does not wrap. -/
def ownVersion (cfg : SchedulerConfig C) (s : SchedulerCore O) : SchedulerOp C → Bool
  | .decodedBody proposal =>
      !s.accepts cfg proposal || decide (proposal.body.round ≤ s.publicRound)
  | .tick .. => decide (s.publicRound.val + 1 < 18446744073709551616)
  | _ => true

/-- Every proposal the lead accepts in the run is one of its own versions. -/
def OwnVersions (O : ObserverSessions) (cfg : SchedulerConfig C) (ops : List (SchedulerOp C)) :
    Prop :=
  ∀ σ ∈ Trace.steps ops, (after O cfg σ.1).ownVersion cfg σ.2 = true

theorem lastAccepted_learnConfig (cfg : SchedulerConfig C) (s : SchedulerCore O) (body : C.Body) :
    (s.learnConfig cfg body).lastAcceptedRound = s.lastAcceptedRound :=
  (learnConfig_counters cfg s body).1

theorem lastAccepted_tryAssemble (cfg : SchedulerConfig C) (s : SchedulerCore O) (body : C.Body) :
    (s.tryAssemble cfg body).1.lastAcceptedRound = s.lastAcceptedRound := by
  unfold tryAssemble
  dsimp only
  split
  · rfl
  · split
    · rfl
    · split
      · rfl
      · split <;> rfl

theorem lastAccepted_tick (cfg : SchedulerConfig C) (s : SchedulerCore O) (round : Round)
    (now clock : U64) : (s.tick cfg round now clock).1.lastAcceptedRound = s.lastAcceptedRound := by
  have hadvance : (s.advance cfg round now).lastAcceptedRound = s.lastAcceptedRound :=
    congrArg Ledger.lastAcceptedRound (quiet_advance cfg s round now).ledger
  obtain ⟨vectors, hvectors⟩ := resizeScheduledVectors_eq cfg
    ((s.advance cfg round now).subnetProtocols cfg) (s.advance cfg round now)
  have hprimed : ((s.advance cfg round now).primed cfg clock).lastAcceptedRound =
      (s.advance cfg round now).lastAcceptedRound := by
    unfold primed
    rw [hvectors]
  unfold tick
  dsimp only
  split
  · rw [propose_eq]
    refine Eq.trans ?_ (hprimed.trans hadvance)
    unfold settled
    dsimp only
    split <;> rfl
  · exact hadvance

/-- What a call does to the accepted version: nothing, or raise it to a proposal it
accepts or to a configuration it is handed, which raises the lead's own as well. -/
theorem lastAccepted_cases (cfg : SchedulerConfig C) (s : SchedulerCore O) (op : SchedulerOp C) :
    (s.apply cfg op).lastAcceptedRound = s.lastAcceptedRound ∨
      (∃ proposal, op = .decodedBody proposal ∧ s.accepts cfg proposal = true ∧
        (s.apply cfg op).lastAcceptedRound = raise s.lastAcceptedRound proposal.body.round) ∨
      (∃ config, op = .publishedConfig config ∧
        (s.apply cfg op).lastAcceptedRound = raise s.lastAcceptedRound config.body.round ∧
        (s.apply cfg op).publicRound = max s.publicRound config.body.round) := by
  -- only a body that is accepted and a configuration that is published raise it
  cases op with
  | registration reg =>
    refine Or.inl ?_
    cases reg with
    | relay => simp only [apply, onRegistration]; split <;> rfl
    | service | watcher => rfl
  | decodedBody proposal =>
    simp only [apply, onDecodedBody]
    split_ifs with hacc
    · exact Or.inl rfl
    · refine Or.inr (Or.inl ⟨proposal, rfl, by simpa using hacc, ?_⟩)
      exact (lastAccepted_tryAssemble cfg _ _).trans (lastAccepted_learnConfig cfg _ _)
  | committeeSig sig =>
    refine Or.inl ?_
    simp only [apply, onCommitteeSig]
    split
    · rfl
    · split
      · rfl
      · split
        · rfl
        · exact lastAccepted_tryAssemble cfg _ _
  | publishedConfig config =>
    simp only [apply, onPublishedConfig]
    split_ifs
    · exact Or.inl rfl
    · exact Or.inl rfl
    · exact Or.inr (Or.inr ⟨config, rfl, lastAccepted_learnConfig cfg _ _,
        (learnConfig_counters cfg _ _).2.1⟩)
  | faultReport sender report now =>
    exact Or.inl (congrArg Ledger.lastAcceptedRound
      (quiet_onFaultReport cfg s sender report now).ledger)
  | observedFaults faults now =>
    exact Or.inl (congrArg Ledger.lastAcceptedRound
      (quiet_applyObservedFaults cfg s faults now).ledger)
  | subnetMessage subnet sender bytes =>
    exact Or.inl (congrArg Ledger.lastAcceptedRound
      (quiet_onSubnetMessage s subnet sender bytes).ledger)
  | setCoverRate rate => exact Or.inl rfl
  | tick round now clock => exact Or.inl (lastAccepted_tick cfg s round now clock)

/-- The lead's version does not fall while its counter does not wrap. -/
theorem publicRound_le_apply {op : SchedulerOp C} (h : s.ownVersion cfg op = true) :
    s.publicRound ≤ (s.apply cfg op).publicRound := by
  rcases versions_cases cfg s op with hv | ⟨config, -, -, hv⟩ | ⟨config, -, -, -, hv⟩ |
    ⟨round, now, clock, rfl, hv⟩
  · exact (congrArg Versions.publicRound hv).ge
  · rw [show (s.apply cfg op).publicRound = max s.publicRound config.body.round from
      congrArg Versions.publicRound hv]
    exact le_max_left _ _
  · exact (congrArg Versions.publicRound hv).ge
  · have hwrap : s.publicRound.val + 1 < 18446744073709551616 := of_decide_eq_true h
    have hadvance : (s.advance cfg round now).publicRound = s.publicRound :=
      congrArg Versions.publicRound (quiet_advance cfg s round now).versions
    rw [show (s.apply cfg (.tick round now clock)).publicRound = _ from
      congrArg Versions.publicRound hv, (propose_versions cfg _ clock).1]
    split
    · exact hadvance.ge
    · show s.publicRound ≤ (s.advance cfg round now).publicRound + 1
      rw [hadvance, Fin.le_def, Fin.val_add_one_of_lt' hwrap]
      omega

/-- **In a run of its own versions the lead has accepted none above its own.** -/
theorem lastAccepted_le_publicRound (ops : List (SchedulerOp C)) (hown : OwnVersions O cfg ops) :
    ∀ last ∈ (after O cfg ops).lastAcceptedRound, last ≤ (after O cfg ops).publicRound := by
  suffices h : ∀ l, l <+: ops → ∀ last ∈ (after O cfg l).lastAcceptedRound,
      last ≤ (after O cfg l).publicRound from h ops (List.prefix_refl ops)
  refine Trace.prefix_induction ?_ ?_
  · intro last hlast
    cases hlast
  · intro σ hσ ih last hlast
    have hstep := hown σ hσ
    have hle := publicRound_le_apply hstep
    rw [after_concat] at hlast ⊢
    have hraise : ∀ r : Round, raise (after O cfg σ.1).lastAcceptedRound r = some last →
        last ≤ max (after O cfg σ.1).publicRound r := by
      intro r hr
      cases hr
      refine max_le ?_ (le_max_right _ _)
      cases hold : (after O cfg σ.1).lastAcceptedRound with
      | none => exact Fin.zero_le _
      | some l => exact (ih l hold).trans (le_max_left _ _)
    rcases lastAccepted_cases cfg (after O cfg σ.1) σ.2 with h | ⟨proposal, hop, hacc, h⟩ |
      ⟨config, -, h, hpub⟩
    · rw [h] at hlast
      exact (ih last hlast).trans hle
    · rw [h] at hlast
      have hround : proposal.body.round ≤ (after O cfg σ.1).publicRound := by
        rw [hop] at hstep
        simpa [ownVersion, hacc] using hstep
      exact (hraise _ hlast).trans ((max_eq_left hround).le.trans hle)
    · rw [h] at hlast
      rw [hpub]
      exact hraise _ hlast

/-! ## The lead's proposal -/

/-- What the lead's tick leaves behind, from the state it builds its body in. -/
theorem tick_of_stages {ops : List (SchedulerOp C)} {round : Round} {now : U64}
    (h : cfg.isLead = true ∧ ((after O cfg ops).advance cfg round now).aboveFloors cfg = true) :
    after O cfg (ops ++ [.tick round now clock]) =
      ((after O cfg ops).advance cfg round now).settled cfg clock := by
  rw [after_concat]
  simp only [apply, tick, h.1, h.2, Bool.and_self, if_true, propose_eq]

theorem settled_frame (cfg : SchedulerConfig C) (s : SchedulerCore O) (clock : U64) :
    (s.settled cfg clock).registered = (s.primed cfg clock).registered ∧
      (s.settled cfg clock).sidelined = (s.primed cfg clock).sidelined ∧
      (s.settled cfg clock).epochUnixMs = (s.primed cfg clock).epochUnixMs := by
  unfold settled
  dsimp only
  split <;> exact ⟨rfl, rfl, rfl⟩

theorem relays_of_aboveFloors (hmin : 1 ≤ cfg.params.minRelays) (h : s.aboveFloors cfg = true) :
    0 < s.relayVec.length := by
  have hsize : 0 < s.registered.size := by
    unfold aboveFloors at h
    simp only [Bool.and_eq_true, Bool.or_eq_true, decide_eq_true_eq] at h
    omega
  unfold relayVec OrdMap.keys
  rw [List.length_take, List.length_map]
  exact lt_min (by decide) hsize

/-- Who ingests the same registrations has the same directory. -/
theorem directory_of_ingested {ops ops' : List (SchedulerOp C)}
    (h : ingested O cfg' ops' = ingested O cfg ops) :
    (after O cfg' ops').directory = (after O cfg ops).directory := by
  have hmember := (directory_after (O := O) cfg' ops').1
  rw [h] at hmember
  exact hmember.unique (directory_after cfg ops).1

/-- Members with the same directory have heard of the same relays. -/
theorem isSome_latestRelay_congr {ops ops' : List (SchedulerOp C)}
    (h : (after O cfg' ops').directory = (after O cfg ops).directory) (pk : Pubkey) :
    (latestRelay (ingested O cfg' ops') pk).isSome =
      (latestRelay (ingested O cfg ops) pk).isSome := by
  have hmember := (directory_after (O := O) cfg' ops').1.relayXpubs pk
  rw [h, (directory_after (O := O) cfg ops).1.relayXpubs pk] at hmember
  simpa using (congrArg Option.isSome hmember).symm

/-- **A member with the lead's directory, held-out relays and epoch agrees with it.** -/
theorem agrees_after {ops ops' : List (SchedulerOp C)} {round : Round} {now : U64}
    (hlead : cfg.isLead = true ∧ ((after O cfg ops).advance cfg round now).aboveFloors cfg = true)
    (hparams : cfg'.params = cfg.params)
    (hregs : (after O cfg' ops').directory = (after O cfg ops).directory)
    (hside : (after O cfg' ops').sidelined =
      (after O cfg (ops ++ [.tick round now clock])).sidelined)
    (hepoch : (after O cfg' ops').epochUnixMs =
      (after O cfg (ops ++ [.tick round now clock])).epochUnixMs) :
    Agrees cfg cfg' (((after O cfg ops).advance cfg round now).primed cfg clock) (after O cfg' ops')
      clock := by
  obtain ⟨hreg, hsided, hepoched⟩ :=
    settled_frame cfg ((after O cfg ops).advance cfg round now) clock
  rw [← tick_of_stages hlead] at hreg hsided hepoched
  have hquiet := (quiet_advance cfg (after O cfg ops) round now).trans
    (quiet_resizeScheduledVectors cfg _
      (((after O cfg ops).advance cfg round now).subnetProtocols cfg))
  have hdir : (((after O cfg ops).advance cfg round now).primed cfg clock).directory =
      (after O cfg ops).directory := congrArg Ledger.directory hquiet.ledger
  have hsame : ingested O cfg (ops ++ [.tick round now clock]) = ingested O cfg ops := by
    rw [ingested_concat]
    exact List.append_nil _
  have hstates := (directory_after (O := O) cfg ops).1
  have hknown : ∀ {pk}, (((after O cfg ops).advance cfg round now).primed cfg
      clock).registered.contains pk = true → (latestRelay (ingested O cfg ops) pk).isSome := by
    intro pk hpk
    rw [← hreg, registered_after, hsame] at hpk
    exact hpk.1
  refine ⟨hparams, hregs.trans hdir.symm, ?_, ?_, ?_⟩
  · intro pk hpk
    rw [← hreg, registered_after, hsame] at hpk
    rw [registered_after, isSome_latestRelay_congr hregs, hside]
    exact hpk
  · intro pk hpk
    obtain ⟨statement, hstatement⟩ := Option.isSome_iff_exists.mp (hknown hpk)
    refine ⟨statement.exchangePubkey, ?_⟩
    have hget := hstates.relayXpubs pk
    rw [hstatement] at hget
    exact (congrArg (fun d => d.relayXpubs.get? pk) hdir).trans hget
  · intro e he
    rw [hepoch, hepoched] at he
    rw [show (((after O cfg ops).advance cfg round now).primed cfg clock).epochUnixMs = some e from he]
    rfl

/-- What the lead stages passes the content checks of every member that agrees. -/
theorem contentOk_of_agrees {ops : List (SchedulerOp C)} {round : Round} {now : U64}
    {proposal : SignedProposal C} (hmin : 1 ≤ cfg.params.minRelays)
    (hlimits : (((after O cfg ops).advance cfg round now).primed cfg clock).WithinLimits cfg)
    (hfloors : ((after O cfg ops).advance cfg round now).aboveFloors cfg = true)
    (hstage : .stageProposal proposal ∈
      (((after O cfg ops).advance cfg round now).propose cfg clock).2)
    (hlead : cfg'.lead = cfg.ourPk)
    (h : Agrees cfg cfg' (((after O cfg ops).advance cfg round now).primed cfg clock) m clock) :
    m.contentOk cfg' proposal = true := by
  obtain ⟨hsized, hhi⟩ := sized_advance cfg (sized_after O cfg ops) round now
  generalize hs : (after O cfg ops).advance cfg round now = s at *
  obtain ⟨vectors, hvectors⟩ := resizeScheduledVectors_eq cfg (s.subnetProtocols cfg) s
  have hprimed : (s.primed cfg clock).sizes = s.sizes ∧
      (s.primed cfg clock).relayVec = s.relayVec := by
    unfold primed
    rw [hvectors]
    exact ⟨rfl, rfl⟩
  obtain ⟨hcap, hcount⟩ := Prod.mk.inj hprimed.1
  have hrelays : 0 < (s.primed cfg clock).relayVec.length := by
    rw [hprimed.2]
    exact relays_of_aboveFloors hmin hfloors
  have hstruct := validateStructure_buildBody hlimits (hsized.congr hprimed.1) (hcap ▸ hhi) hrelays
    (s.settled cfg clock).publicRound clock
  have hbody := h.validateBody hrelays hstruct
  rw [hcount] at hbody
  rw [staged_eq hstage]
  simp only [contentOk, Bool.and_eq_true, decide_eq_true_eq]
  exact ⟨⟨hlead.symm, C.pubkeyVerify_idSign _ _⟩, hbody⟩

/-- **The lead's own proposal is acceptable.**  Within the limits, and with a floor of one
relay at least, it passes the signature and content checks of the lead and of every
member of its committee with its parameters, its directory, its held-out relays and
its epoch.  Such a member accepts it exactly when its counters let the version pass; at
the lead only freshness can fail, and not in a run of the lead's own versions. -/
theorem own_proposal_acceptable (cfg : SchedulerConfig C) (ops : List (SchedulerOp C))
    (round : Round) (now clock : U64) (proposal : SignedProposal C)
    (hmin : 1 ≤ cfg.params.minRelays)
    (hlimits : (((after O cfg ops).advance cfg round now).primed cfg clock).WithinLimits cfg)
    (hstage : .stageProposal proposal ∈ (after O cfg ops).actions cfg (.tick round now clock)) :
    (∀ (cfg' : SchedulerConfig C) (ops' : List (SchedulerOp C)),
      cfg'.params = cfg.params → cfg'.committee = cfg.committee →
      cfg'.ourPk ∈ cfg'.committee →
      (after O cfg' ops').directory = (after O cfg ops).directory →
      (after O cfg' ops').sidelined =
        (after O cfg (ops ++ [.tick round now clock])).sidelined →
      (after O cfg' ops').epochUnixMs =
        (after O cfg (ops ++ [.tick round now clock])).epochUnixMs →
      (after O cfg' ops').contentOk cfg' proposal = true ∧
        ((after O cfg' ops').accepts cfg' proposal = true ↔
          (after O cfg' ops').fresh proposal.body = true ∧
            (after O cfg' ops').reachable proposal.body = true)) ∧
    (after O cfg (ops ++ [.tick round now clock])).contentOk cfg proposal = true ∧
    (after O cfg (ops ++ [.tick round now clock])).reachable proposal.body = true ∧
    (OwnVersions O cfg (ops ++ [.tick round now clock]) →
      (after O cfg (ops ++ [.tick round now clock])).accepts cfg proposal = true) := by
  obtain ⟨_, _, _, hop, hlead, hfloors, hpropose⟩ := tick_of_stageProposal hstage
  cases hop
  have hourPk : cfg.lead = cfg.ourPk := eq_of_beq hlead
  have hround : proposal.body.round =
      (after O cfg (ops ++ [.tick round now clock])).publicRound := by
    rw [tick_of_stages ⟨hlead, hfloors⟩, staged_eq hpropose]
    rfl
  -- a tick takes in no registration
  have hsame : ingested O cfg (ops ++ [.tick round now clock]) = ingested O cfg ops := by
    rw [ingested_concat]
    exact List.append_nil _
  have hcontent : (after O cfg (ops ++ [.tick round now clock])).contentOk cfg proposal = true :=
    contentOk_of_agrees hmin hlimits hfloors hpropose hourPk
      (agrees_after ⟨hlead, hfloors⟩ rfl (directory_of_ingested hsame) rfl rfl)
  -- the version is the public round of the lead, which no bound on versions lies below
  have hreach : (after O cfg (ops ++ [.tick round now clock])).reachable proposal.body = true := by
    unfold reachable established
    rw [hround, decide_eq_true_eq]
    exact le_saturatingAdd ((le_max_right _ _).trans (le_max_left _ _)) _
  refine ⟨?_, hcontent, hreach, ?_⟩
  · intro cfg' ops' hparams hcommittee hmem hregs hside hepoch
    -- equal committees have one lead; a member's is not empty, so no default comes in
    have hlead' : cfg'.lead = cfg.ourPk := by
      rw [← hourPk]
      unfold SchedulerConfig.lead
      rw [hcommittee] at hmem ⊢
      have hne : cfg.committee.insertionSort (· ≤ ·) ≠ [] := by
        intro he
        have hperm := List.perm_insertionSort (· ≤ ·) cfg.committee
        rw [he] at hperm
        rw [hperm.symm.eq_nil] at hmem
        cases hmem
      cases hsort : cfg.committee.insertionSort (· ≤ ·) with
      | nil => exact absurd hsort hne
      | cons lead rest => rfl
    have hok := contentOk_of_agrees hmin hlimits hfloors hpropose hlead'
      (agrees_after ⟨hlead, hfloors⟩ hparams hregs hside hepoch)
    refine ⟨hok, ?_⟩
    rw [accepts_iff]
    exact ⟨fun h => h.2, fun h => ⟨hok, h⟩⟩
  · intro hown
    refine accepts_iff.mpr ⟨hcontent, ?_, hreach⟩
    unfold fresh
    rw [hround]
    cases hlast : (after O cfg (ops ++ [.tick round now clock])).lastAcceptedRound with
    | none => rfl
    | some last =>
      simpa using lastAccepted_le_publicRound _ hown last hlast

/-- What a lead stages in a tick after a run. -/
def ownProposal (O : ObserverSessions) (cfg : SchedulerConfig C) (ops : List (SchedulerOp C))
    (round : Round) (now clock : U64) : SignedProposal C :=
  let s := (after O cfg ops).advance cfg round now
  proposalOf cfg.identity
    { s.nextBody cfg clock with round := (s.settled cfg clock).publicRound }

theorem stages_ownProposal (cfg : SchedulerConfig C) (ops : List (SchedulerOp C)) (round : Round)
    (now clock : U64) (hlead : cfg.isLead = true)
    (hfloors : ((after O cfg ops).advance cfg round now).aboveFloors cfg = true)
    (hnone : (after O cfg ops).publishedRound = none) :
    .stageProposal (ownProposal O cfg ops round now clock) ∈
      (after O cfg ops).actions cfg (.tick round now clock) := by
  obtain ⟨proposal, hproposal⟩ := stages_of_unpublished cfg (after O cfg ops) round now clock hlead
    hfloors hnone
  obtain ⟨_, _, _, hop, -, -, hstage⟩ := tick_of_stageProposal hproposal
  cases hop
  have heq : proposal = ownProposal O cfg ops round now clock := staged_eq hstage
  exact heq ▸ hproposal

/-- What the toy lead stages once a relay and a service are there. -/
def firstProposal : SignedProposal toyScheduler :=
  ownProposal toyObservers (toyMember 1) (addressedRun [1]) 1 1000 1000

theorem stages_firstProposal : .stageProposal firstProposal ∈
    (after toyObservers (toyMember 1) (addressedRun [1])).actions (toyMember 1)
      (.tick 1 1000 1000) :=
  stages_ownProposal (toyMember 1) (addressedRun [1]) 1 1000 1000 (by decide +kernel)
    (by decide +kernel) rfl

theorem withinLimits_first :
    (((after toyObservers (toyMember 1) (addressedRun [1])).advance (toyMember 1) 1 1000).primed
      (toyMember 1) 1000).WithinLimits (toyMember 1) where
  duration := by decide +kernel
  messageSize := by decide +kernel
  scheduledSize := by decide +kernel
  auctionedSize := by decide +kernel
  coverRate := by decide +kernel
  cadence := fun _ => by decide +kernel
  wire := by decide +kernel

/-- The registrations, and a version at the lead's epoch published. -/
def newerRun : List (SchedulerOp toyScheduler) :=
  addressedRun [1] ++ [.publishedConfig (toyPublished otherVersion)]

/-- A lead that asks for no relay. -/
def unstaffedLead : SchedulerConfig toyScheduler :=
  { toyMember 1 with params := { toySchedulerParams with minRelays := 0 } }

/-- The lead after a restart: a proposal of its own from before, at version 3, comes back. -/
def restartedRun : List (SchedulerOp toyScheduler) :=
  addressedRun [1] ++
    [.decodedBody (proposalOf (toyNode 1) { firstProposal.body with round := 3 })]

/-- **Three proposals of the lead that are rejected**: by a member with its registrations,
held-out relays and epoch that has seen newer versions; by the lead itself, when its
floor of relays is zero and none is there; and by the lead itself, once it has accepted a
later version under its own key. -/
theorem own_proposal_rejected :
    (.stageProposal firstProposal ∈
        (after toyObservers (toyMember 1) (addressedRun [1])).actions (toyMember 1)
          (.tick 1 1000 1000) ∧
      (((after toyObservers (toyMember 1) (addressedRun [1])).advance (toyMember 1) 1 1000).primed
        (toyMember 1) 1000).WithinLimits (toyMember 1) ∧
      (toyMember 2).params = (toyMember 1).params ∧
      (toyMember 2).committee = (toyMember 1).committee ∧
      (after toyObservers (toyMember 2) newerRun).directory =
        (after toyObservers (toyMember 1) (addressedRun [1])).directory ∧
      (after toyObservers (toyMember 2) newerRun).sidelined =
        (after toyObservers (toyMember 1) (addressedRun [1] ++ [.tick 1 1000 1000])).sidelined ∧
      (after toyObservers (toyMember 2) newerRun).epochUnixMs =
        (after toyObservers (toyMember 1) (addressedRun [1] ++ [.tick 1 1000 1000])).epochUnixMs ∧
      (after toyObservers (toyMember 2) newerRun).fresh firstProposal.body = false) ∧
    (.stageProposal (ownProposal toyObservers unstaffedLead [.registration signedService] 1 1000 1000) ∈
        (after toyObservers unstaffedLead [.registration signedService]).actions unstaffedLead
          (.tick 1 1000 1000) ∧
      (after toyObservers unstaffedLead
        [.registration signedService, .tick 1 1000 1000]).contentOk unstaffedLead
          (ownProposal toyObservers unstaffedLead [.registration signedService] 1 1000 1000) =
        false) ∧
    (.stageProposal (ownProposal toyObservers (toyMember 1) restartedRun 1 1000 1000) ∈
        (after toyObservers (toyMember 1) restartedRun).actions (toyMember 1) (.tick 1 1000 1000) ∧
      (after toyObservers (toyMember 1) (restartedRun ++ [.tick 1 1000 1000])).fresh
        (ownProposal toyObservers (toyMember 1) restartedRun 1 1000 1000).body = false) := by
  refine ⟨⟨stages_firstProposal, withinLimits_first, rfl, rfl,
    directory_of_ingested (by decide +kernel),
    OrdMap.ext_entries (by decide +kernel), by decide +kernel, by decide +kernel⟩, ⟨?_, ?_⟩, ?_, ?_⟩
  · exact stages_ownProposal unstaffedLead _ 1 1000 1000 (by decide +kernel) (by decide +kernel)
      (by decide +kernel)
  · decide +kernel
  · exact stages_ownProposal (toyMember 1) _ 1 1000 1000 (by decide +kernel) (by decide +kernel)
      (by decide +kernel)
  · decide +kernel

/-- A member that has seen no newer version accepts the lead's first proposal. -/
theorem own_proposal_acceptable_toy :
    (after toyObservers (toyMember 2) (addressedRun [1] ++
        [.publishedConfig (toyPublished { otherVersion with round := 1 })])).accepts (toyMember 2)
      firstProposal = true := by
  have hown := own_proposal_acceptable (toyMember 1) (addressedRun [1]) 1 1000 1000 firstProposal
    (by decide) withinLimits_first stages_firstProposal
  exact (hown.1 (toyMember 2) _ rfl rfl (by decide +kernel)
    (directory_of_ingested (by decide +kernel)) (OrdMap.ext_entries (by decide +kernel)) (by decide +kernel)).2.mpr
      ⟨by decide +kernel, by decide +kernel⟩

end SchedulerCore
end Anymone
