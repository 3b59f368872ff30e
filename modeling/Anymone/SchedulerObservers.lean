import Anymone.SchedulerSizing

/-! # Observers across configurations

A core keeps one observer for each subnet of the configuration it last learned.  Learning the
next one leaves the observer of an unchanged subnet alone, starts a fresh one with a grace for
every other subnet, and drops the rest.  A grace counter is only ever found above zero, and while
there is one its observer's faults are not applied.
-/

namespace OrdMap
variable {K V : Type} [LinearOrder K]

/-- A list of distinct keys, inserted in any order. -/
theorem get?_insertAll_of_nodup {k : K} {v : V} : ∀ {l : List (K × V)} (m : OrdMap K V),
    (l.map Prod.fst).Nodup → (k, v) ∈ l → (m.insertAll l).get? k = some v
  | (k', v') :: l, m, hnd, h => by
      obtain ⟨hnot, hnd⟩ := List.nodup_cons.mp hnd
      show ((m.insert k' v').insertAll l).get? k = some v
      rcases List.mem_cons.mp h with h | h
      · cases h
        rw [get?_insertAll_of_not_mem _
          (fun w hw => hnot (List.mem_map.mpr ⟨(k, w), hw, rfl⟩)), get?_insert, if_pos rfl]
      · exact get?_insertAll_of_nodup _ hnd h

end OrdMap

namespace Anymone
namespace SchedulerCore
variable {C : SchedulerCrate} {O : ObserverSessions} {cfg : SchedulerConfig C} {s : SchedulerCore O}

/-! ## Taking over one subnet after another -/

section TakeOver
variable {prev : OrdMap SubnetId (List Pubkey × SchedulerProtocol)} {faultThreshold : U64}
  {t : Takeover O}

/-- Taking over one subnet touches that one only. -/
theorem takeOver_frame (prev : OrdMap SubnetId (List Pubkey × SchedulerProtocol))
    (faultThreshold : U64) (t : Takeover O) (e : SubnetSig) {id : SubnetId} (hne : id ≠ e.1) :
    (takeOver prev faultThreshold t e).old.get? id = t.old.get? id ∧
      (takeOver prev faultThreshold t e).observers.get? id = t.observers.get? id ∧
      (takeOver prev faultThreshold t e).grace.get? id = t.grace.get? id := by
  obtain ⟨id', roster, proto⟩ := e
  unfold takeOver
  dsimp only at hne ⊢
  generalize (if prev.get? id' = some (roster, proto) then t.old.get? id' else none) = kept
  cases kept with
  | some o => exact ⟨by simp [hne], by simp [hne], rfl⟩
  | none =>
    cases (leaderOf roster id').map (buildObserver proto roster · faultThreshold) with
    | some o => exact ⟨rfl, by simp [hne], by simp [hne]⟩
    | none => exact ⟨rfl, rfl, rfl⟩

/-- An unchanged subnet keeps its observer and its grace. -/
theorem takeOver_kept {e : SubnetSig} {o : PublicObserver O} (hprev : prev.get? e.1 = some e.2)
    (hold : t.old.get? e.1 = some o) :
    (takeOver prev faultThreshold t e).observers.get? e.1 = some o ∧
      (takeOver prev faultThreshold t e).grace.get? e.1 = t.grace.get? e.1 := by
  obtain ⟨id, roster, proto⟩ := e
  unfold takeOver
  dsimp only at hprev hold ⊢
  rw [if_pos hprev, hold]
  exact ⟨by simp, rfl⟩

/-- Any other subnet gets a fresh observer and a grace. -/
theorem takeOver_fresh {e : SubnetSig} {leader : Pubkey} (hprev : prev.get? e.1 ≠ some e.2)
    (hleader : leaderOf e.2.1 e.1 = some leader) :
    (takeOver prev faultThreshold t e).observers.get? e.1 =
        some (buildObserver e.2.2 e.2.1 leader faultThreshold) ∧
      (takeOver prev faultThreshold t e).grace.get? e.1 = some observerFaultGrace := by
  obtain ⟨id, roster, proto⟩ := e
  unfold takeOver
  dsimp only at hprev hleader ⊢
  rw [if_neg hprev, hleader]
  exact ⟨by simp, by simp⟩

/-- What the takeover of a whole subnet set makes of the observers and the graces. -/
structure TakenOver (prev : OrdMap SubnetId (List Pubkey × SchedulerProtocol))
    (faultThreshold : U64) (sig : List SubnetSig) (t t' : Takeover O) : Prop where
  outside : ∀ id, id ∉ sig.map Prod.fst →
    t'.observers.get? id = t.observers.get? id ∧ t'.grace.get? id = t.grace.get? id
  kept : ∀ e ∈ sig, prev.get? e.1 = some e.2 →
    t'.observers.get? e.1 = t.old.get? e.1 ∧ t'.grace.get? e.1 = t.grace.get? e.1
  fresh : ∀ e ∈ sig, prev.get? e.1 ≠ some e.2 → ∃ leader, leaderOf e.2.1 e.1 = some leader ∧
    t'.observers.get? e.1 = some (buildObserver e.2.2 e.2.1 leader faultThreshold) ∧
    t'.grace.get? e.1 = some observerFaultGrace

/-- **The takeover of a subnet set**: the induction is on the set, each of whose subnets is taken
over once. -/
theorem takenOver_foldl : ∀ {sig : List SubnetSig} {t : Takeover O},
    (∀ e ∈ sig, (leaderOf e.2.1 e.1).isSome) → (sig.map Prod.fst).Nodup →
      (∀ e ∈ sig, prev.get? e.1 = some e.2 → (t.old.get? e.1).isSome) →
        TakenOver prev faultThreshold sig t (sig.foldl (takeOver prev faultThreshold) t)
  | [], t, _, _, _ => ⟨fun _ _ => ⟨rfl, rfl⟩, by simp, by simp⟩
  | e :: sig, t, hleaders, hnd, hold => by
    obtain ⟨hnot, hnd⟩ := List.nodup_cons.mp hnd
    have hne : ∀ e' ∈ sig, e'.1 ≠ e.1 :=
      fun e' he' heq => hnot (heq ▸ List.mem_map_of_mem he')
    have hrest : TakenOver prev faultThreshold sig (takeOver prev faultThreshold t e) _ :=
      takenOver_foldl (fun e' he' => hleaders e' (List.mem_cons_of_mem _ he')) hnd (by
        intro e' he' hprev
        rw [(takeOver_frame prev faultThreshold t e (hne e' he')).1]
        exact hold e' (List.mem_cons_of_mem _ he') hprev)
    rw [List.foldl_cons]
    refine ⟨?_, ?_, ?_⟩
    · intro id hid
      have hout : id ≠ e.1 ∧ id ∉ sig.map Prod.fst := by simpa using hid
      obtain ⟨hobs, hgrace⟩ := hrest.outside id hout.2
      obtain ⟨-, hobs', hgrace'⟩ := takeOver_frame prev faultThreshold t e hout.1
      exact ⟨hobs.trans hobs', hgrace.trans hgrace'⟩
    · intro e' he' hprev
      rcases List.mem_cons.mp he' with rfl | hmem
      · -- the rest of the set does not touch the subnet again
        obtain ⟨hobs, hgrace⟩ := hrest.outside e'.1 hnot
        obtain ⟨o, ho⟩ := Option.isSome_iff_exists.mp (hold e' he' hprev)
        rw [hobs, hgrace, ho]
        exact takeOver_kept hprev ho
      · obtain ⟨hobs, hgrace⟩ := hrest.kept e' hmem hprev
        obtain ⟨hold', -, hgrace'⟩ := takeOver_frame prev faultThreshold t e (hne e' hmem)
        exact ⟨hobs.trans hold', hgrace.trans hgrace'⟩
    · intro e' he' hprev
      rcases List.mem_cons.mp he' with rfl | hmem
      · obtain ⟨hobs, hgrace⟩ := hrest.outside e'.1 hnot
        obtain ⟨leader, hleader⟩ := Option.isSome_iff_exists.mp (hleaders e' he')
        rw [hobs, hgrace]
        exact ⟨leader, hleader, takeOver_fresh hprev hleader⟩
      · exact hrest.fresh e' hmem hprev

end TakeOver

/-! ## Learning a configuration -/

/-- The core watches the subnets of the configuration it knows: one observer for each, and graces
of theirs that are not yet over. -/
structure Watches (s : SchedulerCore O) : Prop where
  unique : (s.currentSubnetsSig.map Prod.fst).Nodup
  observed : ∀ id, (s.observers.get? id).isSome ↔ id ∈ s.currentSubnetsSig.map Prod.fst
  graced : ∀ id g, s.observerGrace.get? id = some g →
    id ∈ s.currentSubnetsSig.map Prod.fst ∧ 1 ≤ g ∧ g ≤ observerFaultGrace

/-- What learning the subnets of a body does to the observers and their graces. -/
structure Diff (cfg : SchedulerConfig C) (subnets : List Subnet) (s s' : SchedulerCore O) :
    Prop where
  /-- A subnet whose id, sorted roster and kind were there already. -/
  kept : ∀ subnet ∈ subnets, subnetSig subnet ∈ s.currentSubnetsSig →
    (s.observers.get? subnet.id).isSome ∧
    s'.observers.get? subnet.id = s.observers.get? subnet.id ∧
    s'.observerGrace.get? subnet.id = s.observerGrace.get? subnet.id
  /-- Any other subnet of the body. -/
  fresh : ∀ subnet ∈ subnets, subnetSig subnet ∉ s.currentSubnetsSig →
    ∃ leader, leaderOf (subnet.relays.insertionSort (· ≤ ·)) subnet.id = some leader ∧
    s'.observers.get? subnet.id = some (buildObserver subnet.protocol.protoKind
      (subnet.relays.insertionSort (· ≤ ·)) leader cfg.params.faultThreshold) ∧
    s'.observerGrace.get? subnet.id = some observerFaultGrace
  dropped : ∀ id, id ∉ subnets.map Subnet.id →
    s'.observers.get? id = none ∧ s'.observerGrace.get? id = none

theorem map_fst_subnetSig (subnets : List Subnet) :
    (subnets.map subnetSig).map Prod.fst = subnets.map Subnet.id := by
  rw [List.map_map]
  rfl

/-- **The difference of two configurations.** -/
theorem Watches.diff (cfg : SchedulerConfig C) (h : s.Watches) {body : C.Body}
    (hvalid : validateStructure body = true) :
    Diff cfg body.subnets s (s.learnConfig cfg body) := by
  have hids : (body.subnets.map Subnet.id).Nodup := by
    unfold validateStructure at hvalid
    simp only [Bool.and_eq_true, decide_eq_true_eq] at hvalid
    exact hvalid.1.1.1.2
  have hleaders : ∀ subnet ∈ body.subnets,
      (leaderOf (subnet.relays.insertionSort (· ≤ ·)) subnet.id).isSome := by
    intro subnet hsubnet
    have hok := subnetStructureOk_of_mem hvalid hsubnet
    have hne : subnet.relays ≠ [] := by
      unfold subnetStructureOk at hok
      simp only [Bool.and_eq_true] at hok
      simpa using hok.1.1.1.1.1.1
    have hpos : 0 < (subnet.relays.insertionSort (· ≤ ·)).length := by
      rw [List.length_insertionSort]
      exact List.length_pos_of_ne_nil hne
    unfold leaderOf
    rw [List.getElem?_eq_getElem (Nat.mod_lt _ hpos)]
    rfl
  have hobserved : ∀ subnet : Subnet, subnetSig subnet ∈ s.currentSubnetsSig →
      (s.observers.get? subnet.id).isSome := by
    intro subnet hmem
    exact (h.observed subnet.id).mpr (List.mem_map_of_mem hmem)
  by_cases hsame : body.subnets.map subnetSig = s.currentSubnetsSig
  · -- a known subnet set
    obtain ⟨hobs, hgrace⟩ := learnConfig_observers cfg hsame
    rw [← map_fst_subnetSig, hsame] at hids
    refine ⟨fun subnet _ hmem => ?_, fun subnet hsubnet hnot => ?_, fun id hid => ?_⟩
    · rw [hobs, hgrace]
      exact ⟨hobserved subnet hmem, rfl, rfl⟩
    · exact absurd (hsame ▸ List.mem_map_of_mem hsubnet) hnot
    · rw [← map_fst_subnetSig, hsame] at hid
      rw [hobs, hgrace]
      refine ⟨Option.eq_none_iff_forall_not_mem.mpr fun o ho => ?_,
        Option.eq_none_iff_forall_not_mem.mpr fun g hg => hid (h.graced id g hg).1⟩
      exact hid ((h.observed id).mp (by rw [Option.mem_def.mp ho]; rfl))
  · -- a new one is taken over subnet by subnet
    rw [← map_fst_subnetSig] at hids
    -- the signatures of the previous configuration, read back from the map built of them
    have hprev : ∀ e : SubnetSig,
        (OrdMap.empty.insertAll s.currentSubnetsSig).get? e.1 = some e.2 ↔
          e ∈ s.currentSubnetsSig := by
      intro e
      constructor
      · intro hget
        rcases OrdMap.get?_insertAll_cases _ hget with hnone | hmem
        · cases hnone
        · exact hmem
      · exact fun hmem => OrdMap.get?_insertAll_of_nodup _ h.unique hmem
    have htaken : TakenOver (OrdMap.empty.insertAll s.currentSubnetsSig) cfg.params.faultThreshold
        (body.subnets.map subnetSig) ⟨s.observers, .empty, s.observerGrace⟩ _ :=
      takenOver_foldl (List.forall_mem_map.mpr hleaders) hids
      (fun e he hget => (h.observed e.1).mpr (List.mem_map_of_mem ((hprev e).mp hget)))
    have hlearn : s.learnConfig cfg body = rebuildObservers cfg
        { s with
          epochUnixMs := some body.epochUnixMs
          subnetRoundMs := OrdMap.empty.insertAll
            (body.subnets.map (fun s => (s.id, s.protocol.roundDurationMs))) }
        (body.subnets.map subnetSig) := by
      unfold learnConfig
      dsimp only
      rw [if_neg hsame]
    generalize ht : (body.subnets.map subnetSig).foldl (takeOver
      (OrdMap.empty.insertAll s.currentSubnetsSig) cfg.params.faultThreshold)
        ⟨s.observers, .empty, s.observerGrace⟩ = t at htaken
    have hobs : (s.learnConfig cfg body).observers = t.observers := by
      rw [hlearn, ← ht]
      rfl
    -- graces of subnets that are gone are dropped at the end
    have hgrace : ∀ id, (s.learnConfig cfg body).observerGrace.get? id =
        if id ∈ body.subnets.map Subnet.id then t.grace.get? id else none := by
      intro id
      have hretain : (s.learnConfig cfg body).observerGrace =
          t.grace.retain (fun id _ => (body.subnets.map subnetSig).any (fun e => e.1 = id)) := by
        rw [hlearn, ← ht]
        rfl
      have hany : (body.subnets.map subnetSig).any (fun e => e.1 = id) =
          decide (id ∈ body.subnets.map Subnet.id) := by
        rw [← map_fst_subnetSig, Bool.eq_iff_iff, List.any_eq_true, decide_eq_true_eq,
          List.mem_map]
        simp
      rw [hretain, OrdMap.get?_retain, hany]
      cases t.grace.get? id with
      | none => simp
      | some g =>
        by_cases hid : id ∈ body.subnets.map Subnet.id
        · rw [decide_eq_true hid, if_pos hid]
          rfl
        · rw [decide_eq_false hid, if_neg hid]
          rfl
    refine ⟨fun subnet hsubnet hmem => ?_, fun subnet hsubnet hnot => ?_, fun id hid => ?_⟩
    · obtain ⟨hobs', hgrace'⟩ := htaken.kept _ (List.mem_map_of_mem hsubnet) ((hprev _).mpr hmem)
      rw [hgrace, if_pos (List.mem_map_of_mem hsubnet), hobs]
      exact ⟨hobserved subnet hmem, hobs', hgrace'⟩
    · obtain ⟨leader, hleader, hobs', hgrace'⟩ := htaken.fresh _ (List.mem_map_of_mem hsubnet)
        (fun hget => hnot ((hprev _).mp hget))
      rw [hgrace, if_pos (List.mem_map_of_mem hsubnet), hobs]
      exact ⟨leader, hleader, hobs', hgrace'⟩
    · rw [hgrace, if_neg hid, hobs]
      rw [← map_fst_subnetSig] at hid
      exact ⟨(htaken.outside id hid).1, rfl⟩

/-- The core watches the subnets of the configuration it has learned. -/
theorem Watches.learnConfig (h : s.Watches) {body : C.Body}
    (hvalid : validateStructure body = true) : (s.learnConfig cfg body).Watches := by
  have hdiff := h.diff cfg hvalid
  have hsig := (learnConfig_learns cfg s body).2.2
  have hids : (body.subnets.map Subnet.id).Nodup := by
    unfold validateStructure at hvalid
    simp only [Bool.and_eq_true, decide_eq_true_eq] at hvalid
    exact hvalid.1.1.1.2
  refine ⟨?_, ?_, ?_⟩
  · rw [hsig, map_fst_subnetSig]
    exact hids
  · intro id
    rw [hsig, map_fst_subnetSig]
    constructor
    · intro hsome
      by_contra hid
      rw [(hdiff.dropped id hid).1] at hsome
      cases hsome
    · intro hid
      obtain ⟨subnet, hsubnet, rfl⟩ := List.mem_map.mp hid
      by_cases hmem : subnetSig subnet ∈ s.currentSubnetsSig
      · obtain ⟨hsome, hobs, -⟩ := hdiff.kept subnet hsubnet hmem
        rwa [hobs]
      · obtain ⟨leader, -, hobs, -⟩ := hdiff.fresh subnet hsubnet hmem
        rw [hobs]
        rfl
  · intro id g hg
    rw [hsig, map_fst_subnetSig]
    by_cases hid : id ∈ body.subnets.map Subnet.id
    · refine ⟨hid, ?_⟩
      obtain ⟨subnet, hsubnet, rfl⟩ := List.mem_map.mp hid
      by_cases hmem : subnetSig subnet ∈ s.currentSubnetsSig
      · rw [(hdiff.kept subnet hsubnet hmem).2.2] at hg
        exact (h.graced _ g hg).2
      · obtain ⟨leader, -, -, hgrace⟩ := hdiff.fresh subnet hsubnet hmem
        rw [hgrace] at hg
        cases hg
        exact ⟨by decide, le_rfl⟩
    · rw [(hdiff.dropped id hid).2] at hg
      cases hg

/-! ## Ticks -/

/-- A grace one tick later. -/
def countDown (g : Nat) : Option Nat := if g = 1 then none else some (g - 1)

theorem endObserverRound_at (cfg : SchedulerConfig C) (round : Round) (now : U64)
    (s : SchedulerCore O) {id : SubnetId} (h : (s.observers.get? id).isSome) :
    ((s.endObserverRound cfg round now id).observers.get? id).isSome ∧
      (s.endObserverRound cfg round now id).observerGrace.get? id =
        (s.observerGrace.get? id).bind countDown := by
  obtain ⟨o, ho⟩ := Option.isSome_iff_exists.mp h
  unfold endObserverRound countDown
  rw [ho]
  dsimp only
  cases hg : s.observerGrace.get? id with
  | some g =>
    dsimp only
    refine ⟨by simp, ?_⟩
    rw [Option.bind_some]
    split_ifs <;> simp
  | none =>
    dsimp only
    rw [(rosterOnly_applyObservedFaults cfg _ _ now).observers,
      (rosterOnly_applyObservedFaults cfg _ _ now).observerGrace]
    exact ⟨by simp, hg⟩

/-- The observers' ends of round count every grace down once. -/
theorem foldl_endObserverRound_grace (cfg : SchedulerConfig C) (round : Round) (now : U64) :
    ∀ {ids : List SubnetId} {t : SchedulerCore O}, ids.Nodup →
      (∀ id ∈ ids, (t.observers.get? id).isSome) → ∀ id,
        ((ids.foldl (endObserverRound cfg round now) t).observers.get? id).isSome =
            (t.observers.get? id).isSome ∧
          (ids.foldl (endObserverRound cfg round now) t).observerGrace.get? id =
            if id ∈ ids then (t.observerGrace.get? id).bind countDown
            else t.observerGrace.get? id
  | [], _, _, _, _ => ⟨rfl, by simp⟩
  | i :: ids, t, hnd, hobs, id => by
      obtain ⟨hnot, hnd⟩ := List.nodup_cons.mp hnd
      have hframe : ∀ {id'}, id' ≠ i → _ := endObserverRound_frame cfg round now t
      obtain ⟨hat, hgrace⟩ := endObserverRound_at cfg round now t (hobs i (List.mem_cons_self ..))
      obtain ⟨hobs', hgrace'⟩ := foldl_endObserverRound_grace cfg round now hnd
        (t := t.endObserverRound cfg round now i) (by
          intro id' hid'
          rw [(hframe (fun he => hnot (he ▸ hid'))).1]
          exact hobs id' (List.mem_cons_of_mem _ hid')) id
      rw [List.foldl_cons, hobs', hgrace']
      by_cases hid : id = i
      · subst hid
        rw [if_neg hnot, if_pos (List.mem_cons_self ..)]
        exact ⟨hat.trans (hobs id (List.mem_cons_self ..)).symm, hgrace⟩
      · rw [(hframe hid).1, (hframe hid).2]
        simp [hid]

/-- What the sizing and the proposal leave alone. -/
def watched (s : SchedulerCore O) :
    OrdMap SubnetId (PublicObserver O) × OrdMap SubnetId Nat × List SubnetSig :=
  (s.observers, s.observerGrace, s.currentSubnetsSig)

theorem Watches.congr {s' : SchedulerCore O} (h : s.Watches) (he : s'.watched = s.watched) :
    s'.Watches := by
  obtain ⟨hobs, hrest⟩ := Prod.mk.inj he
  obtain ⟨hgrace, hsig⟩ := Prod.mk.inj hrest
  exact ⟨hsig ▸ h.unique, fun id => by rw [hobs, hsig]; exact h.observed id,
    fun id g hg => by rw [hsig]; exact h.graced id g (hgrace ▸ hg)⟩

theorem watched_resize (cfg : SchedulerConfig C) (s : SchedulerCore O) :
    (s.resize cfg).watched = s.watched := by
  unfold resize resizeCapacity resizeCount
  dsimp only
  split_ifs <;> rfl

theorem watched_propose (cfg : SchedulerConfig C) (s : SchedulerCore O) (clock : U64) :
    (s.propose cfg clock).1.watched = s.watched := by
  obtain ⟨vectors, hvectors⟩ := resizeScheduledVectors_eq cfg (s.subnetProtocols cfg) s
  have hprimed : (s.primed cfg clock).watched = s.watched := by
    unfold primed
    rw [hvectors]
    rfl
  rw [propose_eq]
  refine Eq.trans ?_ hprimed
  unfold settled
  dsimp only
  split <;> rfl

theorem watched_tick (cfg : SchedulerConfig C) (s : SchedulerCore O) (round : Round)
    (now clock : U64) :
    (s.apply cfg (.tick round now clock)).watched = (s.beforeSizing cfg round now).watched := by
  have hadvance : (s.advance cfg round now).watched = (s.beforeSizing cfg round now).watched :=
    watched_resize cfg (s.beforeSizing cfg round now)
  simp only [apply, tick]
  split
  · exact (watched_propose cfg _ clock).trans hadvance
  · exact hadvance

/-- **A tick** keeps an observer for every subnet and counts every grace down. -/
theorem Watches.tick (cfg : SchedulerConfig C) (h : s.Watches) (round : Round) (now clock : U64) :
    (s.apply cfg (.tick round now clock)).Watches ∧
      (s.apply cfg (.tick round now clock)).currentSubnetsSig = s.currentSubnetsSig ∧
      ∀ id, (s.apply cfg (.tick round now clock)).observerGrace.get? id =
        (s.observerGrace.get? id).bind countDown := by
  have hclocked : ∀ id, ((s.clocked round now).observers.get? id).isSome =
      (s.observers.get? id).isSome := by
    intro id
    unfold clocked forgetOldFaults refreshClocks
    dsimp only
    rw [OrdMap.get?_mapVals, Option.isSome_map]
  have hfold := foldl_endObserverRound_grace cfg round now
    ((s.clocked round now).observers.keys_sorted.imp (fun h => h.ne))
    (fun id hid => by
      obtain ⟨o, ho⟩ := OrdMap.mem_keys.mp hid
      rw [ho]
      rfl)
  have hsig : (s.beforeSizing cfg round now).currentSubnetsSig = s.currentSubnetsSig := by
    have hquiet := Quiet.foldl (quiet_endObserverRound cfg round now)
      (s.clocked round now).observers.keys (s.clocked round now)
    exact congrArg Ledger.currentSubnetsSig hquiet.ledger
  have hgrace : ∀ id, (s.beforeSizing cfg round now).observerGrace.get? id =
      (s.observerGrace.get? id).bind countDown := by
    intro id
    refine (hfold id).2.trans ?_
    show (if id ∈ (s.clocked round now).observers.keys then (s.observerGrace.get? id).bind countDown
      else s.observerGrace.get? id) = _
    split_ifs with hid
    · rfl
    · cases hg : s.observerGrace.get? id with
      | none => rfl
      | some g =>
        -- a grace without an observer
        have hsome := (h.observed id).mpr (h.graced id g hg).1
        rw [← hclocked id] at hsome
        exact absurd (OrdMap.mem_keys.mpr (Option.isSome_iff_exists.mp hsome)) hid
  have hbefore : (s.beforeSizing cfg round now).Watches := by
    refine ⟨hsig ▸ h.unique, ?_, ?_⟩
    · intro id
      rw [hsig, ← h.observed id, ← hclocked id]
      exact iff_of_eq (congrArg (· = true) (hfold id).1)
    · intro id g hg
      rw [hgrace] at hg
      obtain ⟨g', hg', hdown⟩ := Option.bind_eq_some_iff.mp hg
      obtain ⟨hid, hpos, hle⟩ := h.graced id g' hg'
      unfold countDown at hdown
      split_ifs at hdown with hone
      cases hdown
      rw [hsig]
      exact ⟨hid, by omega, by omega⟩
  have hview := watched_tick cfg s round now clock
  obtain ⟨-, hrest⟩ := Prod.mk.inj hview
  obtain ⟨hgrace', hsig'⟩ := Prod.mk.inj hrest
  exact ⟨hbefore.congr hview, hsig'.trans hsig, fun id => by rw [hgrace']; exact hgrace id⟩

/-! ## Any other call -/

/-- Every current subnet was there with its grace as it is, or has a whole grace before it. -/
def Renews (s s' : SchedulerCore O) : Prop :=
  ∀ id ∈ s'.currentSubnetsSig.map Prod.fst,
    (id ∈ s.currentSubnetsSig.map Prod.fst ∧ s'.observerGrace.get? id = s.observerGrace.get? id) ∨
      s'.observerGrace.get? id = some observerFaultGrace

theorem renews_of_watched {s' : SchedulerCore O} (he : s'.watched = s.watched) : Renews s s' := by
  obtain ⟨-, hrest⟩ := Prod.mk.inj he
  obtain ⟨hgrace, hsig⟩ := Prod.mk.inj hrest
  intro id hid
  rw [hsig] at hid
  exact Or.inl ⟨hid, by rw [hgrace]⟩

theorem Watches.renews_learnConfig (cfg : SchedulerConfig C) (h : s.Watches) {body : C.Body}
    (hvalid : validateStructure body = true) : Renews s (s.learnConfig cfg body) := by
  have hdiff := h.diff cfg hvalid
  intro id hid
  rw [(learnConfig_learns cfg s body).2.2, map_fst_subnetSig] at hid
  obtain ⟨subnet, hsubnet, rfl⟩ := List.mem_map.mp hid
  by_cases hmem : subnetSig subnet ∈ s.currentSubnetsSig
  · exact Or.inl ⟨List.mem_map_of_mem hmem, (hdiff.kept subnet hsubnet hmem).2.2⟩
  · obtain ⟨leader, -, -, hgrace⟩ := hdiff.fresh subnet hsubnet hmem
    exact Or.inr hgrace

theorem watched_tryAssemble (cfg : SchedulerConfig C) (s : SchedulerCore O) (body : C.Body) :
    (s.tryAssemble cfg body).1.watched = s.watched := by
  unfold tryAssemble
  dsimp only
  split
  · rfl
  · split
    · rfl
    · split
      · rfl
      · split <;> rfl

theorem watched_applyObservedFaults (cfg : SchedulerConfig C) (s : SchedulerCore O)
    (faults : List Fault) (now : U64) :
    (s.applyObservedFaults cfg faults now).watched = s.watched := by
  have hroster := rosterOnly_applyObservedFaults cfg s faults now
  have hsig := congrArg Ledger.currentSubnetsSig (quiet_applyObservedFaults cfg s faults now).ledger
  unfold watched
  rw [hroster.observers, hroster.observerGrace]
  exact congrArg _ (congrArg _ hsig)

/-- A message to a subnet changes its observer's state at most. -/
theorem Watches.onSubnetMessage (h : s.Watches) (subnet : SubnetId) (sender : Pubkey)
    (bytes : Bytes) :
    (s.onSubnetMessage subnet sender bytes).Watches ∧
      Renews s (s.onSubnetMessage subnet sender bytes) := by
  unfold SchedulerCore.onSubnetMessage
  cases ho : s.observers.get? subnet with
  | none => exact ⟨h, renews_of_watched rfl⟩
  | some o =>
    refine ⟨⟨h.unique, fun id => ?_, h.graced⟩, fun id hid => Or.inl ⟨hid, rfl⟩⟩
    dsimp only
    rw [← h.observed id, OrdMap.get?_insert]
    split_ifs with hid
    · rw [hid, ho]
      exact iff_of_true rfl rfl
    · rfl

/-- What a call other than a tick does to the observers: nothing, a message to one of them, or the
learning of a valid body. -/
theorem watched_apply_cases (cfg : SchedulerConfig C) (s : SchedulerCore O) {op : SchedulerOp C}
    (hop : op.isTick = false) :
    (s.apply cfg op).watched = s.watched ∨
      (∃ subnet sender bytes, op = .subnetMessage subnet sender bytes) ∨
      ∃ (s₁ : SchedulerCore O) (body : C.Body), s₁.watched = s.watched ∧
        validateStructure body = true ∧
        (s.apply cfg op).watched = (s₁.learnConfig cfg body).watched := by
  cases op with
  | registration reg =>
    refine Or.inl ?_
    cases reg with
    | relay => simp only [SchedulerCore.apply, onRegistration]; split <;> rfl
    | service | watcher => rfl
  | decodedBody proposal =>
    simp only [SchedulerCore.apply, onDecodedBody]
    split
    · exact Or.inl rfl
    · rename_i haccepts
      -- an accepted body is valid, and is learned with its approval recorded
      have hbody : s.validateBody cfg proposal.body = true :=
        validateBody_of_accepts (by simpa using haccepts)
      have hvalid : validateStructure proposal.body = true := by
        unfold validateBody at hbody
        simp only [Bool.and_eq_true] at hbody
        exact hbody.1.1.1.1.1.1
      exact Or.inr (Or.inr ⟨{ s with
        lastAcceptedRound := raise s.lastAcceptedRound proposal.body.round
        sigs := recordSig s.sigs (approval cfg proposal.body).bodyBytes
          (approval cfg proposal.body).signer (approval cfg proposal.body).signature },
        proposal.body, rfl, hvalid, watched_tryAssemble cfg _ _⟩)
  | committeeSig sig =>
    refine Or.inl ?_
    simp only [SchedulerCore.apply, onCommitteeSig]
    split
    · rfl
    · split
      · rfl
      · split
        · rfl
        · exact watched_tryAssemble cfg _ _
  | publishedConfig config =>
    simp only [SchedulerCore.apply, onPublishedConfig]
    split
    · exact Or.inl rfl
    · split
      · exact Or.inl rfl
      · rename_i hvalid
        exact Or.inr (Or.inr ⟨{ s with
          lastAcceptedRound := raise s.lastAcceptedRound config.body.round
          publicRound := max s.publicRound config.body.round
          publishedRound := raise s.publishedRound config.body.round
          published := s.published.add config.body.canonicalBytes },
          config.body, rfl, by simpa using hvalid, rfl⟩)
  | faultReport sender report now =>
    refine Or.inl ?_
    simp only [SchedulerCore.apply, onFaultReport_eq]
    split
    · rfl
    · exact watched_applyObservedFaults cfg _ _ now
  | observedFaults faults now => exact Or.inl (watched_applyObservedFaults cfg s faults now)
  | subnetMessage subnet sender bytes => exact Or.inr (Or.inl ⟨subnet, sender, bytes, rfl⟩)
  | setCoverRate rate => exact Or.inl rfl
  | tick round now clock => cases hop

/-- **Any call but a tick** keeps an observer for every subnet, and no grace is cut short. -/
theorem Watches.apply (h : s.Watches) {op : SchedulerOp C} (hop : op.isTick = false) :
    (s.apply cfg op).Watches ∧ Renews s (s.apply cfg op) := by
  rcases watched_apply_cases cfg s hop with
    hsame | ⟨subnet, sender, bytes, rfl⟩ | ⟨s₁, body, hstart, hvalid, hend⟩
  · exact ⟨h.congr hsame, renews_of_watched hsame⟩
  · exact h.onSubnetMessage subnet sender bytes
  · have h₁ := h.congr hstart
    refine ⟨(h₁.learnConfig hvalid).congr hend, fun id hid => ?_⟩
    obtain ⟨-, hrest⟩ := Prod.mk.inj hstart
    obtain ⟨hgrace, hsig⟩ := Prod.mk.inj hrest
    obtain ⟨-, hrest'⟩ := Prod.mk.inj hend
    obtain ⟨hgrace', hsig'⟩ := Prod.mk.inj hrest'
    have hrenews := h₁.renews_learnConfig cfg hvalid id (hsig' ▸ hid)
    rwa [hgrace, hsig, ← hgrace'] at hrenews

/-! ## Where an observer comes from -/

/-- An observer after a takeover was there before it, or is a fresh one. -/
theorem takeOver_cases {prev : OrdMap SubnetId (List Pubkey × SchedulerProtocol)}
    {faultThreshold : U64} {P : SubnetId → PublicObserver O → Prop}
    (hbuilt : ∀ id proto roster leader, P id (buildObserver proto roster leader faultThreshold)) :
    ∀ {sig : List SubnetSig} {t : Takeover O}, (∀ id o, t.old.get? id = some o → P id o) →
      (∀ id o, t.observers.get? id = some o → P id o) →
        ∀ id o, (sig.foldl (takeOver prev faultThreshold) t).observers.get? id = some o → P id o
  | [], _, _, hobs => hobs
  | (id', roster, proto) :: sig, t, hold, hobs => by
    rw [List.foldl_cons]
    unfold takeOver
    dsimp only
    split
    · rename_i o hkept
      have ho : P id' o := by
        split_ifs at hkept with hprev
        exact hold id' o hkept
      refine takeOver_cases hbuilt (fun id o' ho' => ?_) (fun id o' ho' => ?_)
      · rw [OrdMap.get?_erase] at ho'
        split_ifs at ho'
        exact hold id o' ho'
      · rw [OrdMap.get?_insert] at ho'
        split_ifs at ho' with hid
        · cases ho'
          exact hid ▸ ho
        · exact hobs id o' ho'
    · split
      · rename_i o hfresh
        obtain ⟨leader, -, rfl⟩ := Option.map_eq_some_iff.mp hfresh
        refine takeOver_cases hbuilt hold (fun id o' ho' => ?_)
        rw [OrdMap.get?_insert] at ho'
        split_ifs at ho'
        · cases ho'
          exact hbuilt id proto roster leader
        · exact hobs id o' ho'
      · exact takeOver_cases hbuilt hold hobs

theorem observers_learnConfig (cfg : SchedulerConfig C) (s : SchedulerCore O) (body : C.Body)
    {id : SubnetId} {o : PublicObserver O}
    (h : (s.learnConfig cfg body).observers.get? id = some o) :
    s.observers.get? id = some o ∨
      ∃ proto roster leader, o = buildObserver proto roster leader cfg.params.faultThreshold := by
  unfold learnConfig at h
  dsimp only at h
  split_ifs at h
  · exact Or.inl h
  · exact takeOver_cases (P := fun id o => s.observers.get? id = some o ∨
      ∃ proto roster leader, o = buildObserver proto roster leader cfg.params.faultThreshold)
      (fun id proto roster leader => Or.inr ⟨proto, roster, leader, rfl⟩)
      (fun _ _ ho => Or.inl ho) (fun _ _ ho => by cases ho) id o h

/-- An observer after a call other than a tick was there before it, is a fresh one, or has been
given the message. -/
theorem observers_apply_cases (cfg : SchedulerConfig C) (s : SchedulerCore O) {op : SchedulerOp C}
    (hop : op.isTick = false) {id : SubnetId} {o' : PublicObserver O}
    (h : (s.apply cfg op).observers.get? id = some o') :
    s.observers.get? id = some o' ∨
      (∃ proto roster leader, o' = buildObserver proto roster leader cfg.params.faultThreshold) ∨
      ∃ sender bytes o, op = .subnetMessage id sender bytes ∧ s.observers.get? id = some o ∧
        o' = o.onInbound sender bytes := by
  rcases watched_apply_cases cfg s hop with
    hsame | ⟨subnet, sender, bytes, rfl⟩ | ⟨s₁, body, hstart, -, hend⟩
  · rw [(Prod.mk.inj hsame).1] at h
    exact Or.inl h
  · simp only [SchedulerCore.apply, onSubnetMessage] at h
    split at h
    · rename_i o ho
      dsimp only at h
      rw [OrdMap.get?_insert] at h
      split_ifs at h with hid
      · cases h
        subst hid
        exact Or.inr (Or.inr ⟨sender, bytes, o, rfl, ho, rfl⟩)
      · exact Or.inl h
    · exact Or.inl h
  · rw [(Prod.mk.inj hend).1] at h
    rcases observers_learnConfig cfg s₁ body h with hold | hfresh
    · rw [(Prod.mk.inj hstart).1] at hold
      exact Or.inl hold
    · exact Or.inr (Or.inl hfresh)

/-- The wall-clock round of a subnet. -/
def wallRound (s : SchedulerCore O) (id : SubnetId) (nowUnixMs : U64) : Option Round := do
  let epoch ← s.epochUnixMs
  let dur ← s.subnetRoundMs.get? id
  if 0 < dur then some (roundAt epoch dur nowUnixMs) else none

theorem observers_clocked (s : SchedulerCore O) (round : Round) (now : U64) (id : SubnetId) :
    (s.clocked round now).observers.get? id =
      (s.observers.get? id).map (fun o => o.refreshClock (s.wallRound id now)) := by
  unfold clocked forgetOldFaults refreshClocks
  dsimp only
  rw [OrdMap.get?_mapVals]
  rfl

/-- The observers' ends of round end every observer's round once. -/
theorem foldl_endObserverRound_observers (cfg : SchedulerConfig C) (round : Round) (now : U64) :
    ∀ {ids : List SubnetId} {t : SchedulerCore O}, ids.Nodup → ∀ id,
      (ids.foldl (endObserverRound cfg round now) t).observers.get? id =
        if id ∈ ids then (t.observers.get? id).map (fun o => (o.endRoundFaults round).1)
        else t.observers.get? id
  | [], _, _, _ => by simp
  | i :: ids, t, hnd, id => by
      obtain ⟨hnot, hnd⟩ := List.nodup_cons.mp hnd
      rw [List.foldl_cons, foldl_endObserverRound_observers cfg round now hnd]
      by_cases hid : id = i
      · subst hid
        rw [if_neg hnot, if_pos (List.mem_cons_self ..)]
        unfold endObserverRound
        cases ho : t.observers.get? id with
        | none => simpa using ho
        | some o =>
          dsimp only
          split
          · simp
          · rw [(rosterOnly_applyObservedFaults cfg _ _ now).observers]
            simp
      · rw [(endObserverRound_frame cfg round now t hid).1]
        simp [hid]

/-- **What a tick does to an observer**: its clock is refreshed and its round ended. -/
theorem observers_tick (cfg : SchedulerConfig C) (s : SchedulerCore O) (round : Round)
    (now clock : U64) (id : SubnetId) :
    (s.apply cfg (.tick round now clock)).observers.get? id = (s.observers.get? id).map (fun o =>
      ((o.refreshClock (s.wallRound id now)).endRoundFaults round).1) := by
  rw [(Prod.mk.inj (watched_tick cfg s round now clock)).1]
  refine (foldl_endObserverRound_observers cfg round now
    ((s.clocked round now).observers.keys_sorted.imp (fun h => h.ne)) id).trans ?_
  rw [observers_clocked]
  split_ifs with hid
  · rw [Option.map_map]
    rfl
  · -- no observer, before the tick and after it
    cases ho : s.observers.get? id with
    | none => rfl
    | some o =>
      refine absurd (OrdMap.mem_keys.mpr ⟨o.refreshClock (s.wallRound id now), ?_⟩) hid
      rw [observers_clocked, ho]
      rfl

/-! ## Runs -/

/-- The core watches the subnets it knows after every run. -/
theorem watches_after (O : ObserverSessions) (cfg : SchedulerConfig C) (ops : List (SchedulerOp C)) :
    (after O cfg ops).Watches := by
  induction ops using List.reverseRecOn with
  | nil => exact ⟨List.nodup_nil, fun id => by simp [after, Trace.run, new], by rintro id g ⟨⟩⟩
  | append_singleton ops op ih =>
    rw [after_concat]
    cases hop : op.isTick with
    | false => exact (ih.apply hop).1
    | true =>
      cases op with
      | tick round now clock => exact (ih.tick cfg round now clock).1
      | _ => cases hop

/-- **A grace lasts its ticks**: while fewer have passed, a subnet that is still there, or there
again, has some of it left. -/
theorem grace_lasts {ops : List (SchedulerOp C)} {id : SubnetId} {g : Nat}
    (h : (after O cfg ops).observerGrace.get? id = some g) (post : List (SchedulerOp C))
    (hpost : post.countP SchedulerOp.isTick < g)
    (hid : id ∈ (after O cfg (ops ++ post)).currentSubnetsSig.map Prod.fst) :
    ∃ g', (after O cfg (ops ++ post)).observerGrace.get? id = some g' ∧
      g ≤ g' + post.countP SchedulerOp.isTick := by
  have hcap := ((watches_after O cfg ops).graced id g h).2.2
  induction post using List.reverseRecOn with
  | nil => exact ⟨g, by rwa [List.append_nil], le_rfl⟩
  | append_singleton post op ih =>
    rw [List.countP_append, List.countP_singleton] at hpost ⊢
    rw [← List.append_assoc, after_concat] at hid ⊢
    have hwatches := watches_after O cfg (ops ++ post)
    cases hop : op.isTick with
    | false =>
      rw [hop] at hpost
      rcases (hwatches.apply hop).2 id hid with ⟨hbefore, hsame⟩ | hwhole
      · obtain ⟨g', hg', hle⟩ := ih (by simpa using hpost) hbefore
        exact ⟨g', hsame.trans hg', by simpa using hle⟩
      · exact ⟨observerFaultGrace, hwhole, by simp; omega⟩
    | true =>
      cases op with
      | tick round now clock =>
        rw [hop, if_pos rfl] at hpost
        obtain ⟨-, hsig, hdown⟩ := hwatches.tick cfg round now clock
        obtain ⟨g', hg', hle⟩ := ih (by omega) (hsig ▸ hid)
        refine ⟨g' - 1, ?_, by rw [if_pos rfl]; omega⟩
        rw [hdown, hg', Option.bind_some]
        unfold countDown
        rw [if_neg (by omega)]
      | _ => cases hop

/-- **Observers survive unrelated configurations.**  After every run, learning a structurally
valid body keeps, renews and drops observers as the difference of the two subnet sets says; there
is one observer for each current subnet, and graces of theirs only.  A tick punishes the relays its
observers without a grace name, and no others; it finds every grace above zero and counts it down,
so a subnet with a fresh observer has its whole grace before it. -/
theorem observers_survive (O : ObserverSessions) (cfg : SchedulerConfig C)
    (ops : List (SchedulerOp C)) :
    (∀ body, validateStructure body = true →
      Diff cfg body.subnets (after O cfg ops) ((after O cfg ops).learnConfig cfg body)) ∧
    (after O cfg ops).Watches ∧
    (∀ round now clock,
      let s := (after O cfg ops).clocked round now
      let graceless := s.observers.keys.filter (fun id =>
        ((after O cfg ops).observerGrace.get? id).isNone)
      ((after O cfg ops).apply cfg (.tick round now clock)).roster =
        (((effective cfg (graceless.flatMap (s.endedFaults round))).flatMap Fault.marks).foldl
          (Roster.punish now) (after O cfg ops).roster).release cfg.params.integrityBackoffMs now) ∧
    ∀ id g, (after O cfg ops).observerGrace.get? id = some g →
      (∀ round now clock,
        ((after O cfg ops).apply cfg (.tick round now clock)).observerGrace.get? id =
          countDown g) ∧
      ∀ post : List (SchedulerOp C), post.countP SchedulerOp.isTick < g →
        id ∈ (after O cfg (ops ++ post)).currentSubnetsSig.map Prod.fst →
          ∃ g', (after O cfg (ops ++ post)).observerGrace.get? id = some g' := by
  have hwatches := watches_after O cfg ops
  refine ⟨fun body hvalid => hwatches.diff cfg hvalid, hwatches, ?_, fun id g hg => ⟨?_, ?_⟩⟩
  · intro round now clock
    refine (roster_tick cfg _ round now clock).trans ?_
    unfold appliedMarks
    rw [appliedFaults_tick]
    rfl
  · intro round now clock
    rw [(hwatches.tick cfg round now clock).2.2, hg]
    rfl
  · intro post hpost hid
    obtain ⟨g', hg', -⟩ := grace_lasts hg post hpost hid
    exact ⟨g', hg'⟩

/-- A member with one subnet learns it anew under another version, and ticks. -/
theorem observers_survive_toy :
    Diff (toyMember 2) (toyBody 2 (toyPanetiere 9) [1]).subnets
        (after toyObservers (toyMember 2) (crowdRun 0))
        ((after toyObservers (toyMember 2) (crowdRun 0)).learnConfig (toyMember 2)
          (toyBody 2 (toyPanetiere 9) [1])) ∧
      ((after toyObservers (toyMember 2) (crowdRun 0)).apply (toyMember 2)
        (.tick 1 0 0)).observerGrace.get? 0 = some 2 :=
  ⟨(observers_survive toyObservers (toyMember 2) (crowdRun 0)).1 _ (by decide +kernel),
    ((observers_survive toyObservers (toyMember 2) (crowdRun 0)).2.2.2 0 3
      (by decide +kernel)).1 1 0 0⟩

end SchedulerCore
end Anymone
