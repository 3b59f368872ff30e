import Anymone.SchedulerPublished

/-! # Faults, sidelining and backoff

Faults reach a core from its observers (in a tick), from other members' reports and
from its daemon.  Whatever their source, all they do to the roster is a sequence of
marks (`Roster.punish`): a relay named by a fault leaves the registered set, and one
named by an integrity fault is barred from coming back until a tick finds its backoff
over.

Reports are taken once for each subnet, round and culprit, where the round is the one
the reporter wrote down.
-/

namespace Anymone
variable {C : SchedulerCrate} {O : ObserverSessions}

/-- The sets of a core that faults and registrations move relays between. -/
structure Roster where
  registered : OrdSet Pubkey
  sidelined : OrdSet Pubkey
  integrityOffenders : OrdMap Pubkey U64

namespace Roster
variable {r r' : Roster} {now t : U64} {pk : Pubkey}

/-- A relay named by a fault, with whether the fault is one of integrity. -/
def punish (now : U64) (r : Roster) (e : Pubkey × Bool) : Roster where
  registered := r.registered.erase e.1
  sidelined := r.sidelined.add e.1
  integrityOffenders :=
    if e.2 then r.integrityOffenders.insert e.1 now else r.integrityOffenders

/-- A relay registers, unless it is barred. -/
def enroll (r : Roster) (pk : Pubkey) : Roster :=
  if r.integrityOffenders.contains pk then r
  else { r with sidelined := r.sidelined.erase pk, registered := r.registered.add pk }

/-- The bars that are over by now are lifted. -/
def release (backoff now : U64) (r : Roster) : Roster :=
  { r with integrityOffenders := r.integrityOffenders.retain (fun _ t =>
      decide (now.saturatingSub t.val < backoff)) }

/-- No relay is both registered and sidelined, and a barred one is sidelined. -/
structure Barred (r : Roster) : Prop where
  disjoint : ∀ pk, r.registered.contains pk = true → r.sidelined.contains pk = false
  offenders : ∀ pk, r.integrityOffenders.contains pk = true → r.sidelined.contains pk = true

theorem Barred.not_registered (h : r.Barred) (hpk : r.integrityOffenders.contains pk = true) :
    r.registered.contains pk = false := by
  by_contra hreg
  have hside := h.disjoint pk (by simpa using hreg)
  rw [h.offenders pk hpk] at hside
  cases hside

theorem Barred.punish (h : r.Barred) (now : U64) (e : Pubkey × Bool) : (r.punish now e).Barred := by
  refine ⟨?_, ?_⟩
  · intro pk hreg
    obtain ⟨hne, hreg⟩ := OrdMap.contains_erase_iff.mp hreg
    rw [Bool.eq_false_iff]
    intro hside
    rcases OrdSet.contains_add_iff.mp hside with rfl | hside
    · exact hne rfl
    · rw [h.disjoint pk hreg] at hside
      cases hside
  · intro pk hoff
    show (r.sidelined.add e.1).contains pk = true
    rw [OrdSet.contains_add_iff]
    simp only [Roster.punish] at hoff
    split at hoff
    · exact (OrdMap.contains_insert_iff.mp hoff).imp_right (h.offenders pk)
    · exact Or.inr (h.offenders pk hoff)

theorem Barred.enroll (h : r.Barred) (pk : Pubkey) : (r.enroll pk).Barred := by
  unfold Roster.enroll
  split
  · exact h
  · rename_i hoff
    refine ⟨?_, ?_⟩
    · intro pk' hreg
      rw [Bool.eq_false_iff]
      intro hside
      obtain ⟨hne, hside⟩ := OrdMap.contains_erase_iff.mp hside
      rcases OrdSet.contains_add_iff.mp hreg with rfl | hreg
      · exact hne rfl
      · rw [h.disjoint pk' hreg] at hside
        cases hside
    · intro pk' hbar
      refine OrdMap.contains_erase_iff.mpr ⟨?_, h.offenders pk' hbar⟩
      rintro rfl
      exact hoff hbar

theorem Barred.release (h : r.Barred) (backoff now : U64) : (r.release backoff now).Barred := by
  refine ⟨h.disjoint, fun pk hoff => h.offenders pk ?_⟩
  obtain ⟨t, ht⟩ := OrdMap.contains_iff.mp hoff
  have ht : (r.integrityOffenders.retain _).get? pk = some t := ht
  rw [OrdMap.get?_retain, Option.filter_eq_some_iff] at ht
  exact OrdMap.contains_iff.mpr ⟨t, ht.1⟩

theorem Barred.foldl_punish (now : U64) (l : List (Pubkey × Bool)) :
    ∀ {r : Roster}, r.Barred → (l.foldl (Roster.punish now) r).Barred := by
  induction l with
  | nil => exact fun h => h
  | cons e l ih => exact fun h => ih (h.punish now e)

/-! ## A bar in time -/

/-- Relay `pk` is barred for an offence at `t` or later. -/
def Held (r : Roster) (pk : Pubkey) (t : U64) : Prop :=
  ∃ t', r.integrityOffenders.get? pk = some t' ∧ t ≤ t'

theorem Held.contains (h : r.Held pk t) : r.integrityOffenders.contains pk = true := by
  obtain ⟨t', ht', -⟩ := h
  exact OrdMap.contains_iff.mpr ⟨t', ht'⟩

theorem Held.punish (h : r.Held pk t) (hnow : t ≤ now) (e : Pubkey × Bool) :
    (r.punish now e).Held pk t := by
  obtain ⟨t', ht', hle⟩ := h
  unfold Held Roster.punish
  dsimp only
  split
  · rw [OrdMap.get?_insert]
    by_cases hpk : pk = e.1
    · exact ⟨now, if_pos hpk, hnow⟩
    · exact ⟨t', (if_neg hpk).trans ht', hle⟩
  · exact ⟨t', ht', hle⟩

theorem Held.foldl_punish (hnow : t ≤ now) (l : List (Pubkey × Bool)) :
    ∀ {r : Roster}, r.Held pk t → (l.foldl (Roster.punish now) r).Held pk t := by
  induction l with
  | nil => exact fun h => h
  | cons e l ih => exact fun h => ih (h.punish hnow e)

/-- An integrity mark bars its relay from now on. -/
theorem held_of_mem {l : List (Pubkey × Bool)} :
    ∀ {r : Roster}, (pk, true) ∈ l → (l.foldl (punish now) r).Held pk now := by
  induction l with
  | nil => intro r h; simp at h
  | cons e l ih =>
    intro r h
    rcases List.mem_cons.mp h with rfl | h
    · refine Held.foldl_punish le_rfl l ⟨now, ?_, le_rfl⟩
      simp [punish]
    · exact ih h

theorem Held.enroll (h : r.Held pk t) (pk' : Pubkey) : (r.enroll pk').Held pk t := by
  unfold Roster.enroll
  split
  · exact h
  · exact h

/-- A bar stays through a tick before its backoff is over. -/
theorem Held.release {backoff : U64} (h : r.Held pk t) (hnow : t ≤ now)
    (hearly : now.val < t.val + backoff.val) : (r.release backoff now).Held pk t := by
  obtain ⟨t', ht', hle⟩ := h
  refine ⟨t', ?_, hle⟩
  show (r.integrityOffenders.retain _).get? pk = some t'
  rw [OrdMap.get?_retain, Option.filter_eq_some_iff]
  refine ⟨ht', ?_⟩
  rw [Fin.le_def] at hle hnow
  rw [decide_eq_true_eq, Fin.lt_def, U64.val_saturatingSub]
  omega

/-! ## One relay in two rosters -/

/-- Both rosters say the same of relay `pk`. -/
structure SameAt (pk : Pubkey) (r r' : Roster) : Prop where
  registered : r'.registered.contains pk = true ↔ r.registered.contains pk = true
  sidelined : r'.sidelined.contains pk = true ↔ r.sidelined.contains pk = true
  offender : r'.integrityOffenders.get? pk = r.integrityOffenders.get? pk

theorem SameAt.refl (pk : Pubkey) (r : Roster) : SameAt pk r r := ⟨Iff.rfl, Iff.rfl, rfl⟩

/-- Punishing one relay says nothing of another. -/
theorem sameAt_punish {e : Pubkey × Bool} (hne : e.1 ≠ pk) (now : U64) (r : Roster) :
    SameAt pk r (r.punish now e) := by
  refine ⟨?_, ?_, ?_⟩
  · show (r.registered.erase e.1).contains pk = true ↔ _
    rw [OrdMap.contains_erase_iff]
    exact and_iff_right hne.symm
  · show (r.sidelined.add e.1).contains pk = true ↔ _
    rw [OrdSet.contains_add_iff]
    exact or_iff_right hne.symm
  · unfold Roster.punish
    dsimp only
    split
    · rw [OrdMap.get?_insert, if_neg hne.symm]
    · rfl

end Roster

/-! ## The marks of a fault -/

/-- The relays a fault names, each with whether it is one of integrity. -/
def Fault.marks (fault : Fault) : List (Pubkey × Bool) :=
  match fault.attribution with
  | .peers pks => pks.map (fun pk => (pk, decide (fault.kind = .integrity)))
  | .none => []

namespace SchedulerCore
variable {cfg : SchedulerConfig C} {s s' : SchedulerCore O}

/-- The roster of a core. -/
def roster (s : SchedulerCore O) : Roster := ⟨s.registered, s.sidelined, s.integrityOffenders⟩

/-- All of a core that faults change: its roster and the reports it has taken. -/
structure FaultView where
  roster : Roster
  seen : List (SubnetId × Round × Pubkey)

/-- The fault view of a core. -/
def faultView (s : SchedulerCore O) : FaultView := ⟨s.roster, s.seenIntegrityFaults⟩

theorem roster_foldl_sidelineOne (now : U64) (integrity : Bool) (pks : List Pubkey) :
    ∀ s : SchedulerCore O, (pks.foldl (sidelineOne now integrity) s).roster =
      (pks.map (fun pk => (pk, integrity))).foldl (Roster.punish now) s.roster := by
  induction pks with
  | nil => exact fun _ => rfl
  | cons pk pks ih => exact fun s => ih _

theorem roster_applyFault (now : U64) (s : SchedulerCore O) (fault : Fault) :
    (s.applyFault now fault).roster = fault.marks.foldl (Roster.punish now) s.roster := by
  unfold applyFault Fault.marks
  cases fault.attribution with
  | peers pks => exact roster_foldl_sidelineOne now _ pks s
  | none => rfl

theorem roster_foldl_applyFault (now : U64) (faults : List Fault) : ∀ s : SchedulerCore O,
    (faults.foldl (applyFault now) s).roster =
      (faults.flatMap Fault.marks).foldl (Roster.punish now) s.roster := by
  induction faults with
  | nil => exact fun _ => rfl
  | cons fault faults ih =>
    intro s
    rw [List.foldl_cons, ih, roster_applyFault, List.flatMap_cons, List.foldl_append]

/-- The faults that take effect under the parameters. -/
def effective (cfg : SchedulerConfig C) (faults : List Fault) : List Fault :=
  if cfg.params.renegotiateOnFault && cfg.params.sideline then faults else []

theorem roster_applyObservedFaults (cfg : SchedulerConfig C) (s : SchedulerCore O)
    (faults : List Fault) (now : U64) :
    (s.applyObservedFaults cfg faults now).roster =
      ((effective cfg faults).flatMap Fault.marks).foldl (Roster.punish now) s.roster := by
  unfold applyObservedFaults effective
  split
  · exact roster_foldl_applyFault now faults s
  · rfl

/-- The faults observer `id` reports at the end of a round, once its grace is over. -/
def observerFaults (s : SchedulerCore O) (round : Round) (id : SubnetId) : List Fault :=
  match s.observers.get? id with
  | none => []
  | some o => if (s.observerGrace.get? id).isSome then [] else (o.endRoundFaults round).2

/-- The faults observer `id` reports at the end of a round. -/
def endedFaults (s : SchedulerCore O) (round : Round) (id : SubnetId) : List Fault :=
  ((s.observers.get? id).map (fun o => (o.endRoundFaults round).2)).getD []

theorem observerFaults_eq (s : SchedulerCore O) (round : Round) (id : SubnetId) :
    s.observerFaults round id =
      if (s.observerGrace.get? id).isNone then s.endedFaults round id else [] := by
  unfold observerFaults endedFaults
  cases s.observers.get? id <;> cases s.observerGrace.get? id <;> rfl

/-- A state that differs in its roster only. -/
structure RosterOnly (s s' : SchedulerCore O) : Prop where
  observers : s'.observers = s.observers
  observerGrace : s'.observerGrace = s.observerGrace
  seenIntegrityFaults : s'.seenIntegrityFaults = s.seenIntegrityFaults
  sizes : (s'.capacity, s'.subnetCount) = (s.capacity, s.subnetCount)

theorem RosterOnly.foldl {α : Type} {f : SchedulerCore O → α → SchedulerCore O}
    (hf : ∀ s a, RosterOnly s (f s a)) (l : List α) : ∀ s, RosterOnly s (l.foldl f s) := by
  induction l with
  | nil => exact fun _ => ⟨rfl, rfl, rfl, rfl⟩
  | cons a l ih =>
    intro s
    obtain ⟨ho, hg, hs, hz⟩ := hf s a
    obtain ⟨ho', hg', hs', hz'⟩ := ih (f s a)
    exact ⟨ho'.trans ho, hg'.trans hg, hs'.trans hs, hz'.trans hz⟩

theorem rosterOnly_applyFault (now : U64) (s : SchedulerCore O) (fault : Fault) :
    RosterOnly s (s.applyFault now fault) := by
  unfold applyFault
  split
  · refine RosterOnly.foldl (f := sidelineOne now (fault.kind = .integrity)) ?_ _ s
    exact fun _ _ => ⟨rfl, rfl, rfl, rfl⟩
  · exact ⟨rfl, rfl, rfl, rfl⟩

theorem rosterOnly_applyObservedFaults (cfg : SchedulerConfig C) (s : SchedulerCore O)
    (faults : List Fault) (now : U64) : RosterOnly s (s.applyObservedFaults cfg faults now) := by
  unfold applyObservedFaults
  split
  · exact RosterOnly.foldl (rosterOnly_applyFault now) faults s
  · exact ⟨rfl, rfl, rfl, rfl⟩

/-- The observers' ends of round leave the marks and the sizes as they are. -/
theorem frame_endObserverRounds (cfg : SchedulerConfig C) (round : Round) (now : U64)
    (ids : List SubnetId) : ∀ s : SchedulerCore O,
    (ids.foldl (endObserverRound cfg round now) s).seenIntegrityFaults = s.seenIntegrityFaults ∧
      ((ids.foldl (endObserverRound cfg round now) s).capacity,
        (ids.foldl (endObserverRound cfg round now) s).subnetCount) =
          (s.capacity, s.subnetCount) := by
  have hone : ∀ (s : SchedulerCore O) id,
      (s.endObserverRound cfg round now id).seenIntegrityFaults = s.seenIntegrityFaults ∧
        ((s.endObserverRound cfg round now id).capacity,
          (s.endObserverRound cfg round now id).subnetCount) = (s.capacity, s.subnetCount) := by
    intro s id
    unfold endObserverRound
    split
    · exact ⟨rfl, rfl⟩
    · dsimp only
      split
      · exact ⟨rfl, rfl⟩
      · exact ⟨(rosterOnly_applyObservedFaults cfg _ _ now).seenIntegrityFaults,
          (rosterOnly_applyObservedFaults cfg _ _ now).sizes⟩
  induction ids with
  | nil => exact fun _ => ⟨rfl, rfl⟩
  | cons id ids ih =>
    exact fun s => ⟨(ih _).1.trans (hone s id).1, (ih _).2.trans (hone s id).2⟩

/-- One observer's end of round touches that observer only. -/
theorem endObserverRound_frame (cfg : SchedulerConfig C) (round : Round) (now : U64)
    (s : SchedulerCore O) {id id' : SubnetId} (hne : id' ≠ id) :
    (s.endObserverRound cfg round now id).observers.get? id' = s.observers.get? id' ∧
      (s.endObserverRound cfg round now id).observerGrace.get? id' = s.observerGrace.get? id' := by
  unfold endObserverRound
  split
  · exact ⟨rfl, rfl⟩
  · dsimp only
    split
    · refine ⟨by simp [hne], ?_⟩
      dsimp only
      split <;> simp [hne]
    · rw [(rosterOnly_applyObservedFaults cfg _ _ now).observers,
        (rosterOnly_applyObservedFaults cfg _ _ now).observerGrace]
      exact ⟨by simp [hne], rfl⟩

theorem roster_endObserverRound (cfg : SchedulerConfig C) (round : Round) (now : U64)
    (s : SchedulerCore O) (id : SubnetId) :
    (s.endObserverRound cfg round now id).roster =
      ((effective cfg (s.observerFaults round id)).flatMap Fault.marks).foldl
        (Roster.punish now) s.roster := by
  have hnil : effective cfg [] = [] := by
    unfold effective
    split <;> rfl
  unfold endObserverRound observerFaults
  cases s.observers.get? id with
  | none =>
    simp only [hnil]
    rfl
  | some o =>
    cases hg : s.observerGrace.get? id with
    | some g =>
      simp only [hg, Option.isSome_some, if_true, hnil]
      rfl
    | none =>
      simp only [hg, Option.isSome_none, Bool.false_eq_true, if_false]
      exact roster_applyObservedFaults cfg _ _ now

/-- The observers' ends of round are the marks of all their faults. -/
theorem roster_foldl_endObserverRound (cfg : SchedulerConfig C) (round : Round) (now : U64)
    (s : SchedulerCore O) (ids : List SubnetId) (hnd : ids.Nodup) :
    ∀ t : SchedulerCore O, (∀ id ∈ ids, t.observers.get? id = s.observers.get? id ∧
        t.observerGrace.get? id = s.observerGrace.get? id) →
      (ids.foldl (endObserverRound cfg round now) t).roster =
        (ids.flatMap (fun id => (effective cfg (s.observerFaults round id)).flatMap
          Fault.marks)).foldl (Roster.punish now) t.roster := by
  induction ids with
  | nil => exact fun _ _ => rfl
  | cons id ids ih =>
    intro t ht
    obtain ⟨hnot, hnd⟩ := List.nodup_cons.mp hnd
    have hsame : t.observerFaults round id = s.observerFaults round id := by
      unfold observerFaults
      rw [(ht id (List.mem_cons_self ..)).1, (ht id (List.mem_cons_self ..)).2]
    rw [List.foldl_cons, List.flatMap_cons, List.foldl_append, ih hnd, roster_endObserverRound, hsame]
    intro id' hid'
    have hne : id' ≠ id := fun he => hnot (he ▸ hid')
    obtain ⟨hobs, hgrace⟩ := endObserverRound_frame cfg round now t hne
    exact ⟨hobs.trans (ht id' (List.mem_cons_of_mem _ hid')).1,
      hgrace.trans (ht id' (List.mem_cons_of_mem _ hid')).2⟩

/-! ## The roster over a run -/

/-- The state a tick takes its observers' faults in. -/
def clocked (s : SchedulerCore O) (round : Round) (now : U64) : SchedulerCore O :=
  ({ s with curRound := round }.refreshClocks now).forgetOldFaults

/-- The culprit of a report that is taken: proven, and not yet taken for its subnet and
round. -/
def takenCulprit (C : SchedulerCrate) (s : SchedulerCore O) (sender : Pubkey)
    (report : FaultReport) : Option Pubkey :=
  (s.reportCulprit C sender report).filter (fun culprit =>
    !s.seenIntegrityFaults.contains (report.subnet, report.round, culprit))

/-- The faults one call applies to the roster. -/
def appliedFaults (s : SchedulerCore O) : SchedulerOp C → List Fault
  | .faultReport sender report _ =>
      if (s.takenCulprit C sender report).isSome then [report.fault] else []
  | .observedFaults faults _ => faults
  | .tick round now _ =>
      let s := s.clocked round now
      s.observers.keys.flatMap (s.observerFaults round)
  | .registration _ | .decodedBody _ | .committeeSig _ | .publishedConfig _ | .subnetMessage ..
  | .setCoverRate _ => []

/-- The marks of the faults that take effect in one call. -/
def appliedMarks (cfg : SchedulerConfig C) (s : SchedulerCore O) (op : SchedulerOp C) :
    List (Pubkey × Bool) :=
  (effective cfg (s.appliedFaults op)).flatMap Fault.marks

theorem effective_flatMap {α : Type} (cfg : SchedulerConfig C) (l : List α) (f : α → List Fault) :
    l.flatMap (fun a => (effective cfg (f a)).flatMap Fault.marks) =
      (effective cfg (l.flatMap f)).flatMap Fault.marks := by
  unfold effective
  split
  · rw [List.flatMap_assoc]
  · simp

theorem roster_relay (s : SchedulerCore O) (pk : Pubkey) (xk : ExchangePublicKeyWire)
    (addr url : Option Text) (sig : Bytes) :
    (s.onRegistration (.relay pk xk addr url sig)).roster = s.roster.enroll pk := by
  unfold onRegistration Roster.enroll
  rw [show s.roster.integrityOffenders = s.integrityOffenders from rfl]
  dsimp only
  split <;> rfl

theorem roster_onRegistration (s : SchedulerCore O) (reg : Registration) :
    (s.onRegistration reg).roster = s.roster ∨
      ∃ pk, (s.onRegistration reg).roster = s.roster.enroll pk := by
  cases reg with
  | relay pk xk addr url sig => exact Or.inr ⟨pk, roster_relay s pk xk addr url sig⟩
  | service | watcher => exact Or.inl rfl

/-- A report has an effect exactly when it is taken. -/
theorem onFaultReport_eq (cfg : SchedulerConfig C) (s : SchedulerCore O) (sender : Pubkey)
    (report : FaultReport) (now : U64) :
    s.onFaultReport cfg sender report now =
      match s.takenCulprit C sender report with
      | none => s
      | some culprit => applyObservedFaults cfg
          { s with seenIntegrityFaults :=
              (report.subnet, report.round, culprit) :: s.seenIntegrityFaults }
          [report.fault] now := by
  unfold onFaultReport takenCulprit
  cases s.reportCulprit C sender report with
  | none => rfl
  | some culprit =>
    by_cases hseen : s.seenIntegrityFaults.contains (report.subnet, report.round, culprit) = true
    · rw [Option.filter_some_neg (by rw [hseen]; simp)]
      dsimp only
      rw [if_pos hseen]
    · rw [Option.filter_some_pos (by rw [Bool.eq_false_iff.mpr hseen]; rfl)]
      dsimp only
      rw [if_neg hseen]

theorem roster_onFaultReport (cfg : SchedulerConfig C) (s : SchedulerCore O) (sender : Pubkey)
    (report : FaultReport) (now : U64) :
    (s.onFaultReport cfg sender report now).roster =
      (s.appliedMarks cfg (.faultReport sender report now)).foldl (Roster.punish now)
        s.roster := by
  rw [onFaultReport_eq]
  have happ : s.appliedFaults (C := C) (.faultReport sender report now) =
      if (s.takenCulprit C sender report).isSome then [report.fault] else [] := rfl
  unfold appliedMarks
  rw [happ]
  cases s.takenCulprit C sender report with
  | none =>
    unfold effective
    simp
  | some culprit => exact roster_applyObservedFaults cfg _ _ now

/-- The culprit of a report is derived from its evidence, and is the relay it names. -/
theorem evidence_of_reportCulprit {s : SchedulerCore O} {sender culprit : Pubkey}
    {report : FaultReport} (h : s.reportCulprit C sender report = some culprit) :
    report.fault.attribution = .peers [culprit] ∧
      ∃ roster, integrityCulpritFromEvidence C report.fault.evidence roster = some culprit := by
  unfold reportCulprit at h
  split at h
  · cases h
  · split at h
    · cases h
    · rename_i roster _ _
      split at h
      · obtain ⟨c, hc, h⟩ := Option.bind_eq_some_iff.mp h
        split at h
        · rename_i hname
          cases h
          exact ⟨hname, roster, hc⟩
        · cases h
      · cases h

/-- **A report says nothing of a relay it does not prove guilty.** -/
theorem sameAt_onFaultReport (cfg : SchedulerConfig C) {s : SchedulerCore O} {sender pk : Pubkey}
    {report : FaultReport} (now : U64) (h : s.reportCulprit C sender report ≠ some pk) :
    Roster.SameAt pk s.roster (s.onFaultReport cfg sender report now).roster := by
  unfold onFaultReport
  cases hculprit : s.reportCulprit C sender report with
  | none => exact .refl pk s.roster
  | some culprit =>
    rw [hculprit] at h
    have hne : culprit ≠ pk := fun he => h (by rw [he])
    dsimp only
    split
    · exact .refl pk s.roster
    · rw [roster_applyObservedFaults]
      have hname := (evidence_of_reportCulprit hculprit).1
      unfold effective
      split
      · simp only [List.flatMap_cons, List.flatMap_nil, List.append_nil, Fault.marks, hname,
          List.map_cons, List.map_nil, List.foldl_cons, List.foldl_nil]
        exact Roster.sameAt_punish hne now _
      · exact .refl pk s.roster

theorem faultView_resize (cfg : SchedulerConfig C) (s : SchedulerCore O) :
    (s.resize cfg).faultView = s.faultView := by
  have hcount : (s.resizeCount cfg s.load).faultView = s.faultView := by
    unfold resizeCount
    dsimp only
    split
    · rfl
    · split
      · split <;> rfl
      · rfl
  refine Eq.trans ?_ hcount
  unfold resize resizeCapacity
  dsimp only
  split
  · rfl
  · split
    · split <;> rfl
    · rfl

theorem roster_advance (cfg : SchedulerConfig C) (s : SchedulerCore O) (round : Round)
    (now clock : U64) :
    (s.advance cfg round now).roster =
      ((s.appliedMarks cfg (.tick round now clock)).foldl (Roster.punish now) s.roster).release
        cfg.params.integrityBackoffMs now := by
  have hnd : (s.clocked round now).observers.keys.Nodup :=
    (OrdMap.keys_sorted _).imp (fun h => h.ne)
  have hfold := roster_foldl_endObserverRound cfg round now (s.clocked round now) _ hnd
    (s.clocked round now) (fun _ _ => ⟨rfl, rfl⟩)
  rw [effective_flatMap] at hfold
  unfold advance
  rw [show (resize cfg _).roster = SchedulerCore.roster _ from
    congrArg FaultView.roster (faultView_resize cfg _)]
  exact congrArg (Roster.release cfg.params.integrityBackoffMs now) hfold

theorem faultView_resizeScheduledVectors (cfg : SchedulerConfig C) (protos : List SchedulerProtocol)
    (s : SchedulerCore O) : (s.resizeScheduledVectors cfg protos).faultView = s.faultView := by
  have hone : ∀ (s : SchedulerCore O) e, (s.resizeVector cfg e).faultView = s.faultView := by
    intro s e
    unfold resizeVector
    dsimp only
    split <;> rfl
  unfold resizeScheduledVectors
  generalize protos.zipIdx = l
  induction l generalizing s with
  | nil => rfl
  | cons e l ih => exact (ih _).trans (hone s e)

theorem faultView_propose (cfg : SchedulerConfig C) (s : SchedulerCore O) (clock : U64) :
    (s.propose cfg clock).1.faultView = s.faultView := by
  refine Eq.trans ?_ (faultView_resizeScheduledVectors cfg (s.subnetProtocols cfg) s)
  unfold propose
  dsimp only
  split <;> split <;> rfl

theorem faultView_learnConfig (cfg : SchedulerConfig C) (s : SchedulerCore O) (body : C.Body) :
    (s.learnConfig cfg body).faultView = s.faultView := by
  unfold learnConfig
  dsimp only
  split <;> rfl

theorem faultView_tryAssemble (cfg : SchedulerConfig C) (s : SchedulerCore O) (body : C.Body) :
    (s.tryAssemble cfg body).1.faultView = s.faultView := by
  unfold tryAssemble
  dsimp only
  split
  · rfl
  · split
    · rfl
    · split
      · rfl
      · split <;> rfl

theorem faultView_onDecodedBody (cfg : SchedulerConfig C) (s : SchedulerCore O)
    (proposal : SignedProposal C) : (s.onDecodedBody cfg proposal).1.faultView = s.faultView := by
  unfold onDecodedBody
  split
  · rfl
  · exact (faultView_tryAssemble cfg _ _).trans (faultView_learnConfig cfg _ _)

theorem faultView_onCommitteeSig (cfg : SchedulerConfig C) (s : SchedulerCore O)
    (sig : CommitteeSig) : (s.onCommitteeSig cfg sig).1.faultView = s.faultView := by
  unfold onCommitteeSig
  split
  · rfl
  · split
    · rfl
    · split
      · rfl
      · exact faultView_tryAssemble cfg _ _

theorem faultView_onPublishedConfig (cfg : SchedulerConfig C) (s : SchedulerCore O)
    (config : C.Config) : (s.onPublishedConfig cfg config).1.faultView = s.faultView := by
  unfold onPublishedConfig
  split
  · rfl
  · split
    · rfl
    · exact faultView_learnConfig cfg _ _

theorem faultView_onSubnetMessage (s : SchedulerCore O) (subnet : SubnetId) (sender : Pubkey)
    (bytes : Bytes) : (s.onSubnetMessage subnet sender bytes).faultView = s.faultView := by
  unfold onSubnetMessage
  split <;> rfl

end SchedulerCore

/-- The clock a call is made at. -/
def SchedulerOp.clock : SchedulerOp C → Option U64
  | .faultReport _ _ now | .observedFaults _ now | .tick _ now _ => some now
  | .registration _ | .decodedBody _ | .committeeSig _ | .publishedConfig _ | .subnetMessage ..
  | .setCoverRate _ => none

namespace SchedulerCore
variable {cfg : SchedulerConfig C} {s s' : SchedulerCore O}

/-- The faults a tick applies are those of the observers without a grace. -/
theorem appliedFaults_tick (s : SchedulerCore O) (round : Round) (now clock : U64) :
    s.appliedFaults (C := C) (.tick round now clock) =
      ((s.clocked round now).observers.keys.filter (fun id =>
        ((s.clocked round now).observerGrace.get? id).isNone)).flatMap
          ((s.clocked round now).endedFaults round) := by
  show (s.clocked round now).observers.keys.flatMap ((s.clocked round now).observerFaults round) = _
  generalize (s.clocked round now).observers.keys = ids
  induction ids with
  | nil => rfl
  | cons id ids ih =>
    rw [List.flatMap_cons, ih, observerFaults_eq, List.filter_cons]
    split_ifs
    · rfl
    · rfl

theorem roster_tick (cfg : SchedulerConfig C) (s : SchedulerCore O) (round : Round)
    (now clock : U64) :
    (s.apply cfg (.tick round now clock)).roster =
      ((s.appliedMarks cfg (.tick round now clock)).foldl (Roster.punish now) s.roster).release
        cfg.params.integrityBackoffMs now := by
  rw [← roster_advance cfg s round now clock]
  show (s.tick cfg round now clock).1.roster = _
  unfold tick
  dsimp only
  split
  · exact congrArg FaultView.roster (faultView_propose cfg _ clock)
  · rfl

/-- **What one call does to the roster**: nothing, one enrolment, or the marks of the
faults it applies; and a tick lifts the bars that are over. -/
theorem roster_apply_cases (cfg : SchedulerConfig C) (s : SchedulerCore O) (op : SchedulerOp C) :
    (op.clock = none ∧ ((s.apply cfg op).roster = s.roster ∨
        ∃ reg, op = .registration reg ∧ ∃ pk, (s.apply cfg op).roster = s.roster.enroll pk)) ∨
      ∃ now, op.clock = some now ∧
        ((s.apply cfg op).roster = (s.appliedMarks cfg op).foldl (Roster.punish now) s.roster ∨
          (∃ round clock, op = .tick round now clock) ∧
            (s.apply cfg op).roster =
              ((s.appliedMarks cfg op).foldl (Roster.punish now) s.roster).release
                cfg.params.integrityBackoffMs now) := by
  cases op with
  | registration reg =>
    exact Or.inl ⟨rfl, (roster_onRegistration s reg).imp_right (fun h => ⟨reg, rfl, h⟩)⟩
  | decodedBody proposal =>
    exact Or.inl ⟨rfl, Or.inl (congrArg FaultView.roster (faultView_onDecodedBody cfg s proposal))⟩
  | committeeSig sig =>
    exact Or.inl ⟨rfl, Or.inl (congrArg FaultView.roster (faultView_onCommitteeSig cfg s sig))⟩
  | publishedConfig config =>
    exact Or.inl ⟨rfl, Or.inl (congrArg FaultView.roster (faultView_onPublishedConfig cfg s config))⟩
  | faultReport sender report now =>
    exact Or.inr ⟨now, rfl, Or.inl (roster_onFaultReport cfg s sender report now)⟩
  | observedFaults faults now =>
    exact Or.inr ⟨now, rfl, Or.inl (roster_applyObservedFaults cfg s faults now)⟩
  | subnetMessage subnet sender bytes =>
    exact Or.inl ⟨rfl, Or.inl
      (congrArg FaultView.roster (faultView_onSubnetMessage s subnet sender bytes))⟩
  | setCoverRate rate => exact Or.inl ⟨rfl, Or.inl rfl⟩
  | tick round now clock =>
    exact Or.inr ⟨now, rfl, Or.inr ⟨⟨round, clock, rfl⟩, roster_tick cfg s round now clock⟩⟩

/-- The bars of a core hold after every run. -/
theorem barred_after (O : ObserverSessions) (cfg : SchedulerConfig C) (ops : List (SchedulerOp C)) :
    (after O cfg ops).roster.Barred := by
  induction ops using List.reverseRecOn with
  | nil =>
    refine ⟨fun pk h => ?_, fun pk h => ?_⟩
    · cases h
    · cases h
  | append_singleton ops op ih =>
    rw [after_concat]
    rcases roster_apply_cases cfg (after O cfg ops) op with
      ⟨-, h | ⟨-, -, pk, h⟩⟩ | ⟨now, -, h | ⟨-, h⟩⟩
    · rwa [h]
    · rw [h]
      exact ih.enroll pk
    · rw [h]
      exact Roster.Barred.foldl_punish now _ ih
    · rw [h]
      exact (Roster.Barred.foldl_punish now _ ih).release _ now

/-- The call is a tick at which a bar from `t` is over. -/
def endsBar (cfg : SchedulerConfig C) (t : U64) : SchedulerOp C → Bool
  | .tick _ now _ => decide (t.val + cfg.params.integrityBackoffMs.val ≤ now.val)
  | _ => false

/-- A bar survives every later call that is not a tick after its end. -/
theorem held_apply {op : SchedulerOp C} {pk : Pubkey} {t : U64} (h : s.roster.Held pk t)
    (hclock : ∀ now ∈ op.clock, t ≤ now) (hbar : endsBar cfg t op = false) :
    (s.apply cfg op).roster.Held pk t := by
  rcases roster_apply_cases cfg s op with ⟨-, hr | ⟨-, -, pk', hr⟩⟩ | ⟨now, hnow, hr⟩
  · rwa [hr]
  · rw [hr]
    exact h.enroll pk'
  · have hle : t ≤ now := hclock now hnow
    rcases hr with hr | ⟨⟨round, clock, rfl⟩, hr⟩
    · rw [hr]
      exact h.foldl_punish hle _
    · rw [hr]
      refine (h.foldl_punish hle _).release hle ?_
      rw [endsBar, decide_eq_false_iff_not] at hbar
      omega

/-- The relays the integrity faults of one call name. -/
def integrityCulprits (s : SchedulerCore O) (op : SchedulerOp C) : List Pubkey :=
  ((s.appliedFaults op).filter (fun fault => fault.kind = .integrity)).flatMap (fun fault =>
    match fault.attribution with
    | .peers pks => pks
    | .none => [])

theorem mem_appliedMarks (hside : cfg.params.sideline = true)
    (hreneg : cfg.params.renegotiateOnFault = true) {op : SchedulerOp C} {pk : Pubkey}
    (h : pk ∈ s.integrityCulprits op) : (pk, true) ∈ s.appliedMarks cfg op := by
  obtain ⟨fault, hfault, hpk⟩ := List.mem_flatMap.mp h
  obtain ⟨hmem, hkind⟩ := List.mem_filter.mp hfault
  have hkind : fault.kind = .integrity := by simpa using hkind
  unfold appliedMarks effective
  rw [hside, hreneg]
  refine List.mem_flatMap.mpr ⟨fault, hmem, ?_⟩
  unfold Fault.marks
  cases hatt : fault.attribution with
  | none => simp [hatt] at hpk
  | peers pks =>
    rw [hatt] at hpk
    simpa [hkind] using hpk

/-- The relays a body gives a part: in a subnet's roster, or as an aggregator. -/
def placedIn (body : C.Body) (pk : Pubkey) : Bool :=
  body.subnets.any (fun subnet => subnet.relays.contains pk ||
    match subnet.protocol with
    | .adcnet c => c.aggregation.any (fun a => a.groups.contains pk)
    | .noop _ | .panetiere _ | .scheduledPanetiere _ | .scheduledAdcnet _ => false)

/-- The call stages or approves the body. -/
inductive Backs (cfg : SchedulerConfig C) (s : SchedulerCore O) : SchedulerOp C → C.Body → Prop
  | stages {op : SchedulerOp C} {proposal : SignedProposal C}
      (h : .stageProposal proposal ∈ s.actions cfg op) : Backs cfg s op proposal.body
  | approves {proposal : SignedProposal C} (h : s.Approves cfg proposal) :
      Backs cfg s (.decodedBody proposal) proposal.body

theorem not_stageProposal_tryAssemble {proposal : SignedProposal C} {body : C.Body} :
    .stageProposal proposal ∉ (s.tryAssemble cfg body).2.toList := by
  unfold tryAssemble
  dsimp only
  split_ifs
  · simp
  · split
    · simp
    · split_ifs <;> simp

/-- Only the lead's tick stages a proposal, from the state it has advanced to. -/
theorem tick_of_stageProposal {op : SchedulerOp C} {proposal : SignedProposal C}
    (h : .stageProposal proposal ∈ s.actions cfg op) :
    ∃ round now clock, op = .tick round now clock ∧ cfg.isLead = true ∧
      (s.advance cfg round now).aboveFloors cfg = true ∧
      .stageProposal proposal ∈ ((s.advance cfg round now).propose cfg clock).2 := by
  cases op with
  | tick round now clock =>
    simp only [actions, tick] at h
    split at h
    · rename_i hlead
      rw [Bool.and_eq_true] at hlead
      exact ⟨round, now, clock, rfl, hlead.1, hlead.2, h⟩
    · simp at h
  | decodedBody proposal' =>
    simp only [actions, onDecodedBody] at h
    split at h
    · simp at h
    · rcases List.mem_cons.mp h with h | h
      · cases h
      · exact absurd h not_stageProposal_tryAssemble
  | committeeSig sig =>
    simp only [actions, onCommitteeSig] at h
    split_ifs at h
    · simp at h
    · split at h
      · simp at h
      · split_ifs at h
        · simp at h
        · exact absurd h not_stageProposal_tryAssemble
  | registration _ | publishedConfig _ | faultReport _ _ _ | observedFaults _ _
  | subnetMessage _ _ _ | setCoverRate _ => simp [actions] at h

theorem registered_of_mem_relayVec {pk : Pubkey} (h : pk ∈ s.relayVec) :
    s.registered.contains pk = true :=
  OrdMap.contains_iff.mpr (OrdMap.mem_keys.mp (List.mem_of_mem_take h))

theorem mem_relayVec_of_placedIn {protos : List SchedulerProtocol} (clock : U64) {round : Round}
    {pk : Pubkey}
    (h : placedIn (C := C) { s.buildBody cfg protos clock with round := round } pk = true) :
    pk ∈ s.relayVec := by
  simp only [placedIn, buildBody, List.any_map, List.any_eq_true] at h
  obtain ⟨⟨proto, i⟩, -, h⟩ := h
  simp only [Function.comp, Bool.or_eq_true, List.contains_iff_mem] at h
  rcases h with h | h
  · exact h
  · cases proto with
    | adcnet =>
      simp only [buildProtocol, buildSubnetAggregation] at h
      split_ifs at h
      · cases hcount : aggregatorGroupCount s.capacity s.relayVec.length with
        | none => simp [hcount] at h
        | some n =>
          rw [hcount] at h
          exact List.mem_of_mem_take (List.contains_iff_mem.mp h)
      · cases h
    | panetiere | scheduledPanetiere | noop | scheduledAdcnet => cases h

/-- A staged body places relays that are registered once the tick is over. -/
theorem registered_of_stages {op : SchedulerOp C} {proposal : SignedProposal C} {pk : Pubkey}
    (h : .stageProposal proposal ∈ s.actions cfg op) (hpk : placedIn proposal.body pk = true) :
    (s.apply cfg op).registered.contains pk = true := by
  obtain ⟨round, now, clock, rfl, hlead, hfloors, h⟩ := tick_of_stageProposal h
  have hreg : ((s.advance cfg round now).primed cfg clock).registered.contains pk = true := by
    rw [staged_eq h] at hpk
    exact registered_of_mem_relayVec (mem_relayVec_of_placedIn clock hpk)
  have hsame : ((s.advance cfg round now).primed cfg clock).registered =
      (s.advance cfg round now).registered :=
    congrArg (fun v => v.roster.registered)
      (faultView_resizeScheduledVectors cfg _ (s.advance cfg round now))
  have htick : (s.apply cfg (.tick round now clock)).registered =
      (s.advance cfg round now).registered := by
    simp only [apply, tick, hlead, hfloors, Bool.and_self, if_true]
    exact congrArg (fun v => v.roster.registered) (faultView_propose cfg _ clock)
  rw [htick, ← hsame]
  exact hreg

/-- An approved body places relays that are registered. -/
theorem registered_of_accepts {proposal : SignedProposal C} {pk : Pubkey}
    (h : s.accepts cfg proposal = true) (hpk : placedIn proposal.body pk = true) :
    s.registered.contains pk = true := by
  obtain ⟨subnet, hsubnet, hpk⟩ := List.any_eq_true.mp hpk
  rw [Bool.or_eq_true] at hpk
  rcases hpk with hpk | hpk
  · exact (checked_of_accepts h).relays subnet hsubnet pk (List.contains_iff_mem.mp hpk)
  · -- an aggregator: `aggregation_valid` looks it up
    have hbody := validateBody_of_accepts h
    simp only [validateBody, Bool.and_eq_true, List.all_eq_true] at hbody
    have hvalid := hbody.2 subnet hsubnet
    simp only [validateSubnet, Bool.and_eq_true] at hvalid
    have hagg := hvalid.2
    cases hproto : subnet.protocol with
    | adcnet c =>
      rw [hproto] at hpk hagg
      cases ha : c.aggregation with
      | none => simp [ha] at hpk
      | some a =>
        simp only [ha, Option.any_some] at hpk
        simp only [aggregationValid, ha, Bool.and_eq_true, List.all_eq_true] at hagg
        exact hagg.2 pk (List.contains_iff_mem.mp hpk)
    | noop c | panetiere c | scheduledPanetiere c | scheduledAdcnet c =>
      rw [hproto] at hpk
      cases hpk

/-- **A body the core stages or approves places registered relays only.** -/
theorem registered_of_backs {op : SchedulerOp C} {body : C.Body} {pk : Pubkey}
    (h : s.Backs cfg op body) (hpk : placedIn body pk = true) :
    s.registered.contains pk = true := by
  cases h with
  | stages h =>
    refine (keeps_apply cfg s op ?_).registered (registered_of_stages h hpk)
    rintro reg rfl
    simp [actions] at h
  | approves h => exact registered_of_accepts (approves_iff.mp h) hpk

/-- A relay barred by the call itself is in no body it stages. -/
theorem not_placed_of_culprit (hside : cfg.params.sideline = true)
    (hreneg : cfg.params.renegotiateOnFault = true) (hbarred : s.roster.Barred)
    {op : SchedulerOp C} {pk : Pubkey} (h : pk ∈ s.integrityCulprits op) {body : C.Body}
    (hbacks : s.Backs cfg op body) : placedIn body pk = false := by
  rw [Bool.eq_false_iff]
  intro hpk
  cases hbacks with
  | approves => simp [integrityCulprits, appliedFaults] at h
  | stages hstage =>
    have hreg := registered_of_stages hstage hpk
    have hmark := mem_appliedMarks hside hreneg h
    rcases roster_apply_cases cfg s op with ⟨hnone, -⟩ | ⟨now, -, hr⟩
    · obtain ⟨round, now, clock, rfl, -⟩ := tick_of_stageProposal hstage
      cases hnone
    · have hheld : ((s.appliedMarks cfg op).foldl (Roster.punish now) s.roster).Held pk now :=
        Roster.held_of_mem hmark
      have hout := (Roster.Barred.foldl_punish now _ hbarred).not_registered hheld.contains
      have hsame : (s.apply cfg op).registered =
          ((s.appliedMarks cfg op).foldl (Roster.punish now) s.roster).registered := by
        rcases hr with hr | ⟨-, hr⟩
        · exact congrArg Roster.registered hr
        · exact congrArg Roster.registered hr
      rw [hsame, hout] at hreg
      cases hreg

/-- A bar from `t` is held at every moment up to the first tick after its end. -/
theorem held_after (hside : cfg.params.sideline = true)
    (hreneg : cfg.params.renegotiateOnFault = true) {pre mid : List (SchedulerOp C)}
    {op : SchedulerOp C} {pk : Pubkey} {t : U64}
    (hclock : ((pre ++ op :: mid).filterMap SchedulerOp.clock).Pairwise (· ≤ ·))
    (hpk : pk ∈ (after O cfg pre).integrityCulprits op) (ht : op.clock = some t)
    (hbar : ∀ o ∈ op :: mid, endsBar cfg t o = false) :
    (after O cfg (pre ++ op :: mid)).roster.Held pk t := by
  induction mid using List.reverseRecOn with
  | nil =>
    rw [after_concat]
    have hmark := mem_appliedMarks hside hreneg hpk
    rcases roster_apply_cases cfg (after O cfg pre) op with ⟨hnone, -⟩ | ⟨now, hnow, hr⟩
    · rw [ht] at hnone
      cases hnone
    · rw [ht] at hnow
      cases hnow
      rcases hr with hr | ⟨⟨round, clock, rfl⟩, hr⟩
      · rw [hr]
        exact Roster.held_of_mem hmark
      · rw [hr]
        refine (Roster.held_of_mem hmark).release le_rfl ?_
        have := hbar _ (List.mem_cons_self ..)
        rw [endsBar, decide_eq_false_iff_not] at this
        omega
  | append_singleton mid o ih =>
    rw [show pre ++ op :: (mid ++ [o]) = (pre ++ op :: mid) ++ [o] by simp] at hclock ⊢
    rw [List.filterMap_append, List.pairwise_append] at hclock
    rw [after_concat]
    refine held_apply (ih hclock.1 ?_) ?_ (hbar o (by simp))
    · intro o' ho'
      refine hbar o' ?_
      rcases List.mem_cons.mp ho' with rfl | ho'
      · exact List.mem_cons_self ..
      · exact List.mem_cons_of_mem _ (List.mem_append_left _ ho')
    · intro now hnow
      refine hclock.2.2 t ?_ now ?_
      · exact List.mem_filterMap.mpr ⟨op, by simp, ht⟩
      · exact List.mem_filterMap.mpr ⟨o, by simp, hnow⟩

/-- **Integrity backoff holds.**  Along every run with clocks that do not go back: no
relay is both registered and sidelined, a barred relay is sidelined and not registered,
and a relay an integrity fault of time `t` names is in no body the core stages or
approves, in the call itself and in every later one up to and with the first tick at or
after the end of its backoff. -/
theorem integrity_backoff_holds (cfg : SchedulerConfig C) (ops : List (SchedulerOp C))
    (hside : cfg.params.sideline = true) (hreneg : cfg.params.renegotiateOnFault = true)
    (hclock : (ops.filterMap SchedulerOp.clock).Pairwise (· ≤ ·)) :
    (∀ pre, pre <+: ops → ∀ pk,
      ((after O cfg pre).registered.contains pk = true →
        (after O cfg pre).sidelined.contains pk = false) ∧
      ((after O cfg pre).integrityOffenders.contains pk = true →
        (after O cfg pre).sidelined.contains pk = true ∧
          (after O cfg pre).registered.contains pk = false)) ∧
    ∀ pre op, pre ++ [op] <+: ops → ∀ t, op.clock = some t →
      ∀ pk ∈ (after O cfg pre).integrityCulprits op,
        (∀ body, (after O cfg pre).Backs cfg op body → placedIn body pk = false) ∧
        ∀ mid op', pre ++ op :: mid ++ [op'] <+: ops →
          (∀ o ∈ op :: mid, endsBar cfg t o = false) →
          ∀ body, (after O cfg (pre ++ op :: mid)).Backs cfg op' body → placedIn body pk = false := by
  refine ⟨?_, ?_⟩
  · intro pre _ pk
    have hbarred := barred_after O cfg pre
    exact ⟨hbarred.disjoint pk, fun h => ⟨hbarred.offenders pk h, hbarred.not_registered h⟩⟩
  · intro pre op hpre t ht pk hpk
    refine ⟨fun body h => not_placed_of_culprit hside hreneg (barred_after O cfg pre) hpk h, ?_⟩
    intro mid op' hmid hbar body hbacks
    have hsub : ((pre ++ op :: mid).filterMap SchedulerOp.clock).Pairwise (· ≤ ·) := by
      obtain ⟨post, rfl⟩ := hmid
      rw [List.append_assoc, List.filterMap_append, List.pairwise_append] at hclock
      exact hclock.1
    have hheld := held_after hside hreneg hsub hpk ht hbar
    rw [Bool.eq_false_iff]
    intro hplaced
    have hreg := registered_of_backs hbacks hplaced
    rw [show (after O cfg (pre ++ op :: mid)).registered.contains pk = false from
      (barred_after O cfg _).not_registered hheld.contains] at hreg
    cases hreg

/-- Two relays and a service register with the lead. -/
def staffedRun : List (SchedulerOp toyScheduler) :=
  [.registration (toyRegistration [1]),
    .registration (.relay (toyNode 10) toyExchangeKeys none none []),
    .registration (.service (.filled 20 0) (toyNode 8) toyExchangeKeys none [])]

/-- An integrity fault that names relay 9. -/
def toyOffence : Fault := ⟨.integrity, .peers [toyNode 9], []⟩

/-- Relay 9 offends at 1000, registers again at once, and the lead ticks. -/
def offenceRun : List (SchedulerOp toyScheduler) :=
  staffedRun ++ .observedFaults [toyOffence] 1000 ::
    [.registration (toyRegistration [1])] ++ [.tick 1 2000 2000]

/-- The lead stages a body after the offence, without the offender. -/
theorem integrity_backoff_holds_toy :
    (∃ body, (after toyObservers (toyMember 1) (staffedRun ++ .observedFaults [toyOffence] 1000 ::
        [.registration (toyRegistration [1])])).Backs (toyMember 1) (.tick 1 2000 2000) body) ∧
      ∀ body, (after toyObservers (toyMember 1) (staffedRun ++ .observedFaults [toyOffence] 1000 ::
        [.registration (toyRegistration [1])])).Backs (toyMember 1) (.tick 1 2000 2000) body →
          placedIn body (toyNode 9) = false := by
  refine ⟨?_, ?_⟩
  · have hstage : ∃ action ∈ (after toyObservers (toyMember 1) (staffedRun ++
        .observedFaults [toyOffence] 1000 :: [.registration (toyRegistration [1])])).actions
          (toyMember 1) (.tick 1 2000 2000), action matches .stageProposal _ := by decide +kernel
    obtain ⟨action, hmem, haction⟩ := hstage
    cases action with
    | stageProposal proposal => exact ⟨proposal.body, .stages hmem⟩
    | publishSig | publishConfig => cases haction
  · have hrun := integrity_backoff_holds (O := toyObservers) (toyMember 1) offenceRun rfl rfl
      (by decide +kernel)
    have hpre : staffedRun ++ [.observedFaults [toyOffence] 1000] <+: offenceRun :=
      ⟨[.registration (toyRegistration [1]), .tick 1 2000 2000], rfl⟩
    exact (hrun.2 staffedRun (.observedFaults [toyOffence] 1000) hpre 1000 rfl
      (toyNode 9) (by decide +kernel)).2 [.registration (toyRegistration [1])] (.tick 1 2000 2000)
      (List.prefix_refl _) (by decide +kernel)

end SchedulerCore
end Anymone
