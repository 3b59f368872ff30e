import Anymone.PanetiereLaneToy
import Anymone.PanetiereObserver

/-! # Which reported faults the committee can verify

A relay names a lane that does not open, with the wire the lane was posted in, and an
observer names a relay whose key share does not match its opening.  The committee
derives the culprit again from the wire alone (`integrityCulpritFromEvidence`), and
the wire alone shows only the key half: the fault of an observer is always derived
again, that of a relay exactly when the posted key half is inconsistent as well
(`reported_fault_reverified_iff`).
-/

namespace Anymone
variable {C : SchedulerCrate}

/-- Whether a fault is attributed to `p`. -/
def Fault.Names (f : Fault) (p : Pubkey) : Prop :=
  match f.attribution with
  | .none => False
  | .peers pks => p ∈ pks

/-- What `server_public_consistent` says of the share in a wire. -/
def keyHalfConsistent (C : SchedulerCrate) (evidence : Bytes) : Bool :=
  match PanetiereWire.deserialize evidence with
  | some (.serverPublic _ _ _ aggOpen aggShare _ _ _) => serverPublicConsistent C aggOpen aggShare
  | _ => true

/-- The roster a session's slots are numbered by. -/
def SlotsOf (cfg : ServerConfig C.toSessionCrate) (roster : List Pubkey) : Prop :=
  ∀ id : ServerId, cfg.serverPubkeys.get? id = roster[id.val]?

/-- **The culprit of a posted share** is its owner, when the key half is inconsistent. -/
theorem culprit_of_posted {cfg : ServerConfig C.toSessionCrate} {roster : List Pubkey}
    (hroster : SlotsOf cfg roster) {r : Round} {id : U32} {payload : Bytes}
    {entries : C.ServerEntry × C.NodeEntry} (p : PostedShare cfg r id payload entries) :
    integrityCulpritFromEvidence C payload roster =
      if keyHalfConsistent C payload then none else some p.owner := by
  have hslot : roster[id.val]? = some p.owner := (hroster id).symm.trans p.slot
  have hverified := p.verified
  unfold integrityCulpritFromEvidence keyHalfConsistent
  simp only [p.message, hslot, Option.bind_eq_bind, Option.bind_some, hverified, Bool.not_true,
    Bool.false_eq_true, if_false]
  cases serverPublicConsistent C p.aggOpen p.aggShare <;> rfl

/-! ## The observer -/

/-- A call to an observer. -/
inductive ObserverOp where
  | beginRound (round : Round)
  | inbound (sender : PeerId) (payload : Bytes)
  | endRound

namespace PanetiereObserverSession
open Trace
variable {o : PanetiereObserverSession}

/-- The observer after a call. -/
def apply (C : SchedulerCrate) (o : PanetiereObserverSession) : ObserverOp → PanetiereObserverSession
  | .beginRound round => o.beginRound round
  | .inbound sender payload => o.onInbound C sender payload
  | .endRound => o.endRound.1

/-- The faults of a call. -/
def faultsBy (o : PanetiereObserverSession) : ObserverOp → List Fault
  | .endRound => o.endRound.2
  | _ => []

/-- Every fault of a run. -/
def faults (C : SchedulerCrate) (roster : List PeerId) (leader : Option PeerId)
    (faultThreshold : U64) (ops : List ObserverOp) : List Fault :=
  observed (new roster leader faultThreshold) (apply C) faultsBy ops

/-- The roster is the one the observer was built with, and every fault it keeps for the
end of the round is derived again from its evidence, a payload that came. -/
structure Verifies (C : SchedulerCrate) (roster : List PeerId) (came : Bytes → Prop)
    (o : PanetiereObserverSession) : Prop where
  numbered : o.roster = roster
  pending : ∀ f ∈ o.integrityPending, came f.evidence ∧ ∃ p, f.attribution = .peers [p] ∧
    integrityCulpritFromEvidence C f.evidence roster = some p

/-- What is counted and recorded besides leaves the faults alone. -/
theorem Verifies.congr {roster : List PeerId} {came : Bytes → Prop}
    {o' : PanetiereObserverSession} (h : Verifies C roster came o) (hroster : o'.roster = o.roster)
    (hpending : o'.integrityPending = o.integrityPending) : Verifies C roster came o' := by
  refine ⟨hroster.trans h.numbered, ?_⟩
  rw [hpending]
  exact h.pending

theorem countShare_frame (o : PanetiereObserverSession) (round : Round) (serverId : U32)
    (clients : List U32) :
    (o.countShare round serverId clients).roster = o.roster ∧
      (o.countShare round serverId clients).integrityPending = o.integrityPending := by
  unfold countShare
  dsimp only
  split <;> exact ⟨rfl, rfl⟩

/-- An authenticated share adds a fault only when the committee's own check finds the
same relay. -/
theorem Verifies.observe {roster : List PeerId} {came : Bytes → Prop} (h : Verifies C roster came o)
    {sender : PeerId} {payload : Bytes} (hcame : came payload) {msg : PanetiereWire}
    (hmsg : PanetiereWire.deserialize payload = some msg) :
    Verifies C roster came (o.observe C sender payload msg) := by
  cases msg with
  | serverPublic round id clients aggOpen aggShare shareSum laneOpen signature =>
    simp only [PanetiereObserverSession.observe]
    cases hslot : o.roster[id.val]? with
    | none => exact h
    | some expected =>
      -- only a share of the relay that holds the slot is counted
      by_cases hauth : sender = expected ∧ C.pubkeyVerify expected (serverPublicSigningBytes round
          id clients aggOpen aggShare shareSum laneOpen) signature = true
      · simp only [if_pos hauth]
        have hframe := countShare_frame o round id clients
        have hcount : Verifies C roster came (o.countShare round id clients) :=
          h.congr hframe.1 hframe.2
        unfold checkShare
        dsimp only
        split
        · rename_i hbad
          simp only [Bool.and_eq_true, Bool.not_eq_true'] at hbad
          -- the share is filed as it came, so whoever is shown it finds the same fault
          refine ⟨hcount.numbered, ?_⟩
          intro f hf
          rcases List.mem_append.mp hf with hf | hf
          · exact hcount.pending f hf
          · obtain rfl := List.mem_singleton.mp hf
            refine ⟨hcame, expected, rfl, ?_⟩
            rw [h.numbered] at hslot
            unfold integrityCulpritFromEvidence
            simp [hmsg, hslot, hauth.2, hbad.1]
        · exact hcount.congr rfl rfl
      · simp only [if_neg hauth]
        exact h
  | clientSet round clients demand =>
    simp only [PanetiereObserverSession.observe]
    split
    · exact h.congr rfl rfl
    · exact h
  | decoded round payloads =>
    simp only [PanetiereObserverSession.observe]
    split
    · exact h.congr rfl rfl
    · exact h
  | reservations round entries signature =>
    simp only [PanetiereObserverSession.observe]
    split
    · exact h.congr rfl rfl
    · exact h
  | clientPublic => exact h
  | opening => exact h
  | clientSlice => exact h
  | bundle => exact h
  | setBatch => exact h
  | setFragment => exact h
  | setRelay => exact h

theorem Verifies.apply {roster : List PeerId} {came : Bytes → Prop} (h : Verifies C roster came o)
    {op : ObserverOp} (hop : ∀ sender payload, op = .inbound sender payload → came payload) :
    Verifies C roster came (o.apply C op) := by
  cases op with
  | beginRound round => exact h.congr rfl rfl
  | inbound sender payload =>
    simp only [PanetiereObserverSession.apply, onInbound]
    cases hmsg : PanetiereWire.deserialize payload with
    | none => exact h
    | some msg =>
      dsimp only
      split
      · have hseen : Verifies C roster came
            { o with maxRound := some (o.maxRound.elim msg.round (max · msg.round)) } :=
          h.congr rfl rfl
        exact hseen.observe (hop sender payload rfl) hmsg
      · exact h
  | endRound =>
    refine ⟨h.numbered, ?_⟩
    intro f hf
    exact absurd hf (List.not_mem_nil)

theorem verifies_after {came : Bytes → Prop} (roster : List PeerId) (leader : Option PeerId)
    (faultThreshold : U64) {ops : List ObserverOp}
    (hops : ∀ sender payload, .inbound sender payload ∈ ops → came payload) :
    Verifies C roster came (run (new roster leader faultThreshold) (apply C) ops) := by
  induction ops using List.reverseRecOn with
  | nil =>
    refine ⟨rfl, ?_⟩
    intro f hf
    exact absurd hf (List.not_mem_nil)
  | append_singleton ops op ih =>
    rw [run_concat]
    refine (ih ?_).apply ?_
    · intro sender payload hmem
      exact hops sender payload (List.mem_append_left _ hmem)
    · rintro sender payload rfl
      exact hops sender payload (by simp)

/-- **An observer's integrity fault is derived again from its evidence**, a payload that
came. -/
theorem reverified_of_observed {came : Bytes → Prop} {roster : List PeerId}
    {leader : Option PeerId} {faultThreshold : U64} {ops : List ObserverOp} {f : Fault} {p : Pubkey}
    (hops : ∀ sender payload, .inbound sender payload ∈ ops → came payload)
    (h : f ∈ faults C roster leader faultThreshold ops) (hkind : f.kind = .integrity)
    (hname : f.Names p) :
    came f.evidence ∧ integrityCulpritFromEvidence C f.evidence roster = some p := by
  obtain ⟨⟨pre, op⟩, hσ, h⟩ := List.mem_flatMap.mp h
  have hpre : ∀ sender payload, .inbound sender payload ∈ pre → came payload := by
    intro sender payload hmem
    exact hops sender payload ((prefix_of_mem_steps hσ).subset (List.mem_append_left _ hmem))
  cases op with
  | beginRound round => exact absurd h (List.not_mem_nil)
  | inbound sender payload => exact absurd h (List.not_mem_nil)
  | endRound =>
    rcases List.mem_append.mp h with h | h
    · obtain ⟨hcame, q, hq, hculprit⟩ :=
        (verifies_after roster leader faultThreshold hpre).pending f h
      unfold Fault.Names at hname
      rw [hq] at hname
      rw [hculprit, List.mem_singleton.mp hname]
      exact ⟨hcame, rfl⟩
    · -- The tracker reports liveness only.
      rw [(OutputFaultTracker.evaluate_liveness h).1] at hkind
      cases hkind

end PanetiereObserverSession

/-! ## The relay -/

namespace ServerSession
open Trace
variable {cfg : ServerConfig C.toSessionCrate} {roster : List Pubkey}

/-- No posted lane hides behind a consistent key half: in the buckets still to be decoded,
each opens against the posts held, or its key half is inconsistent too. -/
def Accountable (K : LaneCheck C.toSessionCrate) (cfg : ServerConfig C.toSessionCrate)
    (s : ServerSession C.toSessionCrate) : Prop :=
  ∀ e ∈ s.rounds.entries, e.2.decoded = false → ∀ l ∈ e.2.peerLaneSums.entries, l.2.2 ≠ [] →
    keyHalfConsistent C l.2.2 = true →
      K.laneOpens cfg.scp l.2.1 (e.2.roots l.2.1.clients) = true

/-- **A relay's fault comes from a posted share of the relay it names**, which the bucket
held before the call and which does not open. -/
theorem posted_of_fault (K : LaneCheck C.toSessionCrate) {ops : List SessionOp} {op : SessionOp}
    {f : Fault} (h : f ∈ faultsBy cfg (after cfg ops) op) (hev : f.evidence ≠ []) {p : Pubkey}
    (hname : f.Names p) :
    isEndRound op = true ∧ ∃ r b id lane server, ((after cfg ops).rounds.get? r = some b ∧
      b.decoded = false ∧ b.peerLaneSums.get? id = some (lane, f.evidence) ∧
      K.laneOpens cfg.scp lane (b.roots lane.clients) = false) ∧
      ∃ posted : PostedShare cfg r id f.evidence (server, lane), posted.owner = p := by
  obtain ⟨round, r, b, b', id, lane, payload, pk, rfl, hb, hdec, hcar, -, hposted, hget, hpk, rfl,
    -, hopen⟩ := fault_of_faultsBy K h
  obtain ⟨server, posted, -⟩ := hposted id lane payload hget hev
  refine ⟨rfl, r, b, id, lane, server, ⟨hb, hdec, hcar.posted hev hget, hopen⟩, posted, ?_⟩
  have howner := posted.slot
  rw [hpk] at howner
  rw [List.mem_singleton.mp hname]
  exact (Option.some.inj howner).symm

/-- **What the committee makes of a reported integrity fault.**  In every run of a relay, the
culprit of a fault that carries evidence is derived again exactly when the key half in
the evidence is inconsistent.  So it always is in a run whose rounds end with every
posted lane accountable, and in every run of an observer. -/
theorem reported_fault_reverified_iff (K : LaneCheck C.toSessionCrate)
    (hroster : SlotsOf cfg roster) :
    (∀ ops, ∀ f ∈ faults cfg ops, f.kind = .integrity → f.evidence ≠ [] → ∀ p, f.Names p →
      (integrityCulpritFromEvidence C f.evidence roster = some p ↔
        keyHalfConsistent C f.evidence = false)) ∧
    (∀ ops, (∀ σ ∈ steps ops, isEndRound σ.2 = true → Accountable K cfg (after cfg σ.1)) →
      ∀ f ∈ faults cfg ops, f.kind = .integrity → f.evidence ≠ [] → ∀ p, f.Names p →
        integrityCulpritFromEvidence C f.evidence roster = some p) ∧
    (∀ leader threshold ops, ∀ f ∈ PanetiereObserverSession.faults C roster leader threshold ops,
      f.kind = .integrity → f.evidence ≠ [] → ∀ p, f.Names p →
        integrityCulpritFromEvidence C f.evidence roster = some p) := by
  refine ⟨?_, ?_, ?_⟩
  · intro ops f hf _ hev p hname
    obtain ⟨⟨pre, op⟩, -, hf⟩ := List.mem_flatMap.mp hf
    obtain ⟨-, r, b, id, lane, server, -, posted, rfl⟩ := posted_of_fault K hf hev hname
    rw [culprit_of_posted hroster posted]
    cases keyHalfConsistent C f.evidence <;> simp
  · intro ops hacc f hf _ hev p hname
    obtain ⟨⟨pre, op⟩, hσ, hf⟩ := List.mem_flatMap.mp hf
    obtain ⟨hend, r, b, id, lane, server, ⟨hb, hdec, hget, hopen⟩, posted, rfl⟩ :=
      posted_of_fault K hf hev hname
    have hlane := hacc (pre, op) hσ hend (r, b) (OrdMap.get?_eq_some_iff.mp hb) hdec
      (id, lane, f.evidence) (OrdMap.get?_eq_some_iff.mp hget) hev
    rw [culprit_of_posted hroster posted]
    cases hkey : keyHalfConsistent C f.evidence with
    | false => rfl
    | true =>
      rw [hlane hkey] at hopen
      cases hopen
  · intro leader threshold ops f hf hkind _ p hname
    have hcame : ∀ sender payload, ObserverOp.inbound sender payload ∈ ops → True :=
      fun _ _ _ => trivial
    exact (PanetiereObserverSession.reverified_of_observed hcame hf hkind hname).2

/-- A leader's round with one client; the share of relay 1 arrives with a key share and a
lane sum, and the round is decoded. -/
def laneRun (aggShare shareSum : U8) : List SessionOp :=
  [.beginRound 5, .from 7 (.toyPublic 5 7 1), .from 7 (.toyOpening 5 7 0),
    .from 7 (.toySlice 5 7 0 [1]), .endRound 5, .beginRound 6,
    .from 101 (.toyPosted 5 1 [7] aggShare shareSum), .endRound 6]

/-- **A lying lane that the committee does not convict.**  Relay 1 signs a key share that is
right and a lane sum that is not: the leader names it with the wire it signed, and the
committee finds nothing wrong with the wire. -/
theorem lane_fault_not_reverified :
    ∃ f ∈ faults (toyRelay 0 .leader) (laneRun 1 9), f.kind = .integrity ∧ f.evidence ≠ [] ∧
      f.Names (toyNode 101) ∧
      integrityCulpritFromEvidence toyLanes f.evidence toyRoster = none := by
  refine ⟨⟨.integrity, .peers [toyNode 101],
    (PanetiereWire.toyPosted 5 1 [7] 1 9).serialize⟩, ?_, rfl, ?_, ?_, ?_⟩
  · decide +kernel
  · decide +kernel
  · exact List.mem_singleton.mpr rfl
  · decide +kernel

theorem slotsOf_toyRelay (i : ServerId) (mode : SetMode) : SlotsOf (toyRelay i mode) toyRoster := by
  intro id
  show (((OrdMap.empty.insert 0 (toyNode 100)).insert 1 (toyNode 101)).insert 2
    (toyNode 102)).get? id = toyRoster[id.val]?
  simp only [OrdMap.get?_insert, OrdMap.get?_empty]
  by_cases h2 : id = 2
  · subst h2
    rfl
  · by_cases h1 : id = 1
    · subst h1
      rfl
    · by_cases h0 : id = 0
      · subst h0
        rfl
      · rw [if_neg h2, if_neg h1, if_neg h0]
        have hv0 : id.val ≠ 0 := fun h => h0 (Fin.ext h)
        have hv1 : id.val ≠ 1 := fun h => h1 (Fin.ext h)
        have hv2 : id.val ≠ 2 := fun h => h2 (Fin.ext h)
        have hlen : toyRoster.length ≤ id.val := by
          show 3 ≤ id.val
          omega
        exact (List.getElem?_eq_none hlen).symm

instance (K : LaneCheck C.toSessionCrate) (cfg : ServerConfig C.toSessionCrate)
    (s : ServerSession C.toSessionCrate) : Decidable (Accountable K cfg s) :=
  inferInstanceAs (Decidable (∀ e ∈ s.rounds.entries, e.2.decoded = false →
    ∀ l ∈ e.2.peerLaneSums.entries, l.2.2 ≠ [] → keyHalfConsistent C l.2.2 = true →
      K.laneOpens cfg.scp l.2.1 (e.2.roots l.2.1.clients) = true))

/-- Relay 1 lies in both halves, and is convicted by the wire the leader reports. -/
theorem reported_fault_reverified_toy :
    ∃ f ∈ faults (toyRelay 0 .leader) (laneRun 255 9), f.evidence ≠ [] ∧
      integrityCulpritFromEvidence toyLanes f.evidence toyRoster = some (toyNode 101) := by
  have hmem : (⟨.integrity, .peers [toyNode 101], (PanetiereWire.toyPosted 5 1 [7] 255 9).serialize⟩ :
      Fault) ∈ faults (toyRelay 0 .leader) (laneRun 255 9) := by decide +kernel
  have hne : (PanetiereWire.toyPosted 5 1 [7] 255 9).serialize ≠ [] := by decide +kernel
  refine ⟨_, hmem, hne, ?_⟩
  exact (reported_fault_reverified_iff toyLaneCheck (slotsOf_toyRelay 0 .leader)).2.1
    (laneRun 255 9) (by decide +kernel) _ hmem rfl hne (toyNode 101) (List.mem_singleton.mpr rfl)

end ServerSession
end Anymone
