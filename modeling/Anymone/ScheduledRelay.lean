import Anymone.ScheduledServer

/-! # What a relay extracts

The message section of a round is cut up under the reservations of the round two
before it.  A relay that knows one list for the reservation round, and settles one
plaintext for the round that fulfils it, extracts what that plaintext has in the slots
of that list (`extracted_eq`), at most once for each time it settles the round
(`countP_extracted_le`).
-/

namespace Anymone
variable {C : ScheduledCrate}

namespace ScheduledServerSession
variable (cfg : ScheduledServerConfig C) (s : ScheduledServerSession C) (entries : EntryMap)

/-- Everything extracted in a run. -/
def extractedAll (ops : List RelayOp) : List (Round × List Bytes) :=
  Trace.observed (new entries) (apply cfg) (extractedBy cfg) ops

/-- Everything settled in a run. -/
def settledAll (ops : List RelayOp) : List (Round × List C.KahePoly) :=
  Trace.observed (new entries) (apply cfg) (settledBy cfg) ops

/-- A call brings no list for the round but this one. -/
def OneList (round : Round) (list : List Entry) : RelayOp → Prop
  | .inbound sender payload => sender = cfg.leaderPk → ∀ l signature,
      PanetiereWire.deserialize payload = some (.reservations round l signature) →
      leaderSigned cfg round l signature = true → l = list
  | .share m => ∀ l, m.get? round = some l → l = list
  | _ => True

/-- What a relay sees of a reservation round and the round that fulfils it: one list of
reservations, whichever way it comes, and one plaintext. -/
structure Sees (round : Round) (list : List Entry) (plain : List C.KahePoly)
    (ops : List RelayOp) : Prop where
  node : ∀ l, entries.get? round = some l → l = list
  one_list : ∀ op ∈ ops, OneList cfg round list op
  decoded : ∀ d ∈ settledAll cfg entries ops, d.1 = round → cfg.decodedEntries d.2 = list
  plaintext : ∀ d ∈ settledAll cfg entries ops, d.1 = fulfilledAt round → d.2 = plain

variable {cfg s entries} {round : Round} {list : List Entry} {plain : List C.KahePoly}
  {ops : List RelayOp}

theorem mem_settledAll {d : Round × List C.KahePoly} :
    d ∈ settledAll cfg entries ops ↔
      ∃ σ ∈ Trace.steps ops, d ∈ settledBy cfg (after cfg entries σ.1) σ.2 := List.mem_flatMap

theorem mem_extractedAll {d : Round × List Bytes} :
    d ∈ extractedAll cfg entries ops ↔
      ∃ σ ∈ Trace.steps ops, d ∈ extractedBy cfg (after cfg entries σ.1) σ.2 := List.mem_flatMap

/-- What the session knows of the round agrees with the list and the plaintext. -/
structure Knows (cfg : ScheduledServerConfig C) (round : Round) (list : List Entry)
    (plain : List C.KahePoly) (s : ScheduledServerSession C) : Prop where
  entries : ∀ l, s.entriesByRound.get? round = some l → l = list
  pending : ∀ p, s.pendingMsg.get? (fulfilledAt round) = some p → p = plain.drop (cfg.split plain)

theorem Knows.congr {s' : ScheduledServerSession C} (h : Knows cfg round list plain s)
    (he : s'.entriesByRound = s.entriesByRound) (hp : s'.pendingMsg = s.pendingMsg) :
    Knows cfg round list plain s' where
  entries := he ▸ h.entries
  pending := hp ▸ h.pending

theorem Knows.noteReservations (h : Knows cfg round list plain s) {r : Round} {l : List Entry}
    (hl : r = round → l = list) : Knows cfg round list plain (s.noteReservations r l) := by
  unfold ScheduledServerSession.noteReservations
  split
  · refine ⟨?_, h.pending⟩
    intro l' hl'
    dsimp only at hl'
    rw [OrdMap.get?_orInsert] at hl'
    split at hl'
    · rename_i hr
      subst hr
      cases hold : s.entriesByRound.get? round with
      | none =>
        rw [hold] at hl'
        cases hl'
        exact hl rfl
      | some old =>
        rw [hold] at hl'
        cases hl'
        exact h.entries _ hold
    · exact h.entries l' hl'
  · exact h

theorem Knows.onInbound (h : Knows cfg round list plain s) {sender : PeerId} {payload : Bytes}
    (hone : OneList cfg round list (.inbound sender payload)) :
    Knows cfg round list plain (s.onInbound cfg sender payload).1 := by
  unfold ScheduledServerSession.onInbound
  split
  · rename_i hleader
    split
    · rename_i r l signature hmsg
      split
      · rename_i hsigned
        refine (h.noteReservations (r := r) (l := l) ?_).congr rfl rfl
        rintro rfl
        exact hone hleader l signature hmsg hsigned
      · exact h
    · exact h.congr rfl rfl
  · exact h.congr rfl rfl

/-- Splitting what was settled, when that agrees too. -/
theorem Knows.recorded (h : Knows cfg round list plain s) {now : Round}
    (hlist : ∀ d ∈ s.settled cfg now, d.1 = round → cfg.decodedEntries d.2 = list)
    (hplain : ∀ d ∈ s.settled cfg now, d.1 = fulfilledAt round → d.2 = plain) :
    Knows cfg round list plain (s.recorded cfg now) where
  entries l hl := by
    rcases OrdMap.get?_insertAll_cases _ hl with hl | hl
    · exact h.entries l hl
    · obtain ⟨d, hd, he⟩ := List.mem_map.mp hl
      cases he
      exact hlist d hd rfl
  pending p hp := by
    rcases OrdMap.get?_insertAll_cases _ hp with hp | hp
    · exact h.pending p hp
    · obtain ⟨d, hd, he⟩ := List.mem_map.mp hp
      obtain ⟨hround, hsection⟩ := Prod.mk.inj he
      rw [← hsection, hplain d hd hround]

theorem Knows.swept (h : Knows cfg round list plain s) (now : Round) :
    Knows cfg round list plain (s.swept now) where
  entries l hl := by
    unfold ScheduledServerSession.swept at hl
    rw [OrdMap.get?_retain, Option.filter_eq_some_iff] at hl
    exact h.entries l hl.1
  pending p hp := by
    unfold ScheduledServerSession.swept at hp
    rw [OrdMap.get?_retain, Option.filter_eq_some_iff, OrdMap.get?_retain,
      Option.filter_eq_some_iff] at hp
    exact h.pending p hp.1.1

theorem Knows.checkpoint (h : Knows cfg round list plain s) (r : Round) (k : U8) :
    Knows cfg round list plain (s.checkpoint cfg r k).1 := by
  unfold ScheduledServerSession.checkpoint
  split_ifs
  · exact h.congr rfl rfl
  · exact h.congr rfl rfl
  · exact h

/-- **What a relay knows stays what it saw**, over its whole run. -/
theorem knows_after (h : Sees cfg entries round list plain ops) : ∀ pre, pre <+: ops →
    Knows cfg round list plain (after cfg entries pre) := by
  refine Trace.prefix_induction ⟨h.node, fun p hp => by cases hp⟩ ?_
  rintro ⟨pre, op⟩ hσ ih
  have hone := h.one_list op (Trace.mem_of_mem_steps hσ)
  have hsettled : ∀ d ∈ settledBy cfg (after cfg entries pre) op, d ∈ settledAll cfg entries ops :=
    fun d hd => mem_settledAll.mpr ⟨(pre, op), hσ, hd⟩
  unfold after at ih ⊢
  rw [Trace.run_concat]
  cases op with
  | beginRound r => exact ih.congr rfl rfl
  | inbound sender payload => exact ih.onInbound hone
  | checkpoint r k => exact ih.checkpoint r k
  | endRound now =>
    exact (ih.recorded (fun d hd => h.decoded d (hsettled d hd))
      (fun d hd => h.plaintext d (hsettled d hd))).swept now
  | setMisbehavior mode => exact ih.congr rfl rfl
  | share m => exact ⟨hone, ih.pending⟩

theorem mem_extractions {d : Round × List Bytes} :
    d ∈ s.extractions cfg ↔ ∃ p prev l, s.pendingMsg.get? d.1 = some p ∧
      reservedAt d.1 = some prev ∧ s.entriesByRound.get? prev = some l ∧
      d.2 = cfg.extract p l := by
  unfold extractions
  rw [List.mem_filterMap]
  constructor
  · rintro ⟨e, he, hd⟩
    obtain ⟨prev, hprev, hd⟩ := Option.bind_eq_some_iff.mp hd
    obtain ⟨l, hl, hd⟩ := Option.bind_eq_some_iff.mp hd
    cases hd
    exact ⟨e.2, prev, l, OrdMap.get?_eq_some_iff.mpr he, hprev, hl, rfl⟩
  · rintro ⟨p, prev, l, hp, hprev, hl, hd⟩
    refine ⟨(d.1, p), OrdMap.get?_eq_some_iff.mp hp, ?_⟩
    simp only [hprev, hl, Option.bind_eq_bind, Option.bind_some]
    rw [← hd]

/-- **A relay extracts what the plaintext has in the slots of the list.** -/
theorem extracted_eq (hround : round.val + reservationToMsgGap < 18446744073709551616)
    (h : Sees cfg entries round list plain ops) {d : Round × List Bytes}
    (hd : d ∈ extractedAll cfg entries ops) (hrd : d.1 = fulfilledAt round) :
    d.2 = cfg.extract (plain.drop (cfg.split plain)) list := by
  obtain ⟨⟨pre, op⟩, hσ, hd⟩ := mem_extractedAll.mp hd
  have hknows := knows_after h pre
    ((List.prefix_append pre [op]).trans (Trace.prefix_of_mem_steps hσ))
  cases op with
  | endRound now =>
    have hsettled : ∀ e ∈ (after cfg entries pre).settled cfg now,
        e ∈ settledAll cfg entries ops :=
      fun e he => mem_settledAll.mpr ⟨(pre, .endRound now), hσ, he⟩
    have hrecorded : Knows _ _ _ _ ((after cfg entries pre).recorded cfg now) :=
      hknows.recorded (fun e he => h.decoded e (hsettled e he))
        (fun e he => h.plaintext e (hsettled e he))
    obtain ⟨p, prev, l, hp, hprev, hl, hd⟩ := mem_extractions.mp hd
    rw [hrd] at hp hprev
    rw [reservedAt_fulfilledAt hround] at hprev
    cases hprev
    rw [hd, hrecorded.pending p hp, hrecorded.entries l hl]
  | _ => cases hd

/-- An `end_round` that settles a round whose reservations are known extracts it. -/
theorem extracted_of_settled {rd prev now : Round} {plain : List C.KahePoly} {l : List Entry}
    (hd : (rd, plain) ∈ s.settled cfg now) (hprev : reservedAt rd = some prev)
    (hl : (s.recorded cfg now).entriesByRound.get? prev = some l) :
    ∃ d ∈ extractedBy cfg s (.endRound now), d.1 = rd := by
  have hsorted : ((s.settled cfg now).map (fun d => (d.1, d.2.drop (cfg.split d.2)))).Pairwise
      (fun a b => a.1 < b.1) :=
    List.pairwise_map.mpr (OrdMap.filterMap_sorted (s.shared cfg now).1.rounds
      (fun r b => (cfg.inner.decodeOne (s.shared cfg now).1.clientSetByRound r b).1))
  have hp : (s.recorded cfg now).pendingMsg.get? rd = some (plain.drop (cfg.split plain)) :=
    OrdMap.get?_insertAll_of_mem _ hsorted (List.mem_map.mpr ⟨(rd, plain), hd, rfl⟩)
  exact ⟨(rd, _), mem_extractions.mpr ⟨_, prev, l, hp, hprev, hl, rfl⟩, rfl⟩

/-! ## Once -/

/-- Whether the message section of a round is waiting. -/
def waiting (s : ScheduledServerSession C) (rd : Round) : Nat :=
  if s.pendingMsg.contains rd then 1 else 0

theorem waiting_congr {s' : ScheduledServerSession C} (h : s'.pendingMsg = s.pendingMsg)
    (rd : Round) : s'.waiting rd = s.waiting rd := by
  unfold waiting
  rw [h]

theorem onInbound_pendingMsg (cfg : ScheduledServerConfig C) (s : ScheduledServerSession C)
    (sender : PeerId) (payload : Bytes) :
    (s.onInbound cfg sender payload).1.pendingMsg = s.pendingMsg := by
  have hnote : ∀ r l, (s.noteReservations r l).pendingMsg = s.pendingMsg := by
    intro r l
    unfold noteReservations
    split <;> rfl
  unfold onInbound
  split
  · split
    · split
      · exact hnote ..
      · rfl
    · rfl
  · rfl

theorem checkpoint_pendingMsg (cfg : ScheduledServerConfig C) (s : ScheduledServerSession C)
    (r : Round) (k : U8) : (s.checkpoint cfg r k).1.pendingMsg = s.pendingMsg := by
  unfold checkpoint
  split_ifs <;> rfl

/-- A section that waits after the split waited before, or was settled now. -/
theorem waiting_recorded (cfg : ScheduledServerConfig C) (s : ScheduledServerSession C)
    (now rd : Round) : (s.recorded cfg now).waiting rd ≤
      s.waiting rd + (s.settled cfg now).countP (fun d => d.1 = rd) := by
  unfold waiting
  by_cases hc : (s.recorded cfg now).pendingMsg.contains rd = true
  · rw [if_pos hc]
    obtain ⟨p, hp⟩ := OrdMap.contains_iff.mp hc
    rcases OrdMap.get?_insertAll_cases _ hp with hp | hp
    · rw [if_pos (OrdMap.contains_iff.mpr ⟨p, hp⟩)]
      omega
    · obtain ⟨d, hd, he⟩ := List.mem_map.mp hp
      have : 0 < (s.settled cfg now).countP (fun d => d.1 = rd) :=
        List.countP_pos_iff.mpr ⟨d, hd, decide_eq_true (congrArg Prod.fst he)⟩
      omega
  · rw [if_neg hc]
    omega

/-- A section is extracted once, and then waits no more. -/
theorem extracted_add_waiting (cfg : ScheduledServerConfig C) (s : ScheduledServerSession C)
    (now rd : Round) :
    (s.extractions cfg).countP (fun d => d.1 = rd) + (s.swept now).waiting rd ≤ s.waiting rd := by
  have hone : (s.extractions cfg).countP (fun d => d.1 = rd) ≤ 1 := by
    refine OrdMap.countP_filterMap_le_one (k := rd) s.pendingMsg ?_
    intro e d hd hrd
    obtain ⟨prev, -, hd⟩ := Option.bind_eq_some_iff.mp hd
    obtain ⟨l, -, hd⟩ := Option.bind_eq_some_iff.mp hd
    cases hd
    exact of_decide_eq_true hrd
  have hmem : 0 < (s.extractions cfg).countP (fun d => d.1 = rd) →
      s.waiting rd = 1 ∧ (s.swept now).waiting rd = 0 := by
    intro hpos
    obtain ⟨d, hd, hrd⟩ := List.countP_pos_iff.mp hpos
    obtain ⟨p, prev, l, hp, hprev, hl, -⟩ := mem_extractions.mp hd
    rw [of_decide_eq_true hrd] at hp hprev
    have hready : s.ready rd = true := by
      unfold ready
      rw [hprev]
      exact OrdMap.contains_iff.mpr ⟨l, hl⟩
    unfold waiting
    refine ⟨if_pos (OrdMap.contains_iff.mpr ⟨p, hp⟩), if_neg ?_⟩
    rw [OrdMap.contains_iff]
    rintro ⟨q, hq⟩
    unfold swept at hq
    rw [OrdMap.get?_retain, Option.filter_eq_some_iff, OrdMap.get?_retain,
      Option.filter_eq_some_iff, hready] at hq
    exact absurd hq.1.2 (by decide)
  have hkept : (s.swept now).waiting rd ≤ s.waiting rd := by
    unfold waiting
    by_cases hc : (s.swept now).pendingMsg.contains rd = true
    · obtain ⟨q, hq⟩ := OrdMap.contains_iff.mp hc
      unfold swept at hq
      rw [OrdMap.get?_retain, Option.filter_eq_some_iff, OrdMap.get?_retain,
        Option.filter_eq_some_iff] at hq
      rw [if_pos hc, if_pos (OrdMap.contains_iff.mpr ⟨q, hq.1.1⟩)]
    · rw [if_neg hc]
      omega
  by_cases hpos : 0 < (s.extractions cfg).countP (fun d => d.1 = rd)
  · have := hmem hpos
    omega
  · omega

/-- One call: what it extracts and leaves waiting was waiting or is settled by it. -/
theorem extractedBy_add_waiting (cfg : ScheduledServerConfig C) (s : ScheduledServerSession C)
    (op : RelayOp) (rd : Round) :
    (extractedBy cfg s op).countP (fun d => d.1 = rd) + (s.apply cfg op).waiting rd ≤
      s.waiting rd + (settledBy cfg s op).countP (fun d => d.1 = rd) := by
  cases op with
  | endRound now =>
    have hrecorded := waiting_recorded cfg s now rd
    have hswept := extracted_add_waiting cfg (s.recorded cfg now) now rd
    exact hswept.trans hrecorded
  | inbound sender payload =>
    exact (Nat.zero_add _).trans_le (waiting_congr (onInbound_pendingMsg cfg s sender payload) rd).le
  | checkpoint r k =>
    exact (Nat.zero_add _).trans_le (waiting_congr (checkpoint_pendingMsg cfg s r k) rd).le
  | beginRound r => exact (Nat.zero_add _).le
  | setMisbehavior mode => exact (Nat.zero_add _).le
  | share m => exact (Nat.zero_add _).le

/-- **A round is extracted at most once for each time it is settled.** -/
theorem countP_extracted_le (cfg : ScheduledServerConfig C) (entries : EntryMap)
    (ops : List RelayOp) (rd : Round) :
    (extractedAll cfg entries ops).countP (fun d => d.1 = rd) ≤
      (settledAll cfg entries ops).countP (fun d => d.1 = rd) := by
  suffices h : (extractedAll cfg entries ops).countP (fun d => d.1 = rd) +
      (after cfg entries ops).waiting rd ≤
      (settledAll cfg entries ops).countP (fun d => d.1 = rd) by omega
  induction ops using List.reverseRecOn with
  | nil => exact Nat.le_refl 0
  | append_singleton pre op ih =>
    have hstep := extractedBy_add_waiting cfg (after cfg entries pre) op rd
    unfold extractedAll settledAll after at *
    rw [Trace.observed_concat, Trace.observed_concat, Trace.run_concat, List.countP_append,
      List.countP_append]
    omega

end ScheduledServerSession
end Anymone
