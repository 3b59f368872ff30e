import Anymone.ScheduledConservation
import Anymone.ScheduledToy

/-! # Payload conservation of the scheduled client

Over a run whose rounds are finalized in order, the payloads the session took in are
those it still holds, those it copied whole, and those it cut short at the end of a
message vector (`account_after`).  So nothing is lost exactly when every due grant
fits (`payloads_conserved_iff`), and a grant fits when the entry map still has the
list it was granted from (`fits_of_recorded`).
-/

namespace Anymone
variable {C : ScheduledCrate}

/-- A granted reservation is one of the entries, at its own rand and size. -/
theorem grantedSlot_spec {entries : List Entry} {offs : List (Option Nat)} {m : U16 × Bytes}
    {o : Nat} (h : grantedSlot entries offs m = some o) :
    ∃ (i : Nat) (e : Entry), entries[i]? = some e ∧ e.1 = m.1 ∧ e.2.val = m.2.length ∧ offs[i]? = some (some o) := by
  unfold grantedSlot matchedAt at h
  obtain ⟨i, hi, ho⟩ := Option.bind_eq_some_iff.mp h
  obtain ⟨hlt, hmatch, -⟩ := List.findIdx?_eq_some_iff_getElem.mp hi
  simp only [Bool.and_eq_true, beq_iff_eq] at hmatch
  exact ⟨i, entries[i], List.getElem?_eq_getElem hlt, hmatch.1, hmatch.2,
    Option.join_eq_some_iff.mp ho⟩

/-- Reservations that differ in rand or size are granted slots apart. -/
theorem grantedSlot_apart (hC : AllocatesApart C) {entries : List Entry} {cap : Nat}
    {m m' : U16 × Bytes} {o o' : Nat} (hne : ¬ (m.1 = m'.1 ∧ m.2.length = m'.2.length))
    (h : grantedSlot entries (slotOffsets C entries cap) m = some o)
    (h' : grantedSlot entries (slotOffsets C entries cap) m' = some o') :
    SlotVector.Apart (SlotVector.slot (o, m.2)) (SlotVector.slot (o', m'.2)) := by
  obtain ⟨i, e, he, hr, hlen, ho⟩ := grantedSlot_spec h
  obtain ⟨j, e', he', hr', hlen', ho'⟩ := grantedSlot_spec h'
  have hij : i ≠ j := by
    rintro rfl
    rw [he] at he'
    cases he'
    exact hne ⟨hr.symm.trans hr', hlen.symm.trans hlen'⟩
  have hsized : ∀ {k : Nat} {x : Entry}, entries[k]? = some x →
      (entries.map (fun e => (e.1, e.2.val)))[k]? = some (x.1, x.2.val) := by
    intro k x hx
    rw [List.getElem?_map, hx]
    rfl
  have hapart := hC.apart _ _ _ i j hij _ _ _ _ (hsized he) (hsized he') ho ho'
  rw [hlen, hlen'] at hapart
  exact hapart

namespace ScheduledClientSession
variable {cfg : ScheduledClientConfig C} {s : ScheduledClientSession C}

/-- What holds of the session after the rounds `past` were finalized: it reserves only
in those rounds and under different rands, a round's reservations are gone once its
grants are there, and grants that are due together have slots apart. -/
structure Accounted (past : List Round) (s : ScheduledClientSession C) : Prop where
  reserved : ∀ r res, s.reserved.get? r = some res → r ∈ past ∧ (res.map Prod.fst).Nodup
  granted : ∀ g ∈ s.granted, ∃ r ∈ past, g.1 = fulfilledAt r ∧ s.reserved.get? r = none
  apart : AllocatesApart C → s.granted.Pairwise (fun g h =>
    g.1 = h.1 → SlotVector.Apart (SlotVector.slot g.2) (SlotVector.slot h.2))

namespace Accounted
variable {past : List Round}

theorem mono {past' : List Round} (h : Accounted past s) (hle : past ⊆ past') :
    Accounted past' s where
  reserved r res hr := ⟨hle (h.reserved r res hr).1, (h.reserved r res hr).2⟩
  granted g hg := by
    obtain ⟨r, hr, hrest⟩ := h.granted g hg
    exact ⟨r, hle hr, hrest⟩
  apart := h.apart

theorem new (entries : EntryMap) : Accounted [] (ScheduledClientSession.new cfg entries) where
  reserved r res hr := by cases hr
  granted g hg := by cases hg
  apart _ := List.Pairwise.nil

/-- Only `reserved` and `granted` matter. -/
theorem congr {s' : ScheduledClientSession C} (h : Accounted past s)
    (hreserved : s'.reserved = s.reserved) (hgranted : s'.granted = s.granted) :
    Accounted past s' where
  reserved := hreserved ▸ h.reserved
  granted := hgranted ▸ hreserved ▸ h.granted
  apart := hgranted ▸ h.apart

theorem advanceRound (h : Accounted past s) (round : Round) :
    Accounted past (s.advanceRound round) where
  reserved r res hr := by
    unfold ScheduledClientSession.advanceRound at hr
    rw [OrdMap.get?_retain, Option.filter_eq_some_iff] at hr
    exact h.reserved r res hr.1
  granted g hg := by
    obtain ⟨r, hr, htarget, hnone⟩ := h.granted g hg
    refine ⟨r, hr, htarget, ?_⟩
    unfold ScheduledClientSession.advanceRound
    rw [OrdMap.get?_retain, hnone]
    rfl
  apart := h.apart

theorem acceptReservations (h : Accounted past s) {round : Round} {entries : List Entry}
    {signature : Bytes} {s' : ScheduledClientSession C}
    (hs : s.acceptReservations cfg round entries signature = .ok s') : Accounted past s' := by
  unfold ScheduledClientSession.acceptReservations at hs
  split_ifs at hs
  dsimp only at hs
  cases hmine : s.reserved.get? round with
  | none =>
    rw [hmine] at hs
    cases hs
    exact h.congr rfl rfl
  | some mine =>
    rw [hmine] at hs
    cases hs
    obtain ⟨hround, hnodup⟩ := h.reserved round mine hmine
    have hgone : ∀ r, s.reserved.get? r = none → (s.reserved.erase round).get? r = none := by
      intro r hr
      rw [OrdMap.get?_erase, hr, ite_self]
    -- A grant of this round's would have taken the reservations away already.
    have hother : ∀ g ∈ s.granted, g.1 ≠ fulfilledAt round := by
      intro g hg he
      obtain ⟨r, -, htarget, hnone⟩ := h.granted g hg
      rw [fulfilledAt_inj (htarget.symm.trans he), hmine] at hnone
      cases hnone
    refine ⟨?_, ?_, ?_⟩
    · intro r res hr
      unfold settle at hr
      dsimp only at hr
      rw [OrdMap.get?_erase] at hr
      split at hr
      · cases hr
      · exact h.reserved r res hr
    · intro g hg
      unfold settle at hg ⊢
      rcases List.mem_append.mp hg with hg | hg
      · obtain ⟨r, hr, htarget, hnone⟩ := h.granted g hg
        exact ⟨r, hr, htarget, hgone r hnone⟩
      · obtain ⟨m, -, hm⟩ := List.mem_filterMap.mp hg
        obtain ⟨o, -, rfl⟩ := Option.map_eq_some_iff.mp hm
        refine ⟨round, hround, rfl, ?_⟩
        rw [OrdMap.get?_erase, if_pos rfl]
    · intro hC
      unfold settle
      refine List.pairwise_append.mpr ⟨h.apart hC, ?_, ?_⟩
      · refine List.pairwise_filterMap.mpr ((List.pairwise_map.mp hnodup).imp ?_)
        intro m m' hne g hg g' hg' _
        obtain ⟨o, ho, rfl⟩ := Option.map_eq_some_iff.mp hg
        obtain ⟨o', ho', rfl⟩ := Option.map_eq_some_iff.mp hg'
        exact grantedSlot_apart hC (fun h => hne h.1) ho ho'
      · intro g hg g' hg' he
        obtain ⟨m, -, hm⟩ := List.mem_filterMap.mp hg'
        obtain ⟨o, -, rfl⟩ := Option.map_eq_some_iff.mp hm
        exact absurd he (hother g hg)

theorem draw (h : Accounted past s) {round : Round} {spins : Nat} {drawn : Drawn C}
    (hnew : round ∉ past) (hdrawn : s.draw cfg round spins = some drawn) :
    Accounted (past ++ [round]) drawn.session := by
  obtain ⟨-, -, hgranted, hreserved, -, -, -, hnodup⟩ := draw_spec hdrawn
  have hget : ∀ r, r ≠ round → drawn.session.reserved.get? r = s.reserved.get? r := by
    intro r hr
    rw [hreserved]
    split
    · rfl
    · rw [OrdMap.get?_insert, if_neg hr]
  refine ⟨?_, ?_, ?_⟩
  · intro r res hr
    by_cases he : r = round
    · subst he
      refine ⟨List.mem_append_right _ (List.mem_singleton_self _), ?_⟩
      rw [hreserved] at hr
      split at hr
      · exact (h.reserved r res hr).2
      · rw [OrdMap.get?_insert, if_pos rfl] at hr
        cases hr
        exact hnodup
    · rw [hget r he] at hr
      exact ⟨List.mem_append_left _ (h.reserved r res hr).1, (h.reserved r res hr).2⟩
  · intro g hg
    rw [hgranted] at hg
    obtain ⟨r, hr, htarget, hnone⟩ := h.granted g (List.mem_of_mem_filter hg)
    have hne : r ≠ round := fun he => hnew (he ▸ hr)
    exact ⟨r, List.mem_append_left _ hr, htarget, (hget r hne).trans hnone⟩
  · intro hC
    rw [hgranted]
    exact (h.apart hC).filter _

/-- Every call keeps the account, `finalize_round` for a round of its own. -/
theorem apply (h : Accounted past s) (op : ClientOp)
    (hnew : ∀ round spins, op = .finalize round spins → round ∉ past) :
    Accounted (past ++ finalized [op]) (s.apply cfg op) := by
  cases op with
  | reserve payload =>
    rw [show finalized [ClientOp.reserve payload] = [] from rfl, List.append_nil]
    show Accounted past ((s.reserveMessage cfg payload).toOption.getD s)
    unfold reserveMessage
    split_ifs
    · exact h
    · exact h.congr rfl rfl
  | advance round =>
    rw [show finalized [ClientOp.advance round] = [] from rfl, List.append_nil]
    exact h.advanceRound round
  | accept round entries signature =>
    rw [show finalized [ClientOp.accept round entries signature] = [] from rfl, List.append_nil]
    show Accounted past ((s.acceptReservations cfg round entries signature).toOption.getD s)
    cases hs : s.acceptReservations cfg round entries signature with
    | error e => exact h
    | ok s' => exact h.acceptReservations hs
  | finalize round spins =>
    show Accounted (past ++ [round]) (((s.finalizeRound cfg round spins).map Prod.fst).getD s)
    cases hout : s.finalizeRound cfg round spins with
    | none => exact h.mono (List.subset_append_left ..)
    | some out =>
      show Accounted (past ++ [round]) out.1
      rcases finalizeRound_cases hout with ⟨-, hs⟩ | ⟨-, drawn, st, hdrawn, hs⟩
      · rw [hs]
        exact h.mono (List.subset_append_left ..)
      · rw [hs]
        exact (h.draw (hnew round spins rfl) hdrawn).congr rfl rfl
  | batch round data => exact (List.append_nil past).symm ▸ h.congr rfl rfl
  | prepare round => exact (List.append_nil past).symm ▸ h.congr rfl rfl
  | repair round => exact (List.append_nil past).symm ▸ h.congr rfl rfl
  | share entries => exact (List.append_nil past).symm ▸ h.congr rfl rfl

end Accounted

variable {entries : EntryMap} {ops : List ClientOp}

theorem finalized_concat (ops : List ClientOp) (op : ClientOp) :
    finalized (ops ++ [op]) = finalized ops ++ finalized [op] := List.filterMap_append

theorem after_concat (ops : List ClientOp) (op : ClientOp) :
    after cfg entries (ops ++ [op]) = (after cfg entries ops).apply cfg op :=
  Trace.run_concat ..

/-- A round about to be finalized was not finalized before. -/
theorem not_mem_finalized (hord : (finalized ops).Pairwise (· < ·)) {σ : List ClientOp × ClientOp}
    (hσ : σ ∈ Trace.steps ops) {round : Round} {spins : Nat} (hop : σ.2 = .finalize round spins) :
    round ∉ finalized σ.1 := by
  obtain ⟨rest, hrest⟩ := Trace.prefix_of_mem_steps hσ
  rw [← hrest, finalized, List.filterMap_append] at hord
  have hpre := (List.pairwise_append.mp hord).1
  rw [← finalized, finalized_concat, hop] at hpre
  intro hmem
  exact lt_irrefl round ((List.pairwise_append.mp hpre).2.2 round hmem round
    (List.mem_singleton_self round))

theorem accounted_after (hord : (finalized ops).Pairwise (· < ·)) :
    ∀ pre, pre <+: ops → Accounted (finalized pre) (after cfg entries pre) := by
  refine Trace.prefix_induction ?_ ?_
  · exact Accounted.new entries
  · intro σ hσ h
    rw [after_concat, finalized_concat]
    exact h.apply σ.2 (fun round spins hop => not_mem_finalized hord hσ hop)

/-! ## The account of a run -/

variable (cfg entries ops)

/-- The payloads `reserve_message` took in. -/
def acceptedAll : List Bytes :=
  Trace.observed (new cfg entries) (ScheduledClientSession.apply cfg) (accepted cfg) ops

/-- The payloads copied whole into the message vector of some round. -/
def copiedAll : List Bytes :=
  Trace.observed (new cfg entries) (ScheduledClientSession.apply cfg) (copied cfg) ops

/-- The payloads copied in part, or not at all, although they were due. -/
def cutShortAll : List Bytes :=
  Trace.observed (new cfg entries) (ScheduledClientSession.apply cfg) (cutShort cfg) ops

variable {cfg entries ops}

/-- **The account of a run**: every payload taken in is held, was copied whole, or was
cut short. -/
theorem account_after (hord : (finalized ops).Pairwise (· < ·))
    (hret : Returned cfg entries ops) : ∀ pre, pre <+: ops →
      (after cfg entries pre).held + (copiedAll cfg entries pre : Multiset Bytes) +
        (cutShortAll cfg entries pre : Multiset Bytes) =
      (acceptedAll cfg entries pre : Multiset Bytes) := by
  refine Trace.prefix_induction rfl ?_
  intro σ hσ ih
  have hacc : Accounted _ (after cfg entries σ.1) := accounted_after hord σ.1
    ((List.prefix_append σ.1 [σ.2]).trans (Trace.prefix_of_mem_steps hσ))
  have hfresh : ∀ round spins, σ.2 = .finalize round spins →
      ((after cfg entries σ.1).finalizeRound cfg round spins).isSome ∧
        (after cfg entries σ.1).reserved.get? round = none := by
    intro round spins hop
    have hreturn := hret σ hσ
    rw [hop] at hreturn
    refine ⟨hreturn, Option.eq_none_iff_forall_ne_some.mpr ?_⟩
    intro res hres
    exact not_mem_finalized hord hσ hop (hacc.reserved round res hres).1
  have hstep := held_apply σ.2 hfresh
  unfold copiedAll cutShortAll acceptedAll at ih ⊢
  rw [after_concat, Trace.observed_concat, Trace.observed_concat, Trace.observed_concat,
    ← Multiset.coe_add, ← Multiset.coe_add, ← Multiset.coe_add, ← ih]
  unfold after at hstep ⊢
  calc _ = ((Trace.run (new cfg entries) (ScheduledClientSession.apply cfg) σ.1).apply cfg σ.2).held +
        (copied cfg (Trace.run (new cfg entries) (ScheduledClientSession.apply cfg) σ.1) σ.2 :
          Multiset Bytes) +
        (cutShort cfg (Trace.run (new cfg entries) (ScheduledClientSession.apply cfg) σ.1) σ.2 :
          Multiset Bytes) +
        ((Trace.observed (new cfg entries) (ScheduledClientSession.apply cfg) (copied cfg) σ.1 :
          Multiset Bytes) +
        (Trace.observed (new cfg entries) (ScheduledClientSession.apply cfg) (cutShort cfg) σ.1 :
          Multiset Bytes)) := by abel
    _ = _ := by
      rw [hstep]
      abel

variable (cfg entries)

/-- **Conservation at one moment.**  The payloads taken in are those in the four queues
and those copied whole; `take_pending_messages` returns those in the queues, each once,
and leaves none. -/
def Conserved (pre : List ClientOp) : Prop :=
  let s := after cfg entries pre
  (acceptedAll cfg entries pre : Multiset Bytes) =
    s.held + (copiedAll cfg entries pre : Multiset Bytes) ∧
  (s.takePendingMessages.2 : Multiset Bytes) = s.held ∧ s.takePendingMessages.1.held = 0

variable (s)

/-- Every payload the call copies ends within the message vector, whose width comes
from the entry map. -/
def DueFit : ClientOp → Prop
  | .finalize round _ =>
      cfg.complete = true → ∀ g ∈ s.due round, g.2 ≠ [] → s.Fits cfg round g
  | _ => True

instance (op : ClientOp) : Decidable (s.DueFit cfg op) := by
  unfold DueFit
  split <;> infer_instance

variable {cfg entries s}

theorem cutShort_eq_nil_iff (op : ClientOp) : cutShort cfg s op = [] ↔ s.DueFit cfg op := by
  cases op with
  | finalize round spins =>
    show (if cfg.complete then
        (((s.due round).filter (fun g => !decide (s.Fits cfg round g))).map Prod.snd).filter
          (fun p => p ≠ [])
      else []) = [] ↔
        (cfg.complete = true → ∀ g ∈ s.due round, g.2 ≠ [] → s.Fits cfg round g)
    by_cases hc : cfg.complete = true
    · rw [if_pos hc, List.filter_eq_nil_iff]
      constructor
      · intro h _ g hg hne
        by_contra hfit
        have hmem : g.2 ∈
            ((s.due round).filter (fun g => !decide (s.Fits cfg round g))).map Prod.snd :=
          List.mem_map_of_mem (List.mem_filter.mpr ⟨hg, by simp [hfit]⟩)
        exact h g.2 hmem (by simp [hne])
      · intro h p hp
        obtain ⟨g, hg, rfl⟩ := List.mem_map.mp hp
        obtain ⟨hdue, hfit⟩ := List.mem_filter.mp hg
        by_cases hne : g.2 = []
        · simp [hne]
        · have := h hc g hdue hne
          simp [this] at hfit
    · rw [if_neg hc]
      exact iff_of_true rfl (fun h => absurd h hc)
  | _ => exact iff_of_true rfl trivial

theorem cutShortAll_eq_nil_iff :
    cutShortAll cfg entries ops = [] ↔
      ∀ σ ∈ Trace.steps ops, (after cfg entries σ.1).DueFit cfg σ.2 := by
  unfold cutShortAll Trace.observed
  rw [List.flatMap_eq_nil_iff]
  exact forall₂_congr (fun σ _ => cutShort_eq_nil_iff σ.2)

/-- A due grant that fits stands whole in the round's message vector. -/
theorem read_msgBuf (hC : AllocatesApart C) {past : List Round} (h : Accounted past s)
    {round : Round} {g : Nat × Bytes} (hg : g ∈ s.due round) (hfit : s.Fits cfg round g) :
    SlotVector.read (s.msgBuf cfg round) g.1 g.2.length = g.2 := by
  have hapart : (s.due round).Pairwise (fun p q =>
      SlotVector.Apart (SlotVector.slot p) (SlotVector.slot q)) := by
    unfold due
    refine List.pairwise_map.mpr (((h.apart hC).filter _).imp_of_mem ?_)
    intro a b ha hb hab
    have hta := of_decide_eq_true (List.mem_filter.mp ha).2
    have htb := of_decide_eq_true (List.mem_filter.mp hb).2
    exact hab (hta.trans htb.symm)
  unfold msgBuf
  refine SlotVector.read_foldl_place hapart hg ?_
  rw [List.length_replicate]
  exact hfit

/-- **Payload conservation.**  In a run that finalizes its rounds in order, the payloads
taken in are at every moment those held and those copied whole, exactly when at every
finalized round each due payload ends within the message vector.  A payload copied whole
stands whole in the vector the round posts, under an allocation that grants slots
apart. -/
theorem payloads_conserved_iff (cfg : ScheduledClientConfig C) (entries : EntryMap)
    (ops : List ClientOp) (hord : (finalized ops).Pairwise (· < ·))
    (hret : Returned cfg entries ops) :
    ((∀ pre, pre <+: ops → Conserved cfg entries pre) ↔
      ∀ σ ∈ Trace.steps ops, (after cfg entries σ.1).DueFit cfg σ.2) ∧
    (AllocatesApart C → ∀ σ ∈ Trace.steps ops, ∀ round,
      ∀ g ∈ (after cfg entries σ.1).due round, (after cfg entries σ.1).Fits cfg round g →
        SlotVector.read ((after cfg entries σ.1).msgBuf cfg round) g.1 g.2.length = g.2) := by
  have hlost : ∀ pre, pre <+: ops →
      (Conserved cfg entries pre ↔ cutShortAll cfg entries pre = []) := by
    intro pre hpre
    have haccount := account_after hord hret pre hpre
    unfold Conserved
    dsimp only
    rw [← haccount, ← Multiset.coe_eq_zero]
    constructor
    · rintro ⟨h, -⟩
      exact (add_eq_left.mp h)
    · intro h
      rw [h]
      exact ⟨add_zero _, takePendingMessages_eq _, held_takePendingMessages _⟩
  refine ⟨?_, ?_⟩
  · rw [← cutShortAll_eq_nil_iff]
    constructor
    · intro h
      exact (hlost ops (List.prefix_refl ops)).mp (h ops (List.prefix_refl ops))
    · intro h pre hpre
      refine (hlost pre hpre).mpr (cutShortAll_eq_nil_iff.mpr ?_)
      intro σ hσ
      exact cutShortAll_eq_nil_iff.mp h σ (Trace.mem_steps_mono hpre hσ)
  · intro hC σ hσ round g hg hfit
    have hpre := (List.prefix_append σ.1 [σ.2]).trans (Trace.prefix_of_mem_steps hσ)
    exact read_msgBuf hC (accounted_after hord σ.1 hpre) hg hfit

/-- Two rounds after it is reserved, the payload is copied whole and nothing is held. -/
theorem payloads_conserved_toy :
    (∀ pre, pre <+: toySend → Conserved (toyClient 7 1) .empty pre) ∧
      copiedAll (toyClient 7 1) .empty toySend = [[1, 2, 3]] :=
  ⟨(payloads_conserved_iff (toyClient 7 1) .empty toySend (by decide) (by decide +kernel)).1.mpr
    (by decide +kernel), by decide +kernel⟩

/-- **A leader that signs two lists loses a payload.**  The grant is made from the
second list, the vector is as wide as the first: the payload is in none of the queues
and in no message vector. -/
theorem equivocation_loses_payload :
    (finalized toyEquivocation).Pairwise (· < ·) ∧
      Returned (toyClient 7 1) .empty toyEquivocation ∧
      ¬ Conserved (toyClient 7 1) .empty toyEquivocation := by
  refine ⟨by decide, by decide +kernel, ?_⟩
  rintro ⟨h, -⟩
  exact absurd h (by decide +kernel)

/-- A grant fits while the entry map has the list it was granted from. -/
theorem fits_of_recorded (hpos : 0 < C.bytesPerPoly) {round : Round} {list : List Entry}
    {m : U16 × Bytes} {o : Nat} (hround : round.val + reservationToMsgGap < 18446744073709551616)
    (hlist : s.entriesByRound.get? round = some list)
    (hslot : grantedSlot list (slotOffsets C list cfg.vectorBytes.val) m = some o) :
    s.Fits cfg (fulfilledAt round) (o, m.2) := by
  obtain ⟨i, e, he, -, hlen, ho⟩ := grantedSlot_spec hslot
  have hle := slot_le_vectorWidth hpos he ho
  unfold Fits msgBytes
  rw [reservedAt_fulfilledAt hround, Option.bind_some, hlist]
  rw [hlen] at hle
  exact hle

end ScheduledClientSession
end Anymone
