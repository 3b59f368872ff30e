import Anymone.ScheduledPayloads
import Anymone.ScheduledServer

/-! # The clients of one reservation round

A client reserves at a round, takes the leader's list for it, and submits at the round
that fulfils it.  What it fulfils there is exactly what the list grants of what it
reserved (`Party.Fulfils.due_eq`), and the slots a list grants are apart and inside its
message vector.
-/

namespace Anymone
variable (C : ScheduledCrate)

/-- What the scheduled sessions rely on in the codec and the multiset encoding.
`sums` is `encode_raw` and `decode_ranges` being inverse on sums, for vectors no two of
which are nonzero at one byte. -/
structure CodecLaws : Prop where
  alloc : AllocatesApart C
  positive : 0 < C.bytesPerPoly
  packed : ∀ ch mse, C.mseOf ch = some mse → ∀ inserts : List (C.Rng × List Int),
    (C.msePack (inserts.foldl (fun e i => (C.mseInsert e i.1 i.2).1) (C.mseNew mse))).length =
      C.nPolys ch
  sums : ∀ (m polys : Nat) (bufs : List Bytes) (ranges : List (Nat × Nat)), polys ≤ m →
    (∀ b ∈ bufs, b.length = polys * C.bytesPerPoly) →
    bufs.Pairwise (fun a b => ∀ (k : Nat) (x y : U8), a[k]? = some x → b[k]? = some y → x = 0 ∨ y = 0) →
    ranges ≠ [] → (∀ r ∈ ranges, r.1 + r.2 ≤ polys * C.bytesPerPoly) →
    C.decodeRanges (SlotVector.superpose C.kaheAdd C.kaheZero m
      (bufs.map (fun b => SlotVector.resize C.kaheZero m (C.encodeRaw b)))) ranges =
      some (ranges.map (fun r => SlotVector.read
        (SlotVector.superpose (· + ·) 0 (polys * C.bytesPerPoly) bufs) r.1 r.2))

variable {C}

/-! ## Clients -/

namespace ScheduledClientSession
variable (cfg : ScheduledClientConfig C) (s : ScheduledClientSession C)

/-- The reservations a call places at a round. -/
def placedBy (round : Round) : ClientOp → List (U16 × Bytes)
  | .finalize r spins =>
      if r = round ∧ cfg.complete then
        ((s.draw cfg r spins).map Drawn.reservations).getD []
      else []
  | _ => []

/-- The plaintext `finalize_round` posts, if it posts one. -/
def submitted (round : Round) (spins : Nat) : Option (List C.KahePoly) :=
  if cfg.complete then
    (s.draw cfg round spins).bind (fun drawn =>
      if s.due round = [] ∧ drawn.reservations = [] then none
      else some (s.plaintext cfg round drawn.sched))
  else none

/-- A call brings no signed list for the round but this one. -/
def OneList (round : Round) (list : List Entry) : ClientOp → Prop
  | .accept r l signature => r = round → leaderSigned cfg r l signature = true → l = list
  | _ => True

/-- A call does not move the clock so far that the round's reservations are given
up. -/
def Patient (round : Round) : ClientOp → Prop
  | .advance r => r.val ≤ round.val + panetiereRoundRetention
  | _ => True

end ScheduledClientSession

namespace ScheduledClientSession

instance (cfg : ScheduledClientConfig C) (round : Round) (list : List Entry) (op : ClientOp) :
    Decidable (OneList cfg round list op) := by
  unfold OneList
  split <;> infer_instance

instance (round : Round) (op : ClientOp) : Decidable (Patient round op) := by
  unfold Patient
  split <;> infer_instance

end ScheduledClientSession

/-- A client up to its submission at one round. -/
structure Party (C : ScheduledCrate) where
  cfg : ScheduledClientConfig C
  /-- The entry map of its node when the session starts. -/
  node : EntryMap
  ops : List ClientOp
  spins : Nat

namespace Party
open ScheduledClientSession
variable (p : Party C)

/-- The session about to submit. -/
def session : ScheduledClientSession C := after p.cfg p.node p.ops

/-- The reservations it placed at a round. -/
def placed (round : Round) : List (U16 × Bytes) :=
  Trace.observed (new p.cfg p.node) (ScheduledClientSession.apply p.cfg)
    (placedBy p.cfg · round) p.ops

/-- The grants it fulfils at a round. -/
def due (rd : Round) : List (Nat × Bytes) := p.session.due rd

/-- The plaintext it submits at a round. -/
def plaintext (rd : Round) : Option (List C.KahePoly) := p.session.submitted p.cfg rd p.spins

/-- A client that reserves at a round, takes the leader's list for it and submits at
the round that fulfils it. -/
structure Fulfils (round : Round) (list : List Entry) : Prop where
  ordered : (finalized (p.ops ++ [.finalize (fulfilledAt round) p.spins])).Pairwise (· < ·)
  returned : Returned p.cfg p.node p.ops
  reserves : round ∈ finalized p.ops
  one_list : ∀ op ∈ p.ops, OneList p.cfg round list op
  patient : ∀ op ∈ p.ops, Patient round op
  /-- The list is recorded, and answered the client's own reservations. -/
  recorded : p.session.entriesByRound.get? round = some list
  answered : p.session.reserved.get? round = none
  submits : (p.plaintext (fulfilledAt round)).isSome

end Party

namespace ScheduledClientSession
variable {cfg : ScheduledClientConfig C} {s : ScheduledClientSession C} {round : Round}
  {list : List Entry} {res : List (U16 × Bytes)}

/-- The grants the list makes of a client's reservations. -/
def grantsOf (cfg : ScheduledClientConfig C) (round : Round) (list : List Entry)
    (res : List (U16 × Bytes)) : List (Round × Nat × Bytes) :=
  res.filterMap (fun m =>
    (grantedSlot list (slotOffsets C list cfg.vectorBytes.val) m).map
      (fun o => (fulfilledAt round, o, m.2)))

/-- A round's reservations are waiting for the list, or were answered by it. -/
def Placed (cfg : ScheduledClientConfig C) (round : Round) (list : List Entry)
    (res : List (U16 × Bytes)) (s : ScheduledClientSession C) : Prop :=
  (s.reserved.get? round = some res ∧
    s.granted.filter (fun g => g.1 = fulfilledAt round) = []) ∨
  (s.reserved.get? round = none ∧
    s.granted.filter (fun g => g.1 = fulfilledAt round) = grantsOf cfg round list res)

theorem Placed.congr {s' : ScheduledClientSession C} (h : Placed cfg round list res s)
    (hr : s'.reserved.get? round = s.reserved.get? round) (hg : s'.granted = s.granted) :
    Placed cfg round list res s' := by
  unfold Placed at h ⊢
  rw [hr, hg]
  exact h

theorem Placed.advanceRound (h : Placed cfg round list res s) {r : Round}
    (hr : r.val ≤ round.val + panetiereRoundRetention) :
    Placed cfg round list res (s.advanceRound r) := by
  refine h.congr ?_ rfl
  unfold ScheduledClientSession.advanceRound
  rw [OrdMap.get?_retain]
  have hkept : decide (r.saturatingSub panetiereRoundRetention ≤ round) = true := by
    rw [decide_eq_true_iff, Fin.le_def, U64.val_saturatingSub]
    omega
  cases hg : s.reserved.get? round with
  | none => rfl
  | some x => rw [Option.filter_some, if_pos hkept]

theorem Placed.acceptReservations (h : Placed cfg round list res s) {r : Round}
    {l : List Entry} {signature : Bytes} {s' : ScheduledClientSession C}
    (hs : s.acceptReservations cfg r l signature = .ok s')
    (hone : r = round → leaderSigned cfg r l signature = true → l = list) :
    Placed cfg round list res s' := by
  unfold ScheduledClientSession.acceptReservations at hs
  split_ifs at hs with hsigned hwindow
  dsimp only at hs
  cases hmine : s.reserved.get? r with
  | none =>
    rw [hmine] at hs
    cases hs
    exact h.congr rfl rfl
  | some mine =>
    rw [hmine] at hs
    cases hs
    by_cases hr : r = round
    · subst hr
      rw [Bool.not_eq_true', Bool.not_eq_false] at hsigned
      -- the one list the leader signed for the round, which grants what was asked for
      obtain rfl := hone rfl hsigned
      rcases h with ⟨hres, hgranted⟩ | ⟨hnone, -⟩
      · rw [hres] at hmine
        cases hmine
        refine Or.inr ⟨?_, ?_⟩
        · unfold settle
          rw [OrdMap.get?_erase, if_pos rfl]
        · unfold settle
          dsimp only
          rw [List.filter_append, hgranted, List.nil_append]
          refine List.filter_eq_self.mpr (fun g hg => ?_)
          obtain ⟨m, -, hm⟩ := List.mem_filterMap.mp hg
          obtain ⟨o, -, rfl⟩ := Option.map_eq_some_iff.mp hm
          exact decide_eq_true rfl
      · rw [hnone] at hmine
        cases hmine
    -- grants of another round are of another fulfilment
    · have hother : (mine.filterMap (fun m =>
          (grantedSlot l (allocation C l cfg.vectorBytes.val).1 m).map
            (fun o => (fulfilledAt r, o, m.2)))).filter (fun g => g.1 = fulfilledAt round) = [] := by
        refine List.filter_eq_nil_iff.mpr (fun g hg => ?_)
        obtain ⟨m, -, hm⟩ := List.mem_filterMap.mp hg
        obtain ⟨o, -, rfl⟩ := Option.map_eq_some_iff.mp hm
        exact fun he => hr (fulfilledAt_inj (of_decide_eq_true he))
      unfold Placed settle at *
      dsimp only
      rw [OrdMap.get?_erase, if_neg (Ne.symm hr), List.filter_append, hother, List.append_nil]
      exact h

/-- Another round is finalized, before the one that fulfils the reservations. -/
theorem Placed.draw (h : Placed cfg round list res s) {r : Round} {spins : Nat} {drawn : Drawn C}
    (hdrawn : s.draw cfg r spins = some drawn) (hne : r ≠ round) (hlt : r < fulfilledAt round) :
    Placed cfg round list res drawn.session := by
  obtain ⟨-, -, hgranted, hreserved, -⟩ := draw_spec hdrawn
  have hget : drawn.session.reserved.get? round = s.reserved.get? round := by
    rw [hreserved]
    split
    · rfl
    · rw [OrdMap.get?_insert, if_neg (Ne.symm hne)]
  have hfilter : drawn.session.granted.filter (fun g => g.1 = fulfilledAt round) =
      s.granted.filter (fun g => g.1 = fulfilledAt round) := by
    rw [hgranted, List.filter_filter]
    refine List.filter_congr (fun g _ => ?_)
    by_cases hg : g.1 = fulfilledAt round
    · simp [hg, hlt]
    · simp [hg]
  unfold Placed at h ⊢
  rw [hget, hfilter]
  exact h

/-- The round itself is finalized: its reservations wait from then on. -/
theorem Placed.place (h : Placed cfg round list [] s) {spins : Nat} {drawn : Drawn C}
    (hdrawn : s.draw cfg round spins = some drawn) (hfresh : s.reserved.get? round = none) :
    Placed cfg round list drawn.reservations drawn.session := by
  obtain ⟨-, -, hgranted, hreserved, -⟩ := draw_spec hdrawn
  have hnone : s.granted.filter (fun g => g.1 = fulfilledAt round) = [] := by
    rcases h with h | h
    · exact h.2
    · exact h.2
  have hfilter : drawn.session.granted.filter (fun g => g.1 = fulfilledAt round) = [] := by
    rw [hgranted, List.filter_filter]
    refine List.filter_eq_nil_iff.mpr (fun g hg => ?_)
    have := List.filter_eq_nil_iff.mp hnone g hg
    simp_all
  unfold Placed
  rw [hreserved, hfilter]
  by_cases hempty : drawn.reservations = []
  · rw [if_pos hempty, hempty]
    exact Or.inr ⟨hfresh, rfl⟩
  · rw [if_neg hempty, OrdMap.get?_insert, if_pos rfl]
    exact Or.inl ⟨rfl, rfl⟩

variable {node : EntryMap} {ops : List ClientOp} {spins : Nat}

/-- A round not finalized yet has no reservations. -/
theorem placed_eq_nil {pre : List ClientOp} (h : round ∉ finalized pre) :
    Trace.observed (new cfg node) (ScheduledClientSession.apply cfg) (placedBy cfg · round) pre =
      [] := by
  refine List.flatMap_eq_nil_iff.mpr ?_
  rintro ⟨l, op⟩ hσ
  cases op with
  | finalize r spins =>
    refine if_neg (fun hr => h ?_)
    exact List.mem_filterMap.mpr ⟨_, Trace.mem_of_mem_steps hσ, congrArg some hr.1⟩
  | _ => rfl

/-- **What became of the reservations of a round**, at every moment before the round
that fulfils them. -/
theorem placed_after (hord : (finalized (ops ++ [.finalize (fulfilledAt round) spins])).Pairwise
      (· < ·)) (hret : Returned cfg node ops) (hc : cfg.complete = true)
    (hone : ∀ op ∈ ops, OneList cfg round list op) (hpatient : ∀ op ∈ ops, Patient round op) :
    ∀ pre, pre <+: ops → Placed cfg round list
      (Trace.observed (new cfg node) (ScheduledClientSession.apply cfg) (placedBy cfg · round) pre)
      (after cfg node pre) := by
  -- finalized rounds increase, so each comes once and `round` before the one that fulfils it
  rw [finalized_concat] at hord
  obtain ⟨hordered, -, hlast⟩ := List.pairwise_append.mp hord
  refine Trace.prefix_induction (Or.inr ⟨rfl, rfl⟩) ?_
  rintro ⟨pre, op⟩ hσ ih
  have hmem := Trace.mem_of_mem_steps hσ
  have hreturn := hret _ hσ
  dsimp only at ih hmem hreturn ⊢
  rw [after_concat, Trace.observed_concat]
  cases op with
  | reserve payload =>
    refine (List.append_nil _).symm ▸ ih.congr ?_ ?_ <;>
      · show _ = _
        unfold ScheduledClientSession.apply reserveMessage
        dsimp only
        split_ifs <;> rfl
  | advance r => exact (List.append_nil _).symm ▸ ih.advanceRound (hpatient _ hmem)
  | accept r l signature =>
    refine (List.append_nil _).symm ▸ ?_
    show Placed cfg round list _ (((after cfg node pre).acceptReservations cfg r l signature).toOption.getD
      (after cfg node pre))
    cases hs : (after cfg node pre).acceptReservations cfg r l signature with
    | error e => exact ih
    | ok s' => exact ih.acceptReservations hs (hone _ hmem)
  | finalize r spins' =>
    obtain ⟨out, hout⟩ := Option.isSome_iff_exists.mp hreturn
    have happly : (after cfg node pre).apply cfg (.finalize r spins') = out.1 := by
      show (((after cfg node pre).finalizeRound cfg r spins').map Prod.fst).getD _ = out.1
      rw [hout]
      rfl
    -- a client that keeps quiet draws nothing, and this one does not
    rcases finalizeRound_cases hout with ⟨hnc, -⟩ | ⟨-, drawn, st, hdrawn, hs⟩
    · rw [hc] at hnc
      cases hnc
    · rw [happly, hs]
      have hnew := not_mem_finalized hordered hσ rfl
      by_cases hr : r = round
      · subst hr
        have hplaced : placedBy cfg (after cfg node pre) r (.finalize r spins') =
            drawn.reservations := by
          unfold placedBy
          dsimp only
          rw [if_pos ⟨rfl, hc⟩, hdrawn]
          rfl
        -- nothing is reserved for a round that was not finalized before
        have hfresh : (after cfg node pre).reserved.get? r = none := by
          refine Option.eq_none_iff_forall_ne_some.mpr (fun res hres => hnew ?_)
          have hpre := (List.prefix_append pre [ClientOp.finalize r spins']).trans
            (Trace.prefix_of_mem_steps hσ)
          exact ((accounted_after hordered pre hpre).reserved r res hres).1
        rw [placed_eq_nil hnew] at ih ⊢
        have hgoal : Placed cfg r list _ (drawn.session.withPost st) :=
          (ih.place hdrawn hfresh).congr rfl rfl
        rw [List.nil_append]
        exact hplaced ▸ hgoal
      · have hnone : placedBy cfg (after cfg node pre) round (.finalize r spins') = [] :=
          if_neg (fun h => hr h.1)
        have hlt : r < fulfilledAt round :=
          hlast r (List.mem_filterMap.mpr ⟨_, hmem, rfl⟩) _ (List.mem_singleton_self _)
        have hgoal : Placed cfg round list _ (drawn.session.withPost st) :=
          (ih.draw hdrawn hr hlt).congr rfl rfl
        unfold after at hnone
        rw [hnone, List.append_nil]
        exact hgoal
  | batch r data => exact (List.append_nil _).symm ▸ ih.congr rfl rfl
  | prepare r => exact (List.append_nil _).symm ▸ ih.congr rfl rfl
  | repair r => exact (List.append_nil _).symm ▸ ih.congr rfl rfl
  | share entries => exact (List.append_nil _).symm ▸ ih.congr rfl rfl

/-- The encoding a round packs is built from the empty one by insertions. -/
theorem reserveAll_built {items : List Bytes} {sched : C.MseEncoding}
    {reservations : List (U16 × Bytes)} {rng : C.Rng}
    {out : C.MseEncoding × List (U16 × Bytes) × C.Rng}
    (h : reserveAll spins items sched reservations rng = some out) :
    ∃ inserts : List (C.Rng × List Int),
      out.1 = inserts.foldl (fun e i => (C.mseInsert e i.1 i.2).1) sched := by
  induction items generalizing sched reservations rng with
  | nil =>
    cases h
    exact ⟨[], rfl⟩
  | cons data rest ih =>
    obtain ⟨r, -, h⟩ := Option.bind_eq_some_iff.mp h
    obtain ⟨inserts, hout⟩ := ih h
    exact ⟨(r.2, [(r.1.val : Int), (data.length : Int)]) :: inserts, hout⟩

theorem draw_built {r : Round} {drawn : Drawn C} (h : s.draw cfg r spins = some drawn) :
    ∃ inserts : List (C.Rng × List Int),
      drawn.sched = inserts.foldl (fun e i => (C.mseInsert e i.1 i.2).1) (C.mseNew cfg.mse) := by
  unfold ScheduledClientSession.draw at h
  obtain ⟨out, hout, h⟩ := Option.bind_eq_some_iff.mp h
  cases h
  exact reserveAll_built hout

end ScheduledClientSession
namespace Party
open ScheduledClientSession SlotVector
variable {p q : Party C} {round : Round} {list : List Entry}

theorem Fulfils.complete (h : p.Fulfils round list) : p.cfg.complete = true := by
  have hs := h.submits
  unfold plaintext submitted at hs
  by_contra hc
  rw [if_neg hc] at hs
  cases hs

/-- **What a client fulfils is what the list grants of its reservations.** -/
theorem Fulfils.due_eq (h : p.Fulfils round list) :
    p.due (fulfilledAt round) = (p.placed round).filterMap (fun m =>
      (grantedSlot list (slotOffsets C list p.cfg.vectorBytes.val) m).map (fun o => (o, m.2))) := by
  have hplaced := placed_after h.ordered h.returned h.complete h.one_list h.patient p.ops
    (List.prefix_refl _)
  rcases hplaced with ⟨hsome, -⟩ | ⟨-, hgranted⟩
  · have hnone := h.answered
    unfold session at hnone
    rw [hnone] at hsome
    cases hsome
  · unfold due ScheduledClientSession.due session
    rw [hgranted]
    unfold grantsOf placed
    rw [List.map_filterMap]
    refine List.filterMap_congr (fun m _ => ?_)
    cases grantedSlot list (slotOffsets C list p.cfg.vectorBytes.val) m <;> rfl

theorem Fulfils.mem_due (h : p.Fulfils round list) {d : Nat × Bytes} :
    d ∈ p.due (fulfilledAt round) ↔ ∃ m ∈ p.placed round,
      grantedSlot list (slotOffsets C list p.cfg.vectorBytes.val) m = some d.1 ∧ m.2 = d.2 := by
  rw [h.due_eq, List.mem_filterMap]
  constructor
  · rintro ⟨m, hm, hd⟩
    obtain ⟨o, ho, rfl⟩ := Option.map_eq_some_iff.mp hd
    exact ⟨m, hm, ho, rfl⟩
  · rintro ⟨m, hm, ho, hd⟩
    exact ⟨m, hm, Option.map_eq_some_iff.mpr ⟨d.1, ho, Prod.ext rfl hd⟩⟩

/-- A client's own slots are apart. -/
theorem Fulfils.due_apart (hC : AllocatesApart C) (h : p.Fulfils round list) :
    (p.due (fulfilledAt round)).Pairwise (fun a b => Apart (slot a) (slot b)) := by
  have hord := h.ordered
  rw [finalized_concat] at hord
  have hacc : Accounted _ (after p.cfg p.node p.ops) :=
    accounted_after (List.pairwise_append.mp hord).1 p.ops (List.prefix_refl _)
  unfold due ScheduledClientSession.due
  refine List.pairwise_map.mpr (((hacc.apart hC).filter _).imp_of_mem ?_)
  intro a b ha hb hab
  exact hab ((of_decide_eq_true (List.mem_filter.mp ha).2).trans
    (of_decide_eq_true (List.mem_filter.mp hb).2).symm)

/-- The message vector of a client is as wide as the list makes it. -/
theorem Fulfils.msgBuf_eq (hround : round.val + reservationToMsgGap < 18446744073709551616)
    (h : p.Fulfils round list) :
    p.session.msgBuf p.cfg (fulfilledAt round) =
      written 0 (vectorWidth C list p.cfg.vectorBytes.val) (p.due (fulfilledAt round)) := by
  have hwidth : p.session.msgBytes p.cfg (fulfilledAt round) =
      vectorWidth C list p.cfg.vectorBytes.val := by
    unfold msgBytes
    rw [reservedAt_fulfilledAt hround, Option.bind_some, h.recorded]
    rfl
  unfold msgBuf
  rw [hwidth]
  rfl

/-- The plaintext a client submits: its packed reservations, then its vector. -/
theorem Fulfils.plaintext_eq (laws : CodecLaws C) (h : p.Fulfils round list) :
    ∃ sched, p.plaintext (fulfilledAt round) =
        some (resize C.kaheZero (C.messagePolys p.cfg.pp)
          (sched ++ C.encodeRaw (p.session.msgBuf p.cfg (fulfilledAt round)))) ∧
      sched.length = C.nPolys p.cfg.schedMse := by
  obtain ⟨x, hx⟩ := Option.isSome_iff_exists.mp h.submits
  have hsub := hx
  unfold plaintext submitted at hsub
  rw [if_pos h.complete] at hsub
  obtain ⟨drawn, hdrawn, hsub⟩ := Option.bind_eq_some_iff.mp hsub
  obtain ⟨inserts, hbuilt⟩ := draw_built hdrawn
  refine ⟨C.msePack drawn.sched, ?_, ?_⟩
  · rw [hx]
    split at hsub
    · cases hsub
    · exact hsub.symm
  · rw [hbuilt]
    exact laws.packed _ _ p.cfg.peeling inserts

end Party

/-! ## The slots of a list -/

section Ranges
open SlotVector
variable {list : List Entry} {cap : Nat}

theorem mem_grantedRanges {offs : List (Option Nat)} {r : Nat × Nat} :
    r ∈ grantedRanges list offs ↔ ∃ (i : Nat) (e : Entry), list[i]? = some e ∧
      offs[i]? = some (some r.1) ∧ e.2.val = r.2 ∧ 0 < r.2 := by
  unfold grantedRanges
  rw [List.mem_filter, List.mem_filterMap]
  constructor
  · rintro ⟨⟨⟨e, off⟩, he, hr⟩, hpos⟩
    obtain ⟨i, hi⟩ := List.mem_iff_getElem?.mp he
    rw [List.getElem?_zip_eq_some] at hi
    obtain ⟨o, rfl, rfl⟩ := Option.map_eq_some_iff.mp hr
    exact ⟨i, e, hi.1, hi.2, rfl, of_decide_eq_true hpos⟩
  · rintro ⟨i, e, he, ho, hsize, hpos⟩
    refine ⟨⟨(e, some r.1), List.mem_iff_getElem?.mpr ⟨i, ?_⟩, ?_⟩, decide_eq_true hpos⟩
    · rw [List.getElem?_zip_eq_some]
      exact ⟨he, ho⟩
    · exact congrArg some (Prod.ext rfl hsize)

theorem sized_getElem? {i : Nat} {e : Entry} (h : list[i]? = some e) :
    (list.map (fun e => (e.1, e.2.val)))[i]? = some (e.1, e.2.val) := by
  rw [List.getElem?_map, h]
  rfl

theorem grantedRanges_apart (hC : AllocatesApart C) :
    (grantedRanges list (slotOffsets C list cap)).Pairwise Apart := by
  unfold grantedRanges
  refine List.Pairwise.filter _ (List.pairwise_filterMap.mpr ?_)
  rw [List.pairwise_iff_getElem]
  intro i j hi hj hij r hr r' hr'
  have hei : (list.zip (slotOffsets C list cap))[i]? = some (list.zip (slotOffsets C list cap))[i] :=
    List.getElem?_eq_getElem hi
  have hej : (list.zip (slotOffsets C list cap))[j]? = some (list.zip (slotOffsets C list cap))[j] :=
    List.getElem?_eq_getElem hj
  generalize (list.zip (slotOffsets C list cap))[i] = a at hei hr
  generalize (list.zip (slotOffsets C list cap))[j] = b at hej hr'
  obtain ⟨e, off⟩ := a
  obtain ⟨e', off'⟩ := b
  rw [List.getElem?_zip_eq_some] at hei hej
  obtain ⟨o, rfl, rfl⟩ := Option.map_eq_some_iff.mp hr
  obtain ⟨o', rfl, rfl⟩ := Option.map_eq_some_iff.mp hr'
  exact hC.apart _ _ _ i j (by omega) _ _ _ _ (sized_getElem? hei.1) (sized_getElem? hej.1) hei.2
    hej.2

theorem grantedRanges_size (hpos : 0 < C.bytesPerPoly) {r : Nat × Nat}
    (hr : r ∈ grantedRanges list (slotOffsets C list cap)) :
    0 < r.2 ∧ r.1 + r.2 ≤ vectorWidth C list cap := by
  obtain ⟨i, e, he, ho, hsize, hr⟩ := mem_grantedRanges.mp hr
  have := slot_le_vectorWidth hpos he ho
  rw [hsize] at this
  exact ⟨hr, this⟩

/-- The vector of a list is no wider than the widest one. -/
theorem allocation_polys_le (hC : AllocatesApart C) :
    (allocation C list cap).2 ≤ C.msgPolys cap := by
  have hends : (slotEnds list (slotOffsets C list cap)).max?.getD 0 ≤ cap := by
    cases hmax : (slotEnds list (slotOffsets C list cap)).max? with
    | none => exact Nat.zero_le _
    | some m =>
      obtain ⟨hmem, -⟩ := List.max?_eq_some_iff.mp hmax
      obtain ⟨⟨e, off⟩, he, hm⟩ := List.mem_filterMap.mp hmem
      obtain ⟨i, hi⟩ := List.mem_iff_getElem?.mp he
      rw [List.getElem?_zip_eq_some] at hi
      obtain ⟨o, rfl, rfl⟩ := Option.map_eq_some_iff.mp hm
      exact hC.capped _ _ _ i _ _ (sized_getElem? hi.1) hi.2
  unfold allocation ScheduledCrate.msgPolys
  exact Nat.div_le_div_right (by omega)

end Ranges
/-! ## One round -/

/-- The clients of one reservation round, and what the subnet gives all of them: the
reservation channel, the cap of the message vector, and the leader's list. -/
structure SlotRound (C : ScheduledCrate) where
  round : Round
  list : List Entry
  ch : C.ChannelParams
  vectorBytes : U64
  parties : List (Party C)

namespace SlotRound
open SlotVector
variable (S : SlotRound C)

/-- The width of a plaintext, as `params_for` sets it. -/
def width : Nat := C.nPolys S.ch + C.msgPolys S.vectorBytes.val

/-- Every client is set up for the subnet, reserved at the round, took the list and
submits at the round that fulfils it. -/
structure Runs : Prop where
  configured : ∀ p ∈ S.parties, p.cfg.schedMse = S.ch ∧ p.cfg.vectorBytes = S.vectorBytes ∧
    C.messagePolys p.cfg.pp = S.width
  fulfils : ∀ p ∈ S.parties, p.Fulfils S.round S.list
  in_range : S.round.val + reservationToMsgGap < 18446744073709551616

end SlotRound
end Anymone
