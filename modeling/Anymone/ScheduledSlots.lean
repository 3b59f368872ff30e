import Anymone.ScheduledParty
import Anymone.ScheduledRelay

/-! # Scheduled slots

The clients that reserved at a round and took the leader's list fill one message
vector together at the round that fulfils it; the relays cut it up again.  Clients
match their reservations by `(rand, size)` alone: the slots round-trip exactly when no
two of them placed the same pair with a slot behind it (`slots_round_trip_iff`).
-/

namespace Anymone
variable {C : ScheduledCrate}

namespace SlotRound
open SlotVector
variable (S : SlotRound C)

/-- The sum of the plaintexts the clients submit. -/
def total : List C.KahePoly :=
  superpose C.kaheAdd C.kaheZero S.width
    (S.parties.filterMap (fun p => p.plaintext (fulfilledAt S.round)))

/-- The payloads the clients were granted, without the all-zero ones. -/
def granted : List Bytes :=
  ((S.parties.map (fun p => p.due (fulfilledAt S.round))).flatten.map Prod.snd).filter
    (fun b => b.any (fun x => x ≠ 0))

/-- No two clients write overlapping bytes. -/
def NoOverlap : Prop :=
  S.parties.Pairwise (fun p q => ∀ d ∈ p.due (fulfilledAt S.round),
    ∀ d' ∈ q.due (fulfilledAt S.round), Apart (slot d) (slot d'))

/-- **What every relay extracts.**  In any run of a relay that sees the list and the sum
of the clients' plaintexts, each extraction of the fulfilling round is exactly the
granted payloads; it is made at most once for each time the round is settled, and made
when it is settled with the list at hand. -/
def Delivers : Prop :=
  ∀ (cfg : ScheduledServerConfig C) (node : EntryMap) (ops : List RelayOp),
    cfg.inner.mse = S.ch → cfg.vectorBytes = S.vectorBytes →
    ScheduledServerSession.Sees cfg node S.round S.list S.total ops →
    (∀ d ∈ ScheduledServerSession.extractedAll cfg node ops, d.1 = fulfilledAt S.round →
      (d.2 : Multiset Bytes) = (S.granted : Multiset Bytes)) ∧
    (ScheduledServerSession.extractedAll cfg node ops).countP (fun d => d.1 = fulfilledAt S.round) ≤
      (ScheduledServerSession.settledAll cfg node ops).countP
        (fun d => d.1 = fulfilledAt S.round) ∧
    ∀ σ ∈ Trace.steps ops, ∀ now plain, σ.2 = .endRound now →
      (fulfilledAt S.round, plain) ∈
        (ScheduledServerSession.after cfg node σ.1).settled cfg now →
      ((ScheduledServerSession.after cfg node σ.1).recorded cfg now).entriesByRound.contains
        S.round = true →
      ∃ d ∈ ScheduledServerSession.extractedBy cfg (ScheduledServerSession.after cfg node σ.1) σ.2,
        d.1 = fulfilledAt S.round

/-- No two clients place the same `(rand, size)`, with a payload and a slot behind
it. -/
def PairsDiffer : Prop :=
  S.parties.Pairwise (fun p q => ∀ m ∈ p.placed S.round, ∀ m' ∈ q.placed S.round,
    m.1 = m'.1 → m.2.length = m'.2.length → m.2 ≠ [] →
      grantedSlot S.list (slotOffsets C S.list S.vectorBytes.val) m = none)

variable {S}

/-- Clients whose pairs differ write apart, and only those. -/
theorem noOverlap_iff (laws : CodecLaws C) (h : S.Runs) : S.NoOverlap ↔ S.PairsDiffer := by
  have hcap : ∀ p ∈ S.parties, p.cfg.vectorBytes = S.vectorBytes :=
    fun p hp => (h.configured p hp).2.1
  unfold NoOverlap PairsDiffer
  constructor
  · refine fun hno => hno.imp_of_mem ?_
    intro p q hp hq hpq m hm m' hm' hrand hlen hne
    -- The grant of a pair depends on the pair alone.
    have hsame : grantedSlot S.list (slotOffsets C S.list S.vectorBytes.val) m' =
        grantedSlot S.list (slotOffsets C S.list S.vectorBytes.val) m := by
      unfold grantedSlot
      rw [hrand, hlen]
    refine Option.eq_none_iff_forall_ne_some.mpr (fun o ho => ?_)
    have hdue : (o, m.2) ∈ p.due (fulfilledAt S.round) :=
      (h.fulfils p hp).mem_due.mpr ⟨m, hm, by rw [hcap p hp]; exact ho, rfl⟩
    have hdue' : (o, m'.2) ∈ q.due (fulfilledAt S.round) :=
      (h.fulfils q hq).mem_due.mpr ⟨m', hm', by rw [hcap q hq, hsame]; exact ho, rfl⟩
    have hap := hpq _ hdue _ hdue'
    have := List.length_pos_iff.mpr hne
    unfold Apart slot at hap
    dsimp only at hap
    omega
  · refine fun hpairs => hpairs.imp_of_mem ?_
    intro p q hp hq hpq d hd d' hd'
    obtain ⟨m, hm, ho, hdata⟩ := (h.fulfils p hp).mem_due.mp hd
    obtain ⟨m', hm', ho', hdata'⟩ := (h.fulfils q hq).mem_due.mp hd'
    rw [hcap p hp] at ho
    rw [hcap q hq] at ho'
    by_cases hsame : m.1 = m'.1 ∧ m.2.length = m'.2.length
    · by_cases hempty : m.2 = []
      · refine Or.inl ?_
        unfold slot
        rw [← hdata, hempty]
        rfl
      · rw [hpq m hm m' hm' hsame.1 hsame.2 hempty] at ho
        cases ho
    · have hap := grantedSlot_apart laws.alloc hsame ho ho'
      rw [hdata, hdata'] at hap
      exact hap

/-- The message section of the sum is the sum of the clients' encoded vectors. -/
theorem drop_total (laws : CodecLaws C) (h : S.Runs) :
    S.total.drop (C.nPolys S.ch) =
      superpose C.kaheAdd C.kaheZero (C.msgPolys S.vectorBytes.val)
        (((S.parties.map (fun p => p.due (fulfilledAt S.round))).map
          (written 0 (vectorWidth C S.list S.vectorBytes.val))).map
            (fun b => resize C.kaheZero (C.msgPolys S.vectorBytes.val) (C.encodeRaw b))) := by
  have hpart : ∀ p ∈ S.parties, (p.plaintext (fulfilledAt S.round)).map
      (fun x => x.drop (C.nPolys S.ch)) =
      some (resize C.kaheZero (C.msgPolys S.vectorBytes.val) (C.encodeRaw
        (written 0 (vectorWidth C S.list S.vectorBytes.val) (p.due (fulfilledAt S.round))))) := by
    intro p hp
    obtain ⟨hch, hcap, hm⟩ := h.configured p hp
    obtain ⟨sched, hplain, hsched⟩ := (h.fulfils p hp).plaintext_eq laws
    have hle : sched.length ≤ S.width := by
      rw [hsched, hch]
      exact Nat.le_add_right ..
    rw [hch] at hsched
    rw [hplain, Option.map_some, hm, ← hsched, drop_resize_append hle,
      (h.fulfils p hp).msgBuf_eq h.in_range, hcap, hsched]
    unfold width
    rw [Nat.add_sub_cancel_left]
  unfold total
  rw [drop_superpose, List.map_filterMap, List.map_map, List.map_map]
  have hwidth : S.width - C.nPolys S.ch = C.msgPolys S.vectorBytes.val := Nat.add_sub_cancel_left ..
  rw [hwidth, List.filterMap_congr hpart, List.filterMap_eq_map']
  rfl

theorem length_total (laws : CodecLaws C) (h : S.Runs) : S.total.length = S.width := by
  refine length_superpose (fun x hx => ?_)
  obtain ⟨p, hp, hx⟩ := List.mem_filterMap.mp hx
  obtain ⟨sched, hplain, -⟩ := (h.fulfils p hp).plaintext_eq laws
  rw [hplain] at hx
  cases hx
  rw [length_resize, (h.configured p hp).2.2]

/-- Vectors written apart are nonzero apart. -/
theorem written_disjoint {w : Nat} {due due' : List (Nat × Bytes)}
    (h : ∀ d ∈ due, ∀ d' ∈ due', Apart (slot d) (slot d')) (k : Nat) (x y : U8)
    (hx : (written 0 w due)[k]? = some x) (hy : (written 0 w due')[k]? = some y) :
    x = 0 ∨ y = 0 := by
  have hzero : ∀ {l : List (Nat × Bytes)} {z : U8}, (written 0 w l)[k]? = some z →
      (∀ p ∈ l, ¬ (p.1 ≤ k ∧ k < p.1 + p.2.length)) → z = 0 := by
    intro l z hz hl
    have hk : k < w := by
      have := (List.getElem?_eq_some_iff.mp hz).1
      rw [length_written] at this
      exact this
    unfold written at hz
    rw [getElem?_foldl_place_of_not_covered hl, List.getElem?_replicate, if_pos hk] at hz
    exact (Option.some.inj hz).symm
  by_cases hc : ∃ d ∈ due, d.1 ≤ k ∧ k < d.1 + d.2.length
  · obtain ⟨d, hd, hlo, hhi⟩ := hc
    refine Or.inr (hzero hy (fun d' hd' hk => ?_))
    have := h d hd d' hd'
    unfold Apart slot at this
    dsimp only at this
    omega
  · exact Or.inl (hzero hx (fun d hd hk => hc ⟨d, hd, hk⟩))

/-- **The slots of the sum hold the granted payloads.** -/
theorem extract_total (laws : CodecLaws C) (h : S.Runs) (hno : S.NoOverlap)
    {cfg : ScheduledServerConfig C} (hch : cfg.inner.mse = S.ch)
    (hcap : cfg.vectorBytes = S.vectorBytes) :
    (cfg.extract (S.total.drop (cfg.split S.total)) S.list).Perm S.granted := by
  have hsplit : cfg.split S.total = C.nPolys S.ch := by
    unfold ScheduledServerConfig.split
    rw [hch, length_total laws h]
    exact Nat.min_eq_left (Nat.le_add_right ..)
  -- The writes of one party are apart, and by assumption those of two parties.
  have hself : ∀ due ∈ S.parties.map (fun p => p.due (fulfilledAt S.round)),
      due.Pairwise (fun a b => Apart (slot a) (slot b)) := by
    intro due hdue
    obtain ⟨p, hp, rfl⟩ := List.mem_map.mp hdue
    exact (h.fulfils p hp).due_apart laws.alloc
  have hcross : (S.parties.map (fun p => p.due (fulfilledAt S.round))).Pairwise
      (fun a b => ∀ d ∈ a, ∀ d' ∈ b, Apart (slot d) (slot d')) := List.pairwise_map.mpr hno
  -- each write fills a slot the list grants
  have hin : ∀ due ∈ S.parties.map (fun p => p.due (fulfilledAt S.round)), ∀ d ∈ due, d.2 ≠ [] →
      slot d ∈ grantedRanges S.list (slotOffsets C S.list S.vectorBytes.val) := by
    intro due hdue d hd hne
    obtain ⟨p, hp, rfl⟩ := List.mem_map.mp hdue
    obtain ⟨m, -, ho, hdata⟩ := (h.fulfils p hp).mem_due.mp hd
    rw [(h.configured p hp).2.1] at ho
    obtain ⟨i, e, he, -, hlen, hoff⟩ := grantedSlot_spec ho
    exact mem_grantedRanges.mpr ⟨i, e, he, hoff, by rw [hlen, hdata]; rfl,
      List.length_pos_iff.mpr hne⟩
  have hleft : ∀ x : U8, 0 + x = x := fun x => Fin.zero_add x
  have hreads := reads_perm hleft (fun x => Fin.add_zero x) (grantedRanges_apart laws.alloc)
    (fun r hr => grantedRanges_size laws.positive hr) hself hcross hin
  refine List.Perm.trans (List.Perm.of_eq ?_) hreads
  unfold ScheduledServerConfig.extract
  rw [hsplit, hcap]
  dsimp only
  have hoffs : (allocation C S.list S.vectorBytes.val).1 =
      slotOffsets C S.list S.vectorBytes.val := rfl
  rw [hoffs]
  by_cases hempty : grantedRanges S.list (slotOffsets C S.list S.vectorBytes.val) = []
  · rw [if_pos hempty, hempty]
    rfl
  · rw [if_neg hempty, drop_total laws h, laws.sums _ (allocation C S.list S.vectorBytes.val).2 _ _
      (allocation_polys_le laws.alloc) ?_ ?_ hempty
      (fun r hr => (grantedRanges_size laws.positive hr).2)]
    · rfl
    · intro b hb
      obtain ⟨due, -, rfl⟩ := List.mem_map.mp hb
      exact length_written due
    · exact List.pairwise_map.mpr (hcross.imp (fun hap k x y => written_disjoint hap k x y))

/-- **Scheduled slots round-trip exactly when no two clients share a granted pair.**
Under the laws of the codec: the clients write apart, and every relay extracts exactly
what they were granted, if and only if no two of them placed the same `(rand, size)`
with a payload and a slot behind it. -/
theorem slots_round_trip_iff (laws : CodecLaws C) (S : SlotRound C) (h : S.Runs) :
    (S.NoOverlap ∧ S.Delivers) ↔ S.PairsDiffer := by
  constructor
  · exact fun hrt => (noOverlap_iff laws h).mp hrt.1
  · intro hpairs
    have hno := (noOverlap_iff laws h).mpr hpairs
    refine ⟨hno, ?_⟩
    intro cfg node ops hch hcap hsees
    refine ⟨?_, ScheduledServerSession.countP_extracted_le cfg node ops _, ?_⟩
    · intro d hd hrd
      rw [ScheduledServerSession.extracted_eq h.in_range hsees hd hrd]
      exact Multiset.coe_eq_coe.mpr (extract_total laws h hno hch hcap)
    · rintro ⟨pre, op⟩ hσ now plain rfl hsettled hlist
      obtain ⟨l, hl⟩ := OrdMap.contains_iff.mp hlist
      exact ScheduledServerSession.extracted_of_settled hsettled
        (reservedAt_fulfilledAt h.in_range) hl

end SlotRound

/-! ## Two clients of one reservation round -/

/-- One byte to a polynomial: the sum of the encodings spells the sum of the bytes. -/
theorem toy_superpose {m w k : Nat} (hw : w ≤ m) (hk : k < w) {bufs : List Bytes}
    (hlen : ∀ b ∈ bufs, b.length = w) :
    ((SlotVector.superpose Nat.add 0 m
      (bufs.map (fun b => SlotVector.resize 0 m (b.map Fin.val))))[k]?).map (Fin.ofNat 256) =
      (SlotVector.superpose (· + ·) 0 w bufs)[k]? := by
  induction bufs with
  | nil =>
    unfold SlotVector.superpose
    rw [List.map_nil, List.foldr_nil, List.foldr_nil, List.getElem?_replicate,
      List.getElem?_replicate, if_pos hk, if_pos (by omega)]
    rfl
  | cons b bufs ih =>
    have hb := hlen b (List.mem_cons_self ..)
    have hrest := ih (fun c hc => hlen c (List.mem_cons_of_mem _ hc))
    have hhead : (SlotVector.resize 0 m (b.map Fin.val))[k]? = (b[k]?).map Fin.val := by
      unfold SlotVector.resize
      rw [List.getElem?_append_left (by rw [List.length_take, List.length_map]; omega),
        List.getElem?_take_of_lt (by omega), List.getElem?_map]
    rw [List.map_cons, SlotVector.getElem?_superpose_cons, SlotVector.getElem?_superpose_cons, hhead,
      ← hrest, List.getElem?_eq_getElem (by omega)]
    generalize (SlotVector.superpose Nat.add 0 m
      (bufs.map (fun b => SlotVector.resize 0 m (b.map Fin.val))))[k]? = x
    cases x with
    | none => rfl
    | some x =>
      refine congrArg some (Fin.ext ?_)
      show (b[k].val + x) % 256 = (b[k].val + x % 256) % 256
      omega

theorem toy_read {m w : Nat} (hw : w ≤ m) {bufs : List Bytes} (hlen : ∀ b ∈ bufs, b.length = w)
    {r : Nat × Nat} (hr : r.1 + r.2 ≤ w) :
    (SlotVector.read (SlotVector.superpose Nat.add 0 m
      (bufs.map (fun b => SlotVector.resize 0 m (b.map Fin.val)))) r.1 r.2).map (Fin.ofNat 256) =
      SlotVector.read (SlotVector.superpose (· + ·) 0 w bufs) r.1 r.2 := by
  apply List.ext_getElem?
  intro i
  rw [List.getElem?_map]
  unfold SlotVector.read
  by_cases hi : i < r.2
  · rw [List.getElem?_take_of_lt hi, List.getElem?_take_of_lt hi, List.getElem?_drop,
      List.getElem?_drop]
    exact toy_superpose hw (by omega) hlen
  · rw [List.getElem?_eq_none (by rw [List.length_take]; omega),
      List.getElem?_eq_none (by rw [List.length_take]; omega)]
    rfl

theorem toyScheduled_laws : CodecLaws toyScheduled where
  alloc := toyScheduled_allocates
  positive := Nat.one_pos
  packed _ _ _ _ := rfl
  sums m polys bufs ranges hpolys hlen _ _ hranges := by
    have hone : polys * toyScheduled.bytesPerPoly = polys := Nat.mul_one polys
    rw [hone] at hlen hranges ⊢
    exact congrArg some (List.map_congr_left (fun r hr => toy_read hpolys hlen (hranges r hr)))

/-- Client `id` reserves one payload at round 5, takes the list and is about to submit
at round 7. -/
def toyParty (id rand : U8) (payload : Bytes) (list : List Entry) : Party toyScheduled where
  cfg := toyClient id rand
  node := .empty
  ops := [.advance 5, .reserve payload, .finalize 5 10, .toyAccept 5 list, .advance 6,
    .finalize 6 10, .advance 7]
  spins := 10

namespace SlotRound

/-- A round of clients by their number, rand and payload: the list has all their pairs. -/
def toySlots (draws : List (U8 × U8 × Bytes)) : SlotRound toyScheduled where
  round := 5
  list := draws.map (fun d => (Fin.ofNat _ d.2.1.val, Fin.ofNat _ d.2.2.length))
  ch := ()
  vectorBytes := 8
  parties := draws.map (fun d => toyParty d.1 d.2.1 d.2.2
    (draws.map (fun d => (Fin.ofNat _ d.2.1.val, Fin.ofNat _ d.2.2.length))))

/-- The list the sum of the two clients' reservations at round 5 decodes to. -/
def decoded (S : SlotRound toyScheduled) : List Entry :=
  let plaintexts := S.parties.filterMap (fun p =>
    (ScheduledClientSession.after p.cfg p.node (p.ops.take 2)).submitted p.cfg 5 10)
  let total := SlotVector.superpose toyScheduled.kaheAdd toyScheduled.kaheZero 9 plaintexts
  entriesOf ((toyScheduled.mseDecode (toyScheduled.mseUnpack () (total.take 1))).getD [])

theorem toyParty_fulfils {id rand : U8} {payload : Bytes} {list : List Entry}
    (hreturned : ScheduledClientSession.Returned (toyClient id rand) .empty
      (toyParty id rand payload list).ops)
    (hrecorded : (toyParty id rand payload list).session.entriesByRound.get? 5 = some list)
    (hanswered : (toyParty id rand payload list).session.reserved.get? 5 = none)
    (hsubmits : ((toyParty id rand payload list).plaintext (fulfilledAt 5)).isSome = true) :
    (toyParty id rand payload list).Fulfils 5 list where
  ordered := by
    simp only [toyParty, ClientOp.toyAccept, ScheduledClientSession.finalized, List.cons_append,
      List.nil_append, List.filterMap_cons, List.filterMap_nil]
    decide
  returned := hreturned
  reserves := List.mem_cons_self ..
  one_list := by
    simp [toyParty, ScheduledClientSession.OneList, ClientOp.toyAccept]
  patient := by
    simp [toyParty, ScheduledClientSession.Patient, ClientOp.toyAccept, panetiereRoundRetention]
  recorded := hrecorded
  answered := hanswered
  submits := hsubmits

/-- The calls are those of a round, whatever the clients draw, where each returns from them, was
answered and submits. -/
theorem toySlots_runs {draws : List (U8 × U8 × Bytes)}
    (h : ∀ p ∈ (toySlots draws).parties,
      ScheduledClientSession.Returned p.cfg p.node p.ops ∧
        p.session.entriesByRound.get? 5 = some (toySlots draws).list ∧
        p.session.reserved.get? 5 = none ∧ (p.plaintext (fulfilledAt 5)).isSome = true) :
    (toySlots draws).Runs where
  configured p hp := by
    obtain ⟨d, -, rfl⟩ := List.mem_map.mp hp
    refine ⟨rfl, rfl, ?_⟩
    show toyScheduled.messagePolys toyParams =
      toyScheduled.nPolys () + toyScheduled.msgPolys (8 : U64).val
    decide
  fulfils p hp := by
    obtain ⟨hreturned, hrecorded, hanswered, hsubmits⟩ := h p hp
    obtain ⟨d, -, rfl⟩ := List.mem_map.mp hp
    exact toyParty_fulfils hreturned hrecorded hanswered hsubmits
  in_range := show (5 : Round).val + reservationToMsgGap < 18446744073709551616 by decide

/-- Two clients under different rands. -/
def toyRound : SlotRound toyScheduled := toySlots [(7, 1, [1, 2, 3]), (8, 2, [4, 5])]

/-- Both payloads come through. -/
theorem slots_round_trip_toy :
    (toyRound.NoOverlap ∧ toyRound.Delivers) ∧ toyRound.granted = [[1, 2, 3], [4, 5]] :=
  ⟨(slots_round_trip_iff toyScheduled_laws toyRound (toySlots_runs (by decide +kernel))).mpr (by
    unfold PairsDiffer
    decide +kernel), by decide +kernel⟩

/-- Two clients under one rand and size. -/
def toyCollision : SlotRound toyScheduled := toySlots [(7, 1, [1, 2]), (8, 1, [4, 5])]

/-- **Two clients that draw the same pair write to one slot.**  The codec keeps its laws
and grants one entry of the rand, and the reservations decode to what the clients
inserted; each client finds its pair at the granted entry. -/
theorem same_pair_overlaps :
    CodecLaws toyScheduled ∧ OnePerRand toyScheduled ∧ toyCollision.Runs ∧
      toyCollision.decoded = toyCollision.list ∧
      ¬ (toyCollision.NoOverlap ∧ toyCollision.Delivers) := by
  refine ⟨toyScheduled_laws, toyScheduled_onePerRand, toySlots_runs (by decide +kernel),
    by decide +kernel, ?_⟩
  rintro ⟨hno, -⟩
  unfold NoOverlap at hno
  exact absurd hno (by decide +kernel)

end SlotRound
end Anymone
