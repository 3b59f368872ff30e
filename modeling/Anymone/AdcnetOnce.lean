import Anymone.AdcnetSteps
import Mathlib.Data.ZMod.Defs

/-! # One share, one set and one decode per ADCNet round

What a relay does once for each wire round it remembers in a set, and the sets forget
what lies behind the window (`WindowGuard`).  A share, an announcement and a decode are
made only for rounds the window still holds, so each of them is made once in every run
whose rounds begin in increasing order.  A `Decoded` has no lower bound: one that comes
back when its round has left the window is queued again.

A share is over the members of the first set taken whose keys recover.  The relay does
not notice a member that is left out, so the sets have to be readable for the share to
be over the whole of what the leader announced.
-/

namespace Anymone
variable {C : AdcnetCrate}

namespace AdcnetServerOp

/-- The round a call begins. -/
def beginning : AdcnetServerOp C → Option Round
  | .beginRound round => some round
  | _ => none

/-- The round a call ends. -/
def ending : AdcnetServerOp C → Option Round
  | .endRound round => some round
  | _ => none

/-- The rounds begun. -/
def begun (ops : List (AdcnetServerOp C)) : List Round := ops.filterMap beginning

/-- Rounds begin in strictly increasing order and fit a wire round, and the round that
ends is the one that was begun last. -/
structure InOrder (ops : List (AdcnetServerOp C)) : Prop where
  increasing : (begun ops).Pairwise (· < ·)
  below : ∀ op ∈ ops, op.beginning.all (fun r => r.val < 4294967296) = true
  ends : ∀ σ ∈ Trace.steps ops, σ.2.ending = none ∨ σ.2.ending = (begun σ.1).getLast?

theorem begun_concat (ops : List (AdcnetServerOp C)) (op : AdcnetServerOp C) :
    begun (ops ++ [op]) = begun ops ++ op.beginning.toList := by
  rw [begun, List.filterMap_append]
  cases h : op.beginning with
  | none => simp [begun, h]
  | some r => simp [begun, h]

theorem begun_mono {l ops : List (AdcnetServerOp C)} (h : l <+: ops) :
    begun l <+: begun ops := by
  obtain ⟨rest, rfl⟩ := h
  rw [begun, begun, List.filterMap_append]
  exact List.prefix_append _ _

/-- Below 2^32 the wire round is the round. -/
theorem toU32_val {r : Round} (h : r.val < 2 ^ 32) : r.toU32.val = r.val := Nat.mod_eq_of_lt h

theorem InOrder.mono {l ops : List (AdcnetServerOp C)} (h : InOrder ops) (hl : l <+: ops) :
    InOrder l :=
  ⟨h.increasing.sublist (begun_mono hl).sublist, fun op hop => h.below op (hl.subset hop),
    fun σ hσ => h.ends σ (Trace.mem_steps_mono hl hσ)⟩

theorem InOrder.below_of_mem {ops : List (AdcnetServerOp C)} {r : Round} (h : InOrder ops)
    (hr : r ∈ begun ops) : r.val < 2 ^ 32 := by
  obtain ⟨op, hop, hbegin⟩ := List.mem_filterMap.mp hr
  have hbelow := h.below op hop
  rw [hbegin] at hbelow
  exact of_decide_eq_true hbelow

/-- The round that ends is the one begun last. -/
theorem InOrder.getLast?_of_ends {ops pre : List (AdcnetServerOp C)} {r : Round}
    (h : InOrder ops) (hσ : (pre, .endRound r) ∈ Trace.steps ops) :
    (begun pre).getLast? = some r := by
  rcases h.ends _ hσ with hnone | hlast
  · cases hnone
  · exact hlast.symm

/-- The round that is begun is above the one begun last. -/
theorem InOrder.lt_of_begins {ops pre : List (AdcnetServerOp C)} {r last : Round}
    (h : InOrder ops) (hσ : (pre, .beginRound r) ∈ Trace.steps ops)
    (hlast : (begun pre).getLast? = some last) : last.toU32 < r.toU32 := by
  have hpre : begun pre ++ [r] <+: begun ops := by
    have := begun_mono (Trace.prefix_of_mem_steps hσ)
    rwa [begun_concat] at this
  have hlastMem : last ∈ begun pre := List.mem_of_getLast? hlast
  have hlt : last < r :=
    (List.pairwise_append.mp (h.increasing.sublist hpre.sublist)).2.2 last hlastMem r
      List.mem_cons_self
  have h1 := h.below_of_mem (hpre.subset (List.mem_append_right _ List.mem_cons_self))
  have h2 := h.below_of_mem (hpre.subset (List.mem_append_left _ hlastMem))
  show last.toU32.val < r.toU32.val
  rw [toU32_val h1, toU32_val h2]
  exact hlt

end AdcnetServerOp

namespace AdcnetServerSession
open Adcnet AdcnetServerOp WindowGuard
variable (cfg : AdcnetServerConfig C)

/-! ## What a run takes in and puts out -/

/-- The sets a call brings: one taken from the leader, or those announced here. -/
def setsOf (s : AdcnetServerSession C) : AdcnetServerOp C → List (U32 × List C.SignedKey)
  | .inbound sender (some (.clientSet round clients)) _ =>
      if s.takesSet cfg sender round clients then [(round, clients)] else []
  | .endRound round => (s.endRound cfg round).announced
  | _ => []

/-- The `Decoded` a call queues. -/
def routedBy (s : AdcnetServerSession C) : AdcnetServerOp C → List (U32 × List Bytes)
  | .inbound sender (some (.decoded round payloads)) _ =>
      if s.routes cfg sender round then [(round, payloads)] else []
  | _ => []

/-- The announced sets accepted, in order. -/
def accepted (ops : List (AdcnetServerOp C)) : List (U32 × List C.SignedKey) :=
  Trace.observed new (apply cfg) (setsOf cfg) ops

/-- The rounds and payloads queued, in order. -/
def routed (ops : List (AdcnetServerOp C)) : List (U32 × List Bytes) :=
  Trace.observed new (apply cfg) (routedBy cfg) ops

/-- The first set of a round. -/
def firstSet (sets : List (U32 × List C.SignedKey)) (t : U32) : Option (List C.SignedKey) :=
  (sets.find? (fun a => a.1 = t)).map Prod.snd

/-- The oldest round that is kept. -/
def keepFrom (s : AdcnetServerSession C) : U32 := s.curRound.saturatingSub roundWindow

/-- **Blinds once.**  At most one share, one set and one decode for each wire round, and
every share over exactly the clients of the first set accepted for its round. -/
structure BlindsOnce (ops : List (AdcnetServerOp C)) : Prop where
  shares : ((emitted cfg EndRound.shares ops).map EmittedShare.round).Nodup
  overSet : ∀ e ∈ emitted cfg EndRound.shares ops, ∃ keys,
    firstSet (accepted cfg ops) e.round = some keys ∧
      (e.secrets.keys.map some).Perm (keys.map (fun k => (C.recoverKey k).map Prod.snd))
  sets : ((emitted cfg EndRound.announced ops).map Prod.fst).Nodup
  decodes : ((emitted cfg EndRound.combined ops).map Prod.fst).Nodup

/-- **Routes once.**  What was surfaced and what waits to be is the payloads of the rounds
queued, in order, and no round is queued twice. -/
structure RoutesOnce (ops : List (AdcnetServerOp C)) : Prop where
  surfaced : emitted cfg EndRound.decoded ops ++ (after cfg ops).pendingDecoded =
    (routed cfg ops).flatMap Prod.snd
  once : ((routed cfg ops).map Prod.fst).Nodup

/-- A set taken for a round that has none is readable, and a `Decoded` of a round that
has left the window was not queued before. -/
def answerable (σ : List (AdcnetServerOp C) × AdcnetServerOp C) : Bool :=
  match σ.2 with
  | .inbound sender (some (.clientSet round clients)) _ =>
      !(after cfg σ.1).takesSet cfg sender round clients ||
        (after cfg σ.1).clientSetByRound.contains round ||
        clients.all (fun k => (C.recoverKey k).isSome)
  | .inbound sender (some (.decoded round _)) _ =>
      !(after cfg σ.1).routes cfg sender round || decide ((after cfg σ.1).keepFrom ≤ round) ||
        !(routed cfg σ.1).any (fun d => d.1 = round)
  | _ => true

variable {cfg}

@[simp] theorem after_nil : after cfg [] = new := rfl

theorem after_concat (ops : List (AdcnetServerOp C)) (op : AdcnetServerOp C) :
    after cfg (ops ++ [op]) = apply cfg (after cfg ops) op := Trace.run_concat ..

@[simp] theorem firstSet_nil (t : U32) :
    firstSet ([] : List (U32 × List C.SignedKey)) t = none := rfl

theorem firstSet_append (l l' : List (U32 × List C.SignedKey)) (t : U32) :
    firstSet (l ++ l') t = (firstSet l t).or (firstSet l' t) := by
  rw [firstSet, List.find?_append, firstSet, firstSet]
  cases l.find? (fun a => a.1 = t) <;> rfl

theorem firstSet_singleton (a : U32 × List C.SignedKey) (t : U32) :
    firstSet [a] t = if t = a.1 then some a.2 else none := by
  by_cases h : t = a.1
  · rw [if_pos h, firstSet, List.find?_cons_of_pos (by simp [h])]
    rfl
  · rw [if_neg h, firstSet, List.find?_cons_of_neg (by simp [Ne.symm h])]
    rfl

theorem mem_of_firstSet {sets : List (U32 × List C.SignedKey)} {t : U32}
    {keys : List C.SignedKey} (h : firstSet sets t = some keys) : (t, keys) ∈ sets := by
  obtain ⟨a, ha, rfl⟩ := Option.map_eq_some_iff.mp h
  have hfst : a.1 = t := by simpa using List.find?_some ha
  rw [← hfst]
  exact List.mem_of_find?_eq_some ha

/-! ## What is remembered -/

/-- The session remembers what it did in the rounds it keeps. -/
structure Once (s : AdcnetServerSession C) (sets : List (U32 × List C.SignedKey))
    (shares : List (EmittedShare C)) (announced decoded : List U32) : Prop where
  agg : ∀ t, s.aggByRound.contains t = true → s.keepFrom ≤ t
  kept : ∀ t, s.clientSetByRound.get? t =
    if s.keepFrom ≤ t then (firstSet sets t).map signersOf else none
  overSet : ∀ e ∈ shares, ∃ keys, firstSet sets e.round = some keys ∧
    e.secrets.keys.Perm (signersOf keys)
  shared : Guards s.keepFrom s.sharedRounds (shares.map EmittedShare.round)
  announced : Guards s.keepFrom s.announcedRounds announced
  decoded : Guards s.keepFrom s.combinedRounds decoded

section Once
variable {s : AdcnetServerSession C} {sets : List (U32 × List C.SignedKey)}
  {shares : List (EmittedShare C)} {announced decoded : List U32}

theorem once_new : Once (new : AdcnetServerSession C) [] [] [] [] where
  agg := nofun
  kept t := by
    show none = _
    split <;> rfl
  overSet := nofun
  shared := guards_nil _ _
  announced := guards_nil _ _
  decoded := guards_nil _ _

/-- A share keeps the set it was made over: the first one stays the first. -/
theorem Once.over_append (h : Once s sets shares announced decoded)
    (more : List (U32 × List C.SignedKey)) : ∀ e ∈ shares, ∃ keys,
      firstSet (sets ++ more) e.round = some keys ∧ e.secrets.keys.Perm (signersOf keys) := by
  intro e he
  obtain ⟨keys, hkeys, hperm⟩ := h.overSet e he
  refine ⟨keys, ?_, hperm⟩
  rw [firstSet_append, hkeys]
  rfl

/-- What is kept moves up with the rounds. -/
theorem keepFrom_le_beginRound {r : Round} (hr : s.curRound ≤ r.toU32) :
    s.keepFrom ≤ (s.beginRound r).keepFrom := by
  show s.curRound.val - 3 ≤ r.toU32.val - 3
  have : s.curRound.val ≤ r.toU32.val := hr
  omega

/-- A later round begins. -/
theorem Once.beginRound {r : Round} (h : Once s sets shares announced decoded)
    (hr : s.curRound ≤ r.toU32) :
    Once (s.beginRound r) sets shares announced decoded := by
  have hlo := keepFrom_le_beginRound hr
  refine ⟨fun t ht => ?_, fun t => ?_, h.overSet, h.shared.prune hlo, h.announced.prune hlo,
    h.decoded.prune hlo⟩
  · obtain ⟨v, hv⟩ := OrdMap.contains_iff.mp ht
    have hv : (s.aggByRound.retain
        (fun r' _ => decide ((s.beginRound r).keepFrom ≤ r'))).get? t = some v := hv
    rw [OrdMap.get?_retain] at hv
    exact of_decide_eq_true (Option.filter_eq_some_iff.mp hv).2
  · show (s.clientSetByRound.retain
        (fun r' _ => decide ((s.beginRound r).keepFrom ≤ r'))).get? t = _
    rw [OrdMap.get?_retain, h.kept]
    by_cases ht : (s.beginRound r).keepFrom ≤ t
    · rw [if_pos ht, if_pos (le_trans hlo ht)]
      cases (firstSet sets t).map signersOf <;> simp [ht]
    · rw [if_neg ht]
      split
      · cases (firstSet sets t).map signersOf <;> simp [ht]
      · rfl

/-- What is taken is not older than what is kept. -/
theorem keepFrom_le_of_not_tooOld {t : U32} (h : tooOld t s.curRound = false) :
    s.keepFrom ≤ t := by
  have hnot := mt tooOld_iff.mpr (Bool.eq_false_iff.mp h)
  exact not_lt.mp hnot

theorem keepFrom_le_of_takesSet {sender : PeerId} {t : U32} {clients : List C.SignedKey}
    (h : s.takesSet cfg sender t clients = true) : s.keepFrom ≤ t := by
  simp only [takesSet, Bool.and_eq_true, Bool.not_eq_true', Bool.or_eq_false_iff] at h
  exact keepFrom_le_of_not_tooOld h.1.1.1

theorem keepFrom_le_of_takesGroup {t group : U32} {blinded : List U64}
    {clients : List C.SignedKey} {signer : Pubkey} {signature : Bytes}
    (h : s.takesGroup cfg t group blinded clients signer signature = true) : s.keepFrom ≤ t := by
  rw [takesGroup] at h
  obtain ⟨roster, -, h⟩ := (Option.any_eq_true _ _).mp h
  obtain ⟨key, -, h⟩ := (Option.any_eq_true _ _).mp h
  simp only [Bool.and_eq_true, Bool.not_eq_true'] at h
  exact keepFrom_le_of_not_tooOld h.1.2

/-- A message comes in. -/
theorem Once.inbound (cfg : AdcnetServerConfig C) (sender : PeerId)
    (msg : Option (AdcnetWire C)) (good : Pubkey → Bool)
    (h : Once s sets shares announced decoded) :
    Once (s.onInbound cfg sender msg good) (sets ++ setsOf cfg s (.inbound sender msg good))
      shares announced decoded := by
  rcases s.onInbound_cases cfg sender msg good with
    ⟨hset, -, clients, pool, secrets, keys, heq, -, -⟩ |
    ⟨round, clients, secrets, keys, rfl, htake, heq⟩ |
    ⟨round, payloads, rfl, -, heq⟩ |
    ⟨round, group, blinded, clients, signer, signature, secrets, keys, rfl, htake, heq⟩
  · have hnil : setsOf cfg s (.inbound sender msg good) = [] := by
      rw [setsOf.eq_def]
      split
      · rename_i hop
        cases hop
        rw [hset _ _ rfl]
        rfl
      · rename_i hop
        cases hop
      · rfl
    rw [hnil, heq, List.append_nil]
    exact ⟨h.agg, h.kept, h.overSet, h.shared, h.announced, h.decoded⟩
  · have hsets : setsOf cfg s (.inbound sender (some (.clientSet round clients)) good) =
        [(round, clients)] := if_pos htake
    rw [hsets, heq]
    refine ⟨h.agg, fun t => ?_, h.over_append _, h.shared, h.announced, h.decoded⟩
    show (s.clientSetByRound.orInsert round (signersOf clients)).get? t =
      if s.keepFrom ≤ t then _ else none
    rw [OrdMap.get?_orInsert, h.kept, h.kept, firstSet_append, firstSet_singleton]
    -- a set that is taken is of a round that is kept, and the first one stays
    have hlo := keepFrom_le_of_takesSet htake
    by_cases ht : t = round
    · subst ht
      rw [if_pos rfl, if_pos hlo, if_pos hlo, if_pos rfl]
      cases firstSet sets t <;> rfl
    · rw [if_neg ht, if_neg ht, Option.or_none]
  · rw [heq, show setsOf cfg s (.inbound sender (some (.decoded round payloads)) good) = [] from rfl,
      List.append_nil]
    exact ⟨h.agg, h.kept, h.overSet, h.shared, h.announced, h.decoded⟩
  · rw [heq, show setsOf cfg s
        (.inbound sender (some (.groupAggregate round group blinded clients signer signature)) good)
        = [] from rfl, List.append_nil]
    refine ⟨fun t ht => ?_, h.kept, h.overSet, h.shared, h.announced, h.decoded⟩
    rcases OrdMap.contains_insert_iff.mp ht with rfl | ht
    · exact keepFrom_le_of_takesGroup htake
    · exact h.agg t ht

/-- The rounds announced are rounds that are kept. -/
theorem Once.keepFrom_le_announcement (h : Once s sets shares announced decoded)
    {a : U32 × List C.SignedKey} (ha : a ∈ s.announcements cfg s.curRound) : s.keepFrom ≤ a.1 := by
  rcases (announcements_fresh ha).2 with hcur | hagg
  · rw [hcur]
    show s.curRound.val - 3 ≤ s.curRound.val
    omega
  · exact h.agg _ hagg

/-- Sets are announced. -/
theorem Once.phaseA (cfg : AdcnetServerConfig C)
    (h : Once s sets shares announced decoded) :
    Once (s.phaseA cfg s.curRound) (sets ++ s.announcements cfg s.curRound) shares
      (announced ++ (s.announcements cfg s.curRound).map Prod.fst) decoded := by
  obtain ⟨sets', announced', heq, hsets, hann⟩ :=
    announceAll_eq (s.announcements cfg s.curRound) s
  rw [AdcnetServerSession.phaseA, heq]
  refine ⟨h.agg, fun t => ?_, h.over_append _, h.shared, ?_, h.decoded⟩
  · show sets'.get? t = if s.keepFrom ≤ t then _ else none
    rw [hsets, h.kept, firstSet_append]
    by_cases ht : s.keepFrom ≤ t
    · rw [if_pos ht, if_pos ht]
      cases firstSet sets t with
      | none =>
        show ((s.announcements cfg s.curRound).find? _).map _ = _
        rw [Option.none_or, firstSet, Option.map_map]
        rfl
      | some keys => rfl
    · rw [if_neg ht, if_neg ht, Option.none_or,
        List.find?_eq_none.mpr (fun a ha => by
          simpa using fun hat : a.1 = t => ht (hat ▸ h.keepFrom_le_announcement ha))]
      rfl
  · refine h.announced.append (nodup_announcements _) ?_ ?_ (fun k hk => ?_) (fun k hk => ?_)
    · rintro k hk
      obtain ⟨a, ha, rfl⟩ := List.mem_map.mp hk
      exact h.keepFrom_le_announcement ha
    · rintro k hk
      obtain ⟨a, ha, rfl⟩ := List.mem_map.mp hk
      exact (announcements_fresh ha).1
    · rw [hann, hk, Bool.true_or]
    · obtain ⟨a, ha, rfl⟩ := List.mem_map.mp hk
      rw [hann, List.any_eq_true.mpr ⟨a, ha, by simp⟩, Bool.or_true]

/-- A round with a set is a round that is kept, and the set is the first one taken. -/
theorem Once.of_mem_keys (h : Once s sets shares announced decoded) {t : U32}
    (ht : t ∈ s.clientSetByRound.keys) : s.keepFrom ≤ t ∧ ∃ keys, firstSet sets t = some keys ∧
      s.clientSetByRound.get? t = some (signersOf keys) := by
  obtain ⟨set, hset⟩ := OrdMap.mem_keys.mp ht
  have hkept := h.kept t
  rw [hset] at hkept
  split at hkept
  · rename_i hlo
    obtain ⟨keys, hkeys, rfl⟩ := Option.map_eq_some_iff.mp hkept.symm
    exact ⟨hlo, keys, hkeys, hset⟩
  · cases hkept

/-- Shares are made. -/
theorem Once.phaseB (cfg : AdcnetServerConfig C)
    (h : Once s sets shares announced decoded) :
    Once (phaseB cfg s s.pendingShareRounds).1 sets
      (shares ++ (AdcnetServerSession.phaseB cfg s s.pendingShareRounds).2) announced decoded := by
  obtain ⟨pool, shared', heq, hsub, hmake, hshared⟩ := phaseB_eq cfg s.pendingShareRounds s
  have hpending : ∀ e ∈ (AdcnetServerSession.phaseB cfg s s.pendingShareRounds).2,
      e.round ∈ s.clientSetByRound.keys ∧ s.sharedRounds.contains e.round = false := by
    intro e he
    have hmem := List.mem_filter.mp (hsub.subset (List.mem_map_of_mem he))
    exact ⟨hmem.1, by simpa using hmem.2⟩
  have hover : ∀ e ∈ (AdcnetServerSession.phaseB cfg s s.pendingShareRounds).2, ∃ keys,
      firstSet sets e.round = some keys ∧ e.secrets.keys.Perm (signersOf keys) := by
    intro e he
    obtain ⟨-, keys, hkeys, hset⟩ := h.of_mem_keys (hpending e he).1
    have hperm := (makeShare_eq_some (hmake e he)).2.1
    rw [hset] at hperm
    exact ⟨keys, hkeys, hperm⟩
  rw [heq]
  refine ⟨h.agg, h.kept, fun e he => ?_, ?_, h.announced, h.decoded⟩
  · rcases List.mem_append.mp he with he | he
    · exact h.overSet e he
    · exact hover e he
  · rw [List.map_append]
    have hnodup : s.pendingShareRounds.Nodup :=
      (s.clientSetByRound.keys_sorted.imp (fun h => h.ne)).filter _
    refine h.shared.append (hsub.nodup hnodup) ?_ ?_ (fun k hk => ?_) (fun k hk => ?_)
    · intro k hk
      obtain ⟨e, he, rfl⟩ := List.mem_map.mp hk
      exact (h.of_mem_keys (hpending e he).1).1
    · intro k hk
      obtain ⟨e, he, rfl⟩ := List.mem_map.mp hk
      exact (hpending e he).2
    · rw [hshared, hk, Bool.true_or]
    · obtain ⟨e, he, rfl⟩ := List.mem_map.mp hk
      rw [hshared, List.any_eq_true.mpr ⟨e, he, by simp⟩, Bool.or_true]

/-- Phases A and B of the round begun last. -/
theorem Once.shareRounds (cfg : AdcnetServerConfig C) {r : Round}
    (h : Once s sets shares announced decoded)
    (hcur : r.toU32 = s.curRound) :
    Once (s.shared cfg r) (sets ++ s.announcements cfg r.toU32)
      (shares ++ (AdcnetServerSession.phaseB cfg (s.phaseA cfg r.toU32)
        (s.phaseA cfg r.toU32).pendingShareRounds).2)
      (announced ++ (s.announcements cfg r.toU32).map Prod.fst) decoded := by
  rw [AdcnetServerSession.shared, hcur]
  exact (h.phaseA cfg).phaseB cfg

/-- Rounds are decoded. -/
theorem Once.phaseC (cfg : AdcnetServerConfig C)
    (h : Once s sets shares announced decoded) :
    Once (phaseC cfg s s.clientSetByRound.keys).1 sets shares announced
      (decoded ++
        (AdcnetServerSession.phaseC cfg s s.clientSetByRound.keys).2.1.map Prod.fst) := by
  have hnodup : s.clientSetByRound.keys.Nodup :=
    s.clientSetByRound.keys_sorted.imp (fun h => h.ne)
  obtain ⟨combined, clients, agg, pool, heq, hsub, hfresh, hcontains, hheld, -⟩ :=
    phaseC_eq cfg s.clientSetByRound.keys hnodup s
  rw [heq]
  have hagg : ∀ t, agg.contains t = true → s.aggByRound.contains t = true := by
    intro t ht
    rw [OrdMap.contains, (hheld t).2.1] at ht
    split at ht
    · cases ht
    · exact ht
  refine ⟨fun t ht => h.agg t (hagg t ht), h.kept, h.overSet, h.shared, h.announced, ?_⟩
  refine h.decoded.append (hsub.nodup hnodup) ?_ ?_ (fun k hk => ?_) (fun k hk => ?_)
  · intro k hk
    exact (h.of_mem_keys (hsub.subset hk)).1
  · intro k hk
    obtain ⟨d, hd, rfl⟩ := List.mem_map.mp hk
    exact hfresh d hd
  · rw [hcontains, hk, Bool.true_or]
  · obtain ⟨d, hd, rfl⟩ := List.mem_map.mp hk
    rw [hcontains, decodedIn, List.any_eq_true.mpr ⟨d, hd, by simp⟩, Bool.or_true]

/-- The round begun last ends. -/
theorem Once.endRound {r : Round} (h : Once s sets shares announced decoded)
    (hcur : r.toU32 = s.curRound) :
    Once (s.endRound cfg r).session (sets ++ (s.endRound cfg r).announced)
      (shares ++ (s.endRound cfg r).shares)
      (announced ++ (s.endRound cfg r).announced.map Prod.fst)
      (decoded ++ (s.endRound cfg r).combined.map Prod.fst) := by
  have hb := h.shareRounds cfg hcur
  rcases endRound_cases cfg s r with heq | ⟨c, hc, heq⟩
  · rw [heq]
    dsimp only
    rw [List.append_nil, List.append_nil, List.map_nil, List.append_nil, List.map_nil,
      List.append_nil]
    exact ⟨h.agg, h.kept, h.overSet, h.shared, h.announced, h.decoded⟩
  · rw [heq]
    dsimp only
    by_cases hl : cfg.isLeader = true
    · rw [if_pos hl] at hc
      have hnext := hb.phaseC cfg
      rw [← hc] at hnext
      exact ⟨hnext.agg, hnext.kept, hnext.overSet, hnext.shared, hnext.announced, hnext.decoded⟩
    · rw [if_neg hl] at hc
      rw [hc, List.map_nil, List.append_nil]
      exact ⟨hb.agg, hb.kept, hb.overSet, hb.shared, hb.announced, hb.decoded⟩

end Once

/-! ## Readable keys -/

/-- A set whose keys recover has as many signers as keys. -/
theorem map_some_signersOf {keys : List C.SignedKey}
    (h : ∀ k ∈ keys, (C.recoverKey k).isSome = true) :
    (signersOf keys).map some = keys.map (fun k => (C.recoverKey k).map Prod.snd) := by
  induction keys with
  | nil => rfl
  | cons k keys ih =>
    obtain ⟨r, hr⟩ := Option.isSome_iff_exists.mp (h k List.mem_cons_self)
    have hk : signersOf (k :: keys) = r.2 :: signersOf keys := by
      simp [signersOf, hr]
    rw [hk, List.map_cons, List.map_cons, hr,
      ih (fun k' hk' => h k' (List.mem_cons_of_mem _ hk'))]
    rfl

/-- Every cached key recovers to the signer it is cached under. -/
def KeysRecover (s : AdcnetServerSession C) : Prop :=
  ∀ pk signed, s.clientKeys.get? pk = some signed → ∃ ke, C.recoverKey signed = some (ke, pk)

section Keys
variable {s : AdcnetServerSession C}

theorem KeysRecover.cacheClientKey {signer : PublicKey} {ke : KeyExchange}
    {signed : C.SignedKey} (h : s.KeysRecover) (hr : C.recoverKey signed = some (ke, signer)) :
    (s.cacheClientKey cfg signer ke signed).KeysRecover := by
  rw [AdcnetServerSession.cacheClientKey]
  split
  · exact h
  · intro pk key hkey
    have hkey : (s.clientKeys.orInsert signer signed).get? pk = some key := hkey
    rw [OrdMap.get?_orInsert] at hkey
    by_cases hpk : pk = signer
    · rw [if_pos hpk] at hkey
      rw [hpk]
      cases hold : s.clientKeys.get? signer with
      | none =>
        rw [hold] at hkey
        cases hkey
        exact ⟨ke, hr⟩
      | some old =>
        rw [hold] at hkey
        cases hkey
        exact h signer old hold
    · rw [if_neg hpk] at hkey
      exact h pk key hkey

theorem KeysRecover.cacheClients (h : s.KeysRecover) (clients : List C.SignedKey) :
    (s.cacheClients cfg clients).1.KeysRecover := by
  induction clients using List.reverseRecOn with
  | nil => exact h
  | append_singleton clients signed ih =>
    rw [cacheClients_concat]
    cases hr : C.recoverKey signed with
    | none => exact ih
    | some r => exact ih.cacheClientKey hr

theorem KeysRecover.inbound {sender : PeerId} {msg : Option (AdcnetWire C)}
    {good : Pubkey → Bool} (h : s.KeysRecover) :
    (s.onInbound cfg sender msg good).KeysRecover := by
  cases msg with
  | none => exact h
  | some msg =>
    cases msg with
    | client contribution key =>
      rw [onInbound]
      split
      · rcases s.onClient_cases cfg good contribution key with heq | ⟨r, heq⟩ |
          ⟨c, signer, ke, -, hk, -, -, heq⟩
        · rw [heq]
          exact h
        · rw [heq]
          exact h
        · rw [heq]
          exact h.cacheClientKey hk
      · exact h
    | server signed =>
      rw [onInbound]
      split
      · rcases s.onShare_cases cfg signed with heq | ⟨_, _, _, -, -, -, heq⟩
        · rw [heq]
          exact h
        · rw [heq]
          exact h
      · exact h
    | clientSet round clients =>
      rw [onInbound, onClientSet]
      split
      · exact h.cacheClients clients
      · exact h
    | decoded round payloads =>
      rw [onInbound, onDecoded]
      split
      · exact h
      · exact h
    | groupAggregate round group blinded clients signer signature =>
      rw [onInbound, onGroupAggregate]
      split
      · exact h.cacheClients clients
      · exact h

theorem KeysRecover.apply (h : s.KeysRecover) (op : AdcnetServerOp C) :
    (s.apply cfg op).KeysRecover := by
  cases op with
  | beginRound round => exact h
  | inbound sender msg good => exact h.inbound
  | endRound round =>
    intro pk signed hkey
    have hkeys := (endRound_keeps cfg s round).2.1
    rw [show (s.apply cfg (.endRound round)).clientKeys = s.clientKeys from hkeys] at hkey
    exact h pk signed hkey
  | setMisbehavior mode => exact h

/-- The keys that are announced recover. -/
theorem KeysRecover.cachedKeys (h : s.KeysRecover) {signers : List PublicKey}
    {signed : C.SignedKey} (hmem : signed ∈ s.cachedKeys signers) :
    (C.recoverKey signed).isSome = true := by
  obtain ⟨pk, -, hkey⟩ := List.mem_filterMap.mp hmem
  obtain ⟨ke, hr⟩ := h pk signed hkey
  rw [hr]
  rfl

end Keys

theorem keysRecover_after (cfg : AdcnetServerConfig C) (ops : List (AdcnetServerOp C)) : (after cfg ops).KeysRecover := by
  induction ops using List.reverseRecOn with
  | nil => exact nofun
  | append_singleton ops op ih =>
    rw [after_concat]
    exact ih.apply op

/-! ## Runs -/

theorem curRound_apply (s : AdcnetServerSession C) (op : AdcnetServerOp C) :
    (s.apply cfg op).curRound = (op.beginning.map U64.toU32).getD s.curRound := by
  cases op with
  | beginRound round => rfl
  | inbound sender msg good =>
    show (s.onInbound cfg sender msg good).curRound = s.curRound
    rcases s.onInbound_cases cfg sender msg good with ⟨-, -, _, _, _, _, heq, -, -⟩ |
      ⟨_, _, _, _, -, -, heq⟩ | ⟨_, _, -, -, heq⟩ | ⟨_, _, _, _, _, _, _, _, -, -, heq⟩
    · rw [heq]
    · rw [heq]
    · rw [heq]
    · rw [heq]
  | endRound round => exact (endRound_keeps cfg s round).1
  | setMisbehavior mode => rfl

/-- The current round is the one begun last. -/
theorem curRound_after (ops : List (AdcnetServerOp C)) :
    (after cfg ops).curRound = ((begun ops).getLast?.map U64.toU32).getD 0 := by
  induction ops using List.reverseRecOn with
  | nil => rfl
  | append_singleton ops op ih =>
    rw [after_concat, curRound_apply, begun_concat, ih]
    cases op.beginning with
    | none => simp
    | some r => simp

/-- What the calls of a run put out, one more call at a time. -/
theorem emitted_concat {α : Type} (f : EndRound C → List α) (ops : List (AdcnetServerOp C))
    (op : AdcnetServerOp C) : emitted cfg f (ops ++ [op]) =
      emitted cfg f ops ++ (match op with
        | .endRound round => f ((after cfg ops).endRound cfg round)
        | _ => []) := Trace.observed_concat ..

theorem emitted_subset {α : Type} {f : EndRound C → List α} {l ops : List (AdcnetServerOp C)}
    (h : l <+: ops) : emitted cfg f l ⊆ emitted cfg f ops := by
  intro a ha
  obtain ⟨σ, hσ, hmem⟩ := List.mem_flatMap.mp ha
  exact List.mem_flatMap.mpr ⟨σ, Trace.mem_steps_mono h hσ, hmem⟩

theorem mem_emitted {α : Type} {f : EndRound C → List α} {pre ops : List (AdcnetServerOp C)}
    {r : Round} {a : α} (hσ : (pre, .endRound r) ∈ Trace.steps ops)
    (ha : a ∈ f ((after cfg pre).endRound cfg r)) : a ∈ emitted cfg f ops :=
  List.mem_flatMap.mpr ⟨_, hσ, ha⟩

theorem accepted_concat (ops : List (AdcnetServerOp C)) (op : AdcnetServerOp C) :
    accepted cfg (ops ++ [op]) = accepted cfg ops ++ setsOf cfg (after cfg ops) op :=
  Trace.observed_concat ..

theorem routed_concat (ops : List (AdcnetServerOp C)) (op : AdcnetServerOp C) :
    routed cfg (ops ++ [op]) = routed cfg ops ++ routedBy cfg (after cfg ops) op :=
  Trace.observed_concat ..

theorem routedBy_eq_nil {s : AdcnetServerSession C} {sender : PeerId}
    {msg : Option (AdcnetWire C)} {good : Pubkey → Bool}
    (h : ∀ round payloads, msg = some (.decoded round payloads) →
      s.routes cfg sender round = false) : routedBy cfg s (.inbound sender msg good) = [] := by
  rw [routedBy.eq_def]
  split
  · rename_i hop
    cases hop
    rw [h _ _ rfl]
    rfl
  · rfl

/-- The rounds begun do not go back. -/
theorem curRound_le_of_begins {ops pre : List (AdcnetServerOp C)} {r : Round} (hord : InOrder ops)
    (hσ : (pre, .beginRound r) ∈ Trace.steps ops) : (after cfg pre).curRound ≤ r.toU32 := by
  rw [curRound_after]
  cases hlast : (begun pre).getLast? with
  | none => exact Fin.zero_le _
  | some last => exact (hord.lt_of_begins hσ hlast).le

/-- The round that ends is the current one. -/
theorem toU32_eq_of_ends {ops pre : List (AdcnetServerOp C)} {r : Round} (hord : InOrder ops)
    (hσ : (pre, .endRound r) ∈ Trace.steps ops) : r.toU32 = (after cfg pre).curRound := by
  rw [curRound_after, hord.getLast?_of_ends hσ]
  rfl

/-- What a run remembers, at every moment of it. -/
theorem once_after (cfg : AdcnetServerConfig C) {ops : List (AdcnetServerOp C)}
    (hord : InOrder ops) : ∀ l, l <+: ops →
      Once (after cfg l) (accepted cfg l) (emitted cfg EndRound.shares l)
        ((emitted cfg EndRound.announced l).map Prod.fst)
        ((emitted cfg EndRound.combined l).map Prod.fst) := by
  refine Trace.prefix_induction once_new ?_
  rintro ⟨pre, op⟩ hσ h
  rw [after_concat, accepted_concat, emitted_concat, emitted_concat, emitted_concat,
    List.map_append, List.map_append]
  cases op with
  | beginRound r =>
    have hbegin := h.beginRound (curRound_le_of_begins hord hσ)
    show Once ((after cfg pre).beginRound r) (_ ++ []) (_ ++ []) (_ ++ []) (_ ++ [])
    rw [List.append_nil, List.append_nil, List.append_nil, List.append_nil]
    exact hbegin
  | inbound sender msg good =>
    show Once _ _ (_ ++ []) (_ ++ []) (_ ++ [])
    rw [List.append_nil, List.append_nil, List.append_nil]
    exact h.inbound cfg sender msg good
  | endRound r => exact h.endRound (toU32_eq_of_ends hord hσ)
  | setMisbehavior mode =>
    show Once _ (_ ++ []) (_ ++ []) (_ ++ []) (_ ++ [])
    rw [List.append_nil, List.append_nil, List.append_nil, List.append_nil]
    exact ⟨h.agg, h.kept, h.overSet, h.shared, h.announced, h.decoded⟩

/-- The rounds queued are remembered, as long as no `Decoded` comes back from behind the
window. -/
theorem routedGuard_after {ops : List (AdcnetServerOp C)} (hord : InOrder ops)
    (hok : ∀ σ ∈ Trace.steps ops, answerable cfg σ = true) : ∀ l, l <+: ops →
      Guards (after cfg l).keepFrom (after cfg l).routedRounds ((routed cfg l).map Prod.fst) := by
  refine Trace.prefix_induction (guards_nil _ _) ?_
  rintro ⟨pre, op⟩ hσ h
  rw [after_concat, routed_concat, List.map_append]
  cases op with
  | beginRound r =>
    show Guards _ _ (_ ++ [])
    rw [List.append_nil]
    -- a new round moves the window up, and the marks behind it are dropped
    exact h.prune (keepFrom_le_beginRound (curRound_le_of_begins hord hσ))
  | inbound sender msg good =>
    show Guards ((after cfg pre).onInbound cfg sender msg good).keepFrom
      ((after cfg pre).onInbound cfg sender msg good).routedRounds _
    rcases (after cfg pre).onInbound_cases cfg sender msg good with ⟨-, hdec, _, _, _, _, heq, -, -⟩ |
      ⟨_, _, _, _, rfl, -, heq⟩ | ⟨round, payloads, rfl, hroute, heq⟩ |
      ⟨_, _, _, _, _, _, _, _, rfl, -, heq⟩
    · rw [heq, routedBy_eq_nil hdec, List.map_nil, List.append_nil]
      exact h
    · rw [heq]
      show Guards _ _ (_ ++ [])
      rw [List.append_nil]
      exact h
    · have hrouted : routedBy cfg (after cfg pre)
          (.inbound sender (some (.decoded round payloads)) good) = [(round, payloads)] :=
        if_pos hroute
      rw [heq, hrouted]
      refine h.concat ?_
      by_cases hlo : round < (after cfg pre).keepFrom
      · -- Behind the window only the condition on the run is left.
        intro hmem
        obtain ⟨d, hd, hdr⟩ := List.mem_map.mp hmem
        have hstep : (!(after cfg pre).routes cfg sender round ||
          decide ((after cfg pre).keepFrom ≤ round) ||
          !(routed cfg pre).any (fun d => d.1 = round)) = true := hok _ hσ
        rw [hroute, decide_eq_false (not_le.mpr hlo),
          List.any_eq_true.mpr ⟨d, hd, by simpa using hdr⟩] at hstep
        cases hstep
      -- in the window the mark itself says that the round was not routed
      · refine h.notMem (not_lt.mp hlo) ?_
        simp only [routes, Bool.and_eq_true, Bool.not_eq_true'] at hroute
        exact hroute.2
    · rw [heq]
      show Guards _ _ (_ ++ [])
      rw [List.append_nil]
      exact h
  | endRound r =>
    obtain ⟨hcur, -, -, -, -, hrounds⟩ := endRound_keeps cfg (after cfg pre) r
    show Guards (((after cfg pre).endRound cfg r).session.curRound.saturatingSub roundWindow)
      ((after cfg pre).endRound cfg r).session.routedRounds (_ ++ [])
    rw [hcur, hrounds, List.append_nil]
    exact h
  | setMisbehavior mode =>
    show Guards _ _ (_ ++ [])
    rw [List.append_nil]
    exact h

/-- A set that a call brings was taken from the leader or is announced here. -/
theorem mem_setsOf {s : AdcnetServerSession C} {op : AdcnetServerOp C}
    {a : U32 × List C.SignedKey} (h : a ∈ setsOf cfg s op) :
    (∃ sender good, op = .inbound sender (some (.clientSet a.1 a.2)) good ∧
      s.takesSet cfg sender a.1 a.2 = true) ∨
    ∃ r, op = .endRound r ∧ a ∈ (s.endRound cfg r).announced := by
  rw [setsOf.eq_def] at h
  split at h
  · rename_i sender round clients good
    split at h
    · rename_i htake
      cases List.mem_singleton.mp h
      exact Or.inl ⟨sender, good, rfl, htake⟩
    · cases h
  · exact Or.inr ⟨_, rfl, h⟩
  · cases h

/-- What the end of a round announces is what phase A does. -/
theorem mem_announcements {s : AdcnetServerSession C} {r : Round} {a : U32 × List C.SignedKey}
    (h : a ∈ (s.endRound cfg r).announced) : a ∈ s.announcements cfg r.toU32 := by
  rcases endRound_cases cfg s r with heq | ⟨c, -, heq⟩
  · rw [heq] at h
    cases h
  · rw [heq] at h
    exact h

/-- Every set that counts is readable. -/
theorem readable_after {ops : List (AdcnetServerOp C)} (hord : InOrder ops)
    (hok : ∀ σ ∈ Trace.steps ops, answerable cfg σ = true) : ∀ l, l <+: ops → ∀ t keys,
      firstSet (accepted cfg l) t = some keys → ∀ k ∈ keys, (C.recoverKey k).isSome = true := by
  refine Trace.prefix_induction nofun ?_
  rintro ⟨pre, op⟩ hσ ih t keys hfirst
  have hpre : pre <+: ops := (List.prefix_append pre [op]).trans (Trace.prefix_of_mem_steps hσ)
  rw [accepted_concat, firstSet_append] at hfirst
  cases hold : firstSet (accepted cfg pre) t with
  | some first =>
    rw [hold] at hfirst
    cases hfirst
    exact ih t _ hold
  | none =>
    rw [hold, Option.none_or] at hfirst
    rcases mem_setsOf (mem_of_firstSet hfirst) with ⟨sender, good, rfl, htake⟩ | ⟨r, rfl, hann⟩
    · have hnone : (after cfg pre).clientSetByRound.contains t = false := by
        rw [OrdMap.contains, (once_after cfg hord pre hpre).kept, hold]
        split <;> rfl
      have hstep : (!(after cfg pre).takesSet cfg sender t keys ||
        (after cfg pre).clientSetByRound.contains t ||
        keys.all (fun k => (C.recoverKey k).isSome)) = true := hok _ hσ
      rw [htake, hnone] at hstep
      exact List.all_eq_true.mp hstep
    · intro k hk
      obtain ⟨signers, hset⟩ : ∃ signers, keys = (after cfg pre).cachedKeys signers := by
        obtain ⟨-, -, -, ⟨-, _, -, hset⟩ | ⟨-, -, hset⟩⟩ :=
          announcements_cases (mem_announcements hann)
        · exact ⟨_, hset⟩
        · exact ⟨_, hset⟩
      rw [hset] at hk
      exact (keysRecover_after cfg pre).cachedKeys hk

/-- What a call queues and what it surfaces, with what waited before and waits after. -/
theorem pendingDecoded_apply (s : AdcnetServerSession C) (op : AdcnetServerOp C) :
    (match op with
      | .endRound round => (s.endRound cfg round).decoded
      | _ => []) ++ (s.apply cfg op).pendingDecoded =
    s.pendingDecoded ++ (routedBy cfg s op).flatMap Prod.snd := by
  cases op with
  | beginRound round => exact (List.append_nil _).symm
  | setMisbehavior mode => exact (List.append_nil _).symm
  | endRound round =>
    obtain ⟨-, -, -, hpending, hdecoded, -⟩ := endRound_keeps cfg s round
    show (s.endRound cfg round).decoded ++ (s.endRound cfg round).session.pendingDecoded = _ ++ []
    rw [hpending, hdecoded]
  | inbound sender msg good =>
    show (s.onInbound cfg sender msg good).pendingDecoded = _
    rcases s.onInbound_cases cfg sender msg good with ⟨-, hdec, _, _, _, _, heq, -, -⟩ |
      ⟨_, _, _, _, rfl, -, heq⟩ | ⟨round, payloads, rfl, hroute, heq⟩ |
      ⟨_, _, _, _, _, _, _, _, rfl, -, heq⟩
    · rw [heq, routedBy_eq_nil hdec]
      exact (List.append_nil _).symm
    · rw [heq]
      exact (List.append_nil _).symm
    · have hrouted : routedBy cfg s (.inbound sender (some (.decoded round payloads)) good) =
        [(round, payloads)] := if_pos hroute
      rw [heq, hrouted]
      simp
    · rw [heq]
      exact (List.append_nil _).symm

theorem surfaced_after (ops : List (AdcnetServerOp C)) :
    emitted cfg EndRound.decoded ops ++ (after cfg ops).pendingDecoded =
      (routed cfg ops).flatMap Prod.snd := by
  induction ops using List.reverseRecOn with
  | nil => rfl
  | append_singleton ops op ih =>
    rw [emitted_concat, routed_concat, after_concat, List.flatMap_append, ← ih,
      List.append_assoc, List.append_assoc, pendingDecoded_apply]

/-- **Once per round.**  In every run whose rounds begin in increasing order, as long as
the sets taken are readable and no `Decoded` comes back after its round has left the
window, a relay shares once for a round, over the first set it accepted, announces and
decodes it once, and surfaces its payloads once. -/
theorem once_per_round (cfg : AdcnetServerConfig C) (ops : List (AdcnetServerOp C))
    (hord : InOrder ops) (hok : ∀ σ ∈ Trace.steps ops, answerable cfg σ = true) :
    BlindsOnce cfg ops ∧ RoutesOnce cfg ops := by
  have h := once_after cfg hord ops (List.prefix_refl ops)
  refine ⟨⟨h.shared.nodup, fun e he => ?_, h.announced.nodup, h.decoded.nodup⟩,
    ⟨surfaced_after ops, (routedGuard_after hord hok ops (List.prefix_refl ops)).nodup⟩⟩
  obtain ⟨keys, hfirst, hperm⟩ := h.overSet e he
  refine ⟨keys, hfirst, ?_⟩
  rw [← map_some_signersOf (readable_after hord hok ops (List.prefix_refl ops) _ _ hfirst)]
  exact hperm.map some

end AdcnetServerSession

/-! ## A relay to run -/

namespace AdcnetToy
open AdcnetServerOp AdcnetServerSession

/-- The identity whose bytes are all `n`. -/
def identity (n : U8) : Pubkey := .filled 32 n

/-- What is signed is kept beside its signer; a signed key without a signer is one whose
signature is bad.  Vectors have one word, which is summed. -/
def crate : AdcnetCrate where
  PrivateKey := PublicKey
  ExchangeIdentity := Unit
  ExchangePublicKey := Bytes
  SignedContribution := ClientContribution × PublicKey
  SignedKey := Bytes × Option PublicKey
  SignedShare := ServerShare × PublicKey
  recoverContribution := some
  recoverKey k := k.2.map (fun signer => (⟨k.1⟩, signer))
  recoverShare := some
  fromSec1Bytes bytes := if bytes = [] then none else some bytes
  ecdh _ xp := xp
  serverContribute _ t sid key secrets :=
    some (⟨sid, t, [(secrets.values.map (fun s => Fin.ofNat _ (s.headD 0).val)).sum]⟩, key)
  combineRound _ _ contributions shares _ :=
    some [[Fin.ofNat 256 ((contributions.map (fun c => (c.blinded.headD 0).val)).sum +
      (shares.map (fun s => (s.share.headD 0).val)).sum)]]
  aggregateClients vectors := [(vectors.map (fun v => v.headD 0)).sum]
  keysBytes keys := keys.flatMap (fun k => k.1 ++ k.2.getD [])
  verify pk m signature := decide (signature = pk.1 ++ m)
  sign pk m := pk.1 ++ m

/-- A relay whose leader is identity 9. -/
def relay : AdcnetServerConfig crate where
  config := ⟨1, 8⟩
  serverId := 0
  signingKey := (identity 1).1
  exchange := ()
  expectedServers := 2
  roster := [identity 1, identity 9]
  minClients := 1
  clientSetMax := 4
  isLeader := false
  leaderPk := identity 9
  aggregation := none

/-- The signed key of a client. -/
def clientKey (n : U8) : crate.SignedKey := ([n], some (identity n).1)

/-- A message of the leader. -/
def fromLeader (msg : AdcnetWire crate) : AdcnetServerOp crate :=
  .inbound (identity 9) (some msg) (fun _ => true)

/-- Two sets and two `Decoded` for one round, all of them in time. -/
def prompt : List (AdcnetServerOp crate) :=
  [.beginRound 1, fromLeader (.clientSet 1 [clientKey 2, clientKey 3]),
   fromLeader (.clientSet 1 [clientKey 2]), .endRound 1, .beginRound 2,
   fromLeader (.decoded 1 [[7]]), fromLeader (.decoded 1 [[7]]), .endRound 2]

/-- The `Decoded` of round 1 comes back in round 5. -/
def replayed : List (AdcnetServerOp crate) :=
  [.beginRound 1, fromLeader (.decoded 1 [[7]]), .endRound 1, .beginRound 5,
   fromLeader (.decoded 1 [[7]]), .endRound 5]

/-- A member of the announced set has a bad signature. -/
def unreadable : List (AdcnetServerOp crate) :=
  [.beginRound 1, fromLeader (.clientSet 1 [clientKey 2, ([3], none)]), .endRound 1]

theorem prompt_once : BlindsOnce relay prompt ∧ RoutesOnce relay prompt :=
  once_per_round relay prompt ⟨by decide +kernel, by decide +kernel, by decide +kernel⟩
    (by decide +kernel)

/-- **A replayed `Decoded` is surfaced again, and a share can leave out a member of the
set it is for.** -/
theorem replay_surfaces_twice :
    (InOrder replayed ∧ emitted relay EndRound.decoded replayed = [[7], [7]] ∧
      ¬ RoutesOnce relay replayed) ∧
    (InOrder unreadable ∧ (emitted relay EndRound.shares unreadable).length = 1 ∧
      ¬ BlindsOnce relay unreadable) := by
  refine ⟨⟨⟨by decide +kernel, by decide +kernel, by decide +kernel⟩, by decide +kernel,
      fun h => ?_⟩,
    ⟨by decide +kernel, by decide +kernel, by decide +kernel⟩, by decide +kernel, fun h => ?_⟩
  · exact absurd h.once (by decide +kernel)
  · -- One secret, and two members in the only set there is.
    have hone : ∀ e ∈ emitted relay EndRound.shares unreadable, e.secrets.keys.length = 1 := by
      decide +kernel
    have htwo : ∀ a ∈ accepted relay unreadable, a.2.length = 2 := by decide +kernel
    have hlen : (emitted relay EndRound.shares unreadable).length = 1 := by decide +kernel
    obtain ⟨e, he⟩ := List.length_eq_one_iff.mp hlen
    have hmem : e ∈ emitted relay EndRound.shares unreadable := by
      rw [he]
      exact List.mem_cons_self
    obtain ⟨keys, hfirst, hperm⟩ := h.overSet e hmem
    have hsame := hperm.length_eq
    rw [List.length_map, List.length_map, hone e hmem,
      show keys.length = 2 from htwo _ (mem_of_firstSet hfirst)] at hsame
    cases hsame

end AdcnetToy
end Anymone
