import Mathlib.Data.Fintype.Card
import Anymone.PanetiereDelivery

/-! # Whether an announced set is servable

A leader announces the first `client_set_max` clients it could serve, in the order their
openings came to it; a follower serves them when they were among the first
`2 * client_set_max` ids to reach it, in the order they came there.  `announced_servable_iff`
is this condition, over any two orders of the same contributions; with no more than
`2 * client_set_max` ids it always holds (`picked_of_few`).
-/

namespace Anymone
open FirstCome
variable {C : SessionCrate}

/-- What is taken for granted of the crate at a relay: over clients whose openings, slices
and roots are each of a contribution of their own, both halves of a share are made. -/
structure Computes (cfg : ServerConfig C) (r : Round) (K : List Contribution) : Prop where
  server : ∀ (ks : List Contribution) (items : List (ClientId × C.Opening))
    (clients : List ClientId), (∀ k ∈ ks, k ∈ K) → (ks.map Contribution.clientId).Nodup →
    clients.Nodup → (items.map Prod.fst).Nodup → (∀ c ∈ clients, c ∈ items.map Prod.fst) →
    (∀ i ∈ items, ∃ k ∈ ks, k.clientId = i.1 ∧
      C.unsealOpening (C.pke cfg.identity) (cfg.sid r) k.clientId cfg.serverId
        (k.sealed cfg.serverId) = some i.2) →
    ∃ sp, C.runServerRound cfg.serverId items clients = some sp
  lane : ∀ (ks : List Contribution) (items : List (ClientId × C.Share × SharePath C.HVCPoly))
    (clients : List ClientId) (roots : List (ClientId × C.HVCPoly)),
    (∀ k ∈ ks, k ∈ K) → (ks.map Contribution.clientId).Nodup →
    clients.Nodup → (items.map Prod.fst).Nodup → (∀ c ∈ clients, c ∈ items.map Prod.fst) →
    (∀ i ∈ items, ∃ k ∈ ks, k.clientId = i.1 ∧
      C.unpackShare (k.share cfg.serverId) cfg.scp.blockLen = some i.2.1 ∧
      C.pathFromBytes cfg.scp cfg.serverId.val (k.path cfg.serverId) = some i.2.2) →
    roots.map Prod.fst = clients →
    (∀ x ∈ roots, ∃ k ∈ ks, k.clientId = x.1 ∧
      ∃ e, C.bulletinFromBytes k.entry = some e ∧ e.shareRoot = x.2) →
    ∃ lane laneOpen, C.runRsNodeRound cfg.scp cfg.serverId items clients roots = some lane ∧
      C.shareOpeningToBytes cfg.scp lane.aggOpen = some laneOpen

/-- The clients a leader announces of a delivery: the first of its openings to come, of
those with a slot. -/
def ServerConfig.picked (cfg : ServerConfig C) (ds : List Delivery) : List ClientId :=
  (cfg.kept ds .opening).take cfg.clientSetMax.val

/-- What a follower makes of an announced set: every member is held, the set is the round's,
and a share over exactly it is emitted. -/
structure Serves (cfg : ServerConfig C) (s : ServerSession C) (r round : Round)
    (set : List ClientId) : Prop where
  held : ∀ c ∈ set, c ∈ (s.bucket r).inboxItems.map Prod.fst ∧
    c ∈ (s.bucket r).laneItems.map Prod.fst ∧ (s.bucket r).publics.contains c = true
  adopted : s.clientSetByRound.get? r = some set
  shared : ∃ aggOpen aggShare shareSum laneOpen signature,
    PanetiereWire.serverPublic r cfg.serverId set aggOpen aggShare shareSum laneOpen signature ∈
      (s.emitServerPublics cfg round).2

variable {cfg : ServerConfig C} {s : ServerSession C} {r round : Round} {ds : List Delivery}
  {b : RoundState C} {K : List Contribution} {set : List ClientId}

namespace Gathered

/-- After a complete delivery every slot's holder has all its parts filed. -/
theorem kept_complete (hK : Complete K ds) (part part' : Part) {c : ClientId} :
    c ∈ cfg.kept ds part ↔ c ∈ cfg.kept ds part' := by
  have all : ∀ part part' : Part, c ∈ cfg.kept ds part → c ∈ cfg.kept ds part' := by
    intro part part' hmem
    obtain ⟨d, hd, -, hslot, hc⟩ := ServerConfig.mem_kept.mp hmem
    obtain ⟨d', hd', hpart', heq⟩ := hK.all (hK.mem hd) part'
    exact ServerConfig.mem_kept.mpr ⟨d', hd', hpart', by rw [heq]; exact hslot, by rw [heq]; exact hc⟩
  exact ⟨all part part', all part' part⟩

/-- After a complete delivery the clients filed are the ones with a slot. -/
theorem mem_kept_iff (hK : Complete K ds) (part : Part) {c : ClientId} :
    c ∈ cfg.kept ds part ↔ c ∈ (cfg.slots ds).map Prod.fst := by
  constructor
  · intro hmem
    obtain ⟨d, -, -, hslot, rfl⟩ := ServerConfig.mem_kept.mp hmem
    exact List.mem_map_of_mem hslot
  · intro hmem
    obtain ⟨x, hx, rfl⟩ := List.mem_map.mp hmem
    obtain ⟨d, hd, rfl⟩ := List.mem_map.mp (mem_of_mem_slots hx)
    obtain ⟨d', hd', hpart, heq⟩ := hK.all (hK.mem hd) part
    exact ServerConfig.mem_kept.mpr ⟨d', hd', hpart, by rw [heq]; exact hx, by rw [heq]; rfl⟩

/-- After a complete delivery every opening is servable. -/
theorem servable (h : Gathered cfg r ds b) (hK : Complete K ds) :
    b.servable = cfg.kept ds .opening := by
  unfold RoundState.servable
  rw [h.openings, List.filter_eq_self]
  intro c hc
  exact (h.posts c).mpr ((kept_complete hK .opening .post).mp hc)

/-- **What the leader announces** of a complete delivery. -/
theorem announceOne_iff (h : Gathered cfg r ds b) (hK : Complete K ds)
    (hadm : s.admits r = true) (hun : s.announcedRounds.contains r = false) (hround : r ≤ round) :
    (∃ demand, s.announceOne cfg round r b = some (set, demand)) ↔
      set = sortDedup (cfg.picked ds) ∧ set ≠ [] := by
  have hstart : s.firstRound.any (fun f => decide (r < f)) = false := by
    unfold ServerSession.admits at hadm
    rw [Bool.and_eq_true_iff, Bool.not_eq_true'] at hadm
    exact hadm.2
  have hpick : sortDedup (b.servable.take cfg.clientSetMax.val) = sortDedup (cfg.picked ds) := by
    rw [h.servable hK]
    rfl
  have hempty : b.inboxItems.isEmpty = true → sortDedup (cfg.picked ds) = [] := by
    intro hnil
    unfold ServerConfig.picked
    rw [← h.openings, List.isEmpty_iff.mp hnil, List.map_nil, List.take_nil]
    rfl
  unfold ServerSession.announceOne
  rw [decide_eq_false (not_lt.mpr hround), hstart, hun, Bool.false_or, Bool.false_or, Bool.false_or,
    hpick]
  by_cases hnil : sortDedup (cfg.picked ds) = []
  · refine iff_of_false ?_ (fun hset => hset.2 (hset.1.trans hnil))
    rintro ⟨demand, hsome⟩
    rw [hnil] at hsome
    split at hsome <;> cases hsome
  · rw [if_neg (fun he => hnil (hempty he))]
    dsimp only
    rw [if_neg (fun he => hnil (List.isEmpty_iff.mp he))]
    constructor
    · rintro ⟨demand, hsome⟩
      cases hsome
      exact ⟨rfl, hnil⟩
    · rintro ⟨rfl, -⟩
      exact ⟨_, rfl⟩

instance : LawfulBEq (ClientId × Pubkey) := inferInstance

/-- The contributions with a slot. -/
def holders (cfg : ServerConfig C) (ds : List Delivery) (K : List Contribution) :
    List Contribution := K.filter (fun k => k.arrival ∈ cfg.slots ds)

theorem holders_ids_nodup (hK : (K.map Contribution.signer).Nodup) :
    ((holders cfg ds K).map Contribution.clientId).Nodup := by
  refine ((hK.of_map _).filter _).map_on (fun k hk k' hk' heq => ?_)
  obtain ⟨hmem, hslot⟩ := List.mem_filter.mp hk
  obtain ⟨hmem', hslot'⟩ := List.mem_filter.mp hk'
  have harrival := eq_of_mem_slots (of_decide_eq_true hslot) (of_decide_eq_true hslot') heq
  exact List.inj_on_of_nodup_map hK hmem hmem' (Prod.mk.inj harrival).2

theorem mem_holders (hK : Complete K ds) {part : Part} {c : ClientId} {k : Contribution}
    (h : Holder cfg ds part c k) : k ∈ holders cfg ds K ∧ k.clientId = c := by
  obtain ⟨⟨d, hd, -, rfl⟩, hc, hslot⟩ := h
  exact ⟨List.mem_filter.mpr ⟨hK.mem hd, decide_eq_true hslot⟩, hc⟩

/-- **A follower's share.**  A bucket that gathered every contribution, and holds every
member of a set, makes both halves of a share over it. -/
theorem shares (h : Gathered cfg r ds b) (hK : Complete K ds)
    (hsigners : (K.map Contribution.signer).Nodup) (hok : Computes cfg r K) (hset : set.Nodup)
    (hheld : ∀ c ∈ set, c ∈ (cfg.slots ds).map Prod.fst) :
    ∃ sp lane laneOpen, C.runServerRound cfg.serverId b.inboxItems set = some sp ∧
      cfg.laneShare b sp = some (lane, laneOpen) := by
  have hids : ((holders cfg ds K).map Contribution.clientId).Nodup := holders_ids_nodup hsigners
  have hmem : ∀ k ∈ holders cfg ds K, k ∈ K := fun k hk => (List.mem_filter.mp hk).1
  have hnodup : ∀ part, (cfg.kept ds part).Nodup := (hK.distinct hsigners).kept_nodup
  have hkept : ∀ part, ∀ c ∈ set, c ∈ cfg.kept ds part :=
    fun part c hc => (mem_kept_iff hK part).mpr (hheld c hc)
  obtain ⟨sp, hsp⟩ := hok.server (holders cfg ds K) b.inboxItems set hmem hids hset
    (by rw [h.openings]; exact hnodup .opening) (by rw [h.openings]; exact hkept .opening)
    (fun i hi => by
      obtain ⟨k, hk, hread⟩ := h.opening i hi
      obtain ⟨hin, hc⟩ := mem_holders hK hk
      exact ⟨k, hin, hc, hread⟩)
  -- Every member's public is there, so that the roots are the members' in order.
  have hroots : ∀ clients : List ClientId, (∀ c ∈ clients, b.publics.contains c = true) →
      (clients.filterMap (fun c => (b.publics.get? c).map (fun e => (c, e.shareRoot)))).map
        Prod.fst = clients := by
    intro clients hall
    rw [List.map_filterMap]
    refine (List.filterMap_congr (fun c hc => ?_)).trans List.filterMap_some
    obtain ⟨e, he⟩ := OrdMap.contains_iff.mp (hall c hc)
    rw [he]
    rfl
  obtain ⟨lane, laneOpen, hlane, hopen⟩ := hok.lane (holders cfg ds K) b.laneItems set
    (set.filterMap (fun c => (b.publics.get? c).map (fun e => (c, e.shareRoot)))) hmem hids hset
    (by rw [h.slices]; exact hnodup .slice) (by rw [h.slices]; exact hkept .slice)
    (fun i hi => by
      obtain ⟨k, hk, hread⟩ := h.slice i hi
      obtain ⟨hin, hc⟩ := mem_holders hK hk
      exact ⟨k, hin, hc, hread⟩)
    (hroots set (fun c hc => (h.posts c).mpr (hkept .post c hc)))
    (fun x hx => by
      obtain ⟨c, -, hc⟩ := List.mem_filterMap.mp hx
      obtain ⟨e, he, rfl⟩ := Option.map_eq_some_iff.mp hc
      obtain ⟨k, hk, hread⟩ := h.post c e he
      obtain ⟨hin, hid⟩ := mem_holders hK hk
      exact ⟨k, hin, hid, e, hread, rfl⟩)
  refine ⟨sp, lane, laneOpen, hsp, ?_⟩
  unfold ServerConfig.laneShare
  rw [(C.runServerRound_over hsp).2]
  simp only [hlane, hopen, Option.bind_eq_bind, Option.bind_some]

end Gathered

/-! ## The sessions -/

namespace ServerSession

theorem deliver_complete (hv : ∀ k ∈ K, k.Valid r cfg) (hK : Complete K ds) :
    ∀ d ∈ ds, d.contribution.Valid r cfg := fun _ hd => hv _ (hK.mem hd)

/-- What a session awaiting a round has gathered of it after a delivery. -/
theorem Awaits.gathered (h : Awaits s r) (hv : ∀ d ∈ ds, d.contribution.Valid r cfg)
    (hdist : Distinct ds) : Gathered cfg r ds ((deliver cfg r ds s).bucket r) := by
  have hfresh : s.bucket r = .default := by
    unfold bucket
    rw [h.fresh]
    rfl
  have hstart : Gathered cfg r [] (s.bucket r) := by
    rw [hfresh]
    exact .default cfg r
  exact gathered_deliver ds hstart h.admits hv hdist

/-- **What a leader announces of a round** once every contribution came. -/
theorem mem_settle_deliver (set : List ClientId) (hmode : cfg.mode = .leader) (h : Awaits s r) (hround : r ≤ round)
    (hv : ∀ k ∈ K, k.Valid r cfg) (hK : Complete K ds)
    (hsigners : (K.map Contribution.signer).Nodup) :
    (∃ demand, PanetiereWire.clientSet r set demand ∈
      ((deliver cfg r ds s).settle cfg round).2) ↔
      set = sortDedup (cfg.picked ds) ∧ set ≠ [] := by
  have hv' := deliver_complete hv hK
  have hg := h.gathered hv' (hK.distinct hsigners)
  have hframe := deliver_frame ds h.admits hv'
  generalize hs : deliver cfg r ds s = s' at hg hframe
  have hadm : s'.admits r = true := by
    rw [hframe]
    exact h.admits
  have hun : s'.announcedRounds.contains r = false := by
    rw [hframe]
    exact h.unannounced
  have hhonest : s'.misbehavior = none := by
    rw [hframe]
    exact h.honest
  -- an honest leader announces in `settle`, whatever else the round does
  have hannounced : (s'.settle cfg round).2 = (s'.announceSettled cfg round).2 := by
    unfold settle
    rw [if_pos ⟨hmode, by rw [hhonest]; exact nofun⟩]
  rw [hannounced, ← hg.announceOne_iff hK hadm hun hround]
  have hmem : ∀ demand, PanetiereWire.clientSet r set demand ∈ (s'.announceSettled cfg round).2 ↔
      ∃ b, s'.rounds.get? r = some b ∧ s'.announceOne cfg round r b = some (set, demand) := by
    intro demand
    rw [← OrdMap.mem_filterMap_entries]
    unfold announceSettled announcements
    rw [List.mem_map]
    constructor
    · rintro ⟨a, ha, heq⟩
      cases heq
      exact ha
    · exact fun ha => ⟨_, ha, rfl⟩
  simp only [hmem]
  unfold bucket
  cases hb : s'.rounds.get? r with
  | none =>
    refine iff_of_false ?_ ?_
    · rintro ⟨_, b, hb', -⟩
      cases hb'
    · rintro ⟨demand, hsome⟩
      unfold announceOne at hsome
      rw [if_pos (by rw [Option.getD_none]; simp [RoundState.default])] at hsome
      cases hsome
  | some b => simp

/-- The leader's announcement reaches the sets and nothing else, as the round's first. -/
theorem onInbound_clientSet {leader : PeerId} {demand : U32}
    (hmode : cfg.mode = .follower leader) (hadm : s.admits r = true)
    (hlen : set.length ≤ cfg.clientSetMax.val) :
    (s.onInbound cfg leader (PanetiereWire.clientSet r set demand).serialize).1 =
      { s with clientSetByRound := s.clientSetByRound.orInsert r set } := by
  have hbound : set.length < 18446744073709551616 := by omega
  have hfits : PanetiereWire.format.Fits (.clientSet r set demand) :=
    ⟨_, rfl, _, rfl, trivial, ⟨hbound, fun _ _ => trivial⟩, trivial⟩
  have hadopts : cfg.adopts leader set = true := by
    unfold ServerConfig.adopts
    rw [hmode]
    simp [hlen]
  unfold onInbound
  rw [PanetiereWire.deserialize_serialize hfits]
  dsimp only
  rw [if_pos (show s.admits (PanetiereWire.clientSet r set demand).round = true from hadm)]
  unfold adopt
  rw [if_pos hadopts]

/-- **A share is emitted** over a set whose members a follower holds. -/
theorem emits {leader : PeerId} (hmode : cfg.mode = .follower leader) (hround : r ≤ round)
    (hhonest : s.misbehavior = none) (hset : s.clientSetByRound.get? r = some set)
    (hb : s.rounds.get? r = some b) (hquiet : b.emittedMyPublic = false) (hne : set ≠ [])
    (hheld : ∀ c ∈ set, c ∈ b.inboxItems.map Prod.fst ∧ c ∈ b.laneItems.map Prod.fst ∧
      b.publics.contains c = true)
    {sp : C.ServerEntry} {lane : C.NodeEntry} {laneOpen : Bytes}
    (hsp : C.runServerRound cfg.serverId b.inboxItems set = some sp)
    (hlane : cfg.laneShare b sp = some (lane, laneOpen)) :
    cfg.shareWire false r sp lane laneOpen ∈ (s.emitServerPublics cfg round).2 := by
  have hinbox : b.inboxItems.isEmpty = false := by
    obtain ⟨c, hc⟩ := List.exists_mem_of_ne_nil set hne
    obtain ⟨i, hi, -⟩ := List.mem_map.mp (hheld c hc).1
    rw [List.isEmpty_eq_false_iff]
    exact List.ne_nil_of_mem hi
  have hcanon : cfg.canonical s.clientSetByRound r b = some set := by
    unfold ServerConfig.canonical
    rw [hmode, if_neg nofun, hset]
  -- every announced client is held with its opening, its slice and its public part
  have hall : set.all (cfg.holds b) = true := by
    rw [List.all_eq_true]
    intro c hc
    obtain ⟨hopen, hslice, hpost⟩ := hheld c hc
    obtain ⟨i, hi, rfl⟩ := List.mem_map.mp hopen
    obtain ⟨j, hj, heq⟩ := List.mem_map.mp hslice
    have hany : b.inboxItems.any (fun x => x.1 == i.1) = true :=
      List.any_eq_true.mpr ⟨i, hi, beq_self_eq_true i.1⟩
    have hany' : b.laneItems.any (fun x => x.1 == i.1) = true :=
      List.any_eq_true.mpr ⟨j, hj, beq_iff_eq.mpr heq⟩
    unfold ServerConfig.holds
    rw [hpost, hany, hany', Bool.or_true]
    rfl
  unfold emitServerPublics
  rw [hhonest, if_neg nofun]
  refine List.mem_filterMap.mpr ⟨(r, b), OrdMap.get?_eq_some_iff.mp hb, ?_⟩
  unfold ServerConfig.emitOne
  dsimp only
  rw [decide_eq_false (not_lt.mpr hround), hquiet, hinbox, hcanon]
  simp only [Bool.or_self, Bool.false_eq_true, if_false, List.isEmpty_eq_false_iff.mpr hne, hall,
    Bool.not_true, hsp, hlane]
  rfl

/-- **What a follower serves.**  After a complete delivery, with the leader's announcement
somewhere in it, a set is served exactly when every member has a slot. -/
theorem serves_iff {leader : PeerId} {early late : List Delivery} (demand : U32)
    (hmode : cfg.mode = .follower leader) (h : Awaits s r) (hround : r ≤ round)
    (hv : ∀ k ∈ K, k.Valid r cfg) (hK : Complete K (early ++ late))
    (hsigners : (K.map Contribution.signer).Nodup) (hok : Computes cfg r K)
    (hset : set.Nodup) (hne : set ≠ []) (hlen : set.length ≤ cfg.clientSetMax.val) :
    Serves cfg (deliver cfg r late ((deliver cfg r early s).onInbound cfg leader
      (PanetiereWire.clientSet r set demand).serialize).1) r round set ↔
      ∀ c ∈ set, c ∈ (cfg.slots (early ++ late)).map Prod.fst := by
  have hv' := deliver_complete hv hK
  have hdist := hK.distinct hsigners
  have hvEarly : ∀ d ∈ early, d.contribution.Valid r cfg :=
    fun d hd => hv' d (List.mem_append_left _ hd)
  have hvLate : ∀ d ∈ late, d.contribution.Valid r cfg :=
    fun d hd => hv' d (List.mem_append_right _ hd)
  have hdistEarly : Distinct early := by
    unfold Distinct at hdist ⊢
    rw [List.map_append] at hdist
    exact (List.nodup_append.mp hdist).1
  -- The session before the announcement, after it, and after the rest.
  have hg₁ := h.gathered hvEarly hdistEarly
  have hf₁ := deliver_frame early h.admits hvEarly
  generalize deliver cfg r early s = s₁ at hg₁ hf₁
  have hadm₁ : s₁.admits r = true := by
    rw [hf₁]
    exact h.admits
  rw [onInbound_clientSet hmode hadm₁ hlen]
  have hg := gathered_deliver late (s := { s₁ with
    clientSetByRound := s₁.clientSetByRound.orInsert r set }) hg₁ hadm₁ hvLate hdist
  have hf := deliver_frame late (s := { s₁ with
    clientSetByRound := s₁.clientSetByRound.orInsert r set }) hadm₁ hvLate
  generalize deliver cfg r late { s₁ with
    clientSetByRound := s₁.clientSetByRound.orInsert r set } = s₃ at hg hf
  have hheld : (∀ c ∈ set, c ∈ (s₃.bucket r).inboxItems.map Prod.fst ∧
      c ∈ (s₃.bucket r).laneItems.map Prod.fst ∧ (s₃.bucket r).publics.contains c = true) ↔
      ∀ c ∈ set, c ∈ (cfg.slots (early ++ late)).map Prod.fst := by
    refine forall₂_congr (fun c _ => ?_)
    rw [hg.openings, hg.slices, hg.posts, Gathered.mem_kept_iff hK, Gathered.mem_kept_iff hK,
      Gathered.mem_kept_iff hK, and_self, and_self]
  have hadopted : s₃.clientSetByRound.get? r = some set := by
    rw [hf, OrdMap.get?_orInsert, if_pos rfl, hf₁, h.unset]
    rfl
  have hhonest : s₃.misbehavior = none := by
    rw [hf, hf₁]
    exact h.honest
  constructor
  · exact fun hserves => hheld.mp hserves.held
  · intro hslots
    have hall := hheld.mpr hslots
    obtain ⟨sp, lane, laneOpen, hsp, hlane⟩ := hg.shares hK hsigners hok hset hslots
    have hb : s₃.rounds.get? r = some (s₃.bucket r) := by
      obtain ⟨c, hc⟩ := List.exists_mem_of_ne_nil set hne
      have hopen := (hall c hc).1
      unfold bucket at hopen ⊢
      cases hget : s₃.rounds.get? r with
      | none =>
        rw [hget] at hopen
        cases hopen
      | some b => rfl
    have hemits := emits hmode hround hhonest hadopted hb hg.quiet hne hall hsp hlane
    obtain ⟨hid, hclients⟩ := C.runServerRound_over hsp
    unfold ServerConfig.shareWire at hemits
    rw [hid, hclients] at hemits
    exact ⟨hall, hadopted, _, _, _, _, _, hemits⟩

/-- **Which announced sets are servable.**  All contributions of a round reach a leader and a
follower of the same set bound, in two orders, and the leader's announcement reaches the
follower anywhere between.  Whatever the leader announces, every member is held by the
follower, which adopts the set and emits a share over exactly it, if and only if each of the
first `client_set_max` openings that came to the leader with a slot is of an id that has a
slot at the follower. -/
theorem announced_servable_iff {cfgL cfgF : ServerConfig C} {sL sF : ServerSession C}
    {r roundL roundF : Round} {K : List Contribution} {dsL early late : List Delivery}
    (hleader : cfgL.mode = .leader) (hfollower : cfgF.mode = .follower (C.pubkey cfgL.identity))
    (hmax : cfgL.clientSetMax = cfgF.clientSetMax) (hL : Awaits sL r) (hF : Awaits sF r)
    (hroundL : r ≤ roundL) (hroundF : r ≤ roundF)
    (hsigners : (K.map Contribution.signer).Nodup)
    (hvL : ∀ k ∈ K, k.Valid r cfgL) (hvF : ∀ k ∈ K, k.Valid r cfgF) (hok : Computes cfgF r K)
    (hdL : Complete K dsL) (hdF : Complete K (early ++ late)) :
    (∀ set demand,
      PanetiereWire.clientSet r set demand ∈ ((deliver cfgL r dsL sL).settle cfgL roundL).2 →
      Serves cfgF (deliver cfgF r late ((deliver cfgF r early sF).onInbound cfgF
        (C.pubkey cfgL.identity) (PanetiereWire.clientSet r set demand).serialize).1) r roundF
        set) ↔
      ∀ c ∈ cfgL.picked dsL, c ∈ (cfgF.slots (early ++ late)).map Prod.fst := by
  have hannounces := fun set =>
    mem_settle_deliver set hleader hL hroundL hvL hdL hsigners
  have hlen : (sortDedup (cfgL.picked dsL)).length ≤ cfgF.clientSetMax.val := by
    refine ((nodup_sortDedup _).subperm (fun c hc => mem_sortDedup.mp hc)).length_le.trans ?_
    unfold ServerConfig.picked
    rw [hmax]
    exact List.length_take_le ..
  by_cases hnone : sortDedup (cfgL.picked dsL) = []
  · -- Nothing is announced, and nothing was picked.
    have hpicked : cfgL.picked dsL = [] := by
      rw [List.eq_nil_iff_forall_not_mem] at hnone ⊢
      exact fun c hc => hnone c (mem_sortDedup.mpr hc)
    refine iff_of_true (fun set demand hmem => ?_) (by rw [hpicked]; exact nofun)
    obtain ⟨rfl, hne⟩ := (hannounces set).mp ⟨demand, hmem⟩
    exact absurd hnone hne
  · have hserves := fun demand => serves_iff demand hfollower hF hroundF hvF hdF
      hsigners hok (nodup_sortDedup (cfgL.picked dsL)) hnone hlen
    simp only [mem_sortDedup] at hserves
    constructor
    · intro hall
      obtain ⟨demand, hmem⟩ := (hannounces _).mpr ⟨rfl, hnone⟩
      exact (hserves demand).mp (hall _ demand hmem)
    · intro hslots set demand hmem
      obtain ⟨rfl, -⟩ := (hannounces set).mp ⟨demand, hmem⟩
      exact (hserves demand).mpr hslots

/-- With no more ids than slots, whatever the orders, every announced set is servable. -/
theorem picked_of_few {cfgL cfgF : ServerConfig C} {dsL dsF : List Delivery}
    (hfew : (K.map Contribution.clientId).toFinset.card ≤ 2 * cfgF.clientSetMax.val)
    (hdL : Complete K dsL) (hdF : Complete K dsF) :
    ∀ c ∈ cfgL.picked dsL, c ∈ (cfgF.slots dsF).map Prod.fst := by
  intro c hc
  obtain ⟨d, hd, -, -, rfl⟩ := ServerConfig.mem_kept.mp (List.mem_of_mem_take hc)
  obtain ⟨d', hd', -, heq⟩ := hdF.all (hdL.mem hd) .post
  have hids : ((dsF.map (fun d => d.contribution.arrival)).map Prod.fst).toFinset ⊆
      (K.map Contribution.clientId).toFinset := by
    intro c hc
    rw [List.mem_toFinset, List.map_map] at hc
    obtain ⟨e, he, rfl⟩ := List.mem_map.mp hc
    exact List.mem_toFinset.mpr (List.mem_map_of_mem (hdF.mem he))
  have hcap : ((dsF.map (fun d => d.contribution.arrival)).map Prod.fst).toFinset.card ≤
      cfgF.admitMax.val := by
    have hcard := (Finset.card_le_card hids).trans hfew
    have hall := Finset.card_le_univ
      ((dsF.map (fun d => d.contribution.arrival)).map Prod.fst).toFinset
    rw [Fintype.card_fin] at hall
    unfold ServerConfig.admitMax U64.saturatingMul
    dsimp only
    omega
  have hslot := has_slot_of_few hcap (x := d'.contribution.arrival)
    (List.mem_map_of_mem (f := fun d : Delivery => d.contribution.arrival) hd')
  rw [heq] at hslot
  exact hslot

/-! Three clients and a set bound of one. -/

/-- Client `id`'s contribution to round 5. -/
def toyContribution (id : U8) : Contribution where
  clientId := Fin.ofNat _ id.val
  signer := toyNode id
  entry := id :: (toyCrate.sign id ((sessionId toyCrate toySid 5).1 ++ leBytes 4 id.val)).1
  postSignature := toySign (toyNode id) (clientPublicSigningBytes 5 (Fin.ofNat _ id.val)
    (id :: (toyCrate.sign id ((sessionId toyCrate toySid 5).1 ++ leBytes 4 id.val)).1))
  sealed _ := []
  openingSignature i :=
    toySign (toyNode id) (clientOpeningSigningBytes 5 (Fin.ofNat _ id.val) i [])
  share _ := [1]
  path _ := []
  sliceSignature i :=
    toySign (toyNode id) (clientSliceSigningBytes 5 (Fin.ofNat _ id.val) i [1] [])

def toyCrowd : List Contribution := [toyContribution 7, toyContribution 8, toyContribution 9]

/-- Everything of these clients, one client after another. -/
def inTurn (ids : List U8) : List Delivery :=
  ids.flatMap (fun id => [.post, .opening, .slice].map (fun part =>
    ⟨toyNode id, part, toyContribution id⟩))

/-- A relay of a subnet whose sets have at most one client. -/
def toyTight (i : ServerId) (mode : SetMode) : ServerConfig toySession :=
  { toyConfig i mode with clientSetMax := 1 }

/-- The toy crate makes every share it is asked for. -/
theorem toy_computes (cfg : ServerConfig toySession) (r : Round) (K : List Contribution) :
    Computes cfg r K := by
  refine ⟨fun ks items clients _ _ _ _ hall _ => ?_, fun ks items clients roots _ _ _ _ _ _ _ _ =>
    ⟨_, _, rfl, rfl⟩⟩
  refine ⟨_, if_pos ?_⟩
  rw [List.all_eq_true]
  exact fun c hc => List.contains_iff_mem.mpr (hall c hc)

theorem toyCrowd_valid {i : ServerId} {mode : SetMode} :
    ∀ k ∈ toyCrowd, k.Valid 5 (toyTight i mode) := by
  have hids : ∀ k ∈ toyCrowd, clientIdFromPubkey k.signer = k.clientId := by decide +kernel
  have hposts : ∀ k ∈ toyCrowd, (toySession.bulletinFromBytes k.entry).any
      (fun parsed => (toyConfig 0 .leader).postOk 5 k.clientId parsed) = true := by decide +kernel
  intro k hk
  have hpost : ∃ parsed, toySession.bulletinFromBytes k.entry = some parsed ∧
      (toyTight i mode).postOk 5 k.clientId parsed = true := by
    have := hposts k hk
    rw [Option.any_eq_true] at this
    exact this
  have hid := hids k hk
  obtain ⟨id, rfl⟩ : ∃ id, k = toyContribution id := by
    simp only [toyCrowd, List.mem_cons, List.not_mem_nil, or_false] at hk
    rcases hk with rfl | rfl | rfl <;> exact ⟨_, rfl⟩
  have hlen : ∀ m, (toySign (toyNode id) m).length < 18446744073709551616 := by
    intro m
    unfold toySign
    rw [(toyHash _).2]
    decide
  have hentry : (toyContribution id).entry.length = 33 := congrArg (· + 1) (toyHash _).2
  refine ⟨hid, fun part => ?_, fun part => ?_, hentry, rfl, hpost, ⟨_, rfl⟩, ⟨_, _, rfl, rfl⟩⟩
  · cases part with
    | post =>
      exact ⟨_, rfl, _, rfl, trivial, trivial,
        show (toyContribution id).entry.length < 18446744073709551616 by rw [hentry]; decide,
        trivial, hlen _⟩
    | opening =>
      exact ⟨_, rfl, _, rfl, trivial, trivial, trivial, Nat.zero_lt_succ _, trivial, hlen _⟩
    | slice =>
      exact ⟨_, rfl, _, rfl, trivial, trivial, trivial,
        show ([1] : Bytes).length < 18446744073709551616 by decide, Nat.zero_lt_succ _, trivial,
        hlen _⟩
  · cases part <;> exact Bool.and_eq_true_iff.mpr ⟨decide_eq_true rfl, rfl⟩

theorem inTurn_complete {ids : List U8} (h : ids.Perm [7, 8, 9]) :
    Complete toyCrowd (inTurn ids) := by
  unfold Complete inTurn
  rw [List.map_flatMap]
  exact h.flatMap_right _

/-- The leader hears client 7 first and announces it; the follower hears it after two
others, and has no slot left for it. -/
theorem late_client_not_served :
    (∀ k ∈ toyCrowd, k.Valid 5 (toyTight 0 .leader)) ∧
    (∀ k ∈ toyCrowd, k.Valid 5 (toyTight 1 (.follower (toyNode 100)))) ∧
    (toyCrowd.map Contribution.signer).Nodup ∧
    Computes (toyTight 1 (.follower (toyNode 100))) 5 toyCrowd ∧
    Complete toyCrowd (inTurn [7, 8, 9]) ∧ Complete toyCrowd (inTurn [8, 9, 7]) ∧
    (∃ demand, PanetiereWire.clientSet 5 [7] demand ∈
      ((deliver (toyTight 0 .leader) 5 (inTurn [7, 8, 9]) (new.beginRound 5)).settle
        (toyTight 0 .leader) 5).2) ∧
    ∀ demand, ¬Serves (toyTight 1 (.follower (toyNode 100)))
      ((deliver (toyTight 1 (.follower (toyNode 100))) 5 (inTurn [8, 9, 7])
        (new.beginRound 5)).onInbound (toyTight 1 (.follower (toyNode 100))) (toyNode 100)
          (PanetiereWire.clientSet 5 [7] demand).serialize).1 5 5 [7] := by
  have hsigners : (toyCrowd.map Contribution.signer).Nodup := by decide +kernel
  have hdL : Complete toyCrowd (inTurn [7, 8, 9]) := inTurn_complete (.refl _)
  have hdF : Complete toyCrowd (inTurn [8, 9, 7] ++ []) := by
    rw [List.append_nil]
    exact inTurn_complete (by decide)
  refine ⟨toyCrowd_valid, toyCrowd_valid, hsigners, toy_computes _ _ _, hdL,
    by rwa [List.append_nil] at hdF, ?_, fun demand hserves => ?_⟩
  · exact (mem_settle_deliver [7] rfl (awaits_beginRound 5) le_rfl toyCrowd_valid hdL hsigners).mpr
      ⟨by decide +kernel, by decide⟩
  · have hslots := (serves_iff demand rfl (awaits_beginRound 5) le_rfl
      toyCrowd_valid hdF hsigners (toy_computes _ _ _) (by decide) (by decide) (by decide)).mp hserves
    exact absurd (hslots 7 (List.mem_singleton_self _)) (by decide +kernel)

/-- Had client 7 come second to the follower, the set would be served, wherever the
announcement comes. -/
theorem early_client_served : ∃ demand,
    PanetiereWire.clientSet 5 [7] demand ∈
      ((deliver (toyTight 0 .leader) 5 (inTurn [7, 8, 9]) (new.beginRound 5)).settle
        (toyTight 0 .leader) 5).2 ∧
    Serves (toyTight 1 (.follower (toyNode 100)))
      (deliver (toyTight 1 (.follower (toyNode 100))) 5 (inTurn [8])
        ((deliver (toyTight 1 (.follower (toyNode 100))) 5 (inTurn [9, 7])
          (new.beginRound 5)).onInbound (toyTight 1 (.follower (toyNode 100))) (toyNode 100)
            (PanetiereWire.clientSet 5 [7] demand).serialize).1) 5 5 [7] := by
  have hsigners : (toyCrowd.map Contribution.signer).Nodup := by decide +kernel
  have hdL : Complete toyCrowd (inTurn [7, 8, 9]) := inTurn_complete (.refl _)
  have happ : inTurn [9, 7] ++ inTurn [8] = inTurn [9, 7, 8] := List.flatMap_append.symm
  have hdF : Complete toyCrowd (inTurn [9, 7] ++ inTurn [8]) := by
    rw [happ]
    exact inTurn_complete (by decide)
  obtain ⟨demand, hmem⟩ : ∃ demand, PanetiereWire.clientSet 5 [7] demand ∈
      ((deliver (toyTight 0 .leader) 5 (inTurn [7, 8, 9]) (new.beginRound 5)).settle
        (toyTight 0 .leader) 5).2 :=
    (mem_settle_deliver [7] rfl (awaits_beginRound 5) le_rfl toyCrowd_valid hdL hsigners).mpr
      ⟨by decide +kernel, by decide⟩
  have hslots : ∀ c ∈ (toyTight 0 .leader).picked (inTurn [7, 8, 9]),
      c ∈ ((toyTight 1 (.follower (toyNode 100))).slots (inTurn [9, 7] ++ inTurn [8])).map
        Prod.fst := by
    have hpicked : (toyTight 0 .leader).picked (inTurn [7, 8, 9]) = [7] := by decide +kernel
    intro c hc
    rw [hpicked, List.mem_singleton] at hc
    rw [hc, happ]
    decide +kernel
  have hiff := @announced_servable_iff toySession (toyTight 0 .leader)
    (toyTight 1 (.follower (toyNode 100)))
  exact ⟨demand, hmem, (hiff rfl rfl rfl (awaits_beginRound 5) (awaits_beginRound 5) le_rfl le_rfl
    hsigners toyCrowd_valid toyCrowd_valid (toy_computes _ _ _) hdL hdF).mpr hslots [7] demand
    hmem⟩

end ServerSession
end Anymone
