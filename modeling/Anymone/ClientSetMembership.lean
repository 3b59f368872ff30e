import Anymone.ClientSetEviction

/-! # What the set guarantees

Membership is a function of the pool: two servers with the same receipt batches,
fragments and bulletins obtain the same set and leave out the same clients, each
with its own lane, key and bundles (`finalize_membership`).

The membership loop keeps the lanes that cannot serve somebody in the set within
the round's budget.  `shortOf` is that union over a list of clients; what one
client adds to the loop is said by `Spends.admitOne`, and the budget, the lanes it
leaves and the clients it turns away follow for the whole loop
(`budget_leaves_serving_lanes`).
-/

namespace Anymone
variable {C : SetCrate}

namespace SetServer

/-! ## One pool, one membership -/

/-- Two servers over one pool.  Everything else is the lane's own. -/
structure SamePool (s s' : SetServer C) : Prop where
  nLanes : s'.nLanes = s.nLanes
  k : s'.k = s.k
  batches : s'.batches = s.batches
  fragments : s'.fragments = s.fragments
  bulletins : s'.bulletins = s.bulletins

theorem SamePool.sameReading {s s' : SetServer C} (h : s.SamePool s') (pp : ProtocolParams)
    (sid : SessionId) : SameReading pp sid s s' where
  nLanes := h.nLanes
  k := h.k
  bulletins := h.bulletins
  clients := by
    unfold clients
    rw [h.batches]
  covered cid pkC := by
    unfold covered
    rw [h.batches]
  rebuild cid pkC covered missing _ := by
    unfold rebuild
    rw [h.nLanes, h.k, h.fragments]

/-- **Membership does not depend on the lane that computes it.** -/
theorem finalize_membership {s s' : SetServer C} (h : s.SamePool s') (pp : ProtocolParams)
    (sid : SessionId) (key key' : C.PrivateKey) :
    (s'.finalize pp key' sid).set = (s.finalize pp key sid).set ∧
      (s'.finalize pp key' sid).excluded = (s.finalize pp key sid).excluded ∧
      (s'.finalize pp key' sid).conflicted = (s.finalize pp key sid).conflicted := by
  obtain ⟨-, hadm, hexc, hcon⟩ := (h.sameReading pp sid).admission
  obtain ⟨he, hc⟩ := s.finalize_excluded pp key sid
  obtain ⟨he', hc'⟩ := s'.finalize_excluded pp key' sid
  rw [finalize_set, finalize_set, he, he', hc, hc', hadm, hexc, hcon]
  exact ⟨rfl, rfl, rfl⟩

end SetServer

/-- A server's pool at lane 1, without a bundle of lane 1's own. -/
def SetServer.atLane1 (s : SetServer toyCrate) : SetServer toyCrate :=
  { s with serverId := 1, signer := toyKey 1, held := .empty, accepted := .empty }

theorem SetServer.samePool_atLane1 (s : SetServer toyCrate) : s.SamePool s.atLane1 :=
  ⟨rfl, rfl, rfl, rfl, rfl⟩

/-- Lane 1 without bundles computes what lane 0 does, which leaves client 7 out. -/
theorem finalize_membership_toy :
    let s := twoHonest.state (SetSystem.shortAt [0]) 0
    ((s.atLane1.finalize toyParams () toySid).set = (s.finalize toyParams () toySid).set ∧
      (s.atLane1.finalize toyParams () toySid).excluded =
        (s.finalize toyParams () toySid).excluded ∧
      (s.atLane1.finalize toyParams () toySid).conflicted =
        (s.finalize toyParams () toySid).conflicted) ∧
      (s.finalize toyParams () toySid).set = [5] ∧
      (s.finalize toyParams () toySid).excluded = [7] :=
  ⟨SetServer.finalize_membership (SetServer.samePool_atLane1 _) toyParams toySid () (),
    by decide +kernel⟩

/-! ## The abstention budget -/

namespace SetServer
variable (s : SetServer C) (pp : ProtocolParams) (sid : SessionId)

/-- The lanes that some client in `cids` has to do without. -/
def shortOf (cids : List ClientId) : Finset Nat :=
  (cids.flatMap (fun cid => (s.gap pp sid cid).getD [])).toFinset

/-- Lane `lane` can serve `cid`: it reported the client under the key it posted, or
the client's fragments rebuild the lane's bundle. -/
def Serves (lane : Nat) (cid : ClientId) : Prop :=
  ∃ pkC, s.reportedKey cid = some pkC ∧
    (lane ∈ s.covered cid pkC ∨
      ∃ bundles b, s.rebuild pp sid cid pkC (s.covered cid pkC) (s.missing (s.covered cid pkC)) =
        some bundles ∧ b ∈ bundles ∧ b.lane = lane)

theorem shortOf_append (cids cids' : List ClientId) :
    s.shortOf pp sid (cids ++ cids') = s.shortOf pp sid cids ∪ s.shortOf pp sid cids' := by
  unfold shortOf
  rw [List.flatMap_append, List.toFinset_append]

theorem shortOf_singleton {cid : ClientId} {g : List Nat} (h : s.gap pp sid cid = some g) :
    s.shortOf pp sid [cid] = g.toFinset := by
  unfold shortOf
  simp [h]

/-- What the loop has done: the clients it took in all have a gap, the lanes it
counts as abstaining are short of one of them and within the budget, and a client
with one posted key was left out because of the clients taken in before it. -/
structure Spends (acc : Budget C) : Prop where
  gap : ∀ cid ∈ acc.admitted.map Prod.fst, (s.gap pp sid cid).isSome
  spent : acc.abstaining.toFinset = s.shortOf pp sid (acc.admitted.map Prod.fst)
  within : acc.abstaining.toFinset.card ≤ s.nLanes - s.k
  out : ∀ cid ∈ acc.excluded, ∀ pkC, s.reportedKey cid = some pkC →
    ∃ earlier g, earlier <+: acc.admitted.map Prod.fst ∧ s.gap pp sid cid = some g ∧
      s.nLanes - s.k < (s.shortOf pp sid earlier ∪ g.toFinset).card

/-- Whom one client of the loop adds to the clients left out. -/
theorem excluded_admitOne (acc : Budget C) (cid : ClientId) :
    let acc' := s.admitOne pp sid acc cid
    (acc'.excluded = acc.excluded ∨ acc'.excluded = acc.excluded ++ [cid]) ∧
      (acc'.admitted ≠ acc.admitted → acc'.excluded = acc.excluded) := by
  intro acc'
  unfold acc' admitOne
  cases s.reportedKey cid with
  | none => exact ⟨Or.inr rfl, fun h => absurd rfl h⟩
  | some pkC =>
    dsimp only
    split
    · exact ⟨Or.inl rfl, fun _ => rfl⟩
    · split
      · exact ⟨Or.inl rfl, fun _ => rfl⟩
      · split
        · exact ⟨Or.inl rfl, fun _ => rfl⟩
        · exact ⟨Or.inr rfl, fun h => absurd rfl h⟩

variable {s pp sid}

/-- A client taken in, at the cost of its gap. -/
theorem Spends.admit {acc acc' : Budget C} (h : s.Spends pp sid acc) {cid : ClientId}
    {g : List Nat} (hg : s.gap pp sid cid = some g)
    (hadm : acc'.admitted = acc.admitted ++ [(cid, g)])
    (habs : acc'.abstaining.toFinset = acc.abstaining.toFinset ∪ g.toFinset)
    (hle : (acc.abstaining.toFinset ∪ g.toFinset).card ≤ s.nLanes - s.k)
    (hexc : acc'.excluded = acc.excluded) : s.Spends pp sid acc' := by
  have hmap : acc'.admitted.map Prod.fst = acc.admitted.map Prod.fst ++ [cid] := by
    rw [hadm, List.map_append]
    rfl
  constructor
  · intro c hc
    rw [hmap] at hc
    rcases List.mem_append.mp hc with hc | hc
    · exact h.gap c hc
    · rw [List.mem_singleton.mp hc, hg]
      rfl
  · rw [hmap, shortOf_append, shortOf_singleton s pp sid hg, habs, h.spent]
  · rw [habs]
    exact hle
  · intro c hc pkC hk
    rw [hexc] at hc
    obtain ⟨earlier, g', hpre, hg', hlt⟩ := h.out c hc pkC hk
    rw [hmap]
    exact ⟨earlier, g', hpre.trans (List.prefix_append _ _), hg', hlt⟩

/-- A client left out: it posted no single key, or the budget does not stretch to
its gap. -/
theorem Spends.refuse {acc acc' : Budget C} (h : s.Spends pp sid acc) {cid : ClientId}
    (hadm : acc'.admitted = acc.admitted) (habs : acc'.abstaining = acc.abstaining)
    (hexc : acc'.excluded = acc.excluded ∨ acc'.excluded = acc.excluded ++ [cid])
    (hcost : ∀ pkC, s.reportedKey cid = some pkC → ∃ g, s.gap pp sid cid = some g ∧
      s.nLanes - s.k < (acc.abstaining.toFinset ∪ g.toFinset).card) : s.Spends pp sid acc' := by
  refine ⟨by rw [hadm]; exact h.gap, by rw [habs, hadm]; exact h.spent,
    by rw [habs]; exact h.within, ?_⟩
  intro c hc pkC hk
  rw [hadm]
  have hold : c ∈ acc.excluded ∨ c = cid := by
    rcases hexc with hexc | hexc
    · exact Or.inl (hexc ▸ hc)
    · rw [hexc] at hc
      exact (List.mem_append.mp hc).imp_right List.mem_singleton.mp
  rcases hold with hold | rfl
  · exact h.out c hold pkC hk
  · obtain ⟨g, hg, hlt⟩ := hcost pkC hk
    rw [h.spent] at hlt
    exact ⟨_, g, List.prefix_rfl, hg, hlt⟩

theorem Spends.admitOne {acc : Budget C} (h : s.Spends pp sid acc) (cid : ClientId) :
    s.Spends pp sid (s.admitOne pp sid acc cid) := by
  obtain ⟨hexc, hkept⟩ := s.excluded_admitOne pp sid acc cid
  rcases s.admitOne_cases pp sid acc cid with ⟨hg, hadm, habs⟩ | ⟨hg, hadm, habs⟩ | ⟨g, hg, -, hc⟩
  · refine h.refuse hadm habs hexc (fun pkC hk => ?_)
    rw [s.gap_eq pp sid hk] at hg
    cases hg
  · refine h.admit hg hadm ?_ ?_ (hkept ?_)
    · rw [habs, List.toFinset_nil, Finset.union_empty]
    · rw [List.toFinset_nil, Finset.union_empty]
      exact h.within
    · rw [hadm]
      simp
  · rcases hc with ⟨hle, hadm, habs⟩ | ⟨hgt, hadm, habs⟩
    · refine h.admit hg hadm habs hle (hkept ?_)
      rw [hadm]
      simp
    · exact h.refuse hadm habs hexc (fun _ _ => ⟨g, hg, not_le.mp hgt⟩)

theorem Spends.foldl_admitOne (cids : List ClientId) : ∀ acc : Budget C, s.Spends pp sid acc →
    s.Spends pp sid (cids.foldl (s.admitOne pp sid) acc) := by
  induction cids with
  | nil => exact fun _ h => h
  | cons cid cids ih => exact fun _ h => ih _ (h.admitOne cid)

variable (s pp sid)

theorem spends_admission : s.Spends pp sid (s.admission pp sid) :=
  Spends.foldl_admitOne _ _ ⟨nofun, rfl, Nat.zero_le _, nofun⟩

/-- What `rebuildLanes` returns: one bundle per lane, in order, for that lane and
verifying under the reported key. -/
theorem rebuildLanes_lanes {nLanes : Nat} {scp : ShareCommitmentParams} {cid : ClientId}
    {pkC : C.Pk} {blob : Bytes} {lanes : List Nat} : ∀ {at_ : Nat} {bundles : List (Bundle C)},
    rebuildLanes nLanes sid scp cid pkC blob lanes at_ = some bundles →
      bundles.map Bundle.lane = lanes ∧
        ∀ b ∈ bundles, b.pubkey = pkC ∧ b.verify sid nLanes = true := by
  induction lanes with
  | nil =>
    intro at_ bundles h
    cases h
    exact ⟨rfl, nofun⟩
  | cons lane lanes ih =>
    intro at_ bundles h
    unfold rebuildLanes at h
    obtain ⟨front, -, h⟩ := Option.bind_eq_some_iff.mp h
    obtain ⟨⟨b, used⟩, -, h⟩ := Option.bind_eq_some_iff.mp h
    dsimp only at h
    split_ifs at h with hbad
    obtain ⟨rest, hrest, h⟩ := Option.bind_eq_some_iff.mp h
    cases h
    obtain ⟨hlane, hpk, hver⟩ := not_or.mp hbad |>.imp_right not_or.mp
    obtain ⟨hmap, hall⟩ := ih hrest
    refine ⟨by rw [List.map_cons, hmap, not_not.mp hlane], ?_⟩
    intro b' hb'
    rcases List.mem_cons.mp hb' with rfl | hb'
    · exact ⟨not_not.mp hpk, by simpa using hver⟩
    · exact hall b' hb'

theorem rebuild_lanes {cid : ClientId} {pkC : C.Pk} {covered missing : List Nat}
    {bundles : List (Bundle C)} (h : s.rebuild pp sid cid pkC covered missing = some bundles) :
    bundles.map Bundle.lane = missing ∧
      ∀ b ∈ bundles, b.pubkey = pkC ∧ b.verify sid s.nLanes = true := by
  rw [rebuild_eq] at h
  unfold rebuildFrom at h
  split_ifs at h
  obtain ⟨first, -, h⟩ := Option.bind_eq_some_iff.mp h
  obtain ⟨recovered, -, h⟩ := Option.bind_eq_some_iff.mp h
  obtain ⟨scp, -, h⟩ := Option.bind_eq_some_iff.mp h
  exact rebuildLanes_lanes sid h

/-- A lane outside the client's gap serves it. -/
theorem serves_of_not_mem_gap {cid : ClientId} {g : List Nat} (hg : s.gap pp sid cid = some g)
    {lane : Nat} (hl : lane < s.nLanes) (hn : lane ∉ g) : s.Serves pp sid lane cid := by
  obtain ⟨pkC, hk, hgap⟩ := Option.map_eq_some_iff.mp hg
  refine ⟨pkC, hk, ?_⟩
  by_cases hcov : lane ∈ s.covered cid pkC
  · exact Or.inl hcov
  · right
    have hmiss : lane ∈ s.missing (s.covered cid pkC) :=
      List.mem_filter.mpr ⟨List.mem_range.mpr hl, by simpa using hcov⟩
    cases hr : s.rebuild pp sid cid pkC (s.covered cid pkC) (s.missing (s.covered cid pkC)) with
    | none =>
      -- Neither reported nor rebuilt, so the gap is all that is missing.
      have hne : (s.missing (s.covered cid pkC)).isEmpty = false := by
        rw [Bool.eq_false_iff, ne_eq, List.isEmpty_iff]
        exact List.ne_nil_of_mem hmiss
      dsimp only at hgap
      rw [hr, hne] at hgap
      exact absurd (hgap ▸ hmiss) hn
    | some bundles =>
      have hlane : lane ∈ bundles.map Bundle.lane := by
        rw [(s.rebuild_lanes pp sid hr).1]
        exact hmiss
      obtain ⟨b, hb, hbl⟩ := List.mem_map.mp hlane
      exact ⟨bundles, b, rfl, hb, hbl⟩

/-- **The abstention budget leaves the serving lanes.**  The lanes some client of
the set has to do without are at most `n − k`, so `k` lanes serve every one of
them, and a client with one posted key is left out only when its gap and those of
the clients before it go past the budget. -/
theorem budget_leaves_serving_lanes (s : SetServer C) (pp : ProtocolParams) (key : C.PrivateKey)
    (sid : SessionId) :
    let r := s.finalize pp key sid
    (s.shortOf pp sid r.set).card ≤ s.nLanes - s.k ∧
      (s.k ≤ s.nLanes → ∃ lanes : Finset Nat, s.k ≤ lanes.card ∧
        ∀ lane ∈ lanes, lane < s.nLanes ∧ ∀ cid ∈ r.set, s.Serves pp sid lane cid) ∧
      ∀ cid ∈ r.excluded, ∀ pkC, s.reportedKey cid = some pkC →
        ∃ earlier g, earlier <+: r.set ∧ s.gap pp sid cid = some g ∧
          s.nLanes - s.k < (s.shortOf pp sid earlier ∪ g.toFinset).card := by
  intro r
  have hset : r.set = (s.admission pp sid).admitted.map Prod.fst := s.finalize_set pp key sid
  have hexc : r.excluded = (s.admission pp sid).excluded := (s.finalize_excluded pp key sid).1
  have hspends := s.spends_admission pp sid
  rw [hset, hexc]
  have hwithin := hspends.within
  rw [hspends.spent] at hwithin
  refine ⟨hwithin, fun hk => ?_, hspends.out⟩
  refine ⟨Finset.range s.nLanes \ s.shortOf pp sid (r.set), ?_, ?_⟩
  · have hcard := Finset.le_card_sdiff (s.shortOf pp sid r.set) (Finset.range s.nLanes)
    rw [hset, Finset.card_range] at hcard
    rw [hset]
    omega
  · intro lane hlane
    obtain ⟨hlt, hn⟩ := Finset.mem_sdiff.mp hlane
    refine ⟨Finset.mem_range.mp hlt, fun cid hcid => ?_⟩
    obtain ⟨g, hg⟩ := Option.isSome_iff_exists.mp (hspends.gap cid hcid)
    refine s.serves_of_not_mem_gap pp sid hg (Finset.mem_range.mp hlt) (fun hmem => hn ?_)
    -- The client's gap is part of the union.
    rw [hset]
    unfold shortOf
    rw [List.mem_toFinset, List.mem_flatMap]
    exact ⟨cid, hcid, by rw [hg]; exact hmem⟩

/-- Client 5 leaves lane 0 short of itself: two lanes serve it, and client 7's gap no
longer fits. -/
theorem budget_leaves_serving_lanes_toy :
    let s := twoHonest.state (SetSystem.shortAt [0]) 0
    (s.shortOf toyParams toySid (s.finalize toyParams () toySid).set).card ≤ 1 ∧
      (∃ lanes : Finset Nat, 2 ≤ lanes.card ∧ ∀ lane ∈ lanes, lane < 3 ∧
        ∀ cid ∈ (s.finalize toyParams () toySid).set, s.Serves toyParams toySid lane cid) ∧
      (s.finalize toyParams () toySid).set = [5] ∧
      ∃ earlier g, earlier <+: (s.finalize toyParams () toySid).set ∧
        s.gap toyParams toySid 7 = some g ∧
        1 < (s.shortOf toyParams toySid earlier ∪ g.toFinset).card := by
  intro s
  obtain ⟨hle, hlanes, hout⟩ := budget_leaves_serving_lanes s toyParams () toySid
  have hlane : s.nLanes = 3 ∧ s.k = 2 := by decide +kernel
  rw [hlane.1, hlane.2] at hle hlanes hout
  exact ⟨hle, hlanes (by decide), by decide +kernel,
    hout 7 (by decide +kernel) (toyPk 80) (by decide +kernel)⟩

end SetServer
end Anymone
