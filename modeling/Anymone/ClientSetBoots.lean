import Anymone.ClientSetMembership

/-! # Two boots of one client

A client that reboots signs under a new key, and the bulletin says which key
counts.  `covered` judges the lanes by that key, while the bundle a lane serves is
looked up by the client's id and the hash of the lane's own receipt.  A lane that
kept the bundle of another boot is therefore short of the client and serves it all
the same, once the budget takes the client in (`finalize_one_boot_iff`).
-/

namespace Anymone
variable {C : SetCrate}

namespace SetServer
variable (s : SetServer C) (pp : ProtocolParams) (sid : SessionId)

/-! ## What the lane serves -/

/-- This lane's bundle of `cid` out of the client's fragments, as the membership
loop finds it. -/
def rebuiltHere (cid : ClientId) : Option (Bundle C) :=
  (s.reportedKey cid).bind (fun pkC =>
    let covered := s.covered cid pkC
    let missing := s.missing covered
    if missing.isEmpty then none
    else (s.rebuild pp sid cid pkC covered missing).bind
      (fun bundles => bundles.find? (fun b => b.lane == s.serverId.val)))

/-- The bundle the serving loop takes for `cid`: rebuilt, or the lane's own. -/
def served (cid : ClientId) : Option (Bundle C) :=
  ((s.admission pp sid).rebuiltFor.get? cid).orElse (fun _ => s.ownBundle cid)

theorem rebuiltFor_admitOne (acc : Budget C) (cid c : ClientId) :
    (s.admitOne pp sid acc cid).rebuiltFor.get? c =
      if cid = c then (s.rebuiltHere pp sid cid).orElse (fun _ => acc.rebuiltFor.get? c)
      else acc.rebuiltFor.get? c := by
  unfold admitOne rebuiltHere
  cases s.reportedKey cid with
  | none => simp
  | some pkC =>
    rw [Option.bind_some]
    dsimp only
    by_cases hempty : (s.missing (s.covered cid pkC)).isEmpty = true
    · rw [if_pos hempty, if_pos hempty]
      simp
    · rw [if_neg hempty, if_neg hempty]
      cases s.rebuild pp sid cid pkC (s.covered cid pkC) (s.missing (s.covered cid pkC)) with
      | none =>
        dsimp only
        split_ifs <;> rfl
      | some bundles =>
        rw [Option.bind_some]
        dsimp only
        cases bundles.find? (fun b => b.lane == s.serverId.val) with
        | none => simp
        | some mine =>
          dsimp only
          rw [OrdMap.get?_insert]
          by_cases hc : cid = c
          · rw [if_pos hc.symm, if_pos hc]
            rfl
          · rw [if_neg (Ne.symm hc), if_neg hc]

theorem rebuiltFor_foldl (c : ClientId) (cids : List ClientId) : ∀ acc : Budget C,
    (cids.foldl (s.admitOne pp sid) acc).rebuiltFor.get? c =
      if c ∈ cids then (s.rebuiltHere pp sid c).orElse (fun _ => acc.rebuiltFor.get? c)
      else acc.rebuiltFor.get? c := by
  induction cids with
  | nil => exact fun _ => rfl
  | cons cid cids ih =>
    intro acc
    rw [List.foldl_cons, ih, rebuiltFor_admitOne]
    by_cases hc : cid = c
    · subst hc
      rw [if_pos rfl, if_pos (List.mem_cons_self ..)]
      cases s.rebuiltHere pp sid cid <;> simp
    · rw [if_neg hc]
      have hmem : c ∈ cid :: cids ↔ c ∈ cids := by
        rw [List.mem_cons]
        exact or_iff_right (fun h => hc h.symm)
      simp only [hmem]

/-- For a client some lane reported, the loop has the lane's bundle exactly when
the client's fragments give it. -/
theorem served_of_mem_clients {cid : ClientId} (h : cid ∈ s.clients) :
    s.served pp sid cid = (s.rebuiltHere pp sid cid).orElse (fun _ => s.ownBundle cid) := by
  unfold served admission
  rw [rebuiltFor_foldl, if_pos h, OrdMap.get?_empty]
  cases s.rebuiltHere pp sid cid <;> rfl

/-- The client's entry in `lane_inbox`. -/
def laneItem (cid : ClientId) : Option (ClientId × C.Share × SharePath C.HVCPoly) :=
  (s.served pp sid cid).map (fun b => (cid, b.share, b.path))

/-- The client's entry in `inbox`. -/
def openedItem (key : C.PrivateKey) (cid : ClientId) : Option (ClientId × C.Opening) :=
  (s.served pp sid cid).bind (fun b =>
    (C.unsealOpening key sid cid s.serverId b.envelope).map (Prod.mk cid))

theorem serve_served (key : C.PrivateKey) (out : SetRound C) (cid : ClientId) :
    let out' := s.serve key sid (s.admission pp sid).rebuiltFor out cid
    out'.laneInbox = out.laneInbox ++ (s.laneItem pp sid cid).toList ∧
      out'.inbox = out.inbox ++ (s.openedItem pp sid key cid).toList := by
  intro out'
  unfold out' serve laneItem openedItem served
  dsimp only
  cases ((s.admission pp sid).rebuiltFor.get? cid).orElse (fun _ => s.ownBundle cid) with
  | none => exact ⟨(List.append_nil _).symm, (List.append_nil _).symm⟩
  | some b =>
    refine ⟨rfl, ?_⟩
    rw [Option.bind_some]
    dsimp only
    cases C.unsealOpening key sid cid s.serverId b.envelope with
    | none => exact (List.append_nil _).symm
    | some opening => rfl

theorem foldl_serve_served (key : C.PrivateKey) (cids : List ClientId) : ∀ out : SetRound C,
    let out' := cids.foldl (s.serve key sid (s.admission pp sid).rebuiltFor) out
    out'.laneInbox = out.laneInbox ++ cids.filterMap (s.laneItem pp sid) ∧
      out'.inbox = out.inbox ++ cids.filterMap (s.openedItem pp sid key) := by
  induction cids with
  | nil => exact fun out => ⟨(List.append_nil _).symm, (List.append_nil _).symm⟩
  | cons cid cids ih =>
    intro out
    obtain ⟨hlane, hbox⟩ := s.serve_served pp sid key out cid
    obtain ⟨hlane', hbox'⟩ := ih (s.serve key sid (s.admission pp sid).rebuiltFor out cid)
    refine ⟨hlane'.trans ?_, hbox'.trans ?_⟩
    · rw [hlane, List.append_assoc, List.filterMap_cons]
      cases s.laneItem pp sid cid <;> rfl
    · rw [hbox, List.append_assoc, List.filterMap_cons]
      cases s.openedItem pp sid key cid <;> rfl

/-- **What finalizing places in the inboxes is read off the bundles served**, client
by client in the order of the set. -/
theorem finalize_served (key : C.PrivateKey) :
    (s.finalize pp key sid).laneInbox =
        (s.finalize pp key sid).set.filterMap (s.laneItem pp sid) ∧
      (s.finalize pp key sid).inbox =
        (s.finalize pp key sid).set.filterMap (s.openedItem pp sid key) := by
  rw [finalize_set]
  exact s.foldl_serve_served pp sid key _ _

/-! ## What the lane kept -/

/-- Every bundle kept is for this lane and verifies under the key it names. -/
def HoldsVerified : Prop :=
  ∀ cid held, s.held.get? cid = some held → ∀ hash b, held.get? hash = some b →
    b.lane = s.serverId.val ∧ b.verify sid s.nLanes = true

variable {s sid}

theorem HoldsVerified.receive (h : s.HoldsVerified sid) (b : Bundle C) :
    (s.receive sid b).1.HoldsVerified sid := by
  unfold SetServer.receive
  dsimp only
  split_ifs with hbad hfull
  · exact h
  · -- At most an empty place for the client is added.
    intro cid held hget hash b' hb'
    rw [OrdMap.get?_orInsert] at hget
    split_ifs at hget with hc
    · cases hold : s.held.get? b.clientId with
      | none =>
        rw [hold] at hget
        cases hget
        cases hb'
      | some old =>
        rw [hold] at hget
        cases hget
        exact h _ _ hold hash b' hb'
    · exact h cid held hget hash b' hb'
  · intro cid held hget hash b' hb'
    rw [OrdMap.get?_insert] at hget
    split_ifs at hget with hc
    · cases hget
      rw [OrdMap.get?_insert] at hb'
      split_ifs at hb' with hh
      · cases hb'
        simp only [Bool.or_eq_true, not_or, bne_iff_ne, ne_eq, not_not, Bool.not_eq_true',
          Bool.not_eq_false] at hbad
        exact ⟨hbad.1.2, hbad.2⟩
      · cases hold : s.held.get? b.clientId with
        | none =>
          rw [hold] at hb'
          cases hb'
        | some old =>
          rw [hold] at hb'
          exact h _ _ hold hash b' hb'
    · exact h cid held hget hash b' hb'

theorem HoldsVerified.apply (h : s.HoldsVerified sid) (op : SetOp C) :
    (s.apply sid op).1.HoldsVerified sid := by
  rcases s.held_apply sid op with hh | ⟨b, -, hst⟩
  · have hlane := sameLane_apply s sid op
    unfold HoldsVerified
    rw [hh, hlane.serverId, hlane.nLanes]
    exact h
  · rw [hst]
    exact h.receive b

variable (s sid)

/-! ## One boot -/

/-- Nothing of another boot, and nothing from a lane that is short of the client:
every bundle served is signed under the one key its client posted, and where this
lane is among those the client has to do without, there is none. -/
structure OneBoot (key : C.PrivateKey) : Prop where
  boot : ∀ cid ∈ (s.finalize pp key sid).set, ∀ b, s.served pp sid cid = some b →
    s.reportedKey cid = some b.pubkey ∧ b.verify sid s.nLanes = true
  abstains : ∀ cid ∈ (s.finalize pp key sid).set, ∀ g, s.gap pp sid cid = some g →
    s.serverId.val ∈ g → s.served pp sid cid = none

/-- The lane kept a bundle of `cid` under its own receipt, and it is of another boot
than the one posted or the lane did not report that boot. -/
def KeptOtherBoot (cid : ClientId) : Prop :=
  ∃ pkC b, s.reportedKey cid = some pkC ∧ s.ownBundle cid = some b ∧
    (b.pubkey ≠ pkC ∨ s.serverId.val ∉ s.covered cid pkC)

/-- The client's fragments rebuild this lane's bundle. -/
def RepairedHere (cid : ClientId) : Prop :=
  ∃ pkC, s.reportedKey cid = some pkC ∧ s.serverId.val ∈ s.missing (s.covered cid pkC) ∧
    (s.rebuild pp sid cid pkC (s.covered cid pkC) (s.missing (s.covered cid pkC))).isSome

theorem rebuiltHere_isSome_iff (cid : ClientId) :
    (s.rebuiltHere pp sid cid).isSome ↔ s.RepairedHere pp sid cid := by
  unfold rebuiltHere RepairedHere
  cases hk : s.reportedKey cid with
  | none => simp
  | some pkC =>
    rw [Option.bind_some]
    dsimp only
    constructor
    · intro h
      split_ifs at h
      · cases h
      obtain ⟨b, hb⟩ := Option.isSome_iff_exists.mp h
      obtain ⟨bundles, hr, hfind⟩ := Option.bind_eq_some_iff.mp hb
      have hlane : b.lane = s.serverId.val := by simpa using List.find?_some hfind
      refine ⟨pkC, rfl, ?_, by rw [hr]; rfl⟩
      rw [← (s.rebuild_lanes pp sid hr).1, ← hlane]
      exact List.mem_map_of_mem (List.mem_of_find?_eq_some hfind)
    · rintro ⟨pk, hpk, hmiss, hr⟩
      obtain rfl := Option.some.inj hpk
      obtain ⟨bundles, hr⟩ := Option.isSome_iff_exists.mp hr
      rw [if_neg (by rw [List.isEmpty_iff]; exact List.ne_nil_of_mem hmiss), hr, Option.bind_some,
        List.find?_isSome]
      -- One bundle for each missing lane, this one's included.
      rw [← (s.rebuild_lanes pp sid hr).1] at hmiss
      obtain ⟨b, hb, hbl⟩ := List.mem_map.mp hmiss
      exact ⟨b, hb, by simpa using hbl⟩

/-- A rebuilt bundle is of the boot posted. -/
theorem rebuiltHere_boot {cid : ClientId} {b : Bundle C} (h : s.rebuiltHere pp sid cid = some b) :
    s.reportedKey cid = some b.pubkey ∧ b.verify sid s.nLanes = true := by
  unfold rebuiltHere at h
  obtain ⟨pkC, hk, h⟩ := Option.bind_eq_some_iff.mp h
  dsimp only at h
  split_ifs at h
  obtain ⟨bundles, hr, hfind⟩ := Option.bind_eq_some_iff.mp h
  obtain ⟨hpk, hver⟩ := (s.rebuild_lanes pp sid hr).2 b (List.mem_of_find?_eq_some hfind)
  rw [hk, hpk]
  exact ⟨rfl, hver⟩

/-- A lane in the client's gap neither reported it nor had its bundle rebuilt. -/
theorem not_repairedHere_of_mem_gap {cid : ClientId} {g : List Nat}
    (hg : s.gap pp sid cid = some g) (hme : s.serverId.val ∈ g) :
    ∃ pkC, s.reportedKey cid = some pkC ∧ s.serverId.val ∉ s.covered cid pkC ∧
      ¬s.RepairedHere pp sid cid := by
  obtain ⟨-, pkC, hk, hncov⟩ := s.gap_subset pp sid hg hme
  refine ⟨pkC, hk, hncov, ?_⟩
  rintro ⟨pk, hpk, -, hr⟩
  rw [hk] at hpk
  obtain rfl := Option.some.inj hpk
  rw [s.gap_eq pp sid hk, hr, Bool.or_true, if_pos rfl] at hg
  rw [← Option.some.inj hg] at hme
  cases hme

/-- A lane that kept another boot's bundle and gets none rebuilt serves the one it
kept, for a client some lane reported. -/
theorem served_of_keptOtherBoot {cid : ClientId} (hmem : cid ∈ s.clients)
    (hn : ¬s.RepairedHere pp sid cid) : s.served pp sid cid = s.ownBundle cid := by
  rw [served_of_mem_clients _ _ _ hmem]
  cases hr : s.rebuiltHere pp sid cid with
  | none => rfl
  | some b => exact absurd ((s.rebuiltHere_isSome_iff pp sid cid).mp (by rw [hr]; rfl)) hn

variable {s pp sid}

theorem HoldsVerified.ownBundle (h : s.HoldsVerified sid) {cid : ClientId} {b : Bundle C}
    (hb : s.ownBundle cid = some b) : b.lane = s.serverId.val ∧ b.verify sid s.nLanes = true := by
  unfold SetServer.ownBundle at hb
  obtain ⟨own, -, hb⟩ := Option.bind_eq_some_iff.mp hb
  obtain ⟨receipt, -, hb⟩ := Option.bind_eq_some_iff.mp hb
  obtain ⟨held, hheld, hb⟩ := Option.bind_eq_some_iff.mp hb
  exact h cid held hheld _ b hb

theorem HoldsVerified.oneBoot_iff (h : s.HoldsVerified sid) (key : C.PrivateKey) :
    s.OneBoot pp sid key ↔
      ∀ cid ∈ s.clients, s.Affordable pp sid (s.spentBelow pp sid cid) cid →
        s.KeptOtherBoot cid → s.RepairedHere pp sid cid := by
  have hset := s.mem_set_iff pp sid key
  constructor
  · intro hone cid hmem haff ⟨pkC, b, hk, hown, hother⟩
    by_contra hn
    have hserved := (s.served_of_keptOtherBoot pp sid hmem hn).trans hown
    have hin := (hset cid).mpr ⟨hmem, haff⟩
    obtain ⟨hkey, -⟩ := hone.boot cid hin b hserved
    rw [hk] at hkey
    rcases hother with hne | hncov
    · exact hne (Option.some.inj hkey).symm
    · -- The lane is missing and nothing was rebuilt, so it is in the gap.
      obtain ⟨hlane, hver⟩ := h.ownBundle hown
      have hlt : s.serverId.val < s.nLanes := by
        by_contra hge
        unfold Bundle.verify at hver
        rw [if_pos (Or.inl (by omega))] at hver
        cases hver
      have hmiss : s.serverId.val ∈ s.missing (s.covered cid pkC) :=
        List.mem_filter.mpr ⟨List.mem_range.mpr hlt, by simpa using hncov⟩
      have hempty : (s.missing (s.covered cid pkC)).isEmpty = false := by
        rw [Bool.eq_false_iff, ne_eq, List.isEmpty_iff]
        exact List.ne_nil_of_mem hmiss
      have hnone : (s.rebuild pp sid cid pkC (s.covered cid pkC)
          (s.missing (s.covered cid pkC))).isSome = false :=
        Bool.eq_false_iff.mpr (fun hr => hn ⟨pkC, hk, hmiss, hr⟩)
      have hg := s.gap_eq pp sid hk
      rw [hempty, hnone] at hg
      rw [hone.abstains cid hin _ hg hmiss] at hserved
      cases hserved
  · intro hcond
    -- What is served is rebuilt, or of the boot posted and reported by this lane.
    have hown : ∀ cid ∈ s.clients, s.Affordable pp sid (s.spentBelow pp sid cid) cid →
        ¬s.RepairedHere pp sid cid → ∀ b, s.ownBundle cid = some b →
        ∀ pkC, s.reportedKey cid = some pkC →
          b.pubkey = pkC ∧ s.serverId.val ∈ s.covered cid pkC := by
      intro cid hmem haff hn b hb pkC hk
      by_contra hbad
      exact hn (hcond cid hmem haff ⟨pkC, b, hk, hb, not_and_or.mp hbad⟩)
    constructor
    · intro cid hin b hserved
      obtain ⟨hmem, haff⟩ := (hset cid).mp hin
      by_cases hrep : s.RepairedHere pp sid cid
      · obtain ⟨b', hb'⟩ :=
          Option.isSome_iff_exists.mp ((s.rebuiltHere_isSome_iff pp sid cid).mpr hrep)
        rw [served_of_mem_clients _ _ _ hmem, hb'] at hserved
        obtain rfl := Option.some.inj hserved
        exact s.rebuiltHere_boot pp sid hb'
      · rw [s.served_of_keptOtherBoot pp sid hmem hrep] at hserved
        obtain ⟨g, hg, -⟩ := id haff
        obtain ⟨pkC, hk, -⟩ := Option.map_eq_some_iff.mp hg
        obtain ⟨rfl, -⟩ := hown cid hmem haff hrep b hserved pkC hk
        exact ⟨hk, (h.ownBundle hserved).2⟩
    · intro cid hin g hg hme
      obtain ⟨hmem, haff⟩ := (hset cid).mp hin
      obtain ⟨pkC, hk, hncov, hn⟩ := s.not_repairedHere_of_mem_gap pp sid hg hme
      rw [s.served_of_keptOtherBoot pp sid hmem hn]
      cases hb : s.ownBundle cid with
      | none => rfl
      | some b => exact absurd (hown cid hmem haff hn b hb pkC hk).2 hncov

/-- The state a lane's calls lead to. -/
def reached (pp : ProtocolParams) (sid : SessionId) (i : ServerId) (signer : C.SigningKey)
    (serverPks : List C.VerifyingKey) (ops : List (SetOp C)) : SetServer C :=
  ops.foldl (fun s op => (s.apply sid op).1) (.new pp i signer serverPks)

theorem holdsVerified_reached (pp : ProtocolParams) (sid : SessionId) (i : ServerId)
    (signer : C.SigningKey) (serverPks : List C.VerifyingKey) (ops : List (SetOp C)) :
    (reached pp sid i signer serverPks ops).HoldsVerified sid := by
  have hnew : (SetServer.new pp i signer serverPks).HoldsVerified sid := by
    intro cid held hget
    cases hget
  unfold reached
  generalize SetServer.new pp i signer serverPks = s at hnew
  induction ops generalizing s with
  | nil => exact hnew
  | cons op ops ih => exact ih _ (hnew.apply op)

theorem sameLane_reached (pp : ProtocolParams) (sid : SessionId) (i : ServerId)
    (signer : C.SigningKey) (serverPks : List C.VerifyingKey) (ops : List (SetOp C)) :
    (SetServer.new pp i signer serverPks).SameLane (reached pp sid i signer serverPks ops) := by
  unfold reached
  generalize SetServer.new pp i signer serverPks = s
  induction ops generalizing s with
  | nil => exact ⟨rfl, rfl, rfl, rfl, rfl⟩
  | cons op ops ih =>
    have hone := sameLane_apply s sid op
    have hrest := ih (s.apply sid op).1
    exact ⟨hrest.serverId.trans hone.serverId, hrest.nLanes.trans hone.nLanes,
      hrest.k.trans hone.k, hrest.signer.trans hone.signer, hrest.serverPks.trans hone.serverPks⟩

/-- **One boot in what a lane serves**, in every state its calls lead to, exactly when
no client the budget pays for left this lane with a bundle of another boot that no
fragments replace. -/
theorem finalize_one_boot_iff (pp : ProtocolParams) (sid : SessionId) (i : ServerId)
    (signer : C.SigningKey) (serverPks : List C.VerifyingKey) (ops : List (SetOp C))
    (key : C.PrivateKey) :
    let s := reached pp sid i signer serverPks ops
    s.OneBoot pp sid key ↔
      ∀ cid ∈ s.clients, s.Affordable pp sid (s.spentBelow pp sid cid) cid →
        s.KeptOtherBoot cid → s.RepairedHere pp sid cid :=
  (holdsVerified_reached pp sid i signer serverPks ops).oneBoot_iff key

/-- Lane 0 takes client 7's bundle of boot 77, reads the bulletin of boot 80, and
hears from the other two lanes that they took that one. -/
def twoBootCalls : List (SetOp toyCrate) :=
  [.receive (toyBundle 7 77 0), .noteBulletin 7 (toyPk 80), .originate,
    .absorb 1 [toyBatchRelay 1 [toyReceipt 7 80 1], toyBatchRelay 2 [toyReceipt 7 80 2]]]

/-- **A lane serves the boot that was not posted.**  Client 7 posted boot 80, lane 0
is the one lane short of it, and it puts the bundle of boot 77 in its inbox. -/
theorem other_boot_served :
    let s := reached toyParams toySid 0 (toyKey 0) toyPks twoBootCalls
    (s.finalize toyParams () toySid).set = [7] ∧ s.reportedKey 7 = some (toyPk 80) ∧
      s.gap toyParams toySid 7 = some [0] ∧
      (s.finalize toyParams () toySid).inbox.map Prod.fst = [7] ∧
      (s.served toyParams toySid 7).map Bundle.pubkey = some (toyPk 77) ∧
      ¬s.OneBoot toyParams toySid () := by
  intro s
  have hset : (s.finalize toyParams () toySid).set = [7] := by decide +kernel
  have hgap : s.gap toyParams toySid 7 = some [0] := by decide +kernel
  have hserved : (s.served toyParams toySid 7).map Bundle.pubkey = some (toyPk 77) := by
    decide +kernel
  refine ⟨hset, by decide +kernel, hgap, by decide +kernel, hserved, fun hone => ?_⟩
  have hme : s.serverId.val ∈ [0] := by decide +kernel
  have hnone := hone.abstains 7 (by rw [hset]; exact List.mem_singleton_self 7) [0] hgap hme
  rw [hnone] at hserved
  cases hserved

end SetServer
end Anymone
