import Anymone.ClientSetBlob
import Anymone.ClientSetBoots
import Anymone.ConfigBounds
import Anymone.ScheduledToy

/-! # The repair code

A client codes the bundles of the lanes its round does not cover, and a server
rebuilds the ones its matrix is short of.  The two need not see the same lanes: the
server's matrix may cover more.  Decoding takes the blob's bundles in order, so it
recovers the lanes exactly when the ones it wants are the first the client coded
(`rebuild_recovers_iff`).

The code has dimension `n − k`.  The guards on both sides compare lane counts with
that number, and hold for every count once it is zero: with `k = n` a code of
dimension zero is built whenever a lane is short of a client
(`repair_code_positive_iff`).
-/

namespace Anymone
variable {C : SetCrate} {P : PostCrate}

/-! ## The client's round -/

/-- The bundle `client_set_round_from_rs` makes for `lane`. -/
def RsClientRoundOutput.bundleFor (sid : SessionId) (round : RsClientRoundOutput P.toSessionCrate)
    (signingKey : P.SigningKey) (lane : Nat) : Option (Bundle P.toSetCrate) := do
  let share ← round.rsShares[lane]?
  let path ← round.sharePaths[lane]?
  let envelope ← (round.sealedOpenings[lane]?).map Prod.snd
  some ⟨round.clientId, lane, share, path, envelope, P.toSec1Bytes (P.verifyingKey signingKey),
    P.sign signingKey (bundleSigningBytes sid round.clientId lane share path envelope)⟩

/-- The round has the geometry the crate gives it: shares of one block, a path per
lane, and both read back from their packing. -/
structure RsClientRoundOutput.Shaped (scp : ShareCommitmentParams)
    (round : RsClientRoundOutput P.toSessionCrate) : Prop where
  share : ∀ share ∈ round.rsShares,
    (P.packShare share).length = scp.blockLen * P.rsPolyPackedLen ∧
      P.unpackShare (P.packShare share) scp.blockLen = some share
  path : ∀ (lane : Nat) (path : SharePath P.HVCPoly), round.sharePaths[lane]? = some path →
    path.laneIndex = lane ∧ ∃ bytes, P.pathToBytes path = some bytes ∧
      bytes.length = P.freshPathPackedLen scp.nLanes ∧
      P.pathFromBytes scp lane bytes = some path
  envelope : ∀ sealed ∈ round.sealedOpenings, sealed.2.length < 2 ^ 32

theorem mapM_eq_map {α β : Type} {f : α → Option β} {g : α → β} {l : List α}
    (h : ∀ x ∈ l, f x = some (g x)) : l.mapM f = some (l.map g) := by
  induction l with
  | nil => rfl
  | cons x l ih =>
    rw [List.mapM_cons, h x (List.mem_cons_self ..), ih (fun y hy => h y (List.mem_cons_of_mem _ hy))]
    rfl

theorem getElem?_of_mapM {α β : Type} {f : α → Option β} : ∀ {l : List α} {ys : List β},
    l.mapM f = some ys → ∀ i : Nat, ys[i]? = (l[i]?).bind f
  | [], ys, h, i => by
      obtain rfl := Option.some.inj h
      rfl
  | x :: l, ys, h, i => by
      rw [List.mapM_cons] at h
      obtain ⟨y, hy, h⟩ := Option.bind_eq_some_iff.mp h
      obtain ⟨ys', hys, h⟩ := Option.bind_eq_some_iff.mp h
      obtain rfl := Option.some.inj h
      cases i with
      | zero => exact hy.symm
      | succ i => exact getElem?_of_mapM hys i

theorem isSome_of_mapM {α β : Type} {f : α → Option β} : ∀ {l : List α} {ys : List β},
    l.mapM f = some ys → ∀ x ∈ l, (f x).isSome
  | x :: l, ys, h, z, hz => by
      rw [List.mapM_cons] at h
      obtain ⟨y, hy, h⟩ := Option.bind_eq_some_iff.mp h
      obtain ⟨ys', hys, -⟩ := Option.bind_eq_some_iff.mp h
      rcases List.mem_cons.mp hz with rfl | hz
      · rw [hy]
        rfl
      · exact isSome_of_mapM hys z hz

section Round
variable {pp : ProtocolParams} {sid : SessionId} {out : RsClientRoundOutput P.toSessionCrate}
  {signingKey : P.SigningKey} {round : ClientSetRound P.toSetCrate} {bulletin : P.ClientEntry}
  {scp : ShareCommitmentParams}

/-- A lane's bundle in the round is the one made for it. -/
theorem bundles_of_round
    (h : clientSetRoundFromRs pp sid out signingKey = some (round, bulletin)) :
    round.clientId = out.clientId ∧ ∀ lane < pp.rs.n, ∃ b,
      out.bundleFor sid signingKey lane = some b ∧ round.bundles[lane]? = some b := by
  unfold clientSetRoundFromRs at h
  split_ifs at h
  obtain ⟨bundles, hb, h⟩ := Option.bind_eq_some_iff.mp h
  obtain ⟨rfl, -⟩ := Prod.mk.inj (Option.some.inj h)
  change (List.range pp.rs.n).mapM (out.bundleFor sid signingKey) = some bundles at hb
  refine ⟨rfl, fun lane hlane => ?_⟩
  obtain ⟨b, hlaneb⟩ := Option.isSome_iff_exists.mp
    (isSome_of_mapM hb lane (List.mem_range.mpr hlane))
  refine ⟨b, hlaneb, ?_⟩
  rw [← hlaneb]
  show bundles[lane]? = _
  rw [getElem?_of_mapM hb lane, List.getElem?_range hlane]
  rfl

/-- The bundle made for a lane is one a server accepts from the blob. -/
theorem genuine_bundleFor (laws : RepairLaws P.toSetCrate) (hshape : out.Shaped scp) {nLanes lane : Nat}
    (hlane : lane < nLanes) (hn : nLanes < 2 ^ 32) {b : Bundle P.toSetCrate}
    (h : out.bundleFor sid signingKey lane = some b) :
    b.Genuine sid nLanes scp out.clientId (P.toSec1Bytes (P.verifyingKey signingKey)) lane := by
  unfold RsClientRoundOutput.bundleFor at h
  obtain ⟨share, hshare, h⟩ := Option.bind_eq_some_iff.mp h
  obtain ⟨path, hpath, h⟩ := Option.bind_eq_some_iff.mp h
  obtain ⟨envelope, henvelope, h⟩ := Option.bind_eq_some_iff.mp h
  obtain ⟨sealed, hsealed, rfl⟩ := Option.map_eq_some_iff.mp henvelope
  obtain rfl := Option.some.inj h
  obtain ⟨hindex, hbytes⟩ := hshape.path lane path hpath
  refine ⟨rfl, rfl, rfl, ?_, ?_⟩
  · unfold Bundle.verify
    rw [if_neg (by rw [hindex]; simpa using hlane)]
    dsimp only
    rw [laws.sec1]
    exact P.verify_sign signingKey _
  · exact ⟨hlane.trans hn, hshape.share share (List.mem_of_getElem? hshare), hbytes,
      hshape.envelope sealed (List.mem_of_getElem? hsealed)⟩

end Round

/-! ## What the fragments carry -/

section Fragments
variable {pp : ProtocolParams} {sid : SessionId} {round : ClientSetRound C} {covered : List Nat}
  {signingKey : C.SigningKey} {fragments : List (Fragment C)}

/-- The lanes a client codes. -/
def uncovered (n : Nat) (covered : List Nat) : List Nat :=
  (List.range n).filter (fun l => !covered.contains l)

/-- Too few lanes cannot cover all of them. -/
theorem uncovered_ne_nil {n : Nat} (h : covered.length < n) : uncovered n covered ≠ [] := by
  intro hnil
  have hall : List.range n ⊆ covered := by
    intro l hl
    have hnot := List.filter_eq_nil_iff.mp hnil l hl
    simpa using hnot
  have hle := (List.subperm_of_subset List.nodup_range hall).length_le
  rw [List.length_range] at hle
  omega

/-- A fragment of the client's is one share of its blob, under the share's index. -/
theorem fragment_of_build (h : buildFragments pp sid round covered signingKey = some fragments)
    (hlen : pp.rs.n - pp.rs.k ≤ covered.length) (hlt : covered.length < pp.rs.n) :
    ∃ packed, (uncovered pp.rs.n covered).mapM (fun l => (round.bundles[l]?).bind Bundle.pack) =
        some packed ∧
      ∀ (idx : Nat) (f : Fragment C), fragments[idx]? = some f → f.idx = idx ∧
        (C.rsEncode (fragmentParams pp) (blobToPolys packed.flatten))[idx]? = some f.data := by
  unfold buildFragments at h
  dsimp only at h
  rw [if_neg] at h
  · obtain ⟨scp, -, h⟩ := Option.bind_eq_some_iff.mp h
    obtain ⟨packed, hpacked, h⟩ := Option.bind_eq_some_iff.mp h
    obtain rfl := Option.some.inj h
    refine ⟨packed, hpacked, fun idx f hf => ?_⟩
    rw [List.getElem?_map, List.getElem?_zipIdx] at hf
    obtain ⟨e, he, rfl⟩ := Option.map_eq_some_iff.mp hf
    obtain ⟨data, hdata, rfl⟩ := Option.map_eq_some_iff.mp he
    exact ⟨Nat.zero_add idx, hdata⟩
  · simp only [Bool.or_eq_true, List.isEmpty_iff, decide_eq_true_eq, not_or, not_lt]
    exact ⟨uncovered_ne_nil hlt, hlen⟩

end Fragments

/-- A client's repair: its round as the crate makes it, the lanes it saw covering
it, neither too few nor all, and the fragments it built. -/
structure ClientRepair (pp : ProtocolParams) (sid : SessionId)
    (out : RsClientRoundOutput P.toSessionCrate) (signingKey : P.SigningKey) (covered : List Nat)
    (round : ClientSetRound P.toSetCrate) (fragments : List (Fragment P.toSetCrate)) : Prop where
  lanes_u32 : pp.rs.n < 2 ^ 32
  shaped : ∃ scp, pp.shareComm = some scp ∧ out.Shaped scp
  round_eq : ∃ bulletin, clientSetRoundFromRs pp sid out signingKey = some (round, bulletin)
  enough : pp.rs.n - pp.rs.k ≤ covered.length
  some_missing : covered.length < pp.rs.n
  nodup : covered.Nodup
  built : buildFragments pp sid round covered signingKey = some fragments

/-- The client's bundles and their packing as functions of the lane, and the blob its
fragments are coded from. -/
theorem ClientRepair.bundles (laws : RepairLaws P.toSetCrate) {pp : ProtocolParams} {sid : SessionId}
    {out : RsClientRoundOutput P.toSessionCrate} {signingKey : P.SigningKey} {covered : List Nat}
    {round : ClientSetRound P.toSetCrate} {fragments : List (Fragment P.toSetCrate)}
    (hr : ClientRepair pp sid out signingKey covered round fragments) :
    ∃ (scp : ShareCommitmentParams) (bundle : Nat → Bundle P.toSetCrate) (packed : Nat → Bytes),
      pp.shareComm = some scp ∧
      (∀ lane < pp.rs.n, round.bundles[lane]? = some (bundle lane) ∧
        (bundle lane).Genuine sid pp.rs.n scp out.clientId
          (P.toSec1Bytes (P.verifyingKey signingKey)) lane ∧
        (bundle lane).pack = some (packed lane)) ∧
      ∀ (idx : Nat) (f : Fragment P.toSetCrate), fragments[idx]? = some f → f.idx = idx ∧
        (P.rsEncode (fragmentParams pp) (blobToPolys
          ((uncovered pp.rs.n covered).map packed).flatten))[idx]? = some f.data := by
  obtain ⟨scp, hscp, hshape⟩ := hr.shaped
  obtain ⟨bulletin, hround⟩ := hr.round_eq
  obtain ⟨-, hbundles⟩ := bundles_of_round hround
  obtain ⟨b0, -, -⟩ := hbundles 0 (by have := hr.some_missing; omega)
  let bundle : Nat → Bundle P.toSetCrate := fun lane => (round.bundles[lane]?).getD b0
  let packed : Nat → Bytes := fun lane => (bundle lane).pack.getD []
  have hbundle : ∀ lane < pp.rs.n, round.bundles[lane]? = some (bundle lane) ∧
      (bundle lane).Genuine sid pp.rs.n scp out.clientId
        (P.toSec1Bytes (P.verifyingKey signingKey)) lane ∧
      (bundle lane).pack = some (packed lane) := by
    intro lane hlane
    obtain ⟨b, hb, hget⟩ := hbundles lane hlane
    have hbl : bundle lane = b := by
      show (round.bundles[lane]?).getD b0 = b
      rw [hget]
      rfl
    have hgen := genuine_bundleFor laws hshape hlane hr.lanes_u32 hb
    obtain ⟨bytes, hpack, -⟩ := Bundle.unpack_pack hgen.packable
    refine ⟨by rw [hbl, hget], by rw [hbl]; exact hgen, ?_⟩
    show (bundle lane).pack = some ((bundle lane).pack.getD [])
    rw [hbl, hpack]
    rfl
  obtain ⟨packedList, hmapM, hfrag⟩ := fragment_of_build hr.built hr.enough hr.some_missing
  have hblob : (uncovered pp.rs.n covered).mapM
      (fun lane => (round.bundles[lane]?).bind Bundle.pack) =
        some ((uncovered pp.rs.n covered).map packed) := by
    refine mapM_eq_map (fun lane hlane => ?_)
    obtain ⟨hget, -, hpack⟩ := hbundle lane (List.mem_range.mp (List.mem_of_mem_filter hlane))
    rw [hget, Option.bind_some, hpack]
  rw [hmapM] at hblob
  rw [Option.some.inj hblob] at hfrag
  exact ⟨scp, bundle, packed, hscp, hbundle, hfrag⟩

namespace SetServer
section Rebuild
variable {pp : ProtocolParams} {sid : SessionId} {s : SetServer C} {cid : ClientId}

/-- The server's samples are shares of one encoding, under distinct indices. -/
theorem samples_of_fragments {fragments : List (Fragment C)} {shares : List C.Share}
    (hheld : ∀ (idx : Nat) (f : Fragment C), s.fragment? cid idx = some f →
      fragments[idx]? = some f)
    (hfrag : ∀ (idx : Nat) (f : Fragment C), fragments[idx]? = some f →
      f.idx = idx ∧ shares[idx]? = some f.data) :
    ((s.samples cid).map Prod.fst).Nodup ∧ ∀ e ∈ s.samples cid, shares[e.1]? = some e.2 := by
  unfold samples
  cases hf : s.fragments.get? cid with
  | none => exact ⟨List.nodup_nil, nofun⟩
  | some held =>
    have hentry : ∀ e ∈ held.entries, e.2.idx = e.1 ∧ shares[e.1]? = some e.2.data := by
      intro e he
      refine hfrag e.1 e.2 (hheld e.1 e.2 ?_)
      unfold fragment?
      rw [hf]
      exact OrdMap.get?_eq_some_iff.mpr he
    rw [Option.getD_some]
    unfold OrdMap.values
    constructor
    · rw [List.map_map, List.map_map]
      show (held.entries.map (fun e => e.2.idx)).Nodup
      rw [List.map_congr_left (fun e he => (hentry e he).1)]
      exact (held.keys_sorted.imp (fun h => h.ne))
    · intro e he
      obtain ⟨f, hf, rfl⟩ := List.mem_map.mp he
      obtain ⟨entry, hmem, rfl⟩ := List.mem_map.mp hf
      obtain ⟨hidx, hshare⟩ := hentry entry hmem
      show shares[entry.2.idx]? = some entry.2.data
      rw [hidx]
      exact hshare

/-- With shares of one encoding at hand, `rebuild` reads the lanes off the blob. -/
theorem rebuild_of_samples (laws : RepairLaws C) {scp : ShareCommitmentParams}
    (hscp : pp.shareComm = some scp) (hn : s.nLanes = pp.rs.n) (hk : s.k = pp.rs.k)
    (hkn : pp.rs.k < pp.rs.n) {pkC : C.Pk} {covered missing : List Nat} {blob : Bytes}
    (hcovered : pp.rs.n - pp.rs.k ≤ covered.length)
    (hsize : pp.rs.n - pp.rs.k ≤ (s.samples cid).length)
    (hnodup : ((s.samples cid).map Prod.fst).Nodup)
    (hshares : ∀ e ∈ s.samples cid,
      (C.rsEncode (fragmentParams pp) (blobToPolys blob))[e.1]? = some e.2) :
    ∃ rest, s.rebuild pp sid cid pkC covered missing =
      rebuildLanes s.nLanes sid scp cid pkC (blob ++ rest) missing 0 := by
  have hpos : 0 < (fragmentParams pp).k := Nat.sub_pos_of_lt hkn
  have htake : ((s.samples cid).take (fragmentParams pp).k).length = (fragmentParams pp).k :=
    List.length_take_of_le hsize
  obtain ⟨blockLen, fill, hblock, hrec⟩ := laws.rs (fragmentParams pp) (blobToPolys blob)
    ((s.samples cid).take (fragmentParams pp).k) hpos htake
    (((List.take_sublist ..).map Prod.fst).nodup hnodup)
    (fun e he => hshares e (List.mem_of_mem_take he))
  obtain ⟨rest, hrest⟩ := prefix_polysToBlob laws blob fill
  refine ⟨rest, ?_⟩
  rw [rebuild_eq]
  unfold rebuildFrom
  rw [if_neg (by
    rw [hn, hk, not_or, not_lt, not_lt]
    exact ⟨hcovered, hsize⟩)]
  cases hhead : ((s.samples cid).take (fragmentParams pp).k).head? with
  | none =>
    rw [List.head?_eq_none_iff] at hhead
    rw [hhead] at htake
    exact absurd htake hpos.ne
  | some first =>
    have hfirst : first.2.length = blockLen := hblock first (List.mem_of_mem_head? hhead)
    simp only [Option.bind_eq_bind, hhead, Option.bind_some, hfirst, hrec, hscp]
    rw [hrest]

/-- A code of dimension zero rebuilds nothing: there is no first sample. -/
theorem rebuild_of_dimension_zero (hkn : pp.rs.n ≤ pp.rs.k) (pkC : C.Pk)
    (covered missing : List Nat) : s.rebuild pp sid cid pkC covered missing = none := by
  have hzero : (fragmentParams pp).k = 0 := Nat.sub_eq_zero_of_le hkn
  rw [rebuild_eq]
  unfold rebuildFrom
  split_ifs
  · rfl
  · rw [hzero, List.take_zero]
    rfl

end Rebuild

/-- A server whose matrix covers what the client saw is short of no other lane. -/
theorem missing_sublist {s : SetServer C} {n : Nat} (hn : s.nLanes = n) {covered seen : List Nat}
    (h : seen ⊆ covered) : (s.missing covered).Sublist (uncovered n seen) := by
  subst hn
  refine List.monotone_filter_right _ (fun lane hmiss => ?_)
  simp only [Bool.not_eq_true', List.contains_eq_mem, decide_eq_false_iff_not] at hmiss ⊢
  exact fun hl => hmiss (h hl)

/-- **Repair recovers the lanes a server is short of** exactly when they are the first
of the lanes the client coded, and the code has a dimension at all.  The server's
matrix covers at least what the client saw, and which fragments it holds does not
matter as long as they are enough. -/
theorem rebuild_recovers_iff (laws : RepairLaws P.toSetCrate) (pp : ProtocolParams) (sid : SessionId)
    (out : RsClientRoundOutput P.toSessionCrate) (signingKey : P.SigningKey) (covered : List Nat)
    (round : ClientSetRound P.toSetCrate) (fragments : List (Fragment P.toSetCrate))
    (hr : ClientRepair pp sid out signingKey covered round fragments) (s : SetServer P.toSetCrate)
    (hn : s.nLanes = pp.rs.n) (hk : s.k = pp.rs.k)
    (hheld : ∀ (idx : Nat) (f : Fragment P.toSetCrate), s.fragment? out.clientId idx = some f →
      fragments[idx]? = some f)
    (hsize : pp.rs.n - pp.rs.k ≤ ((s.fragments.get? out.clientId).getD .empty).size)
    (hcov : covered ⊆ s.covered out.clientId (P.toSec1Bytes (P.verifyingKey signingKey))) :
    let pkC := P.toSec1Bytes (P.verifyingKey signingKey)
    let missing := s.missing (s.covered out.clientId pkC)
    s.rebuild pp sid out.clientId pkC (s.covered out.clientId pkC) missing =
        some (missing.filterMap (fun lane => round.bundles[lane]?)) ↔
      pp.rs.k < pp.rs.n ∧ missing <+: uncovered pp.rs.n covered := by
  intro pkC missing
  by_cases hkn : pp.rs.n ≤ pp.rs.k
  · rw [rebuild_of_dimension_zero hkn]
    exact ⟨nofun, fun h => absurd h.1 (by omega)⟩
  have hkn : pp.rs.k < pp.rs.n := by omega
  obtain ⟨scp, bundle, packed, hscp, hbundle, hfrag⟩ := hr.bundles laws
  have hlt : ∀ lane ∈ uncovered pp.rs.n covered, lane < pp.rs.n := fun lane h =>
    List.mem_range.mp (List.mem_of_mem_filter h)
  have hsub : missing.Sublist (uncovered pp.rs.n covered) := missing_sublist hn hcov
  have hlen : pp.rs.n - pp.rs.k ≤ (s.covered out.clientId pkC).length :=
    hr.enough.trans (List.subperm_of_subset hr.nodup hcov).length_le
  have hsamples : pp.rs.n - pp.rs.k ≤ (s.samples out.clientId).length := by
    unfold samples OrdMap.values
    rw [List.length_map, List.length_map]
    exact hsize
  obtain ⟨hnodup, hshares⟩ := samples_of_fragments hheld hfrag
  obtain ⟨rest, hrebuild⟩ : ∃ rest,
      s.rebuild pp sid out.clientId pkC (s.covered out.clientId pkC) missing =
        rebuildLanes s.nLanes sid scp out.clientId pkC
          (((uncovered pp.rs.n covered).map packed).flatten ++ rest) missing 0 :=
    rebuild_of_samples laws hscp hn hk hkn hlen hsamples hnodup hshares
  -- The blob is read lane by lane, in the order in which the client packed it.
  have hread : rebuildLanes pp.rs.n sid scp out.clientId pkC
      (((uncovered pp.rs.n covered).map packed).flatten ++ rest) missing 0 =
        if missing <+: uncovered pp.rs.n covered then some (missing.map bundle) else none :=
    rebuildLanes_blob rest [] (fun lane hlane => (hbundle lane (hlt lane hlane)).2.1)
      (fun lane hlane => (hbundle lane (hlt lane hlane)).2.2) hsub
  have hout : missing.filterMap (fun lane => round.bundles[lane]?) = missing.map bundle := by
    rw [← List.filterMap_eq_map]
    refine List.filterMap_congr (fun lane hlane => ?_)
    exact (hbundle lane (hlt lane (hsub.subset hlane))).1
  rw [hrebuild, hn, hread, hout]
  by_cases hpre : missing <+: uncovered pp.rs.n covered
  · rw [if_pos hpre]
    exact ⟨fun _ => ⟨hkn, hpre⟩, fun _ => rfl⟩
  · rw [if_neg hpre]
    exact ⟨nofun, fun h => absurd h.2 hpre⟩

end SetServer

/-! ## The code's dimension -/

namespace SetServer
variable (s : SetServer C) (pp : ProtocolParams) (sid : SessionId)

/-- The code `rebuild` constructs, past its first guard. -/
def repairCode (covered : List Nat) : Option RsParams :=
  if covered.length < s.nLanes - s.k then none else some (fragmentParams pp)

/-- What `rebuild` does with its code. -/
def decodeRepair (cid : ClientId) (pkC : C.Pk) (missing : List Nat) (params : RsParams) :
    Option (List (Bundle C)) := do
  let held ← s.fragments.get? cid
  if held.size < params.k then none
  else
    let samples := (held.values.map (fun f => (f.idx, f.data))).take params.k
    let recovered ← C.rsReconstruct params (params.k * (← samples.head?).2.length) samples
    let blob := polysToBlob recovered (recovered.length * C.polyN * bytesPerCoeff)
    rebuildLanes s.nLanes sid (← pp.shareComm) cid pkC blob missing 0

/-- `rebuild` constructs its code before it looks at any fragment. -/
theorem rebuild_eq_repairCode (cid : ClientId) (pkC : C.Pk) (covered missing : List Nat) :
    s.rebuild pp sid cid pkC covered missing =
      (s.repairCode pp covered).bind (s.decodeRepair pp sid cid pkC missing) := by
  unfold rebuild repairCode
  split_ifs
  · rfl
  · rfl

/-- The code `finalize` constructs for a client: for one with one posted key that some lane is
short of, unless too few lanes cover it. -/
def finalizeCode (cid : ClientId) : Option RsParams :=
  (s.reportedKey cid).bind (fun pkC =>
    if (s.missing (s.covered cid pkC)).isEmpty then none
    else s.repairCode pp (s.covered cid pkC))

/-- What the membership loop decodes for a client. -/
def repaired (cid : ClientId) : Option (List (Bundle C)) :=
  (s.finalizeCode pp cid).bind (fun params => (s.reportedKey cid).bind (fun pkC =>
    s.decodeRepair pp sid cid pkC (s.missing (s.covered cid pkC)) params))

/-- One client of the membership loop, given what was decoded for it. -/
def admitWith (rebuilt : Option (List (Bundle C))) (acc : Budget C) (cid : ClientId) : Budget C :=
  match s.reportedKey cid with
  | none =>
      { acc with
        conflicted :=
          if (s.bulletins.get? cid).any (fun posted => decide (1 < posted.size))
          then acc.conflicted ++ [cid] else acc.conflicted
        excluded := acc.excluded ++ [cid] }
  | some pkC =>
      let missing := s.missing (s.covered cid pkC)
      if missing.isEmpty then { acc with admitted := acc.admitted ++ [(cid, [])] }
      else match rebuilt with
        | some bundles =>
            { acc with
              rebuiltFor :=
                match bundles.find? (fun b => b.lane == s.serverId.val) with
                | some mine => acc.rebuiltFor.insert cid mine
                | none => acc.rebuiltFor
              admitted := acc.admitted ++ [(cid, [])] }
        | none =>
            let cost := missing.foldl OrdSet.add acc.abstaining
            if cost.size ≤ s.nLanes - s.k then
              { acc with abstaining := cost, admitted := acc.admitted ++ [(cid, missing)] }
            else { acc with excluded := acc.excluded ++ [cid] }

theorem admitOne_eq_admitWith (acc : Budget C) (cid : ClientId) :
    s.admitOne pp sid acc cid = s.admitWith (s.repaired pp sid cid) acc cid := by
  unfold admitOne admitWith
  cases hkey : s.reportedKey cid with
  | none => rfl
  | some pkC =>
    by_cases hempty : (s.missing (s.covered cid pkC)).isEmpty
    · dsimp only
      rw [if_pos hempty, if_pos hempty]
    · have hcode : s.repaired pp sid cid =
          s.rebuild pp sid cid pkC (s.covered cid pkC) (s.missing (s.covered cid pkC)) := by
        simp only [repaired, finalizeCode, hkey, Option.bind_some, if_neg hempty,
          rebuild_eq_repairCode]
      rewrite [hcode]
      rfl

/-- The codes `finalize` constructs. -/
def finalizeCodes : List RsParams := s.clients.filterMap (s.finalizeCode pp)

/-- **`finalize` constructs these codes and no others**: its membership loop is the one that
decodes, for each client, under the code named for it. -/
theorem admission_eq_finalizeCode :
    s.admission pp sid =
      s.clients.foldl (fun acc cid => s.admitWith (s.repaired pp sid cid) acc cid)
        ⟨.empty, .empty, [], [], []⟩ :=
  congrArg (fun f => s.clients.foldl f _)
    (funext fun acc => funext fun cid => s.admitOne_eq_admitWith pp sid acc cid)

/-- With `k = n` no number of lanes is too few. -/
theorem finalizeCodes_positive_iff (hn : s.nLanes = pp.rs.n) (hk : s.k = pp.rs.k) :
    (∀ params ∈ s.finalizeCodes pp, params.k ≠ 0) ↔
      pp.rs.k < pp.rs.n ∨ ∀ cid ∈ s.clients, ∀ pkC, s.reportedKey cid = some pkC →
        s.missing (s.covered cid pkC) = [] := by
  constructor
  · intro h
    by_cases hkn : pp.rs.k < pp.rs.n
    · exact Or.inl hkn
    · refine Or.inr (fun cid hcid pkC hkey => ?_)
      by_contra hmiss
      refine h (fragmentParams pp) (List.mem_filterMap.mpr ⟨cid, hcid, ?_⟩) ?_
      · unfold finalizeCode
        rw [hkey, Option.bind_some, if_neg (by rw [List.isEmpty_iff]; exact hmiss)]
        unfold repairCode
        rw [if_neg (by rw [hn, hk]; omega)]
      · exact Nat.sub_eq_zero_of_le (by omega)
  · intro h params hparams
    obtain ⟨cid, hcid, hcode⟩ := List.mem_filterMap.mp hparams
    obtain ⟨pkC, hkey, hcode⟩ := Option.bind_eq_some_iff.mp hcode
    unfold repairCode at hcode
    split_ifs at hcode with hempty
    obtain rfl := Option.some.inj hcode
    rcases h with hkn | hall
    · exact (Nat.sub_pos_of_lt hkn).ne'
    · exact absurd (List.isEmpty_iff.mpr (hall cid hcid pkC hkey)) hempty

end SetServer

section Client
variable (pp : ProtocolParams) (sid : SessionId) (signingKey : C.SigningKey)

/-- The code `build_fragments` constructs, past its guard and the packing of the
bundles. -/
def buildCode (round : ClientSetRound C) (covered : List Nat) : Option RsParams :=
  if (uncovered pp.rs.n covered).isEmpty || decide (covered.length < pp.rs.n - pp.rs.k) then none
  else (buildFragments pp sid round covered signingKey).map (fun _ => fragmentParams pp)

/-- The code `fragment_wire` has `build_fragments` construct. -/
def ClientSetState.wireCode (st : ClientSetState C) : Option RsParams :=
  let covered := st.covered.keys
  let missing := pp.rs.n - covered.length
  if st.repaired || decide (missing = 0) || decide (missing ≤ pp.rs.n - pp.rs.k) ||
      decide (covered.length < pp.rs.n - pp.rs.k) then none
  else buildCode pp sid signingKey st.roundOut covered

theorem buildCode_positive_iff (round : ClientSetRound C) (covered : List Nat) :
    (∀ params, buildCode pp sid signingKey round covered = some params → params.k ≠ 0) ↔
      pp.rs.k < pp.rs.n ∨ uncovered pp.rs.n covered = [] ∨
        buildFragments pp sid round covered signingKey = none := by
  unfold buildCode
  by_cases hkn : pp.rs.k < pp.rs.n
  · refine iff_of_true (fun params hparams => ?_) (Or.inl hkn)
    split_ifs at hparams
    obtain ⟨fs, -, rfl⟩ := Option.map_eq_some_iff.mp hparams
    exact (Nat.sub_pos_of_lt hkn).ne'
  · have hzero : pp.rs.n - pp.rs.k = 0 := Nat.sub_eq_zero_of_le (by omega)
    rw [or_iff_right hkn, hzero]
    by_cases hempty : uncovered pp.rs.n covered = []
    · simp [hempty]
    · cases buildFragments pp sid round covered signingKey with
      | none => simp
      | some fs =>
        simp only [Option.map_some, hempty, reduceCtorEq, or_self, iff_false, not_forall]
        refine ⟨fragmentParams pp, ?_, ?_⟩
        · simp [hempty]
        · exact not_not.mpr hzero

/-- What `build_fragments` does with its code. -/
def encodeRepair (round : ClientSetRound C) (covered : List Nat) (params : RsParams) :
    Option (List (Fragment C)) := do
  let packed ← (uncovered pp.rs.n covered).mapM (fun l => (round.bundles[l]?).bind Bundle.pack)
  some ((C.rsEncode params (blobToPolys packed.flatten)).zipIdx.map (fun e =>
    ⟨round.clientId, e.2, e.1,
      C.sign signingKey (fragmentSigningBytes sid round.clientId e.2 e.1)⟩))

/-- Past its guard, `build_fragments` is its code followed by the coding. -/
theorem buildFragments_eq_buildCode (round : ClientSetRound C) {covered : List Nat}
    (hmiss : uncovered pp.rs.n covered ≠ []) (hk : ¬ covered.length < pp.rs.n - pp.rs.k) :
    buildFragments pp sid round covered signingKey =
      (buildCode pp sid signingKey round covered).bind
        (encodeRepair pp sid signingKey round covered) := by
  have hguard : ((uncovered pp.rs.n covered).isEmpty ||
      decide (covered.length < pp.rs.n - pp.rs.k)) = false := by
    simp [hmiss, hk]
  have hbuild : buildFragments pp sid round covered signingKey =
      pp.shareComm.bind (fun _ => encodeRepair pp sid signingKey round covered
        (fragmentParams pp)) := by
    unfold buildFragments
    rw [show (List.range pp.rs.n).filter (fun l => !covered.contains l) =
      uncovered pp.rs.n covered from rfl]
    dsimp only
    rw [hguard]
    rfl
  unfold buildCode
  rw [hguard]
  cases hfragments : buildFragments pp sid round covered signingKey with
  | none => rfl
  | some fragments =>
    rw [hbuild] at hfragments
    obtain ⟨_, _, hcoded⟩ := Option.bind_eq_some_iff.mp hfragments
    exact hcoded.symm

/-- **What `fragment_wire` sends is coded under this code**, and it sends nothing where there is
none. -/
theorem ClientSetState.fragmentWire_eq_wireCode (st : ClientSetState C) :
    (st.fragmentWire pp sid signingKey).2.getD [] =
      ((st.wireCode pp sid signingKey).bind
        (encodeRepair pp sid signingKey st.roundOut st.covered.keys)).elim [] (fun fragments =>
          st.covered.keys.filterMap (fun lane => (fragments[lane]?).map (fun f => (lane, f)))) := by
  unfold fragmentWire wireCode
  dsimp only
  split_ifs with hguard
  · rfl
  · simp only [Bool.or_eq_true, decide_eq_true_eq, not_or] at hguard
    obtain ⟨⟨⟨-, hgap⟩, -⟩, hk⟩ := hguard
    rw [buildFragments_eq_buildCode pp sid signingKey st.roundOut
      (uncovered_ne_nil (by omega)) hk]
    cases (buildCode pp sid signingKey st.roundOut st.covered.keys).bind
      (encodeRepair pp sid signingKey st.roundOut st.covered.keys) <;> rfl

theorem ClientSetState.wireCode_positive_iff (st : ClientSetState C) :
    (∀ params, st.wireCode pp sid signingKey = some params → params.k ≠ 0) ↔
      pp.rs.k < pp.rs.n ∨ st.repaired = true ∨ pp.rs.n ≤ st.covered.size ∨
        buildFragments pp sid st.roundOut st.covered.keys signingKey = none := by
  have hsize : st.covered.keys.length = st.covered.size := List.length_map ..
  have hbuild := buildCode_positive_iff pp sid signingKey st.roundOut st.covered.keys
  unfold wireCode
  dsimp only
  rw [hsize]
  by_cases hkn : pp.rs.k < pp.rs.n
  · rw [iff_true_intro (Or.inl hkn), iff_true] at hbuild
    refine iff_of_true (fun params hparams => ?_) (Or.inl hkn)
    split_ifs at hparams
    exact hbuild params hparams
  · rw [or_iff_right hkn] at hbuild ⊢
    by_cases hguard : st.repaired = true ∨ pp.rs.n ≤ st.covered.size
    · rcases hguard with h | h
      · simp [h]
      · have hgap : pp.rs.n - st.covered.size = 0 := Nat.sub_eq_zero_of_le h
        simp [h, hgap]
    · obtain ⟨hrep, hlt⟩ := not_or.mp hguard
      rw [if_neg (by simp [hrep]; omega), hbuild]
      have hne : uncovered pp.rs.n st.covered.keys ≠ [] :=
        uncovered_ne_nil (by rw [hsize]; omega)
      simp [hne, hrep, hlt]

end Client

/-! ## A repair on the toy crate -/

namespace RepairToy

theorem laws : RepairLaws toyCrate where
  poly_pos := by decide
  slots slots hlen _ := by
    obtain ⟨x, rfl⟩ := List.length_eq_one_iff.mp hlen
    rfl
  sec1 _ := rfl
  rs params polys samples hk hlen _ hshares := by
    -- Every share of the toy code is all of the data.
    have hall : ∀ e ∈ samples, e.2 = polys := fun e he =>
      (List.mem_replicate.mp (List.mem_of_getElem? (hshares e he))).2
    cases samples with
    | nil => exact absurd hlen (by simpa using hk.ne)
    | cons first rest =>
      refine ⟨polys.length, [], fun e he => by rw [hall e he], ?_⟩
      show some first.2 = some (polys ++ [])
      rw [hall first (List.mem_cons_self ..), List.append_nil]

/-- Client 7's round as the crate returns it. -/
def out : RsClientRoundOutput toyScheduled.toSessionCrate where
  clientId := 7
  bulletin := ⟨(), (0 : Nat), toyPk 80, toyHash []⟩
  rsShares := [([1] : List Nat), ([1] : List Nat), ([1] : List Nat)]
  sharePaths := [⟨0, []⟩, ⟨1, []⟩, ⟨2, []⟩]
  sealedOpenings := [(0, []), (1, []), (2, [])]

/-- Its bundles, signed under boot key 80. -/
def round : ClientSetRound toyCrate := ⟨7, (List.range 3).map (toyBundle 7 80)⟩

/-- The fragments the client builds when only lane 1's batch shows its bundle. -/
def fragments : List (Fragment toyCrate) :=
  (buildFragments toyParams toySid round [1] (80 : U8)).getD []

theorem repair : ClientRepair (P := toyScheduled.toPostCrate) toyParams toySid out (80 : U8) [1] round fragments where
  lanes_u32 := by decide
  shaped := by
    refine ⟨⟨1, 3⟩, rfl, ?_, ?_, ?_⟩
    · intro share hshare
      have hone : share = ([1] : List Nat) :=
        (List.mem_replicate.mp (show share ∈ List.replicate 3 ([1] : List Nat) from hshare)).2
      rw [hone]
      exact ⟨rfl, rfl⟩
    · intro lane path hpath
      match lane, hpath with
      | 0, hpath => obtain rfl := Option.some.inj hpath; exact ⟨rfl, [], rfl, rfl, rfl⟩
      | 1, hpath => obtain rfl := Option.some.inj hpath; exact ⟨rfl, [], rfl, rfl, rfl⟩
      | 2, hpath => obtain rfl := Option.some.inj hpath; exact ⟨rfl, [], rfl, rfl, rfl⟩
    · decide
  round_eq := ⟨_, rfl⟩
  enough := by decide
  some_missing := by decide
  nodup := by decide
  built := by
    have hsome : (buildFragments toyParams toySid round [1] (80 : U8)).isSome = true := by
      decide +kernel
    obtain ⟨fs, hfs⟩ := Option.isSome_iff_exists.mp hsome
    have hget : fragments = fs := by
      unfold fragments
      rw [hfs]
      rfl
    rw [hget]
    exact hfs

/-- Lane 1 took client 7's bundle, heard the batches in `heard`, and got the fragment
the client sent it. -/
def lane1 (heard : List (Relay toyCrate)) : SetServer toyCrate :=
  [SetOp.receive (toyBundle 7 80 1), .noteBulletin 7 (toyPk 80), .originate, .absorb 1 heard,
    .submit (fragments.filter (fun f => f.idx == 1))].foldl (fun s op => (s.apply toySid op).1)
      (.new toyParams 1 (toyKey 1) toyPks)

theorem held_lane1 {heard : List (Relay toyCrate)} (f : Fragment toyCrate)
    (h : (((lane1 heard).fragments.get? 7).getD .empty).entries = [(1, f)])
    (hf : fragments[1]? = some f) : ∀ (idx : Nat) (g : Fragment toyCrate),
      (lane1 heard).fragment? 7 idx = some g → fragments[idx]? = some g := by
  intro idx g hg
  obtain ⟨held, hheld, hget⟩ := Option.bind_eq_some_iff.mp hg
  rw [hheld, Option.getD_some] at h
  have hmem := OrdMap.get?_eq_some_iff.mp hget
  rw [h] at hmem
  obtain ⟨rfl, rfl⟩ := Prod.mk.inj (List.mem_singleton.mp hmem)
  exact hf

theorem fragments_lane1 : ∃ f, fragments[1]? = some f ∧
    (((lane1 []).fragments.get? 7).getD .empty).entries = [(1, f)] ∧
    (((lane1 [toyBatchRelay 0 [toyReceipt 7 80 0]]).fragments.get? 7).getD .empty).entries =
      [(1, f)] := by
  have hsome : (fragments[1]?).isSome = true := by decide +kernel
  obtain ⟨f, hf⟩ := Option.isSome_iff_exists.mp hsome
  refine ⟨f, hf, ?_⟩
  have hmap : fragments[1]?.map (fun f => [(1, f)]) = some [(1, f)] := by rw [hf]; rfl
  constructor
  · refine Option.some.inj (Eq.trans ?_ hmap)
    decide +kernel
  · refine Option.some.inj (Eq.trans ?_ hmap)
    decide +kernel

/-- Lane 1 covers client 7 alone, and rebuilds the bundles of lanes 0 and 2. -/
theorem rebuild_lane1 : (lane1 []).rebuild toyParams toySid 7 (toyPk 80)
    ((lane1 []).covered 7 (toyPk 80)) ((lane1 []).missing ((lane1 []).covered 7 (toyPk 80))) =
      some (((lane1 []).missing ((lane1 []).covered 7 (toyPk 80))).filterMap
        (fun lane => round.bundles[lane]?)) := by
  obtain ⟨f, hf, hentries, -⟩ := fragments_lane1
  refine (SetServer.rebuild_recovers_iff (P := toyScheduled.toPostCrate) laws toyParams toySid out
    (80 : U8) [1] round fragments repair (lane1 []) (by decide +kernel) (by decide +kernel)
    (held_lane1 f hentries hf) ?_ ?_).mpr ⟨by decide, ?_⟩
  · show 1 ≤ (((lane1 []).fragments.get? 7).getD .empty).entries.length
    rw [hentries]
    exact le_rfl
  · decide +kernel
  · decide +kernel

/-- **A repair that is out of step with the matrix recovers nothing.**  The client saw
lane 1 only and coded lanes 0 and 2; lane 1 also heard from lane 0, and asks the blob
for lane 2 first. -/
theorem mismatched_repair_fails :
    let s := lane1 [toyBatchRelay 0 [toyReceipt 7 80 0]]
    ClientRepair (P := toyScheduled.toPostCrate) toyParams toySid out (80 : U8) [1] round
        fragments ∧
      (∀ (idx : Nat) (g : Fragment toyCrate), s.fragment? 7 idx = some g →
        fragments[idx]? = some g) ∧
      toyParams.rs.n - toyParams.rs.k ≤ ((s.fragments.get? 7).getD .empty).size ∧
      [1] ⊆ s.covered 7 (toyPk 80) ∧ s.missing (s.covered 7 (toyPk 80)) = [2] ∧
      s.rebuild toyParams toySid 7 (toyPk 80) (s.covered 7 (toyPk 80))
        (s.missing (s.covered 7 (toyPk 80))) = none := by
  intro s
  obtain ⟨f, hf, -, hentries⟩ := fragments_lane1
  have hnone : (s.rebuild toyParams toySid 7 (toyPk 80) (s.covered 7 (toyPk 80))
      (s.missing (s.covered 7 (toyPk 80)))).isNone = true := by decide +kernel
  refine ⟨repair, held_lane1 f hentries hf, ?_, by decide +kernel, by decide +kernel,
    Option.isNone_iff_eq_none.mp hnone⟩
  show 1 ≤ ((s.fragments.get? 7).getD .empty).entries.length
  rw [hentries]
  exact le_rfl

/-- Three lanes that all have to serve. -/
def allLanes : ProtocolParams := ⟨3, ⟨3, 3⟩, some ⟨1, 3⟩, 2, rfl⟩

/-- Lane 0 took client 7's bundle and closed its window. -/
def oneLaneCalls : List (SetOp toyCrate) :=
  [.noteBulletin 7 (toyPk 80), .receive (toyBundle 7 80 0), .originate]

end RepairToy

/-- **The code has a dimension** in every state a lane's calls lead to and every state
of a client, exactly when fewer lanes than all have to serve, or nothing is short: no
client of a lane's matrix, no lane of the client's row. -/
theorem repair_code_positive_iff (pp : ProtocolParams) (sid : SessionId) (i : ServerId)
    (signer : C.SigningKey) (serverPks : List C.VerifyingKey) (ops : List (SetOp C))
    (st : ClientSetState C) (round : ClientSetRound C) (covered : List Nat)
    (postKey : C.SigningKey) :
    let s := SetServer.reached pp sid i signer serverPks ops
    ((∀ params ∈ s.finalizeCodes pp, params.k ≠ 0) ↔
        pp.rs.k < pp.rs.n ∨ ∀ cid ∈ s.clients, ∀ pkC, s.reportedKey cid = some pkC →
          s.missing (s.covered cid pkC) = []) ∧
      ((∀ params, st.wireCode pp sid postKey = some params → params.k ≠ 0) ↔
        pp.rs.k < pp.rs.n ∨ st.repaired = true ∨ pp.rs.n ≤ st.covered.size ∨
          buildFragments pp sid st.roundOut st.covered.keys postKey = none) ∧
      ((∀ params, buildCode pp sid postKey round covered = some params → params.k ≠ 0) ↔
        pp.rs.k < pp.rs.n ∨ uncovered pp.rs.n covered = [] ∨
          buildFragments pp sid round covered postKey = none) := by
  intro s
  have hlane := SetServer.sameLane_reached pp sid i signer serverPks ops
  exact ⟨s.finalizeCodes_positive_iff pp hlane.nLanes hlane.k,
    st.wireCode_positive_iff pp sid postKey, buildCode_positive_iff pp sid postKey round covered⟩

/-- **A code of dimension zero.**  With a threshold of all three relays, which the
structure check admits, lane 0 constructs it for a client the other lanes have not
reported, and a client that has read no batch constructs it to repair. -/
theorem zero_dimension_constructed :
    thresholdOk 3 3 = true ∧
      ((SetServer.reached RepairToy.allLanes toySid 0 (toyKey 0) toyPks
        RepairToy.oneLaneCalls).finalizeCodes RepairToy.allLanes).map RsParams.k = [0] ∧
      ((ClientSetState.new RepairToy.round).wireCode RepairToy.allLanes toySid (80 : U8)).map
        RsParams.k = some 0 := by
  refine ⟨by decide, ?_, ?_⟩
  · decide +kernel
  · decide +kernel

end Anymone
