import Anymone.ClientSetRelay

/-! # Fixing the set

`finalize` reads the agreed pool: every client any lane reported is taken in id
order, and is in when every lane reported it, when its fragments rebuild the
lanes that did not, or when the lanes short of it fit the round's budget of
`n − k` abstentions.

The result of the membership loop depends on very little of the state
(`SameMatrix`): the receipts of each lane, the keys posted, and the data of the
fragments of clients with one key.  Servers that agree on these obtain the same
set (`finalize_set_congr`).
-/

namespace Anymone
variable {C : SetCrate}

/-- `BYTES_PER_COEFF`. -/
def bytesPerCoeff : Nat := 5

/-- `polys_to_blob`. -/
def polysToBlob (polys : List C.RsNTTPoly) (blobLen : Nat) : Bytes :=
  (polys.flatMap (fun p => (C.nttSlots p).flatMap (leBytes bytesPerCoeff))).take blobLen

/-- `sort_unstable` and `dedup`, on an ordered type. -/
def sortDedup {K : Type} [LinearOrder K] (l : List K) : List K :=
  (l.foldl OrdSet.add .empty : OrdSet K).keys

theorem mem_sortDedup {K : Type} [LinearOrder K] {l : List K} {k : K} :
    k ∈ sortDedup l ↔ k ∈ l := by
  unfold sortDedup
  rw [← List.mem_toFinset, ← List.mem_toFinset]
  show k ∈ OrdSet.toFinset _ ↔ _
  rw [OrdSet.toFinset_foldl_add]
  simp [OrdSet.toFinset, OrdMap.keys, OrdMap.empty]

theorem nodup_sortDedup {K : Type} [LinearOrder K] (l : List K) : (sortDedup l).Nodup :=
  (OrdMap.keys_sorted _).imp (fun hlt => hlt.ne)

/-- The final loop of `rebuild`: one bundle per missing lane from the front of the
blob, each for its lane and verifying under the reported key. -/
def rebuildLanes (nLanes : Nat) (sid : SessionId) (scp : ShareCommitmentParams) (cid : ClientId) (pkC : C.Pk)
    (blob : Bytes) : List Nat → Nat → Option (List (Bundle C))
  | [], _ => some []
  | lane :: lanes, at_ => do
      let (b, used) ← Bundle.unpack scp cid (← slice? blob at_ blob.length)
      if b.lane ≠ lane ∨ b.pubkey ≠ pkC ∨ b.verify sid nLanes = false then none
      else
        let rest ← rebuildLanes nLanes sid scp cid pkC blob lanes (at_ + used)
        some (b :: rest)

/-- `SetRound`. -/
structure SetRound (C : SetCrate) where
  set : List ClientId
  /-- `inbox.items`. -/
  inbox : List (ClientId × C.Opening)
  /-- `lane_inbox.items`. -/
  laneInbox : List (ClientId × C.Share × SharePath C.HVCPoly)
  excluded : List ClientId
  conflicted : List ClientId
  repaired : List ClientId

/-- The locals of the membership loop of `finalize`. -/
structure Budget (C : SetCrate) where
  /-- Lanes already unable to serve someone in the set. -/
  abstaining : OrdSet Nat
  rebuiltFor : OrdMap ClientId (Bundle C)
  admitted : List (ClientId × List Nat)
  excluded : List ClientId
  conflicted : List ClientId

namespace SetServer
variable (s : SetServer C)

/-- Every client any lane reported, in id order. -/
def clients : List ClientId :=
  sortDedup (s.batches.values.flatMap (fun b => b.receipts.map Receipt.clientId))

/-- `SetServer::covered`: lanes that reported `cid` under the key it posted. -/
def covered (cid : ClientId) (pkC : C.Pk) : List Nat :=
  ((s.batches.values.filter (fun b =>
    b.receipts.any (fun r => r.clientId == cid && r.pkC == pkC))).map
      (fun b => b.serverId.val)).insertionSort (· ≤ ·)

/-- The lanes that did not: `missing` of the loop. -/
def missing (covered : List Nat) : List Nat :=
  (List.range s.nLanes).filter (fun l => !covered.contains l)

/-- `SetServer::own_bundle`. -/
def ownBundle (cid : ClientId) : Option (Bundle C) := do
  let own ← s.batches.get? s.serverId
  let receipt ← own.receipts.find? (fun r => r.clientId == cid)
  (← s.held.get? cid).get? receipt.bundleHash

/-- `SetServer::rebuild`. -/
def rebuild (pp : ProtocolParams) (sid : SessionId) (cid : ClientId) (pkC : C.Pk)
    (covered missing : List Nat) : Option (List (Bundle C)) := do
  if covered.length < s.nLanes - s.k then none
  else
    let params := fragmentParams pp
    let held ← s.fragments.get? cid
    if held.size < params.k then none
    else
      let samples := (held.values.map (fun f => (f.idx, f.data))).take params.k
      let nPolys := params.k * (← samples.head?).2.length
      let recovered ← C.rsReconstruct params nPolys samples
      let blob := polysToBlob recovered (recovered.length * C.polyN * bytesPerCoeff)
      let scp ← pp.shareComm
      rebuildLanes s.nLanes sid scp cid pkC blob missing 0

/-- One client of the membership loop. -/
def admitOne (pp : ProtocolParams) (sid : SessionId) (acc : Budget C) (cid : ClientId) : Budget C :=
  match s.reportedKey cid with
  | none =>
      { acc with
        conflicted :=
          if (s.bulletins.get? cid).any (fun posted => decide (1 < posted.size))
          then acc.conflicted ++ [cid] else acc.conflicted
        excluded := acc.excluded ++ [cid] }
  | some pkC =>
      let covered := s.covered cid pkC
      let missing := s.missing covered
      if missing.isEmpty then { acc with admitted := acc.admitted ++ [(cid, [])] }
      else match s.rebuild pp sid cid pkC covered missing with
        | some bundles =>
            { acc with
              rebuiltFor :=
                match bundles.find? (fun b => b.lane == s.serverId.val) with
                | some mine => acc.rebuiltFor.insert cid mine
                | none => acc.rebuiltFor
              admitted := acc.admitted ++ [(cid, [])] }
        | none =>
            let cost := missing.foldl OrdSet.add acc.abstaining
            if cost.size ≤ s.nLanes - s.k then
              { acc with abstaining := cost, admitted := acc.admitted ++ [(cid, missing)] }
            else { acc with excluded := acc.excluded ++ [cid] }

/-- The membership loop. -/
def admission (pp : ProtocolParams) (sid : SessionId) : Budget C :=
  s.clients.foldl (s.admitOne pp sid) ⟨.empty, .empty, [], [], []⟩

/-- One admitted client of the serving loop: its own or rebuilt bundle, opened
with `key`. -/
def serve (key : C.PrivateKey) (sid : SessionId) (rebuiltFor : OrdMap ClientId (Bundle C))
    (out : SetRound C) (cid : ClientId) : SetRound C :=
  let out := { out with
    set := out.set ++ [cid]
    repaired := if rebuiltFor.contains cid then out.repaired ++ [cid] else out.repaired }
  match (rebuiltFor.get? cid).orElse (fun _ => s.ownBundle cid) with
  | none => out
  | some b =>
      { out with
        inbox :=
          match C.unsealOpening key sid cid s.serverId b.envelope with
          | some opening => out.inbox ++ [(cid, opening)]
          | none => out.inbox
        laneInbox := out.laneInbox ++ [(cid, b.share, b.path)] }

/-- `SetServer::finalize`. -/
def finalize (pp : ProtocolParams) (key : C.PrivateKey) (sid : SessionId) : SetRound C :=
  let adm := s.admission pp sid
  (adm.admitted.map Prod.fst).foldl (s.serve key sid adm.rebuiltFor)
    ⟨[], [], [], adm.excluded, adm.conflicted, []⟩

theorem serve_set (key : C.PrivateKey) (sid : SessionId) (rebuiltFor : OrdMap ClientId (Bundle C))
    (out : SetRound C) (cid : ClientId) :
    (s.serve key sid rebuiltFor out cid).set = out.set ++ [cid] := by
  unfold serve
  dsimp only
  split <;> rfl

theorem foldl_serve_set (key : C.PrivateKey) (sid : SessionId)
    (rebuiltFor : OrdMap ClientId (Bundle C)) (cids : List ClientId) :
    ∀ out : SetRound C, (cids.foldl (s.serve key sid rebuiltFor) out).set = out.set ++ cids := by
  induction cids with
  | nil => exact fun out => (List.append_nil out.set).symm
  | cons cid cids ih =>
    intro out
    rw [List.foldl_cons, ih, serve_set, List.append_assoc]
    rfl

theorem serve_lists (key : C.PrivateKey) (sid : SessionId) (rebuiltFor : OrdMap ClientId (Bundle C))
    (out : SetRound C) (cid : ClientId) :
    (s.serve key sid rebuiltFor out cid).excluded = out.excluded ∧
      (s.serve key sid rebuiltFor out cid).conflicted = out.conflicted := by
  unfold serve
  dsimp only
  split <;> exact ⟨rfl, rfl⟩

theorem foldl_serve_lists (key : C.PrivateKey) (sid : SessionId)
    (rebuiltFor : OrdMap ClientId (Bundle C)) (cids : List ClientId) : ∀ out : SetRound C,
    (cids.foldl (s.serve key sid rebuiltFor) out).excluded = out.excluded ∧
      (cids.foldl (s.serve key sid rebuiltFor) out).conflicted = out.conflicted := by
  induction cids with
  | nil => exact fun _ => ⟨rfl, rfl⟩
  | cons cid cids ih =>
    intro out
    obtain ⟨hexc, hcon⟩ := s.serve_lists key sid rebuiltFor out cid
    obtain ⟨hexc', hcon'⟩ := ih (s.serve key sid rebuiltFor out cid)
    exact ⟨hexc'.trans hexc, hcon'.trans hcon⟩

/-- Every opening served was unsealed with `key`. -/
theorem unsealed_foldl_serve (key : C.PrivateKey) (sid : SessionId)
    (rebuiltFor : OrdMap ClientId (Bundle C)) (cids : List ClientId) : ∀ out : SetRound C,
    (∀ i ∈ out.inbox, ∃ sealed, C.unsealOpening key sid i.1 s.serverId sealed = some i.2) →
    ∀ i ∈ (cids.foldl (s.serve key sid rebuiltFor) out).inbox,
      ∃ sealed, C.unsealOpening key sid i.1 s.serverId sealed = some i.2 := by
  induction cids with
  | nil => exact fun _ h => h
  | cons cid cids ih =>
    intro out h
    refine ih _ ?_
    unfold serve
    dsimp only
    split
    · exact h
    · rename_i b hb
      dsimp only
      cases hopen : C.unsealOpening key sid cid s.serverId b.envelope with
      | none => exact h
      | some opening =>
        intro i hi
        rcases List.mem_append.mp hi with hi | hi
        · exact h i hi
        · obtain rfl := List.mem_singleton.mp hi
          exact ⟨b.envelope, hopen⟩

theorem unsealed_finalize (pp : ProtocolParams) (key : C.PrivateKey) (sid : SessionId) :
    ∀ i ∈ (s.finalize pp key sid).inbox,
      ∃ sealed, C.unsealOpening key sid i.1 s.serverId sealed = some i.2 := by
  refine s.unsealed_foldl_serve key sid _ _ _ ?_
  intro i hi
  exact absurd hi (List.not_mem_nil)

/-- **The set is what the membership loop admitted**, whatever the lane can serve
of it. -/
theorem finalize_set (pp : ProtocolParams) (key : C.PrivateKey) (sid : SessionId) :
    (s.finalize pp key sid).set = (s.admission pp sid).admitted.map Prod.fst := by
  unfold finalize
  rw [foldl_serve_set]
  rfl

/-- The clients left out are the ones the membership loop left out. -/
theorem finalize_excluded (pp : ProtocolParams) (key : C.PrivateKey) (sid : SessionId) :
    (s.finalize pp key sid).excluded = (s.admission pp sid).excluded ∧
      (s.finalize pp key sid).conflicted = (s.admission pp sid).conflicted :=
  s.foldl_serve_lists key sid _ _ _

/-! ## What the set depends on -/

/-- Each lane's receipts. -/
def matrix : OrdMap ServerId (List (Receipt C)) := s.batches.mapVals (fun _ b => b.receipts)

/-- A client's fragments as `rebuild` samples them. -/
def samples (cid : ClientId) : List (Nat × C.Share) :=
  ((s.fragments.get? cid).getD .empty).values.map (fun f => (f.idx, f.data))

/-- `rebuild` over a given list of samples. -/
def rebuildFrom (nLanes k : Nat) (pp : ProtocolParams) (sid : SessionId) (cid : ClientId)
    (pkC : C.Pk) (all : List (Nat × C.Share)) (covered missing : List Nat) :
    Option (List (Bundle C)) :=
  if covered.length < nLanes - k ∨ all.length < (fragmentParams pp).k then none
  else do
    let samples := all.take (fragmentParams pp).k
    let nPolys := (fragmentParams pp).k * (← samples.head?).2.length
    let recovered ← C.rsReconstruct (fragmentParams pp) nPolys samples
    let blob := polysToBlob recovered (recovered.length * C.polyN * bytesPerCoeff)
    let scp ← pp.shareComm
    rebuildLanes nLanes sid scp cid pkC blob missing 0

/-- Two servers that agree on the pool: the receipts of each lane, the keys
posted, and the fragments of every client with one key. -/
structure SameMatrix (s s' : SetServer C) : Prop where
  nLanes : s'.nLanes = s.nLanes
  k : s'.k = s.k
  bulletins : s'.bulletins = s.bulletins
  matrix : s'.matrix = s.matrix
  samples : ∀ cid pk, s.reportedKey cid = some pk → s'.samples cid = s.samples cid

section Congruence
variable {s} {s' : SetServer C} {sid : SessionId} {seen seen' : List (RelayItem C)}

theorem clients_eq : s.clients =
    sortDedup (s.matrix.values.flatMap (fun rs => rs.map Receipt.clientId)) := by
  unfold clients matrix OrdMap.values OrdMap.mapVals
  rw [List.flatMap_map, List.flatMap_map, List.flatMap_map]

theorem covered_eq (hg : Grounded sid seen s) (cid : ClientId) (pkC : C.Pk) :
    s.covered cid pkC = ((s.matrix.entries.filter (fun e =>
      e.2.any (fun r => r.clientId == cid && r.pkC == pkC))).map
        (fun e => e.1.val)).insertionSort (· ≤ ·) := by
  unfold covered matrix OrdMap.values OrdMap.mapVals
  rw [List.filter_map, List.map_map, List.filter_map, List.map_map]
  congr 1
  refine List.map_congr_left (fun e he => ?_)
  have hl := (hg.batch e.1 e.2 (OrdMap.get?_eq_some_iff.mpr (List.mem_of_mem_filter he))).1
  show e.2.serverId.val = e.1.val
  rw [hl]

/-- `rebuild` reads of the state only the client's samples. -/
theorem rebuild_eq (pp : ProtocolParams) (sid : SessionId) (cid : ClientId) (pkC : C.Pk)
    (covered missing : List Nat) : s.rebuild pp sid cid pkC covered missing =
      rebuildFrom s.nLanes s.k pp sid cid pkC (s.samples cid) covered missing := by
  unfold rebuild rebuildFrom samples
  by_cases hc : covered.length < s.nLanes - s.k
  · rw [if_pos hc, if_pos (Or.inl hc)]
  · rw [if_neg hc]
    cases hf : s.fragments.get? cid with
    | none =>
      -- No fragments at all: too few, or a threshold of zero and nothing to sample.
      by_cases hk : (fragmentParams pp).k = 0
      · simp [hc, hk, OrdMap.empty, OrdMap.values]
      · rw [if_pos]
        · rfl
        · simp [OrdMap.empty, OrdMap.values]
          omega
    | some held =>
      have hlen : (held.values.map (fun f => (f.idx, f.data))).length = held.size := by
        simp [OrdMap.values, OrdMap.size]
      by_cases hs : held.size < (fragmentParams pp).k
      · rw [if_pos (Or.inr (by rw [Option.getD_some, hlen]; exact hs))]
        simp [hs]
      · rw [if_neg (by rw [Option.getD_some, hlen]; exact not_or.mpr ⟨hc, hs⟩)]
        simp [hs]

theorem reportedKey_congr (h : s'.bulletins = s.bulletins) (cid : ClientId) :
    s'.reportedKey cid = s.reportedKey cid := by
  unfold reportedKey
  rw [h]

/-- Two servers between which the membership loop cannot tell: it finds the same
clients, the same lanes reporting each, and the same bundles rebuilt. -/
structure SameReading (pp : ProtocolParams) (sid : SessionId) (s s' : SetServer C) : Prop where
  nLanes : s'.nLanes = s.nLanes
  k : s'.k = s.k
  bulletins : s'.bulletins = s.bulletins
  clients : s'.clients = s.clients
  covered : ∀ cid pkC, s'.covered cid pkC = s.covered cid pkC
  rebuild : ∀ cid pkC covered missing, s.reportedKey cid = some pkC →
    s'.rebuild pp sid cid pkC covered missing = s.rebuild pp sid cid pkC covered missing

theorem SameMatrix.sameReading (hm : s.SameMatrix s') (hg : Grounded sid seen s)
    (hg' : Grounded sid seen' s') (pp : ProtocolParams) : SameReading pp sid s s' where
  nLanes := hm.nLanes
  k := hm.k
  bulletins := hm.bulletins
  clients := by rw [clients_eq, clients_eq, hm.matrix]
  covered cid pkC := by rw [covered_eq hg', covered_eq hg, hm.matrix]
  rebuild cid pkC covered missing hk := by
    rw [rebuild_eq, rebuild_eq, hm.nLanes, hm.k, hm.samples cid pkC hk]

/-- The locals of the loop that do not depend on which lane runs it. -/
def SameBudget (a a' : Budget C) : Prop :=
  a'.abstaining = a.abstaining ∧ a'.admitted = a.admitted ∧ a'.excluded = a.excluded ∧
    a'.conflicted = a.conflicted

variable {pp : ProtocolParams}

theorem SameReading.admitOne (hr : SameReading pp sid s s') {a a' : Budget C}
    (h : SameBudget a a') (cid : ClientId) :
    SameBudget (s.admitOne pp sid a cid) (s'.admitOne pp sid a' cid) := by
  obtain ⟨habs, hadm, hexc, hcon⟩ := h
  unfold SetServer.admitOne
  rw [reportedKey_congr hr.bulletins]
  cases hk : s.reportedKey cid with
  | none =>
    dsimp only
    rw [hr.bulletins, hcon, hexc]
    exact ⟨habs, hadm, rfl, rfl⟩
  | some pkC =>
    have hmiss : s'.missing (s.covered cid pkC) = s.missing (s.covered cid pkC) := by
      unfold missing
      rw [hr.nLanes]
    dsimp only
    rw [hr.covered, hmiss, hr.rebuild cid pkC _ _ hk, hadm, habs, hexc, hcon, hr.nLanes, hr.k]
    split
    · exact ⟨rfl, rfl, rfl, rfl⟩
    · split
      · exact ⟨rfl, rfl, rfl, rfl⟩
      · split
        · exact ⟨rfl, rfl, rfl, rfl⟩
        · exact ⟨rfl, rfl, rfl, rfl⟩

theorem SameReading.foldl_admitOne (hr : SameReading pp sid s s') (cids : List ClientId) :
    ∀ a a' : Budget C, SameBudget a a' →
      SameBudget (cids.foldl (s.admitOne pp sid) a) (cids.foldl (s'.admitOne pp sid) a') := by
  induction cids with
  | nil => exact fun _ _ h => h
  | cons cid cids ih => exact fun _ _ h => ih _ _ (hr.admitOne h cid)

theorem SameReading.admission (hr : SameReading pp sid s s') :
    SameBudget (s.admission pp sid) (s'.admission pp sid) := by
  unfold SetServer.admission
  rw [hr.clients]
  exact hr.foldl_admitOne s.clients _ _ ⟨rfl, rfl, rfl, rfl⟩

/-- **Servers that agree on the pool obtain the same set**, in the same order. -/
theorem finalize_set_congr (hm : s.SameMatrix s') (hg : Grounded sid seen s)
    (hg' : Grounded sid seen' s') (pp : ProtocolParams) (key key' : C.PrivateKey) :
    (s'.finalize pp key' sid).set = (s.finalize pp key sid).set := by
  rw [finalize_set, finalize_set, (hm.sameReading hg hg' pp).admission.2.1]

/-- Lanes with the same receipts give the same matrix. -/
theorem matrix_congr
    (h : ∀ l, (s'.batches.get? l).map ReceiptBatch.receipts =
      (s.batches.get? l).map ReceiptBatch.receipts) : s'.matrix = s.matrix := by
  refine OrdMap.ext_get? (fun l => ?_)
  unfold matrix
  rw [OrdMap.get?_mapVals, OrdMap.get?_mapVals]
  exact h l

/-- A grounded server's samples are its fragments' data under their indices. -/
theorem samples_eq (hg : Grounded sid seen s) (cid : ClientId) : s.samples cid =
    (((s.fragments.get? cid).getD .empty).mapVals (fun _ f => f.data)).entries := by
  unfold samples OrdMap.values OrdMap.mapVals
  rw [List.map_map]
  refine List.map_congr_left (fun e he => ?_)
  have hf : s.fragment? cid e.1 = some e.2 := by
    unfold fragment?
    cases hc : s.fragments.get? cid with
    | none => simp [hc, OrdMap.empty] at he
    | some held =>
      rw [hc] at he
      exact OrdMap.get?_eq_some_iff.mpr he
  show (e.2.idx, e.2.data) = (e.1, e.2.data)
  rw [(hg.fragment cid e.1 e.2 hf).2.1]

theorem samples_congr (hg : Grounded sid seen s) (hg' : Grounded sid seen' s') {cid : ClientId}
    (h : ∀ idx, (s'.fragment? cid idx).map Fragment.data = (s.fragment? cid idx).map Fragment.data) :
    s'.samples cid = s.samples cid := by
  have hget : ∀ (t : SetServer C) (idx : Nat),
      ((t.fragments.get? cid).getD .empty).get? idx = t.fragment? cid idx := by
    intro t idx
    unfold fragment?
    cases t.fragments.get? cid <;> rfl
  rw [samples_eq hg, samples_eq hg']
  congr 1
  refine OrdMap.ext_get? (fun idx => ?_)
  rw [OrdMap.get?_mapVals, OrdMap.get?_mapVals, hget, hget]
  exact h idx

end Congruence

end SetServer
end Anymone
