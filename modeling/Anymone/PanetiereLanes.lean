import Anymone.PanetiereBucket

/-! # The lanes a decode names

What the lane half of the `panetiere` crate is relied on for (`LaneCheck`), and what
follows for `decode_settled`: a lane that a bucket's decode names is held in the
bucket, and does not open against the share roots of the posts in it
(`named_lane`).
-/

namespace Anymone

/-- What a relay relies on from `aggregate_and_decrypt_rs` and `run_rs_node_round`:
there is a check of one lane against the share roots it is summed over, and a failed
decode names only lanes that fail it. -/
structure LaneCheck (C : SessionCrate) where
  /-- Whether a lane's sum opens against the sum of the roots. -/
  laneOpens : ShareCommitmentParams → C.NodeEntry → List (ClientId × C.HVCPoly) → Bool
  made : ∀ {scp node items clients roots lane},
    C.runRsNodeRound scp node items clients roots = some lane →
      lane.nodeId = node ∧ lane.clients = clients
  named : ∀ {pp scp sid set entries servers lanes ids}, pp.shareComm = some scp →
    C.aggregateAndDecryptRs pp sid set entries servers lanes = .error (.laneOpeningFailed ids) →
      ∀ id ∈ ids, ∃ lane ∈ lanes, lane.nodeId = id ∧
        laneOpens scp lane (entries.map (fun e => (e.1, e.2.shareRoot))) = false

variable {C : SessionCrate} {cfg : ServerConfig C}

namespace RoundState

/-- The share roots of the posts held of some clients. -/
def roots (b : RoundState C) (clients : List ClientId) : List (ClientId × C.HVCPoly) :=
  clients.filterMap (fun c => (b.publics.get? c).map (fun e => (c, e.shareRoot)))

theorem roots_congr {b b' : RoundState C} (h : b'.publics = b.publics) (clients : List ClientId) :
    b'.roots clients = b.roots clients := by
  unfold roots
  rw [h]

/-- Two buckets with a post of every client, and the same root wherever both have one,
have the same roots. -/
theorem roots_eq_of_agree {b b' : RoundState C} : ∀ {clients : List ClientId},
    (∀ c ∈ clients, b.publics.contains c = true ∧ b'.publics.contains c = true) →
    (∀ c ∈ clients, ∀ e e', b.publics.get? c = some e → b'.publics.get? c = some e' →
      e.shareRoot = e'.shareRoot) →
    b.roots clients = b'.roots clients
  | [], _, _ => rfl
  | c :: clients, hheld, hagree => by
      obtain ⟨e, he⟩ := OrdMap.contains_iff.mp (hheld c List.mem_cons_self).1
      obtain ⟨e', he'⟩ := OrdMap.contains_iff.mp (hheld c List.mem_cons_self).2
      have hroot := hagree c List.mem_cons_self e e' he he'
      have ih : b.roots clients = b'.roots clients :=
        roots_eq_of_agree (fun c hc => hheld c (List.mem_cons_of_mem _ hc))
          (fun c hc => hagree c (List.mem_cons_of_mem _ hc))
      unfold roots at ih ⊢
      simp only [List.filterMap_cons, he, he', Option.map_some, hroot, ih]

/-- Every lane is filed under its own id. -/
def LanesKeyed (b : RoundState C) : Prop :=
  ∀ id lane payload, b.peerLaneSums.get? id = some (lane, payload) → lane.nodeId = id

/-- A lane that came with a payload is what its owner posted, in one of the calls. -/
def LanesPosted (cfg : ServerConfig C) (ops : List SessionOp) (r : Round) (b : RoundState C) :
    Prop :=
  ∀ id lane payload, b.peerLaneSums.get? id = some (lane, payload) → payload ≠ [] →
    ∃ server, ∃ posted : PostedShare cfg r id payload (server, lane),
      .inbound posted.owner payload ∈ ops

end RoundState

namespace ServerConfig
open RoundState

/-! ## What a decode names -/

theorem named_recoverLoop (K : LaneCheck C) {sid : SessionId} {set : List ClientId}
    {entries : List (ClientId × C.ClientEntry)} {id : NodeId} :
    ∀ (fuel : Nat) (servers : List C.ServerEntry) (lanes : List C.NodeEntry)
      (culprits : List NodeId),
      id ∈ (cfg.recoverLoop sid set entries fuel servers lanes culprits).2 →
      id ∈ culprits ∨ ∃ lane ∈ lanes, lane.nodeId = id ∧
        K.laneOpens cfg.scp lane (entries.map (fun e => (e.1, e.2.shareRoot))) = false := by
  intro fuel
  -- Each pass names lanes of the list it was given, and passes on a sublist.
  induction fuel with
  | zero => exact fun _ _ _ h => Or.inl h
  | succ fuel ih =>
    intro servers lanes culprits h
    rw [recoverLoop] at h
    split at h
    · exact Or.inl h
    · split at h
      · exact Or.inl h
      · exact ih _ lanes culprits h
      · exact ih _ lanes culprits h
      · rename_i ids herr
        rcases ih _ _ _ h with hmem | ⟨lane, hlane, hid, hopen⟩
        · rcases List.mem_append.mp hmem with hmem | hmem
          · exact Or.inl hmem
          · exact Or.inr (K.named cfg.rs_mode herr id hmem)
        · exact Or.inr ⟨lane, (List.mem_filter.mp hlane).1, hid, hopen⟩
      · exact Or.inl h

/-- A lane named in one decode attempt is held, is over the attempted set, every member
of which has posted, and does not open. -/
theorem named_recoverRs (K : LaneCheck C) {r : Round} {b : RoundState C} {set : List ClientId}
    {id : NodeId} (h : id ∈ (cfg.recoverRs r b set).2) :
    ∃ lane payload id', b.peerLaneSums.get? id' = some (lane, payload) ∧ lane.nodeId = id ∧
      (∀ c ∈ lane.clients, b.publics.contains c = true) ∧
      K.laneOpens cfg.scp lane (b.roots lane.clients) = false := by
  unfold recoverRs at h
  dsimp only at h
  split at h
  · exact absurd h (List.not_mem_nil)
  · rename_i hlen
    rcases cfg.named_recoverLoop K _ _ _ _ h with h | ⟨lane, hlane, hid, hopen⟩
    · exact absurd h (List.not_mem_nil)
    · obtain ⟨hlane, hover⟩ := List.mem_filter.mp hlane
      obtain ⟨⟨lane', payload⟩, hval, rfl⟩ := List.mem_map.mp hlane
      obtain ⟨id', hget⟩ := OrdMap.mem_values.mp hval
      obtain rfl := eq_of_beq hover
      refine ⟨lane', payload, id', hget, hid, ?_, ?_⟩
      · -- A member without a post would leave the list of posts short.
        intro c hc
        have hposted := List.filterMap_length_eq_length.mp (not_not.mp hlen) c hc
        rwa [Option.isSome_map] at hposted
      · rw [← hopen]
        congr 1
        unfold roots
        rw [List.map_filterMap]
        congr 1
        funext c
        cases b.publics.get? c <;> rfl

theorem named_tryDecode (K : LaneCheck C) {r : Round} {b : RoundState C} {id : NodeId} :
    ∀ {sets : List (List ClientId)}, id ∈ (cfg.tryDecode r b sets).2 →
      ∃ set, id ∈ (cfg.recoverRs r b set).2
  | [], h => absurd h (List.not_mem_nil)
  | first :: rest, h => by
      rw [tryDecode] at h
      split at h
      · exact named_tryDecode K h
      · dsimp only at h
        split at h
        · exact ⟨first, h⟩
        · rcases List.mem_append.mp h with h | h
          · exact ⟨first, h⟩
          · exact named_tryDecode K h

/-- **A fault of a decode names a held lane that does not open.**  It carries the payload
the lane came with. -/
theorem named_lane (K : LaneCheck C) {sets : OrdMap Round (List ClientId)} {r : Round}
    {b : RoundState C} {f : Fault} (hkeys : b.LanesKeyed) (h : f ∈ (cfg.decodeOne sets r b).2) :
    b.decoded = false ∧ ∃ id lane payload pk, b.peerLaneSums.get? id = some (lane, payload) ∧
      cfg.serverPubkeys.get? id = some pk ∧ f = ⟨.integrity, .peers [pk], payload⟩ ∧
      (∀ c ∈ lane.clients, b.publics.contains c = true) ∧
      K.laneOpens cfg.scp lane (b.roots lane.clients) = false := by
  unfold decodeOne at h
  split at h
  · exact absurd h (List.not_mem_nil)
  · rename_i hdec
    obtain ⟨id, hid, hf⟩ := List.mem_filterMap.mp h
    obtain ⟨⟨lane, payload⟩, hget, hf⟩ := Option.bind_eq_some_iff.mp hf
    obtain ⟨pk, hpk, hf⟩ := Option.bind_eq_some_iff.mp hf
    have hattempt : ∃ set, id ∈ (cfg.recoverRs r b set).2 := by
      unfold decodeRound at hid
      dsimp only at hid
      split at hid <;> exact named_tryDecode K hid
    obtain ⟨set, hset⟩ := hattempt
    obtain ⟨lane', payload', id', hget', hid', hposts, hopen⟩ := named_recoverRs K hset
    -- The lane that failed is the one filed under the id it carries.
    have hkey : id' = id := (hkeys id' lane' payload' hget').symm.trans hid'
    rw [hkey, hget] at hget'
    cases hget'
    exact ⟨Bool.not_eq_true _ ▸ hdec, id, lane, payload, pk, hget, hpk, (Option.some.inj hf).symm,
      hposts, hopen⟩

end ServerConfig

namespace ServerSession
open RoundState Trace
variable {s : ServerSession C}

/-! ## The lanes a bucket holds -/

/-- `lane` is the relay's own, of the share `w` that a call sends, made from bucket `b` and
the posts the session held before the call. -/
def OwnShare (cfg : ServerConfig C) (s : ServerSession C) (op : SessionOp) (r : Round)
    (b : RoundState C) (lane : C.NodeEntry) (w : PanetiereWire) : Prop :=
  w ∈ s.sent cfg op ∧
  ∃ b₀ clients sp laneOpen, s.rounds.get? r = some b₀ ∧ b.publics = b₀.publics ∧
    C.runServerRound cfg.serverId b.inboxItems clients = some sp ∧
    (∀ c ∈ clients, cfg.holds b c = true) ∧ cfg.laneShare b sp = some (lane, laneOpen) ∧
    w = cfg.shareWire (s.misbehavior = some .corruptShare) r sp lane laneOpen

/-- What a change does to the lanes a bucket holds. -/
theorem lanes_change {op : SessionOp} {r : Round} {b b' : RoundState C}
    (h : Change cfg s op r b b') {id : NodeId} {lane : C.NodeEntry} {payload : Bytes}
    (hget : b'.peerLaneSums.get? id = some (lane, payload)) :
    b.peerLaneSums.get? id = some (lane, payload) ∨
    (∃ server, ∃ posted : PostedShare cfg r id payload (server, lane),
      op = .inbound posted.owner payload) ∨
    (payload = [] ∧ id = cfg.serverId ∧ ∃ w, OwnShare cfg s op r b lane w) := by
  cases h with
  | claim cid signer max =>
    unfold claim at hget
    split at hget <;> exact Or.inl hget
  | post cid entry =>
    unfold ServerConfig.filePublic at hget
    split at hget
    · exact Or.inl hget
    · split at hget <;> exact Or.inl hget
  | opening cid sealed =>
    unfold ServerConfig.fileOpening at hget
    split at hget
    · exact Or.inl hget
    · split at hget <;> exact Or.inl hget
  | slice cid lane share path =>
    unfold ServerConfig.fileSlice at hget
    split at hget
    · exact Or.inl hget
    · split at hget <;> exact Or.inl hget
  | @peer payload' id' entries p hop =>
    obtain ⟨server, posted⟩ := entries
    unfold ServerConfig.filePeer at hget
    dsimp only at hget
    rw [p.ids.2, OrdMap.get?_insert] at hget
    split at hget
    · rename_i hid
      cases hget
      subst hid
      exact Or.inr (Or.inl ⟨server, p, hop⟩)
    · exact Or.inl hget
  | clientSet set posted buf => exact Or.inl hget
  | fix round =>
    rw [(publics_fixOne cfg round r b).2.2] at hget
    exact Or.inl hget
  | @emit b₀ sets round hop hb hposts hmade =>
    -- the own share is filed when it is emitted, and has no payload
    rcases emitOne_cases cfg sets (s.misbehavior = some .corruptShare) round r b with
      ⟨he, -⟩ | ⟨clients, sp, own, laneOpen, hsp, hheld, hown, he, hsome⟩
    · rw [he] at hget
      exact Or.inl hget
    · rw [he, OrdMap.get?_insert] at hget
      split at hget
      · rename_i hid
        cases hget
        exact Or.inr (Or.inr ⟨rfl, hid, _, hmade _ hsome, b₀, clients, sp, laneOpen, hb, hposts,
          hsp, hheld, hown, rfl⟩)
      · exact Or.inl hget
  | decode sets =>
    unfold ServerConfig.afterDecode at hget
    split at hget
    · cases hget
    · exact Or.inl hget

/-- What changes, one after another, do to the lanes a bucket holds. -/
theorem lanes_changes {op : SessionOp} {r : Round} {b b' : RoundState C}
    (h : Changes cfg s op r b b') {id : NodeId} {lane : C.NodeEntry} {payload : Bytes}
    (hget : b'.peerLaneSums.get? id = some (lane, payload)) :
    b.peerLaneSums.get? id = some (lane, payload) ∨
    (∃ server, ∃ posted : PostedShare cfg r id payload (server, lane),
      op = .inbound posted.owner payload) ∨
    (payload = [] ∧ id = cfg.serverId ∧ ∃ b₁ w, Changes cfg s op r b b₁ ∧
      OwnShare cfg s op r b₁ lane w) := by
  induction h with
  | refl => exact Or.inl hget
  | tail hpre hstep ih =>
    rcases lanes_change hstep hget with hold | hposted | ⟨hnil, hid, w, hown⟩
    · exact ih hold
    · exact Or.inr (Or.inl hposted)
    · exact Or.inr (Or.inr ⟨hnil, hid, _, w, hpre, hown⟩)

/-- The relay's own lane carries its id. -/
theorem nodeId_laneShare (K : LaneCheck C) {b : RoundState C} {sp : C.ServerEntry}
    {lane : C.NodeEntry} {laneOpen : Bytes} (h : cfg.laneShare b sp = some (lane, laneOpen)) :
    lane.nodeId = cfg.serverId ∧ lane.clients = sp.clients := by
  obtain ⟨lane', hlane, h⟩ := Option.bind_eq_some_iff.mp h
  obtain ⟨open', -, h⟩ := Option.bind_eq_some_iff.mp h
  cases h
  exact K.made hlane

/-- Both properties of a bucket's lanes survive every change. -/
theorem lanes_kept (K : LaneCheck C) {ops : List SessionOp} {op : SessionOp} {r : Round}
    {b b' : RoundState C} (h : Change cfg s op r b b')
    (hb : b.LanesKeyed ∧ b.LanesPosted cfg (ops ++ [op]) r) :
    b'.LanesKeyed ∧ b'.LanesPosted cfg (ops ++ [op]) r := by
  constructor
  · intro id lane payload hget
    rcases lanes_change h hget with hold | ⟨server, p, -⟩ | ⟨-, rfl, _, -, _, _, sp, laneOpen,
      -, -, -, -, hown, -⟩
    · exact hb.1 id lane payload hold
    · exact p.ids.2
    · exact (nodeId_laneShare K hown).1
  · intro id lane payload hget hne
    rcases lanes_change h hget with hold | ⟨server, p, hop⟩ | ⟨hnil, -⟩
    · exact hb.2 id lane payload hold hne
    · exact ⟨server, p, by rw [hop]; simp⟩
    · exact absurd hnil hne

/-- What came in one of the calls came in one of more. -/
theorem lanesPosted_mono {ops : List SessionOp} {op : SessionOp} {r : Round} {b : RoundState C}
    (h : b.LanesPosted cfg ops r) : b.LanesPosted cfg (ops ++ [op]) r := by
  intro id lane payload hget hne
  obtain ⟨server, p, hmem⟩ := h id lane payload hget hne
  exact ⟨server, p, List.mem_append_left _ hmem⟩

/-- In every run, a held lane is filed under its id, and is its owner's post if it came
with a payload. -/
theorem lanes_after (K : LaneCheck C) (ops : List SessionOp) {r : Round} {b : RoundState C}
    (h : (after cfg ops).rounds.get? r = some b) : b.LanesKeyed ∧ b.LanesPosted cfg ops r := by
  refine bucket_invariant (P := fun ops r b => b.LanesKeyed ∧ b.LanesPosted cfg ops r) ?_ ?_ ?_
    ops h
  · intro _ _
    constructor
    · intro _ _ _ hnone
      cases hnone
    · intro _ _ _ hnone
      cases hnone
  · intro _ _ _ _ hb
    exact ⟨hb.1, lanesPosted_mono hb.2⟩
  · intro _ _ _ _ _ hchg hb
    exact lanes_kept K hchg hb

/-! ## Faults -/

/-- The faults of a call. -/
def faultsBy (cfg : ServerConfig C) (s : ServerSession C) : SessionOp → List Fault
  | .endRound round => (s.endRound cfg round).2.faults
  | _ => []

/-- Every fault of a run. -/
def faults (cfg : ServerConfig C) (ops : List SessionOp) : List Fault :=
  observed new (apply cfg) (faultsBy cfg) ops

/-- **Where a fault of a call comes from**: a lane of an undecoded bucket, which does not
open against the posts of the bucket. -/
theorem fault_of_faultsBy (K : LaneCheck C) {ops : List SessionOp} {op : SessionOp} {f : Fault}
    (h : f ∈ faultsBy cfg (after cfg ops) op) :
    ∃ round r b b' id lane payload pk, op = .endRound round ∧
      (after cfg ops).rounds.get? r = some b ∧ b.decoded = false ∧ Carried b b' ∧
      Changes cfg (after cfg ops) op r b b' ∧ b'.LanesPosted cfg (ops ++ [op]) r ∧
      b'.peerLaneSums.get? id = some (lane, payload) ∧ cfg.serverPubkeys.get? id = some pk ∧
      f = ⟨.integrity, .peers [pk], payload⟩ ∧
      (∀ c ∈ lane.clients, b.publics.contains c = true) ∧
      K.laneOpens cfg.scp lane (b.roots lane.clients) = false := by
  cases op with
  | endRound round =>
    obtain ⟨⟨r, b'⟩, hmem, hf⟩ := List.mem_flatMap.mp h
    obtain ⟨b, hb, hcar, hchg⟩ := changes_emitted (OrdMap.get?_eq_some_iff.mpr hmem)
    have hbefore := lanes_after K ops hb
    have hlanes : b'.LanesKeyed ∧ b'.LanesPosted cfg (ops ++ [.endRound round]) r :=
      hchg.keep (fun _ _ hstep => lanes_kept K hstep) ⟨hbefore.1, lanesPosted_mono hbefore.2⟩
    obtain ⟨hdec, id, lane, payload, pk, hget, hpk, rfl, hposts, hopen⟩ :=
      ServerConfig.named_lane K hlanes.1 hf
    rw [hcar.publics] at hposts
    rw [roots_congr hcar.publics] at hopen
    rw [hcar.decoded] at hdec
    exact ⟨round, r, b, b', id, lane, payload, pk, rfl, hb, hdec, hcar, hchg, hlanes.2, hget, hpk,
      rfl, hposts, hopen⟩
  | beginRound round => exact absurd h (List.not_mem_nil)
  | inbound sender payload => exact absurd h (List.not_mem_nil)
  | checkpoint round k => exact absurd h (List.not_mem_nil)
  | setMisbehavior mode => exact absurd h (List.not_mem_nil)

end ServerSession
end Anymone
