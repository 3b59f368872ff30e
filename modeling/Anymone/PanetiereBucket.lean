import Mathlib.Logic.Relation
import Anymone.PanetiereRun

/-! # What a call does to a bucket

A call changes the bucket of a round in a few ways (`Change`), each named with where it
comes from: a peer's entries come from a payload that the owner of the slot signed, a
relay's own lane from its share.  After a call a bucket is what such changes made of
the bucket before it (`changes_apply`), so that what every change keeps holds of every
bucket of a run (`bucket_invariant`).
-/

namespace Anymone
variable {C : SessionCrate}

/-- A payload that the owner of slot `id` sent and signed as its share of round `r`, and
what it unpacks to. -/
structure PostedShare (cfg : ServerConfig C) (r : Round) (id : U32) (payload : Bytes)
    (entries : C.ServerEntry × C.NodeEntry) where
  clients : List U32
  aggOpen : Bytes
  aggShare : Bytes
  shareSum : Bytes
  laneOpen : Bytes
  signature : Bytes
  owner : Pubkey
  message : PanetiereWire.deserialize payload =
    some (.serverPublic r id clients aggOpen aggShare shareSum laneOpen signature)
  slot : cfg.serverPubkeys.get? id = some owner
  verified : C.pubkeyVerify owner (serverPublicSigningBytes r id clients aggOpen aggShare shareSum
    laneOpen) signature = true
  unpacks : cfg.unpackServerPublic id clients aggOpen aggShare shareSum laneOpen = some entries

namespace PostedShare
variable {cfg : ServerConfig C} {r : Round} {id : U32} {payload : Bytes}
  {entries : C.ServerEntry × C.NodeEntry}

/-- What the entries of a posted share were read from. -/
theorem unpacked (p : PostedShare cfg r id payload entries) :
    ∃ packed opening csShare laneShareSum laneOpening,
      C.packedOpeningFromBytes p.aggOpen = some packed ∧
      C.openingFromPacked packed = some opening ∧
      C.unpackCsShares p.aggShare (C.muCs packed) = some [csShare] ∧
      C.unpackShare p.shareSum cfg.scp.blockLen = some laneShareSum ∧
      C.shareOpeningFromBytes cfg.scp id.val p.laneOpen = some laneOpening ∧
      entries = (⟨id, p.clients, opening, csShare⟩, ⟨id, p.clients, laneShareSum, laneOpening⟩) := by
  have h := p.unpacks
  unfold ServerConfig.unpackServerPublic at h
  obtain ⟨packed, hpacked, h⟩ := Option.bind_eq_some_iff.mp h
  obtain ⟨opening, hopening, h⟩ := Option.bind_eq_some_iff.mp h
  obtain ⟨shares, hshares, h⟩ := Option.bind_eq_some_iff.mp h
  split at h
  · rename_i csShare
    obtain ⟨laneShareSum, hsum, h⟩ := Option.bind_eq_some_iff.mp h
    obtain ⟨laneOpening, hopen, h⟩ := Option.bind_eq_some_iff.mp h
    exact ⟨packed, opening, csShare, laneShareSum, laneOpening, hpacked, hopening, hshares, hsum,
      hopen, (Option.some.inj h).symm⟩
  · cases h

/-- A posted share is filed under its own slot. -/
theorem ids (p : PostedShare cfg r id payload entries) :
    entries.1.serverId = id ∧ entries.2.nodeId = id := by
  obtain ⟨_, _, _, _, _, -, -, -, -, -, he⟩ := p.unpacked
  rw [he]
  exact ⟨rfl, rfl⟩

/-- No posted share is empty. -/
theorem payload_ne_nil (p : PostedShare cfg r id payload entries) : payload ≠ [] := by
  rintro rfl
  have hnil : PanetiereWire.deserialize [] = none := rfl
  exact absurd p.message (by rw [hnil]; exact Option.some_ne_none _ ∘ Eq.symm)

end PostedShare

namespace ServerSession
open RoundState

/-- One change that a call makes to the bucket of round `r`. -/
inductive Change (cfg : ServerConfig C) (s : ServerSession C) (op : SessionOp) (r : Round) :
    RoundState C → RoundState C → Prop where
  | claim {b} (cid : ClientId) (signer : Pubkey) (max : U64) :
      Change cfg s op r b (b.claim cid signer max).1
  | post {b} (cid : ClientId) (entry : Bytes) : Change cfg s op r b (cfg.filePublic r cid entry b)
  | opening {b} (cid : ClientId) (sealed : Bytes) :
      Change cfg s op r b (cfg.fileOpening r cid sealed b)
  | slice {b} (cid : ClientId) (lane : U32) (share path : Bytes) :
      Change cfg s op r b (cfg.fileSlice cid lane share path b)
  /-- A peer's share, from a payload this call received. -/
  | peer {b} {payload : Bytes} {id : U32} {entries : C.ServerEntry × C.NodeEntry}
      (p : PostedShare cfg r id payload entries) (hop : op = .inbound p.owner payload) :
      Change cfg s op r b (ServerConfig.filePeer entries payload b)
  | clientSet {b} (set : Option (SetServer C.toSetCrate)) (posted : List (ClientId × C.Pk))
      (buf : List (Relay C.toSetCrate)) :
      Change cfg s op r b { b with set := set, pendingBulletins := posted, relayBuf := buf }
  | fix {b} (round : Round) : Change cfg s op r b (cfg.fixOne round r b)
  /-- The relay's own share, made at the end of a round from the posts it held before. -/
  | emit {b b₀} (sets : OrdMap Round (List ClientId)) (round : Round) (hop : op = .endRound round)
      (hb : s.rounds.get? r = some b₀) (hposts : b.publics = b₀.publics)
      (hmade : ∀ w, (cfg.emitOne sets (s.misbehavior = some .corruptShare) round r b).2 = some w →
        w ∈ s.sent cfg op) :
      Change cfg s op r b (cfg.emitOne sets (s.misbehavior = some .corruptShare) round r b).1
  | decode {b} (sets : OrdMap Round (List ClientId)) : Change cfg s op r b (cfg.afterDecode sets r b)

/-- Changes, one after another. -/
abbrev Changes (cfg : ServerConfig C) (s : ServerSession C) (op : SessionOp) (r : Round) :
    RoundState C → RoundState C → Prop :=
  Relation.ReflTransGen (Change cfg s op r)

variable {cfg : ServerConfig C} {s : ServerSession C} {op : SessionOp} {r : Round}
  {b b' : RoundState C}

/-- A client's message changes the bucket by its claim, then by what it stores. -/
theorem changes_claimed {store : RoundState C → RoundState C × List PanetiereWire} (cid : ClientId)
    (signer : Pubkey) (max : U64) (h : ∀ b, Changes cfg s op r b (store b).1) :
    Changes cfg s op r b (b.claimed cid signer max store).1 := by
  have hclaim : Changes cfg s op r b (b.claim cid signer max).1 := .single (.claim cid signer max)
  rcases b.claimed_cases cid signer max store with he | he
  · rw [he]
    exact hclaim
  · rw [he]
    exact hclaim.trans (h _)

theorem changes_fileRelay (relay : Relay C.toSetCrate) :
    Changes cfg s op r b (ServerConfig.fileRelay relay b) := by
  unfold ServerConfig.fileRelay
  split
  · exact .single (.clientSet b.set b.pendingBulletins (b.relayBuf ++ [relay]))
  · exact .refl

/-- **What filing a message does to its bucket.**  One case per message of the wire. -/
theorem changes_file {sender : PeerId} {payload : Bytes} {msg : PanetiereWire}
    {f : RoundState C → RoundState C × List PanetiereWire}
    (hmsg : PanetiereWire.deserialize payload = some msg) (hop : op = .inbound sender payload)
    (h : cfg.file sender payload msg = some f) (b : RoundState C) :
    Changes cfg s op msg.round b (f b).1 := by
  cases msg with
  | clientPublic round cid entry signer signature =>
    simp only [ServerConfig.file] at h
    split at h
    · cases h
      exact changes_claimed cid signer _ (fun _ => .single (.post cid entry))
    · cases h
  | opening round cid target sealed signer signature =>
    simp only [ServerConfig.file] at h
    split at h
    · cases h
      exact changes_claimed cid signer _ (fun _ => .single (.opening cid sealed))
    · cases h
  | clientSlice round cid lane share path signer signature =>
    simp only [ServerConfig.file] at h
    split at h
    · cases h
      exact changes_claimed cid signer _ (fun _ => .single (.slice cid lane share path))
    · cases h
  | serverPublic round sid clients aggOpen aggShare shareSum laneOpen signature =>
    obtain ⟨expected, hslot, h⟩ := Option.bind_eq_some_iff.mp h
    split at h
    · rename_i hauth
      obtain ⟨entries, hentries, h⟩ := Option.bind_eq_some_iff.mp h
      cases h
      -- a share is kept with the payload it came in, as evidence
      obtain ⟨rfl, hsig⟩ := hauth
      exact .single (.peer ⟨clients, aggOpen, aggShare, shareSum, laneOpen, signature, sender, hmsg,
        hslot, hsig, hentries⟩ hop)
    · cases h
  | bundle round cid lane data signer signature =>
    obtain ⟨⟨signerKey, pks⟩, -, h⟩ := Option.bind_eq_some_iff.mp h
    dsimp only at h
    split at h
    · obtain ⟨⟨unpacked, used⟩, -, h⟩ := Option.bind_eq_some_iff.mp h
      dsimp only at h
      split at h
      · cases h
        exact changes_claimed cid signer _
          (fun b => .single (.clientSet _ b.pendingBulletins b.relayBuf))
      · cases h
    · cases h
  | setFragment round cid target data signer signature =>
    obtain ⟨⟨signerKey, pks⟩, -, h⟩ := Option.bind_eq_some_iff.mp h
    dsimp only at h
    split at h
    · obtain ⟨fragment, -, h⟩ := Option.bind_eq_some_iff.mp h
      split at h
      · cases h
        exact changes_claimed cid signer _
          (fun b => .single (.clientSet _ b.pendingBulletins b.relayBuf))
      · cases h
    · cases h
  | setRelay round data =>
    simp only [ServerConfig.file] at h
    split at h
    · obtain ⟨relay, -, rfl⟩ := Option.map_eq_some_iff.mp h
      exact changes_fileRelay relay
    · cases h
  | setBatch => cases h
  | decoded => cases h
  | reservations => cases h
  | clientSet => cases h

/-- The buckets after a payload: the one of its round is filed into. -/
theorem changes_onInbound {sender : PeerId} {payload : Bytes} (hop : op = .inbound sender payload)
    (h : (s.onInbound cfg sender payload).1.rounds.get? r = some b') :
    Changes cfg s op r ((s.rounds.get? r).getD default) b' := by
  rcases s.onInbound_cases cfg sender payload with he | ⟨round, clients, _, -, -, he⟩ |
    ⟨msg, f, hmsg, -, hf, he⟩
  · rw [he] at h
    rw [h]
    exact .refl
  · rw [he, (s.adopt_rounds cfg sender round clients).1] at h
    rw [h]
    exact .refl
  · rw [he] at h
    unfold entry at h
    dsimp only at h
    rw [OrdMap.get?_insert] at h
    split at h
    · rename_i hr
      cases h
      rw [hr]
      exact changes_file hmsg hop hf _
    · rw [h]
      exact .refl

/-- The buckets after a checkpoint: only the client set of its round's is worked on. -/
theorem changes_checkpoint {round : Round} {k : U8}
    (h : (s.checkpoint cfg round k).1.rounds.get? r = some b') :
    Changes cfg s op r ((s.rounds.get? r).getD default) b' := by
  have keep : ∀ {b}, s.rounds.get? r = some b → Changes cfg s op r ((s.rounds.get? r).getD default) b := by
    intro b hb
    rw [hb]
    exact .refl
  have write : ∀ {b : RoundState C} {set posted buf}, s.rounds.get? round = some b →
      (s.rounds.insert round
        { b with set := set, pendingBulletins := posted, relayBuf := buf }).get? r = some b' →
      Changes cfg s op r ((s.rounds.get? r).getD default) b' := by
    intro b set posted buf hb hget
    rw [OrdMap.get?_insert] at hget
    split at hget
    · rename_i hr
      cases hget
      rw [hr, hb]
      exact .single (.clientSet set posted buf)
    · exact keep hget
  unfold checkpoint at h
  split at h
  · exact keep h
  · split at h
    · unfold publishBatch at h
      split at h
      · exact keep h
      · rename_i hb
        dsimp only at h
        split at h <;> exact write hb h
    · split at h
      · unfold absorbRelays at h
        split at h
        · exact keep h
        · rename_i hb
          dsimp only at h
          split at h <;> exact write hb h
      · exact keep h

/-! ## The end of a round -/

theorem publics_fixOne (cfg : ServerConfig C) (round r : Round) (b : RoundState C) :
    (cfg.fixOne round r b).publics = b.publics ∧ (cfg.fixOne round r b).decoded = b.decoded ∧
      (cfg.fixOne round r b).peerLaneSums = b.peerLaneSums := by
  unfold ServerConfig.fixOne
  split
  · exact ⟨rfl, rfl, rfl⟩
  · split <;> exact ⟨rfl, rfl, rfl⟩

/-- A bucket after the set half of `end_round` comes from one before it. -/
theorem settled_bucket {round : Round} (h : (s.settle cfg round).1.rounds.get? r = some b') :
    ∃ b, s.rounds.get? r = some b ∧ (b' = b ∨ b' = cfg.fixOne round r b) := by
  rw [settle_rounds] at h
  by_cases hc : cfg.consensus = true
  · rw [if_pos hc, OrdMap.get?_mapVals, Option.map_eq_some_iff] at h
    obtain ⟨b, hb, rfl⟩ := h
    exact ⟨b, hb, Or.inr rfl⟩
  · rw [if_neg hc] at h
    exact ⟨b', h, Or.inl rfl⟩

/-- **What emission does to a bucket.**  Either there is no share, and the peers' stay as
they are, or the relay's own lane is filed and the share that it signs is sent. -/
theorem emitOne_cases (cfg : ServerConfig C) (sets : OrdMap Round (List ClientId)) (corrupt : Bool)
    (round r : Round) (b : RoundState C) :
    ((cfg.emitOne sets corrupt round r b).1.peerLaneSums = b.peerLaneSums ∧
      (cfg.emitOne sets corrupt round r b).2 = none) ∨
    ∃ clients sp lane laneOpen, C.runServerRound cfg.serverId b.inboxItems clients = some sp ∧
      (∀ c ∈ clients, cfg.holds b c = true) ∧ cfg.laneShare b sp = some (lane, laneOpen) ∧
      (cfg.emitOne sets corrupt round r b).1.peerLaneSums =
        b.peerLaneSums.insert cfg.serverId (lane, []) ∧
      (cfg.emitOne sets corrupt round r b).2 = some (cfg.shareWire corrupt r sp lane laneOpen) := by
  unfold ServerConfig.emitOne
  split
  · exact Or.inl ⟨rfl, rfl⟩
  · split
    · exact Or.inl ⟨rfl, rfl⟩
    · rename_i clients hclients
      split
      · exact Or.inl ⟨rfl, rfl⟩
      · rename_i hheld
        simp only [Bool.or_eq_true, not_or, Bool.not_eq_true, Bool.not_eq_false',
          List.all_eq_true] at hheld
        split
        · exact Or.inl ⟨rfl, rfl⟩
        · rename_i sp hsp
          split
          · exact Or.inl ⟨rfl, rfl⟩
          · rename_i lane laneOpen hlane
            exact Or.inr ⟨clients, sp, lane, laneOpen, hsp, hheld.2, hlane, rfl, rfl⟩

/-- What emission leaves alone in a bucket. -/
theorem publics_emitOne (cfg : ServerConfig C) (sets : OrdMap Round (List ClientId))
    (corrupt : Bool) (round r : Round) (b : RoundState C) :
    (cfg.emitOne sets corrupt round r b).1.publics = b.publics ∧
      (cfg.emitOne sets corrupt round r b).1.decoded = b.decoded := by
  unfold ServerConfig.emitOne
  repeat' split
  all_goals exact ⟨rfl, rfl⟩

/-- A posted lane that is there after emission was there before it: a relay's own comes
without a payload. -/
theorem posted_emitOne {sets : OrdMap Round (List ClientId)} {corrupt : Bool} {round : Round}
    {id : NodeId} {lane : C.NodeEntry} {payload : Bytes} (hne : payload ≠ [])
    (h : (cfg.emitOne sets corrupt round r b).1.peerLaneSums.get? id = some (lane, payload)) :
    b.peerLaneSums.get? id = some (lane, payload) := by
  rcases emitOne_cases cfg sets corrupt round r b with ⟨he, -⟩ | ⟨_, _, _, _, -, -, -, he, -⟩
  · rw [← he]
    exact h
  · rw [he, OrdMap.get?_insert] at h
    split at h
    · cases h
      exact absurd rfl hne
    · exact h

/-- What a bucket that `decode_settled` reads has kept from before the call. -/
structure Carried (b b' : RoundState C) : Prop where
  publics : b'.publics = b.publics
  decoded : b'.decoded = b.decoded
  posted : ∀ {id lane payload}, payload ≠ [] → b'.peerLaneSums.get? id = some (lane, payload) →
    b.peerLaneSums.get? id = some (lane, payload)

/-- A bucket that `decode_settled` reads comes from one before the call. -/
theorem changes_emitted {round : Round}
    (h : ((s.settle cfg round).1.emitServerPublics cfg round).1.rounds.get? r = some b') :
    ∃ b, s.rounds.get? r = some b ∧ Carried b b' ∧ Changes cfg s (.endRound round) r b b' := by
  have settled : ∀ {b₁}, (s.settle cfg round).1.rounds.get? r = some b₁ →
      ∃ b, s.rounds.get? r = some b ∧ Carried b b₁ ∧ Changes cfg s (.endRound round) r b b₁ := by
    intro b₁ hb₁
    obtain ⟨b, hb, rfl | rfl⟩ := settled_bucket hb₁
    · exact ⟨b₁, hb, ⟨rfl, rfl, fun _ h => h⟩, .refl⟩
    · obtain ⟨hposts, hdec, hlanes⟩ := publics_fixOne cfg round r b
      exact ⟨b, hb, ⟨hposts, hdec, fun _ h => by rw [← hlanes]; exact h⟩, .single (.fix round)⟩
  have hmis := (s.settle_frame cfg round).2
  unfold emitServerPublics at h
  split at h
  · exact settled h
  · rename_i hwith
    rw [hmis] at hwith
    have hget : (((s.settle cfg round).1.rounds.mapVals fun r b =>
        (cfg.emitOne (s.settle cfg round).1.clientSetByRound (s.misbehavior = some .corruptShare)
          round r b).1).get? r) = some b' := by
      rw [← hmis]
      exact h
    rw [OrdMap.get?_mapVals, Option.map_eq_some_iff] at hget
    obtain ⟨b₁, hb₁, rfl⟩ := hget
    obtain ⟨b, hb, hcar, hchg⟩ := settled hb₁
    refine ⟨b, hb, ?_, hchg.tail (.emit _ round rfl hb hcar.publics ?_)⟩
    · obtain ⟨hposts, hdec⟩ := publics_emitOne cfg (s.settle cfg round).1.clientSetByRound
        (s.misbehavior = some .corruptShare) round r b₁
      exact ⟨hposts.trans hcar.publics, hdec.trans hcar.decoded,
        fun hne h => hcar.posted hne (posted_emitOne hne h)⟩
    · intro w hw
      have hmem : w ∈ ((s.settle cfg round).1.emitServerPublics cfg round).2 := by
        unfold emitServerPublics
        rw [hmis, if_neg hwith]
        exact List.mem_filterMap.mpr ⟨(r, b₁), OrdMap.get?_eq_some_iff.mp hb₁, hw⟩
      exact List.mem_append_left _ (List.mem_append_right _ hmem)

/-- **A bucket after a call is what changes made of the one before it.** -/
theorem changes_apply (h : (s.apply cfg op).rounds.get? r = some b') :
    Changes cfg s op r ((s.rounds.get? r).getD default) b' := by
  have same : s.rounds.get? r = some b' → Changes cfg s op r ((s.rounds.get? r).getD default) b' := by
    intro hb
    rw [hb]
    exact .refl
  cases op with
  | beginRound round => exact same h
  | inbound sender payload => exact changes_onInbound rfl h
  | checkpoint round k => exact changes_checkpoint h
  | endRound round =>
    have hget : ((((s.settle cfg round).1.emitServerPublics cfg round).1.rounds.mapVals
        (cfg.afterDecode ((s.settle cfg round).1.emitServerPublics cfg round).1.clientSetByRound)).get? r)
          = some b' := by
      have hret : ((((s.settle cfg round).1.emitServerPublics cfg round).1.decodeSettled
          cfg).1.rounds.retain
            (fun r _ => decide (round.saturatingSub panetiereRoundRetention ≤ r))).get? r =
          some b' := h
      rw [OrdMap.get?_retain, Option.filter_eq_some_iff] at hret
      exact hret.1
    rw [OrdMap.get?_mapVals, Option.map_eq_some_iff] at hget
    obtain ⟨b₁, hb₁, rfl⟩ := hget
    obtain ⟨b, hb, -, hchg⟩ := changes_emitted hb₁
    rw [hb]
    exact hchg.tail (.decode _)
  | setMisbehavior mode => exact same h

/-- What every change keeps is kept by changes one after another. -/
theorem Changes.keep {P : RoundState C → Prop} (h : Changes cfg s op r b b')
    (hstep : ∀ b b', Change cfg s op r b b' → P b → P b') (hb : P b) : P b' := by
  induction h with
  | refl => exact hb
  | tail _ hchg ih => exact hstep _ _ hchg ih

/-- **The rule for buckets.**  What holds of a fresh bucket and survives every change
holds of every bucket, after every run; the property may look at the calls so far. -/
theorem bucket_invariant {P : List SessionOp → Round → RoundState C → Prop}
    (h0 : ∀ ops r, P ops r default)
    (hmono : ∀ ops op r b, P ops r b → P (ops ++ [op]) r b)
    (hstep : ∀ ops op r b b', Change cfg (after cfg ops) op r b b' → P (ops ++ [op]) r b →
      P (ops ++ [op]) r b')
    (ops : List SessionOp) {r : Round} {b : RoundState C}
    (h : (after cfg ops).rounds.get? r = some b) : P ops r b := by
  induction ops using List.reverseRecOn generalizing r b with
  | nil => cases h
  | append_singleton ops op ih =>
    rw [after_concat] at h
    have hstart : P (ops ++ [op]) r (((after cfg ops).rounds.get? r).getD default) := by
      cases hb : (after cfg ops).rounds.get? r with
      | none => exact h0 _ r
      | some b₀ => exact hmono ops op r b₀ (ih hb)
    exact (changes_apply h).keep (hstep ops op r) hstart

end ServerSession
end Anymone
