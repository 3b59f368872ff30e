import Anymone.PanetierePost
import Anymone.Participation
import Anymone.SlotVector

/-! # The client session of a Panetière subnet

`PanetiereClientSession`: a payload is encoded when it is staged and posted when the round begins.
A session that lacks the exchange key of some relay posts nothing, but takes what is staged all the
same.
-/

namespace Anymone

/-- What the client session takes from the crates it is built on. -/
structure ChannelCrate extends PostCrate where
  /-- `gen::<f32>() < rate`, the rate by its bits. -/
  genBelow : Rng → U32 → Bool × Rng
  /-- `ChannelParams::max_payload_bytes`. -/
  maxPayloadBytes : ChannelParams → Nat
  /-- `ChannelParams::n_polys`. -/
  nPolys : ChannelParams → Nat
  /-- `channel::encode_message`; `none` is its error. -/
  encodeMessage : Rng → ChannelParams → Bytes → Option (List KahePoly) × Rng
  /-- `channel::cover`. -/
  cover : ChannelParams → List KahePoly
  /-- An encoded message has the channel's width. -/
  length_encodeMessage : ∀ {rng ch payload polys}, (encodeMessage rng ch payload).1 = some polys →
    polys.length = nPolys ch
  /-- The output of a client round seals an opening for every server it was given. -/
  length_sealedOpenings : ∀ rng pp sid cid servers plaintext key,
    (finalizeRound (newClientRound rng pp sid cid servers) pp sid plaintext
      key).sealedOpenings.length = servers.length
  /-- It has a share and a path for every lane. -/
  length_lanes : ∀ round pp sid plaintext key,
    (finalizeRound round pp sid plaintext key).rsShares.length = pp.rs.n ∧
      (finalizeRound round pp sid plaintext key).sharePaths.length = pp.rs.n
  /-- The digits of a fresh path can be packed. -/
  packs_path : ∀ round pp sid plaintext key,
    ∀ path ∈ (finalizeRound round pp sid plaintext key).sharePaths, (pathToBytes path).isSome

/-- What a `PanetiereClientSession` is built with. -/
structure PanetiereClientConfig (C : ChannelCrate) extends ClientConfig C.toPostCrate where
  mse : C.ChannelParams
  /-- `params_for` sizes the rounds for the channel. -/
  sized : C.nPolys mse ≤ C.messagePolys pp

/-- `PanetiereClientSession`. -/
structure PanetiereClientSession (C : ChannelCrate) extends PostState C.toPostCrate where
  cfg : PanetiereClientConfig C
  pending : Option (List C.KahePoly)
  /-- The bits of an `f32`. -/
  coverRate : U32
  coverRng : C.Rng
  rRng : C.Rng

/-- The calls of a session beside its rounds: a checkpoint prepares the next round or builds the
repair of one, and a receipt batch comes in. -/
inductive ClientCall where
  | prepare (round : Round)
  | batch (round : Round) (data : Bytes)
  | repair (round : Round)

variable {C : ChannelCrate}

/-- `resize` to the width of a round. -/
def PanetiereClientConfig.pad (cfg : PanetiereClientConfig C) (polys : List C.KahePoly) :
    List C.KahePoly :=
  SlotVector.resize C.kaheZero (C.messagePolys cfg.pp) polys

namespace PanetiereClientSession
variable (s : PanetiereClientSession C)

/-- `PanetiereClientSession::new`. -/
def new (cfg : PanetiereClientConfig C) : PanetiereClientSession C where
  clientRound := none
  setRounds := .empty
  cfg := cfg
  pending := none
  coverRate := AnymoneInner.oneBits
  coverRng := C.fromSeed (tweakSeed 0xA5 cfg.rngSeed)
  rRng := C.fromSeed (tweakSeed 0x3C cfg.rngSeed)

/-- `stage`: it overwrites a message staged but not yet posted. -/
def stage (payload : Bytes) : PanetiereClientSession C :=
  if C.maxPayloadBytes s.cfg.mse < payload.length then s
  else
    let encoded := C.encodeMessage s.rRng s.cfg.mse payload
    match encoded.1 with
    | none => { s with rRng := encoded.2 }
    | some polys => { s with rRng := encoded.2, pending := some (s.cfg.pad polys) }

/-- The message of a round, with the cover coin's next state: what is staged, else cover if the
coin says so. -/
def message : Option (List C.KahePoly) × C.Rng :=
  match s.pending with
  | some msg => (some msg, s.coverRng)
  | none =>
      let coin := C.genBelow s.coverRng s.coverRate
      (if coin.1 then some (s.cfg.pad (C.cover s.cfg.mse)) else none, coin.2)

/-- `finalize_staged`; `none` is a call that does not return. -/
def finalizeStaged (round : Round) : Option (PanetiereClientSession C × List PanetiereWire) :=
  -- A partial set of relay keys would poison the servers' all-or-nothing rounds.
  if !s.cfg.complete then some (s, [])
  else
    let drawn := { s with pending := none, coverRng := s.message.2 }
    match s.message.1 with
    | none => some (drawn, [])
    | some msg => (s.cfg.post s.toPostState round msg).map
        (fun posted => ({ drawn with toPostState := posted.1 }, posted.2))

/-- What `finalize_round` posts: a payload's message, or cover. -/
def encoded (payload : Option Bytes) : Option (List C.KahePoly) × C.Rng :=
  match payload with
  | some payload =>
      if C.maxPayloadBytes s.cfg.mse < payload.length then (none, s.rRng)
      else C.encodeMessage s.rRng s.cfg.mse payload
  | none => (some (C.cover s.cfg.mse), s.rRng)

/-- `finalize_round`, which does not wait for the round to begin; `none` is an error, or a call
that does not return. -/
def finalizeRound (round : Round) (payload : Option Bytes) :
    PanetiereClientSession C × Option (List PanetiereWire) :=
  let drawn := { s with rRng := (s.encoded payload).2 }
  match (s.encoded payload).1 with
  | none => (drawn, none)
  | some message =>
      match { drawn with pending := some (s.cfg.pad message) }.finalizeStaged round with
      | none => (s, none)
      | some posted => (posted.1, some posted.2)

/-- `begin_round`, with a call that does not return leaving the session as it was. -/
def beginRound (round : Round) : PanetiereClientSession C :=
  ((s.finalizeStaged round).map Prod.fst).getD s

/-- Any other call; one that fails leaves the session as it was. -/
def call : ClientCall → PanetiereClientSession C
  | .prepare round => { s with toPostState := s.cfg.prepareRound s.toPostState round }
  | .batch round data =>
      { s with toPostState :=
          (s.cfg.acceptReceiptBatch s.toPostState round data).toOption.getD s.toPostState }
  | .repair round =>
      { s with toPostState :=
          ((s.cfg.buildRepair s.toPostState round).map Prod.fst).getD s.toPostState }

end PanetiereClientSession

/-- The messages of a round that carry a plaintext. -/
def ClientConfig.wires (cfg : ClientConfig C.toPostCrate) (round : Round)
    (plaintext : List C.KahePoly) : Option (List PanetiereWire) :=
  (cfg.post ⟨none, .empty⟩ round plaintext).map Prod.snd

/-! ## A post over a complete roster returns -/

section Option
variable {α β : Type} {f : α → Option β}

theorem isSome_mapM : ∀ {l : List α}, (∀ x ∈ l, (f x).isSome) → (l.mapM f).isSome
  | [], _ => rfl
  | x :: l, h => by
      obtain ⟨y, hy⟩ := Option.isSome_iff_exists.mp (h x List.mem_cons_self)
      obtain ⟨ys, hys⟩ := Option.isSome_iff_exists.mp
        (isSome_mapM (fun x' hx' => h x' (List.mem_cons_of_mem _ hx')))
      rw [List.mapM_cons, hy, hys]
      rfl

theorem exists_of_mem_mapM : ∀ {l : List α} {ys : List β}, l.mapM f = some ys →
    ∀ y ∈ ys, ∃ x ∈ l, f x = some y
  | [], ys, h, y, hy => by
      cases h
      cases hy
  | x :: l, ys, h, y, hy => by
      rw [List.mapM_cons] at h
      obtain ⟨z, hz, h⟩ := Option.bind_eq_some_iff.mp h
      obtain ⟨zs, hzs, h⟩ := Option.bind_eq_some_iff.mp h
      cases h
      rcases List.mem_cons.mp hy with rfl | hy
      · exact ⟨x, List.mem_cons_self, hz⟩
      · obtain ⟨x', hx', he⟩ := exists_of_mem_mapM hzs y hy
        exact ⟨x', List.mem_cons_of_mem _ hx', he⟩

end Option

/-- An output with every lane gives a round of the client set, over paths of its own. -/
theorem clientSetRoundFromRs_of_lanes {pp : ProtocolParams} (sid : SessionId) (key : C.SigningKey)
    {out : RsClientRoundOutput C.toSessionCrate} (hshares : out.rsShares.length = pp.rs.n)
    (hpaths : out.sharePaths.length = pp.rs.n) (hsealed : out.sealedOpenings.length = pp.rs.n) :
    ∃ setRound, clientSetRoundFromRs pp sid out key = some setRound ∧
      ∀ b ∈ setRound.1.bundles, b.path ∈ out.sharePaths := by
  unfold clientSetRoundFromRs
  rw [if_neg (by omega)]
  dsimp only
  generalize hf : (fun lane : Nat => do
    let share ← out.rsShares[lane]?
    let path ← out.sharePaths[lane]?
    let envelope ← (out.sealedOpenings[lane]?).map Prod.snd
    let sig := C.sign key (bundleSigningBytes sid out.clientId lane share path envelope)
    some (⟨out.clientId, lane, share, path, envelope, C.toSec1Bytes (C.verifyingKey key), sig⟩ :
      Bundle C.toSetCrate)) = f
  obtain ⟨bundles, hbundles⟩ := Option.isSome_iff_exists.mp (isSome_mapM (f := f)
    (l := List.range pp.rs.n) (by
      intro lane hlane
      have hlt := List.mem_range.mp hlane
      rw [← hf]
      simp [List.getElem?_eq_getElem (show lane < out.rsShares.length by omega),
        List.getElem?_eq_getElem (show lane < out.sharePaths.length by omega),
        List.getElem?_eq_getElem (show lane < out.sealedOpenings.length by omega)]))
  refine ⟨(⟨out.clientId, bundles⟩, out.bulletin), ?_, ?_⟩
  · subst hf
    rw [hbundles]
    rfl
  · intro b hb
    obtain ⟨lane, -, hlane⟩ := exists_of_mem_mapM hbundles b hb
    rw [← hf] at hlane
    obtain ⟨share, -, hlane⟩ := Option.bind_eq_some_iff.mp hlane
    obtain ⟨path, hpath, hlane⟩ := Option.bind_eq_some_iff.mp hlane
    obtain ⟨envelope, -, hlane⟩ := Option.bind_eq_some_iff.mp hlane
    cases hlane
    exact List.mem_of_getElem? hpath

namespace ClientConfig
variable {cfg : ClientConfig C.toPostCrate} {st : PostState C.toPostCrate}

/-- A round prepared ahead is the session's own. -/
def Prepared (cfg : ClientConfig C.toPostCrate) (st : PostState C.toPostCrate) : Prop :=
  ∀ r round, st.clientRound = some (r, round) → round = cfg.clientRound r

/-- A post with the round prepared ahead is a post without. -/
theorem post_of_prepared (h : cfg.Prepared st) (round : Round) (plaintext : List C.KahePoly) :
    cfg.post st round plaintext = cfg.post { st with clientRound := none } round plaintext := by
  unfold post
  cases hround : st.clientRound with
  | none => rfl
  | some p =>
    obtain ⟨r, ahead⟩ := p
    have hahead : (if r = round then ahead else cfg.clientRound round) = cfg.clientRound round := by
      split_ifs with hr
      · rw [h r ahead hround, hr]
      · rfl
    simp only [hahead]

theorem wires_of_post (h : cfg.Prepared st) {round : Round} {plaintext : List C.KahePoly}
    {posted : PostState C.toPostCrate × List PanetiereWire}
    (hpost : cfg.post st round plaintext = some posted) :
    cfg.wires round plaintext = some posted.2 ∧ posted.1.clientRound = none := by
  rw [post_of_prepared h] at hpost
  unfold wires
  unfold post at hpost ⊢
  dsimp only at hpost ⊢
  split at hpost
  · obtain ⟨wires, hwires, rfl⟩ := Option.map_eq_some_iff.mp hpost
    rw [hwires]
    exact ⟨rfl, rfl⟩
  · obtain ⟨setRound, hset, hpost⟩ := Option.bind_eq_some_iff.mp hpost
    obtain ⟨wires, hwires, hpost⟩ := Option.bind_eq_some_iff.mp hpost
    cases hpost
    rw [hset]
    simp [hwires]

theorem isSome_directWire {out : RsClientRoundOutput C.toSessionCrate}
    (hpacks : ∀ path ∈ out.sharePaths, (C.pathToBytes path).isSome) (round : Round) :
    (cfg.directWire round out).isSome := by
  unfold directWire
  obtain ⟨slices, hslices⟩ := Option.isSome_iff_exists.mp (isSome_mapM
    (f := fun e => cfg.clientSliceWire round out.clientId e.2 e.1.1 e.1.2)
    (l := (out.rsShares.zip out.sharePaths).zipIdx) (by
      rintro ⟨⟨share, path⟩, lane⟩ he
      have hpath : path ∈ out.sharePaths := (List.of_mem_zip (List.fst_mem_of_mem_zipIdx he)).2
      obtain ⟨bytes, hbytes⟩ := Option.isSome_iff_exists.mp (hpacks path hpath)
      simp [clientSliceWire, hbytes]))
  dsimp only
  rw [hslices]
  rfl

theorem isSome_bundleWire (cfg : ClientConfig C.toPostCrate) {out : ClientSetRound C.toSetCrate}
    (hpacks : ∀ b ∈ out.bundles, (C.pathToBytes b.path).isSome) (round : Round)
    (bulletin : C.ClientEntry) : (cfg.bundleWire round out bulletin).isSome := by
  unfold bundleWire
  generalize hf : (fun b : Bundle C.toSetCrate => do
    let lane : U32 := Fin.ofNat _ b.lane
    let data ← b.pack
    some (PanetiereWire.bundle round out.clientId lane data (C.pubkey cfg.identity)
      (C.idSign cfg.identity (clientBundleSigningBytes round out.clientId lane data)))) = f
  obtain ⟨bundles, hbundles⟩ := Option.isSome_iff_exists.mp (isSome_mapM (f := f)
    (l := out.bundles) (by
      intro b hb
      obtain ⟨bytes, hbytes⟩ := Option.isSome_iff_exists.mp (hpacks b hb)
      rw [← hf]
      simp [Bundle.pack, hbytes]))
  subst hf
  rw [hbundles]
  rfl

/-- **A post over a complete roster returns.** -/
theorem isSome_post (hcomplete : cfg.complete = true) (h : cfg.Prepared st) (round : Round)
    (plaintext : List C.KahePoly) : (cfg.post st round plaintext).isSome := by
  rw [post_of_prepared h]
  unfold post
  dsimp only
  obtain ⟨hshares, hpaths⟩ := C.length_lanes (cfg.clientRound round) cfg.pp (cfg.sid round)
    plaintext cfg.postKey
  have hsealed := C.length_sealedOpenings (C.fromSeed (roundSeed cfg.rngSeed round)) cfg.pp
    (cfg.sid round) cfg.clientId cfg.servers plaintext cfg.postKey
  have hpacks := C.packs_path (cfg.clientRound round) cfg.pp (cfg.sid round) plaintext cfg.postKey
  have hlanes : cfg.servers.length = cfg.pp.rs.n := by
    rw [cfg.pp.one_lane_per_server]
    simpa [complete] using hcomplete
  change (C.finalizeRound (cfg.clientRound round) cfg.pp (cfg.sid round) plaintext
    cfg.postKey).sealedOpenings.length = _ at hsealed
  generalize C.finalizeRound (cfg.clientRound round) cfg.pp (cfg.sid round) plaintext
    cfg.postKey = out at hshares hpaths hsealed hpacks
  split
  · rw [Option.isSome_map]
    exact isSome_directWire hpacks round
  · obtain ⟨setRound, hset, hbundles⟩ := clientSetRoundFromRs_of_lanes (cfg.sid round) cfg.postKey
      hshares hpaths (hsealed.trans hlanes)
    obtain ⟨wires, hwires⟩ := Option.isSome_iff_exists.mp (isSome_bundleWire cfg
      (fun b hb => hpacks b.path (hbundles b hb)) round setRound.2)
    rw [hset]
    simp [hwires]

end ClientConfig

/-! ## A session between its rounds -/

namespace PanetiereClientSession
variable {s : PanetiereClientSession C}

/-- Between the rounds: nothing is staged in a session with every key. -/
structure Sound (s : PanetiereClientSession C) : Prop where
  prepared : s.cfg.Prepared s.toPostState
  flushed : s.cfg.complete = true → s.pending = none

/-- A payload the channel carries: not too long, and encoded without an error. -/
def Fits (s : PanetiereClientSession C) (payload : Bytes) : Prop :=
  payload.length ≤ C.maxPayloadBytes s.cfg.mse ∧
    (C.encodeMessage s.rRng s.cfg.mse payload).1.isSome

theorem sound_new (cfg : PanetiereClientConfig C) : (new cfg).Sound := ⟨nofun, fun _ => rfl⟩

theorem sound_setCoverRate (h : s.Sound) (rate : U32) : { s with coverRate := rate }.Sound :=
  ⟨h.prepared, h.flushed⟩

theorem prepared_prepareRound {cfg : ClientConfig C.toPostCrate} {st : PostState C.toPostCrate}
    (h : cfg.Prepared st) (round : Round) : cfg.Prepared (cfg.prepareRound st round) := by
  unfold ClientConfig.prepareRound
  split_ifs
  · rintro r ahead ⟨⟩
    rfl
  · exact h

theorem sound_call (h : s.Sound) (c : ClientCall) : (s.call c).Sound := by
  refine ⟨?_, ?_⟩
  · cases c with
    | prepare round => exact prepared_prepareRound h.prepared round
    | batch round data =>
      have hkeeps : ((s.cfg.acceptReceiptBatch s.toPostState round data).toOption.getD
          s.toPostState).clientRound = s.clientRound := by
        unfold ClientConfig.acceptReceiptBatch
        split
        · rfl
        · split
          · rfl
          · split <;> rfl
      exact fun r ahead hr => h.prepared r ahead (hkeeps ▸ hr)
    | repair round =>
      have hkeeps : (((s.cfg.buildRepair s.toPostState round).map Prod.fst).getD
          s.toPostState).clientRound = s.clientRound := by
        unfold ClientConfig.buildRepair
        cases s.setRounds.get? round with
        | none => rfl
        | some state =>
          dsimp only
          cases (state.fragmentWire s.cfg.pp (s.cfg.sid round) s.cfg.postKey).2 <;> rfl
      exact fun r ahead hr => h.prepared r ahead (hkeeps ▸ hr)
  · cases c <;> exact h.flushed

/-- A payload that fits is staged whole. -/
theorem stage_of_fits {payload : Bytes} (h : s.Fits payload) :
    ∃ polys, (C.encodeMessage s.rRng s.cfg.mse payload).1 = some polys ∧
      (s.stage payload).pending = some (polys ++
        List.replicate (C.messagePolys s.cfg.pp - polys.length) C.kaheZero) := by
  obtain ⟨polys, hpolys⟩ := Option.isSome_iff_exists.mp h.2
  refine ⟨polys, hpolys, ?_⟩
  have hle : polys.length ≤ C.messagePolys s.cfg.pp :=
    (C.length_encodeMessage hpolys).le.trans s.cfg.sized
  unfold stage
  rw [if_neg (not_lt.mpr h.1)]
  dsimp only
  rw [hpolys]
  dsimp only
  unfold PanetiereClientConfig.pad SlotVector.resize
  rw [List.take_of_length_le hle]

theorem stage_keeps (payload : Bytes) :
    (s.stage payload).cfg = s.cfg ∧ (s.stage payload).toPostState = s.toPostState := by
  unfold stage
  split_ifs
  · exact ⟨rfl, rfl⟩
  · dsimp only
    split <;> exact ⟨rfl, rfl⟩

/-- A session without some key takes no part in the round. -/
theorem finalizeStaged_of_incomplete (h : s.cfg.complete = false) (round : Round) :
    s.finalizeStaged round = some (s, []) := by
  unfold finalizeStaged
  rw [h]
  rfl

/-- A session with every key posts what is staged. -/
theorem finalizeStaged_of_complete (hcomplete : s.cfg.complete = true)
    (h : s.cfg.Prepared s.toPostState) (round : Round) :
    ∃ s' wires, s.finalizeStaged round = some (s', wires) ∧ s'.Sound ∧ s'.cfg = s.cfg ∧
      ∀ msg, s.pending = some msg → s.cfg.wires round msg = some wires := by
  unfold finalizeStaged
  rw [if_neg (by simp [hcomplete])]
  dsimp only
  cases hmsg : s.message.1 with
  | none =>
    refine ⟨_, _, rfl, ⟨h, fun _ => rfl⟩, rfl, fun msg hpending => ?_⟩
    unfold message at hmsg
    rw [hpending] at hmsg
    cases hmsg
  | some msg =>
    obtain ⟨posted, hposted⟩ :=
      Option.isSome_iff_exists.mp (ClientConfig.isSome_post hcomplete h round msg)
    obtain ⟨hwires, hused⟩ := ClientConfig.wires_of_post h hposted
    dsimp only
    rw [hposted]
    refine ⟨_, _, rfl, ⟨?_, fun _ => rfl⟩, rfl, fun msg' hpending => ?_⟩
    · intro r ahead hr
      rw [show posted.1.clientRound = some (r, ahead) from hr] at hused
      cases hused
    · unfold message at hmsg
      rw [hpending] at hmsg
      cases hmsg
      exact hwires

/-- The end of a round's beginning. -/
theorem sound_beginRound (h : s.cfg.Prepared s.toPostState) (round : Round) :
    (s.beginRound round).Sound := by
  unfold beginRound
  cases hcomplete : s.cfg.complete with
  | true =>
    obtain ⟨s', wires, hfinal, hsound, -⟩ := finalizeStaged_of_complete hcomplete h round
    rw [hfinal]
    exact hsound
  | false =>
    rw [finalizeStaged_of_incomplete hcomplete]
    refine ⟨h, fun hc => ?_⟩
    rw [show s.cfg.complete = true from hc] at hcomplete
    cases hcomplete

end PanetiereClientSession
end Anymone
