import Anymone.PanetiereWire
import Anymone.ClientSetClient
import Anymone.ClientSetPack

/-! # A client's post

What a client session sends for one round once its plaintext is fixed: the bulletin
with one slice and one opening per relay or, under consensus set formation, the
bulletin with one bundle per lane, then the repair of what the lanes' batches do not
show.  Both client sessions of the program share it.

The client rounds of the `panetiere` crate and the generators of `rand_chacha` are
parameters (`PostCrate`).  A call that does not return, as on one of the source's
assertions, is `none`.
-/

namespace Anymone

/-- `RsClientRoundOutput`: what one client round makes of a plaintext. -/
structure RsClientRoundOutput (C : SessionCrate) where
  clientId : ClientId
  bulletin : C.ClientEntry
  rsShares : List C.Share
  sharePaths : List (SharePath C.HVCPoly)
  sealedOpenings : List (ServerId × Bytes)

/-- What a client session takes from the crates it is built on. -/
structure PostCrate extends SessionCrate where
  /-- `ChaCha20Rng`. -/
  Rng : Type
  /-- `ChaCha20Rng::from_seed`. -/
  fromSeed : ByteArr 32 → Rng
  /-- `pke::PublicKey`. -/
  ServerKey : Type
  /-- `RsClientRound`. -/
  RsClientRound : Type
  /-- `RsClientRound::new`. -/
  newClientRound : Rng → ProtocolParams → SessionId → ClientId → List (ServerId × ServerKey) →
    RsClientRound
  /-- `RsClientRound::finalize`. -/
  finalizeRound : RsClientRound → ProtocolParams → SessionId → List KahePoly → SigningKey →
    RsClientRoundOutput toSessionCrate
  /-- `sig::SigningKey::generate`. -/
  generateKey : Rng → SigningKey
  /-- `RsClientBulletinEntry::to_bytes`. -/
  bulletinToBytes : RsClientBulletinEntry Commitment HVCPoly (ByteArr pubkeyLen) (ByteArr sigLen) →
    Bytes
  /-- `message_polys`: the width of a round's plaintext. -/
  messagePolys : ProtocolParams → Nat
  /-- `KahePoly::default`. -/
  kaheZero : KahePoly

/-- `seed[0] ^= m`. -/
def tweakSeed (m : U8) (seed : ByteArr 32) : ByteArr 32 :=
  ⟨(seed.1.take 1).map (fun b => Fin.ofNat 256 (b.val ^^^ m.val)) ++ seed.1.drop 1, by
    have := seed.2
    simp only [List.length_append, List.length_map, List.length_take, List.length_drop]
    omega⟩

/-- `seed[24..32].copy_from_slice(&round.to_le_bytes())`. -/
def roundSeed (seed : ByteArr 32) (round : Round) : ByteArr 32 :=
  ⟨seed.1.take 24 ++ leBytes 8 round.val, by
    have := seed.2
    simp only [List.length_append, List.length_take, leBytes_length]
    omega⟩

/-- What a client session is built with.  `setPks` is `None` outside consensus set
formation. -/
structure ClientConfig (C : PostCrate) where
  pp : ProtocolParams
  identity : C.Identity
  servers : List (ServerId × C.ServerKey)
  rngSeed : ByteArr 32
  setupSeed : ByteArr 32
  setPks : Option (List C.VerifyingKey)

/-- The part of a client session its posts change. -/
structure PostState (C : PostCrate) where
  clientRound : Option (Round × C.RsClientRound)
  setRounds : OrdMap Round (ClientSetState C.toSetCrate)

variable {C : PostCrate}

/-- `client_set_round_from_rs`, with the bulletin beside the round; `none` when the
output does not have every lane. -/
def clientSetRoundFromRs (pp : ProtocolParams) (sid : SessionId)
    (round : RsClientRoundOutput C.toSessionCrate) (signingKey : C.SigningKey) :
    Option (ClientSetRound C.toSetCrate × C.ClientEntry) :=
  if round.sealedOpenings.length ≠ pp.rs.n then none
  else do
    let pubkey := C.toSec1Bytes (C.verifyingKey signingKey)
    let bundles ← (List.range pp.rs.n).mapM (fun lane => do
      let share ← round.rsShares[lane]?
      let path ← round.sharePaths[lane]?
      let envelope ← (round.sealedOpenings[lane]?).map Prod.snd
      let sig := C.sign signingKey
        (bundleSigningBytes sid round.clientId lane share path envelope)
      some (⟨round.clientId, lane, share, path, envelope, pubkey, sig⟩ : Bundle C.toSetCrate))
    some (⟨round.clientId, bundles⟩, round.bulletin)

namespace ClientConfig
variable (cfg : ClientConfig C)

/-- `client_id`: the slot the session's own key owns. -/
def clientId : ClientId := clientIdFromPubkey (C.pubkey cfg.identity)

/-- `derive_post_key`. -/
def postKey : C.SigningKey := C.generateKey (C.fromSeed (tweakSeed 0x2A cfg.rngSeed))

/-- `session_id` of a round. -/
def sid (round : Round) : SessionId := sessionId C.toSetCrate cfg.setupSeed round

/-- Whether every relay's exchange key is known. -/
def complete : Bool := cfg.servers.length == cfg.pp.nServers

/-- `client_round`. -/
def clientRound (round : Round) : C.RsClientRound :=
  C.newClientRound (C.fromSeed (roundSeed cfg.rngSeed round)) cfg.pp (cfg.sid round) cfg.clientId
    cfg.servers

/-- `prepare_round`. -/
def prepareRound (st : PostState C) (round : Round) : PostState C :=
  if cfg.complete && !(st.clientRound.any (fun p => p.1 == round)) then
    { st with clientRound := some (round, cfg.clientRound round) }
  else st

/-- `accept_receipt_batch`. -/
def acceptReceiptBatch (st : PostState C) (round : Round) (data : Bytes) :
    Except String (PostState C) :=
  match cfg.setPks with
  | none => .error "consensus mode is disabled"
  | some pks =>
      match (ReceiptBatch.unpack (C := C.toSetCrate) data).filter
          (fun batch => batch.verify (cfg.sid round) pks) with
      | none => .error "invalid receipt batch"
      | some batch =>
          match st.setRounds.get? round with
          | none => .error "unknown receipt round"
          | some state =>
              .ok { st with
                setRounds := st.setRounds.insert round (state.noteBatch batch cfg.clientId) }

/-- One repair fragment on the wire. -/
def fragmentMessage (round : Round) (cid : ClientId) (e : Nat × Fragment C.toSetCrate) :
    PanetiereWire :=
  let target : U32 := Fin.ofNat _ e.1
  let data := e.2.pack
  .setFragment round cid target data (C.pubkey cfg.identity)
    (C.idSign cfg.identity (clientFragmentSigningBytes round cid target data))

/-- `build_repair`. -/
def buildRepair (st : PostState C) (round : Round) :
    Option (PostState C × List PanetiereWire) :=
  match st.setRounds.get? round with
  | none => some (st, [])
  | some state => do
      let repair := state.fragmentWire cfg.pp (cfg.sid round) cfg.postKey
      let fragments ← repair.2
      some ({ st with setRounds := st.setRounds.insert round repair.1 },
        fragments.map (cfg.fragmentMessage round state.roundOut.clientId))

/-- The bulletin on the wire. -/
def publicMessage (round : Round) (cid : ClientId) (bulletin : C.ClientEntry) : PanetiereWire :=
  let entry := C.bulletinToBytes bulletin
  .clientPublic round cid entry (C.pubkey cfg.identity)
    (C.idSign cfg.identity (clientPublicSigningBytes round cid entry))

/-- `bundle_wire`: the bulletin and one bundle per lane. -/
def bundleWire (round : Round) (out : ClientSetRound C.toSetCrate) (bulletin : C.ClientEntry) :
    Option (List PanetiereWire) := do
  let bundles ← out.bundles.mapM (fun b => do
    let lane : U32 := Fin.ofNat _ b.lane
    let data ← b.pack
    some (.bundle round out.clientId lane data (C.pubkey cfg.identity)
      (C.idSign cfg.identity (clientBundleSigningBytes round out.clientId lane data))))
  some (cfg.publicMessage round out.clientId bulletin :: bundles)

/-- `client_slice_wire`. -/
def clientSliceWire (round : Round) (cid : ClientId) (lane : Nat) (share : C.Share)
    (path : SharePath C.HVCPoly) : Option PanetiereWire := do
  let path ← C.pathToBytes path
  let share := C.packShare share
  let lane : U32 := Fin.ofNat _ lane
  some (.clientSlice round cid lane share path (C.pubkey cfg.identity)
    (C.idSign cfg.identity (clientSliceSigningBytes round cid lane share path)))

/-- The bulletin, one slice per lane and one sealed opening per server. -/
def directWire (round : Round) (out : RsClientRoundOutput C.toSessionCrate) :
    Option (List PanetiereWire) := do
  let cid := out.clientId
  let slices ← (out.rsShares.zip out.sharePaths).zipIdx.mapM (fun e =>
    cfg.clientSliceWire round cid e.2 e.1.1 e.1.2)
  let openings := out.sealedOpenings.map (fun e =>
    PanetiereWire.opening round cid e.1 e.2 (C.pubkey cfg.identity)
      (C.idSign cfg.identity (clientOpeningSigningBytes round cid e.1 e.2)))
  some (cfg.publicMessage round cid out.bulletin :: slices ++ openings)

/-- The part of `finalize_round` and `finalize_staged` that posts a plaintext.  A
round prepared ahead is used up, whichever round it was for. -/
def post (st : PostState C) (round : Round) (plaintext : List C.KahePoly) :
    Option (PostState C × List PanetiereWire) :=
  let prepared := match st.clientRound with
    | some (r, clientRound) => if r = round then clientRound else cfg.clientRound round
    | none => cfg.clientRound round
  let out := C.finalizeRound prepared cfg.pp (cfg.sid round) plaintext cfg.postKey
  match cfg.setPks with
  | none => (cfg.directWire round out).map (fun wires => ({ st with clientRound := none }, wires))
  | some _ => do
      let setRound ← clientSetRoundFromRs cfg.pp (cfg.sid round) out cfg.postKey
      let wires ← cfg.bundleWire round setRound.1 setRound.2
      let kept := (st.setRounds.insert round (.new setRound.1)).retain
        (fun r _ => decide (round ≤ r + Fin.ofNat _ panetiereRoundRetention))
      some (⟨none, kept⟩, wires)

end ClientConfig
end Anymone
