import Anymone.PanetiereRun
import Anymone.ClientSetToy

/-! # A session to run the model on

The toy crate of the client set, with just enough on top for a session: a bulletin is
a boot key and its signature, a share is the sum of what it is made of, and a round
decodes to the sum of its shares.  `sentBy` signs a client's or a relay's message the
way its receiver checks it.
-/

namespace Anymone

/-- A signature of the toy crate: the digest of the key and the message. -/
def toySign (pk : Pubkey) (m : Bytes) : Bytes := (toyHash (pk.1 ++ m)).1

/-- The toy crate of a session. -/
def toySession : SessionCrate where
  toSetCrate := toyCrate
  Identity := Pubkey
  Commitment := Unit
  CsPoly := Nat
  PackedOpening := Unit
  ShareOpening := Unit
  KahePoly := Nat
  ChannelParams := Unit
  pubkey id := id
  idSign := toySign
  pke _ := ()
  pubkeyVerify pk m sig := decide (sig = toySign pk m)
  pubkeyVerify_idSign _ _ := decide_eq_true rfl
  bulletinPackedLen := 33
  bulletinFromBytes bytes := do
    let pubkey ← toArr? 1 (bytes.take 1)
    let sig ← toArr? 32 (bytes.drop 1)
    some ⟨(), (0 : Nat), pubkey, sig⟩
  bulletinSigningBytes sid cid _ _ := sid.1 ++ leBytes 4 cid.val
  packedOpeningFromBytes _ := some ()
  muCs _ := 1
  openingFromPacked _ := some ()
  unpackCsShares bytes n := if bytes.length = n then some (bytes.map Fin.val) else none
  packAggOpen _ _ := []
  packAggShare share := [Fin.ofNat 256 share]
  shareOpeningFromBytes _ _ _ := some ()
  shareOpeningToBytes _ _ := some []
  runServerRound sid items clients :=
    if clients.all (fun c => (items.map Prod.fst).contains c) then
      some ⟨sid, clients, (), clients.length⟩
    else none
  runServerRound_over := by
    intro sid items clients sp h
    split at h
    · cases h
      exact ⟨rfl, rfl⟩
    · cases h
  runRsNodeRound _ node items clients _ :=
    some ⟨node, clients, ([(items.map (fun i => i.2.1.headD (0 : Nat))).sum] : List Nat), ()⟩
  aggregateAndDecryptRs _ _ _ _ _ lanes := .ok (lanes.map (fun l => l.shareSum.headD (0 : Nat)))
  decodeMessages _ plain := some [plain.map (Fin.ofNat 256)]

/-- The key of a node: its number, then zeros. -/
def toyNode (id : U8) : Pubkey := ⟨[0, 0, 0, id] ++ List.replicate 28 0, rfl⟩

/-- Relay `i` of three, in a set mode. -/
def toyConfig (i : ServerId) (mode : SetMode) : ServerConfig toySession where
  pp := toyParams
  scp := ⟨1, 3⟩
  rs_mode := rfl
  mse := ()
  serverId := i
  identity := toyNode (Fin.ofNat 256 (100 + i.val))
  mode := mode
  serverPubkeys :=
    ((OrdMap.empty.insert 0 (toyNode 100)).insert 1 (toyNode 101)).insert 2 (toyNode 102)
  clientSetMax := 8
  setupSeed := toySid
  goodClients _ := true
  setKeys := some (toyKey i, toyPks)

namespace PanetiereWire

/-- Client `id`'s signed public of a round. -/
def toyPublic (round : Round) (id key : U8) : PanetiereWire :=
  let cid : U32 := Fin.ofNat _ id.val
  let sid := sessionId toyCrate toySid round
  let entry := key :: (toyCrate.sign key (sid.1 ++ leBytes 4 cid.val)).1
  .clientPublic round cid entry (toyNode id)
    (toySign (toyNode id) (clientPublicSigningBytes round cid entry))

/-- Client `id`'s signed opening to server `i`. -/
def toyOpening (round : Round) (id : U8) (i : U32) : PanetiereWire :=
  let cid : U32 := Fin.ofNat _ id.val
  .opening round cid i [] (toyNode id)
    (toySign (toyNode id) (clientOpeningSigningBytes round cid i []))

/-- Client `id`'s signed slice for lane `i`. -/
def toySlice (round : Round) (id : U8) (i : U32) (share : Bytes) : PanetiereWire :=
  let cid : U32 := Fin.ofNat _ id.val
  .clientSlice round cid i share [] (toyNode id)
    (toySign (toyNode id) (clientSliceSigningBytes round cid i share []))

/-- Relay `i`'s signed share over `clients`. -/
def toyShare (round : Round) (i : U32) (clients : List U32) : PanetiereWire :=
  .serverPublic round i clients [] [Fin.ofNat 256 clients.length] [1] []
    (toySign (toyNode (Fin.ofNat 256 (100 + i.val)))
      (serverPublicSigningBytes round i clients [] [Fin.ofNat 256 clients.length] [1] []))

end PanetiereWire

/-- A wire message arriving from a node. -/
def SessionOp.from (id : U8) (w : PanetiereWire) : SessionOp := .inbound (toyNode id) w.serialize

namespace ServerSession

/-- A leader's round: one client, a peer's share, the decode, and then the same
messages again, before and after the bucket is dropped. -/
def toyRun : List SessionOp :=
  [.beginRound 5, .from 7 (.toyPublic 5 7 1), .from 7 (.toyOpening 5 7 0),
    .from 7 (.toySlice 5 7 0 [1]), .endRound 5, .beginRound 6, .from 101 (.toyShare 5 1 [7]),
    .endRound 6, .from 101 (.toyShare 5 1 [7]), .from 7 (.toyOpening 5 7 0), .beginRound 7,
    .endRound 7, .beginRound 12, .endRound 12, .from 101 (.toyShare 5 1 [7])]

end ServerSession
end Anymone
