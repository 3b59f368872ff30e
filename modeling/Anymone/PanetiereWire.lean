import Anymone.Bincode
import Anymone.ClientSetPack
import Anymone.ClientSetFinalize

/-! # The Panetière wire

The messages of a Panetière subnet, their wire form, the bytes their signers sign,
the round window and the admission of a client's key to a client id.

The `panetiere` and `ed25519` crates are parameters (`SessionCrate`, on top of
`SetCrate`).  Two facts about them are fields: a server round is over exactly the
clients it was asked for, under its own server id, and an identity's signature
verifies under its public key.
-/

namespace Anymone

/-- `Round`. -/
abbrev Round := U64

/-- `Pubkey`: the bytes of an Ed25519 key. -/
abbrev Pubkey := ByteArr 32

/-- `PeerId`. -/
abbrev PeerId := Pubkey

/-- `panetiere::protocol::NodeId`: a lane. -/
abbrev NodeId := U32

/-- `PanetiereWire`. -/
inductive PanetiereWire where
  | clientPublic (round : Round) (clientId : U32) (entry : Bytes) (signer : Pubkey)
      (signature : Bytes)
  | clientSlice (round : Round) (clientId lane : U32) (share path : Bytes) (signer : Pubkey)
      (signature : Bytes)
  | opening (round : Round) (clientId targetServer : U32) (sealed : Bytes) (signer : Pubkey)
      (signature : Bytes)
  | serverPublic (round : Round) (serverId : U32) (clients : List U32)
      (aggOpen aggShare shareSum laneOpen signature : Bytes)
  | decoded (round : Round) (payloads : List Bytes)
  | clientSet (round : Round) (clients : List U32) (demand : U32)
  | reservations (round : Round) (entries : List (Fin 65536 × Fin 65536)) (signature : Bytes)
  | bundle (round : Round) (clientId lane : U32) (data : Bytes) (signer : Pubkey)
      (signature : Bytes)
  | setBatch (round : Round) (data : Bytes)
  | setFragment (round : Round) (clientId targetServer : U32) (data : Bytes) (signer : Pubkey)
      (signature : Bytes)
  | setRelay (round : Round) (data : Bytes)
  deriving DecidableEq

namespace PanetiereWire

/-- `PanetiereWire::round`. -/
def round : PanetiereWire → Round
  | clientPublic round .. | clientSlice round .. | opening round .. | serverPublic round ..
  | decoded round .. | clientSet round .. | reservations round .. | bundle round ..
  | setBatch round .. | setFragment round .. | setRelay round .. => round

/-- The variant number `bincode` writes, in the order of the source. -/
def tag : PanetiereWire → U32
  | clientPublic .. => 0
  | clientSlice .. => 1
  | opening .. => 2
  | serverPublic .. => 3
  | decoded .. => 4
  | clientSet .. => 5
  | reservations .. => 6
  | bundle .. => 7
  | setBatch .. => 8
  | setFragment .. => 9
  | setRelay .. => 10

section Format
open Bincode

/-- `u32`, `u64`, `serde_bytes` and `Pubkey`, as `bincode::serialize` writes them. -/
def word : Bincode U32 := u32 .little

def long : Bincode U64 := u64 .little

def blob : Bincode Bytes := bytes .little

def key : Bincode Pubkey := array 32

/-- A client message to one server or lane: round, client, target, data and the
signature. -/
def toServer : Bincode (Round × U32 × U32 × Bytes × Pubkey × Bytes) :=
  pair long (pair word (pair word (pair blob (pair key blob))))

/-- The fields of each variant. -/
def variants : U32 → Option (Bincode PanetiereWire)
  | 0 => some <| variant (pair long (pair word (pair blob (pair key blob))))
      (fun ⟨round, cid, entry, signer, sig⟩ => clientPublic round cid entry signer sig)
      (fun
        | clientPublic round cid entry signer sig => some (round, cid, entry, signer, sig)
        | _ => none)
      (by intro a b h; cases a <;> simp at h; subst h; rfl)
  | 1 => some <| variant
      (pair long (pair word (pair word (pair blob (pair blob (pair key blob))))))
      (fun ⟨round, cid, lane, share, path, signer, sig⟩ =>
        clientSlice round cid lane share path signer sig)
      (fun
        | clientSlice round cid lane share path signer sig =>
            some (round, cid, lane, share, path, signer, sig)
        | _ => none)
      (by intro a b h; cases a <;> simp at h; subst h; rfl)
  | 2 => some <| variant toServer
      (fun ⟨round, cid, target, sealed, signer, sig⟩ => opening round cid target sealed signer sig)
      (fun
        | opening round cid target sealed signer sig => some (round, cid, target, sealed, signer, sig)
        | _ => none)
      (by intro a b h; cases a <;> simp at h; subst h; rfl)
  | 3 => some <| variant
      (pair long (pair word (pair (list .little word)
        (pair blob (pair blob (pair blob (pair blob blob)))))))
      (fun ⟨round, sid, clients, aggOpen, aggShare, shareSum, laneOpen, sig⟩ =>
        serverPublic round sid clients aggOpen aggShare shareSum laneOpen sig)
      (fun
        | serverPublic round sid clients aggOpen aggShare shareSum laneOpen sig =>
            some (round, sid, clients, aggOpen, aggShare, shareSum, laneOpen, sig)
        | _ => none)
      (by intro a b h; cases a <;> simp at h; subst h; rfl)
  | 4 => some <| variant (pair long (list .little blob))
      (fun ⟨round, payloads⟩ => decoded round payloads)
      (fun
        | decoded round payloads => some (round, payloads)
        | _ => none)
      (by intro a b h; cases a <;> simp at h; subst h; rfl)
  | 5 => some <| variant (pair long (pair (list .little word) word))
      (fun ⟨round, clients, demand⟩ => clientSet round clients demand)
      (fun
        | clientSet round clients demand => some (round, clients, demand)
        | _ => none)
      (by intro a b h; cases a <;> simp at h; subst h; rfl)
  | 6 => some <| variant
      (pair long (pair (list .little (pair (u16 .little) (u16 .little))) blob))
      (fun ⟨round, entries, sig⟩ => reservations round entries sig)
      (fun
        | reservations round entries sig => some (round, entries, sig)
        | _ => none)
      (by intro a b h; cases a <;> simp at h; subst h; rfl)
  | 7 => some <| variant toServer
      (fun ⟨round, cid, lane, data, signer, sig⟩ => bundle round cid lane data signer sig)
      (fun
        | bundle round cid lane data signer sig => some (round, cid, lane, data, signer, sig)
        | _ => none)
      (by intro a b h; cases a <;> simp at h; subst h; rfl)
  | 8 => some <| variant (pair long blob)
      (fun ⟨round, data⟩ => setBatch round data)
      (fun
        | setBatch round data => some (round, data)
        | _ => none)
      (by intro a b h; cases a <;> simp at h; subst h; rfl)
  | 9 => some <| variant toServer
      (fun ⟨round, cid, target, data, signer, sig⟩ => setFragment round cid target data signer sig)
      (fun
        | setFragment round cid target data signer sig =>
            some (round, cid, target, data, signer, sig)
        | _ => none)
      (by intro a b h; cases a <;> simp at h; subst h; rfl)
  | 10 => some <| variant (pair long blob)
      (fun ⟨round, data⟩ => setRelay round data)
      (fun
        | setRelay round data => some (round, data)
        | _ => none)
      (by intro a b h; cases a <;> simp at h; subst h; rfl)
  | _ => none

/-- The format of a wire message. -/
def format : Bincode PanetiereWire := tagged .little tag variants

end Format

/-- `bincode::serialize`. -/
def serialize (w : PanetiereWire) : Bytes := format.write w

/-- `bincode::deserialize`, which accepts trailing bytes. -/
def deserialize (payload : Bytes) : Option PanetiereWire := (format.read payload).map Prod.fst

/-- **A message that fits its length words is read back as it was written.** -/
theorem deserialize_serialize {w : PanetiereWire} (h : format.Fits w) :
    deserialize (serialize w) = some w := by
  have := format.read_write h []
  rw [List.append_nil] at this
  unfold deserialize serialize
  rw [this]
  rfl

/-- Whether the message is a `ServerPublic` of round `r`. -/
def isServerPublic (r : Round) : PanetiereWire → Bool
  | serverPublic round .. => round == r
  | _ => false

end PanetiereWire

/-- `RsClientBulletinEntry`: the key-share commitment, the root over the coded
shares, and the boot key that signs both. -/
structure RsClientBulletinEntry (Commitment HVCPoly Pk Sig : Type) where
  comm : Commitment
  shareRoot : HVCPoly
  pubkey : Pk
  sig : Sig

/-- `ServerBulletinEntry`: a server's summed key share over `clients`. -/
structure ServerBulletinEntry (Opening CsPoly : Type) where
  serverId : ServerId
  clients : List ClientId
  aggOpen : Opening
  aggShare : CsPoly

/-- `RsNodeBulletinEntry`: a lane's summed ciphertext share over `clients`. -/
structure RsNodeBulletinEntry (RsNTTPoly ShareOpening : Type) where
  nodeId : NodeId
  clients : List ClientId
  shareSum : List RsNTTPoly
  aggOpen : ShareOpening

/-- `VerifyError`, as far as a decode attempt tells its variants apart. -/
inductive VerifyError where
  | invalidServerOpening (i : Nat)
  | shareOpeningMismatch (i : Nat)
  | laneOpeningFailed (ids : List NodeId)
  /-- Every other variant; it ends the attempt. -/
  | rejected

/-- What a session takes from the crates it is built on. -/
structure SessionCrate extends SetCrate where
  /-- `identity::Identity`. -/
  Identity : Type
  /-- `cs::Commitment`. -/
  Commitment : Type
  /-- `cs::CsPoly`. -/
  CsPoly : Type
  /-- `cs::PackedOpening`. -/
  PackedOpening : Type
  /-- `share_commitment::ShareOpening`. -/
  ShareOpening : Type
  /-- `KahePoly`, a polynomial of the summed plaintext. -/
  KahePoly : Type
  /-- `channel::ChannelParams`. -/
  ChannelParams : Type
  pubkey : Identity → Pubkey
  idSign : Identity → Bytes → Bytes
  /-- `exchange().pke()`. -/
  pke : Identity → PrivateKey
  /-- `Pubkey::verify`. -/
  pubkeyVerify : Pubkey → Bytes → Bytes → Bool
  pubkeyVerify_idSign : ∀ id m, pubkeyVerify (pubkey id) m (idSign id m) = true
  bulletinPackedLen : Nat
  bulletinFromBytes : Bytes →
    Option (RsClientBulletinEntry Commitment HVCPoly (ByteArr pubkeyLen) (ByteArr sigLen))
  bulletinSigningBytes : SessionId → ClientId → Commitment → HVCPoly → Bytes
  packedOpeningFromBytes : Bytes → Option PackedOpening
  /-- `PackedOpening::mu_cs`. -/
  muCs : PackedOpening → Nat
  openingFromPacked : PackedOpening → Option Opening
  unpackCsShares : Bytes → Nat → Option (List CsPoly)
  /-- The aggregated opening packed under the bounds of so many clients. -/
  packAggOpen : Nat → Opening → Bytes
  packAggShare : CsPoly → Bytes
  shareOpeningFromBytes : ShareCommitmentParams → Nat → Bytes → Option ShareOpening
  shareOpeningToBytes : ShareCommitmentParams → ShareOpening → Option Bytes
  runServerRound : ServerId → List (ClientId × Opening) → List ClientId →
    Option (ServerBulletinEntry Opening CsPoly)
  runServerRound_over : ∀ {sid items clients sp}, runServerRound sid items clients = some sp →
    sp.serverId = sid ∧ sp.clients = clients
  runRsNodeRound : ShareCommitmentParams → NodeId →
    List (ClientId × List RsNTTPoly × SharePath HVCPoly) → List ClientId →
    List (ClientId × HVCPoly) → Option (RsNodeBulletinEntry RsNTTPoly ShareOpening)
  aggregateAndDecryptRs : ProtocolParams → SessionId → List ClientId →
    List (ClientId ×
      RsClientBulletinEntry Commitment HVCPoly (ByteArr pubkeyLen) (ByteArr sigLen)) →
    List (ServerBulletinEntry Opening CsPoly) →
    List (RsNodeBulletinEntry RsNTTPoly ShareOpening) → Except VerifyError (List KahePoly)
  /-- `channel::decode_messages`; `none` for an oversubscribed or broken channel. -/
  decodeMessages : ChannelParams → List KahePoly → Option (List Bytes)

namespace SessionCrate
variable (C : SessionCrate)

/-- A client's bulletin entry. -/
abbrev ClientEntry := RsClientBulletinEntry C.Commitment C.HVCPoly C.Pk C.Sig

/-- A server's bulletin entry. -/
abbrev ServerEntry := ServerBulletinEntry C.Opening C.CsPoly

/-- A lane's bulletin entry. -/
abbrev NodeEntry := RsNodeBulletinEntry C.RsNTTPoly C.ShareOpening

end SessionCrate

/-! ## Signing bytes -/

section Signing
open Bincode PanetiereWire

/-- `server_public_signing_bytes`. -/
def serverPublicSigningBytes (round : Round) (serverId : U32) (clients : List U32)
    (aggOpen aggShare shareSum laneOpen : Bytes) : Bytes :=
  ascii "anymone/panetiere/server-public" ++
    (pair long (pair word (pair (list .little word)
      (pair blob (pair blob (pair blob blob)))))).write
        (round, serverId, clients, aggOpen, aggShare, shareSum, laneOpen)

/-- `client_public_signing_bytes`. -/
def clientPublicSigningBytes (round : Round) (clientId : U32) (entry : Bytes) : Bytes :=
  ascii "anymone/panetiere/client-public" ++
    (pair long (pair word blob)).write (round, clientId, entry)

/-- The bytes of a signed message to one server or lane, whatever its tag. -/
def toServerSigningBytes (tag : String) (round : Round) (clientId target : U32) (data : Bytes) :
    Bytes :=
  ascii tag ++ (pair long (pair word (pair word blob))).write (round, clientId, target, data)

/-- `client_opening_signing_bytes`. -/
def clientOpeningSigningBytes : Round → U32 → U32 → Bytes → Bytes :=
  toServerSigningBytes "anymone/panetiere/client-opening"

/-- `client_bundle_signing_bytes`. -/
def clientBundleSigningBytes : Round → U32 → U32 → Bytes → Bytes :=
  toServerSigningBytes "anymone/panetiere/client-bundle"

/-- `client_fragment_signing_bytes`. -/
def clientFragmentSigningBytes : Round → U32 → U32 → Bytes → Bytes :=
  toServerSigningBytes "anymone/panetiere/client-fragment"

/-- `client_slice_signing_bytes`. -/
def clientSliceSigningBytes (round : Round) (clientId lane : U32) (share path : Bytes) : Bytes :=
  ascii "anymone/panetiere/client-slice" ++
    (pair long (pair word (pair word (pair blob blob)))).write (round, clientId, lane, share, path)

end Signing

/-- `session_id`: the round is in the hash, so an opening is bound to its round. -/
def sessionId (C : SetCrate) (setupSeed : ByteArr 32) (round : Round) : SessionId :=
  C.sha256 (ascii "anymone/panetiere/sid" ++ (setupSeed.1 ++ leBytes 8 round.val))

/-! ## The round window -/

/-- `PANETIERE_ROUND_RETENTION`. -/
def panetiereRoundRetention : Nat := 4

/-- `PANETIERE_ROUND_WINDOW`: tied to the retention. -/
def panetiereRoundWindow : Nat := panetiereRoundRetention

/-- `round_in_window`. -/
def roundInWindow (round : Round) (cur : Option Round) : Bool :=
  match cur with
  | some cur =>
      decide (round ≤ cur.saturatingAdd panetiereRoundWindow) &&
        decide (cur ≤ round.saturatingAdd panetiereRoundWindow)
  | none => true

/-- A round more than the retention behind the clock is outside the window. -/
theorem roundInWindow_eq_false {round cur : Round}
    (h : round.val + panetiereRoundRetention < cur.val) : roundInWindow round (some cur) = false := by
  unfold roundInWindow
  have : ¬ cur ≤ round.saturatingAdd panetiereRoundWindow := by
    rw [Fin.le_def, U64.val_saturatingAdd]
    unfold panetiereRoundWindow
    omega
  simp [this]

/-! ## Admission -/

/-- `client_id_from_pubkey`: the first four bytes, most significant first. -/
def clientIdFromPubkey (pk : Pubkey) : ClientId := Fin.ofNat _ (leVal (pk.1.take 4).reverse)

/-- `Admit`: a capacity rejection counts as demand, an ownership failure does not. -/
inductive Admit where
  | admitted
  | atCapacity
  | notOwner
  deriving DecidableEq

/-- `admit_client`: `signer` becomes, or already is, the owner of `clientId`. -/
def admitClient (owners : OrdMap ClientId Pubkey) (clientId : ClientId) (signer : Pubkey)
    (max : Nat) : OrdMap ClientId Pubkey × Admit :=
  if clientIdFromPubkey signer ≠ clientId then (owners, .notOwner)
  else match owners.get? clientId with
    | some owner => (owners, if owner = signer then .admitted else .notOwner)
    | none =>
        if max ≤ owners.size then (owners, .atCapacity)
        else (owners.insert clientId signer, .admitted)

end Anymone
