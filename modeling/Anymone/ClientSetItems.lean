import Anymone.Bytes

/-! # What clients and lanes sign

The items of canonical client-set selection: a client's bundle for one lane, a
lane's receipt batch, a client's repair fragment, and a relayed item with its
signature chain.  Each is signed over a tagged concatenation of fixed-width
fields, written out here byte for byte.

Everything the `panetiere` and `sha2` crates do is a parameter (`SetCrate`): the
polynomials of a coded share and their packing, the P-256 signatures, SHA-256,
the Reed-Solomon code, and the sealed opening.  The one law the structure states
is that a signature verifies under its own key.
-/

namespace Anymone

/-- `panetiere::protocol::ClientId`. -/
abbrev ClientId := U32

/-- `panetiere::protocol::ServerId`. -/
abbrev ServerId := U32

/-- `panetiere::protocol::SessionId`. -/
abbrev SessionId := ByteArr 32

/-- A SHA-256 digest. -/
abbrev Digest := ByteArr 32

/-- `panetiere::rs::RsParams`: any `k` of `n` shares rebuild. -/
structure RsParams where
  k : Nat
  n : Nat

/-- `panetiere::share_commitment::ShareCommitmentParams`. -/
structure ShareCommitmentParams where
  blockLen : Nat
  nLanes : Nat

/-- `panetiere::share_commitment::SharePath`, over the crate's polynomials. -/
structure SharePath (HVCPoly : Type) where
  laneIndex : Nat
  nodes : List HVCPoly

/-- `panetiere::protocol::ProtocolParams` in RS mode.  `one_lane_per_server` is
the assertion of `code`, carried by the value. -/
structure ProtocolParams where
  nServers : Nat
  rs : RsParams
  shareComm : Option ShareCommitmentParams
  /-- The Shamir threshold `shamir.t`. -/
  shamirT : Nat
  one_lane_per_server : rs.n = nServers

/-- What canonical client-set selection takes from the crates it is built on. -/
structure SetCrate where
  /-- `panetiere::RsNTTPoly`. -/
  RsNTTPoly : Type
  /-- `panetiere::HVCPoly`. -/
  HVCPoly : Type
  /-- `panetiere::sig::SigningKey`. -/
  SigningKey : Type
  /-- `panetiere::sig::VerifyingKey`. -/
  VerifyingKey : Type
  /-- `panetiere::pke::PrivateKey`. -/
  PrivateKey : Type
  /-- `panetiere::cs::Opening`. -/
  Opening : Type
  /-- `sig::PUBKEY_LEN`. -/
  pubkeyLen : Nat
  /-- `sig::SIG_LEN`. -/
  sigLen : Nat
  verifyingKey : SigningKey → VerifyingKey
  toSec1Bytes : VerifyingKey → ByteArr pubkeyLen
  fromSec1Bytes : ByteArr pubkeyLen → Option VerifyingKey
  sign : SigningKey → Bytes → ByteArr sigLen
  verify : VerifyingKey → Bytes → ByteArr sigLen → Bool
  verify_sign : ∀ sk m, verify (verifyingKey sk) m (sign sk m) = true
  sha256 : Bytes → Digest
  rsPolyPackedLen : Nat
  packShare : List RsNTTPoly → Bytes
  unpackShare : Bytes → Nat → Option (List RsNTTPoly)
  /-- The little-endian bytes of a polynomial's coefficients, in order. -/
  coeffBytes : HVCPoly → Bytes
  pathToBytes : SharePath HVCPoly → Option Bytes
  pathFromBytes : ShareCommitmentParams → Nat → Bytes → Option (SharePath HVCPoly)
  freshPathPackedLen : Nat → Nat
  /-- `panetiere::N`. -/
  polyN : Nat
  fromNttSlots : List Nat → RsNTTPoly
  nttSlots : RsNTTPoly → List Nat
  rsEncode : RsParams → List RsNTTPoly → List (List RsNTTPoly)
  rsReconstruct : RsParams → Nat → List (Nat × List RsNTTPoly) → Option (List RsNTTPoly)
  unsealOpening : PrivateKey → SessionId → ClientId → ServerId → Bytes → Option Opening

variable (C : SetCrate)

/-- `[u8; sig::PUBKEY_LEN]`. -/
abbrev SetCrate.Pk := ByteArr C.pubkeyLen

/-- `[u8; sig::SIG_LEN]`. -/
abbrev SetCrate.Sig := ByteArr C.sigLen

/-- `panetiere::rs::Share`. -/
abbrev SetCrate.Share := List C.RsNTTPoly

/-- `relay_rounds`: one Dolev–Strong round more than the `n − k`
misbehaving-server budget. -/
def relayRounds (pp : ProtocolParams) : Nat := pp.rs.n - pp.rs.k + 1

/-- `fragment_params`: one share per lane, any `n − k` of which rebuild. -/
def fragmentParams (pp : ProtocolParams) : RsParams := ⟨pp.rs.n - pp.rs.k, pp.rs.n⟩

variable {C}

/-- `sha`: the digest of the parts one after another. -/
def sha (parts : List Bytes) : Digest := C.sha256 parts.flatten

/-- `hash_share`. -/
def hashShare (share : C.Share) : Digest := C.sha256 (C.packShare share)

/-- `hash_path`. -/
def hashPath (path : SharePath C.HVCPoly) : Digest :=
  C.sha256 (leBytes 4 path.laneIndex ++ path.nodes.flatMap C.coeffBytes)

/-! ## Bundles -/

/-- `Bundle`: lane `lane`'s coded share, its path to the share root and the
sealed opening, signed under the client's boot key `pubkey`. -/
structure Bundle (C : SetCrate) where
  clientId : ClientId
  lane : Nat
  share : C.Share
  path : SharePath C.HVCPoly
  envelope : Bytes
  pubkey : C.Pk
  sig : C.Sig

/-- `bundle_signing_bytes`. -/
def bundleSigningBytes (sid : SessionId) (clientId : ClientId) (lane : Nat) (share : C.Share)
    (path : SharePath C.HVCPoly) (envelope : Bytes) : Bytes :=
  ascii "panetiere/client-set/bundle/v3" ++ sid.1 ++ leBytes 4 clientId.val ++ leBytes 4 lane ++
    (hashShare share).1 ++ (hashPath path).1 ++ (sha (C := C) [envelope]).1

namespace Bundle

/-- `Bundle::hash`: what a certificate binds. -/
def hash (b : Bundle C) : Digest :=
  sha (C := C) [(hashShare b.share).1, (hashPath b.path).1, b.envelope, b.pubkey.1, b.sig.1]

/-- `Bundle::verify`. -/
def verify (b : Bundle C) (sid : SessionId) (nLanes : Nat) : Bool :=
  if nLanes ≤ b.lane ∨ b.path.laneIndex ≠ b.lane then false
  else match C.fromSec1Bytes b.pubkey with
    | none => false
    | some vk =>
        C.verify vk (bundleSigningBytes sid b.clientId b.lane b.share b.path b.envelope) b.sig

/-- `Bundle::pack`; `none` when the path does not pack. -/
def pack (b : Bundle C) : Option Bytes := do
  let path ← C.pathToBytes b.path
  some (leBytes 4 b.lane ++ C.packShare b.share ++ path ++ leBytes 4 b.envelope.length ++
    b.envelope ++ b.pubkey.1 ++ b.sig.1)

/-- The little-endian `u32` at offset `i`. -/
def word (bytes : Bytes) (i : Nat) : Option Nat := (slice? bytes i (i + 4)).map leVal

/-- `Bundle::unpack`: one bundle from the front of `bytes`, with the length it
took. -/
def unpack (scp : ShareCommitmentParams) (clientId : ClientId) (bytes : Bytes) :
    Option (Bundle C × Nat) := do
  let lane ← word bytes 0
  let shareEnd := 4 + scp.blockLen * C.rsPolyPackedLen
  let share ← C.unpackShare (← slice? bytes 4 shareEnd) scp.blockLen
  let pathEnd := shareEnd + C.freshPathPackedLen scp.nLanes
  let path ← C.pathFromBytes scp lane (← slice? bytes shareEnd pathEnd)
  let envLen ← word bytes pathEnd
  let envEnd := pathEnd + 4 + envLen
  let envelope ← slice? bytes (pathEnd + 4) envEnd
  let pkEnd := envEnd + C.pubkeyLen
  let pubkey ← toArr? C.pubkeyLen (← slice? bytes envEnd pkEnd)
  let sigEnd := pkEnd + C.sigLen
  let sig ← toArr? C.sigLen (← slice? bytes pkEnd sigEnd)
  some (⟨clientId, lane, share, path, envelope, pubkey, sig⟩, sigEnd)

end Bundle

/-! ## Receipts and batches -/

/-- `Receipt`: one lane's record that it holds a client's bundle, under the boot
key the bundle was signed with. -/
structure Receipt (C : SetCrate) where
  clientId : ClientId
  pkC : C.Pk
  bundleHash : Digest
  deriving DecidableEq

namespace Receipt

/-- `Receipt::PACKED_LEN`. -/
def packedLen (C : SetCrate) : Nat := 4 + C.pubkeyLen + 32

/-- `Receipt::pack_into`. -/
def pack (r : Receipt C) : Bytes := leBytes 4 r.clientId.val ++ r.pkC.1 ++ r.bundleHash.1

theorem pack_length (r : Receipt C) : r.pack.length = packedLen C := by
  simp [pack, packedLen, r.pkC.2, r.bundleHash.2]
  omega

theorem pack_inj {r r' : Receipt C} (h : r.pack = r'.pack) : r = r' := by
  unfold pack at h
  have hfront := append_eq_append_of_length
    (by simp [r.pkC.2, r'.pkC.2] : (leBytes 4 r.clientId.val ++ r.pkC.1).length =
      (leBytes 4 r'.clientId.val ++ r'.pkC.1).length) h
  obtain ⟨hcid, hpk⟩ := append_eq_append_of_length (by simp) hfront.1
  cases r
  cases r'
  simp only [Receipt.mk.injEq]
  exact ⟨leBytes_u32_inj hcid, Subtype.ext hpk, Subtype.ext hfront.2⟩

end Receipt

/-- `ReceiptBatch`: everything lane `serverId` accepted, signed once. -/
structure ReceiptBatch (C : SetCrate) where
  serverId : ServerId
  receipts : List (Receipt C)
  sig : C.Sig
  deriving DecidableEq

/-- `batch_signing_bytes`. -/
def batchSigningBytes (sid : SessionId) (serverId : ServerId) (receipts : List (Receipt C)) :
    Bytes :=
  ascii "panetiere/client-set/batch/v1" ++ (sid.1 ++ (leBytes 4 serverId.val ++
    (leBytes 4 receipts.length ++ receipts.flatMap Receipt.pack)))

/-- Receipts are fixed-width, so a concatenation of them can be read back. -/
theorem flatMap_pack_inj : ∀ {rs rs' : List (Receipt C)},
    rs.flatMap Receipt.pack = rs'.flatMap Receipt.pack → rs = rs'
  | [], [], _ => rfl
  | [], r' :: rs', h => by
      have := congrArg List.length h
      simp [Receipt.pack_length, Receipt.packedLen] at this
      omega
  | r :: rs, [], h => by
      have := congrArg List.length h
      simp [Receipt.pack_length, Receipt.packedLen] at this
  | r :: rs, r' :: rs', h => by
      rw [List.flatMap_cons, List.flatMap_cons] at h
      obtain ⟨hr, hrs⟩ := append_eq_append_of_length
        (by rw [Receipt.pack_length, Receipt.pack_length]) h
      rw [Receipt.pack_inj hr, flatMap_pack_inj hrs]

/-- **A batch's signed bytes determine its lane and its receipts.** -/
theorem batchSigningBytes_inj {sid : SessionId} {i j : ServerId} {rs rs' : List (Receipt C)}
    (h : batchSigningBytes sid i rs = batchSigningBytes sid j rs') : i = j ∧ rs = rs' := by
  unfold batchSigningBytes at h
  have h1 := (append_eq_append_of_length rfl h).2
  have h2 := (append_eq_append_of_length rfl h1).2
  obtain ⟨hi, h3⟩ := append_eq_append_of_length (by simp) h2
  have h4 := (append_eq_append_of_length (by simp) h3).2
  exact ⟨leBytes_u32_inj hi, flatMap_pack_inj h4⟩

namespace ReceiptBatch

/-- `ReceiptBatch::verify`: under the key of the lane it names. -/
def verify (b : ReceiptBatch C) (sid : SessionId) (pks : List C.VerifyingKey) : Bool :=
  match pks[b.serverId.val]? with
  | none => false
  | some vk => C.verify vk (batchSigningBytes sid b.serverId b.receipts) b.sig

end ReceiptBatch

/-! ## Fragments -/

/-- `Fragment`: one coded piece of the bundles of the lanes that took nothing. -/
structure Fragment (C : SetCrate) where
  clientId : ClientId
  idx : Nat
  data : C.Share
  sig : C.Sig

instance [DecidableEq C.RsNTTPoly] : DecidableEq (Fragment C) := fun f g =>
  decidable_of_iff (f.clientId = g.clientId ∧ f.idx = g.idx ∧ f.data = g.data ∧ f.sig = g.sig)
    (by cases f; cases g; simp)

/-- `fragment_signing_bytes`. -/
def fragmentSigningBytes (sid : SessionId) (clientId : ClientId) (idx : Nat) (data : C.Share) :
    Bytes :=
  ascii "panetiere/client-set/fragment/v1" ++ (sid.1 ++ (leBytes 4 clientId.val ++
    (leBytes 4 idx ++ (hashShare data).1)))

/-! ## Relays -/

/-- `relay_signing_bytes`: what a chain link signs. -/
def relaySigningBytes (sid : SessionId) (itemHash : Digest) : Bytes :=
  ascii "panetiere/client-set/relay/v1" ++ (sid.1 ++ itemHash.1)

theorem relaySigningBytes_inj {sid : SessionId} {h h' : Digest}
    (he : relaySigningBytes sid h = relaySigningBytes sid h') : h = h' := by
  unfold relaySigningBytes at he
  have h1 := (append_eq_append_of_length rfl he).2
  exact Subtype.ext (append_eq_append_of_length rfl h1).2

/-- A chain link is never a batch signature: the tags differ. -/
theorem relaySigningBytes_ne_batch {sid : SessionId} {h : Digest} {i : ServerId}
    {rs : List (Receipt C)} : relaySigningBytes sid h ≠ batchSigningBytes sid i rs := by
  intro he
  unfold relaySigningBytes batchSigningBytes at he
  have htag := (append_eq_append_of_length (by decide) he).1
  exact absurd htag (by decide)

/-- `RelayItem`. -/
inductive RelayItem (C : SetCrate) where
  | batch (b : ReceiptBatch C)
  | fragment (f : Fragment C)

namespace RelayItem

instance [DecidableEq C.RsNTTPoly] : DecidableEq (RelayItem C)
  | batch b, batch b' => decidable_of_iff (b = b') (by simp)
  | fragment f, fragment f' => decidable_of_iff (f = f') (by simp)
  | batch _, fragment _ => isFalse (by simp)
  | fragment _, batch _ => isFalse (by simp)

/-- The bytes `RelayItem::hash` digests.  A batch's signature is not among them,
so a re-signed batch is the same item. -/
def preimage (sid : SessionId) : RelayItem C → Bytes
  | batch b =>
      ascii "panetiere/client-set/batch-id/v1" ++ batchSigningBytes sid b.serverId b.receipts
  | fragment f =>
      ascii "panetiere/client-set/fragment-id/v1" ++
        fragmentSigningBytes sid f.clientId f.idx f.data

/-- `RelayItem::hash`. -/
def hash (sid : SessionId) (item : RelayItem C) : Digest := C.sha256 (item.preimage sid)

/-- The batch, if the item is one. -/
def batch? : RelayItem C → Option (ReceiptBatch C)
  | batch b => some b
  | fragment _ => none

/-- The fragment, if the item is one. -/
def fragment? : RelayItem C → Option (Fragment C)
  | batch _ => none
  | fragment f => some f

/-- Whether the item is a batch, the test `absorb` partitions by. -/
def isBatch : RelayItem C → Bool
  | batch _ => true
  | fragment _ => false

theorem preimage_batch_inj {sid : SessionId} {b b' : ReceiptBatch C}
    (h : (batch b).preimage sid = (batch b').preimage sid) :
    b.serverId = b'.serverId ∧ b.receipts = b'.receipts :=
  batchSigningBytes_inj (append_eq_append_of_length rfl h).2

/-- No batch and fragment digest the same bytes. -/
theorem preimage_batch_ne_fragment {sid : SessionId} {b : ReceiptBatch C} {f : Fragment C} :
    (batch b).preimage sid ≠ (fragment f).preimage sid := by
  intro h
  -- The tags have different lengths but already differ at their 22nd byte.
  have := congrArg (fun l : Bytes => l[21]?) h
  simp only [preimage] at this
  rw [List.getElem?_append_left (by decide), List.getElem?_append_left (by decide)] at this
  exact absurd this (by decide)

/-- Fragments that digest the same bytes are for one client, one index (as a
`u32`) and one share digest. -/
theorem preimage_fragment_inj {sid : SessionId} {f f' : Fragment C}
    (h : (fragment f).preimage sid = (fragment f').preimage sid) :
    f.clientId = f'.clientId ∧ leBytes 4 f.idx = leBytes 4 f'.idx ∧
      hashShare f.data = hashShare f'.data := by
  have h0 := (append_eq_append_of_length rfl h).2
  unfold fragmentSigningBytes at h0
  have h1 := (append_eq_append_of_length rfl h0).2
  have h2 := (append_eq_append_of_length rfl h1).2
  obtain ⟨hc, h3⟩ := append_eq_append_of_length (by simp) h2
  obtain ⟨hi, hd⟩ := append_eq_append_of_length (by simp) h3
  exact ⟨leBytes_u32_inj hc, hi, Subtype.ext hd⟩

end RelayItem

/-- `Relay`: an item and its signature chain. -/
structure Relay (C : SetCrate) where
  item : RelayItem C
  chain : List (ServerId × C.Sig)

instance [DecidableEq C.RsNTTPoly] : DecidableEq (Relay C) := fun r r' =>
  decidable_of_iff (r.item = r'.item ∧ r.chain = r'.chain) (by cases r; cases r'; simp)

end Anymone
