import Anymone.ClientSetRepair

/-! # How long the items of client-set selection are

A batch, a bundle, a fragment and a relay are packed field by field, so that how long each is
follows from a few counts: the receipts of a batch, the polynomials of a share, the links of a
chain.  The wire message around a packed item adds a constant.
-/

namespace Anymone

/-! ## Packed items -/

section Packed
variable {C : SetCrate}

/-- `Bundle::packed_len`. -/
def Bundle.packedLen (C : SetCrate) (scp : ShareCommitmentParams) (envelopeLen : Nat) : Nat :=
  8 + scp.blockLen * C.rsPolyPackedLen + C.freshPathPackedLen scp.nLanes + envelopeLen +
    C.pubkeyLen + C.sigLen

/-- The share and the path of a bundle have the packed lengths their geometry fixes. -/
structure Bundle.Exact (scp : ShareCommitmentParams) (b : Bundle C) : Prop where
  share : (C.packShare b.share).length = scp.blockLen * C.rsPolyPackedLen
  path : ∀ bytes, C.pathToBytes b.path = some bytes →
    bytes.length = C.freshPathPackedLen scp.nLanes

theorem Bundle.Exact.length_pack {scp : ShareCommitmentParams} {b : Bundle C} (h : b.Exact scp)
    {bytes : Bytes} (hpack : b.pack = some bytes) :
    bytes.length = Bundle.packedLen C scp b.envelope.length := by
  obtain ⟨path, hpath, hpack⟩ := Option.bind_eq_some_iff.mp hpack
  cases hpack
  simp only [List.length_append, leBytes_length, h.share, h.path path hpath, b.pubkey.2, b.sig.2]
  unfold Bundle.packedLen
  omega

theorem ReceiptBatch.length_pack (b : ReceiptBatch C) :
    b.pack.length = 8 + C.sigLen + b.receipts.length * Receipt.packedLen C := by
  have hreceipts : (b.receipts.flatMap Receipt.pack).length =
      b.receipts.length * Receipt.packedLen C := by
    rw [List.length_flatMap, List.map_congr_left (fun r _ => Receipt.pack_length r),
      List.map_const', List.sum_replicate_nat]
  unfold ReceiptBatch.pack
  simp only [List.length_append, leBytes_length, b.sig.2, hreceipts]
  omega

theorem Fragment.length_pack (f : Fragment C) :
    f.pack.length = 12 + (C.packShare f.data).length + C.sigLen := by
  unfold Fragment.pack
  simp only [List.length_append, leBytes_length, f.sig.2]
  omega

/-- The packed length of a relayed item. -/
def RelayItem.packedLen : RelayItem C → Nat
  | .batch b => b.pack.length
  | .fragment f => f.pack.length

theorem Relay.length_pack (r : Relay C) :
    r.pack.length = 9 + r.item.packedLen + r.chain.length * (4 + C.sigLen) := by
  have hchain : (r.chain.flatMap (fun link => leBytes 4 link.1.val ++ link.2.1)).length =
      r.chain.length * (4 + C.sigLen) := by
    rw [List.length_flatMap, List.map_congr_left (g := fun _ => 4 + C.sigLen) (fun link _ => by
      rw [List.length_append, leBytes_length, link.2.2]), List.map_const', List.sum_replicate_nat]
  have hitem : (Relay.packItem r.item).2.length = r.item.packedLen := by
    cases r.item <;> rfl
  unfold Relay.pack
  simp only [List.length_cons, List.length_append, leBytes_length, hchain, hitem]
  omega

end Packed

/-! ## Wire messages -/

namespace PanetiereWire
open Bincode

theorem length_bundle (round : Round) (cid lane : U32) (data : Bytes) (signer : Pubkey)
    (signature : Bytes) : (bundle round cid lane data signer signature).serialize.length =
      68 + data.length + signature.length := by
  unfold serialize format
  rw [length_write_tagged .little (f := _) rfl]
  simp [variant, toServer, long, word, blob, key]
  omega

theorem length_setFragment (round : Round) (cid target : U32) (data : Bytes) (signer : Pubkey)
    (signature : Bytes) : (setFragment round cid target data signer signature).serialize.length =
      68 + data.length + signature.length := by
  unfold serialize format
  rw [length_write_tagged .little (f := _) rfl]
  simp [variant, toServer, long, word, blob, key]
  omega

theorem length_setBatch (round : Round) (data : Bytes) :
    (setBatch round data).serialize.length = 20 + data.length := by
  unfold serialize format
  rw [length_write_tagged .little (f := _) rfl]
  simp [variant, long, blob]
  omega

theorem length_setRelay (round : Round) (data : Bytes) :
    (setRelay round data).serialize.length = 20 + data.length := by
  unfold serialize format
  rw [length_write_tagged .little (f := _) rfl]
  simp [variant, long, blob]
  omega

/-- The messages that consensus set formation adds: a client's bundles and fragments, a lane's
batch and what the lanes relay. -/
def formsSet : PanetiereWire → Bool
  | bundle .. | setBatch .. | setFragment .. | setRelay .. => true
  | _ => false

end PanetiereWire
end Anymone
