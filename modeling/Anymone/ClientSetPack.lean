import Anymone.ClientSetItems

/-! # Packed receipts, fragments and relays

The byte forms in which batches, fragments and relays travel inside a wire
message.  Every reader consumes its bytes exactly, and bounds a count by the bytes
present before it reads that many entries.
-/

namespace Anymone
variable {C : SetCrate}

/-- The little-endian `u32` at offset `i`, as a `u32`. -/
def word32 (bytes : Bytes) (i : Nat) : Option U32 :=
  (slice? bytes i (i + 4)).map (fun w => Fin.ofNat _ (leVal w))

/-- `Receipt::unpack`. -/
def Receipt.unpack (bytes : Bytes) : Option (Receipt C) := do
  let clientId ← word32 bytes 0
  let pkC ← toArr? C.pubkeyLen (← slice? bytes 4 (4 + C.pubkeyLen))
  let bundleHash ← toArr? 32 (← slice? bytes (4 + C.pubkeyLen) (Receipt.packedLen C))
  some ⟨clientId, pkC, bundleHash⟩

namespace ReceiptBatch

/-- `ReceiptBatch::pack`. -/
def pack (b : ReceiptBatch C) : Bytes :=
  leBytes 4 b.serverId.val ++ (b.sig.1 ++ (leBytes 4 b.receipts.length ++
    b.receipts.flatMap Receipt.pack))

/-- The receipt loop of `ReceiptBatch::unpack`: `n` receipts from offset `at_`,
with the offset after them. -/
def unpackReceipts (bytes : Bytes) : Nat → Nat → Option (List (Receipt C) × Nat)
  | 0, at_ => some ([], at_)
  | n + 1, at_ => do
      let r ← Receipt.unpack (← slice? bytes at_ (at_ + Receipt.packedLen C))
      let (rs, end_) ← unpackReceipts bytes n (at_ + Receipt.packedLen C)
      some (r :: rs, end_)

/-- `ReceiptBatch::unpack`. -/
def unpack (bytes : Bytes) : Option (ReceiptBatch C) := do
  let serverId ← word32 bytes 0
  let sig ← toArr? C.sigLen (← slice? bytes 4 (4 + C.sigLen))
  let n ← Bundle.word bytes (4 + C.sigLen)
  let at_ := 4 + C.sigLen + 4
  if (bytes.length - at_) / Receipt.packedLen C < n then none
  else
    let (receipts, end_) ← unpackReceipts bytes n at_
    if end_ = bytes.length then some ⟨serverId, receipts, sig⟩ else none

end ReceiptBatch

namespace Fragment

/-- `Fragment::pack`. -/
def pack (f : Fragment C) : Bytes :=
  leBytes 4 f.clientId.val ++ (leBytes 4 f.idx ++ (leBytes 4 f.data.length ++
    (C.packShare f.data ++ f.sig.1)))

/-- `Fragment::unpack`. -/
def unpack (bytes : Bytes) : Option (Fragment C) := do
  let clientId ← word32 bytes 0
  let idx ← Bundle.word bytes 4
  let nPolys ← Bundle.word bytes 8
  let body := 12 + nPolys * C.rsPolyPackedLen
  if (bytes.length - 12) / C.rsPolyPackedLen < nPolys ∨ bytes.length ≠ body + C.sigLen then none
  else
    let data ← C.unpackShare (← slice? bytes 12 body) nPolys
    let sig ← toArr? C.sigLen (← slice? bytes body bytes.length)
    some ⟨clientId, idx, data, sig⟩

end Fragment

namespace Relay

/-- `Relay::CHAIN_ENTRY`. -/
def chainEntry (C : SetCrate) : Nat := 4 + C.sigLen

/-- The tag byte and the packed item. -/
def packItem : RelayItem C → U8 × Bytes
  | .batch b => (0, b.pack)
  | .fragment f => (1, f.pack)

/-- `Relay::pack`. -/
def pack (r : Relay C) : Bytes :=
  let (tag, item) := packItem r.item
  tag :: (leBytes 4 item.length ++ (item ++ (leBytes 4 r.chain.length ++
    r.chain.flatMap (fun link => leBytes 4 link.1.val ++ link.2.1))))

/-- The chain loop of `Relay::unpack`: `n` links from offset `at_`, with the offset
after them. -/
def unpackChain (bytes : Bytes) : Nat → Nat → Option (List (ServerId × C.Sig) × Nat)
  | 0, at_ => some ([], at_)
  | n + 1, at_ => do
      let lane ← word32 bytes at_
      let sig ← toArr? C.sigLen (← slice? bytes (at_ + 4) (at_ + chainEntry C))
      let (links, end_) ← unpackChain bytes n (at_ + chainEntry C)
      some ((lane, sig) :: links, end_)

/-- The item a tag byte and a body spell. -/
def unpackItem (tag : U8) (body : Bytes) : Option (RelayItem C) :=
  if tag = 0 then (ReceiptBatch.unpack body).map .batch
  else if tag = 1 then (Fragment.unpack body).map .fragment
  else none

/-- `Relay::unpack`. -/
def unpack (bytes : Bytes) : Option (Relay C) := do
  let tag ← bytes.head?
  let itemLen ← Bundle.word bytes 1
  let item ← unpackItem tag (← slice? bytes 5 (5 + itemLen))
  let nChain ← Bundle.word bytes (5 + itemLen)
  let at_ := 5 + itemLen + 4
  if (bytes.length - at_) / chainEntry C < nChain then none
  else
    let (chain, end_) ← unpackChain bytes nChain at_
    if end_ = bytes.length then some ⟨item, chain⟩ else none

end Relay
end Anymone
