import Anymone.ClientSetPack
import Anymone.ClientSetBlob
import Anymone.Traced


/-! # The packed forms are canonical

A reader of a packed form accepts exactly the bytes its writer produces
(`Relay.unpack_eq_some`, and the same for batches and fragments), so no item has
two spellings.  The equations are read off adjacent slices: a field lies where the
ones before it end (`slice?_append_iff`).

A count is believed only as far as the bytes reach.  `Relay.scan` is `Relay.unpack`
with a log of the slices it takes and the room it reserves, and every entry of the
log lies within the bytes (`Relay.scan_within`).
-/

namespace Anymone

/-! ## Adjacent slices -/

theorem slice?_eq_some {bs x : Bytes} {a b : Nat} :
    slice? bs a b = some x ↔ a ≤ b ∧ b ≤ bs.length ∧ (bs.drop a).take (b - a) = x := by
  unfold slice?
  by_cases h : a ≤ b ∧ b ≤ bs.length
  · rw [if_pos h, Option.some.injEq]
    exact ⟨fun hx => ⟨h.1, h.2, hx⟩, fun hx => hx.2.2⟩
  · rw [if_neg h]
    exact ⟨fun hx => absurd hx (by simp), fun hx => absurd ⟨hx.1, hx.2.1⟩ h⟩

theorem length_of_slice {bs x : Bytes} {a b : Nat} (h : slice? bs a b = some x) :
    b = a + x.length := by
  obtain ⟨hab, hb, rfl⟩ := slice?_eq_some.mp h
  rw [List.length_take, List.length_drop]
  omega

/-- **A slice of two fields is a slice of each**, the second where the first
ends. -/
theorem slice?_append_iff {bs x y : Bytes} {a b e : Nat} (hb : b = a + x.length)
    (he : e = b + y.length) :
    slice? bs a e = some (x ++ y) ↔ slice? bs a b = some x ∧ slice? bs b e = some y := by
  subst hb he
  simp only [slice?_eq_some]
  constructor
  · rintro ⟨-, hlen, heq⟩
    rw [show a + x.length + y.length - a = x.length + y.length by omega, List.take_add,
      List.drop_drop] at heq
    have hx : ((bs.drop a).take x.length).length = x.length := by
      rw [List.length_take, List.length_drop]
      omega
    obtain ⟨h1, h2⟩ := append_eq_append_of_length hx heq
    refine ⟨⟨by omega, by omega, by rwa [Nat.add_sub_cancel_left]⟩, by omega, hlen, ?_⟩
    rwa [Nat.add_sub_cancel_left]
  · rintro ⟨⟨-, -, h1⟩, -, hlen, h2⟩
    rw [Nat.add_sub_cancel_left] at h1 h2
    refine ⟨by omega, hlen, ?_⟩
    rw [show a + x.length + y.length - a = x.length + y.length by omega, List.take_add,
      List.drop_drop, h1, h2]

/-- The slice from the start to the end is all there is. -/
theorem slice?_all {bs x : Bytes} : slice? bs 0 bs.length = some x ↔ x = bs := by
  rw [slice?_eq_some]
  simp [eq_comm]

theorem slice?_nil {bs : Bytes} {a : Nat} (h : a ≤ bs.length) : slice? bs a a = some [] :=
  slice?_eq_some.mpr ⟨le_rfl, h, by simp⟩

theorem head_eq_some {bs : Bytes} {x : U8} : bs.head? = some x ↔ slice? bs 0 1 = some [x] := by
  rw [slice?_eq_some]
  cases bs with
  | nil => simp
  | cons y bs => simp

theorem word_eq_some {bs : Bytes} {i n : Nat} :
    Bundle.word bs i = some n ↔ slice? bs i (i + 4) = some (leBytes 4 n) ∧ n < 2 ^ 32 := by
  unfold Bundle.word
  rw [Option.map_eq_some_iff]
  constructor
  · rintro ⟨w, hw, rfl⟩
    have hlen : w.length = 4 := by
      have := length_of_slice hw
      omega
    have hlt := leVal_lt w
    rw [hlen] at hlt
    rw [leBytes_leVal 4 w hlen.le, hlen]
    exact ⟨by simpa using hw, hlt⟩
  · rintro ⟨hw, hn⟩
    exact ⟨_, hw, by rw [leVal_leBytes]; exact Nat.mod_eq_of_lt hn⟩

theorem word32_eq_some {bs : Bytes} {i : Nat} {n : U32} :
    word32 bs i = some n ↔ slice? bs i (i + 4) = some (leBytes 4 n.val) := by
  have h : word32 bs i = (Bundle.word bs i).map (Fin.ofNat _) := by
    unfold word32 Bundle.word
    rw [Option.map_map]
    rfl
  rw [h, Option.map_eq_some_iff]
  constructor
  · rintro ⟨m, hm, rfl⟩
    obtain ⟨hs, hlt⟩ := word_eq_some.mp hm
    rwa [show (Fin.ofNat 4294967296 m).val = m from Nat.mod_eq_of_lt hlt]
  · intro hs
    exact ⟨n.val, word_eq_some.mpr ⟨hs, n.isLt⟩, Fin.ext (Nat.mod_eq_of_lt n.isLt)⟩

theorem toArr?_eq_some {n : Nat} {x : Bytes} {arr : ByteArr n} :
    toArr? n x = some arr ↔ arr.1 = x := by
  unfold toArr?
  constructor
  · intro h
    split_ifs at h
    obtain rfl := Option.some.inj h
    rfl
  · rintro rfl
    exact dif_pos arr.2

/-! ## Lists of one width -/

theorem length_flatMap_of_length {α : Type} {pack : α → Bytes} {width : Nat}
    (hlen : ∀ x, (pack x).length = width) (xs : List α) :
    (xs.flatMap pack).length = xs.length * width := by
  induction xs with
  | nil => simp
  | cons x xs ih =>
    rw [List.flatMap_cons, List.length_append, hlen, ih, List.length_cons, Nat.succ_mul, Nat.add_comm]

/-- `n` entries of `width` bytes from offset `at_`, with the offset after them. -/
def readMany {α : Type} (read : Nat → Option α) (width : Nat) : Nat → Nat → Option (List α × Nat)
  | 0, at_ => some ([], at_)
  | n + 1, at_ => do
      let x ← read at_
      let (xs, end_) ← readMany read width n (at_ + width)
      some (x :: xs, end_)

/-- **Entries are read exactly when they are packed one after another.** -/
theorem readMany_eq_some {α : Type} {read : Nat → Option α} {pack : α → Bytes} {bytes : Bytes}
    {width : Nat} (hlen : ∀ x, (pack x).length = width)
    (hread : ∀ i x, read i = some x ↔ slice? bytes i (i + width) = some (pack x)) :
    ∀ {n at_ end_ : Nat} {xs : List α}, at_ ≤ bytes.length →
      (readMany read width n at_ = some (xs, end_) ↔
        xs.length = n ∧ end_ = at_ + n * width ∧ slice? bytes at_ end_ = some (xs.flatMap pack)) := by
  intro n
  induction n with
  | zero =>
    intro at_ end_ xs hat
    unfold readMany
    rw [Option.some.injEq, Prod.mk.injEq, List.length_eq_zero_iff, Nat.zero_mul, Nat.add_zero]
    constructor
    · rintro ⟨rfl, rfl⟩
      exact ⟨rfl, rfl, slice?_nil hat⟩
    · rintro ⟨rfl, rfl, -⟩
      exact ⟨rfl, rfl⟩
  | succ n ih =>
    intro at_ end_ xs hat
    have hend : at_ + (n + 1) * width = at_ + width + n * width := by
      rw [Nat.succ_mul]
      omega
    unfold readMany
    simp only [Option.bind_eq_bind, Option.bind_eq_some_iff, hread, hend]
    constructor
    · rintro ⟨x, hx, ⟨xs', _⟩, hxs, h⟩
      obtain ⟨rfl, rfl⟩ := Prod.mk.inj (Option.some.inj h)
      obtain ⟨rfl, rfl, hs⟩ := (ih (slice?_eq_some.mp hx).2.1).mp hxs
      refine ⟨rfl, rfl, ?_⟩
      rw [List.flatMap_cons, slice?_append_iff (b := at_ + width) (by rw [hlen]) (length_of_slice hs)]
      exact ⟨hx, hs⟩
    · rintro ⟨hn, rfl, h⟩
      obtain ⟨x, xs, rfl⟩ := List.exists_cons_of_length_eq_add_one hn
      obtain rfl : xs.length = n := by simpa using hn
      rw [List.flatMap_cons, slice?_append_iff (b := at_ + width) (by rw [hlen])
        (by rw [length_flatMap_of_length hlen])] at h
      exact ⟨x, h.1, (xs, _), (ih (slice?_eq_some.mp h.1).2.1).mpr ⟨rfl, rfl, h.2⟩, rfl⟩

variable {C : SetCrate}

/-- `pack_share` and `unpack_share` are inverse on inputs of exact length. -/
structure ShareLaws (C : SetCrate) : Prop where
  packed_pos : 0 < C.rsPolyPackedLen
  length_pack : ∀ share : C.Share, (C.packShare share).length = share.length * C.rsPolyPackedLen
  unpack_pack : ∀ share : C.Share, C.unpackShare (C.packShare share) share.length = some share
  pack_unpack : ∀ (bytes : Bytes) (n : Nat) (share : C.Share),
    bytes.length = n * C.rsPolyPackedLen → C.unpackShare bytes n = some share →
    share.length = n ∧ C.packShare share = bytes

/-! ## Receipts and batches -/

theorem Receipt.unpack_eq_some {bytes : Bytes} {r : Receipt C}
    (hlen : bytes.length = Receipt.packedLen C) : Receipt.unpack bytes = some r ↔ r.pack = bytes := by
  rw [← slice?_all, hlen]
  unfold Receipt.pack Receipt.packedLen
  rw [slice?_append_iff (b := 4 + C.pubkeyLen) (by simp [r.pkC.2]) (by rw [r.bundleHash.2]),
    slice?_append_iff (b := 4) (by simp) (by rw [r.pkC.2])]
  unfold Receipt.unpack Receipt.packedLen
  simp only [Option.bind_eq_bind, Option.bind_eq_some_iff, word32_eq_some, toArr?_eq_some]
  constructor
  · rintro ⟨cid, hcid, _, hpk, pkC, rfl, _, hhash, hash, rfl, hr⟩
    obtain rfl := Option.some.inj hr
    exact ⟨⟨hcid, hpk⟩, hhash⟩
  · rintro ⟨⟨hcid, hpk⟩, hhash⟩
    exact ⟨_, hcid, _, hpk, _, rfl, _, hhash, _, rfl, rfl⟩

namespace ReceiptBatch

theorem unpackReceipts_eq (bytes : Bytes) : ∀ n at_ : Nat, unpackReceipts (C := C) bytes n at_ =
    readMany (fun at_ => (slice? bytes at_ (at_ + Receipt.packedLen C)).bind Receipt.unpack)
      (Receipt.packedLen C) n at_
  | 0, _ => rfl
  | n + 1, at_ => by
      unfold unpackReceipts readMany
      simp only [unpackReceipts_eq bytes n, Option.bind_eq_bind, Option.bind_assoc]

/-- The receipt loop reads `rs` exactly when `rs` is packed at its offset. -/
theorem unpackReceipts_eq_some {bytes : Bytes} {n at_ end_ : Nat} {rs : List (Receipt C)}
    (hat : at_ ≤ bytes.length) : unpackReceipts bytes n at_ = some (rs, end_) ↔
      rs.length = n ∧ end_ = at_ + n * Receipt.packedLen C ∧
        slice? bytes at_ end_ = some (rs.flatMap Receipt.pack) := by
  rw [unpackReceipts_eq]
  refine readMany_eq_some Receipt.pack_length (fun i r => ?_) hat
  rw [Option.bind_eq_some_iff]
  constructor
  · rintro ⟨x, hx, hr⟩
    have := length_of_slice hx
    rwa [(Receipt.unpack_eq_some (by omega)).mp hr]
  · exact fun h => ⟨_, h, (Receipt.unpack_eq_some (Receipt.pack_length r)).mpr rfl⟩

theorem pack_length (b : ReceiptBatch C) :
    b.pack.length = 4 + C.sigLen + 4 + b.receipts.length * Receipt.packedLen C := by
  unfold pack
  simp only [List.length_append, leBytes_length, b.sig.2, length_flatMap_of_length Receipt.pack_length]
  omega

/-- A batch's packing, field by field. -/
theorem slices_pack {bytes : Bytes} {b : ReceiptBatch C}
    (hlen : bytes.length = b.pack.length) : b.pack = bytes ↔
      slice? bytes 0 4 = some (leBytes 4 b.serverId.val) ∧
      slice? bytes 4 (4 + C.sigLen) = some b.sig.1 ∧
      slice? bytes (4 + C.sigLen) (4 + C.sigLen + 4) = some (leBytes 4 b.receipts.length) ∧
      slice? bytes (4 + C.sigLen + 4) bytes.length = some (b.receipts.flatMap Receipt.pack) := by
  rw [pack_length] at hlen
  rw [← slice?_all]
  unfold pack
  rw [slice?_append_iff (b := 4) (by simp) (by
      simp only [List.length_append, leBytes_length, b.sig.2, length_flatMap_of_length Receipt.pack_length]
      omega),
    slice?_append_iff (b := 4 + C.sigLen) (by rw [b.sig.2]) (by
      simp only [List.length_append, leBytes_length, length_flatMap_of_length Receipt.pack_length]
      omega),
    slice?_append_iff (b := 4 + C.sigLen + 4) (by simp) (by rw [length_flatMap_of_length Receipt.pack_length, hlen])]

/-- Every length the packing writes down fits its word. -/
def Short (b : ReceiptBatch C) : Prop := b.receipts.length < 2 ^ 32

/-- **A batch is read from exactly its packing.** -/
theorem unpack_eq_some {bytes : Bytes} {b : ReceiptBatch C} :
    unpack bytes = some b ↔ b.pack = bytes ∧ b.Short := by
  unfold unpack Short
  simp only [Option.bind_eq_bind, Option.bind_eq_some_iff, word32_eq_some, toArr?_eq_some,
    word_eq_some]
  constructor
  · rintro ⟨lane, hlane, _, hsig, sig, rfl, n, ⟨hn, hlt⟩, h⟩
    rw [ite_eq_iff] at h
    obtain ⟨-, h⟩ | ⟨-, h⟩ := h
    · exact absurd h (by simp)
    · obtain ⟨⟨rs, end_⟩, hrs, h⟩ := Option.bind_eq_some_iff.mp h
      rw [unpackReceipts_eq_some (slice?_eq_some.mp hn).2.1] at hrs
      obtain ⟨rfl, rfl, hrs⟩ := hrs
      dsimp only at h
      split_ifs at h with hend
      obtain rfl := Option.some.inj h
      rw [hend] at hrs
      exact ⟨(slices_pack (by rw [pack_length, ← hend])).mpr ⟨hlane, hsig, hn, hrs⟩, hlt⟩
  · rintro ⟨hb, hlt⟩
    have hlen : bytes.length = 4 + C.sigLen + 4 + b.receipts.length * Receipt.packedLen C := by
      rw [← hb, pack_length]
    obtain ⟨hlane, hsig, hn, hrs⟩ := (slices_pack (by rw [hb])).mp hb
    refine ⟨_, hlane, _, hsig, _, rfl, _, ⟨hn, hlt⟩, ?_⟩
    rw [if_neg, Option.bind_eq_some_iff]
    · refine ⟨(b.receipts, bytes.length), (unpackReceipts_eq_some (by omega)).mpr
        ⟨rfl, hlen, hrs⟩, ?_⟩
      rw [if_pos rfl]
    · have hpos : 0 < Receipt.packedLen C := by
        unfold Receipt.packedLen
        omega
      rw [hlen, Nat.add_sub_cancel_left, Nat.mul_div_cancel _ hpos]
      exact lt_irrefl _

end ReceiptBatch

/-! ## Fragments -/

namespace Fragment

/-- Every number the packing writes down fits its word. -/
def Short (f : Fragment C) : Prop := f.idx < 2 ^ 32 ∧ f.data.length < 2 ^ 32

variable (laws : ShareLaws C)
include laws

theorem pack_length (f : Fragment C) :
    f.pack.length = 12 + f.data.length * C.rsPolyPackedLen + C.sigLen := by
  unfold pack
  simp only [List.length_append, leBytes_length, f.sig.2, laws.length_pack]
  omega

/-- A fragment's packing, field by field. -/
theorem slices_pack {bytes : Bytes} {f : Fragment C} (hlen : bytes.length = f.pack.length) :
    f.pack = bytes ↔
      slice? bytes 0 4 = some (leBytes 4 f.clientId.val) ∧
      slice? bytes 4 (4 + 4) = some (leBytes 4 f.idx) ∧
      slice? bytes 8 (8 + 4) = some (leBytes 4 f.data.length) ∧
      slice? bytes 12 (12 + f.data.length * C.rsPolyPackedLen) = some (C.packShare f.data) ∧
      slice? bytes (12 + f.data.length * C.rsPolyPackedLen) bytes.length = some f.sig.1 := by
  rw [pack_length laws] at hlen
  rw [← slice?_all]
  unfold pack
  rw [slice?_append_iff (b := 4) (by simp) (by
      simp only [List.length_append, leBytes_length, f.sig.2, laws.length_pack]
      omega),
    slice?_append_iff (b := 8) (by simp) (by
      simp only [List.length_append, leBytes_length, f.sig.2, laws.length_pack]
      omega),
    slice?_append_iff (b := 12) (by simp) (by
      simp only [List.length_append, f.sig.2, laws.length_pack]
      omega),
    slice?_append_iff (b := 12 + f.data.length * C.rsPolyPackedLen) (by rw [laws.length_pack])
      (by rw [f.sig.2, hlen])]

/-- **A fragment is read from exactly its packing.** -/
theorem unpack_eq_some {bytes : Bytes} {f : Fragment C} :
    unpack bytes = some f ↔ f.pack = bytes ∧ f.Short := by
  unfold unpack Short
  simp only [Option.bind_eq_bind, Option.bind_eq_some_iff, word32_eq_some, word_eq_some]
  constructor
  · rintro ⟨cid, hcid, idx, ⟨hidx, hidxlt⟩, n, ⟨hn, hlt⟩, h⟩
    rw [ite_eq_iff] at h
    obtain ⟨-, h⟩ | ⟨hguard, h⟩ := h
    · exact absurd h (by simp)
    · simp only [Option.bind_eq_some_iff, toArr?_eq_some] at h
      obtain ⟨body, hbody, data, hdata, _, hsig, sig, rfl, h⟩ := h
      obtain rfl := Option.some.inj h
      have hblen := length_of_slice hbody
      obtain ⟨rfl, rfl⟩ := laws.pack_unpack body n data (by omega) hdata
      have hlen : bytes.length = 12 + data.length * C.rsPolyPackedLen + C.sigLen :=
        not_not.mp (fun hne => hguard (Or.inr hne))
      exact ⟨(slices_pack laws (by rw [pack_length laws, hlen])).mpr
        ⟨hcid, hidx, hn, hbody, hsig⟩, hidxlt, hlt⟩
  · rintro ⟨hf, hidxlt, hlt⟩
    have hlen : bytes.length = 12 + f.data.length * C.rsPolyPackedLen + C.sigLen := by
      rw [← hf, pack_length laws]
    obtain ⟨hcid, hidx, hn, hbody, hsig⟩ := (slices_pack laws (by rw [hf])).mp hf
    refine ⟨_, hcid, _, ⟨hidx, hidxlt⟩, _, ⟨hn, hlt⟩, ?_⟩
    rw [if_neg]
    · simp only [Option.bind_eq_some_iff, toArr?_eq_some]
      exact ⟨_, hbody, _, laws.unpack_pack f.data, _, hsig, _, rfl, rfl⟩
    · rintro (h | h)
      · rw [Nat.div_lt_iff_lt_mul laws.packed_pos] at h
        omega
      · exact h hlen

end Fragment

/-! ## Relays -/

/-- Every number the packing writes down fits its word. -/
def RelayItem.Short : RelayItem C → Prop
  | .batch b => b.Short
  | .fragment f => f.Short

namespace Relay

/-- Every number the packing writes down fits its word. -/
structure Short (r : Relay C) : Prop where
  item : r.item.Short
  item_length : (packItem r.item).2.length < 2 ^ 32
  chain_length : r.chain.length < 2 ^ 32

/-- One link of the chain. -/
def packLink (link : ServerId × C.Sig) : Bytes := leBytes 4 link.1.val ++ link.2.1

theorem packLink_length (link : ServerId × C.Sig) : (packLink link).length = chainEntry C := by
  unfold packLink chainEntry
  rw [List.length_append, leBytes_length, link.2.2]

theorem unpackChain_eq (bytes : Bytes) : ∀ n at_ : Nat, unpackChain (C := C) bytes n at_ =
    readMany (fun at_ => (word32 bytes at_).bind (fun lane =>
      ((slice? bytes (at_ + 4) (at_ + chainEntry C)).bind (toArr? C.sigLen)).map (Prod.mk lane)))
      (chainEntry C) n at_
  | 0, _ => rfl
  | n + 1, at_ => by
      unfold unpackChain readMany
      simp only [unpackChain_eq bytes n, Option.bind_eq_bind, Option.bind_assoc, Option.bind_map,
        Function.comp_def]

/-- The chain loop reads `links` exactly when they are packed at its offset. -/
theorem unpackChain_eq_some {bytes : Bytes} {n at_ end_ : Nat} {links : List (ServerId × C.Sig)}
    (hat : at_ ≤ bytes.length) : unpackChain bytes n at_ = some (links, end_) ↔
      links.length = n ∧ end_ = at_ + n * chainEntry C ∧
        slice? bytes at_ end_ = some (links.flatMap packLink) := by
  rw [unpackChain_eq]
  refine readMany_eq_some packLink_length (fun i link => ?_) hat
  unfold packLink chainEntry
  rw [slice?_append_iff (b := i + 4) (by rw [leBytes_length]) (by rw [link.2.2, Nat.add_assoc])]
  simp only [Option.bind_eq_some_iff, Option.map_eq_some_iff, word32_eq_some, toArr?_eq_some]
  constructor
  · rintro ⟨lane, hlane, sig, ⟨_, hsig, rfl⟩, rfl⟩
    exact ⟨hlane, hsig⟩
  · exact fun h => ⟨_, h.1, _, ⟨_, h.2, rfl⟩, rfl⟩

theorem pack_eq (r : Relay C) : r.pack = [(packItem r.item).1] ++
    (leBytes 4 (packItem r.item).2.length ++ ((packItem r.item).2 ++
      (leBytes 4 r.chain.length ++ r.chain.flatMap packLink))) := rfl

theorem pack_length (r : Relay C) : r.pack.length =
    5 + (packItem r.item).2.length + 4 + r.chain.length * chainEntry C := by
  rw [pack_eq]
  simp only [List.length_append, List.length_singleton, leBytes_length,
    length_flatMap_of_length packLink_length]
  omega

/-- A relay's packing, field by field. -/
theorem slices_pack {bytes : Bytes} {r : Relay C} (hlen : bytes.length = r.pack.length) :
    r.pack = bytes ↔
      slice? bytes 0 1 = some [(packItem r.item).1] ∧
      slice? bytes 1 (1 + 4) = some (leBytes 4 (packItem r.item).2.length) ∧
      slice? bytes 5 (5 + (packItem r.item).2.length) = some (packItem r.item).2 ∧
      slice? bytes (5 + (packItem r.item).2.length) (5 + (packItem r.item).2.length + 4) =
        some (leBytes 4 r.chain.length) ∧
      slice? bytes (5 + (packItem r.item).2.length + 4) bytes.length =
        some (r.chain.flatMap packLink) := by
  have hchain := length_flatMap_of_length packLink_length r.chain
  rw [pack_length] at hlen
  rw [← slice?_all, pack_eq,
    slice?_append_iff (b := 1) (by simp) (by
      simp only [List.length_append, leBytes_length, hchain]
      omega),
    slice?_append_iff (b := 5) (by simp) (by
      simp only [List.length_append, leBytes_length, hchain]
      omega),
    slice?_append_iff (b := 5 + (packItem r.item).2.length) rfl (by
      simp only [List.length_append, leBytes_length, hchain]
      omega),
    slice?_append_iff (b := 5 + (packItem r.item).2.length + 4) (by simp) (by rw [hlen, hchain])]

variable (laws : ShareLaws C)
include laws

/-- An item is read from exactly its tag and its packing. -/
theorem unpackItem_eq_some {tag : U8} {body : Bytes} {item : RelayItem C} :
    unpackItem tag body = some item ↔ packItem item = (tag, body) ∧ item.Short := by
  unfold unpackItem
  by_cases h0 : tag = 0
  · subst h0
    rw [if_pos rfl, Option.map_eq_some_iff]
    cases item with
    | batch b =>
      simp only [RelayItem.batch.injEq, exists_eq_right]
      rw [ReceiptBatch.unpack_eq_some]
      simp [packItem, RelayItem.Short]
    | fragment f => simp [packItem]
  · rw [if_neg h0]
    by_cases h1 : tag = 1
    · subst h1
      rw [if_pos rfl, Option.map_eq_some_iff]
      cases item with
      | batch b => simp [packItem]
      | fragment f =>
        simp only [RelayItem.fragment.injEq, exists_eq_right]
        rw [Fragment.unpack_eq_some laws]
        simp [packItem, RelayItem.Short]
    · rw [if_neg h1]
      cases item with
      | batch b => simp [packItem, Ne.symm h0]
      | fragment f => simp [packItem, Ne.symm h1]

/-- **A relay is read from exactly its packing.** -/
theorem unpack_eq_some {bytes : Bytes} {r : Relay C} :
    unpack bytes = some r ↔ r.pack = bytes ∧ r.Short := by
  unfold unpack
  simp only [Option.bind_eq_bind, Option.bind_eq_some_iff, head_eq_some, word_eq_some,
    unpackItem_eq_some laws]
  constructor
  · rintro ⟨tag, htag, itemLen, ⟨hword, hwlt⟩, body, hbody, item, ⟨hitem, hshort⟩, n, ⟨hn, hnlt⟩, h⟩
    rw [ite_eq_iff] at h
    obtain ⟨-, h⟩ | ⟨-, h⟩ := h
    · exact absurd h (by simp)
    · obtain ⟨⟨chain, end_⟩, hchain, h⟩ := Option.bind_eq_some_iff.mp h
      rw [unpackChain_eq_some (slice?_eq_some.mp hn).2.1] at hchain
      obtain ⟨rfl, rfl, hchain⟩ := hchain
      dsimp only at h
      split_ifs at h with hend
      obtain rfl := Option.some.inj h
      rw [hend] at hchain
      obtain rfl : itemLen = body.length := by
        have := length_of_slice hbody
        omega
      have htagEq : (packItem item).1 = tag := by rw [hitem]
      have hbodyEq : (packItem item).2 = body := by rw [hitem]
      subst htagEq hbodyEq
      exact ⟨(slices_pack (by rw [pack_length, ← hend])).mpr ⟨htag, hword, hbody, hn, hchain⟩,
        hshort, hwlt, hnlt⟩
  · rintro ⟨hr, hshort⟩
    have hlen : bytes.length = 5 + (packItem r.item).2.length + 4 +
        r.chain.length * chainEntry C := by rw [← hr, pack_length]
    obtain ⟨htag, hword, hbody, hn, hchain⟩ := (slices_pack (by rw [hr])).mp hr
    refine ⟨_, htag, _, ⟨hword, hshort.item_length⟩, _, hbody, r.item, ⟨rfl, hshort.item⟩, _,
      ⟨hn, hshort.chain_length⟩, ?_⟩
    rw [if_neg, Option.bind_eq_some_iff]
    · refine ⟨(r.chain, bytes.length), (unpackChain_eq_some (by omega)).mpr ⟨rfl, hlen, hchain⟩, ?_⟩
      rw [if_pos rfl]
    · have hpos : 0 < chainEntry C := by
        unfold chainEntry
        omega
      rw [hlen, Nat.add_sub_cancel_left, Nat.mul_div_cancel _ hpos]
      exact lt_irrefl _

end Relay
/-! ## Bounds of the readers -/

/-- A count that passes its guard is a count of entries present. -/
theorem entries_le {len at_ n width : Nat} (hat : at_ ≤ len) (h : ¬ (len - at_) / width < n) :
    at_ + n * width ≤ len := by
  have hdiv := Nat.div_mul_le_self (len - at_) width
  have hmul := Nat.mul_le_mul_right width (Nat.le_of_not_lt h)
  omega

/-- `Receipt::unpack`, with its accesses. -/
def Receipt.scan (bytes : Bytes) : Traced (Receipt C) := do
  let clientId ← Traced.slice bytes 0 4
  let pkC ← Traced.lift (toArr? C.pubkeyLen (← Traced.slice bytes 4 (4 + C.pubkeyLen)))
  let bundleHash ← Traced.lift
    (toArr? 32 (← Traced.slice bytes (4 + C.pubkeyLen) (Receipt.packedLen C)))
  pure ⟨Fin.ofNat _ (leVal clientId), pkC, bundleHash⟩

theorem Receipt.result_scan (bytes : Bytes) :
    (Receipt.scan (C := C) bytes).result = Receipt.unpack bytes := by
  unfold Receipt.scan Receipt.unpack word32
  simp [Option.bind_map]

theorem Receipt.scan_within (bytes : Bytes) :
    (Receipt.scan (C := C) bytes).Within bytes.length := by
  refine Traced.within_bind (Traced.within_slice _ _ _) (fun _ _ => ?_)
  refine Traced.within_bind (Traced.within_slice _ _ _) (fun _ _ => ?_)
  refine Traced.within_bind (Traced.within_lift _) (fun _ _ => ?_)
  refine Traced.within_bind (Traced.within_slice _ _ _) (fun _ _ => ?_)
  exact Traced.within_bind (Traced.within_lift _) (fun _ _ => Traced.within_pure _)

namespace ReceiptBatch

/-- The receipt loop, with its accesses. -/
def scanReceipts (bytes : Bytes) : Nat → Nat → Traced (List (Receipt C) × Nat)
  | 0, at_ => pure ([], at_)
  | n + 1, at_ => do
      let r ← (Receipt.scan (← Traced.slice bytes at_ (at_ + Receipt.packedLen C))).shift at_
      let rest ← scanReceipts bytes n (at_ + Receipt.packedLen C)
      pure (r :: rest.1, rest.2)

/-- `ReceiptBatch::unpack`, with its accesses. -/
def scan (bytes : Bytes) : Traced (ReceiptBatch C) := do
  let serverId ← Traced.slice bytes 0 4
  let sig ← Traced.lift (toArr? C.sigLen (← Traced.slice bytes 4 (4 + C.sigLen)))
  let n ← Traced.slice bytes (4 + C.sigLen) (4 + C.sigLen + 4)
  let at_ := 4 + C.sigLen + 4
  if (bytes.length - at_) / Receipt.packedLen C < leVal n then Traced.fail
  else
    Traced.reserve at_ (leVal n) (Receipt.packedLen C)
    let rest ← scanReceipts bytes (leVal n) at_
    if rest.2 = bytes.length then pure ⟨Fin.ofNat _ (leVal serverId), rest.1, sig⟩ else Traced.fail

theorem result_scanReceipts (bytes : Bytes) : ∀ n at_ : Nat,
    (scanReceipts (C := C) bytes n at_).result = unpackReceipts bytes n at_
  | 0, _ => rfl
  | n + 1, at_ => by
      unfold scanReceipts unpackReceipts
      simp [result_scanReceipts bytes n, Receipt.result_scan]

theorem result_scan (bytes : Bytes) : (scan (C := C) bytes).result = unpack bytes := by
  unfold scan unpack word32 Bundle.word
  simp [Option.bind_map, result_scanReceipts]

theorem scanReceipts_within (bytes : Bytes) : ∀ n at_ : Nat,
    (scanReceipts (C := C) bytes n at_).Within bytes.length
  | 0, _ => Traced.within_pure _
  | n + 1, at_ => by
      unfold scanReceipts
      refine Traced.within_bind (Traced.within_slice _ _ _) (fun x hx => ?_)
      have hend := (slice?_eq_some.mp hx).2.1
      have hlen := length_of_slice hx
      refine Traced.within_bind (Traced.within_shift (Receipt.scan_within x) (by omega)) (fun _ _ => ?_)
      exact Traced.within_bind (scanReceipts_within bytes n _) (fun _ _ => Traced.within_pure _)

theorem scan_within (bytes : Bytes) : (scan (C := C) bytes).Within bytes.length := by
  refine Traced.within_bind (Traced.within_slice _ _ _) (fun _ _ => ?_)
  refine Traced.within_bind (Traced.within_slice _ _ _) (fun _ _ => ?_)
  refine Traced.within_bind (Traced.within_lift _) (fun _ _ => ?_)
  refine Traced.within_bind (Traced.within_slice _ _ _) (fun n hn => ?_)
  have hat := (slice?_eq_some.mp hn).2.1
  dsimp only
  split
  · exact Traced.within_fail
  · rename_i hguard
    refine Traced.within_bind (Traced.within_reserve (entries_le hat hguard)) (fun _ _ => ?_)
    refine Traced.within_bind (scanReceipts_within _ _ _) (fun _ _ => ?_)
    split
    · exact Traced.within_pure _
    · exact Traced.within_fail

end ReceiptBatch

namespace Fragment

/-- `Fragment::unpack`, with its accesses. -/
def scan (bytes : Bytes) : Traced (Fragment C) := do
  let clientId ← Traced.slice bytes 0 4
  let idx ← Traced.slice bytes 4 (4 + 4)
  let nPolys ← Traced.slice bytes 8 (8 + 4)
  let body := 12 + leVal nPolys * C.rsPolyPackedLen
  if (bytes.length - 12) / C.rsPolyPackedLen < leVal nPolys ∨ bytes.length ≠ body + C.sigLen then
    Traced.fail
  else
    let packed ← Traced.slice bytes 12 body
    Traced.reserve 12 (leVal nPolys) C.rsPolyPackedLen
    let data ← Traced.lift (C.unpackShare packed (leVal nPolys))
    let sig ← Traced.lift (toArr? C.sigLen (← Traced.slice bytes body bytes.length))
    pure ⟨Fin.ofNat _ (leVal clientId), leVal idx, data, sig⟩

theorem result_scan (bytes : Bytes) : (scan (C := C) bytes).result = unpack bytes := by
  unfold scan unpack word32 Bundle.word
  simp [Option.bind_map]

theorem scan_within (bytes : Bytes) : (scan (C := C) bytes).Within bytes.length := by
  refine Traced.within_bind (Traced.within_slice _ _ _) (fun _ _ => ?_)
  refine Traced.within_bind (Traced.within_slice _ _ _) (fun _ _ => ?_)
  refine Traced.within_bind (Traced.within_slice _ _ _) (fun n hn => ?_)
  have hat := (slice?_eq_some.mp hn).2.1
  dsimp only
  split
  · exact Traced.within_fail
  · rename_i hguard
    have hfits := entries_le hat (fun h => hguard (Or.inl h))
    refine Traced.within_bind (Traced.within_slice _ _ _) (fun _ _ => ?_)
    refine Traced.within_bind (Traced.within_reserve hfits) (fun _ _ => ?_)
    refine Traced.within_bind (Traced.within_lift _) (fun _ _ => ?_)
    refine Traced.within_bind (Traced.within_slice _ _ _) (fun _ _ => ?_)
    exact Traced.within_bind (Traced.within_lift _) (fun _ _ => Traced.within_pure _)

end Fragment

namespace Relay

/-- The chain loop, with its accesses. -/
def scanChain (bytes : Bytes) : Nat → Nat → Traced (List (ServerId × C.Sig) × Nat)
  | 0, at_ => pure ([], at_)
  | n + 1, at_ => do
      let lane ← Traced.slice bytes at_ (at_ + 4)
      let sig ← Traced.lift
        (toArr? C.sigLen (← Traced.slice bytes (at_ + 4) (at_ + chainEntry C)))
      let rest ← scanChain bytes n (at_ + chainEntry C)
      pure ((Fin.ofNat _ (leVal lane), sig) :: rest.1, rest.2)

/-- The item a tag byte and a body spell, with the accesses to the body. -/
def scanItem (tag : U8) (body : Bytes) : Traced (RelayItem C) :=
  if tag = 0 then do pure (.batch (← ReceiptBatch.scan body))
  else if tag = 1 then do pure (.fragment (← Fragment.scan body))
  else Traced.fail

/-- `Relay::unpack`, with its accesses. -/
def scan (bytes : Bytes) : Traced (Relay C) := do
  let tag ← Traced.slice bytes 0 1
  let itemLen ← Traced.slice bytes 1 (1 + 4)
  let body ← Traced.slice bytes 5 (5 + leVal itemLen)
  let item ← (scanItem (tag.headD 0) body).shift 5
  let nChain ← Traced.slice bytes (5 + leVal itemLen) (5 + leVal itemLen + 4)
  let at_ := 5 + leVal itemLen + 4
  if (bytes.length - at_) / chainEntry C < leVal nChain then Traced.fail
  else
    Traced.reserve at_ (leVal nChain) (chainEntry C)
    let rest ← scanChain bytes (leVal nChain) at_
    if rest.2 = bytes.length then pure ⟨item, rest.1⟩ else Traced.fail

theorem result_scanChain (bytes : Bytes) : ∀ n at_ : Nat,
    (scanChain (C := C) bytes n at_).result = unpackChain bytes n at_
  | 0, _ => rfl
  | n + 1, at_ => by
      unfold scanChain unpackChain word32
      simp [result_scanChain bytes n, Option.bind_map]

theorem result_scanItem (tag : U8) (body : Bytes) :
    (scanItem (C := C) tag body).result = unpackItem tag body := by
  unfold scanItem unpackItem
  split_ifs
  · simp [ReceiptBatch.result_scan, Option.map_eq_bind]
  · simp [Fragment.result_scan, Option.map_eq_bind]
  · rfl

theorem head?_eq_slice (bytes : Bytes) : bytes.head? = (slice? bytes 0 1).map (fun x => x.headD 0) := by
  cases bytes with
  | nil => rfl
  | cons x xs => simp [slice?]

theorem result_scan (bytes : Bytes) : (scan (C := C) bytes).result = unpack bytes := by
  unfold scan unpack Bundle.word
  rw [head?_eq_slice]
  simp [Option.bind_map, result_scanChain, result_scanItem]

theorem scanChain_within (bytes : Bytes) : ∀ n at_ : Nat,
    (scanChain (C := C) bytes n at_).Within bytes.length
  | 0, _ => Traced.within_pure _
  | n + 1, at_ => by
      unfold scanChain
      refine Traced.within_bind (Traced.within_slice _ _ _) (fun _ _ => ?_)
      refine Traced.within_bind (Traced.within_slice _ _ _) (fun _ _ => ?_)
      refine Traced.within_bind (Traced.within_lift _) (fun _ _ => ?_)
      exact Traced.within_bind (scanChain_within bytes n _) (fun _ _ => Traced.within_pure _)

theorem scanItem_within (tag : U8) (body : Bytes) :
    (scanItem (C := C) tag body).Within body.length := by
  unfold scanItem
  split_ifs
  · exact Traced.within_bind (ReceiptBatch.scan_within body) (fun _ _ => Traced.within_pure _)
  · exact Traced.within_bind (Fragment.scan_within body) (fun _ _ => Traced.within_pure _)
  · exact Traced.within_fail

theorem scan_within (bytes : Bytes) : (scan (C := C) bytes).Within bytes.length := by
  refine Traced.within_bind (Traced.within_slice _ _ _) (fun _ _ => ?_)
  refine Traced.within_bind (Traced.within_slice _ _ _) (fun _ _ => ?_)
  refine Traced.within_bind (Traced.within_slice _ _ _) (fun body hbody => ?_)
  have hend := (slice?_eq_some.mp hbody).2.1
  have hlen := length_of_slice hbody
  refine Traced.within_bind (Traced.within_shift (scanItem_within _ body) (by omega)) (fun _ _ => ?_)
  refine Traced.within_bind (Traced.within_slice _ _ _) (fun n hn => ?_)
  have hat := (slice?_eq_some.mp hn).2.1
  dsimp only
  split
  · exact Traced.within_fail
  · rename_i hguard
    refine Traced.within_bind (Traced.within_reserve (entries_le hat hguard)) (fun _ _ => ?_)
    refine Traced.within_bind (scanChain_within _ _ _) (fun _ _ => ?_)
    split
    · exact Traced.within_pure _
    · exact Traced.within_fail

end Relay
/-- **The packed forms are canonical.**  Relays, batches and fragments are read back from their
packing, are read from nothing else, and their readers neither read nor reserve past the bytes
present. -/
theorem packed_forms_canonical (laws : ShareLaws C) :
    CanonicalForm (Relay.pack (C := C)) Relay.unpack Relay.scan Relay.Short ∧
      CanonicalForm (ReceiptBatch.pack (C := C)) ReceiptBatch.unpack ReceiptBatch.scan
        ReceiptBatch.Short ∧
      CanonicalForm (Fragment.pack (C := C)) Fragment.unpack Fragment.scan Fragment.Short := by
  refine ⟨⟨fun r hr => ?_, fun bytes r h => ?_, fun bytes => ?_⟩,
    ⟨fun b hb => ?_, fun bytes b h => ?_, fun bytes => ?_⟩,
    ⟨fun f hf => ?_, fun bytes f h => ?_, fun bytes => ?_⟩⟩
  · exact (Relay.unpack_eq_some laws).mpr ⟨rfl, hr⟩
  · exact ((Relay.unpack_eq_some laws).mp h).1
  · exact ⟨Relay.result_scan bytes, Relay.scan_within bytes⟩
  · exact ReceiptBatch.unpack_eq_some.mpr ⟨rfl, hb⟩
  · exact (ReceiptBatch.unpack_eq_some.mp h).1
  · exact ⟨ReceiptBatch.result_scan bytes, ReceiptBatch.scan_within bytes⟩
  · exact (Fragment.unpack_eq_some laws).mpr ⟨rfl, hf⟩
  · exact ((Fragment.unpack_eq_some laws).mp h).1
  · exact ⟨Fragment.result_scan bytes, Fragment.scan_within bytes⟩

/-- The toy crate, with polynomials of one byte. -/
def byteCrate : SetCrate :=
  { toyCrate with
    RsNTTPoly := U8
    packShare := id
    unpackShare := fun bytes n => if bytes.length = n then some bytes else none
    fromNttSlots := fun slots => Fin.ofNat _ (slots.headD 0)
    nttSlots := fun p => [p.val]
    rsEncode := fun params polys => List.replicate params.n polys
    rsReconstruct := fun _ _ samples => samples.head?.map Prod.snd }

theorem shareLaws_byteCrate : ShareLaws byteCrate where
  packed_pos := Nat.one_pos
  length_pack share := (Nat.mul_one share.length).symm
  unpack_pack _ := if_pos rfl
  pack_unpack bytes n share hlen h := by
    have hn : bytes.length = n := hlen.trans (Nat.mul_one n)
    cases (if_pos hn).symm.trans h
    exact ⟨hn, rfl⟩

/-- A fragment of no polynomials, with index `idx`. -/
def farFragment (idx : Nat) : Relay byteCrate := ⟨.fragment ⟨0, idx, ([] : List U8), .filled 32 0⟩, []⟩

/-- A fragment of index five is read back from its packing. -/
theorem packed_forms_canonical_five :
    Relay.unpack (farFragment 5).pack = some (farFragment 5) :=
  (packed_forms_canonical shareLaws_byteCrate).1.unpack_pack _
    ⟨(by decide : 5 < 2 ^ 32 ∧ 0 < 2 ^ 32), by decide, by decide⟩

/-- An index is packed as a `u32`: from `2 ^ 32` on a fragment is read back as another. -/
theorem unpack_pack_far : Relay.unpack (farFragment (2 ^ 32)).pack = some (farFragment 0) ∧
    ¬ Relay.unpack (farFragment (2 ^ 32)).pack = some (farFragment (2 ^ 32)) :=
  ⟨(Relay.unpack_eq_some shareLaws_byteCrate).mpr
      ⟨by decide, (by decide : 0 < 2 ^ 32 ∧ 0 < 2 ^ 32), by decide, by decide⟩,
    fun h => absurd ((Relay.unpack_eq_some shareLaws_byteCrate).mp h).2.item.1 (by decide)⟩

end Anymone
