import Anymone.ClientSetFinalize
import Anymone.ClientSetClient
import Anymone.ClientSetToy

/-! # The blob a repair is coded from

The client lays the packed bundles of the lanes it has to repair end to end, five
bytes to a slot; the server reads bundles off the front of what it reconstructs.
The slots and the packing are read back here (`prefix_polysToBlob`,
`Bundle.unpack_pack`), and `rebuildLanes` over a blob of bundles is decided by one
relation between the lanes it asks for and the lanes in the blob: it succeeds
exactly when the first are a prefix of the second (`rebuildLanes_blob`).
-/

namespace Anymone

/-! ## Fixed-width chunks -/

/-- The little-endian bytes of a short string's value are the string, zero
padded. -/
theorem leBytes_leVal : ∀ (w : Nat) (bytes : Bytes), bytes.length ≤ w →
    leBytes w (leVal bytes) = bytes ++ List.replicate (w - bytes.length) 0
  | 0, [], _ => rfl
  | w + 1, [], _ => by
      rw [leBytes, show leVal [] / 256 = leVal [] from rfl, leBytes_leVal w [] (Nat.zero_le w)]
      rfl
  | w + 1, b :: bytes, h => by
      have hlen : bytes.length ≤ w := by simpa using h
      have hlow : Fin.ofNat 256 (leVal (b :: bytes)) = b := by
        apply Fin.ext
        show (b.val + 256 * leVal bytes) % 256 = b.val
        omega
      have hhigh : leVal (b :: bytes) / 256 = leVal bytes := by
        show (b.val + 256 * leVal bytes) / 256 = leVal bytes
        omega
      rw [leBytes, hlow, hhigh, leBytes_leVal w bytes hlen]
      simp

theorem leVal_lt : ∀ bytes : Bytes, leVal bytes < 256 ^ bytes.length
  | [] => Nat.one_pos
  | b :: bytes => by
      have := leVal_lt bytes
      rw [List.length_cons, Nat.pow_succ]
      show b.val + 256 * leVal bytes < _
      omega

/-- The values of the first `m` chunks of `w` bytes, spelled out again. -/
def chunked (w : Nat) (blob : Bytes) (m : Nat) : Bytes :=
  (List.range m).flatMap (fun j => leBytes w (leVal ((blob.drop (j * w)).take w)))

theorem chunked_succ (w : Nat) (blob : Bytes) (m : Nat) : chunked w blob (m + 1) =
    chunked w blob m ++ leBytes w (leVal ((blob.drop (m * w)).take w)) := by
  unfold chunked
  rw [List.range_succ, List.flatMap_append]
  simp

/-- **Chunk by chunk, the blob is read back**, and what the last chunks have no
bytes for is zero. -/
theorem chunked_eq (w : Nat) (blob : Bytes) (m : Nat) :
    chunked w blob m = blob.take (m * w) ++ List.replicate (m * w - blob.length) 0 := by
  induction m with
  | zero => simp [chunked]
  | succ m ih =>
    rw [chunked_succ, ih, leBytes_leVal w _ (List.length_take_le ..), Nat.succ_mul, List.take_add]
    by_cases hlen : m * w ≤ blob.length
    · -- The chunks so far are full, so only this one can be padded.
      rw [Nat.sub_eq_zero_of_le hlen, List.replicate_zero, List.append_nil, List.append_assoc,
        List.length_take, List.length_drop]
      congr 3
      omega
    · have hdrop : blob.drop (m * w) = [] := List.drop_eq_nil_of_le (by omega)
      rw [hdrop, List.take_nil, List.append_nil, List.nil_append, List.length_nil, Nat.sub_zero,
        List.append_assoc, List.replicate_append_replicate]
      congr 2
      omega

/-- Ranges nested to a fixed depth are one range. -/
theorem flatMap_range_mul {β : Type} (n : Nat) (f : Nat → List β) (m : Nat) :
    (List.range m).flatMap (fun p => (List.range n).flatMap (fun i => f (p * n + i))) =
      (List.range (m * n)).flatMap f := by
  induction m with
  | zero => simp
  | succ m ih =>
    rw [List.range_succ, List.flatMap_append, ih, Nat.succ_mul, List.range_add,
      List.flatMap_append, List.flatMap_map]
    simp

variable {C : SetCrate}

/-- What the repair needs of the crates: slots of five bytes survive a polynomial,
a public key its encoding, and any `k` shares of an encoding rebuild it, up to the
polynomials the last block is filled with. -/
structure RepairLaws (C : SetCrate) : Prop where
  poly_pos : 0 < C.polyN
  slots : ∀ slots : List Nat, slots.length = C.polyN →
    (∀ x ∈ slots, x < 256 ^ bytesPerCoeff) → C.nttSlots (C.fromNttSlots slots) = slots
  sec1 : ∀ vk, C.fromSec1Bytes (C.toSec1Bytes vk) = some vk
  rs : ∀ (params : RsParams) (polys : List C.RsNTTPoly) (samples : List (Nat × C.Share)),
    0 < params.k → samples.length = params.k → (samples.map Prod.fst).Nodup →
    (∀ e ∈ samples, (C.rsEncode params polys)[e.1]? = some e.2) →
    ∃ blockLen fill, (∀ e ∈ samples, e.2.length = blockLen) ∧
      C.rsReconstruct params (params.k * blockLen) samples = some (polys ++ fill)

section Slots
variable (hpos : 0 < C.polyN) (hslots : ∀ slots : List Nat, slots.length = C.polyN →
  (∀ x ∈ slots, x < 256 ^ bytesPerCoeff) → C.nttSlots (C.fromNttSlots slots) = slots)

include hslots in
/-- The slots of the polynomials a blob is laid out in are its chunks. -/
theorem slots_blobToPolys (blob : Bytes) :
    (blobToPolys (C := C) blob).flatMap (fun p => (C.nttSlots p).flatMap (leBytes bytesPerCoeff)) =
      chunked bytesPerCoeff blob ((blobToPolys (C := C) blob).length * C.polyN) := by
  unfold chunked
  rw [← flatMap_range_mul]
  unfold blobToPolys
  rw [List.flatMap_map, List.length_map, List.length_range]
  congr 1
  funext p
  rw [hslots _ (by simp), List.flatMap_map]
  intro x hx
  obtain ⟨i, -, rfl⟩ := List.mem_map.mp hx
  exact (leVal_lt _).trans_le (Nat.pow_le_pow_right (by decide) (List.length_take_le ..))

include hpos in
/-- A blob fits the polynomials it is laid out in. -/
theorem length_le_capacity (blob : Bytes) :
    blob.length ≤ (blobToPolys (C := C) blob).length * C.polyN * bytesPerCoeff := by
  have h5 : blob.length ≤
      max ((blob.length + bytesPerCoeff - 1) / bytesPerCoeff) 1 * bytesPerCoeff := by
    unfold bytesPerCoeff
    omega
  refine h5.trans (Nat.mul_le_mul_right _ ?_)
  unfold blobToPolys
  rw [List.length_map, List.length_range]
  generalize max ((blob.length + bytesPerCoeff - 1) / bytesPerCoeff) 1 = coeffs
  have hdiv := Nat.lt_div_mul_add (a := coeffs + C.polyN - 1) hpos
  omega

include hpos hslots in
/-- What the polynomials of a blob spell: the blob, zero padded to their capacity. -/
theorem slots_eq_padded (blob : Bytes) :
    (blobToPolys (C := C) blob).flatMap (fun p => (C.nttSlots p).flatMap (leBytes bytesPerCoeff)) =
      blob ++ List.replicate
        ((blobToPolys (C := C) blob).length * C.polyN * bytesPerCoeff - blob.length) 0 := by
  rw [slots_blobToPolys hslots, chunked_eq,
    List.take_of_length_le (length_le_capacity hpos blob)]

include hpos hslots in
/-- **The blob codec round-trips.**  Read back at its own length a blob is itself, and
at any longer length its polynomials hold it is followed by zeros. -/
theorem polysToBlob_blobToPolys (blob : Bytes) :
    polysToBlob (blobToPolys (C := C) blob) blob.length = blob ∧
      ∀ blobLen, blob.length ≤ blobLen →
        blobLen ≤ (blobToPolys (C := C) blob).length * C.polyN * bytesPerCoeff →
        polysToBlob (blobToPolys (C := C) blob) blobLen =
          blob ++ List.replicate (blobLen - blob.length) 0 := by
  unfold polysToBlob
  rw [slots_eq_padded hpos hslots]
  refine ⟨List.take_left, fun blobLen hle hcap => ?_⟩
  rw [List.take_append, List.take_of_length_le hle, List.take_replicate, min_eq_left (by omega)]

end Slots

/-- Forty-bit slots on one-slot polynomials: seven bytes take two of them, and the
three bytes left over read as zero. -/
theorem polysToBlob_blobToPolys_seven :
    let blob : Bytes := [1, 2, 3, 4, 5, 6, 7]
    polysToBlob (blobToPolys (C := toyCrate) blob) 7 = blob ∧
      polysToBlob (blobToPolys (C := toyCrate) blob) 10 = blob ++ [0, 0, 0] := by
  have h := polysToBlob_blobToPolys (C := toyCrate) Nat.one_pos
    (fun slots hlen _ => by
      obtain ⟨x, rfl⟩ := List.length_eq_one_iff.mp hlen
      rfl) [1, 2, 3, 4, 5, 6, 7]
  exact ⟨h.1, h.2 10 (by decide) (by decide)⟩

/-- **`polys_to_blob` reads back what `blob_to_polys` laid out**, whatever follows
it. -/
theorem prefix_polysToBlob (laws : RepairLaws C) (blob : Bytes) (fill : List C.RsNTTPoly) :
    let polys : List C.RsNTTPoly := blobToPolys blob ++ fill
    blob <+: polysToBlob polys (polys.length * C.polyN * bytesPerCoeff) := by
  intro polys
  have hcap := length_le_capacity laws.poly_pos blob
  unfold polysToBlob polys
  rw [List.flatMap_append, slots_eq_padded laws.poly_pos laws.slots, List.append_assoc,
    List.prefix_take_iff]
  refine ⟨List.prefix_append _ _, hcap.trans ?_⟩
  rw [List.length_append]
  exact Nat.mul_le_mul_right _ (Nat.mul_le_mul_right _ (Nat.le_add_right _ _))

/-! ## One bundle off the front -/

/-- A field lies where the ones before it end. -/
theorem slice?_of_eq {bytes field : Bytes} {i j : Nat} (before after : Bytes)
    (h : bytes = before ++ (field ++ after)) (hi : i = before.length) (hj : j = i + field.length) :
    slice? bytes i j = some field := by
  subst h hi hj
  unfold slice?
  rw [if_pos (by simp), List.drop_left, Nat.add_sub_cancel_left, List.take_left]

namespace Bundle

/-- The bundle has the geometry `scp` fixes, and its share and path are read back
from their packing. -/
structure Packable (scp : ShareCommitmentParams) (b : Bundle C) : Prop where
  lane : b.lane < 2 ^ 32
  share : (C.packShare b.share).length = scp.blockLen * C.rsPolyPackedLen ∧
    C.unpackShare (C.packShare b.share) scp.blockLen = some b.share
  path : ∃ bytes, C.pathToBytes b.path = some bytes ∧
    bytes.length = C.freshPathPackedLen scp.nLanes ∧
    C.pathFromBytes scp b.lane bytes = some b.path
  envelope : b.envelope.length < 2 ^ 32

theorem word_of_eq {bytes : Bytes} {i n : Nat} (before after : Bytes)
    (h : bytes = before ++ (leBytes 4 n ++ after)) (hi : i = before.length) (hn : n < 2 ^ 32) :
    word bytes i = some n := by
  unfold word
  rw [slice?_of_eq before after h hi (by rw [leBytes_length]), Option.map_some, leVal_leBytes]
  exact congrArg some (Nat.mod_eq_of_lt hn)

theorem toArr?_val {n : Nat} (a : ByteArr n) : toArr? n a.1 = some a := dif_pos a.2

/-- **`unpack` reads a packed bundle off the front**, whatever follows it. -/
theorem unpack_pack {scp : ShareCommitmentParams} {b : Bundle C} (h : b.Packable scp) :
    ∃ packed, b.pack = some packed ∧
      ∀ rest, unpack scp b.clientId (packed ++ rest) = some (b, packed.length) := by
  obtain ⟨path, hpack, hplen, hpath⟩ := h.path
  obtain ⟨hslen, hshare⟩ := h.share
  refine ⟨leBytes 4 b.lane ++ C.packShare b.share ++ path ++ leBytes 4 b.envelope.length ++
    b.envelope ++ b.pubkey.1 ++ b.sig.1, by unfold pack; rw [hpack]; rfl, fun rest => ?_⟩
  -- The offsets of the reader, and what lies before each of them.
  let shareEnd := 4 + scp.blockLen * C.rsPolyPackedLen
  let pathEnd := shareEnd + C.freshPathPackedLen scp.nLanes
  let envEnd := pathEnd + 4 + b.envelope.length
  let front := leBytes 4 b.lane ++ C.packShare b.share ++ path
  have hfront : front.length = pathEnd := by
    simp [front, pathEnd, shareEnd, hslen, hplen, Nat.add_assoc]
  generalize hbytes : leBytes 4 b.lane ++ C.packShare b.share ++ path ++
    leBytes 4 b.envelope.length ++ b.envelope ++ b.pubkey.1 ++ b.sig.1 ++ rest = bytes
  have hlane : word bytes 0 = some b.lane :=
    word_of_eq [] (C.packShare b.share ++ (path ++ (leBytes 4 b.envelope.length ++ (b.envelope ++
      (b.pubkey.1 ++ (b.sig.1 ++ rest))))))
      (by rw [← hbytes]; simp only [List.append_assoc, List.nil_append]) rfl h.lane
  have hshare' : slice? bytes 4 shareEnd = some (C.packShare b.share) :=
    slice?_of_eq (leBytes 4 b.lane) (path ++ (leBytes 4 b.envelope.length ++ (b.envelope ++
      (b.pubkey.1 ++ (b.sig.1 ++ rest)))))
      (by rw [← hbytes]; simp only [List.append_assoc]) (leBytes_length 4 b.lane).symm
      (by rw [hslen])
  have hpath' : slice? bytes shareEnd pathEnd = some path :=
    slice?_of_eq (leBytes 4 b.lane ++ C.packShare b.share) (leBytes 4 b.envelope.length ++
      (b.envelope ++ (b.pubkey.1 ++ (b.sig.1 ++ rest))))
      (by rw [← hbytes]; simp only [List.append_assoc]) (by simp [shareEnd, hslen]) (by rw [hplen])
  have henv : word bytes pathEnd = some b.envelope.length :=
    word_of_eq front (b.envelope ++ (b.pubkey.1 ++ (b.sig.1 ++ rest)))
      (by rw [← hbytes]; simp only [front, List.append_assoc]) hfront.symm h.envelope
  have henv' : slice? bytes (pathEnd + 4) envEnd = some b.envelope :=
    slice?_of_eq (front ++ leBytes 4 b.envelope.length) (b.pubkey.1 ++ (b.sig.1 ++ rest))
      (by rw [← hbytes]; simp only [front, List.append_assoc]) (by simp [hfront]) rfl
  have hpk : slice? bytes envEnd (envEnd + C.pubkeyLen) = some b.pubkey.1 :=
    slice?_of_eq (front ++ leBytes 4 b.envelope.length ++ b.envelope) (b.sig.1 ++ rest)
      (by rw [← hbytes]; simp only [front, List.append_assoc]) (by simp [envEnd, hfront, Nat.add_assoc])
      (by rw [b.pubkey.2])
  have hsig : slice? bytes (envEnd + C.pubkeyLen) (envEnd + C.pubkeyLen + C.sigLen) =
      some b.sig.1 :=
    slice?_of_eq (front ++ leBytes 4 b.envelope.length ++ b.envelope ++ b.pubkey.1) rest
      (by rw [← hbytes]; simp only [front, List.append_assoc])
      (by simp [envEnd, hfront, b.pubkey.2, Nat.add_assoc]) (by rw [b.sig.2])
  have hlen : (leBytes 4 b.lane ++ C.packShare b.share ++ path ++ leBytes 4 b.envelope.length ++
      b.envelope ++ b.pubkey.1 ++ b.sig.1).length = envEnd + C.pubkeyLen + C.sigLen := by
    show (front ++ leBytes 4 b.envelope.length ++ b.envelope ++ b.pubkey.1 ++ b.sig.1).length = _
    simp [envEnd, hfront, b.pubkey.2, b.sig.2, Nat.add_assoc]
  rw [hlen]
  unfold unpack
  simp only [hlane, hshare', hshare, hpath', hpath, henv, henv', hpk, hsig, toArr?_val,
    Option.bind_eq_bind, Option.bind_some, shareEnd, pathEnd, envEnd]

end Bundle

/-! ## The lanes of a blob -/

/-- `bundle` is the client's for `lane`, as `rebuild` would accept it. -/
structure Bundle.Genuine (sid : SessionId) (nLanes : Nat) (scp : ShareCommitmentParams)
    (cid : ClientId) (pkC : C.Pk) (lane : Nat) (b : Bundle C) : Prop where
  lane_eq : b.lane = lane
  clientId_eq : b.clientId = cid
  pubkey_eq : b.pubkey = pkC
  verified : b.verify sid nLanes = true
  packable : b.Packable scp

/-- **Decoding asks for a prefix of what was coded.**  Over the packed bundles of
`coded`, the loop of `rebuild` for lanes taken from it in order returns their
bundles when they are its first ones, and nothing otherwise. -/
theorem rebuildLanes_blob {sid : SessionId} {nLanes : Nat} {scp : ShareCommitmentParams}
    {cid : ClientId} {pkC : C.Pk} {bundle : Nat → Bundle C} {packed : Nat → Bytes}
    (rest : Bytes) : ∀ {coded lanes : List Nat} (before : Bytes),
      (∀ l ∈ coded, (bundle l).Genuine sid nLanes scp cid pkC l) →
      (∀ l ∈ coded, (bundle l).pack = some (packed l)) → lanes.Sublist coded →
      rebuildLanes nLanes sid scp cid pkC (before ++ ((coded.map packed).flatten ++ rest)) lanes
          before.length =
        if lanes <+: coded then some (lanes.map bundle) else none := by
  intro coded
  induction coded with
  | nil =>
    intro lanes before _ _ hsub
    obtain rfl := List.sublist_nil.mp hsub
    rw [if_pos List.prefix_rfl]
    rfl
  | cons l coded ih =>
    intro lanes before hgen hpacked hsub
    cases lanes with
    | nil =>
      rw [if_pos List.nil_prefix]
      rfl
    | cons lane lanes =>
      have hl := hgen l (List.mem_cons_self ..)
      obtain ⟨bytes, hpack, hunpack⟩ := Bundle.unpack_pack hl.packable
      rw [hpacked l (List.mem_cons_self ..)] at hpack
      obtain rfl := Option.some.inj hpack
      have hread : Bundle.unpack scp cid (packed l ++ ((coded.map packed).flatten ++ rest)) =
          some (bundle l, (packed l).length) := by
        rw [← hl.clientId_eq]
        exact hunpack _
      have hslice : slice? (before ++ (((l :: coded).map packed).flatten ++ rest)) before.length
          (before ++ (((l :: coded).map packed).flatten ++ rest)).length =
            some (packed l ++ ((coded.map packed).flatten ++ rest)) :=
        slice?_of_eq before []
          (by simp only [List.map_cons, List.flatten_cons, List.append_assoc, List.append_nil]) rfl
          (by simp)
      unfold rebuildLanes
      rw [hslice]
      simp only [Option.bind_eq_bind, Option.bind_some, hread]
      by_cases hhead : lane = l
      · subst hhead
        rw [if_neg (by simp [hl.lane_eq, hl.pubkey_eq, hl.verified])]
        -- The rest of the loop starts where this bundle ends.
        have hstep := ih (before ++ packed lane) (fun l hl => hgen l (List.mem_cons_of_mem _ hl))
          (fun l hl => hpacked l (List.mem_cons_of_mem _ hl)) (List.cons_sublist_cons.mp hsub)
        rw [List.length_append, List.append_assoc, ← List.append_assoc (packed lane)] at hstep
        rw [List.map_cons, List.flatten_cons, hstep]
        by_cases hpre : lanes <+: coded
        · rw [if_pos hpre, if_pos (List.cons_prefix_cons.mpr ⟨rfl, hpre⟩)]
          rfl
        · rw [if_neg hpre, if_neg (fun h => hpre (List.cons_prefix_cons.mp h).2)]
          rfl
      · rw [if_pos (Or.inl (by rw [hl.lane_eq]; exact Ne.symm hhead)),
          if_neg (fun h => hhead (List.cons_prefix_cons.mp h).1)]

end Anymone
