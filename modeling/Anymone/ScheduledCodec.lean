import Anymone.PanetierePost
import Anymone.SlotVector

/-! # Reservations and the message vector

A scheduled round's plaintext is one joint vector of polynomials: a small multiset
encoding that reserves `(rand, size)` slots for the round, then a message vector that
fulfils the reservations of the round two before.  `allocation` derives the slots and
the width of the message vector from the list of reservations alone.

The codec, the multiset encoding and the generators' draws are parameters
(`ScheduledCrate`).
-/

namespace Anymone

/-- `u16`. -/
abbrev U16 := Fin 65536

/-- `(rand, size)`, as the leader publishes it. -/
abbrev Entry := U16 × U16

/-- `ReservationEntries`, its map. -/
abbrev EntryMap := OrdMap Round (List Entry)

/-- What the scheduled sessions take from the crates they are built on. -/
structure ScheduledCrate extends PostCrate where
  /-- `gen::<bool>()`. -/
  genBool : Rng → Bool × Rng
  /-- `gen::<u16>()`. -/
  genU16 : Rng → U16 × Rng
  /-- `gen::<f32>() < rate`, the rate by its bits. -/
  genBelow : Rng → U32 → Bool × Rng
  /-- The beacon of a list of rands. -/
  Beacon : Type
  beacon : List U16 → Beacon
  /-- `codec::allocate`: a slot offset per entry, under a cap. -/
  allocate : List (U16 × Nat) → Beacon → Nat → List (Option Nat)
  /-- `codec::BYTES_PER_POLY`. -/
  bytesPerPoly : Nat
  encodeRaw : Bytes → List KahePoly
  /-- `codec::decode_ranges`; `none` is its error. -/
  decodeRanges : List KahePoly → List (Nat × Nat) → Option (List Bytes)
  /-- The parameters of a peeling encoding. -/
  MseParams : Type
  /-- `MseEncoding`. -/
  MseEncoding : Type
  /-- `ChannelParams::mse`. -/
  mseOf : ChannelParams → Option MseParams
  /-- `ChannelParams::n_polys`. -/
  nPolys : ChannelParams → Nat
  /-- The addition a summed plaintext is made with. -/
  kaheAdd : KahePoly → KahePoly → KahePoly
  mseNew : MseParams → MseEncoding
  mseInsert : MseEncoding → Rng → List Int → MseEncoding × Rng
  msePack : MseEncoding → List KahePoly
  mseUnpack : MseParams → List KahePoly → MseEncoding
  /-- `decode`; `none` is a stalled peel. -/
  mseDecode : MseEncoding → Option (List (List Int))

/-- `RESERVATION_TO_MSG_GAP`: the reservations of a round are fulfilled so many
rounds later. -/
def reservationToMsgGap : Nat := 2

/-- `SCHED_ENTRIES_RETENTION`. -/
def schedEntriesRetention : Nat := panetiereRoundRetention + reservationToMsgGap

/-- `round + RESERVATION_TO_MSG_GAP`. -/
def fulfilledAt (round : Round) : Round := round + Fin.ofNat _ reservationToMsgGap

/-- `round.checked_sub(RESERVATION_TO_MSG_GAP)`. -/
def reservedAt (round : Round) : Option Round :=
  if reservationToMsgGap ≤ round.val then some (round - Fin.ofNat _ reservationToMsgGap) else none

theorem val_fulfilledAt (r : Round) : (fulfilledAt r).val = (r.val + 2) % 18446744073709551616 := by
  unfold fulfilledAt reservationToMsgGap
  rw [Fin.val_add, Fin.val_ofNat]

/-- Two rounds are not fulfilled at the same round. -/
theorem fulfilledAt_inj {r r' : Round} (h : fulfilledAt r = fulfilledAt r') : r = r' := by
  have hval := congrArg Fin.val h
  rw [val_fulfilledAt, val_fulfilledAt] at hval
  exact Fin.ext (by omega)

/-- A round whose fulfilment does not wrap around is the one read back there. -/
theorem reservedAt_fulfilledAt {r : Round} (h : r.val + reservationToMsgGap < 18446744073709551616) :
    reservedAt (fulfilledAt r) = some r := by
  have hval := val_fulfilledAt r
  unfold reservationToMsgGap at h
  unfold reservedAt reservationToMsgGap
  rw [if_pos (by omega)]
  refine congrArg some (Fin.ext ?_)
  rw [Fin.val_sub, Fin.val_ofNat, hval]
  omega

section Signing
open Bincode

/-- `reservation_signing_bytes`. -/
def reservationSigningBytes (seed : ByteArr 32) (round : Round) (entries : List Entry) : Bytes :=
  (pair PanetiereWire.blob (pair (array 32) (pair PanetiereWire.long
    (list .little (pair (u16 .little) (u16 .little)))))).write
      (ascii "anymone/panetiere/reservations/v1", seed, round, entries)

end Signing

variable (C : ScheduledCrate)

/-- `msg_polys`, on a divisor that is not zero. -/
def ScheduledCrate.msgPolys (vectorBytes : Nat) : Nat :=
  (vectorBytes + (C.bytesPerPoly - 1)) / C.bytesPerPoly

/-- The slot offsets of `allocation`, index-aligned with the entries. -/
def slotOffsets (entries : List Entry) (cap : Nat) : List (Option Nat) :=
  C.allocate (entries.map (fun e => (e.1, e.2.val))) (C.beacon (entries.map Prod.fst)) cap

/-- The end of every granted slot. -/
def slotEnds (entries : List Entry) (offs : List (Option Nat)) : List Nat :=
  (entries.zip offs).filterMap (fun e => e.2.map (fun o => o + e.1.2.val))

/-- `allocation`: the slot offsets and the polynomials their grants need. -/
def allocation (entries : List Entry) (cap : Nat) : List (Option Nat) × Nat :=
  let offs := slotOffsets C entries cap
  (offs, C.msgPolys ((slotEnds entries offs).max?.getD 0))

/-- The bytes of the message vector the entries of a round make: `allocation(..).1 *
BYTES_PER_POLY`. -/
def vectorWidth (entries : List Entry) (cap : Nat) : Nat :=
  (allocation C entries cap).2 * C.bytesPerPoly

/-- `codec::allocate` answers entry by entry, grants ranges that are apart, and keeps
them under its cap. -/
structure AllocatesApart : Prop where
  aligned : ∀ entries b cap, (C.allocate entries b cap).length = entries.length
  apart : ∀ entries b cap, ∀ i j : Nat, i ≠ j → ∀ si sj oi oj,
    entries[i]? = some si → entries[j]? = some sj → (C.allocate entries b cap)[i]? = some (some oi) →
    (C.allocate entries b cap)[j]? = some (some oj) → SlotVector.Apart (oi, si.2) (oj, sj.2)
  capped : ∀ entries b cap, ∀ i : Nat, ∀ s o, entries[i]? = some s →
    (C.allocate entries b cap)[i]? = some (some o) → o + s.2 ≤ cap

variable {C}

/-- A multiple of the width of a polynomial that holds `n` bytes. -/
theorem le_msgPolys_mul (hpos : 0 < C.bytesPerPoly) (n : Nat) :
    n ≤ C.msgPolys n * C.bytesPerPoly := by
  unfold ScheduledCrate.msgPolys
  have hdiv := Nat.div_add_mod (n + (C.bytesPerPoly - 1)) C.bytesPerPoly
  have hmod := Nat.mod_lt (n + (C.bytesPerPoly - 1)) hpos
  rw [Nat.mul_comm] at hdiv
  omega

theorem le_max?_getD {l : List Nat} {n : Nat} (h : n ∈ l) : n ≤ l.max?.getD 0 := by
  cases hl : l.max? with
  | none =>
    rw [List.max?_eq_none_iff] at hl
    simp [hl] at h
  | some m => exact (List.max?_eq_some_iff.mp hl).2 n h

/-- **Every granted slot lies inside the message vector of its own list of
reservations.** -/
theorem slot_le_vectorWidth (hpos : 0 < C.bytesPerPoly) {entries : List Entry} {cap i : Nat}
    {e : Entry} {o : Nat} (he : entries[i]? = some e)
    (ho : (slotOffsets C entries cap)[i]? = some (some o)) :
    o + e.2.val ≤ vectorWidth C entries cap := by
  have hmem : o + e.2.val ∈ slotEnds entries (slotOffsets C entries cap) := by
    refine List.mem_filterMap.mpr ⟨(e, some o), ?_, rfl⟩
    refine List.mem_iff_getElem?.mpr ⟨i, ?_⟩
    rw [List.getElem?_zip_eq_some]
    exact ⟨he, ho⟩
  exact (le_max?_getD hmem).trans (le_msgPolys_mul hpos _)

end Anymone
