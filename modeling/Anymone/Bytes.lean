import Anymone.OrdMap

/-! # Machine words and byte strings

Fixed-width unsigned integers as `Fin`, byte strings as lists, fixed-size arrays
as byte strings that carry their length, and little-endian encodings.  A signed
message of the program is a concatenation of a constant tag and fixed-width
fields, so what a reader needs of it is that equal concatenations have equal
fields: `append_eq_append_of_length` and `leBytes_inj`.
-/

/-- `u8`. -/
abbrev U8 := Fin 256

/-- `u32`. -/
abbrev U32 := Fin 4294967296

/-- `u64`. -/
abbrev U64 := Fin 18446744073709551616

/-- `Vec<u8>` and `&[u8]`. -/
abbrev Bytes := List U8

/-- `[u8; n]`. -/
abbrev ByteArr (n : Nat) := { l : Bytes // l.length = n }

/-- `[b; n]`. -/
abbrev ByteArr.filled (n : Nat) (b : U8) : ByteArr n := ⟨List.replicate n b, List.length_replicate⟩

/-! The ranges are not empty, so numerals of these types need no proof of their own. -/

instance U1.neZero : NeZero 2 := ⟨by decide⟩

instance U8.neZero : NeZero 256 := ⟨by decide⟩

instance U16.neZero : NeZero 65536 := ⟨by decide⟩

instance U32.neZero : NeZero 4294967296 := ⟨by decide⟩

instance U64.neZero : NeZero 18446744073709551616 := ⟨by decide⟩

namespace U64

/-- `u64::saturating_add`. -/
def saturatingAdd (a : U64) (n : Nat) : U64 :=
  ⟨min (a.val + n) 18446744073709551615, by omega⟩

/-- `u64::saturating_sub`. -/
def saturatingSub (a : U64) (n : Nat) : U64 := ⟨a.val - n, by omega⟩

/-- `saturating_mul`, of a 64-bit `usize` too. -/
def saturatingMul (a : U64) (n : Nat) : U64 :=
  ⟨min (a.val * n) 18446744073709551615, by omega⟩

/-- `usize::div_ceil`, on a divisor that is not zero. -/
def divCeil (a : U64) (n : Nat) : U64 := Fin.ofNat _ ((a.val + (n - 1)) / n)

@[simp] theorem val_saturatingAdd (a : U64) (n : Nat) :
    (a.saturatingAdd n).val = min (a.val + n) 18446744073709551615 := rfl

@[simp] theorem val_saturatingSub (a : U64) (n : Nat) : (a.saturatingSub n).val = a.val - n := rfl

end U64

/-- `u32 as u64`. -/
def U32.toU64 (n : U32) : U64 := ⟨n.val, by omega⟩

/-- The bytes of an ASCII string. -/
def ascii (s : String) : Bytes := s.toList.map (fun c => Fin.ofNat 256 c.toNat)

/-- The low `w` bytes of `n`, least significant first: `(n as uW).to_le_bytes()`
for the width of `w` bytes. -/
def leBytes : Nat → Nat → Bytes
  | 0, _ => []
  | w + 1, n => Fin.ofNat 256 n :: leBytes w (n / 256)

/-- The number a little-endian byte string spells. -/
def leVal : Bytes → Nat
  | [] => 0
  | b :: bs => b.val + 256 * leVal bs

/-- `bytes.get(a..b)`: the subslice, when it lies inside. -/
def slice? (bs : Bytes) (a b : Nat) : Option Bytes :=
  if a ≤ b ∧ b ≤ bs.length then some ((bs.drop a).take (b - a)) else none

/-- A slice read as an array of exactly `n` bytes, `try_into()`. -/
def toArr? (n : Nat) (bs : Bytes) : Option (ByteArr n) :=
  if h : bs.length = n then some ⟨bs, h⟩ else none

@[simp] theorem leBytes_length (w n : Nat) : (leBytes w n).length = w := by
  induction w generalizing n with
  | zero => rfl
  | succ w ih => simp [leBytes, ih]

theorem leVal_leBytes (w n : Nat) : leVal (leBytes w n) = n % 256 ^ w := by
  induction w generalizing n with
  | zero => simp [leBytes, leVal, Nat.mod_one]
  | succ w ih =>
    rw [leBytes, leVal, ih, Nat.pow_succ', Nat.mod_mul]
    rfl

/-- Numbers below the width's range are told apart by their bytes. -/
theorem leBytes_inj {w m n : Nat} (hm : m < 256 ^ w) (hn : n < 256 ^ w)
    (h : leBytes w m = leBytes w n) : m = n := by
  have := congrArg leVal h
  rwa [leVal_leBytes, leVal_leBytes, Nat.mod_eq_of_lt hm, Nat.mod_eq_of_lt hn] at this

theorem leBytes_u32_inj {a b : U32} (h : leBytes 4 a.val = leBytes 4 b.val) : a = b :=
  Fin.ext (leBytes_inj a.isLt b.isLt h)

/-- Two concatenations agree field by field when their first fields have one
length. -/
theorem append_eq_append_of_length {a b c d : Bytes} (hl : a.length = c.length)
    (h : a ++ b = c ++ d) : a = c ∧ b = d :=
  List.append_inj h hl
