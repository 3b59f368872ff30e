import Anymone.Bytes

/-! # Fixed-width binary formats

A format writes a value as bytes and reads one value off the front of a byte
string.  The law that what was written is read back is a field of the structure, so
it holds of every format built from the combinators here: fixed-width words in
either byte order, arrays, pairs, length-prefixed lists, and enumerations tagged by
a 32-bit variant number.  A length travels in 64 bits, so a list fits when its
length does.
-/

/-- The order in which a word's bytes are written. -/
inductive ByteOrder where
  | little
  | big

/-- The bytes of a little-endian word in a byte order. -/
def ByteOrder.arrange : ByteOrder → Bytes → Bytes
  | .little, bs => bs
  | .big, bs => bs.reverse

@[simp] theorem ByteOrder.arrange_length (o : ByteOrder) (bs : Bytes) :
    (o.arrange bs).length = bs.length := by
  cases o <;> simp [arrange]

@[simp] theorem ByteOrder.arrange_arrange (o : ByteOrder) (bs : Bytes) :
    o.arrange (o.arrange bs) = bs := by
  cases o <;> simp [arrange]

/-- A writer and the reader that undoes it. -/
structure Bincode (α : Type) where
  write : α → Bytes
  read : Bytes → Option (α × Bytes)
  /-- The values the format can carry. -/
  Fits : α → Prop
  read_write : ∀ {a}, Fits a → ∀ rest, read (write a ++ rest) = some (a, rest)

namespace Bincode
variable {α β : Type}

/-- The first `n` bytes and the rest. -/
def split (n : Nat) (bs : Bytes) : Option (Bytes × Bytes) :=
  if n ≤ bs.length then some (bs.take n, bs.drop n) else none

theorem split_append {n : Nat} {bs : Bytes} (h : bs.length = n) (rest : Bytes) :
    split n (bs ++ rest) = some (bs, rest) := by
  subst h
  simp [split]

/-- A word of `w` bytes with values below `n`. -/
def uint (o : ByteOrder) (w n : Nat) (h : n ≤ 256 ^ w) : Bincode (Fin n) where
  write a := o.arrange (leBytes w a.val)
  read bs := do
    let (word, rest) ← split w bs
    if hv : leVal (o.arrange word) < n then some (⟨_, hv⟩, rest) else none
  Fits _ := True
  read_write := by
    intro a _ rest
    have hval : leVal (leBytes w a.val) = a.val := by
      rw [leVal_leBytes, Nat.mod_eq_of_lt (lt_of_lt_of_le a.isLt h)]
    simp [split_append (n := w), hval]

/-- `u8`, `u16`, `u32` and `u64`. -/
def u8 (o : ByteOrder) : Bincode U8 := uint o 1 _ (by decide)

def u16 (o : ByteOrder) : Bincode (Fin 65536) := uint o 2 _ (by decide)

def u32 (o : ByteOrder) : Bincode U32 := uint o 4 _ (by decide)

def u64 (o : ByteOrder) : Bincode U64 := uint o 8 _ (by decide)

/-- An array of `n` bytes. -/
def array (n : Nat) : Bincode (ByteArr n) where
  write a := a.1
  read bs := do
    let (front, rest) ← split n bs
    (toArr? n front).map (fun a => (a, rest))
  Fits _ := True
  read_write := by
    intro a _ rest
    simp [split_append a.2, toArr?, a.2]

/-- One value after another. -/
def pair (f : Bincode α) (g : Bincode β) : Bincode (α × β) where
  write p := f.write p.1 ++ g.write p.2
  read bs := do
    let (a, rest) ← f.read bs
    let (b, rest) ← g.read rest
    some ((a, b), rest)
  Fits p := f.Fits p.1 ∧ g.Fits p.2
  read_write := by
    intro p hp rest
    rw [List.append_assoc, f.read_write hp.1]
    simp [g.read_write hp.2]

/-- A value through another representation of it. -/
def iso (f : Bincode α) (mk : α → β) (get : β → α) (h : ∀ b, mk (get b) = b) : Bincode β where
  write b := f.write (get b)
  read bs := (f.read bs).map (fun p => (mk p.1, p.2))
  Fits b := f.Fits (get b)
  read_write := by
    intro b hb rest
    simp [f.read_write hb, h]

/-- `n` values in a row. -/
def readN (f : Bincode α) : Nat → Bytes → Option (List α × Bytes)
  | 0, bs => some ([], bs)
  | n + 1, bs => do
      let (a, rest) ← f.read bs
      let (as, rest) ← f.readN n rest
      some (a :: as, rest)

theorem readN_flatMap (f : Bincode α) {as : List α} (h : ∀ a ∈ as, f.Fits a) (rest : Bytes) :
    f.readN as.length (as.flatMap f.write ++ rest) = some (as, rest) := by
  induction as with
  | nil => rfl
  | cons a as ih =>
    have ih := ih (fun b hb => h b (List.mem_cons_of_mem _ hb))
    rw [List.flatMap_cons, List.append_assoc, List.length_cons, readN,
      f.read_write (h a (List.mem_cons_self ..))]
    simp [ih]

/-- The length of a list as a 64-bit word. -/
def writeLen (o : ByteOrder) (n : Nat) : Bytes := o.arrange (leBytes 8 n)

/-- A length read back. -/
def readLen (o : ByteOrder) (bs : Bytes) : Option (Nat × Bytes) :=
  ((u64 o).read bs).map (fun p => (p.1.val, p.2))

theorem readLen_writeLen (o : ByteOrder) {n : Nat} (h : n < 18446744073709551616) (rest : Bytes) :
    readLen o (writeLen o n ++ rest) = some (n, rest) := by
  have := (u64 o).read_write (a := ⟨n, h⟩) trivial rest
  unfold readLen
  rw [show writeLen o n = (u64 o).write ⟨n, h⟩ from rfl, this]
  rfl

/-- A length and so many values. -/
def list (o : ByteOrder) (f : Bincode α) : Bincode (List α) where
  write as := writeLen o as.length ++ as.flatMap f.write
  read bs := do
    let (n, rest) ← readLen o bs
    f.readN n rest
  Fits as := as.length < 18446744073709551616 ∧ ∀ a ∈ as, f.Fits a
  read_write := by
    intro as has rest
    rw [List.append_assoc, readLen_writeLen o has.1]
    simp [readN_flatMap f has.2]

/-- A byte string: its length and its bytes. -/
def bytes (o : ByteOrder) : Bincode Bytes where
  write bs := writeLen o bs.length ++ bs
  read bs := do
    let (n, rest) ← readLen o bs
    split n rest
  Fits bs := bs.length < 18446744073709551616
  read_write := by
    intro bs hbs rest
    rw [List.append_assoc, readLen_writeLen o hbs]
    simp [split_append (n := bs.length)]

/-- `bool`: one byte, zero or one. -/
def bool : Bincode Bool where
  write b := [if b then 1 else 0]
  read
    | [] => none
    | x :: rest => if x = 0 then some (false, rest) else if x = 1 then some (true, rest) else none
  Fits _ := True
  read_write := by
    intro b _ rest
    cases b <;> simp

/-- `Option`: a byte, and the value when there is one. -/
def option (f : Bincode α) : Bincode (Option α) where
  write
    | none => [0]
    | some a => 1 :: f.write a
  read
    | [] => none
    | x :: rest =>
        if x = 0 then some (none, rest)
        else if x = 1 then (f.read rest).map (fun p => (some p.1, p.2))
        else none
  Fits a := ∀ x, a = some x → f.Fits x
  read_write := by
    intro a ha rest
    cases a with
    | none => simp
    | some a => simp [f.read_write (ha a rfl)]

/-- One variant of an enumeration, from the format of its fields. -/
def variant (f : Bincode β) (mk : β → α) (get : α → Option β)
    (h : ∀ {a b}, get a = some b → mk b = a) : Bincode α where
  write a := match get a with
    | some b => f.write b
    | none => []
  read bs := (f.read bs).map (fun p => (mk p.1, p.2))
  Fits a := ∃ b, get a = some b ∧ f.Fits b
  read_write := by
    rintro a ⟨b, hb, hfit⟩ rest
    simp [hb, f.read_write hfit, h hb]

/-- An enumeration: the variant's number, then its fields. -/
def tagged (o : ByteOrder) (tag : α → U32) (variants : U32 → Option (Bincode α)) : Bincode α where
  write a := (u32 o).write (tag a) ++ match variants (tag a) with
    | some f => f.write a
    | none => []
  read bs := do
    let (t, rest) ← (u32 o).read bs
    let f ← variants t
    f.read rest
  Fits a := ∃ f, variants (tag a) = some f ∧ f.Fits a
  read_write := by
    rintro a ⟨f, hf, hfit⟩ rest
    rw [List.append_assoc, (u32 o).read_write (a := tag a) trivial]
    simp [hf, f.read_write hfit]

/-! ## Lengths

The byte order plays no part in how long a value is written. -/

section Length
variable (o : ByteOrder)

@[simp] theorem length_write_uint {w n : Nat} {h : n ≤ 256 ^ w} (a : Fin n) :
    ((uint o w n h).write a).length = w := by
  simp [uint]

@[simp] theorem length_write_u32 (a : U32) : ((u32 o).write a).length = 4 := length_write_uint o a

@[simp] theorem length_write_u64 (a : U64) : ((u64 o).write a).length = 8 := length_write_uint o a

@[simp] theorem length_write_array {n : Nat} (a : ByteArr n) : ((array n).write a).length = n := a.2

@[simp] theorem length_write_pair (f : Bincode α) (g : Bincode β) (p : α × β) :
    ((pair f g).write p).length = (f.write p.1).length + (g.write p.2).length :=
  List.length_append

@[simp] theorem length_write_iso (f : Bincode α) (mk : α → β) (get : β → α)
    (h : ∀ b, mk (get b) = b) (b : β) : ((iso f mk get h).write b).length = (f.write (get b)).length :=
  rfl

@[simp] theorem length_write_bytes (bs : Bytes) : ((bytes o).write bs).length = 8 + bs.length := by
  simp [bytes, writeLen]

@[simp] theorem length_write_list (f : Bincode α) (as : List α) :
    ((list o f).write as).length = 8 + (as.map (fun a => (f.write a).length)).sum := by
  simp [list, writeLen, List.length_flatMap]

@[simp] theorem length_write_bool (b : Bool) : (bool.write b).length = 1 := rfl

@[simp] theorem length_write_none (f : Bincode α) : ((option f).write none).length = 1 := rfl

@[simp] theorem length_write_some (f : Bincode α) (a : α) :
    ((option f).write (some a)).length = 1 + (f.write a).length := by
  simp [option, Nat.add_comm]

theorem length_write_tagged {tag : α → U32} {variants : U32 → Option (Bincode α)} {a : α}
    {f : Bincode α} (h : variants (tag a) = some f) :
    ((tagged o tag variants).write a).length = 4 + (f.write a).length := by
  simp [tagged, h]

end Length

/-- Values that fit and are written alike are the same value. -/
theorem write_inj (f : Bincode α) {a b : α} (ha : f.Fits a) (hb : f.Fits b)
    (h : f.write a = f.write b) : a = b := by
  have h1 := f.read_write ha []
  rw [h, f.read_write hb []] at h1
  exact (congrArg Prod.fst (Option.some.inj h1)).symm

end Bincode
