import Anymone.Bincode
import Anymone.OrdMap

/-! # Narrow counts, narrow tags and maps

Formats beside the ones with 64-bit lengths and 32-bit variant numbers: a list counted by a word of
any width, an enumeration told by one byte, and an ordered map as its length and its entries in key
order.  A reader of a map inserts what it reads, so a map is read back as itself
(`OrdMap.insertAll_entries`).
-/

namespace OrdMap
variable {K V : Type} [LinearOrder K]

theorem get?_insertAll_entries (m : OrdMap K V) (k : K) :
    ((empty : OrdMap K V).insertAll m.entries).get? k = m.get? k := by
  cases h : m.get? k with
  | none =>
    have hnot : ∀ v, (k, v) ∉ m.entries := by
      intro v hv
      rw [get?_eq_some_iff.mpr hv] at h
      cases h
    rw [get?_insertAll_of_not_mem _ hnot, get?_empty]
  | some v =>
    exact get?_insertAll_of_mem _ m.sorted (get?_eq_some_iff.mp h)

/-- **The entries of a map, inserted one by one, are the map.** -/
theorem insertAll_entries (m : OrdMap K V) : (empty : OrdMap K V).insertAll m.entries = m :=
  ext_get? (get?_insertAll_entries m)

theorem size_insert_le (m : OrdMap K V) (k : K) (v : V) : (m.insert k v).size ≤ m.size + 1 := by
  cases h : m.get? k with
  | none => exact (size_insert_of_new h).le
  | some w =>
    rw [size_insert_of_old h]
    omega

end OrdMap

namespace Bincode
variable {α β : Type}

/-- A count in a word of `w` bytes, below `n`, and so many values. -/
def counted (o : ByteOrder) (w n : Nat) (h : n ≤ 256 ^ w) (f : Bincode α) : Bincode (List α) where
  write as := o.arrange (leBytes w as.length) ++ as.flatMap f.write
  read bs := do
    let (k, rest) ← (uint o w n h).read bs
    f.readN k.val rest
  Fits as := as.length < n ∧ ∀ a ∈ as, f.Fits a
  read_write := by
    intro as has rest
    have hcount := (uint o w n h).read_write (a := ⟨as.length, has.1⟩) trivial
      (as.flatMap f.write ++ rest)
    rw [List.append_assoc,
      show o.arrange (leBytes w as.length) = (uint o w n h).write ⟨as.length, has.1⟩ from rfl, hcount]
    simp [readN_flatMap f has.2]

/-- An enumeration: one byte that tells the variant, then its fields. -/
def selected (tag : α → U8) (variants : U8 → Option (Bincode α)) : Bincode α where
  write a := tag a :: match variants (tag a) with
    | some f => f.write a
    | none => []
  read
    | [] => none
    | t :: rest => (variants t).bind (fun f => f.read rest)
  Fits a := ∃ f, variants (tag a) = some f ∧ f.Fits a
  read_write := by
    rintro a ⟨f, hf, hfit⟩ rest
    simp [hf, f.read_write hfit]

/-- A value with no bytes of its own. -/
def unit (a : α) : Bincode α where
  write _ := []
  read bs := some (a, bs)
  Fits b := b = a
  read_write := by
    rintro b rfl rest
    rfl

/-- `BTreeMap`: its length and its entries in key order. -/
def map {K V : Type} [LinearOrder K] (o : ByteOrder) (f : Bincode K) (g : Bincode V) :
    Bincode (OrdMap K V) :=
  (list o (f.pair g)).iso (OrdMap.empty.insertAll ·) OrdMap.entries OrdMap.insertAll_entries

end Bincode

/-! ## Tags in front of a message -/

/-- Tags none of which begins another. -/
def PrefixFree {K : Type} (tag : K → Bytes) : Prop := ∀ i j, i ≠ j → ¬ tag i <+: tag j

namespace PrefixFree
variable {K : Type} {tag : K → Bytes}

/-- **Behind prefix-free tags, equal bytes have the same tag and the same rest.** -/
theorem append_inj (hfree : PrefixFree tag) {i j : K} {a b : Bytes}
    (h : tag i ++ a = tag j ++ b) : i = j ∧ a = b := by
  have hi : tag i <+: tag i ++ a := List.prefix_append _ _
  have hj : tag j <+: tag i ++ a := h ▸ List.prefix_append _ _
  have hij : i = j := by
    by_contra hne
    rcases le_total (tag i).length (tag j).length with hle | hle
    · exact hfree i j hne (List.prefix_of_prefix_length_le hi hj hle)
    · exact hfree j i (Ne.symm hne) (List.prefix_of_prefix_length_le hj hi hle)
  subst hij
  exact ⟨rfl, List.append_cancel_left h⟩

end PrefixFree
