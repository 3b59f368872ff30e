import Mathlib.Data.List.Sort
import Mathlib.Data.List.Lex
import Mathlib.Order.Fin.Basic
import Mathlib.Tactic.SplitIfs
import Mathlib.Data.Finset.Card
import Mathlib.Data.Finset.Union
import Mathlib.Algebra.GroupWithZero.Nat

/-! # Ordered maps

A finite map kept as its list of entries in strictly increasing key order.  The
order is a field of the structure, so two maps with the same lookups are the
same map (`OrdMap.ext_get?`) and iterating over a map is iterating over a list.

The operations are the ones a program written against an ordered map uses: look
up, insert (replacing), insert only when absent, remove, keep the entries a test
accepts, and rewrite every value in place.  Each comes with the equation that
says what a lookup sees afterwards, tagged for `simp`.
-/

/-- A finite map from `K` to `V`, as its entries in strictly increasing key
order. -/
structure OrdMap (K V : Type) [LinearOrder K] where
  entries : List (K × V)
  sorted : entries.Pairwise (fun a b => a.1 < b.1)
  deriving DecidableEq

namespace OrdMap
variable {K V W : Type} [LinearOrder K]

/-! ## Entry lists -/

/-- The value of `k` in an entry list. -/
def find (k : K) : List (K × V) → Option V
  | [] => none
  | e :: l => if e.1 = k then some e.2 else find k l

/-- Insert `k ↦ v` into an entry list at its place, replacing the old value. -/
def ins (k : K) (v : V) : List (K × V) → List (K × V)
  | [] => [(k, v)]
  | e :: l =>
      if k < e.1 then (k, v) :: e :: l
      else if k = e.1 then (k, v) :: l
      else e :: ins k v l

theorem mem_of_find {k : K} {v : V} : ∀ {l : List (K × V)}, find k l = some v → (k, v) ∈ l
  | [], h => by simp [find] at h
  | e :: l, h => by
      rw [find] at h
      split_ifs at h with he
      · subst he
        cases h
        exact List.mem_cons_self ..
      · exact List.mem_cons_of_mem _ (mem_of_find h)

theorem find_of_mem {k : K} {v : V} : ∀ {l : List (K × V)},
    l.Pairwise (fun a b => a.1 < b.1) → (k, v) ∈ l → find k l = some v
  | [], _, h => by simp at h
  | e :: l, hs, h => by
      obtain ⟨hlt, hs⟩ := List.pairwise_cons.mp hs
      rw [find]
      rcases List.mem_cons.mp h with rfl | h
      · simp
      · rw [if_neg (hlt _ h).ne]
        exact find_of_mem hs h

theorem find_ins (k k' : K) (v : V) (l : List (K × V)) :
    find k' (ins k v l) = if k' = k then some v else find k' l := by
  induction l with
  | nil => simp only [ins, find, eq_comm]
  | cons e l ih =>
    rw [ins]
    by_cases h1 : k < e.1
    · rw [if_pos h1, find]
      simp only [eq_comm]
    · rw [if_neg h1]
      by_cases h2 : k = e.1
      · rw [if_pos h2, find, find, ← h2]
        by_cases h : k = k'
        · rw [if_pos h, if_pos h.symm]
        · rw [if_neg h, if_neg (Ne.symm h), if_neg h]
      · rw [if_neg h2, find, find, ih]
        by_cases h : k' = k
        · rw [if_neg (fun he => h2 (h.symm.trans he.symm)), if_pos h, if_pos h]
        · rw [if_neg h, if_neg h]

theorem mem_ins {k : K} {v : V} {e : K × V} : ∀ {l : List (K × V)},
    e ∈ ins k v l → e = (k, v) ∨ e ∈ l
  | [], h => by simpa [ins] using h
  | d :: l, h => by
      rw [ins] at h
      split_ifs at h with h1 h2
      · simpa using h
      · rcases List.mem_cons.mp h with h | h
        · exact Or.inl h
        · exact Or.inr (List.mem_cons_of_mem _ h)
      · rcases List.mem_cons.mp h with rfl | h
        · exact Or.inr (List.mem_cons_self ..)
        · exact (mem_ins h).imp id (List.mem_cons_of_mem _)

theorem ins_sorted {k : K} {v : V} : ∀ {l : List (K × V)},
    l.Pairwise (fun a b => a.1 < b.1) → (ins k v l).Pairwise (fun a b => a.1 < b.1)
  | [], _ => by simp [ins]
  | e :: l, hs => by
      obtain ⟨hlt, hs'⟩ := List.pairwise_cons.mp hs
      rw [ins]
      split_ifs with h1 h2
      · refine List.pairwise_cons.mpr ⟨fun d hd => ?_, hs⟩
        rcases List.mem_cons.mp hd with rfl | hd
        · exact h1
        · exact h1.trans (hlt d hd)
      · subst h2
        exact List.pairwise_cons.mpr ⟨hlt, hs'⟩
      · refine List.pairwise_cons.mpr ⟨fun d hd => ?_, ins_sorted hs'⟩
        rcases mem_ins hd with rfl | hd
        · exact lt_of_le_of_ne (not_lt.mp h1) (Ne.symm h2)
        · exact hlt d hd

/-! ## Maps -/

/-- The map with no entries. -/
def empty : OrdMap K V := ⟨[], List.Pairwise.nil⟩

/-- The value of `k`. -/
def get? (m : OrdMap K V) (k : K) : Option V := find k m.entries

/-- `k` becomes `v`, whatever it was. -/
def insert (m : OrdMap K V) (k : K) (v : V) : OrdMap K V :=
  ⟨ins k v m.entries, ins_sorted m.sorted⟩

/-- `k` becomes `v` unless it has a value already. -/
def orInsert (m : OrdMap K V) (k : K) (v : V) : OrdMap K V :=
  if (m.get? k).isSome then m else m.insert k v

/-- Keep the entries the test accepts. -/
def retain (m : OrdMap K V) (p : K → V → Bool) : OrdMap K V :=
  ⟨m.entries.filter (fun e => p e.1 e.2), m.sorted.sublist List.filter_sublist⟩

/-- Keep the `n` entries with the greatest keys. -/
def keepNewest (m : OrdMap K V) (n : Nat) : OrdMap K V :=
  ⟨m.entries.drop (m.entries.length - n), m.sorted.sublist (List.drop_sublist _ _)⟩

/-- Remove `k`. -/
def erase (m : OrdMap K V) (k : K) : OrdMap K V := m.retain (fun k' _ => k' ≠ k)

/-- Rewrite every value in place. -/
def mapVals (m : OrdMap K V) (f : K → V → W) : OrdMap K W :=
  ⟨m.entries.map (fun e => (e.1, f e.1 e.2)), List.pairwise_map.mpr m.sorted⟩

/-- Insert a list of entries, one after another. -/
def insertAll (m : OrdMap K V) (l : List (K × V)) : OrdMap K V :=
  l.foldl (fun m e => m.insert e.1 e.2) m

/-- Whether `k` has a value. -/
def contains (m : OrdMap K V) (k : K) : Bool := (m.get? k).isSome

/-- The keys, in order. -/
def keys (m : OrdMap K V) : List K := m.entries.map Prod.fst

/-- The values, in key order. -/
def values (m : OrdMap K V) : List V := m.entries.map Prod.snd

/-- The number of entries. -/
def size (m : OrdMap K V) : Nat := m.entries.length

instance : Inhabited (OrdMap K V) := ⟨empty⟩

theorem get?_eq_some_iff {m : OrdMap K V} {k : K} {v : V} :
    m.get? k = some v ↔ (k, v) ∈ m.entries :=
  ⟨mem_of_find, find_of_mem m.sorted⟩

@[simp] theorem get?_empty (k : K) : (empty : OrdMap K V).get? k = none := rfl

@[simp] theorem get?_insert (m : OrdMap K V) (k k' : K) (v : V) :
    (m.insert k v).get? k' = if k' = k then some v else m.get? k' :=
  find_ins k k' v m.entries

theorem get?_orInsert (m : OrdMap K V) (k k' : K) (v : V) :
    (m.orInsert k v).get? k' = if k' = k then some ((m.get? k).getD v) else m.get? k' := by
  unfold orInsert
  cases h : m.get? k with
  | none => simp
  | some w =>
    by_cases hk : k' = k
    · subst hk
      simp [h]
    · simp [hk]

@[simp] theorem get?_retain (m : OrdMap K V) (p : K → V → Bool) (k : K) :
    (m.retain p).get? k = (m.get? k).filter (p k) := by
  apply Option.ext
  intro v
  rw [get?_eq_some_iff, retain, List.mem_filter, ← get?_eq_some_iff, Option.filter_eq_some_iff]

@[simp] theorem get?_erase (m : OrdMap K V) (k k' : K) :
    (m.erase k).get? k' = if k' = k then none else m.get? k' := by
  unfold erase
  rw [get?_retain]
  split_ifs with h <;> cases m.get? k' <;> simp [h]

@[simp] theorem get?_mapVals (m : OrdMap K V) (f : K → V → W) (k : K) :
    (m.mapVals f).get? k = (m.get? k).map (f k) := by
  apply Option.ext
  intro w
  rw [get?_eq_some_iff, Option.map_eq_some_iff]
  constructor
  · intro h
    obtain ⟨e, he, heq⟩ := List.mem_map.mp h
    cases heq
    exact ⟨e.2, get?_eq_some_iff.mpr he, rfl⟩
  · rintro ⟨v, hv, rfl⟩
    exact List.mem_map.mpr ⟨(k, v), get?_eq_some_iff.mp hv, rfl⟩

/-- The entries a partial function picks out of a map are again in key order. -/
theorem filterMap_sorted (m : OrdMap K V) (f : K → V → Option W) :
    (m.entries.filterMap (fun e => (f e.1 e.2).map (fun w => (e.1, w)))).Pairwise
      (fun a b => a.1 < b.1) := by
  refine List.pairwise_filterMap.mpr (m.sorted.imp ?_)
  intro a b hab x hx y hy
  obtain ⟨w, -, rfl⟩ := Option.map_eq_some_iff.mp hx
  obtain ⟨w', -, rfl⟩ := Option.map_eq_some_iff.mp hy
  exact hab

theorem mem_filterMap_entries {m : OrdMap K V} {f : K → V → Option W} {k : K} {w : W} :
    (k, w) ∈ m.entries.filterMap (fun e => (f e.1 e.2).map (fun w => (e.1, w))) ↔
      ∃ v, m.get? k = some v ∧ f k v = some w := by
  rw [List.mem_filterMap]
  constructor
  · rintro ⟨⟨k', v⟩, he, hf⟩
    obtain ⟨w', hw', h⟩ := Option.map_eq_some_iff.mp hf
    cases h
    exact ⟨v, get?_eq_some_iff.mpr he, hw'⟩
  · rintro ⟨v, hv, hf⟩
    exact ⟨(k, v), get?_eq_some_iff.mp hv, by simp [hf]⟩

theorem get?_insertAll_of_not_mem {k : K} : ∀ {l : List (K × V)} (m : OrdMap K V),
    (∀ v, (k, v) ∉ l) → (m.insertAll l).get? k = m.get? k
  | [], _, _ => rfl
  | (k', v) :: l, m, h => by
      show ((m.insert k' v).insertAll l).get? k = m.get? k
      have hne : k ≠ k' := fun he => h v (he ▸ List.mem_cons_self ..)
      rw [get?_insertAll_of_not_mem _ (fun v hv => h v (List.mem_cons_of_mem _ hv)), get?_insert,
        if_neg hne]

theorem get?_insertAll_of_mem {k : K} {v : V} : ∀ {l : List (K × V)} (m : OrdMap K V),
    l.Pairwise (fun a b => a.1 < b.1) → (k, v) ∈ l → (m.insertAll l).get? k = some v
  | [], _, _, h => by simp at h
  | (k', v') :: l, m, hs, h => by
      show ((m.insert k' v').insertAll l).get? k = some v
      obtain ⟨hlt, hs⟩ := List.pairwise_cons.mp hs
      rcases List.mem_cons.mp h with he | h
      · cases he
        rw [get?_insertAll_of_not_mem _ (fun w hw => (hlt _ hw).ne rfl), get?_insert, if_pos rfl]
      · exact get?_insertAll_of_mem _ hs h

theorem get?_insertAll_cases {k : K} {v : V} : ∀ {l : List (K × V)} (m : OrdMap K V),
    (m.insertAll l).get? k = some v → m.get? k = some v ∨ (k, v) ∈ l
  | [], _, h => Or.inl h
  | (k', v') :: l, m, h => by
      rcases get?_insertAll_cases (m.insert k' v') h with h | h
      · rw [get?_insert] at h
        split_ifs at h with hk
        · cases h
          exact Or.inr (hk ▸ List.mem_cons_self ..)
        · exact Or.inl h
      · exact Or.inr (List.mem_cons_of_mem _ h)

theorem contains_insertAll {k : K} : ∀ {l : List (K × V)} (m : OrdMap K V),
    (m.insertAll l).contains k = true ↔ m.contains k = true ∨ ∃ v, (k, v) ∈ l
  | [], m => by simp [insertAll]
  | (k', v') :: l, m => by
      show ((m.insert k' v').insertAll l).contains k = true ↔ _
      rw [contains_insertAll (m.insert k' v')]
      unfold contains
      rw [get?_insert]
      by_cases hk : k = k'
      · subst hk
        simp
      · simp [hk]

/-- What is taken from a map entry by entry is taken for one key at most once. -/
theorem countP_filterMap_le_one (m : OrdMap K V) {f : K × V → Option W} {p : W → Bool} {k : K}
    (h : ∀ e w, f e = some w → p w = true → e.1 = k) : (m.entries.filterMap f).countP p ≤ 1 := by
  have hkeys : m.keys.count k ≤ 1 :=
    List.nodup_iff_count_le_one.mp (m.sorted.imp (fun hab => hab.ne) |> List.pairwise_map.mpr) k
  refine le_trans ?_ hkeys
  rw [List.countP_filterMap, keys, List.count, List.countP_map]
  refine List.countP_mono_left ?_
  intro e _ he
  cases hw : f e with
  | none => simp [hw] at he
  | some w => simpa using h e w hw (by simpa [hw] using he)

theorem contains_iff {m : OrdMap K V} {k : K} : m.contains k = true ↔ ∃ v, m.get? k = some v := by
  unfold contains
  rw [Option.isSome_iff_exists]

theorem ext_entries {m m' : OrdMap K V} (h : m.entries = m'.entries) : m = m' := by
  cases m
  cases m'
  cases h
  rfl

theorem contains_erase_iff {m : OrdMap K V} {k k' : K} :
    (m.erase k).contains k' = true ↔ k' ≠ k ∧ m.contains k' = true := by
  unfold contains
  rw [get?_erase]
  by_cases h : k' = k <;> simp [h]

theorem contains_insert_iff {m : OrdMap K V} {k k' : K} {v : V} :
    (m.insert k v).contains k' = true ↔ k' = k ∨ m.contains k' = true := by
  unfold contains
  rw [get?_insert]
  by_cases h : k' = k <;> simp [h]

theorem mem_values {m : OrdMap K V} {v : V} : v ∈ m.values ↔ ∃ k, m.get? k = some v := by
  unfold values
  rw [List.mem_map]
  constructor
  · rintro ⟨e, he, rfl⟩
    exact ⟨e.1, get?_eq_some_iff.mpr he⟩
  · rintro ⟨k, hk⟩
    exact ⟨(k, v), get?_eq_some_iff.mp hk, rfl⟩

theorem mem_keys {m : OrdMap K V} {k : K} : k ∈ m.keys ↔ ∃ v, m.get? k = some v := by
  unfold keys
  rw [List.mem_map]
  constructor
  · rintro ⟨e, he, rfl⟩
    exact ⟨e.2, get?_eq_some_iff.mpr he⟩
  · rintro ⟨v, hv⟩
    exact ⟨(k, v), get?_eq_some_iff.mp hv, rfl⟩

theorem keys_sorted (m : OrdMap K V) : m.keys.Pairwise (· < ·) :=
  List.pairwise_map.mpr m.sorted

theorem entries_nodup (m : OrdMap K V) : m.entries.Nodup :=
  m.sorted.imp (fun hlt he => hlt.ne (congrArg Prod.fst he))

/-- **Maps with the same lookups are the same map.** -/
theorem ext_get? {m m' : OrdMap K V} (h : ∀ k, m.get? k = m'.get? k) : m = m' := by
  have hmem : ∀ e, e ∈ m.entries ↔ e ∈ m'.entries := by
    intro e
    rw [← get?_eq_some_iff, ← get?_eq_some_iff, h]
  have hperm : m.entries.Perm m'.entries :=
    (List.perm_ext_iff_of_nodup m.entries_nodup m'.entries_nodup).mpr hmem
  have heq : m.entries = m'.entries :=
    hperm.eq_of_pairwise (fun _ _ _ _ hab hba => absurd hab hba.asymm) m.sorted m'.sorted
  exact ext_entries heq

/-- A new key adds one entry. -/
theorem entries_perm_insert {m : OrdMap K V} {k : K} {v : V} (h : m.get? k = none) :
    (m.insert k v).entries.Perm ((k, v) :: m.entries) := by
  have hk : (k, v) ∉ m.entries := by
    intro hmem
    rw [get?_eq_some_iff.mpr hmem] at h
    cases h
  refine (List.perm_ext_iff_of_nodup (entries_nodup _)
    (List.nodup_cons.mpr ⟨hk, m.entries_nodup⟩)).mpr (fun e => ?_)
  rw [← get?_eq_some_iff, get?_insert, List.mem_cons]
  by_cases he : e.1 = k
  · rw [if_pos he]
    constructor
    · intro hv
      exact Or.inl (Prod.ext he (Option.some.inj hv).symm)
    · rintro (rfl | hmem)
      · rfl
      · rw [← get?_eq_some_iff, he, h] at hmem
        cases hmem
  · rw [if_neg he, get?_eq_some_iff]
    constructor
    · exact Or.inr
    · rintro (rfl | hmem)
      · exact absurd rfl he
      · exact hmem

/-- Removing a key takes one entry away. -/
theorem entries_perm_erase {m : OrdMap K V} {k : K} {v : V} (h : m.get? k = some v) :
    m.entries.Perm ((k, v) :: (m.erase k).entries) := by
  have hback : (m.erase k).insert k v = m := by
    refine ext_get? (fun k' => ?_)
    rw [get?_insert, get?_erase]
    by_cases hk : k' = k
    · rw [if_pos hk, hk, h]
    · rw [if_neg hk, if_neg hk]
  have hnone : (m.erase k).get? k = none := by simp
  have hperm := entries_perm_insert (v := v) hnone
  rw [hback] at hperm
  exact hperm

/-! ## Sizes -/

theorem size_retain_le (m : OrdMap K V) (p : K → V → Bool) : (m.retain p).size ≤ m.size :=
  List.length_filter_le ..

theorem size_insert_of_new {m : OrdMap K V} {k : K} {v : V} (h : m.get? k = none) :
    (m.insert k v).size = m.size + 1 :=
  (entries_perm_insert h).length_eq

/-- Removing a key first makes no difference to its insertion. -/
theorem insert_erase (m : OrdMap K V) (k : K) (v : V) : (m.erase k).insert k v = m.insert k v := by
  refine ext_get? (fun k' => ?_)
  rw [get?_insert, get?_insert, get?_erase]
  by_cases hk : k' = k
  · rw [if_pos hk, if_pos hk]
  · rw [if_neg hk, if_neg hk, if_neg hk]

theorem size_insert_of_old {m : OrdMap K V} {k : K} {v w : V} (h : m.get? k = some w) :
    (m.insert k v).size = m.size := by
  have hnone : (m.erase k).get? k = none := by simp
  rw [← insert_erase, size_insert_of_new hnone]
  exact (entries_perm_erase h).length_eq.symm

end OrdMap

/-! ## Ordered sets -/

/-- A finite set, as a map to the one-point type. -/
abbrev OrdSet (K : Type) [LinearOrder K] := OrdMap K Unit

namespace OrdSet
variable {K : Type} [LinearOrder K]

/-- `k` is a member from now on. -/
def add (s : OrdSet K) (k : K) : OrdSet K := s.insert k ()

@[simp] theorem contains_empty (k : K) : (OrdMap.empty : OrdSet K).contains k = false := rfl

@[simp] theorem contains_add (s : OrdSet K) (k k' : K) :
    (s.add k).contains k' = (decide (k' = k) || s.contains k') := by
  unfold add OrdMap.contains
  rw [OrdMap.get?_insert]
  split_ifs with h <;> simp [h]

theorem contains_add_iff {s : OrdSet K} {k k' : K} :
    (s.add k).contains k' = true ↔ k' = k ∨ s.contains k' = true := by simp

theorem contains_add_of_contains {s : OrdSet K} {k k' : K} (h : s.contains k' = true) :
    (s.add k).contains k' = true := by simp [h]

theorem contains_add_self (s : OrdSet K) (k : K) : (s.add k).contains k = true := by simp

/-- The members, as a finite set. -/
def toFinset (s : OrdSet K) : Finset K := s.keys.toFinset

theorem mem_toFinset {s : OrdSet K} {k : K} : k ∈ s.toFinset ↔ s.contains k = true := by
  unfold toFinset
  rw [List.mem_toFinset, OrdMap.mem_keys, OrdMap.contains_iff]

theorem card_toFinset (s : OrdSet K) : s.toFinset.card = s.size := by
  have hnd : s.keys.Nodup := s.keys_sorted.imp (fun h => h.ne)
  unfold toFinset
  rw [List.toFinset_card_of_nodup hnd]
  exact List.length_map ..

theorem toFinset_foldl_add (l : List K) :
    ∀ s : OrdSet K, (l.foldl add s).toFinset = s.toFinset ∪ l.toFinset := by
  induction l with
  | nil => simp
  | cons k l ih =>
    intro s
    rw [List.foldl_cons, ih]
    ext k'
    rw [Finset.mem_union, Finset.mem_union, mem_toFinset, mem_toFinset, contains_add_iff,
      List.mem_toFinset, List.mem_toFinset, List.mem_cons]
    tauto

end OrdSet
