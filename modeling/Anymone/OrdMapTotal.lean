import Anymone.OrdMap
import Mathlib.Algebra.BigOperators.Group.Finset.Basic
import Mathlib.Algebra.Order.BigOperators.Group.Finset
import Mathlib.Algebra.Order.BigOperators.Group.List

/-! # Totals over an ordered map

The sum of a number of every value, as a map's owner keeps it who bounds what the values take
together: what an insertion, a removal and a sweep do to it, and a bound from a bound on each
value.
-/

namespace OrdMap
variable {K V : Type} [LinearOrder K]

/-- The sum of a number of every value. -/
def total (m : OrdMap K V) (g : V → Nat) : Nat := (m.values.map g).sum

theorem total_eq (m : OrdMap K V) (g : V → Nat) :
    m.total g = (m.entries.map (fun e => g e.2)).sum := by
  unfold total values
  rw [List.map_map]
  rfl

theorem total_erase {m : OrdMap K V} {g : V → Nat} {k : K} {v : V} (h : m.get? k = some v) :
    m.total g = (m.erase k).total g + g v := by
  rw [total_eq, total_eq, ((entries_perm_erase h).map _).sum_eq, List.map_cons, List.sum_cons,
    Nat.add_comm]

theorem erase_of_new {m : OrdMap K V} {k : K} (h : m.get? k = none) : m.erase k = m := by
  refine ext_get? (fun k' => ?_)
  rw [get?_erase]
  by_cases hk : k' = k
  · rw [if_pos hk, hk, h]
  · rw [if_neg hk]

theorem total_insert (m : OrdMap K V) (g : V → Nat) (k : K) (v : V) :
    (m.insert k v).total g = (m.erase k).total g + g v := by
  have hnone : (m.erase k).get? k = none := by simp
  rw [← insert_erase, total_eq, total_eq, ((entries_perm_insert hnone).map _).sum_eq, List.map_cons,
    List.sum_cons, Nat.add_comm]

theorem total_retain_le (m : OrdMap K V) (g : V → Nat) (p : K → V → Bool) :
    (m.retain p).total g ≤ m.total g := by
  rw [total_eq, total_eq]
  exact (List.filter_sublist.map _).sum_le_sum (fun _ _ => Nat.zero_le _)

/-- A total is bounded by a bound on each value, over any set with all the keys. -/
theorem total_le_sum {m : OrdMap K V} {g : V → Nat} {S : Finset K} {f : K → Nat}
    (h : ∀ k v, m.get? k = some v → k ∈ S ∧ g v ≤ f k) : m.total g ≤ ∑ k ∈ S, f k := by
  have hle : m.total g ≤ (m.keys.map f).sum := by
    rw [total_eq, keys, List.map_map]
    exact List.sum_le_sum (fun e he => (h e.1 e.2 (get?_eq_some_iff.mpr he)).2)
  have hsub : m.keys.toFinset ⊆ S := by
    intro k hk
    obtain ⟨v, hv⟩ := mem_keys.mp (List.mem_toFinset.mp hk)
    exact (h k v hv).1
  rw [← List.sum_toFinset f (m.keys_sorted.imp ne_of_lt)] at hle
  exact hle.trans (Finset.sum_le_sum_of_subset hsub)

theorem size_le_card {m : OrdMap K V} {S : Finset K} (h : ∀ k v, m.get? k = some v → k ∈ S) :
    m.size ≤ S.card := by
  have hnodup : m.keys.Nodup := m.keys_sorted.imp ne_of_lt
  have hsize : m.size = m.keys.toFinset.card := by
    rw [List.toFinset_card_of_nodup hnodup, keys, List.length_map]
    rfl
  rw [hsize]
  refine Finset.card_le_card (fun k hk => ?_)
  obtain ⟨v, hv⟩ := mem_keys.mp (List.mem_toFinset.mp hk)
  exact h k v hv

end OrdMap
