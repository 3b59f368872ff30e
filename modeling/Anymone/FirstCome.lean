import Mathlib.Data.List.Nodup
import Mathlib.Data.Finset.Card

/-! # First come, first admitted

A table with a bounded number of slots: an arrival names a key and who brings it, and takes
the slot of its key when the key has none and the table is not full.  Slots are never freed.

What an arrival is worth is settled when it comes: it has its slot then or never
(`mem_slots_concat`), and every key has one when there are no more keys than slots
(`has_slot_of_few`).
-/

namespace FirstCome
variable {K V : Type} [DecidableEq K] {cap : Nat}

/-- One arrival. -/
def arrive (cap : Nat) (table : List (K × V)) (x : K × V) : List (K × V) :=
  if x.1 ∈ table.map Prod.fst ∨ cap ≤ table.length then table else table ++ [x]

/-- The table after arrivals, oldest first. -/
def slots (cap : Nat) (l : List (K × V)) : List (K × V) := l.foldl (arrive cap) []

@[simp] theorem slots_nil : slots cap ([] : List (K × V)) = [] := rfl

@[simp] theorem slots_concat (l : List (K × V)) (x : K × V) :
    slots cap (l ++ [x]) = arrive cap (slots cap l) x := by
  unfold slots
  rw [List.foldl_append]
  rfl

theorem arrive_of_key {table : List (K × V)} {x : K × V} (h : x.1 ∈ table.map Prod.fst) :
    arrive cap table x = table := if_pos (Or.inl h)

theorem arrive_of_full {table : List (K × V)} (x : K × V) (h : cap ≤ table.length) :
    arrive cap table x = table := if_pos (Or.inr h)

theorem arrive_of_room {table : List (K × V)} {x : K × V} (hkey : x.1 ∉ table.map Prod.fst)
    (hroom : table.length < cap) : arrive cap table x = table ++ [x] :=
  if_neg (fun h => h.elim hkey (Nat.not_le_of_lt hroom))

theorem mem_arrive {table : List (K × V)} {x y : K × V} (h : y ∈ table) : y ∈ arrive cap table x := by
  unfold arrive
  split
  · exact h
  · exact List.mem_append_left _ h

/-- A slot is an arrival's. -/
theorem mem_of_mem_slots {l : List (K × V)} {x : K × V} (h : x ∈ slots cap l) : x ∈ l := by
  induction l using List.reverseRecOn with
  | nil => cases h
  | append_singleton l y ih =>
    rw [slots_concat] at h
    unfold arrive at h
    split at h
    · exact List.mem_append_left _ (ih h)
    · rcases List.mem_append.mp h with h | h
      · exact List.mem_append_left _ (ih h)
      · exact List.mem_append_right _ h

/-- No key has two slots. -/
theorem slots_keys_nodup (l : List (K × V)) : ((slots cap l).map Prod.fst).Nodup := by
  induction l using List.reverseRecOn with
  | nil => exact List.nodup_nil
  | append_singleton l y ih =>
    rw [slots_concat]
    unfold arrive
    split
    · exact ih
    · rename_i hnew
      rw [List.map_append, List.nodup_append]
      refine ⟨ih, List.nodup_singleton _, fun k hk k' hk' heq => hnew (Or.inl ?_)⟩
      rw [List.map_singleton, List.mem_singleton] at hk'
      rw [← hk', ← heq]
      exact hk

/-- A slot is found by its key. -/
theorem eq_of_mem_slots {l : List (K × V)} {x y : K × V} (hx : x ∈ slots cap l)
    (hy : y ∈ slots cap l) (h : x.1 = y.1) : x = y :=
  List.inj_on_of_nodup_map (slots_keys_nodup l) hx hy h

/-- An arrival finds its key in the table afterwards, or the table full. -/
theorem key_or_full {l : List (K × V)} {x : K × V} (h : x ∈ l) :
    x.1 ∈ (slots cap l).map Prod.fst ∨ cap ≤ (slots cap l).length := by
  induction l using List.reverseRecOn with
  | nil => cases h
  | append_singleton l y ih =>
    rw [slots_concat]
    by_cases hkey : y.1 ∈ (slots cap l).map Prod.fst
    · rw [arrive_of_key hkey]
      rcases List.mem_append.mp h with h | h
      · exact ih h
      · rw [List.mem_singleton.mp h]
        exact Or.inl hkey
    · by_cases hfull : cap ≤ (slots cap l).length
      · rw [arrive_of_full y hfull]
        exact Or.inr hfull
      · rw [arrive_of_room hkey (Nat.lt_of_not_le hfull), List.map_append]
        rcases List.mem_append.mp h with h | h
        · exact Or.inl (List.mem_append_left _ ((ih h).resolve_right hfull))
        · rw [List.mem_singleton.mp h]
          exact Or.inl (List.mem_append_right _ (List.mem_singleton_self _))

/-- **Whether an arrival has its slot is settled when it comes**: what comes later changes
nothing. -/
theorem mem_slots_concat {l : List (K × V)} {x : K × V} (h : x ∈ l) (y : K × V) :
    x ∈ slots cap (l ++ [y]) ↔ x ∈ slots cap l := by
  rw [slots_concat]
  refine ⟨fun hx => ?_, mem_arrive⟩
  unfold arrive at hx
  split at hx
  · exact hx
  · rename_i hnew
    rcases List.mem_append.mp hx with hx | hx
    · exact hx
    · -- It would be the newcomer itself, whose key is new: but the key came before.
      rw [List.mem_singleton] at hx
      rw [← hx] at hnew
      exact absurd (key_or_full h) hnew

/-- **With no more keys than slots, every key that came has one.** -/
theorem has_slot_of_few {l : List (K × V)} (hfew : (l.map Prod.fst).toFinset.card ≤ cap)
    {x : K × V} (h : x ∈ l) : x.1 ∈ (slots cap l).map Prod.fst := by
  by_contra hnone
  have hfull := (key_or_full h).resolve_left hnone
  -- The keys of the slots and this one are all among the keys that came.
  have hsub : insert x.1 ((slots cap l).map Prod.fst).toFinset ⊆ (l.map Prod.fst).toFinset := by
    intro k hk
    rw [Finset.mem_insert, List.mem_toFinset] at hk
    rw [List.mem_toFinset]
    rcases hk with rfl | hk
    · exact List.mem_map_of_mem h
    · obtain ⟨y, hy, rfl⟩ := List.mem_map.mp hk
      exact List.mem_map_of_mem (mem_of_mem_slots hy)
  have hcard := Finset.card_le_card hsub
  rw [Finset.card_insert_of_notMem (by rwa [List.mem_toFinset]),
    List.toFinset_card_of_nodup (slots_keys_nodup l), List.length_map] at hcard
  omega

end FirstCome
