import Anymone.OrdMap

/-! # A guard set behind a moving window

A machine that does something once for each number, and keeps only the numbers from a
moving lower bound on, keeps the rule as long as it never turns back to a number below
the bound.  `Guards lo seen out` says so of the numbers it has put out: none twice, and
each one either below the bound or still in the set.
-/

namespace WindowGuard
variable {K : Type} [LinearOrder K]

/-- Everything put out is put out once, and is remembered from `lo` on. -/
structure Guards (lo : K) (seen : OrdSet K) (out : List K) : Prop where
  nodup : out.Nodup
  seen_of_mem : ∀ k ∈ out, k < lo ∨ seen.contains k = true

variable {lo lo' k : K} {seen seen' : OrdSet K} {out : List K}

theorem guards_nil (lo : K) (seen : OrdSet K) : Guards lo seen [] :=
  ⟨List.nodup_nil, nofun⟩

/-- The bound moves up, and with it what is kept. -/
theorem Guards.prune (h : Guards lo seen out) (hlo : lo ≤ lo') :
    Guards lo' (seen.retain (fun k _ => decide (lo' ≤ k))) out := by
  refine ⟨h.nodup, fun k hk => ?_⟩
  by_cases hlt : k < lo'
  · exact Or.inl hlt
  · have hseen := (h.seen_of_mem k hk).resolve_left
      (fun hk => hlt (lt_of_lt_of_le hk hlo))
    obtain ⟨v, hv⟩ := OrdMap.contains_iff.mp hseen
    refine Or.inr (OrdMap.contains_iff.mpr ⟨v, ?_⟩)
    rw [OrdMap.get?_retain, hv, Option.filter_some, if_pos (decide_eq_true (not_lt.mp hlt))]

/-- What is put out next is not below the bound and not in the set. -/
theorem Guards.notMem (h : Guards lo seen out) (hlo : lo ≤ k)
    (hk : seen.contains k = false) : k ∉ out := by
  intro hmem
  rcases h.seen_of_mem k hmem with hlt | hseen
  · exact absurd hlt (not_lt.mpr hlo)
  · rw [hk] at hseen
    cases hseen

theorem Guards.mono (h : Guards lo seen out)
    (hseen : ∀ k, seen.contains k = true → seen'.contains k = true) : Guards lo seen' out :=
  ⟨h.nodup, fun k hk => (h.seen_of_mem k hk).imp_right (hseen k)⟩

theorem Guards.concat (h : Guards lo seen out) (hk : k ∉ out) :
    Guards lo (seen.add k) (out ++ [k]) := by
  refine ⟨List.nodup_append.mpr ⟨h.nodup, List.nodup_singleton k, ?_⟩, fun j hj => ?_⟩
  · intro a ha b hb hab
    rw [List.mem_singleton.mp hb] at hab
    exact hk (hab ▸ ha)
  · rcases List.mem_append.mp hj with hj | hj
    · exact (h.seen_of_mem j hj).imp_right OrdSet.contains_add_of_contains
    · rw [List.mem_singleton.mp hj]
      exact Or.inr (OrdSet.contains_add_self seen k)

/-- A batch without repetitions, all of it from the bound on and none of it seen. -/
theorem Guards.append {batch : List K} (h : Guards lo seen out) (hnodup : batch.Nodup)
    (hlo : ∀ k ∈ batch, lo ≤ k) (hfresh : ∀ k ∈ batch, seen.contains k = false)
    (hold : ∀ k, seen.contains k = true → seen'.contains k = true)
    (hnew : ∀ k ∈ batch, seen'.contains k = true) : Guards lo seen' (out ++ batch) := by
  refine ⟨List.nodup_append.mpr ⟨h.nodup, hnodup, ?_⟩, fun k hk => ?_⟩
  · intro a ha b hb hab
    exact h.notMem (hlo b hb) (hfresh b hb) (hab ▸ ha)
  · rcases List.mem_append.mp hk with hk | hk
    · exact (h.mono hold).seen_of_mem k hk
    · exact Or.inr (hnew k hk)

end WindowGuard
