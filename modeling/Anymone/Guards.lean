import Mathlib.Algebra.Order.Ring.Nat
import Mathlib.Data.List.Basic

/-! # What a successful validator has checked

A validator is a sequence of guards in `Except`: each step may throw, and the value comes last.
These lemmas take a success apart, guard by guard, and put one together again.
-/

namespace Guards
variable {ε α β : Type}

/-- A sequence succeeds when both halves do. -/
theorem seq_ok {x : Except ε α} {f : α → Except ε β} {b : β} :
    x >>= f = Except.ok b ↔ ∃ a, x = .ok a ∧ f a = .ok b := by
  cases x with
  | error e => exact ⟨fun h => (nomatch h), fun ⟨_, h, _⟩ => (nomatch h)⟩
  | ok a => exact ⟨fun h => ⟨a, rfl, h⟩, fun ⟨_, h, h'⟩ => by cases h; exact h'⟩

/-- What comes after a guard that throws runs when the guard does not hold. -/
theorem guard_ok {p : Prop} [Decidable p] {e : ε} {x : Except ε β} {b : β} :
    (if p then .error e else x) = .ok b ↔ ¬ p ∧ x = .ok b := by
  by_cases hp : p
  · simp [hp]
  · simp [hp]

/-- A value made of a success. -/
theorem map_ok {f : α → β} {x : Except ε α} {b : β} :
    x.map f = .ok b ↔ ∃ a, x = .ok a ∧ f a = b := by
  cases x with
  | error e => exact ⟨fun h => (nomatch h), fun ⟨_, h, _⟩ => (nomatch h)⟩
  | ok a => exact ⟨fun h => ⟨a, rfl, Except.ok.inj h⟩, fun ⟨_, h, h'⟩ => by cases h; rw [← h']; rfl⟩

/-- A check of every element that hands back a value for each. -/
theorem mapM_ok {p : α → Prop} [DecidablePred p] {f : α → β} {e : ε} :
    ∀ {l : List α} {bs : List β}, l.mapM (fun a => if p a then Except.ok (f a) else .error e) =
      .ok bs ↔ (∀ a ∈ l, p a) ∧ bs = l.map f
  | [], bs => by
      rw [List.mapM_nil]
      exact ⟨fun h => by cases h; exact ⟨fun _ h => (nomatch h), rfl⟩, fun ⟨_, h⟩ => by rw [h]; rfl⟩
  | a :: l, bs => by
      rw [List.mapM_cons, seq_ok]
      constructor
      · rintro ⟨b, hb, h⟩
        obtain ⟨bs', hbs', h⟩ := seq_ok.mp h
        cases h
        by_cases hp : p a
        · rw [if_pos hp] at hb
          cases hb
          obtain ⟨hall, rfl⟩ := mapM_ok.mp hbs'
          exact ⟨List.forall_mem_cons.mpr ⟨hp, hall⟩, rfl⟩
        · rw [if_neg hp] at hb
          cases hb
      · rintro ⟨hall, rfl⟩
        obtain ⟨hp, hall⟩ := List.forall_mem_cons.mp hall
        exact ⟨f a, if_pos hp, seq_ok.mpr ⟨l.map f, mapM_ok.mpr ⟨hall, rfl⟩, rfl⟩⟩

/-- A sum with a bound on every partial sum. -/
theorem sumM_ok {n : Nat} {e : ε} {g : α → Nat} : ∀ {l : List α} {start total : Nat},
    l.foldlM (fun sum a => if sum + g a < n then Except.ok (sum + g a) else .error e) start =
      .ok total ↔ total = start + (l.map g).sum ∧ (l = [] ∨ start + (l.map g).sum < n)
  | [], start, total => by
      rw [List.foldlM_nil]
      exact ⟨fun h => by cases h; exact ⟨rfl, .inl rfl⟩, fun ⟨h, _⟩ => by rw [h]; rfl⟩
  | a :: l, start, total => by
      rw [List.foldlM_cons, seq_ok, List.map_cons, List.sum_cons]
      constructor
      · rintro ⟨sum, hsum, h⟩
        obtain ⟨hlt, hsum⟩ : start + g a < n ∧ start + g a = sum := by
          by_cases hlt : start + g a < n
          · rw [if_pos hlt] at hsum
            exact ⟨hlt, Except.ok.inj hsum⟩
          · rw [if_neg hlt] at hsum
            cases hsum
        obtain ⟨htotal, hbound⟩ := sumM_ok.mp h
        refine ⟨by omega, Or.inr ?_⟩
        rcases hbound with rfl | hbound
        · simpa using hlt
        · omega
      · rintro ⟨htotal, h | hbound⟩
        · cases h
        · exact ⟨start + g a, if_pos (by omega), sumM_ok.mpr ⟨by omega, .inr (by omega)⟩⟩

/-- The values of a check of every element, in its order. -/
theorem forall₂_of_mapM {f : α → Option β} : ∀ {l : List α} {bs : List β},
    l.mapM f = some bs → List.Forall₂ (fun a b => f a = some b) l bs
  | [], bs, h => by
      rw [List.mapM_nil] at h
      cases h
      exact .nil
  | a :: l, bs, h => by
      rw [List.mapM_cons] at h
      obtain ⟨b, hb, hrest⟩ := Option.bind_eq_some_iff.mp h
      obtain ⟨bs', hbs', hcons⟩ := Option.bind_eq_some_iff.mp hrest
      cases hcons
      exact .cons hb (forall₂_of_mapM hbs')

/-- A loop that may break off keeps what each round keeps. -/
theorem foldlM_induction {P : β → Prop} {f : β → α → Option β}
    (hstep : ∀ b a b', P b → f b a = some b' → P b') :
    ∀ {l : List α} {b b' : β}, P b → l.foldlM f b = some b' → P b'
  | [], b, b', hb, h => by
      rw [List.foldlM_nil] at h
      exact Option.some.inj h ▸ hb
  | a :: l, b, b', hb, h => by
      rw [List.foldlM_cons] at h
      obtain ⟨next, hnext, hrest⟩ := Option.bind_eq_some_iff.mp h
      exact foldlM_induction hstep (hstep b a next hb hnext) hrest

end Guards
