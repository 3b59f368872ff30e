import Anymone.Trace
import Mathlib.Data.Finset.Card
import Mathlib.Data.Set.Insert

/-! # Tallies

A tally counts distinct voters by subject and decides a subject once, when its voters reach
the quorum, unless it was settled before.  `voters` reads the same off the events alone:
the run lemmas say that the tally holds exactly these (`voters_tally`, `settled_tally`), so
that it decides a subject in the event that brings its voters to the quorum and in no other
(`decides_iff`).
-/

namespace Quorum
variable {K V : Type} [DecidableEq K] [DecidableEq V] {n : Nat}

/-- One voter for a subject, or the news that a subject is settled. -/
inductive Event (K V : Type) where
  | vote (k : K) (v : V)
  | settle (k : K)

/-- The voters counted and the subjects settled or decided. -/
structure Tally (K V : Type) where
  voters : K → Finset V
  settled : Set K

namespace Tally

/-- Nothing counted. -/
def empty : Tally K V := ⟨fun _ => ∅, ∅⟩

/-- The event brings a subject to the quorum that was not settled. -/
def Decides (n : Nat) (t : Tally K V) (e : Event K V) (k : K) : Prop :=
  ∃ v, e = .vote k v ∧ k ∉ t.settled ∧ n ≤ (insert v (t.voters k)).card

/-- One more voter for a subject. -/
def count (t : Tally K V) (k : K) (v : V) : Tally K V :=
  { t with voters := Function.update t.voters k (insert v (t.voters k)) }

/-- A subject is settled. -/
def settle (t : Tally K V) (k : K) : Tally K V := { t with settled := insert k t.settled }

/-- One event. -/
def step (n : Nat) (t : Tally K V) : Event K V → Tally K V
  | .vote k v =>
      { t.count k v with settled := {k' | k' ∈ t.settled ∨ t.Decides n (.vote k v) k'} }
  | .settle k => t.settle k

theorem step_of_decides {t : Tally K V} {k : K} {v : V} (h : t.Decides n (.vote k v) k) :
    t.step n (.vote k v) = (t.count k v).settle k := by
  have hset : {k' | k' ∈ t.settled ∨ t.Decides n (.vote k v) k'} = insert k t.settled := by
    ext k'
    simp only [Set.mem_ofPred_eq, Set.mem_insert_iff]
    constructor
    · rintro (hs | ⟨_, he, -⟩)
      · exact Or.inr hs
      · cases he
        exact Or.inl rfl
    · rintro (rfl | hs)
      · exact Or.inr h
      · exact Or.inl hs
  simp only [step, hset, count, settle]

theorem step_of_not_decides {t : Tally K V} {k : K} {v : V} (h : ¬ t.Decides n (.vote k v) k) :
    t.step n (.vote k v) = t.count k v := by
  have hset : {k' | k' ∈ t.settled ∨ t.Decides n (.vote k v) k'} = t.settled := by
    ext k'
    simp only [Set.mem_ofPred_eq, or_iff_left_iff_imp]
    intro hd
    have hk : k' = k := by
      obtain ⟨_, he, -⟩ := hd
      cases he
      rfl
    exact absurd (hk ▸ hd) h
  simp only [step, hset, count]

/-- The tally of a list of events. -/
def run (n : Nat) (evs : List (Event K V)) : Tally K V := Trace.run empty (step n) evs

@[simp] theorem run_concat (evs : List (Event K V)) (e : Event K V) :
    run n (evs ++ [e]) = (run n evs).step n e :=
  Trace.run_concat ..

end Tally

/-- The voter for `k` that an event brings. -/
def Event.voter (k : K) : Event K V → Option V
  | .vote k' v => if k' = k then some v else none
  | .settle _ => none

/-- The voters for `k` among the events. -/
def voters (evs : List (Event K V)) (k : K) : Finset V :=
  (evs.filterMap (Event.voter k)).toFinset

theorem mem_voters {evs : List (Event K V)} {k : K} {v : V} :
    v ∈ voters evs k ↔ .vote k v ∈ evs := by
  unfold voters
  rw [List.mem_toFinset, List.mem_filterMap]
  constructor
  · rintro ⟨e, he, hv⟩
    cases e with
    | settle => cases hv
    | vote k' v' =>
      simp only [Event.voter, Option.ite_none_right_eq_some, Option.some.injEq] at hv
      rwa [← hv.1, ← hv.2]
  · intro h
    exact ⟨_, h, by simp [Event.voter]⟩

theorem voters_append_subset (evs evs' : List (Event K V)) (k : K) :
    voters evs k ⊆ voters (evs ++ evs') k :=
  fun _ h => mem_voters.mpr (List.mem_append_left _ (mem_voters.mp h))

theorem voters_concat_vote (evs : List (Event K V)) (k k' : K) (v : V) :
    voters (evs ++ [.vote k v]) k' = if k = k' then insert v (voters evs k') else voters evs k' := by
  ext w
  split_ifs with h
  · simp [mem_voters, h, or_comm]
  · simp [mem_voters, Ne.symm h]

theorem voters_concat_settle (evs : List (Event K V)) (k k' : K) :
    voters (evs ++ [.settle k]) k' = voters evs k' := by
  ext w
  simp [mem_voters]

/-- **The tally counts the voters of its events.** -/
theorem voters_tally (evs : List (Event K V)) : (Tally.run n evs).voters = voters evs := by
  induction evs using List.reverseRecOn with
  | nil => rfl
  | append_singleton evs e ih =>
    rw [Tally.run_concat]
    funext k'
    cases e with
    | vote k v =>
      rw [voters_concat_vote]
      by_cases h : k = k'
      · subst h
        simp [Tally.step, Tally.count, ih]
      · simp [Tally.step, Tally.count, ih, h, Function.update_of_ne (Ne.symm h)]
    | settle k =>
      rw [voters_concat_settle]
      exact congrFun ih k'

/-- **A subject is settled by the news, or by a quorum.** -/
theorem settled_tally (hn : 0 < n) (evs : List (Event K V)) (k : K) :
    k ∈ (Tally.run n evs).settled ↔ .settle k ∈ evs ∨ n ≤ (voters evs k).card := by
  induction evs using List.reverseRecOn with
  | nil => simp [Tally.run, Trace.run, Tally.empty, voters, Nat.pos_iff_ne_zero.mp hn]
  | append_singleton evs e ih =>
    rw [Tally.run_concat]
    cases e with
    | settle k' =>
      rw [voters_concat_settle]
      simp only [Tally.step, Tally.settle, Set.mem_insert_iff, ih, List.mem_append, List.mem_singleton,
        Event.settle.injEq]
      tauto
    | vote k' v =>
      rw [voters_concat_vote]
      simp only [Tally.step, Tally.Decides, Set.mem_ofPred_eq, ih, voters_tally, List.mem_append,
        List.mem_singleton, Event.vote.injEq, reduceCtorEq, or_false]
      split_ifs with h
      · subst h
        have hle := Finset.card_le_card (Finset.subset_insert v (voters evs k'))
        constructor
        · rintro ((hs | hq) | ⟨_, ⟨-, rfl⟩, -, hq⟩)
          · exact Or.inl hs
          · exact Or.inr (hq.trans hle)
          · exact Or.inr hq
        · rintro (hs | hq)
          · exact Or.inl (Or.inl hs)
          · by_cases hs : .settle k' ∈ evs ∨ n ≤ (voters evs k').card
            · exact Or.inl hs
            · exact Or.inr ⟨v, ⟨rfl, rfl⟩, hs, hq⟩
      · constructor
        · rintro (hs | ⟨_, ⟨rfl, -⟩, -⟩)
          · exact hs
          · exact absurd rfl h
        · exact Or.inl

/-- **A subject is decided in the event that brings its voters to the quorum.** -/
theorem decides_iff (hn : 0 < n) (evs : List (Event K V)) (e : Event K V) (k : K) :
    (Tally.run n evs).Decides n e k ↔
      (voters evs k).card < n ∧ n ≤ (voters (evs ++ [e]) k).card ∧ .settle k ∉ evs := by
  unfold Tally.Decides
  rw [settled_tally hn, voters_tally, not_or, Nat.not_le]
  constructor
  · rintro ⟨v, rfl, ⟨hs, hlt⟩, hq⟩
    rw [voters_concat_vote, if_pos rfl]
    exact ⟨hlt, hq, hs⟩
  · rintro ⟨hlt, hq, hs⟩
    cases e with
    | settle k' =>
      rw [voters_concat_settle] at hq
      omega
    | vote k' v =>
      rw [voters_concat_vote] at hq
      split_ifs at hq with h
      · subst h
        exact ⟨v, rfl, ⟨hs, hlt⟩, hq⟩
      · omega

end Quorum
