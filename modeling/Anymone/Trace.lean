import Mathlib.Data.List.Infix

/-! # Traces

A trace is the list of events of a run, oldest first.  `steps` pairs each event
with the events before it, so that a condition on a run is a statement about the
members of a list and can be evaluated, and `prefix_induction` is the rule by
which what one step preserves holds at every moment of the run.

A trace whose events name the party they happen at gives every party a local
state, the fold of its own events (`localState`).
-/

namespace Trace
variable {E : Type}

/-- Each event with the events before it. -/
def steps : List E → List (List E × E)
  | [] => []
  | e :: l => ([], e) :: (steps l).map (fun σ => (e :: σ.1, σ.2))

theorem mem_steps {pre : List E} {e : E} : ∀ {evs : List E},
    (pre, e) ∈ steps evs ↔ ∃ post, evs = pre ++ e :: post
  | [] => by simp [steps]
  | d :: evs => by
      rw [steps, List.mem_cons, List.mem_map]
      constructor
      · rintro (h | ⟨⟨pre', e'⟩, hσ, h⟩)
        · cases h
          exact ⟨evs, rfl⟩
        · cases h
          obtain ⟨post, hpost⟩ := mem_steps.mp hσ
          exact ⟨post, by rw [hpost]; rfl⟩
      · rintro ⟨post, h⟩
        cases pre with
        | nil =>
          cases h
          exact Or.inl rfl
        | cons d' pre =>
          cases h
          exact Or.inr ⟨(pre, e), mem_steps.mpr ⟨post, rfl⟩, rfl⟩

theorem mem_steps_mono {evs l : List E} {σ : List E × E} (hl : l <+: evs)
    (h : σ ∈ steps l) : σ ∈ steps evs := by
  obtain ⟨pre, e⟩ := σ
  obtain ⟨post, rfl⟩ := mem_steps.mp h
  obtain ⟨rest, rfl⟩ := hl
  exact mem_steps.mpr ⟨post ++ rest, by simp⟩

theorem prefix_of_mem_steps {evs : List E} {σ : List E × E} (h : σ ∈ steps evs) :
    σ.1 ++ [σ.2] <+: evs := by
  obtain ⟨pre, e⟩ := σ
  obtain ⟨post, rfl⟩ := mem_steps.mp h
  exact ⟨post, by simp⟩

theorem mem_of_mem_steps {evs : List E} {σ : List E × E} (h : σ ∈ steps evs) : σ.2 ∈ evs :=
  (prefix_of_mem_steps h).subset (by simp)

theorem exists_step_of_mem {evs : List E} {e : E} (h : e ∈ evs) : ∃ pre, (pre, e) ∈ steps evs := by
  obtain ⟨pre, post, rfl⟩ := List.append_of_mem h
  exact ⟨pre, mem_steps.mpr ⟨post, rfl⟩⟩

theorem steps_concat (l : List E) (e : E) : steps (l ++ [e]) = steps l ++ [(l, e)] := by
  induction l with
  | nil => rfl
  | cons d l ih =>
    rw [List.cons_append, steps, ih, steps]
    simp

theorem steps_append (l l' : List E) :
    steps (l ++ l') = steps l ++ (steps l').map (fun σ => (l ++ σ.1, σ.2)) := by
  induction l with
  | nil => simp [steps]
  | cons d l ih =>
    rw [List.cons_append, steps, ih, steps]
    simp

/-- **What holds at the start and survives every step holds at every moment.** -/
theorem prefix_induction {P : List E → Prop} {evs : List E} (h0 : P [])
    (hstep : ∀ σ ∈ steps evs, P σ.1 → P (σ.1 ++ [σ.2])) : ∀ l, l <+: evs → P l := by
  intro l
  induction l using List.reverseRecOn with
  | nil => exact fun _ => h0
  | append_singleton l e ih =>
    intro hl
    have hpre : l <+: evs := (List.prefix_append l [e]).trans hl
    refine hstep (l, e) ?_ (ih hpre)
    obtain ⟨post, rfl⟩ := hl
    exact mem_steps.mpr ⟨post, by simp⟩

/-- What does not hold at the start and holds at the end begins to hold in some step. -/
theorem exists_step_of_begins {P : List E → Prop} {evs : List E} (h0 : ¬ P []) (h : P evs) :
    ∃ σ ∈ steps evs, ¬ P σ.1 ∧ P (σ.1 ++ [σ.2]) := by
  by_contra hnone
  refine prefix_induction (P := fun l => ¬ P l) h0 ?_ evs (List.prefix_refl evs) h
  intro σ hσ hnot hP
  exact hnone ⟨σ, hσ, hnot, hP⟩

/-! ## Evaluation

A condition on the moments of a run reads the state at each of them.  Computed from the
events before it, every state is computed anew; along the run each comes from the last. -/

section Moments
variable {S : Type} (next : S → E → S)

/-- Each event with the state before it. -/
def moments : S → List E → List (S × E)
  | _, [] => []
  | s, e :: l => (s, e) :: moments (next s e) l

variable {next} {state : List E → S}

theorem map_steps_append (hnext : ∀ l e, state (l ++ [e]) = next (state l) e) :
    ∀ pre evs : List E, (steps evs).map (fun σ => (state (pre ++ σ.1), σ.2)) =
      moments next (state pre) evs
  | pre, [] => rfl
  | pre, e :: evs => by
      have hrest := map_steps_append hnext (pre ++ [e]) evs
      rw [hnext] at hrest
      rw [moments, ← hrest, steps, List.map_cons, List.map_map, List.append_nil]
      simp

/-- The states along a run are the states after what came before. -/
theorem map_steps (hnext : ∀ l e, state (l ++ [e]) = next (state l) e) (evs : List E) :
    (steps evs).map (fun σ => (state σ.1, σ.2)) = moments next (state []) evs :=
  map_steps_append hnext [] evs

theorem forall_moments (hnext : ∀ l e, state (l ++ [e]) = next (state l) e) {P : S → E → Prop}
    {evs : List E} : (∀ σ ∈ moments next (state []) evs, P σ.1 σ.2) ↔
      ∀ σ ∈ steps evs, P (state σ.1) σ.2 := by
  rw [← map_steps hnext, List.forall_mem_map]

theorem flatMap_moments {O : Type} (hnext : ∀ l e, state (l ++ [e]) = next (state l) e)
    (out : S → E → List O) (evs : List E) :
    (moments next (state []) evs).flatMap (fun σ => out σ.1 σ.2) =
      (steps evs).flatMap (fun σ => out (state σ.1) σ.2) := by
  rw [← map_steps hnext, List.flatMap_map]

end Moments

/-! ## Local states -/

section Local
variable {I Op S : Type} [DecidableEq I] (init : I → S) (next : S → Op → S)

/-- The state of `i` after the trace: its own events, one after another. -/
def localState (evs : List (I × Op)) (i : I) : S :=
  evs.foldl (fun s e => if e.1 = i then next s e.2 else s) (init i)

@[simp] theorem localState_nil (i : I) : localState init next [] i = init i := rfl

@[simp] theorem localState_concat (l : List (I × Op)) (e : I × Op) (i : I) :
    localState init next (l ++ [e]) i =
      if e.1 = i then next (localState init next l i) e.2 else localState init next l i := by
  unfold localState
  rw [List.foldl_append]
  rfl

/-- What a party's own calls preserve holds of it at every moment. -/
theorem localState_invariant {P : S → Prop} {i : I} (h0 : P (init i))
    (hnext : ∀ s op, P s → P (next s op)) (evs : List (I × Op)) :
    P (localState init next evs i) := by
  induction evs using List.reverseRecOn with
  | nil => exact h0
  | append_singleton l e ih =>
    rw [localState_concat]
    split_ifs
    · exact hnext _ _ ih
    · exact ih

/-- A relation that a party's own calls only extend relates its earlier states to
its later ones. -/
theorem localState_mono {R : S → S → Prop} (hrefl : ∀ s, R s s)
    (htrans : ∀ {a b c}, R a b → R b c → R a c) (hnext : ∀ s op, R s (next s op))
    {l evs : List (I × Op)} (h : l <+: evs) (i : I) :
    R (localState init next l i) (localState init next evs i) := by
  obtain ⟨post, rfl⟩ := h
  induction post using List.reverseRecOn with
  | nil =>
    rw [List.append_nil]
    exact hrefl _
  | append_singleton post e ih =>
    rw [← List.append_assoc, localState_concat]
    split_ifs
    · exact htrans ih (hnext _ _)
    · exact ih

end Local

/-! ## The events of one party -/

section Party
variable {I Op : Type} [DecidableEq I]

/-- The events of `i`, in order. -/
def eventsAt (evs : List (I × Op)) (i : I) : List Op :=
  evs.filterMap (fun e => if e.1 = i then some e.2 else none)

@[simp] theorem eventsAt_concat (l : List (I × Op)) (e : I × Op) (i : I) :
    eventsAt (l ++ [e]) i = if e.1 = i then eventsAt l i ++ [e.2] else eventsAt l i := by
  unfold eventsAt
  rw [List.filterMap_append]
  by_cases h : e.1 = i <;> simp [h]

/-- A step of a party is a step of the trace, at a moment when the party's events are
the ones before it. -/
theorem mem_steps_eventsAt {i : I} {l : List Op} {op : Op} {evs : List (I × Op)}
    (h : (l, op) ∈ steps (eventsAt evs i)) :
    ∃ pre, (pre, (i, op)) ∈ steps evs ∧ eventsAt pre i = l := by
  induction evs using List.reverseRecOn with
  | nil => cases h
  | append_singleton evs e ih =>
    rw [steps_concat]
    rw [eventsAt_concat] at h
    have earlier : (l, op) ∈ steps (eventsAt evs i) →
        ∃ pre, (pre, (i, op)) ∈ steps evs ++ [(evs, e)] ∧ eventsAt pre i = l := by
      intro h
      obtain ⟨pre, hpre, hl⟩ := ih h
      exact ⟨pre, List.mem_append_left _ hpre, hl⟩
    by_cases he : e.1 = i
    · rw [if_pos he, steps_concat] at h
      rcases List.mem_append.mp h with h | h
      · exact earlier h
      · cases List.mem_singleton.mp h
        refine ⟨evs, List.mem_append_right _ (List.mem_singleton.mpr ?_), rfl⟩
        rw [← he]
    · rw [if_neg he] at h
      exact earlier h

end Party

/-! ## A part of the events -/

/-- A step of the events a function picks out of the trace is a step of the trace, at a
moment when the events picked out are the ones before it. -/
theorem mem_steps_filterMap {D : Type} {f : E → Option D} {l : List D} {d : D} {evs : List E}
    (h : (l, d) ∈ steps (evs.filterMap f)) :
    ∃ pre e, (pre, e) ∈ steps evs ∧ f e = some d ∧ pre.filterMap f = l := by
  induction evs using List.reverseRecOn with
  | nil => cases h
  | append_singleton evs e ih =>
    rw [List.filterMap_append] at h
    rw [steps_concat]
    have earlier : (l, d) ∈ steps (evs.filterMap f) →
        ∃ pre e', (pre, e') ∈ steps evs ++ [(evs, e)] ∧ f e' = some d ∧ pre.filterMap f = l := by
      intro h
      obtain ⟨pre, e', hpre, he, hl⟩ := ih h
      exact ⟨pre, e', List.mem_append_left _ hpre, he, hl⟩
    cases he : f e with
    | none =>
      rw [List.filterMap_cons_none he, List.filterMap_nil, List.append_nil] at h
      exact earlier h
    | some d' =>
      rw [List.filterMap_cons_some he, List.filterMap_nil, steps_concat] at h
      rcases List.mem_append.mp h with h | h
      · exact earlier h
      · cases List.mem_singleton.mp h
        exact ⟨evs, e, List.mem_append_right _ (List.mem_singleton.mpr rfl), he, rfl⟩

/-- A step of what the steps of a trace put out is put out in a step of the trace, after
what the events before it put out. -/
theorem mem_steps_flatMap {O : Type} {out : List E → E → List O} {l : List O} {d : O}
    {evs : List E} : (l, d) ∈ steps ((steps evs).flatMap (fun σ => out σ.1 σ.2)) ↔
      ∃ σ ∈ steps evs, ∃ l', (l', d) ∈ steps (out σ.1 σ.2) ∧
        (steps σ.1).flatMap (fun σ => out σ.1 σ.2) ++ l' = l := by
  induction evs using List.reverseRecOn with
  | nil => simp [steps]
  | append_singleton evs e ih =>
    rw [steps_concat, List.flatMap_append, steps_append, List.mem_append, ih]
    simp only [List.flatMap_cons, List.flatMap_nil, List.append_nil, List.mem_map, Prod.mk.injEq,
      Prod.exists, List.mem_append, List.mem_singleton]
    constructor
    · rintro (⟨pre, e', hσ, hout⟩ | ⟨l', d', hl', rfl, rfl⟩)
      · exact ⟨pre, e', Or.inl hσ, hout⟩
      · exact ⟨evs, e, Or.inr ⟨rfl, rfl⟩, l', hl', rfl⟩
    · rintro ⟨pre, e', hσ | ⟨rfl, rfl⟩, l', hl', rfl⟩
      · exact Or.inl ⟨pre, e', hσ, l', hl', rfl⟩
      · exact Or.inr ⟨l', d, hl', rfl, rfl⟩

/-! ## One machine -/

section Machine
variable {S Op O : Type} (init : S) (next : S → Op → S) (obs : S → Op → List O)

/-- The state after a list of calls. -/
def run (ops : List Op) : S := ops.foldl next init

/-- Everything the calls put out, in order. -/
def observed (ops : List Op) : List O :=
  (steps ops).flatMap (fun σ => obs (run init next σ.1) σ.2)

@[simp] theorem run_concat (ops : List Op) (op : Op) :
    run init next (ops ++ [op]) = next (run init next ops) op := by
  unfold run
  rw [List.foldl_append]
  rfl

@[simp] theorem observed_nil : observed init next obs [] = [] := rfl

@[simp] theorem observed_concat (ops : List Op) (op : Op) :
    observed init next obs (ops ++ [op]) =
      observed init next obs ops ++ obs (run init next ops) op := by
  unfold observed
  rw [steps_concat, List.flatMap_append]
  simp

variable {init next obs}

/-- **At most once.**  A call puts out at most one such value, and none in a marked
state; whoever puts one out leaves a marked state, and a marked state stays marked.
Then a whole run puts out at most one.  The last call of the run need not leave
anything behind. -/
theorem countP_observed_le_one {p : O → Bool} {M : S → Prop} {ops : List Op}
    (hone : ∀ σ ∈ steps ops, (obs (run init next σ.1) σ.2).countP p ≤ 1)
    (hfresh : ∀ σ ∈ steps ops, M (run init next σ.1) →
      (obs (run init next σ.1) σ.2).countP p = 0)
    (hmark : ∀ σ ∈ steps ops, σ.1 ++ [σ.2] ≠ ops →
      0 < (obs (run init next σ.1) σ.2).countP p ∨ M (run init next σ.1) →
      M (next (run init next σ.1) σ.2)) :
    (observed init next obs ops).countP p ≤ 1 := by
  suffices h : ∀ l, l <+: ops → (observed init next obs l).countP p ≤ 1 ∧
      (l ≠ ops → 0 < (observed init next obs l).countP p → M (run init next l)) from
    (h ops (List.prefix_refl ops)).1
  refine prefix_induction ⟨by simp, fun _ h => by simp at h⟩ ?_
  intro σ hσ ⟨hle, hm⟩
  have hne : σ.1 ≠ ops := by
    intro he
    have := (prefix_of_mem_steps hσ).length_le
    rw [he, List.length_append, List.length_singleton] at this
    omega
  have h1 := hone σ hσ
  rw [observed_concat, List.countP_append, run_concat]
  by_cases hold : 0 < (observed init next obs σ.1).countP p
  · have hz := hfresh σ hσ (hm hne hold)
    exact ⟨by omega, fun hlast _ => hmark σ hσ hlast (Or.inr (hm hne hold))⟩
  · exact ⟨by omega, fun hlast hpos => hmark σ hσ hlast (Or.inl (by omega))⟩

end Machine

end Trace
