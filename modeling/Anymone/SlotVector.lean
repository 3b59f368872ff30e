import Mathlib.Algebra.Group.Defs
import Mathlib.Data.List.Basic

/-! # Slots of a vector

Several writers copy their data into slots of one fixed-width vector, each in a
copy of its own, and the copies are added up position by position.  A slot that
lies inside the vector and apart from every other slot reads back what was written
to it, from one copy (`read_foldl_place`) and from the sum (`read_superpose_single`).
-/

namespace SlotVector
variable {α : Type}

/-- Two ranges, as an offset and a length, that share no position. -/
def Apart (s t : Nat × Nat) : Prop :=
  s.2 = 0 ∨ t.2 = 0 ∨ s.1 + s.2 ≤ t.1 ∨ t.1 + t.2 ≤ s.1

instance (s t : Nat × Nat) : Decidable (Apart s t) := by
  unfold Apart
  infer_instance

theorem Apart.symm {s t : Nat × Nat} (h : Apart s t) : Apart t s := by
  unfold Apart at h ⊢
  omega

/-- The `n` positions from `o` on. -/
def read (buf : List α) (o n : Nat) : List α := (buf.drop o).take n

/-- Copy the data to its offset; what would run past the end is cut off. -/
def place (buf : List α) (p : Nat × List α) : List α :=
  let start := min p.1 buf.length
  let stop := min (p.1 + p.2.length) buf.length
  buf.take start ++ p.2.take (stop - start) ++ buf.drop stop

/-- The range a piece of data takes up at its offset. -/
def slot (p : Nat × List α) : Nat × Nat := (p.1, p.2.length)

theorem read_ext {buf buf' : List α} {o n : Nat}
    (h : ∀ k, o ≤ k → k < o + n → buf[k]? = buf'[k]?) : read buf o n = read buf' o n := by
  apply List.ext_getElem?
  intro i
  unfold read
  by_cases hi : i < n
  · rw [List.getElem?_take_of_lt hi, List.getElem?_take_of_lt hi, List.getElem?_drop,
      List.getElem?_drop, h _ (by omega) (by omega)]
  · rw [List.getElem?_eq_none (by rw [List.length_take]; omega),
      List.getElem?_eq_none (by rw [List.length_take]; omega)]

@[simp] theorem length_place (buf : List α) (p : Nat × List α) :
    (place buf p).length = buf.length := by
  unfold place
  simp only [List.length_append, List.length_take, List.length_drop]
  omega

/-- Each position of the vector after one copy. -/
theorem getElem?_place (buf : List α) (p : Nat × List α) (k : Nat) :
    (place buf p)[k]? =
      if p.1 ≤ k ∧ k < p.1 + p.2.length ∧ k < buf.length then p.2[k - p.1]? else buf[k]? := by
  unfold place
  dsimp only
  by_cases hk : k < buf.length
  · by_cases hlo : k < p.1
    · rw [if_neg (by omega), List.append_assoc,
        List.getElem?_append_left (by rw [List.length_take]; omega),
        List.getElem?_take_of_lt (by omega)]
    · by_cases hhi : k < p.1 + p.2.length
      · rw [if_pos ⟨by omega, hhi, hk⟩,
          List.getElem?_append_left (by simp only [List.length_append, List.length_take]; omega),
          List.getElem?_append_right (by rw [List.length_take]; omega), List.length_take,
          List.getElem?_take_of_lt (by omega)]
        congr 1
        omega
      · rw [if_neg (by omega),
          List.getElem?_append_right (by simp only [List.length_append, List.length_take]; omega),
          List.getElem?_drop]
        congr 1
        simp only [List.length_append, List.length_take]
        omega
  · rw [if_neg (by omega), List.getElem?_eq_none, List.getElem?_eq_none (by omega)]
    simp only [List.length_append, List.length_take, List.length_drop]
    omega

/-- Data that fits is read back whole from where it was copied. -/
theorem read_place_self {buf : List α} {p : Nat × List α} (h : p.1 + p.2.length ≤ buf.length) :
    read (place buf p) p.1 p.2.length = p.2 := by
  apply List.ext_getElem?
  intro i
  unfold read
  by_cases hi : i < p.2.length
  · rw [List.getElem?_take_of_lt hi, List.getElem?_drop, getElem?_place,
      if_pos ⟨by omega, by omega, by omega⟩, Nat.add_sub_cancel_left]
  · rw [List.getElem?_eq_none (by rw [List.length_take]; omega), List.getElem?_eq_none (by omega)]

/-- Copying one piece of data leaves every range apart from it alone. -/
theorem read_place_apart {buf : List α} {p : Nat × List α} {o n : Nat}
    (h : Apart (o, n) (slot p)) : read (place buf p) o n = read buf o n := by
  refine read_ext (fun k hlo hhi => ?_)
  rw [getElem?_place, if_neg]
  unfold Apart slot at h
  dsimp only at h
  omega

/-- Copying several pieces of data one after another. -/
theorem length_foldl_place (l : List (Nat × List α)) (buf : List α) :
    (l.foldl place buf).length = buf.length := by
  induction l generalizing buf with
  | nil => rfl
  | cons p l ih => rw [List.foldl_cons, ih, length_place]

theorem read_foldl_place_apart {l : List (Nat × List α)} {buf : List α} {o n : Nat}
    (h : ∀ p ∈ l, Apart (o, n) (slot p)) : read (l.foldl place buf) o n = read buf o n := by
  induction l generalizing buf with
  | nil => rfl
  | cons p l ih =>
    rw [List.foldl_cons, ih (fun q hq => h q (List.mem_cons_of_mem _ hq)),
      read_place_apart (h p (List.mem_cons_self ..))]

/-- **Slots apart do not disturb each other**: each piece of data that fits is read
back whole after all of them were copied. -/
theorem read_foldl_place {l : List (Nat × List α)} {buf : List α} {p : Nat × List α}
    (hl : l.Pairwise (fun p q => Apart (slot p) (slot q))) (hp : p ∈ l)
    (hfit : p.1 + p.2.length ≤ buf.length) : read (l.foldl place buf) p.1 p.2.length = p.2 := by
  induction l generalizing buf with
  | nil => simp at hp
  | cons q l ih =>
    obtain ⟨hq, hl⟩ := List.pairwise_cons.mp hl
    rw [List.foldl_cons]
    rcases List.mem_cons.mp hp with rfl | hp
    · rw [read_foldl_place_apart (fun r hr => hq r hr), read_place_self hfit]
    · exact ih hl hp (by rw [length_place]; exact hfit)

/-- A position no copy reaches keeps its value. -/
theorem getElem?_foldl_place_of_not_covered {l : List (Nat × List α)} {buf : List α} {k : Nat}
    (h : ∀ p ∈ l, ¬ (p.1 ≤ k ∧ k < p.1 + p.2.length)) : (l.foldl place buf)[k]? = buf[k]? := by
  induction l generalizing buf with
  | nil => rfl
  | cons p l ih =>
    have hp := h p (List.mem_cons_self ..)
    rw [List.foldl_cons, ih (fun q hq => h q (List.mem_cons_of_mem _ hq)), getElem?_place,
      if_neg (fun hc => hp ⟨hc.1, hc.2.1⟩)]

/-! ## Sums -/

/-- The vectors added up position by position, over a vector of `w` zeros. -/
def superpose (add : α → α → α) (zero : α) (w : Nat) (bufs : List (List α)) : List α :=
  bufs.foldr (List.zipWith add) (List.replicate w zero)

/-- The first `n` positions, cut off or filled up with zeros: `Vec::resize`. -/
def resize (zero : α) (n : Nat) (buf : List α) : List α :=
  buf.take n ++ List.replicate (n - buf.length) zero

section Sum
variable {add : α → α → α} {zero : α} {w : Nat} {bufs : List (List α)}

@[simp] theorem length_resize (n : Nat) (buf : List α) : (resize zero n buf).length = n := by
  unfold resize
  rw [List.length_append, List.length_take, List.length_replicate]
  omega

/-- What stands behind the first part of a resized concatenation. -/
theorem drop_resize_append {a b : List α} {n : Nat} (h : a.length ≤ n) :
    (resize zero n (a ++ b)).drop a.length = resize zero (n - a.length) b := by
  unfold resize
  rw [List.take_append, List.take_of_length_le h, List.append_assoc, List.drop_left,
    List.length_append, Nat.sub_sub]

theorem length_superpose (h : ∀ b ∈ bufs, b.length = w) :
    (superpose add zero w bufs).length = w := by
  induction bufs with
  | nil => exact List.length_replicate ..
  | cons b bufs ih =>
    have hb := h b (List.mem_cons_self ..)
    have hr := ih (fun c hc => h c (List.mem_cons_of_mem _ hc))
    unfold superpose at hr ⊢
    rw [List.foldr_cons, List.length_zipWith, hb, hr, Nat.min_self]

/-- The end of the sum is the sum of the ends. -/
theorem drop_superpose (n : Nat) : (superpose add zero w bufs).drop n =
    superpose add zero (w - n) (bufs.map (fun b => b.drop n)) := by
  induction bufs with
  | nil => exact List.drop_replicate ..
  | cons b bufs ih =>
    unfold superpose at ih ⊢
    rw [List.map_cons, List.foldr_cons, List.foldr_cons, List.drop_zipWith, ih]

theorem getElem?_superpose_cons (b : List α) (k : Nat) :
    (superpose add zero w (b :: bufs))[k]? =
      (b[k]?).bind (fun x => ((superpose add zero w bufs)[k]?).map (add x)) := by
  unfold superpose
  rw [List.foldr_cons, List.getElem?_zipWith]
  cases b[k]? <;> cases (bufs.foldr (List.zipWith add) (List.replicate w zero))[k]? <;> rfl

/-- A position where every vector is zero. -/
theorem getElem?_superpose_zero (hz : add zero zero = zero) {k : Nat} (hk : k < w)
    (h : ∀ b ∈ bufs, b[k]? = some zero) : (superpose add zero w bufs)[k]? = some zero := by
  induction bufs with
  | nil =>
    unfold superpose
    rw [List.foldr_nil, List.getElem?_replicate, if_pos hk]
  | cons b bufs ih =>
    rw [getElem?_superpose_cons, h b (List.mem_cons_self ..),
      ih (fun c hc => h c (List.mem_cons_of_mem _ hc))]
    simp [hz]

/-- A position where every vector but one is zero. -/
theorem getElem?_superpose_single (hl : ∀ x, add zero x = x) (hr : ∀ x, add x zero = x) {k : Nat}
    (hk : k < w) {pre post : List (List α)} {b : List α} (hb : k < b.length)
    (h : ∀ b' ∈ pre ++ post, b'[k]? = some zero) :
    (superpose add zero w (pre ++ b :: post))[k]? = b[k]? := by
  induction pre with
  | nil =>
    rw [List.nil_append] at h
    rw [List.nil_append, getElem?_superpose_cons, getElem?_superpose_zero (hl zero) hk h,
      List.getElem?_eq_getElem hb]
    simp [hr]
  | cons c pre ih =>
    rw [List.cons_append, getElem?_superpose_cons,
      ih (fun d hd => h d (List.mem_cons_of_mem _ hd)), h c (List.mem_cons_self ..),
      List.getElem?_eq_getElem hb]
    simp [hl]

/-- **The sum reads back a slot only one vector wrote to.** -/
theorem read_superpose_single (hl : ∀ x, add zero x = x) (hr : ∀ x, add x zero = x)
    {o n : Nat} (hn : o + n ≤ w) {pre post : List (List α)} {b : List α} (hb : b.length = w)
    (h : ∀ b' ∈ pre ++ post, ∀ k, o ≤ k → k < o + n → b'[k]? = some zero) :
    read (superpose add zero w (pre ++ b :: post)) o n = read b o n := by
  refine read_ext (fun k hlo hhi => ?_)
  exact getElem?_superpose_single hl hr (by omega) (by omega) (fun c hc => h c hc k hlo hhi)

/-- A slot no vector wrote to reads zero. -/
theorem read_superpose_zero (hz : add zero zero = zero) {o n : Nat} (hn : o + n ≤ w)
    (h : ∀ b ∈ bufs, ∀ k, o ≤ k → k < o + n → b[k]? = some zero) :
    read (superpose add zero w bufs) o n = List.replicate n zero := by
  have hread : read (superpose add zero w bufs) o n = read (List.replicate w zero) o n := by
    refine read_ext (fun k hlo hhi => ?_)
    rw [getElem?_superpose_zero hz (by omega) (fun b hb => h b hb k hlo hhi),
      List.getElem?_replicate, if_pos (by omega)]
  rw [hread]
  unfold read
  rw [List.drop_replicate, List.take_replicate, Nat.min_eq_left (by omega)]

end Sum

/-! ## Reading the slots of a sum -/

section Reads
variable {add : α → α → α} {zero : α} {w : Nat}

/-- Whether the data says anything: it is not all zero. -/
def Speaks [DecidableEq α] (zero : α) (data : List α) : Bool := data.any (fun x => x ≠ zero)

theorem not_speaks_replicate [DecidableEq α] (zero : α) (n : Nat) :
    Speaks zero (List.replicate n zero) = false := by
  unfold Speaks
  simp

/-- One writer's vector. -/
def written (zero : α) (w : Nat) (due : List (Nat × List α)) : List α :=
  due.foldl place (List.replicate w zero)

theorem length_written (due : List (Nat × List α)) : (written zero w due).length = w := by
  unfold written
  rw [length_foldl_place, List.length_replicate]

/-- A writer's vector is zero outside its slots. -/
theorem getElem?_written_of_apart {due : List (Nat × List α)} {r : Nat × Nat} {k : Nat}
    (h : ∀ d ∈ due, Apart r (slot d)) (hr : r.1 + r.2 ≤ w) (hlo : r.1 ≤ k) (hhi : k < r.1 + r.2) :
    (written zero w due)[k]? = some zero := by
  unfold written
  rw [getElem?_foldl_place_of_not_covered, List.getElem?_replicate, if_pos (by omega)]
  intro d hd hk
  have := h d hd
  unfold Apart slot at this
  dsimp only at this
  omega

/-- Ranges of a list whose members are apart are the same or apart. -/
theorem eq_or_apart {ranges : List (Nat × Nat)} (h : ranges.Pairwise Apart) {r r' : Nat × Nat}
    (hr : r ∈ ranges) (hr' : r' ∈ ranges) : r = r' ∨ Apart r r' := by
  induction ranges with
  | nil => simp at hr
  | cons x xs ih =>
    obtain ⟨hx, hxs⟩ := List.pairwise_cons.mp h
    rcases List.mem_cons.mp hr with rfl | htail
    · rcases List.mem_cons.mp hr' with rfl | htail'
      · exact Or.inl rfl
      · exact Or.inr (hx r' htail')
    · rcases List.mem_cons.mp hr' with rfl | htail'
      · exact Or.inr (hx r htail).symm
      · exact ih hxs htail htail'

/-- Data of some length in slots apart has different slots. -/
theorem slots_nodup {l : List (Nat × List α)}
    (h : l.Pairwise (fun p q => Apart (slot p) (slot q))) (hne : ∀ p ∈ l, p.2 ≠ []) :
    (l.map slot).Nodup := by
  refine List.pairwise_map.mpr (h.imp_of_mem ?_)
  intro p q hp _ hpq he
  have := List.length_pos_iff.mpr (hne p hp)
  rw [← he] at hpq
  unfold Apart slot at hpq
  dsimp only at hpq
  omega

/-- **A sum of vectors reads back what its writers wrote.**  Every slot a writer used is
one of the ranges, the ranges are apart and inside the vector, and no two pieces of data
share a slot: then what the ranges read of the sum is what was written, as far as it is
not all zero. -/
theorem reads_perm [DecidableEq α] (hl : ∀ x, add zero x = x) (hr : ∀ x, add x zero = x)
    {ranges : List (Nat × Nat)} {dues : List (List (Nat × List α))}
    (hranges : ranges.Pairwise Apart) (hsize : ∀ r ∈ ranges, 0 < r.2 ∧ r.1 + r.2 ≤ w)
    (hself : ∀ due ∈ dues, due.Pairwise (fun p q => Apart (slot p) (slot q)))
    (hcross : dues.Pairwise (fun a b => ∀ p ∈ a, ∀ q ∈ b, Apart (slot p) (slot q)))
    (hin : ∀ due ∈ dues, ∀ d ∈ due, d.2 ≠ [] → slot d ∈ ranges) :
    ((ranges.map (fun r => read (superpose add zero w (dues.map (written zero w))) r.1 r.2)).filter
      (Speaks zero)).Perm ((dues.flatten.map Prod.snd).filter (Speaks zero)) := by
  have hother : ∀ r ∈ ranges, ∀ due ∈ dues, ∀ d ∈ due, slot d = r ∨ Apart r (slot d) := by
    intro r hmem due hdue d hd
    by_cases hempty : d.2 = []
    · refine Or.inr (Or.inr (Or.inl ?_))
      unfold slot
      rw [hempty]
      rfl
    · exact (eq_or_apart hranges hmem (hin due hdue d hd hempty)).imp_left Eq.symm
  -- The data of some length, wherever it was written.
  have hflat : dues.flatten.Pairwise (fun p q => Apart (slot p) (slot q)) :=
    List.pairwise_flatten.mpr ⟨hself, hcross⟩
  have hused : ((dues.flatten.filter (fun d => d.2 ≠ [])).map slot).Nodup :=
    slots_nodup (hflat.filter _) (fun p hp => of_decide_eq_true (List.mem_filter.mp hp).2)
  have hnodup : ranges.Nodup := by
    refine hranges.imp_of_mem ?_
    rintro r r' hmem _ hap rfl
    have := (hsize r hmem).1
    unfold Apart at hap
    omega
  have hperm : ranges.Perm ((dues.flatten.filter (fun d => d.2 ≠ [])).map slot ++
      ranges.filter (fun r => r ∉ (dues.flatten.filter (fun d => d.2 ≠ [])).map slot)) := by
    refine (List.perm_ext_iff_of_nodup hnodup (List.nodup_append.mpr
      ⟨hused, hnodup.filter _, ?_⟩)).mpr (fun r => ?_)
    · rintro a ha b hb rfl
      exact of_decide_eq_true (List.mem_filter.mp hb).2 ha
    · rw [List.mem_append, List.mem_filter]
      constructor
      · intro hmem
        by_cases hr : r ∈ (dues.flatten.filter (fun d => d.2 ≠ [])).map slot
        · exact Or.inl hr
        · exact Or.inr ⟨hmem, decide_eq_true hr⟩
      · rintro (hr | hr)
        · obtain ⟨d, hd, rfl⟩ := List.mem_map.mp hr
          obtain ⟨hd, hne⟩ := List.mem_filter.mp hd
          obtain ⟨due, hdue, hd⟩ := List.mem_flatten.mp hd
          exact hin due hdue d hd (of_decide_eq_true hne)
        · exact hr.1
  -- A used slot reads its own data.
  have hread : ∀ d ∈ dues.flatten.filter (fun d => d.2 ≠ []),
      read (superpose add zero w (dues.map (written zero w))) (slot d).1 (slot d).2 = d.2 := by
    intro d hd
    obtain ⟨hall, hne⟩ := List.mem_filter.mp hd
    obtain ⟨due, hdue, hmem⟩ := List.mem_flatten.mp hall
    have hfit := (hsize (slot d) (hin due hdue d hmem (of_decide_eq_true hne))).2
    obtain ⟨pre, post, rfl⟩ := List.append_of_mem hdue
    obtain ⟨-, hpost, hpre⟩ := List.pairwise_append.mp hcross
    rw [List.map_append, List.map_cons, read_superpose_single hl hr hfit (length_written due)]
    · exact read_foldl_place (hself due hdue) hmem (by rw [List.length_replicate]; exact hfit)
    · intro c hc k hlo hhi
      rw [← List.map_append] at hc
      obtain ⟨due', hdue', rfl⟩ := List.mem_map.mp hc
      refine getElem?_written_of_apart (r := slot d) ?_ hfit hlo hhi
      intro d' hd'
      rcases List.mem_append.mp hdue' with h | h
      · exact (hpre due' h due (List.mem_cons_self ..) d' hd' d hmem).symm
      · exact (List.pairwise_cons.mp hpost).1 due' h d hmem d' hd'
  -- Any other range reads zero.
  have hzero : ∀ r ∈ ranges.filter
      (fun r => r ∉ (dues.flatten.filter (fun d => d.2 ≠ [])).map slot),
      read (superpose add zero w (dues.map (written zero w))) r.1 r.2 =
        List.replicate r.2 zero := by
    intro r hmem
    obtain ⟨hmem, hnot⟩ := List.mem_filter.mp hmem
    refine read_superpose_zero (hl zero) (hsize r hmem).2 ?_
    intro b hb k hlo hhi
    obtain ⟨due, hdue, rfl⟩ := List.mem_map.mp hb
    refine getElem?_written_of_apart (r := r) ?_ (hsize r hmem).2 hlo hhi
    intro d hd
    rcases hother r hmem due hdue d hd with rfl | hap
    · exfalso
      refine of_decide_eq_true hnot (List.mem_map.mpr ⟨d, List.mem_filter.mpr
        ⟨List.mem_flatten.mpr ⟨due, hdue, hd⟩, decide_eq_true ?_⟩, rfl⟩)
      exact List.length_pos_iff.mp (hsize (slot d) hmem).1
    · exact hap
  refine ((hperm.map _).filter _).trans ?_
  rw [List.map_append, List.filter_append, List.map_map]
  have hdata : (dues.flatten.filter (fun d => d.2 ≠ [])).map
      ((fun r => read (superpose add zero w (dues.map (written zero w))) r.1 r.2) ∘ slot) =
      (dues.flatten.filter (fun d => d.2 ≠ [])).map Prod.snd :=
    List.map_congr_left hread
  have hsilent : ((ranges.filter
      (fun r => r ∉ (dues.flatten.filter (fun d => d.2 ≠ [])).map slot)).map
      (fun r => read (superpose add zero w (dues.map (written zero w))) r.1 r.2)).filter
      (Speaks zero) = [] := by
    refine List.filter_eq_nil_iff.mpr (fun b hb => ?_)
    obtain ⟨r, hr, rfl⟩ := List.mem_map.mp hb
    rw [hzero r hr, not_speaks_replicate]
    exact Bool.false_ne_true
  rw [hdata, hsilent, List.append_nil, List.filter_map, List.filter_map, List.filter_filter]
  refine List.Perm.of_eq (congrArg (List.map Prod.snd) (List.filter_congr (fun d _ => ?_)))
  by_cases hempty : d.2 = []
  · simp [hempty, Speaks]
  · simp [hempty]

end Reads
end SlotVector
