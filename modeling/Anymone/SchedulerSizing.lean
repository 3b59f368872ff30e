import Anymone.SchedulerOwn
import Anymone.SchedulerToy
import Anymone.Settling

/-! # The sizing controller under a constant load

A tick sizes the subnets to what the observers report.  `countNext` and `capacityNext` are what
one tick makes of the subnet count and of the capacity; under a constant observation the count
jumps to the one that absorbs the load, or walks down to it, and stays there unless the margin of
the shrink rounds to zero and one subnet fewer would carry exactly `grow_at` (`Flaps`).
-/

namespace Anymone
namespace SchedulerCore

/-! ## The subnet count -/

/-- The subnet count and its streak after one tick. -/
def countNext (growAt load : Nat) (n : Nat × Nat) : Nat × Nat :=
  if growAt ≤ load / max n.1 1 ∧ n.1 < maxSubnets then
    (min (max (load / max growAt 1 + 1) n.1) maxSubnets, 0)
  else if 1 < n.1 ∧ load / (max n.1 2 - 1) ≤ growAt - growAt / 10 then
    if subnetShrinkGrace ≤ n.2 + 1 then (n.1 - 1, 0) else (n.1, n.2 + 1)
  else (n.1, 0)

/-- The count that absorbs the load. -/
def absorbing (growAt load : Nat) : Nat := min (load / growAt + 1) maxSubnets

/-- One subnet fewer would carry exactly the bar of growth, and the margin below the bar rounds to
zero. -/
def Flaps (growAt load : Nat) : Prop :=
  growAt < 10 ∧ 1 < absorbing growAt load ∧ load / (absorbing growAt load - 1) = growAt

instance (growAt load : Nat) : Decidable (Flaps growAt load) := inferInstanceAs (Decidable (_ ∧ _))

section Count
variable {g load : Nat} {n : Nat × Nat}

/-- The count is a positive one within the cap. -/
def Counts (n : Nat × Nat) : Prop := 1 ≤ n.1 ∧ n.1 ≤ maxSubnets

theorem one_le_absorbing (g load : Nat) : 1 ≤ absorbing g load :=
  le_min (Nat.le_add_left 1 _) (by decide)

theorem absorbing_le (g load : Nat) : absorbing g load ≤ maxSubnets := min_le_right _ _

/-- The count grows exactly below the absorbing one. -/
theorem grows_iff (hg : 1 ≤ g) (hn : 1 ≤ n.1) :
    (g ≤ load / max n.1 1 ∧ n.1 < maxSubnets) ↔ n.1 < absorbing g load := by
  rw [max_eq_left hn, Nat.le_div_iff_mul_le (by omega)]
  unfold absorbing
  rw [lt_min_iff, Nat.lt_succ_iff, Nat.le_div_iff_mul_le (by omega), Nat.mul_comm]

/-- Above the absorbing count, one subnet fewer would carry less than the bar. -/
theorem merged_lt (hg : 1 ≤ g) (hn : absorbing g load < n.1) (hcap : n.1 ≤ maxSubnets) :
    load / (n.1 - 1) < g := by
  have hlt : load / g < n.1 - 1 := by
    unfold absorbing at hn
    generalize load / g = q at hn ⊢
    omega
  have hpos : 0 < n.1 - 1 := Nat.zero_lt_of_lt hlt
  rw [Nat.div_lt_iff_lt_mul hpos]
  rwa [Nat.div_lt_iff_lt_mul (by omega), Nat.mul_comm] at hlt

/-- At the absorbing count, one subnet fewer would carry the bar at least. -/
theorem le_merged (hg : 1 ≤ g) (ha : 1 < absorbing g load) :
    g ≤ load / (absorbing g load - 1) := by
  rw [Nat.le_div_iff_mul_le (by omega), Nat.mul_comm, ← Nat.le_div_iff_mul_le (by omega)]
  unfold absorbing
  generalize load / g = q
  omega

/-- What a tick does to the count. -/
theorem countNext_cases (load : Nat) (hg : 1 ≤ g) (hn : Counts n) :
    (n.1 < absorbing g load ∧ countNext g load n = (absorbing g load, 0)) ∨
      (absorbing g load ≤ n.1 ∧ 1 < n.1 ∧ load / (n.1 - 1) ≤ g - g / 10 ∧
        (subnetShrinkGrace ≤ n.2 + 1 ∧ countNext g load n = (n.1 - 1, 0) ∨
          n.2 + 1 < subnetShrinkGrace ∧ countNext g load n = (n.1, n.2 + 1))) ∨
      (absorbing g load ≤ n.1 ∧ ¬ (1 < n.1 ∧ load / (n.1 - 1) ≤ g - g / 10) ∧
        countNext g load n = (n.1, 0)) := by
  unfold countNext
  by_cases hgrow : n.1 < absorbing g load
  · refine Or.inl ⟨hgrow, ?_⟩
    rw [if_pos ((grows_iff hg hn.1).mpr hgrow), max_eq_left hg]
    unfold absorbing at hgrow ⊢
    rw [max_eq_left (by omega)]
  · right
    rw [if_neg (fun h => hgrow ((grows_iff hg hn.1).mp h))]
    have hle : absorbing g load ≤ n.1 := by omega
    by_cases hone : 1 < n.1
    · rw [max_eq_left (show 2 ≤ n.1 by omega)]
      by_cases hshrink : load / (n.1 - 1) ≤ g - g / 10
      · rw [if_pos ⟨hone, hshrink⟩]
        by_cases hgrace : subnetShrinkGrace ≤ n.2 + 1
        · exact Or.inl ⟨hle, hone, hshrink, Or.inl ⟨hgrace, by rw [if_pos hgrace]⟩⟩
        · exact Or.inl ⟨hle, hone, hshrink, Or.inr ⟨by omega, by rw [if_neg hgrace]⟩⟩
      · rw [if_neg (fun h => hshrink h.2)]
        exact Or.inr ⟨hle, fun h => hshrink h.2, rfl⟩
    · rw [if_neg (fun h => hone h.1)]
      exact Or.inr ⟨hle, fun h => hone h.1, rfl⟩

theorem counts_countNext (hg : 1 ≤ g) (hn : Counts n) : Counts (countNext g load n) := by
  have hone := one_le_absorbing g load
  have hcap := absorbing_le g load
  obtain ⟨hn1, hn2⟩ := hn
  unfold Counts
  rcases countNext_cases load hg ⟨hn1, hn2⟩ with
    ⟨-, he⟩ | ⟨-, hlt, -, ⟨-, he⟩ | ⟨-, he⟩⟩ | ⟨-, -, he⟩ <;> rw [he] <;> dsimp only <;> omega

/-- The count stays: it absorbs the load, and no shrink is due. -/
def Steady (g load : Nat) (n : Nat × Nat) : Prop :=
  Counts n ∧ absorbing g load ≤ n.1 ∧ ¬ (1 < n.1 ∧ load / (n.1 - 1) ≤ g - g / 10)

theorem countNext_of_steady (hg : 1 ≤ g) (h : Steady g load n) :
    countNext g load n = (n.1, 0) := by
  obtain ⟨hn, habove, hstay⟩ := h
  rcases countNext_cases load hg hn with ⟨hlt, -⟩ | ⟨-, h1, h2, -⟩ | ⟨-, -, he⟩
  · omega
  · exact absurd ⟨h1, h2⟩ hstay
  · exact he

theorem steady_countNext (hg : 1 ≤ g) (h : Steady g load n) : Steady g load (countNext g load n) := by
  rw [countNext_of_steady hg h]
  exact ⟨h.1, h.2.1, h.2.2⟩

/-- The absorbing count stays, unless it flaps. -/
theorem steady_absorbing (hg : 1 ≤ g) (hflaps : ¬ Flaps g load) (streak : Nat) :
    Steady g load (absorbing g load, streak) := by
  refine ⟨⟨one_le_absorbing .., absorbing_le ..⟩, le_rfl, ?_⟩
  rintro ⟨hone, hmerged⟩
  have hle := le_merged hg hone
  dsimp only at hmerged
  -- the merged load is the bar, and the margin below it zero
  have hten : g < 10 := by
    by_contra hten
    have := Nat.div_pos (show 10 ≤ g by omega) (by decide)
    omega
  exact hflaps ⟨hten, hone, by omega⟩

/-- **Without flapping the count comes to rest**: it jumps to the absorbing count, or a streak or
the count moves towards it. -/
theorem steady_or_down (hg : 1 ≤ g) (hflaps : ¬ Flaps g load) (hn : Counts n)
    (hsteady : ¬ Steady g load n) :
    Steady g load (countNext g load n) ∨
      4 * (countNext g load n).1 - min (countNext g load n).2 3 < 4 * n.1 - min n.2 3 := by
  rcases countNext_cases load hg hn with
    ⟨-, he⟩ | ⟨habove, hone, hmerged, ⟨hgrace, he⟩ | ⟨hgrace, he⟩⟩ | ⟨habove, hstay, he⟩
  · left
    rw [he]
    exact steady_absorbing hg hflaps 0
  · right
    rw [he]
    dsimp only
    omega
  · right
    rw [he]
    unfold subnetShrinkGrace at hgrace
    dsimp only
    omega
  · exact absurd ⟨hn, habove, hstay⟩ hsteady

/-- Once it absorbs the load the count never grows, unless it flaps. -/
theorem absorbs_countNext (hg : 1 ≤ g) (hflaps : ¬ Flaps g load) (hn : Counts n)
    (habove : absorbing g load ≤ n.1) :
    absorbing g load ≤ (countNext g load n).1 ∧ (countNext g load n).1 ≤ n.1 := by
  rcases countNext_cases load hg hn with
    ⟨hlt, -⟩ | ⟨-, hone, hmerged, ⟨-, he⟩ | ⟨-, he⟩⟩ | ⟨-, -, he⟩
  · omega
  · -- a shrink from the absorbing count would flap
    have hne : n.1 ≠ absorbing g load := by
      intro heq
      have hstay := (steady_absorbing hg hflaps n.2).2.2
      rw [← heq] at hstay
      exact hstay ⟨hone, hmerged⟩
    rw [he]
    dsimp only
    omega
  · rw [he]
    exact ⟨habove, le_rfl⟩
  · rw [he]
    exact ⟨habove, le_rfl⟩

/-- **A flapping count never stays**: below the absorbing count it grows, and from it on a shrink
is due at every tick. -/
theorem moves_of_flaps (hg : 1 ≤ g) (hflaps : Flaps g load) (hn : Counts n) :
    (countNext g load n).1 ≠ n.1 ∨ (n.2 + 1 < subnetShrinkGrace ∧
      countNext g load n = (n.1, n.2 + 1)) := by
  obtain ⟨hten, hone, hmerged⟩ := hflaps
  rcases countNext_cases load hg hn with
    ⟨hlt, he⟩ | ⟨-, hone', -, ⟨-, he⟩ | ⟨hgrace, he⟩⟩ | ⟨habove, hstay, -⟩
  · left
    rw [he]
    dsimp only
    omega
  · left
    rw [he]
    dsimp only
    omega
  · exact Or.inr ⟨hgrace, he⟩
  · refine absurd ⟨by omega, ?_⟩ hstay
    rcases Nat.eq_or_lt_of_le habove with heq | hlt
    · rw [← heq, hmerged]
      omega
    · have hlt := merged_lt hg hlt hn.2
      omega

end Count

/-! ## The capacity -/

/-- The capacity and its streak after one tick. -/
def capacityNext (observed desired : U32) (c : U32 × Nat) : U32 × Nat :=
  if c.1 ≤ observed then (min (max desired c.1) maxSubnetClients, 0)
  else if (capacityResizeMargin c.1).val ≤ absDiff desired c.1 then
    if capacityResizeGrace ≤ c.2 + 1 then (min desired maxSubnetClients, 0)
    else (min c.1 maxSubnetClients, c.2 + 1)
  else (min c.1 maxSubnetClients, 0)

section Capacity
variable {observed desired : U32} {c : U32 × Nat}

/-- The capacity stays: it fits what is observed or is as high as desired, and is not far from
it. -/
def Fits (observed desired : U32) (c : U32 × Nat) : Prop :=
  c.1 ≤ maxSubnetClients ∧ (c.1 ≤ observed → desired ≤ c.1) ∧
    (observed < c.1 → absDiff desired c.1 < (capacityResizeMargin c.1).val)

theorem capacityNext_of_fits (h : Fits observed desired c) :
    capacityNext observed desired c = (c.1, 0) := by
  obtain ⟨hcap, hover, hdrift⟩ := h
  unfold capacityNext
  by_cases hle : c.1 ≤ observed
  · rw [if_pos hle, max_eq_right (hover hle), min_eq_left hcap]
  · rw [if_neg hle, if_neg (Nat.not_le.mpr (hdrift (not_le.mp hle))), min_eq_left hcap]

/-- The desired capacity fits. -/
theorem fits_desired (hdesired : desired ≤ maxSubnetClients) (streak : Nat) :
    Fits observed desired (desired, streak) := by
  refine ⟨hdesired, fun _ => le_rfl, fun _ => ?_⟩
  have hmargin : minCapacity.val ≤ (capacityResizeMargin desired).val :=
    Fin.le_def.mp (le_max_right _ _)
  have hzero : absDiff desired desired = 0 := by
    unfold absDiff
    omega
  rw [hzero]
  exact Nat.lt_of_lt_of_le (by decide) hmargin

/-- **The capacity comes to rest**: it becomes the desired one at once or after a streak. -/
theorem fits_or_down (hdesired : desired ≤ maxSubnetClients) (hcap : c.1 ≤ maxSubnetClients)
    (hfits : ¬ Fits observed desired c) :
    Fits observed desired (capacityNext observed desired c) ∨
      3 - (capacityNext observed desired c).2 < 3 - c.2 := by
  unfold capacityNext
  by_cases hle : c.1 ≤ observed
  · have hlow : c.1 ≤ desired := by
      by_contra hlow
      exact hfits ⟨hcap, fun _ => (not_le.mp hlow).le, fun hlt => absurd hle (not_le.mpr hlt)⟩
    left
    rw [if_pos hle, max_eq_left hlow, min_eq_left hdesired]
    exact fits_desired hdesired 0
  · have hdrift : (capacityResizeMargin c.1).val ≤ absDiff desired c.1 := by
      by_contra hdrift
      exact hfits ⟨hcap, fun h => absurd h hle, fun _ => not_le.mp hdrift⟩
    rw [if_neg hle, if_pos hdrift]
    by_cases hgrace : capacityResizeGrace ≤ c.2 + 1
    · left
      rw [if_pos hgrace, min_eq_left hdesired]
      exact fits_desired hdesired 0
    · right
      rw [if_neg hgrace]
      unfold capacityResizeGrace at hgrace
      dsimp only
      omega

theorem capacityNext_le (observed desired : U32) (c : U32 × Nat) :
    (capacityNext observed desired c).1 ≤ maxSubnetClients := by
  unfold capacityNext
  split_ifs <;> exact min_le_right _ _

end Capacity

/-! ## The sizes together -/

/-- What a tick sizes: the subnet count and the capacity, each with its streak. -/
abbrev Sizing := (Nat × Nat) × (U32 × Nat)

/-- The clients a subnet is sized for. -/
def observedFor (busiest load : U32) (count : Nat) : U32 :=
  max busiest (divCeil32 load (max count 1))

/-- The capacity a tick desires. -/
def desiredFor (minCap observed : U32) : U32 :=
  min (max (sizeCapacity observed.val) minCap) maxSubnetClients

/-- The sizes after one tick. -/
def sizingNext (growAt : Nat) (minCap busiest load : U32) (z : Sizing) : Sizing :=
  let n := countNext growAt load.val z.1
  let observed := observedFor busiest load n.1
  (n, capacityNext observed (desiredFor minCap observed) z.2)

section Together
variable {g : Nat} {minCap busiest load : U32} {z : Sizing}

/-- The sizes are in bounds. -/
def Bounded (z : Sizing) : Prop := Counts z.1 ∧ z.2.1 ≤ maxSubnetClients

theorem bounded_sizingNext (hg : 1 ≤ g) (h : Bounded z) :
    Bounded (sizingNext g minCap busiest load z) :=
  ⟨counts_countNext hg h.1, capacityNext_le ..⟩

/-- Count and capacity both stay. -/
def Still (g : Nat) (minCap busiest load : U32) (z : Sizing) : Prop :=
  Steady g load.val z.1 ∧ z.2.1 ≤ maxSubnetClients ∧
    Fits (observedFor busiest load z.1.1) (desiredFor minCap (observedFor busiest load z.1.1)) z.2

theorem sizingNext_of_still (hg : 1 ≤ g) (h : Still g minCap busiest load z) :
    sizingNext g minCap busiest load z = ((z.1.1, 0), (z.2.1, 0)) := by
  unfold sizingNext
  rw [countNext_of_steady hg h.1]
  dsimp only
  rw [capacityNext_of_fits h.2.2]

/-- **Without flapping the sizes settle.** -/
theorem settles_sizing (hg : 1 ≤ g) (hflaps : ¬ Flaps g load.val) (hz : Bounded z) :
    Settling.Settles (fun m =>
      (((sizingNext g minCap busiest load)^[m] z).1.1,
        ((sizingNext g minCap busiest load)^[m] z).2.1)) := by
  have hinv : ∀ z, Bounded z → Bounded (sizingNext g minCap busiest load z) :=
    fun z => bounded_sizingNext hg
  -- the count comes to rest first
  obtain ⟨m, hm⟩ := Settling.exists_rest (R := fun z : Sizing => Steady g load.val z.1)
    (fun z => 4 * z.1.1 - min z.1.2 3) hinv
    (fun z hz hrest => steady_or_down hg hflaps hz.1 hrest) z hz
  have hzm : Bounded ((sizingNext g minCap busiest load)^[m] z) :=
    Settling.iterate_invariant hinv hz m
  -- then the capacity, under the count that stays
  obtain ⟨k, hk⟩ := Settling.exists_rest (R := Still g minCap busiest load)
    (I := fun z => Bounded z ∧ Steady g load.val z.1) (fun z => 3 - z.2.2)
    (fun z h => ⟨hinv z h.1, steady_countNext hg h.2⟩) (fun z h hrest => by
      have hfits : ¬ Fits (observedFor busiest load z.1.1)
          (desiredFor minCap (observedFor busiest load z.1.1)) z.2 :=
        fun hfits => hrest ⟨h.2, h.1.2, hfits⟩
      have hnext : sizingNext g minCap busiest load z =
          ((z.1.1, 0), capacityNext (observedFor busiest load z.1.1)
            (desiredFor minCap (observedFor busiest load z.1.1)) z.2) := by
        unfold sizingNext
        rw [countNext_of_steady hg h.2]
      rw [hnext]
      rcases fits_or_down (min_le_right _ _) h.1.2 hfits with h' | h'
      · exact Or.inl ⟨h.2, capacityNext_le .., h'⟩
      · exact Or.inr h') _ ⟨hzm, hm⟩
  rw [← Function.iterate_add_apply] at hk
  refine Settling.settles_of_rest (R := Still g minCap busiest load)
    (g := fun z : Sizing => (z.1.1, z.2.1)) (fun z h => ?_) (fun z h => ?_) hk
  · rw [sizingNext_of_still hg h]
    exact ⟨h.1, h.2.1, h.2.2⟩
  · rw [sizingNext_of_still hg h]

/-- **A flapping count never settles**: a shrink is due at every third tick. -/
theorem not_settles_of_flaps (hg : 1 ≤ g) (hflaps : Flaps g load.val) (hz : Bounded z) :
    ¬ Settling.Settles (fun m => ((sizingNext g minCap busiest load)^[m] z).1.1) := by
  rintro ⟨K, hK⟩
  have hinv : ∀ z, Bounded z → Bounded (sizingNext g minCap busiest load z) :=
    fun z => bounded_sizingNext hg
  -- while the count stays its streak grows
  have hstreak : ∀ d, d ≤ ((sizingNext g minCap busiest load)^[K + d] z).1.2 := by
    intro d
    induction d with
    | zero => exact Nat.zero_le _
    | succ d ih =>
      have hnow := Settling.iterate_invariant hinv hz (K + d)
      have hsame := (hK (K + d + 1) (by omega)).trans (hK (K + d) (by omega)).symm
      dsimp only at hsame
      rw [← Nat.add_assoc, Function.iterate_succ_apply'] at *
      rcases moves_of_flaps hg hflaps hnow.1 with hmove | ⟨-, hnext⟩
      · exact absurd hsame hmove
      · show d + 1 ≤ (countNext g load.val _).2
        rw [hnext]
        exact Nat.succ_le_succ ih
  have hnow := Settling.iterate_invariant hinv hz (K + 3)
  have hsame := (hK (K + 3 + 1) (by omega)).trans (hK (K + 3) (by omega)).symm
  dsimp only at hsame
  rw [Function.iterate_succ_apply'] at hsame
  rcases moves_of_flaps hg hflaps hnow.1 with hmove | ⟨hgrace, -⟩
  · exact hmove hsame
  · have := hstreak 3
    unfold subnetShrinkGrace at hgrace
    omega

end Together

/-! ## The sizes of a core -/

variable {C : SchedulerCrate} {O : ObserverSessions}

/-- The sizes of a core, with their streaks. -/
def sizing (s : SchedulerCore O) : Sizing :=
  ((s.subnetCount, s.shrinkStreak), (s.capacity, s.capacityStreak))

theorem sizing_resizeCount (cfg : SchedulerConfig C) (s : SchedulerCore O) (load : U32) :
    (s.resizeCount cfg load).sizing =
      (countNext cfg.params.growAt.val load.val s.sizing.1, s.sizing.2) := by
  unfold resizeCount countNext sizing
  dsimp only
  split_ifs <;> rfl

theorem sizing_resizeCapacity (cfg : SchedulerConfig C) (s : SchedulerCore O)
    (busiest load : U32) :
    (s.resizeCapacity cfg busiest load).sizing =
      (s.sizing.1, capacityNext (observedFor busiest load s.subnetCount)
        (desiredFor cfg.params.minCapacity (observedFor busiest load s.subnetCount))
        s.sizing.2) := by
  unfold resizeCapacity capacityNext sizing observedFor desiredFor
  dsimp only
  split_ifs <;> rfl

/-- **The sizing of one tick** is a step of the sizes. -/
theorem sizing_resize (cfg : SchedulerConfig C) (s : SchedulerCore O) :
    (s.resize cfg).sizing =
      sizingNext cfg.params.growAt.val cfg.params.minCapacity s.busiest s.load s.sizing := by
  have hcount := sizing_resizeCount cfg s s.load
  have hcap := sizing_resizeCapacity cfg (s.resizeCount cfg s.load) s.busiest s.load
  have hn : (s.resizeCount cfg s.load).subnetCount =
      (countNext cfg.params.growAt.val s.load.val s.sizing.1).1 :=
    congrArg (fun z : Sizing => z.1.1) hcount
  refine Eq.trans (show (s.resize cfg).sizing =
    ((s.resizeCount cfg s.load).resizeCapacity cfg s.busiest s.load).sizing from rfl) ?_
  rw [hcap, hcount, hn]
  rfl

/-! ### The calls that size nothing -/

theorem sizing_foldl {α : Type} {f : SchedulerCore O → α → SchedulerCore O}
    (hf : ∀ s a, (f s a).sizing = s.sizing) (l : List α) : ∀ s, (l.foldl f s).sizing = s.sizing := by
  induction l with
  | nil => exact fun _ => rfl
  | cons a l ih => exact fun s => (ih _).trans (hf s a)

theorem sizing_applyObservedFaults (cfg : SchedulerConfig C) (s : SchedulerCore O)
    (faults : List Fault) (now : U64) :
    (s.applyObservedFaults cfg faults now).sizing = s.sizing := by
  have hone : ∀ (s : SchedulerCore O) fault, (s.applyFault now fault).sizing = s.sizing := by
    intro s fault
    unfold applyFault
    split
    · exact sizing_foldl (f := sidelineOne now (fault.kind = .integrity)) (fun _ _ => rfl) _ s
    · rfl
  unfold applyObservedFaults
  split
  · exact sizing_foldl hone faults s
  · rfl

theorem sizing_learnConfig (cfg : SchedulerConfig C) (s : SchedulerCore O) (body : C.Body) :
    (s.learnConfig cfg body).sizing = s.sizing := by
  unfold learnConfig
  dsimp only
  split <;> rfl

theorem sizing_tryAssemble (cfg : SchedulerConfig C) (s : SchedulerCore O) (body : C.Body) :
    (s.tryAssemble cfg body).1.sizing = s.sizing := by
  unfold tryAssemble
  dsimp only
  split
  · rfl
  · split
    · rfl
    · split
      · rfl
      · split <;> rfl

theorem sizing_propose (cfg : SchedulerConfig C) (s : SchedulerCore O) (clock : U64) :
    (s.propose cfg clock).1.sizing = s.sizing := by
  obtain ⟨vectors, hvectors⟩ := resizeScheduledVectors_eq cfg (s.subnetProtocols cfg) s
  have hprimed : (s.primed cfg clock).sizing = s.sizing := by
    unfold primed
    rw [hvectors]
    rfl
  rw [propose_eq]
  refine Eq.trans ?_ hprimed
  unfold settled
  dsimp only
  split <;> rfl

/-- The state a tick sizes in. -/
def beforeSizing (cfg : SchedulerConfig C) (s : SchedulerCore O) (round : Round) (now : U64) :
    SchedulerCore O :=
  ((s.clocked round now).observers.keys.foldl (endObserverRound cfg round now)
    (s.clocked round now)).releaseOffenders cfg now

theorem sizing_beforeSizing (cfg : SchedulerConfig C) (s : SchedulerCore O) (round : Round)
    (now : U64) : (s.beforeSizing cfg round now).sizing = s.sizing := by
  have hone : ∀ (s : SchedulerCore O) id,
      (s.endObserverRound cfg round now id).sizing = s.sizing := by
    intro s id
    unfold endObserverRound
    split
    · rfl
    · dsimp only
      split
      · rfl
      · exact sizing_applyObservedFaults cfg _ _ now
  exact sizing_foldl hone _ (s.clocked round now)

/-- What a tick observes. -/
structure Observation where
  total : Nat
  busiest : U32
  demand : U32
  deriving DecidableEq

/-- The load an observation makes. -/
def Observation.load (o : Observation) : U32 := max (Fin.ofNat _ o.total) o.demand

/-- The observation of a tick. -/
def observation (cfg : SchedulerConfig C) (s : SchedulerCore O) (round : Round) (now : U64) :
    Observation :=
  let s := s.beforeSizing cfg round now
  ⟨s.totalClients, s.busiest, s.demandCapped⟩

/-- **A tick is a step of the sizes**, under its observation. -/
theorem sizing_tick (cfg : SchedulerConfig C) (s : SchedulerCore O) (round : Round)
    (now clock : U64) :
    (s.apply cfg (.tick round now clock)).sizing =
      sizingNext cfg.params.growAt.val cfg.params.minCapacity
        (s.observation cfg round now).busiest (s.observation cfg round now).load s.sizing := by
  have hadvance : (s.advance cfg round now).sizing =
      sizingNext cfg.params.growAt.val cfg.params.minCapacity
        (s.observation cfg round now).busiest (s.observation cfg round now).load s.sizing := by
    refine (sizing_resize cfg (s.beforeSizing cfg round now)).trans ?_
    rw [sizing_beforeSizing]
    rfl
  simp only [apply, tick]
  split
  · exact (sizing_propose cfg _ clock).trans hadvance
  · exact hadvance

end SchedulerCore

/-- The call is a tick. -/
def SchedulerOp.isTick {C : SchedulerCrate} : SchedulerOp C → Bool
  | .tick .. => true
  | _ => false

namespace SchedulerCore
variable {C : SchedulerCrate} {O : ObserverSessions} {cfg : SchedulerConfig C}

theorem sizing_apply_of_not_tick (s : SchedulerCore O) {op : SchedulerOp C}
    (h : op.isTick = false) : (s.apply cfg op).sizing = s.sizing := by
  cases op with
  | registration reg =>
    cases reg with
    | relay => simp only [apply, onRegistration]; split <;> rfl
    | service | watcher => rfl
  | decodedBody proposal =>
    simp only [apply, onDecodedBody]
    split
    · rfl
    · exact (sizing_tryAssemble cfg _ _).trans (sizing_learnConfig cfg _ _)
  | committeeSig sig =>
    simp only [apply, onCommitteeSig]
    split
    · rfl
    · split
      · rfl
      · split
        · rfl
        · exact sizing_tryAssemble cfg _ _
  | publishedConfig config =>
    simp only [apply, onPublishedConfig]
    split
    · rfl
    · split
      · rfl
      · exact sizing_learnConfig cfg _ _
  | faultReport sender report now =>
    simp only [apply, onFaultReport_eq]
    split
    · rfl
    · exact sizing_applyObservedFaults cfg _ _ now
  | observedFaults faults now => exact sizing_applyObservedFaults cfg s faults now
  | subnetMessage subnet sender bytes =>
    simp only [apply, onSubnetMessage]
    split <;> rfl
  | setCoverRate rate => rfl
  | tick round now clock => cases h

/-! ## Infinite runs -/

/-- The core after the first `k` calls of an infinite run. -/
def coreAt (O : ObserverSessions) (cfg : SchedulerConfig C) (ops : Nat → SchedulerOp C) (k : Nat) :
    SchedulerCore O :=
  after O cfg ((List.range k).map ops)

theorem coreAt_succ (ops : Nat → SchedulerOp C) (k : Nat) :
    coreAt O cfg ops (k + 1) = (coreAt O cfg ops k).apply cfg (ops k) := by
  unfold coreAt
  rw [List.range_succ, List.map_append, List.map_singleton, after_concat]

/-- From `k0` on every tick observes the same. -/
def ConstantFrom (O : ObserverSessions) (cfg : SchedulerConfig C) (ops : Nat → SchedulerOp C)
    (k0 : Nat) (obs : Observation) : Prop :=
  ∀ k ≥ k0, ∀ round now clock, ops k = .tick round now clock →
    (coreAt O cfg ops k).observation cfg round now = obs

/-- What the sizing is to do under a constant observation: the sizes are in bounds after every
tick, they settle, and a shrink is never followed by a growth. -/
structure SettlesFrom (O : ObserverSessions) (cfg : SchedulerConfig C) (ops : Nat → SchedulerOp C)
    (k0 : Nat) : Prop where
  bounds : ∀ k, (ops k).isTick = true →
    (1 ≤ (coreAt O cfg ops (k + 1)).subnetCount ∧
      (coreAt O cfg ops (k + 1)).subnetCount ≤ maxSubnets) ∧
    minCapacity ≤ (coreAt O cfg ops (k + 1)).capacity ∧
      (coreAt O cfg ops (k + 1)).capacity ≤ maxSubnetClients
  settles : Settling.Settles (fun k =>
    ((coreAt O cfg ops k).subnetCount, (coreAt O cfg ops k).capacity))
  noRegrow : ∀ k ≥ k0, (coreAt O cfg ops (k + 1)).subnetCount < (coreAt O cfg ops k).subnetCount →
    ∀ j > k, (coreAt O cfg ops (j + 1)).subnetCount ≤ (coreAt O cfg ops j).subnetCount

section Run
variable {ops : Nat → SchedulerOp C} {k0 : Nat} {obs : Observation}

/-- A tick of the run is a step of the sizes, any other call none. -/
theorem sizing_coreAt_succ (O : ObserverSessions) (cfg : SchedulerConfig C)
    (ops : Nat → SchedulerOp C) (k : Nat) :
    ((ops k).isTick = true ∧ ∃ busiest load, (coreAt O cfg ops (k + 1)).sizing =
        sizingNext cfg.params.growAt.val cfg.params.minCapacity busiest load
          (coreAt O cfg ops k).sizing) ∨
      ((ops k).isTick = false ∧
        (coreAt O cfg ops (k + 1)).sizing = (coreAt O cfg ops k).sizing) := by
  rw [coreAt_succ]
  cases hop : ops k with
  | tick round now clock => exact Or.inl ⟨rfl, _, _, sizing_tick cfg _ round now clock⟩
  | _ => exact Or.inr ⟨rfl, sizing_apply_of_not_tick _ rfl⟩

theorem counts_coreAt (O : ObserverSessions) (ops : Nat → SchedulerOp C)
    (hgrow : 1 ≤ cfg.params.growAt.val) (k : Nat) :
    Counts (coreAt O cfg ops k).sizing.1 := by
  induction k with
  | zero => exact ⟨le_rfl, show 1 ≤ 16 by decide⟩
  | succ k ih =>
    rcases sizing_coreAt_succ O cfg ops k with ⟨-, _, _, he⟩ | ⟨-, he⟩
    · rw [he]
      exact counts_countNext hgrow ih
    · rw [he]
      exact ih

/-- After a tick the sizes are in bounds. -/
theorem bounded_of_tick (hgrow : 1 ≤ cfg.params.growAt.val) {k : Nat}
    (htick : (ops k).isTick = true) : Bounded (coreAt O cfg ops (k + 1)).sizing := by
  refine ⟨counts_coreAt O ops hgrow (k + 1), ?_⟩
  rcases sizing_coreAt_succ O cfg ops k with ⟨-, _, _, he⟩ | ⟨hno, -⟩
  · rw [he]
    exact capacityNext_le ..
  · rw [htick] at hno
    cases hno

/-- From `k0` on the run takes the same step of the sizes at every tick. -/
theorem stutters_sizing (hobs : ConstantFrom O cfg ops k0 obs) {k1 : Nat} (hk : k0 ≤ k1) :
    Settling.Stutters (sizingNext cfg.params.growAt.val cfg.params.minCapacity obs.busiest obs.load)
      (fun k => (ops (k1 + k)).isTick = true) (fun k => (coreAt O cfg ops (k1 + k)).sizing) := by
  constructor
  · intro k htick
    rw [← Nat.add_assoc, coreAt_succ]
    cases hop : ops (k1 + k) with
    | tick round now clock =>
      rw [sizing_tick, hobs (k1 + k) (by omega) round now clock hop]
    | _ => rw [hop] at htick; cases htick
  · intro k hno
    rw [← Nat.add_assoc, coreAt_succ]
    exact sizing_apply_of_not_tick _ (by simpa using hno)

/-- Once the count absorbs the load it never grows, unless it flaps. -/
theorem absorbs_coreAt (hgrow : 1 ≤ cfg.params.growAt.val) (hobs : ConstantFrom O cfg ops k0 obs)
    (hflaps : ¬ Flaps cfg.params.growAt.val obs.load.val) {k : Nat} (hk : k0 ≤ k)
    (habove : absorbing cfg.params.growAt.val obs.load.val ≤ (coreAt O cfg ops k).subnetCount) :
    absorbing cfg.params.growAt.val obs.load.val ≤ (coreAt O cfg ops (k + 1)).subnetCount ∧
      (coreAt O cfg ops (k + 1)).subnetCount ≤ (coreAt O cfg ops k).subnetCount := by
  have hstep := stutters_sizing hobs hk
  by_cases htick : (ops k).isTick = true
  · have hnext : (coreAt O cfg ops (k + 1)).sizing.1 = countNext _ _ (coreAt O cfg ops k).sizing.1 :=
      congrArg Prod.fst (hstep.act 0 htick)
    have hcount := absorbs_countNext hgrow hflaps (counts_coreAt O ops hgrow k)
      habove
    rw [← hnext] at hcount
    exact hcount
  · have hnext : (coreAt O cfg ops (k + 1)).subnetCount = (coreAt O cfg ops k).subnetCount :=
      congrArg (fun z : Sizing => z.1.1) (hstep.stand 0 htick)
    rw [hnext]
    exact ⟨habove, le_rfl⟩

/-- **Under a constant observation the sizes settle exactly when they do not flap**: when the
margin below `grow_at` does not round to zero, or one subnet fewer than absorb the load would
not carry exactly `grow_at`. -/
theorem settles_iff_not_flaps (O : ObserverSessions) (cfg : SchedulerConfig C)
    (hgrow : 1 ≤ cfg.params.growAt.val) (ops : Nat → SchedulerOp C)
    (hforever : ∀ K, ∃ k ≥ K, (ops k).isTick = true) (k0 : Nat) (obs : Observation)
    (hobs : ConstantFrom O cfg ops k0 obs) :
    SettlesFrom O cfg ops k0 ↔ ¬ Flaps cfg.params.growAt.val obs.load.val := by
  obtain ⟨k1, hk1, htick⟩ := hforever k0
  have hbounded := bounded_of_tick (O := O) hgrow htick
  have hstep := stutters_sizing hobs (show k0 ≤ k1 + 1 by omega)
  have hacts : ∀ K, ∃ k ≥ K, (ops (k1 + 1 + k)).isTick = true := by
    intro K
    obtain ⟨k, hk, hact⟩ := hforever (k1 + 1 + K)
    refine ⟨k - (k1 + 1), by omega, ?_⟩
    rwa [Nat.add_sub_cancel' (by omega)]
  constructor
  · intro h hflaps
    have hcount : Settling.Settles (fun k => (coreAt O cfg ops k).sizing.1.1) := by
      obtain ⟨K, hK⟩ := h.settles
      exact ⟨K, fun k hk => congrArg (fun p : Nat × U32 => p.1) (hK k hk)⟩
    rw [← Settling.settles_shift (k1 + 1)] at hcount
    exact not_settles_of_flaps hgrow hflaps hbounded
      ((hstep.settles_iff hacts (fun z : Sizing => z.1.1)).mp hcount)
  · intro hflaps
    refine ⟨?_, ?_, ?_⟩
    · intro k hk
      have hb := bounded_of_tick (O := O) hgrow hk
      exact ⟨hb.1, (sized_after O cfg _).capacity, hb.2⟩
    · rw [← Settling.settles_shift (k1 + 1)]
      exact (hstep.settles_iff hacts (fun z : Sizing => (z.1.1, z.2.1))).mpr
        (settles_sizing hgrow hflaps hbounded)
    · intro k hk hshrink j hj
      -- a shrink leaves a count that absorbs the load
      have hfirst : absorbing cfg.params.growAt.val obs.load.val ≤
          (coreAt O cfg ops (k + 1)).subnetCount := by
        rcases Nat.lt_or_ge (coreAt O cfg ops k).subnetCount
          (absorbing cfg.params.growAt.val obs.load.val) with hlow | habove
        · have hcounts := counts_coreAt O ops hgrow k
          by_cases hact : (ops k).isTick = true
          · have hnext : (coreAt O cfg ops (k + 1)).sizing.1 =
                countNext _ _ (coreAt O cfg ops k).sizing.1 :=
              congrArg Prod.fst ((stutters_sizing hobs hk).act 0 hact)
            rcases countNext_cases obs.load.val hgrow hcounts with
              ⟨-, he⟩ | ⟨habove, -⟩ | ⟨habove, -⟩
            · have hto := hnext.trans he
              exact (congrArg Prod.fst hto).ge
            · exact absurd hlow (Nat.not_lt.mpr habove)
            · exact absurd hlow (Nat.not_lt.mpr habove)
          · have hnext : (coreAt O cfg ops (k + 1)).subnetCount =
                (coreAt O cfg ops k).subnetCount :=
              congrArg (fun z : Sizing => z.1.1) ((stutters_sizing hobs hk).stand 0 hact)
            omega
        · exact (absorbs_coreAt hgrow hobs hflaps hk habove).1
      have hall : ∀ d, absorbing cfg.params.growAt.val obs.load.val ≤
          (coreAt O cfg ops (k + 1 + d)).subnetCount := by
        intro d
        induction d with
        | zero => exact hfirst
        | succ d ih => exact (absorbs_coreAt hgrow hobs hflaps (by omega) ih).1
      obtain ⟨d, rfl⟩ := Nat.exists_eq_add_of_le (show k + 1 ≤ j by omega)
      exact (absorbs_coreAt hgrow hobs hflaps (by omega) (hall d)).2

end Run

/-! ## Two runs -/

theorem observers_resize (cfg : SchedulerConfig C) (s : SchedulerCore O) :
    (s.resize cfg).observers = s.observers := by
  unfold resize resizeCapacity resizeCount
  dsimp only
  split_ifs <;> rfl

/-- Observers that report a set of five. -/
def crowdObservers : ObserverSessions :=
  { toyObservers with
    panetiere := { silentObserver with
      anonymitySet := fun _ => some 5
      anonSetRound := fun _ => some 0 } }

/-- A member whose subnets are to carry less than five clients each. -/
def smallBar : SchedulerConfig toyScheduler :=
  { toyMember 2 with params := { toySchedulerParams with growAt := 5 } }

/-- A member whose subnets are to carry less than four clients each. -/
def lowBar : SchedulerConfig toyScheduler :=
  { toyMember 2 with params := { toySchedulerParams with growAt := 4 } }

/-- The observer of one subnet. -/
def crowd : OrdMap SubnetId (PublicObserver crowdObservers) := OrdMap.empty.insert 0 (.panetiere ())

theorem observers_beforeSizing (cfg : SchedulerConfig C) {s : SchedulerCore crowdObservers}
    (round : Round) (now : U64) (h : s.observers = crowd) :
    (s.beforeSizing cfg round now).observers = crowd := by
  have hclocked : (s.clocked round now).observers = crowd := by
    refine OrdMap.ext_get? fun id => ?_
    unfold clocked forgetOldFaults refreshClocks
    dsimp only
    rw [OrdMap.get?_mapVals, h, crowd, OrdMap.get?_insert]
    split_ifs
    · unfold PublicObserver.refreshClock
      simp only [Option.map_some]
      split <;> rfl
    · rfl
  have hended : (s.beforeSizing cfg round now).observers =
      ((s.clocked round now).endObserverRound cfg round now 0).observers := by
    unfold beforeSizing
    rw [hclocked]
    rfl
  have hget : crowd.get? 0 = some (.panetiere ()) := rfl
  rw [hended]
  unfold endObserverRound
  rw [hclocked, hget]
  dsimp only
  split
  · rfl
  · exact (rosterOnly_applyObservedFaults cfg _ [] now).observers

/-- The member learns of a subnet and ticks for ever. -/
def crowdTicks : Nat → SchedulerOp toyScheduler
  | 0 => .registration (toyRegistration [1])
  | 1 => .decodedBody (toyProposal (toyBody 1 (toyPanetiere 8) [1]))
  | _ => .tick 0 0 0

theorem constantFrom_crowd {cfg : SchedulerConfig toyScheduler} (hlead : cfg.isLead = false)
    (hkeys : (coreAt crowdObservers cfg crowdTicks 2).observers.keys = [0])
    (hcrowd : ((coreAt crowdObservers cfg crowdTicks 2).observers.get? 0).any
      (fun o => o matches .panetiere _) = true) :
    ConstantFrom crowdObservers cfg crowdTicks 2 ⟨5, 5, 0⟩ := by
  have hstart : (coreAt crowdObservers cfg crowdTicks 2).observers = crowd := by
    refine OrdMap.ext_get? fun id => ?_
    rw [crowd, OrdMap.get?_insert]
    split_ifs with hid
    · subst hid
      obtain ⟨o, ho, hpan⟩ := Option.any_eq_true _ _ |>.mp hcrowd
      rw [ho]
      cases o with
      | panetiere => rfl
      | _ => cases hpan
    · refine Option.not_isSome_iff_eq_none.mp fun hsome => hid ?_
      obtain ⟨o, ho⟩ := Option.isSome_iff_exists.mp hsome
      have hmem := OrdMap.mem_keys.mpr ⟨o, ho⟩
      rw [hkeys] at hmem
      exact List.mem_singleton.mp hmem
  have hkept : ∀ k, (coreAt crowdObservers cfg crowdTicks (2 + k)).observers = crowd := by
    intro k
    induction k with
    | zero => exact hstart
    | succ k ih =>
      have htick : crowdTicks (2 + k) = .tick 0 0 0 := by
        rw [Nat.add_comm]
        rfl
      rw [← Nat.add_assoc, coreAt_succ, htick]
      show (tick cfg _ 0 0 0).1.observers = _
      unfold tick
      dsimp only
      rw [hlead, Bool.false_and, if_neg Bool.false_ne_true]
      exact (observers_resize ..).trans (observers_beforeSizing cfg 0 0 ih)
  intro k hk round now clock _
  obtain ⟨k, rfl⟩ := Nat.exists_eq_add_of_le hk
  have h := observers_beforeSizing cfg round now (hkept k)
  unfold observation totalClients busiest demandCapped freshObservers
  dsimp only
  rw [h]
  decide +kernel

/-- **Five clients settle under a bar of four**, with two subnets, and never under a bar of
five. -/
theorem settles_iff_not_flaps_crowd :
    SettlesFrom crowdObservers lowBar crowdTicks 2 ∧
      (coreAt crowdObservers lowBar crowdTicks 3).subnetCount = 2 ∧
      ¬ SettlesFrom crowdObservers smallBar crowdTicks 2 := by
  have hforever : ∀ K, ∃ k ≥ K, (crowdTicks k).isTick = true := fun K => ⟨K + 2, by omega, rfl⟩
  have hlow : ConstantFrom crowdObservers lowBar crowdTicks 2 _ :=
    constantFrom_crowd (by decide +kernel) (by decide +kernel) (by decide +kernel)
  have hsmall : ConstantFrom crowdObservers smallBar crowdTicks 2 _ :=
    constantFrom_crowd (by decide +kernel) (by decide +kernel) (by decide +kernel)
  refine ⟨?_, by decide +kernel, ?_⟩
  · exact (settles_iff_not_flaps crowdObservers lowBar (by decide) crowdTicks hforever 2 _ hlow).mpr
      (by decide)
  · rw [settles_iff_not_flaps crowdObservers smallBar (by decide) crowdTicks hforever 2 _ hsmall]
    decide

/-- The member learns of a subnet and ticks. -/
def crowdRun (ticks : Nat) : List (SchedulerOp toyScheduler) :=
  [.registration (toyRegistration [1]), .decodedBody (toyProposal (toyBody 1 (toyPanetiere 8) [1]))] ++
    List.replicate ticks (.tick 0 0 0)

/-- **The count flaps**: five clients and a bar of five.  Every tick observes the same, and the
count goes up, down again after three more ticks, and up. -/
theorem flaps_crowd :
    (∀ k < 6, (after crowdObservers smallBar (crowdRun k)).observation smallBar 0 0 =
        ⟨5, 5, 0⟩) ∧
      (List.range 7).map (fun k => (after crowdObservers smallBar (crowdRun k)).subnetCount) =
        [1, 2, 2, 2, 1, 2, 2] := by
  decide +kernel

end SchedulerCore
end Anymone
