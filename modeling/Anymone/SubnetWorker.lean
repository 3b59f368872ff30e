import Anymone.Bytes

/-! # The round clock and the worker that follows it

Round labels come from the wall clock: a round is an interval of `dur_ms` after a
signed epoch.  A subnet's worker reads the clock when it starts and when it ends a
round; told to shut down it finishes the round in progress and one more, and a
replacement waits for the end of the round after the one it was spawned in.

Times are milliseconds before the wrap of `u64`.  What a worker's sessions send and
receive does not move its round and is left out.
-/

namespace Anymone

/-- The arguments `round_at` and `deadline_for` share; every driver raises `dur_ms`
to at least one. -/
structure RoundClock where
  baseRound : Nat
  epochUnixMs : Nat
  durMs : Nat
  durMs_pos : 0 < durMs

namespace RoundClock
variable (clk : RoundClock)

/-- `round_at`. -/
def roundAt (nowMs : Nat) : Nat :=
  if nowMs ≤ clk.epochUnixMs then clk.baseRound
  else clk.baseRound + (nowMs - clk.epochUnixMs) / clk.durMs

/-- `boundary_ms` in `deadline_for`: the end of the round. -/
def boundaryMs (round : Nat) : Nat :=
  clk.epochUnixMs + (round - clk.baseRound + 1) * clk.durMs

/-- The time at which a sleep until `deadline_for`, computed at `now_ms`, is over. -/
def deadlineFor (round nowMs : Nat) : Nat := nowMs + (clk.boundaryMs round - nowMs)

theorem baseRound_le_roundAt (now : Nat) : clk.baseRound ≤ clk.roundAt now := by
  rw [roundAt]
  split
  · exact Nat.le_refl _
  · exact Nat.le_add_right _ _

theorem roundAt_mono {s t : Nat} (h : s ≤ t) : clk.roundAt s ≤ clk.roundAt t := by
  by_cases hs : s ≤ clk.epochUnixMs
  · rw [roundAt, if_pos hs]
    exact clk.baseRound_le_roundAt t
  · rw [roundAt, roundAt, if_neg hs, if_neg (by omega)]
    exact Nat.add_le_add_left (Nat.div_le_div_right (by omega)) _

/-- A time is before a round's boundary exactly when the clock has not left the round. -/
theorem roundAt_le_iff {round now : Nat} (hbase : clk.baseRound ≤ round) :
    clk.roundAt now ≤ round ↔ now < clk.boundaryMs round := by
  have hpos : 0 < (round - clk.baseRound + 1) * clk.durMs :=
    Nat.mul_pos (by omega) clk.durMs_pos
  rw [roundAt, boundaryMs]
  by_cases hnow : now ≤ clk.epochUnixMs
  · rw [if_pos hnow]
    omega
  · rw [if_neg hnow]
    have hdiv := Nat.div_lt_iff_lt_mul clk.durMs_pos (x := now - clk.epochUnixMs)
      (y := round - clk.baseRound + 1)
    omega

/-- Between the ends of a round and of its successor the clock shows the successor. -/
theorem roundAt_eq_succ {round now : Nat} (hbase : clk.baseRound ≤ round)
    (hlo : clk.boundaryMs round ≤ now) (hhi : now < clk.boundaryMs (round + 1)) :
    clk.roundAt now = round + 1 := by
  have hgt : ¬ clk.roundAt now ≤ round :=
    fun h => absurd ((clk.roundAt_le_iff hbase).mp h) (by omega)
  have hle : clk.roundAt now ≤ round + 1 := (clk.roundAt_le_iff (by omega)).mpr hhi
  omega

end RoundClock

/-! ## A worker's messages -/

/-- `StageMsg`.  A cover rate is the bits of an `f32`. -/
inductive StageMsg where
  | setCoverRate (rate : U32)
  | shutdown
  deriving DecidableEq

/-- What ends a wait of `arm_until_cutover`. -/
inductive ArmEvent where
  | elapsed
  | stage (msg : StageMsg)
  | closed
  deriving DecidableEq

/-- The loop of `arm_until_cutover`: its answer, once there is one, and the cover rate. -/
def armUntilCutover (coverRate : U32) : List ArmEvent → Option Bool × U32
  | [] => (none, coverRate)
  | .elapsed :: _ => (some true, coverRate)
  | .stage (.setCoverRate rate) :: evs => armUntilCutover rate evs
  | .stage .shutdown :: _ => (some false, coverRate)
  | .closed :: _ => (some false, coverRate)

/-! ## The loop of `run_subnet` -/

/-- The locals of `run_subnet` that decide which rounds it begins, and the rounds it
has begun, oldest first. -/
structure SubnetWorker where
  round : Nat
  finalRound : Option Nat
  /-- Set on entering the drain round: the last round this worker owns. -/
  drainCap : Option Nat
  coverRate : U32
  /-- `sessions` holds a `Server`. -/
  server : Bool
  begun : List Nat
  exited : Bool
  deriving DecidableEq

/-- What the loop of `run_subnet` waits for. -/
inductive WorkerEvent where
  | deadline
  | stage (msg : StageMsg)
  deriving DecidableEq

namespace SubnetWorker
variable (clk : RoundClock) (w : SubnetWorker)

/-- `run_subnet` up to its loop, at the clock it reads there. -/
def start (server : Bool) (coverRate : U32) (nowMs : Nat) : SubnetWorker :=
  ⟨clk.roundAt nowMs, none, none, coverRate, server, [clk.roundAt nowMs], false⟩

/-- The next round at the clock read after a round's end: a worker that lags skips. -/
def nextRound (nowMs : Nat) : Nat := max (clk.roundAt nowMs) (w.round + 1)

/-- `begin_round` on every session. -/
def beginRound (round : Nat) : SubnetWorker :=
  { w with round := round, begun := w.begun ++ [round] }

/-- The deadline arm: `end_round`, then the exit, the drain round or the next round. -/
def atDeadline (nowMs : Nat) : SubnetWorker :=
  if w.drainCap.isSome then { w with exited := true }
  else if w.finalRound.any (fun f => f ≤ w.round) then
    if w.server then
      -- A relay decodes from shares that arrive the round after: it stays, beginning nothing.
      { w with drainCap := some w.round, round := w.nextRound clk nowMs }
    else { w with exited := true }
  else w.beginRound (w.nextRound clk nowMs)

/-- The stage arm. -/
def atStage : StageMsg → SubnetWorker
  | .setCoverRate rate => { w with coverRate := rate }
  | .shutdown => { w with finalRound := some (w.finalRound.getD (w.round + 1)) }

/-- One turn of the loop, at the time it happens. -/
def step (nowMs : Nat) : WorkerEvent → SubnetWorker
  | .deadline => w.atDeadline clk nowMs
  | .stage msg => w.atStage msg

/-- The turns of the loop one after another. -/
def run : SubnetWorker → List (Nat × WorkerEvent) → SubnetWorker
  | w, [] => w
  | w, (now, ev) :: evs => run (w.step clk now ev) evs

/-- The round's timer fires before the next boundary has passed too, and the loop, which
asks its timer first, takes a message only before the round is over. -/
def OnTime (nowMs : Nat) : WorkerEvent → Prop
  | .deadline => clk.boundaryMs w.round ≤ nowMs ∧ nowMs < clk.boundaryMs (w.round + 1)
  | .stage _ => nowMs < clk.boundaryMs w.round

/-- From time `t` on the worker follows the round clock, and turns until it exits. -/
def Follows : SubnetWorker → Nat → List (Nat × WorkerEvent) → Prop
  | _, _, [] => True
  | w, t, (now, ev) :: evs =>
      w.exited = false ∧ t ≤ now ∧ w.OnTime clk now ev ∧ Follows (w.step clk now ev) now evs

instance (now : Nat) (ev : WorkerEvent) : Decidable (w.OnTime clk now ev) := by
  cases ev <;> unfold OnTime <;> infer_instance

instance decidableFollows : ∀ (w : SubnetWorker) (t : Nat) (evs : List (Nat × WorkerEvent)),
    Decidable (w.Follows clk t evs)
  | _, _, [] => inferInstanceAs (Decidable True)
  | w, _, (now, ev) :: evs =>
      have := decidableFollows (w.step clk now ev) now evs
      inferInstanceAs (Decidable (_ ∧ _ ∧ _ ∧ _))

theorem run_append (w : SubnetWorker) (evs evs' : List (Nat × WorkerEvent)) :
    w.run clk (evs ++ evs') = (w.run clk evs).run clk evs' := by
  induction evs generalizing w with
  | nil => rfl
  | cons e evs ih => exact ih (w.step clk e.1 e.2)

/-- The last time of a run that begins at `t`. -/
def lastTime : Nat → List (Nat × WorkerEvent) → Nat
  | t, [] => t
  | _, (now, _) :: evs => lastTime now evs

theorem follows_append {w : SubnetWorker} {t : Nat} {evs evs' : List (Nat × WorkerEvent)} :
    w.Follows clk t (evs ++ evs') ↔
      w.Follows clk t evs ∧ (w.run clk evs).Follows clk (lastTime t evs) evs' := by
  induction evs generalizing w t with
  | nil => exact ⟨fun h => ⟨trivial, h⟩, And.right⟩
  | cons e evs ih =>
    constructor
    · rintro ⟨hex, ht, hon, h⟩
      obtain ⟨h1, h2⟩ := ih.mp h
      exact ⟨⟨hex, ht, hon, h1⟩, h2⟩
    · rintro ⟨⟨hex, ht, hon, h1⟩, h2⟩
      exact ⟨hex, ht, hon, ih.mpr ⟨h1, h2⟩⟩

/-! ## The rounds a worker owns -/

/-- The last round begun: the drain round is not. -/
def owned : Nat := w.drainCap.getD w.round

/-- A worker that has followed the clock since it started in round `first`, at time `t`. -/
structure Tracks (first : Nat) (w : SubnetWorker) (t : Nat) : Prop where
  base : clk.baseRound ≤ first
  onClock : w.exited = false → clk.roundAt t = w.round
  first_le : first ≤ w.owned
  owned_le : w.owned ≤ w.round
  mem_begun : ∀ r, r ∈ w.begun ↔ first ≤ r ∧ r ≤ w.owned
  final_ge : ∀ f ∈ w.finalRound, w.owned ≤ f
  drained : w.drainCap ≠ none → ∃ f ∈ w.finalRound, w.owned = f
  done : w.exited = true → ∃ f ∈ w.finalRound, w.owned = f

theorem tracks_start (server : Bool) (coverRate : U32) (now : Nat) :
    Tracks clk (clk.roundAt now) (start clk server coverRate now) now where
  base := clk.baseRound_le_roundAt now
  onClock := fun _ => rfl
  first_le := Nat.le_refl _
  owned_le := Nat.le_refl _
  mem_begun := by
    intro r
    rw [start, List.mem_singleton]
    exact ⟨fun h => h ▸ ⟨Nat.le_refl _, Nat.le_refl _⟩, fun h => Nat.le_antisymm h.2 h.1⟩
  final_ge := nofun
  drained := fun h => absurd rfl h
  done := nofun

variable {clk} {first t now : Nat} {w}

/-- A message arrives in the round the worker is in. -/
theorem Tracks.roundAt_stage {msg : StageMsg} (h : Tracks clk first w t)
    (hex : w.exited = false) (ht : t ≤ now) (hon : w.OnTime clk now (.stage msg)) :
    clk.roundAt now = w.round := by
  have hbase : clk.baseRound ≤ w.round := h.base.trans (h.first_le.trans h.owned_le)
  have hge : clk.roundAt t ≤ clk.roundAt now := clk.roundAt_mono ht
  have hle : clk.roundAt now ≤ w.round := (clk.roundAt_le_iff hbase).mpr hon
  have hcl := h.onClock hex
  omega

theorem Tracks.roundAt_deadline (h : Tracks clk first w t)
    (hon : w.OnTime clk now .deadline) : clk.roundAt now = w.round + 1 :=
  clk.roundAt_eq_succ (h.base.trans (h.first_le.trans h.owned_le)) hon.1 hon.2

theorem Tracks.atStage {msg : StageMsg} (h : Tracks clk first w t)
    (hex : w.exited = false) (ht : t ≤ now) (hon : w.OnTime clk now (.stage msg)) :
    Tracks clk first (w.atStage msg) now := by
  have hround := h.roundAt_stage hex ht hon
  cases msg with
  | setCoverRate rate =>
    exact ⟨h.base, fun _ => hround, h.first_le, h.owned_le, h.mem_begun, h.final_ge, h.drained,
      h.done⟩
  | shutdown =>
    -- A second `Shutdown` keeps the final round of the first.
    cases hf : w.finalRound with
    | some f =>
      have hsame : w.atStage .shutdown = w := by
        obtain ⟨⟩ := w
        cases hf
        rfl
      rw [hsame]
      exact { h with onClock := fun _ => hround }
    | none =>
      have hnd : w.drainCap = none := by
        by_contra hd
        obtain ⟨f, hmem, -⟩ := h.drained hd
        rw [hf] at hmem
        cases hmem
      have howned : w.owned = w.round := by rw [owned, hnd]; rfl
      refine ⟨h.base, fun _ => hround, h.first_le, h.owned_le, h.mem_begun, ?_,
        fun hd => absurd hnd hd, fun hx => absurd (hex.symm.trans hx) (by decide)⟩
      intro f hmem
      have hfin : f = w.round + 1 := by
        have heq : (w.atStage .shutdown).finalRound = some (w.round + 1) := by
          show some (w.finalRound.getD _) = _
          rw [hf]
          rfl
        rw [heq] at hmem
        exact (Option.some.inj hmem).symm
      show w.owned ≤ f
      omega

theorem Tracks.atDeadline (h : Tracks clk first w t)
    (hex : w.exited = false) (hon : w.OnTime clk now .deadline) :
    Tracks clk first (w.atDeadline clk now) now := by
  have hround := h.roundAt_deadline hon
  have hnext : w.nextRound clk now = w.round + 1 := by
    rw [nextRound, hround]
    exact Nat.max_self _
  rw [SubnetWorker.atDeadline, hnext]
  by_cases hd : w.drainCap = none
  · have hnone : ¬ w.drainCap.isSome = true := by
      rw [hd]
      decide
    have howned : w.owned = w.round := by rw [owned, hd]; rfl
    by_cases hf : w.finalRound.any (fun f => decide (f ≤ w.round)) = true
    · -- The final round is over: it is this one, since none was begun past it.
      rw [if_neg hnone, if_pos hf]
      have hfin : ∃ f ∈ w.finalRound, w.owned = f := by
        obtain ⟨f, hmem, hle⟩ := Option.any_eq_true _ _ |>.mp hf
        have hge := h.final_ge f hmem
        exact ⟨f, hmem, by have := of_decide_eq_true hle; omega⟩
      by_cases hs : w.server = true
      · rw [if_pos hs]
        refine ⟨h.base, fun _ => hround, ?_, Nat.le_succ _, ?_, ?_, fun _ => ?_, fun _ => ?_⟩
        · exact howned ▸ h.first_le
        · exact howned ▸ h.mem_begun
        · exact howned ▸ h.final_ge
        · exact howned ▸ hfin
        · exact howned ▸ hfin
      · rw [if_neg hs]
        exact ⟨h.base, nofun, h.first_le, h.owned_le, h.mem_begun, h.final_ge, h.drained,
          fun _ => hfin⟩
    · rw [if_neg hnone, if_neg hf, beginRound]
      -- the next round is begun, which no final round lies before
      have hlt : ∀ f ∈ w.finalRound, w.round < f := by
        intro f hmem
        by_contra hle
        refine hf (Option.any_eq_true _ _ |>.mpr ⟨f, hmem, decide_eq_true (by omega)⟩)
      refine ⟨h.base, fun _ => hround, ?_, ?_, ?_, ?_, fun hx => absurd hd hx,
        fun hx => absurd (hex.symm.trans hx) (by decide)⟩
      · show first ≤ w.drainCap.getD (w.round + 1)
        rw [hd]
        exact (howned ▸ h.first_le).trans (Nat.le_succ _)
      · show w.drainCap.getD (w.round + 1) ≤ w.round + 1
        rw [hd]
        exact Nat.le_refl _
      · intro r
        show r ∈ w.begun ++ [w.round + 1] ↔ first ≤ r ∧ r ≤ w.drainCap.getD (w.round + 1)
        have hfirst : first ≤ w.round := howned ▸ h.first_le
        rw [hd, List.mem_append, List.mem_singleton, h.mem_begun, howned]
        show _ ↔ first ≤ r ∧ r ≤ w.round + 1
        omega
      · intro f hmem
        show w.drainCap.getD (w.round + 1) ≤ f
        rw [hd]
        exact hlt f hmem
  -- a draining worker ends with the round it was to drain
  · have hsome : w.drainCap.isSome = true := Option.isSome_iff_ne_none.mpr hd
    rw [if_pos hsome]
    exact ⟨h.base, nofun, h.first_le, h.owned_le, h.mem_begun, h.final_ge, h.drained,
      fun _ => h.drained hd⟩

/-- What a worker that follows the clock does in one turn keeps it on the clock. -/
theorem Tracks.step {ev : WorkerEvent} (h : Tracks clk first w t)
    (hex : w.exited = false) (ht : t ≤ now) (hon : w.OnTime clk now ev) :
    Tracks clk first (w.step clk now ev) now := by
  cases ev with
  | deadline => exact h.atDeadline hex hon
  | stage msg => exact h.atStage hex ht hon

theorem Tracks.run {evs : List (Nat × WorkerEvent)} (h : Tracks clk first w t)
    (hrun : w.Follows clk t evs) : Tracks clk first (w.run clk evs) (lastTime t evs) := by
  induction evs generalizing w t with
  | nil => exact h
  | cons e evs ih =>
    obtain ⟨hex, ht, hon, hrest⟩ := hrun
    exact ih (h.step hex ht hon) hrest

/-! ## When the final round is set -/

theorem finalRound_atDeadline : (w.atDeadline clk now).finalRound = w.finalRound := by
  rw [SubnetWorker.atDeadline, beginRound]
  split
  · rfl
  · split
    · split <;> rfl
    · rfl

/-- Without a `Shutdown` there is no final round. -/
theorem finalRound_run_none {evs : List (Nat × WorkerEvent)} (hf : w.finalRound = none)
    (hno : ∀ e ∈ evs, e.2 ≠ .stage .shutdown) : (w.run clk evs).finalRound = none := by
  induction evs generalizing w with
  | nil => exact hf
  | cons e evs ih =>
    refine ih ?_ (fun d hd => hno d (List.mem_cons_of_mem _ hd))
    obtain ⟨now, ev⟩ := e
    cases ev with
    | deadline => exact finalRound_atDeadline.trans hf
    | stage msg =>
      cases msg with
      | setCoverRate rate => exact hf
      | shutdown => exact absurd rfl (hno (now, .stage .shutdown) List.mem_cons_self)

/-- The first `Shutdown` decides. -/
theorem finalRound_run_some {f : Nat} {evs : List (Nat × WorkerEvent)}
    (hf : w.finalRound = some f) : (w.run clk evs).finalRound = some f := by
  induction evs generalizing w with
  | nil => exact hf
  | cons e evs ih =>
    refine ih ?_
    obtain ⟨now, ev⟩ := e
    cases ev with
    | deadline => exact finalRound_atDeadline.trans hf
    | stage msg =>
      cases msg with
      | setCoverRate rate => exact hf
      | shutdown =>
        show some (w.finalRound.getD _) = _
        rw [hf]
        rfl

end SubnetWorker
end Anymone
