import Anymone.SubnetWorker

/-! # Reconfiguration

`apply_config` spawns a replacement, which reads the clock and arms itself, and only
then tells the running worker to shut down.  The boundary between the two is computed
from two readings of the clock: by the replacement from the time it was spawned at, by
the running worker from the round in which it takes the `Shutdown`.
-/

namespace Anymone
open SubnetWorker

/-- One cutover under the round clock: a running worker, told to shut down at `t2`, runs
until it exits; its replacement arms at `t1`, wakes, and runs for as long as it is
looked at. -/
structure Cutover (clk : RoundClock) where
  /-- When the running worker began its first round. -/
  startedAt : Nat
  server : Bool
  coverRate : U32
  before : List (Nat × WorkerEvent)
  t2 : Nat
  after : List (Nat × WorkerEvent)
  /-- The clock as `arm_until_cutover` reads it. -/
  t1 : Nat
  server' : Bool
  coverRate' : U32
  waiting : List ArmEvent
  /-- The clock as the replacement reads it when its wait is over. -/
  wokeAt : Nat
  later : List (Nat × WorkerEvent)

namespace Cutover
variable {clk : RoundClock} (c : Cutover clk)

/-- The running worker as it starts. -/
def running : SubnetWorker := start clk c.server c.coverRate c.startedAt

/-- The running worker's turns. -/
def turns : List (Nat × WorkerEvent) := c.before ++ (c.t2, .stage .shutdown) :: c.after

/-- The outgoing worker once its turns are over. -/
def outgoing : SubnetWorker := c.running.run clk c.turns

/-- The replacement as it enters its loop, with the cover rate that reached it while armed. -/
def armed : SubnetWorker :=
  start clk c.server' (armUntilCutover c.coverRate' c.waiting).2 c.wokeAt

/-- The replacement after the turns that are looked at. -/
def replacement : SubnetWorker := c.armed.run clk c.later

/-- What makes the two runs a cutover in which both workers follow the round clock. -/
structure Valid : Prop where
  order : c.t1 ≤ c.t2
  /-- The worker that is replaced was running when its replacement was spawned. -/
  startedBefore : c.startedAt ≤ c.t1
  first : ∀ e ∈ c.before, e.2 ≠ .stage .shutdown
  follows : c.running.Follows clk c.startedAt c.turns
  exited : c.outgoing.exited = true
  /-- The replacement is not itself replaced while it waits. -/
  waited : (armUntilCutover c.coverRate' c.waiting).1 = some true
  /-- The sleep of `arm_until_cutover` ends on time. -/
  woke : clk.deadlineFor (clk.roundAt c.t1 + 1) c.t1 ≤ c.wokeAt
  wokeOnTime : c.wokeAt < clk.boundaryMs (clk.roundAt c.t1 + 2)
  laterFollows : c.armed.Follows clk c.wokeAt c.later

instance : Decidable c.Valid :=
  decidable_of_iff (c.t1 ≤ c.t2 ∧ c.startedAt ≤ c.t1 ∧
      (∀ e ∈ c.before, e.2 ≠ .stage .shutdown) ∧ c.running.Follows clk c.startedAt c.turns ∧
      c.outgoing.exited = true ∧ (armUntilCutover c.coverRate' c.waiting).1 = some true ∧
      clk.deadlineFor (clk.roundAt c.t1 + 1) c.t1 ≤ c.wokeAt ∧
      c.wokeAt < clk.boundaryMs (clk.roundAt c.t1 + 2) ∧ c.armed.Follows clk c.wokeAt c.later)
    ⟨fun ⟨h1, h2, h3, h4, h5, h6, h7, h8, h9⟩ => ⟨h1, h2, h3, h4, h5, h6, h7, h8, h9⟩,
      fun ⟨h1, h2, h3, h4, h5, h6, h7, h8, h9⟩ => ⟨h1, h2, h3, h4, h5, h6, h7, h8, h9⟩⟩

/-- No round is begun by both workers, and none between the outgoing worker's last and
the replacement's first is skipped. -/
def OneOwner : Prop :=
  (∀ r ∈ c.outgoing.begun, r ∉ c.replacement.begun) ∧
  ¬ ∃ r, (∀ b ∈ c.outgoing.begun, b < r) ∧ ∀ b ∈ c.replacement.begun, r < b

variable {c}

/-- The outgoing worker begins every round from its first to the one after the round it
takes the `Shutdown` in, and no other. -/
theorem mem_outgoing (h : c.Valid) (r : Nat) :
    r ∈ c.outgoing.begun ↔ clk.roundAt c.startedAt ≤ r ∧ r ≤ clk.roundAt c.t2 + 1 := by
  obtain ⟨hbefore, hex, hle, hon, hafter⟩ := (follows_append clk).mp h.follows
  have hstart := tracks_start clk c.server c.coverRate c.startedAt
  have hpre := hstart.run hbefore
  have hround := hpre.roundAt_stage hex hle hon
  have hnone : (c.running.run clk c.before).finalRound = none :=
    finalRound_run_none rfl h.first
  have hset : ((c.running.run clk c.before).step clk c.t2 (.stage .shutdown)).finalRound =
      some (clk.roundAt c.t2 + 1) := by
    show some ((c.running.run clk c.before).finalRound.getD _) = _
    rw [hnone, hround]
    rfl
  have hfinal : c.outgoing.finalRound = some (clk.roundAt c.t2 + 1) := by
    rw [outgoing, turns, run_append, SubnetWorker.run]
    exact finalRound_run_some hset
  have hall : Tracks clk _ c.outgoing _ := hstart.run h.follows
  obtain ⟨f, hf, howned⟩ := hall.done h.exited
  rw [hfinal] at hf
  rw [hall.mem_begun, howned, ← Option.some.inj hf]

/-- The replacement's first round is the second one after the round it was spawned in. -/
theorem first_replacement (h : c.Valid) :
    clk.roundAt c.t1 + 2 ∈ c.replacement.begun ∧
      ∀ b ∈ c.replacement.begun, clk.roundAt c.t1 + 2 ≤ b := by
  have hbase := clk.baseRound_le_roundAt c.t1
  have hlo : clk.boundaryMs (clk.roundAt c.t1 + 1) ≤ c.wokeAt := by
    have := h.woke
    rw [RoundClock.deadlineFor] at this
    omega
  have hwoke : clk.roundAt c.wokeAt = clk.roundAt c.t1 + 2 :=
    clk.roundAt_eq_succ (by omega) hlo h.wokeOnTime
  have hall : Tracks clk _ c.replacement _ := (tracks_start clk _ _ c.wokeAt).run h.laterFollows
  rw [hwoke] at hall
  exact ⟨(hall.mem_begun _).mpr ⟨Nat.le_refl _, hall.first_le⟩,
    fun b hb => ((hall.mem_begun b).mp hb).1⟩

/-- **Across a cutover every round has one owner exactly when no round boundary falls
between the replacement's reading of the clock and the `Shutdown`.** -/
theorem oneOwner_iff (h : c.Valid) :
    c.OneOwner ↔ clk.roundAt c.t1 = clk.roundAt c.t2 := by
  obtain ⟨hmem, hfirst⟩ := first_replacement h
  have hmono := clk.roundAt_mono h.order
  have hstart := clk.roundAt_mono h.startedBefore
  constructor
  · rintro ⟨hdisj, -⟩
    by_contra hne
    -- The replacement's first round is one the outgoing worker still owns.
    exact hdisj _ ((mem_outgoing h _).mpr ⟨by omega, by omega⟩) hmem
  · intro heq
    refine ⟨fun r hout hrep => ?_, fun ⟨r, hlast, hnext⟩ => ?_⟩
    · have hle := ((mem_outgoing h r).mp hout).2
      have hge := hfirst r hrep
      omega
    · have hlt := hlast (clk.roundAt c.t2 + 1) ((mem_outgoing h _).mpr ⟨by omega, by omega⟩)
      have hgt := hnext _ hmem
      omega

/-! ## Two cutovers -/

/-- Rounds of ten milliseconds from time zero. -/
def tenMs : RoundClock := ⟨0, 0, 10, by decide⟩

/-- A relay runs from time three; its replacement arms at time nine, and the `Shutdown`
is taken at `t2`. -/
def relayCutover (t2 : Nat) (before after : List (Nat × WorkerEvent)) : Cutover tenMs :=
  { startedAt := 3, server := true, coverRate := 0, before, t2, after, t1 := 9, server' := true,
    coverRate' := 0, waiting := [.stage (.setCoverRate 1), .elapsed], wokeAt := 20,
    later := [(30, .deadline)] }

/-- The `Shutdown` is taken in the round the replacement was spawned in. -/
def promptCutover : Cutover tenMs :=
  relayCutover 9 [] [(10, .deadline), (20, .deadline), (30, .deadline)]

/-- A boundary passes in between: the loop that spawns workers waits for a subscription. -/
def lateCutover : Cutover tenMs :=
  relayCutover 11 [(10, .deadline)] [(20, .deadline), (30, .deadline), (40, .deadline)]

theorem oneOwner_prompt : promptCutover.Valid ∧ promptCutover.OneOwner :=
  ⟨by decide, (oneOwner_iff (by decide)).mpr (by decide)⟩

/-- Both workers begin round two. -/
theorem late_shutdown_shares_round :
    lateCutover.Valid ∧ 2 ∈ lateCutover.outgoing.begun ∧ 2 ∈ lateCutover.replacement.begun ∧
      ¬ lateCutover.OneOwner := by
  have hboth : 2 ∈ lateCutover.outgoing.begun ∧ 2 ∈ lateCutover.replacement.begun := by decide
  exact ⟨by decide, hboth.1, hboth.2, fun h => h.1 2 hboth.1 hboth.2⟩

end Cutover
end Anymone
