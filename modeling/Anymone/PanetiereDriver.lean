import Anymone.ConfigBounds
import Anymone.Cutover
import Anymone.PanetiereOnce

/-! # The driver of a Panetière subnet

A relay's worker begins a round, fires the checkpoints of a schedule, ends the round and hands
every message on as it arrives; before it fires a timer it hands on what has arrived already.
Its loop asks the checkpoint timer first, then the timer of the round.

The driver is the `SubnetWorker` with its two timers and the calls it makes to the relay's
session, oldest first.  What arrives, what the worker's other sessions send, which the driver
hands to the relay's too, and when the loop turns are up to the run.
-/

namespace Anymone

/-- `checkpoint_schedule`: the checkpoints, with their offsets from the start of a round. -/
def checkpointSchedule (durMs : Nat) (quarters : Bool) : Option Nat → List (U8 × Nat)
  | some rounds =>
      let n := consensusPhases + rounds
      (List.range n).map (fun i => (Fin.ofNat 256 (i + 1), (i + 1) * durMs / (n + 1)))
  | none =>
      if quarters then [(1, durMs / 4), (2, durMs / 2), (3, 3 * durMs / 4)]
      else [(1, durMs / 2), (2, durMs)]

/-- What the driver hands to the relay's session. -/
inductive Handed where
  | outside (sender : PeerId) (payload : Bytes)
  /-- The output of another session of the worker. -/
  | looped (payload : Bytes)
  deriving DecidableEq

/-- What a turn of the loop finds; `looped` is what the other sessions send after a call. -/
inductive DriverEvent where
  | checkpoint (arrived : List Handed) (looped : List Bytes)
  /-- The end of the round; `mode` and `begun` are for the start of the next. -/
  | deadline (arrived : List Handed) (looped : List Bytes) (mode : Option Misbehavior)
      (begun : List Bytes)
  | message (heard : List Handed)
  | stage (msg : StageMsg)
  deriving DecidableEq

/-- What the driver of a relay is started with. -/
structure DriverConfig where
  clock : RoundClock
  quarters : Bool
  /-- `relay_rounds` of a consensus subnet. -/
  consensusRounds : Option Nat
  me : PeerId

/-- `schedule`. -/
def DriverConfig.schedule (cfg : DriverConfig) : List (U8 × Nat) :=
  checkpointSchedule cfg.clock.durMs cfg.quarters cfg.consensusRounds

/-- The locals of `run_subnet`, and the calls to the relay's session. -/
structure PanetiereDriver extends SubnetWorker where
  deadline : Nat
  cp : Nat
  calls : List SessionOp

/-- `wire_round_past`. -/
def wireRoundPast (payload : Bytes) (cap : Nat) : Bool :=
  (PanetiereWire.deserialize payload).any (fun msg => decide (cap < msg.round.val))

namespace PanetiereDriver

/-- A round on the wire. -/
def label (round : Nat) : Round := Fin.ofNat 18446744073709551616 round

variable (cfg : DriverConfig) (d : PanetiereDriver)

/-- What reaches the session: a draining worker has no other session, and takes nothing of a
round after its last. -/
def hears (heard : List Handed) : List SessionOp :=
  heard.filterMap (fun
    | .outside sender payload =>
        if d.drainCap.any (wireRoundPast payload) then none else some (.inbound sender payload)
    | .looped payload => if d.drainCap.isSome then none else some (.inbound cfg.me payload))

/-- The calls that begin a round. -/
def opening (round : Nat) (mode : Option Misbehavior) (begun : List Bytes) : List SessionOp :=
  [.setMisbehavior mode, .beginRound (label round)] ++ begun.map (.inbound cfg.me)

/-- `run_subnet` of a relay up to its loop. -/
def start (coverRate : U32) (nowMs : Nat) (mode : Option Misbehavior) (begun : List Bytes) :
    PanetiereDriver :=
  let w := SubnetWorker.start cfg.clock true coverRate nowMs
  ⟨w, cfg.clock.deadlineFor w.round nowMs, 0, opening cfg w.round mode begun⟩

/-- `checkpoint_deadline`. -/
def checkpointDeadline : Nat :=
  d.deadline - (cfg.clock.durMs - (cfg.schedule[d.cp]?.elim cfg.clock.durMs Prod.snd))

/-- The checkpoint arm. -/
def atCheckpoint (arrived : List Handed) (looped : List Bytes) : PanetiereDriver :=
  match cfg.schedule[d.cp]? with
  | none => d
  | some (k, _) =>
      { d with
        cp := d.cp + 1
        calls := d.calls ++ d.hears cfg arrived ++ [.checkpoint (label d.round) k] ++
          d.hears cfg (looped.map .looped) }

/-- The calls that end a round. -/
def ending (arrived : List Handed) (looped : List Bytes) : List SessionOp :=
  d.hears cfg arrived ++ [.endRound (label d.round)] ++ d.hears cfg (looped.map .looped)

/-- The deadline arm. -/
def atEnd (nowMs : Nat) (arrived : List Handed) (looped : List Bytes) (mode : Option Misbehavior)
    (begun : List Bytes) : PanetiereDriver :=
  let w := d.toSubnetWorker.atDeadline cfg.clock nowMs
  { toSubnetWorker := w
    deadline := cfg.clock.deadlineFor w.round nowMs
    cp := 0
    calls := d.calls ++ d.ending cfg arrived looped ++
      if w.drainCap.isSome then [] else opening cfg w.round mode begun }

/-- One turn of the loop. -/
def step (nowMs : Nat) : DriverEvent → PanetiereDriver
  | .checkpoint arrived looped => d.atCheckpoint cfg arrived looped
  | .deadline arrived looped mode begun => d.atEnd cfg nowMs arrived looped mode begun
  | .message heard => { d with calls := d.calls ++ d.hears cfg heard }
  | .stage msg => { d with toSubnetWorker := d.toSubnetWorker.atStage msg }

/-- The driver after a run. -/
def after (evs : List (Nat × DriverEvent)) : PanetiereDriver :=
  Trace.run d (fun d ev => d.step cfg ev.1 ev.2) evs

/-- The checkpoint timer has fired. -/
def CheckpointDue (nowMs : Nat) : Prop :=
  d.cp < cfg.schedule.length ∧ d.checkpointDeadline cfg ≤ nowMs

/-- The loop turns so: of two timers that are over it takes the checkpoint's. -/
def Turns (nowMs : Nat) : DriverEvent → Prop
  | .checkpoint .. => d.CheckpointDue cfg nowMs
  | .deadline .. => d.deadline ≤ nowMs ∧ ¬ d.CheckpointDue cfg nowMs
  | _ => True

/-- A run of the loop, until it returns. -/
def Legal (evs : List (Nat × DriverEvent)) : Prop :=
  ∀ σ ∈ Trace.steps evs,
    (d.after cfg σ.1).exited = false ∧ (d.after cfg σ.1).Turns cfg σ.2.1 σ.2.2

instance (nowMs : Nat) : Decidable (d.CheckpointDue cfg nowMs) :=
  inferInstanceAs (Decidable (_ ∧ _))

instance (nowMs : Nat) (ev : DriverEvent) : Decidable (d.Turns cfg nowMs ev) := by
  cases ev <;> unfold Turns <;> infer_instance

instance (evs : List (Nat × DriverEvent)) : Decidable (d.Legal cfg evs) :=
  inferInstanceAs (Decidable (∀ _ ∈ _, _ ∧ _))

variable {cfg d}

theorem after_concat (evs : List (Nat × DriverEvent)) (e : Nat × DriverEvent) :
    d.after cfg (evs ++ [e]) = (d.after cfg evs).step cfg e.1 e.2 := Trace.run_concat ..

theorem Legal.of_isPrefix {l evs : List (Nat × DriverEvent)} (h : d.Legal cfg evs)
    (hl : l <+: evs) : d.Legal cfg l := fun σ hσ => h σ (Trace.mem_steps_mono hl hσ)

/-- The turn that ends a run. -/
theorem Legal.turn {evs : List (Nat × DriverEvent)} {e : Nat × DriverEvent}
    (h : d.Legal cfg (evs ++ [e])) :
    (d.after cfg evs).exited = false ∧ (d.after cfg evs).Turns cfg e.1 e.2 :=
  h (evs, e) (Trace.mem_steps.mpr ⟨[], rfl⟩)

/-- What a turn at the end of a round does to the worker of a relay. -/
theorem atDeadline_cases (w : SubnetWorker) (clk : RoundClock) (now : Nat)
    (hserver : w.server = true) :
    (w.drainCap.isSome ∧ w.atDeadline clk now = { w with exited := true }) ∨
    (w.drainCap = none ∧ w.atDeadline clk now =
      { w with drainCap := some w.round, round := w.nextRound clk now }) ∨
    (w.drainCap = none ∧ w.atDeadline clk now = w.beginRound (w.nextRound clk now)) := by
  unfold SubnetWorker.atDeadline
  cases hd : w.drainCap with
  | some cap => exact Or.inl ⟨rfl, rfl⟩
  | none =>
    by_cases hf : w.finalRound.any (fun f => f ≤ w.round) = true
    · refine Or.inr (Or.inl ⟨rfl, ?_⟩)
      rw [if_neg (by decide), if_pos hf, if_pos hserver]
    · refine Or.inr (Or.inr ⟨rfl, ?_⟩)
      rw [if_neg (by decide), if_neg hf]

/-- What a turn at the end of a round can do: the worker returns, enters the round in which it
drains, or begins the next round. -/
theorem atEnd_cases (now : Nat) (arrived : List Handed) (looped : List Bytes)
    (mode : Option Misbehavior) (begun : List Bytes) (hserver : d.server = true) :
    let next := d.nextRound cfg.clock now
    let ended := d.calls ++ d.ending cfg arrived looped
    (d.drainCap.isSome ∧ d.atEnd cfg now arrived looped mode begun =
      ⟨{ d.toSubnetWorker with exited := true }, cfg.clock.deadlineFor d.round now, 0, ended⟩) ∨
    (d.drainCap = none ∧ d.atEnd cfg now arrived looped mode begun =
      ⟨{ d.toSubnetWorker with drainCap := some d.round, round := next },
        cfg.clock.deadlineFor next now, 0, ended⟩) ∨
    (d.drainCap = none ∧ d.atEnd cfg now arrived looped mode begun =
      ⟨d.toSubnetWorker.beginRound next, cfg.clock.deadlineFor next now, 0,
        ended ++ opening cfg next mode begun⟩) := by
  unfold atEnd
  rcases atDeadline_cases d.toSubnetWorker cfg.clock now hserver with
    ⟨hdrain, heq⟩ | ⟨hdrain, heq⟩ | ⟨hdrain, heq⟩ <;> rw [heq] <;> dsimp only
  · exact Or.inl ⟨hdrain, by rw [if_pos hdrain, List.append_nil]⟩
  · exact Or.inr (Or.inl ⟨hdrain, by rw [Option.isSome_some, if_pos rfl, List.append_nil]⟩)
  · have hnone : ¬ (d.toSubnetWorker.beginRound
        (d.nextRound cfg.clock now)).drainCap.isSome = true := by
      show ¬ d.drainCap.isSome = true
      rw [hdrain]
      decide
    exact Or.inr (Or.inr ⟨hdrain, by rw [if_neg hnone]; rfl⟩)

theorem lt_nextRound (w : SubnetWorker) (clk : RoundClock) (now : Nat) :
    w.round < w.nextRound clk now := by
  unfold SubnetWorker.nextRound
  omega

theorem atStage_frame (w : SubnetWorker) (msg : StageMsg) :
    (w.atStage msg).round = w.round ∧ (w.atStage msg).drainCap = w.drainCap ∧
      (w.atStage msg).server = w.server ∧ (w.atStage msg).begun = w.begun ∧
      (w.atStage msg).exited = w.exited := by
  cases msg <;> exact ⟨rfl, rfl, rfl, rfl, rfl⟩

/-! ## Every round follows the schedule -/

/-- The calls that time a round. -/
def isMark : SessionOp → Bool
  | .beginRound _ | .checkpoint .. | .endRound _ => true
  | _ => false

variable (cfg d)

/-- The checkpoints of a round from the `n`th on, and its end. -/
def closing (round n : Nat) : List SessionOp :=
  (cfg.schedule.drop n).map (fun c => .checkpoint (label round) c.1) ++ [.endRound (label round)]

/-- The calls of a round. -/
def script (round : Nat) : List SessionOp := .beginRound (label round) :: closing cfg round 0

/-- The calls a round still needs. -/
def due : List SessionOp := if d.exited then [] else closing cfg d.round d.cp

/-- The calls of the rounds begun, and of the round in which a worker drains, which it does not
begin. -/
def scripts : List SessionOp :=
  d.begun.flatMap (script cfg) ++ if d.drainCap.isSome then closing cfg d.round 0 else []

/-- The calls so far and those still needed are the scripts of the rounds, which increase. -/
structure Scripted : Prop where
  server : d.server = true
  marks : d.calls.filter isMark ++ d.due cfg = d.scripts cfg
  increasing : d.begun.Pairwise (· < ·)
  begun_le : ∀ r ∈ d.begun, r ≤ d.round

variable {cfg d}

theorem filter_hears (heard : List Handed) : (d.hears cfg heard).filter isMark = [] := by
  refine List.filter_eq_nil_iff.mpr fun op hop => ?_
  obtain ⟨h, -, hh⟩ := List.mem_filterMap.mp hop
  cases h <;> dsimp only at hh <;> split at hh <;> cases hh <;> exact Bool.false_ne_true

theorem filter_inbound (sender : PeerId) (l : List Bytes) :
    (l.map (SessionOp.inbound sender)).filter isMark = [] := by
  refine List.filter_eq_nil_iff.mpr fun op hop => ?_
  obtain ⟨p, -, rfl⟩ := List.mem_map.mp hop
  exact Bool.false_ne_true

theorem filter_opening (round : Nat) (mode : Option Misbehavior) (begun : List Bytes) :
    (opening cfg round mode begun).filter isMark = [.beginRound (label round)] := by
  unfold opening
  rw [List.filter_append, filter_inbound]
  rfl

theorem filter_ending (arrived : List Handed) (looped : List Bytes) :
    (d.ending cfg arrived looped).filter isMark = [.endRound (label d.round)] := by
  unfold ending
  rw [List.filter_append, List.filter_append, filter_hears, filter_hears]
  rfl

theorem scripted_start (coverRate : U32) (nowMs : Nat) (mode : Option Misbehavior)
    (begun : List Bytes) : Scripted cfg (start cfg coverRate nowMs mode begun) := by
  refine ⟨rfl, ?_, List.pairwise_singleton .., fun r hr => (List.mem_singleton.mp hr).le⟩
  show (opening cfg _ mode begun).filter isMark ++ closing cfg _ 0 = _
  rw [filter_opening]
  simp [scripts, start, SubnetWorker.start, script]

theorem Scripted.checkpoint (h : Scripted cfg d) {now : Nat} {arrived : List Handed}
    {looped : List Bytes} (hex : d.exited = false) (hdue : d.CheckpointDue cfg now) :
    Scripted cfg (d.atCheckpoint cfg arrived looped) := by
  obtain ⟨hlt, -⟩ := hdue
  have hnext : cfg.schedule[d.cp]? = some cfg.schedule[d.cp] := List.getElem?_eq_getElem hlt
  have hclosing : closing cfg d.round d.cp =
      .checkpoint (label d.round) cfg.schedule[d.cp].1 :: closing cfg d.round (d.cp + 1) := by
    unfold closing
    rw [List.drop_eq_getElem_cons hlt]
    rfl
  have hmarks := h.marks
  unfold due at hmarks
  rw [hex, hclosing] at hmarks
  unfold atCheckpoint
  rw [hnext]
  refine ⟨h.server, ?_, h.increasing, h.begun_le⟩
  unfold due
  dsimp only
  rw [hex, List.filter_append, List.filter_append, List.filter_append, filter_hears, filter_hears]
  rw [List.append_nil, List.append_nil, List.append_assoc]
  exact hmarks

/-- When the timer of a round is asked, the checkpoints are over. -/
theorem Scripted.marks_of_ending (h : Scripted cfg d) {now : Nat} (hex : d.exited = false)
    (hdeadline : d.deadline ≤ now) (hdue : ¬ d.CheckpointDue cfg now) (arrived : List Handed)
    (looped : List Bytes) :
    (d.calls ++ d.ending cfg arrived looped).filter isMark = d.scripts cfg := by
  have hover : cfg.schedule.length ≤ d.cp := by
    by_contra hlt
    refine hdue ⟨by omega, ?_⟩
    unfold checkpointDeadline
    omega
  have hmarks := h.marks
  unfold due closing at hmarks
  rw [hex, List.drop_eq_nil_of_le hover] at hmarks
  rw [List.filter_append, filter_ending]
  exact hmarks

theorem Scripted.ended (h : Scripted cfg d) {now : Nat} {arrived : List Handed}
    {looped : List Bytes} {mode : Option Misbehavior} {begun : List Bytes}
    (hex : d.exited = false) (hdeadline : d.deadline ≤ now) (hdue : ¬ d.CheckpointDue cfg now) :
    Scripted cfg (d.atEnd cfg now arrived looped mode begun) := by
  have hmarks := h.marks_of_ending hex hdeadline hdue arrived looped
  have hlt := lt_nextRound d.toSubnetWorker cfg.clock now
  rcases atEnd_cases now arrived looped mode begun h.server with
    ⟨hdrain, heq⟩ | ⟨hdrain, heq⟩ | ⟨hdrain, heq⟩
  · -- The round in which the worker drained is over.
    rw [heq]
    refine ⟨h.server, ?_, h.increasing, h.begun_le⟩
    show List.filter isMark _ ++ [] = d.scripts cfg
    rw [hmarks, List.append_nil]
  · -- The worker enters the round in which it drains.
    rw [heq]
    refine ⟨h.server, ?_, h.increasing, fun r hr => (h.begun_le r hr).trans hlt.le⟩
    unfold due scripts at *
    dsimp only at *
    rw [hdrain] at hmarks
    rw [hmarks, hex]
    simp
  · -- The next round begins.
    rw [heq]
    refine ⟨h.server, ?_, ?_, ?_⟩
    · unfold due scripts SubnetWorker.beginRound at *
      dsimp only at *
      rw [hdrain] at hmarks
      rw [hdrain, hex, List.filter_append, hmarks]
      simp [filter_opening, script]
    · refine List.pairwise_append.mpr ⟨h.increasing, List.pairwise_singleton .., ?_⟩
      intro r hr r' hr'
      rw [List.mem_singleton.mp hr']
      exact (h.begun_le r hr).trans_lt hlt
    · intro r hr
      rcases List.mem_append.mp hr with hr | hr
      · exact (h.begun_le r hr).trans hlt.le
      · exact (List.mem_singleton.mp hr).le

theorem Scripted.step (h : Scripted cfg d) {now : Nat} {ev : DriverEvent}
    (hex : d.exited = false) (hturn : d.Turns cfg now ev) : Scripted cfg (d.step cfg now ev) := by
  cases ev with
  | checkpoint arrived looped => exact h.checkpoint hex hturn
  | deadline arrived looped mode begun => exact h.ended hex hturn.1 hturn.2
  | message heard =>
    refine ⟨h.server, ?_, h.increasing, h.begun_le⟩
    show (d.calls ++ d.hears cfg heard).filter isMark ++ d.due cfg = d.scripts cfg
    rw [List.filter_append, filter_hears, List.append_nil]
    exact h.marks
  | stage msg =>
    obtain ⟨hround, hdrain, hserver, hbegun, hexited⟩ := atStage_frame d.toSubnetWorker msg
    refine ⟨hserver.trans h.server, ?_, hbegun ▸ h.increasing, ?_⟩
    · show d.calls.filter isMark ++ due cfg { d with toSubnetWorker := d.atStage msg } =
        scripts cfg { d with toSubnetWorker := d.atStage msg }
      unfold due scripts
      dsimp only
      rw [hround, hdrain, hbegun, hexited]
      exact h.marks
    · show ∀ r ∈ (d.atStage msg).begun, r ≤ (d.atStage msg).round
      rw [hround, hbegun]
      exact h.begun_le

variable (cfg)

theorem scripted_after (coverRate : U32) (nowMs : Nat) (mode : Option Misbehavior)
    (begun : List Bytes) {evs : List (Nat × DriverEvent)}
    (hlegal : (start cfg coverRate nowMs mode begun).Legal cfg evs) :
    Scripted cfg ((start cfg coverRate nowMs mode begun).after cfg evs) := by
  induction evs using List.reverseRecOn with
  | nil => exact scripted_start coverRate nowMs mode begun
  | append_singleton evs e ih =>
    obtain ⟨hex, hturn⟩ := hlegal.turn
    rw [after_concat]
    exact (ih (hlegal.of_isPrefix (List.prefix_append evs [e]))).step hex hturn

/-- **Every round of a relay follows the schedule.**  At any moment of a run of the driver, its
calls that time a round, followed by those its round still needs, are for each round begun its
beginning, its checkpoints in the order of the schedule, each once, and its end; rounds begin in
increasing order.  The round in which a worker drains has the checkpoints and the end alone. -/
theorem rounds_follow_schedule (coverRate : U32) (nowMs : Nat) (mode : Option Misbehavior)
    (begun : List Bytes) (evs : List (Nat × DriverEvent))
    (hlegal : (start cfg coverRate nowMs mode begun).Legal cfg evs) :
    let d := (start cfg coverRate nowMs mode begun).after cfg evs
    d.calls.filter isMark ++ d.due cfg = d.scripts cfg ∧ d.begun.Pairwise (· < ·) :=
  ⟨(scripted_after cfg coverRate nowMs mode begun hlegal).marks,
    (scripted_after cfg coverRate nowMs mode begun hlegal).increasing⟩

/-- Rounds of ten milliseconds, with checkpoints in the middle and at the end. -/
def toyDriver : DriverConfig := ⟨Cutover.tenMs, false, none, toyNode 100⟩

/-- A late relay that is told to shut down in its second round: it begins one more round and
drains in the round after. -/
def toyTurns : List (Nat × DriverEvent) :=
  [(5, .checkpoint [.outside (toyNode 7) []] [[]]), (10, .checkpoint [] []),
    (10, .deadline [] [] none [[]]), (12, .stage .shutdown), (17, .checkpoint [] []),
    (31, .checkpoint [] []), (31, .deadline [] [] none []), (35, .checkpoint [] []),
    (38, .message [.outside (toyNode 7) [1], .looped [2]]), (40, .checkpoint [] []),
    (40, .deadline [] [] none []), (45, .checkpoint [] []), (50, .checkpoint [] []),
    (51, .deadline [] [] none [])]

theorem rounds_follow_schedule_toy :
    let d := (start toyDriver 0 3 none []).after toyDriver toyTurns
    d.exited = true ∧ d.begun = [0, 1, 3] ∧ d.calls.filter isMark ++ d.due toyDriver =
      d.scripts toyDriver ∧ d.begun.Pairwise (· < ·) :=
  ⟨by decide +kernel, by decide +kernel,
    rounds_follow_schedule toyDriver 0 3 none [] toyTurns (by decide +kernel)⟩

end PanetiereDriver

/-! ## The calls drive the session -/

namespace ServerSession
open Trace
variable {C : SessionCrate} (sc : ServerConfig C)

/-- A call that neither begins nor ends a round. -/
def isFree : SessionOp → Bool
  | .beginRound _ | .endRound _ => false
  | _ => true

variable {sc}

theorem curRound_apply (s : ServerSession C) {op : SessionOp} (hop : ∀ r, op ≠ .beginRound r) :
    (s.apply sc op).curRound = s.curRound := by
  cases op with
  | beginRound r => exact absurd rfl (hop r)
  | inbound sender payload =>
    show (s.onInbound sc sender payload).1.curRound = _
    rcases s.onInbound_cases sc sender payload with he | ⟨_, _, _, -, -, he⟩ | ⟨_, _, -, -, -, he⟩
    · rw [he]
    · rw [he]
      exact (s.adopt_rounds sc sender _ _).2
    · rw [he]
      rfl
  | checkpoint round k =>
    show (s.checkpoint sc round k).1.curRound = _
    unfold checkpoint publishBatch absorbRelays
    dsimp only
    repeat' split
    all_goals rfl
  | endRound round =>
    show ((s.settle sc round).1.emitServerPublics sc round).1.curRound = _
    rw [emit_frame]
    exact (s.settle_frame sc round).1
  | setMisbehavior mode => rfl

theorem curRound_append {ops l : List SessionOp} (hl : ∀ op ∈ l, isFree op = true) :
    (after sc (ops ++ l)).curRound = (after sc ops).curRound := by
  induction l using List.reverseRecOn with
  | nil => rw [List.append_nil]
  | append_singleton l op ih =>
    have hop := hl op (List.mem_append_right _ (List.mem_singleton_self op))
    rw [← List.append_assoc, after_concat, curRound_apply, ih fun o ho =>
      hl o (List.mem_append_left _ ho)]
    rintro r rfl
    cases hop

/-- Every call is timely. -/
def AllTimely (sc : ServerConfig C) (ops : List SessionOp) : Prop :=
  ∀ σ ∈ steps ops, (after sc σ.1).Timely σ.2

theorem AllTimely.concat {ops : List SessionOp} {op : SessionOp} (h : AllTimely sc ops)
    (hop : (after sc ops).Timely op) : AllTimely sc (ops ++ [op]) := by
  intro σ hσ
  rw [steps_concat] at hσ
  rcases List.mem_append.mp hσ with hσ | hσ
  · exact h σ hσ
  · rw [List.mem_singleton.mp hσ]
    exact hop

theorem AllTimely.append {ops l : List SessionOp} (h : AllTimely sc ops)
    (hl : ∀ op ∈ l, isFree op = true) : AllTimely sc (ops ++ l) := by
  induction l using List.reverseRecOn with
  | nil => rwa [List.append_nil]
  | append_singleton l op ih =>
    have hop := hl op (List.mem_append_right _ (List.mem_singleton_self op))
    rw [← List.append_assoc]
    refine (ih fun o ho => hl o (List.mem_append_left _ ho)).concat ?_
    cases op <;> trivial

end ServerSession

namespace PanetiereDriver
open ServerSession
variable {cfg : DriverConfig} {d : PanetiereDriver}

theorem free_hears (heard : List Handed) : ∀ op ∈ d.hears cfg heard, isFree op = true := by
  intro op hop
  obtain ⟨h, -, hh⟩ := List.mem_filterMap.mp hop
  cases h <;> dsimp only at hh <;> split at hh <;> cases hh <;> rfl

theorem free_inbound (sender : PeerId) (l : List Bytes) :
    ∀ op ∈ l.map (SessionOp.inbound sender), isFree op = true := by
  intro op hop
  obtain ⟨p, -, rfl⟩ := List.mem_map.mp hop
  rfl

/-- A draining worker has no other session to listen to. -/
theorem hears_looped (hdrain : d.drainCap.isSome) (looped : List Bytes) :
    d.hears cfg (looped.map .looped) = [] := by
  unfold hears
  rw [List.filterMap_map]
  refine List.filterMap_eq_nil_iff.mpr fun p _ => ?_
  exact if_pos hdrain

theorem label_lt {r r' : Nat} (h : r < r') (hwrap : r' < 18446744073709551616) :
    label r < label r' := by
  show r % 18446744073709551616 < r' % 18446744073709551616
  omega

theorem round_le_step (hserver : d.server = true) (now : Nat) (ev : DriverEvent) :
    d.round ≤ (d.step cfg now ev).round := by
  cases ev with
  | checkpoint arrived looped =>
    show d.round ≤ (d.atCheckpoint cfg arrived looped).round
    unfold atCheckpoint
    split <;> exact le_refl _
  | deadline arrived looped mode begun =>
    have hlt := lt_nextRound d.toSubnetWorker cfg.clock now
    show d.round ≤ (d.toSubnetWorker.atDeadline cfg.clock now).round
    rcases atDeadline_cases d.toSubnetWorker cfg.clock now hserver with
      ⟨-, heq⟩ | ⟨-, heq⟩ | ⟨-, heq⟩ <;> rw [heq]
    · exact hlt.le
    · exact hlt.le
  | message heard => exact le_refl _
  | stage msg => exact (atStage_frame d.toSubnetWorker msg).1.ge

variable {C : SessionCrate} {sc : ServerConfig C}

/-- The calls are timely until the worker returns, and the session is in the last round begun. -/
structure Driving (sc : ServerConfig C) (d : PanetiereDriver) : Prop where
  timely : d.exited = false → AllTimely sc d.calls
  current : d.exited = false → (ServerSession.after sc d.calls).curRound = some (label d.owned)
  driven : Driven sc d.calls

/-- While the worker goes on. -/
theorem Driving.of_timely (htimely : AllTimely sc d.calls)
    (hcurrent : (ServerSession.after sc d.calls).curRound = some (label d.owned)) :
    Driving sc d := ⟨fun _ => htimely, fun _ => hcurrent, fun σ hσ => Or.inl (htimely σ hσ)⟩

variable (cfg)

/-- A beginning after calls that left the session in an earlier round. -/
theorem timely_opening {ops : List SessionOp} {round : Nat} (h : AllTimely sc ops)
    (hround : ∀ c, (ServerSession.after sc ops).curRound = some c → c < label round)
    (mode : Option Misbehavior) (begun : List Bytes) :
    AllTimely sc (ops ++ opening cfg round mode begun) ∧
      (ServerSession.after sc (ops ++ opening cfg round mode begun)).curRound =
        some (label round) := by
  have hset : AllTimely sc (ops ++ [.setMisbehavior mode]) := h.concat trivial
  have hbegin : AllTimely sc (ops ++ [.setMisbehavior mode] ++ [.beginRound (label round)]) := by
    refine hset.concat fun c hc => hround c ?_
    rw [ServerSession.after_concat] at hc
    exact hc
  have heq : ops ++ opening cfg round mode begun =
      ops ++ [.setMisbehavior mode] ++ [.beginRound (label round)] ++
        begun.map (.inbound cfg.me) := by
    unfold opening
    simp
  rw [heq]
  refine ⟨hbegin.append (free_inbound cfg.me begun), ?_⟩
  rw [curRound_append (free_inbound cfg.me begun), ServerSession.after_concat]
  rfl

theorem driving_start (coverRate : U32) (nowMs : Nat) (mode : Option Misbehavior)
    (begun : List Bytes) : Driving sc (start cfg coverRate nowMs mode begun) := by
  have hempty : AllTimely sc [] := fun σ hσ => by cases hσ
  obtain ⟨htimely, hcurrent⟩ := timely_opening cfg hempty
    (fun c hc => by cases hc) mode begun
  exact .of_timely htimely hcurrent

theorem Driving.heard (h : Driving sc d) (hex : d.exited = false) (heard : List Handed) :
    AllTimely sc (d.calls ++ d.hears cfg heard) ∧
      (ServerSession.after sc (d.calls ++ d.hears cfg heard)).curRound = some (label d.owned) :=
  ⟨(h.timely hex).append (free_hears heard), (curRound_append (free_hears heard)).trans
    (h.current hex)⟩

/-- The end of a round the worker has begun. -/
theorem Driving.ending (h : Driving sc d) (hex : d.exited = false) (hdrain : d.drainCap = none)
    (arrived : List Handed) (looped : List Bytes) :
    AllTimely sc (d.calls ++ d.ending cfg arrived looped) ∧
      (ServerSession.after sc (d.calls ++ d.ending cfg arrived looped)).curRound =
        some (label d.round) := by
  obtain ⟨htimely, hcurrent⟩ := h.heard cfg hex arrived
  have howned : d.owned = d.round := by
    unfold SubnetWorker.owned
    rw [hdrain]
    rfl
  rw [howned] at hcurrent
  have hended : AllTimely sc (d.calls ++ d.hears cfg arrived ++ [.endRound (label d.round)]) :=
    htimely.concat ⟨_, hcurrent, le_refl _⟩
  have heq : d.calls ++ d.ending cfg arrived looped =
      d.calls ++ d.hears cfg arrived ++ [.endRound (label d.round)] ++
        d.hears cfg (looped.map .looped) := by
    unfold PanetiereDriver.ending
    simp
  rw [heq]
  refine ⟨hended.append (free_hears _), ?_⟩
  rw [curRound_append (free_hears _), ServerSession.after_concat, curRound_apply _ (by simp)]
  exact hcurrent

variable {cfg}

theorem Driving.ended (h : Driving sc d) {now : Nat} {arrived : List Handed} {looped : List Bytes}
    {mode : Option Misbehavior} {begun : List Bytes} (hserver : d.server = true)
    (hex : d.exited = false)
    (hwrap : (d.atEnd cfg now arrived looped mode begun).round < 18446744073709551616) :
    Driving sc (d.atEnd cfg now arrived looped mode begun) := by
  have hlt := lt_nextRound d.toSubnetWorker cfg.clock now
  rcases atEnd_cases now arrived looped mode begun hserver with
    ⟨hdrain, heq⟩ | ⟨hdrain, heq⟩ | ⟨hdrain, heq⟩
  · -- The last call ends a round the session did not begin.
    have hheard := (h.heard cfg hex arrived).1
    rw [heq]
    refine Driving.mk (fun hx => Bool.noConfusion hx) (fun hx => Bool.noConfusion hx) ?_
    dsimp only
    unfold PanetiereDriver.ending
    rw [hears_looped hdrain, List.append_nil, ← List.append_assoc]
    intro σ hσ
    rw [Trace.steps_concat] at hσ
    rcases List.mem_append.mp hσ with hσ | hσ
    · exact Or.inl (hheard σ hσ)
    · rw [List.mem_singleton.mp hσ]
      exact Or.inr ⟨⟨_, rfl⟩, rfl⟩
  · -- A worker that drains is still in its last round for the session.
    obtain ⟨htimely, hcurrent⟩ := h.ending cfg hex hdrain arrived looped
    rw [heq]
    exact .of_timely htimely hcurrent
  · -- The next round is later than the one that ended.
    obtain ⟨htimely, hcurrent⟩ := h.ending cfg hex hdrain arrived looped
    rw [heq] at hwrap ⊢
    have hbefore : ∀ c, (ServerSession.after sc
        (d.calls ++ d.ending cfg arrived looped)).curRound = some c →
          c < label (d.nextRound cfg.clock now) := by
      intro c hc
      rw [hcurrent] at hc
      cases hc
      exact label_lt hlt hwrap
    obtain ⟨hopened, hround⟩ := timely_opening cfg htimely hbefore mode begun
    refine .of_timely hopened (hround.trans ?_)
    show _ = some (label (d.drainCap.getD _))
    rw [hdrain]
    rfl

theorem Driving.step (h : Driving sc d) {now : Nat} {ev : DriverEvent}
    (hserver : d.server = true) (hex : d.exited = false) (hturn : d.Turns cfg now ev)
    (hwrap : (d.step cfg now ev).round < 18446744073709551616) :
    Driving sc (d.step cfg now ev) := by
  cases ev with
  | checkpoint arrived looped =>
    obtain ⟨htimely, hcurrent⟩ := h.heard cfg hex arrived
    have hlt : d.cp < cfg.schedule.length := hturn.1
    show Driving sc (d.atCheckpoint cfg arrived looped)
    unfold atCheckpoint
    rw [List.getElem?_eq_getElem hlt]
    have hfired : AllTimely sc
        (d.calls ++ d.hears cfg arrived ++ [.checkpoint (label d.round) cfg.schedule[d.cp].1]) :=
      htimely.concat trivial
    refine .of_timely ?_ ?_
    · exact hfired.append (free_hears _)
    · dsimp only
      rw [curRound_append (free_hears _), ServerSession.after_concat, curRound_apply _ (by simp)]
      exact hcurrent
  | deadline arrived looped mode begun => exact h.ended hserver hex hwrap
  | message heard =>
    obtain ⟨htimely, hcurrent⟩ := h.heard cfg hex heard
    exact .of_timely htimely hcurrent
  | stage msg =>
    obtain ⟨hround, hdrain, -, -, -⟩ := atStage_frame d.toSubnetWorker msg
    refine .of_timely (h.timely hex) ((h.current hex).trans ?_)
    show some (label (d.drainCap.getD d.round)) =
      some (label ((d.atStage msg).drainCap.getD (d.atStage msg).round))
    rw [hround, hdrain]

variable (cfg) (sc)

theorem driving_after (coverRate : U32) (nowMs : Nat) (mode : Option Misbehavior)
    (begun : List Bytes) {evs : List (Nat × DriverEvent)}
    (hlegal : (start cfg coverRate nowMs mode begun).Legal cfg evs)
    (hwrap : ((start cfg coverRate nowMs mode begun).after cfg evs).round < 2 ^ 64) :
    Driving sc ((start cfg coverRate nowMs mode begun).after cfg evs) := by
  induction evs using List.reverseRecOn with
  | nil => exact driving_start cfg coverRate nowMs mode begun
  | append_singleton evs e ih =>
    obtain ⟨hex, hturn⟩ := hlegal.turn
    have hbefore := hlegal.of_isPrefix (List.prefix_append evs [e])
    have hserver := (scripted_after cfg coverRate nowMs mode begun hbefore).server
    rw [after_concat] at hwrap ⊢
    exact (ih hbefore ((round_le_step hserver e.1 e.2).trans_lt hwrap)).step hserver hex hturn hwrap

/-- Whatever arrives and whenever the loop turns, a relay sends one share of a round at most, fixes
one set and decodes it once. -/
theorem relay_acts_once (coverRate : U32) (nowMs : Nat) (mode : Option Misbehavior)
    (begun : List Bytes) (evs : List (Nat × DriverEvent))
    (hlegal : (start cfg coverRate nowMs mode begun).Legal cfg evs)
    (hwrap : ((start cfg coverRate nowMs mode begun).after cfg evs).round < 2 ^ 64) (r : Round) :
    let ops := ((start cfg coverRate nowMs mode begun).after cfg evs).calls
    (emissions sc ops).countP (PanetiereWire.isServerPublic r) ≤ 1 ∧
      (setsFixed sc ops).countP (fun f => f.1 == r) ≤ 1 ∧
      (decodings sc ops).countP (fun d => d.1 == r) ≤ 1 := by
  have hdriven := (driving_after cfg sc coverRate nowMs mode begun hlegal hwrap).driven
  exact ⟨countP_emissions_le_one hdriven r, countP_setsFixed_le_one hdriven r,
    countP_decodings_le_one hdriven r⟩

/-- **The driver makes the calls a relay's session is written for.**  In every run of the driver,
whatever arrives and whenever its loop turns, the calls to the session are those of a worker:
rounds begin in increasing order and each ends after it has begun, except that a draining worker
ends one more round and returns. -/
theorem calls_driven (coverRate : U32) (nowMs : Nat) (mode : Option Misbehavior)
    (begun : List Bytes) (evs : List (Nat × DriverEvent))
    (hlegal : (start cfg coverRate nowMs mode begun).Legal cfg evs)
    (hwrap : ((start cfg coverRate nowMs mode begun).after cfg evs).round < 2 ^ 64) :
    Driven sc ((start cfg coverRate nowMs mode begun).after cfg evs).calls :=
  (driving_after cfg sc coverRate nowMs mode begun hlegal hwrap).driven

theorem calls_driven_toy :
    let d := (start toyDriver 0 3 none []).after toyDriver toyTurns
    d.exited = true ∧ d.calls.getLast? = some (.endRound 4) ∧
      Driven (toyConfig 0 .leader) d.calls :=
  ⟨by decide +kernel, by decide +kernel,
    calls_driven toyDriver (toyConfig 0 .leader) 0 3 none [] toyTurns (by decide +kernel)
      (by decide +kernel)⟩

end PanetiereDriver
end Anymone
