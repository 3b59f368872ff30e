import Anymone.PanetiereSession

/-! # The liveness tracker

`OutputFaultTracker`: the bookkeeping an observer shares between protocols.  It is
told which relay's share and which round's output was seen, and judges the rounds
behind the share frontier in order, once each (`judge`).  A `HashMap` is an ordered
map, since no result depends on its order.
-/

namespace Anymone

/-- `OutputFaultTracker`. -/
structure OutputFaultTracker where
  /-- Sorted; the index is the protocol's server index. -/
  roster : List PeerId
  /-- Consecutive failed rounds needed to fault. -/
  threshold : U64
  stallMargin : U64
  shares : OrdMap Round (OrdSet Nat)
  outputs : OrdSet Round
  maxShareRound : Option Round
  maxOutputRound : Option Round
  /-- The share frontier when output last advanced. -/
  shareAtLastOutput : Option Round
  evaluatedThrough : Option Round
  /-- The relays missing in each round of the current failure streak. -/
  failRun : List (List Nat)
  reported : Bool

/-- `DEFAULT_STALL_MARGIN`. -/
def defaultStallMargin : U64 := 4

/-- `MAX_EVALUATE_SPAN`. -/
def maxEvaluateSpan : Nat := 4096

namespace OutputFaultTracker
variable (t : OutputFaultTracker)

/-- `OutputFaultTracker::new`. -/
def new (roster : List PeerId) (threshold : U64) : OutputFaultTracker :=
  ⟨roster, max threshold 1, defaultStallMargin, .empty, .empty, none, none, none, none, [], false⟩

/-- `observe_share`. -/
def observeShare (round : Round) (idx : Nat) : OutputFaultTracker :=
  if idx < t.roster.length then
    { t with
      shares := t.shares.insert round (((t.shares.get? round).getD .empty).add idx)
      maxShareRound := some (t.maxShareRound.elim round (max · round))
      shareAtLastOutput := t.shareAtLastOutput.or (some round) }
  else t

/-- `observe_output`. -/
def observeOutput (round : Round) : OutputFaultTracker :=
  let t := { t with outputs := t.outputs.add round }
  if t.maxOutputRound.all (fun m => decide (m < round)) then
    { t with
      maxOutputRound := some (t.maxOutputRound.elim round (max · round))
      shareAtLastOutput := t.maxShareRound.or (some round) }
  else t

/-- `fast_forward`. -/
def fastForward (round : Round) : OutputFaultTracker :=
  let through := round.saturatingSub 1
  { t with
    evaluatedThrough := some (t.evaluatedThrough.elim through (max · through))
    failRun := []
    reported := false
    shareAtLastOutput := none }

/-- `output_frozen`. -/
def outputFrozen : Bool :=
  match t.maxShareRound, t.shareAtLastOutput with
  | some s, some base => decide (t.stallMargin < s.saturatingSub base.val)
  | _, _ => false

/-- The relays of the roster not in `shared`. -/
def missing (shared : OrdSet Nat) : List Nat :=
  (List.range t.roster.length).filter (fun i => !shared.contains i)

/-- The relays missing in every round of a streak. -/
def culprits : List (List Nat) → List Nat
  | [] => []
  | first :: rest => rest.foldl (fun acc s => acc.filter s.contains) first

/-- Whom a streak is attributed to: the culprits, if they are a proper part of the
roster. -/
def attribution (failRun : List (List Nat)) : Attribution :=
  let culprits := culprits failRun
  if !culprits.isEmpty && decide (culprits.length < t.roster.length) then
    .peers ((culprits.filterMap (fun i => t.roster[i]?)).insertionSort (· ≤ ·))
  else .none

/-- One round of `evaluate`: the tracker after it and the fault it completes.
`none` defers the round, which ends the walk. -/
def judge (r : Round) : Option (OutputFaultTracker × Option Fault) :=
  let through := { t with evaluatedThrough := some r }
  if t.outputs.contains r then some ({ through with failRun := [], reported := false }, none)
  else
    let shared := (t.shares.get? r).getD .empty
    -- A round with no shares never ran, so no output was to be expected.
    if shared.size = 0 then some (through, none)
    else if !(t.maxOutputRound.any (fun m => decide (r < m)) || t.outputFrozen) then none
    else if t.reported then some (through, none)
    else
      let failRun := t.failRun ++ [t.missing shared]
      if t.threshold.val ≤ failRun.length then
        some ({ through with failRun := failRun, reported := true },
          some ⟨.liveness, t.attribution failRun, []⟩)
      else some ({ through with failRun := failRun }, none)

/-- The loop of `evaluate`, over `n` rounds from `r` on. -/
def walk : Nat → Round → OutputFaultTracker → OutputFaultTracker × List Fault
  | 0, _, t => (t, [])
  | n + 1, r, t =>
      match t.judge r with
      | none => (t, [])
      | some (t', fault) =>
          let rest := walk n (r + 1) t'
          (rest.1, fault.toList ++ rest.2)

/-- `evaluate`. -/
def evaluate : OutputFaultTracker × List Fault :=
  match t.maxShareRound with
  | none => (t, [])
  | some frontier =>
      let start := match t.evaluatedThrough with
        | none => t.shares.keys.headD frontier
        | some r => r + 1
      walk ((min frontier (start.saturatingAdd maxEvaluateSpan)).val - start.val) start t

/-- `share_frontier`. -/
def shareFrontier : Option Round := t.maxShareRound

/-! ## What it reports -/

variable {t}

theorem judge_liveness {r : Round} {t' : OutputFaultTracker} {f : Fault}
    (h : t.judge r = some (t', some f)) : f.kind = .liveness ∧ f.evidence = [] := by
  unfold judge at h
  dsimp only at h
  split_ifs at h <;> cases h
  exact ⟨rfl, rfl⟩

/-- The walk reports liveness only: the induction is on the rounds left. -/
theorem walk_liveness {f : Fault} : ∀ (n : Nat) (r : Round) (t : OutputFaultTracker),
    f ∈ (walk n r t).2 → f.kind = .liveness ∧ f.evidence = []
  | 0, _, _, h => absurd h (List.not_mem_nil)
  | n + 1, r, t, h => by
      rw [walk] at h
      split at h
      · exact absurd h (List.not_mem_nil)
      · rename_i t' fault hj
        rcases List.mem_append.mp h with h | h
        · rw [Option.mem_toList] at h
          obtain rfl := Option.mem_def.mp h
          exact judge_liveness hj
        · exact walk_liveness n (r + 1) t' h

/-- **A tracker's fault is a liveness fault without evidence.** -/
theorem evaluate_liveness {f : Fault} (h : f ∈ t.evaluate.2) :
    f.kind = .liveness ∧ f.evidence = [] := by
  unfold evaluate at h
  split at h
  · exact absurd h (List.not_mem_nil)
  · exact walk_liveness _ _ _ h

end OutputFaultTracker
end Anymone
