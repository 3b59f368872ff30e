import Anymone.FaultTracker
import Anymone.Trace

/-! # What a liveness fault says

The history of a tracker is the list of its calls.  A round is judged failed at the moment of
an `evaluate` call, on what was observed until then: an output that arrives later does not
unmake the judgement.  `Streak` is what the rounds of the current failure streak have in common
over the whole history, and `streak_of_fault` reads off it what a fault says about the subnet.
-/

namespace Anymone

/-- A call of a tracker. -/
inductive TrackerOp where
  | share (round : Round) (idx : Nat)
  | output (round : Round)
  | fastForward (round : Round)
  | evaluate
  deriving DecidableEq

namespace OutputFaultTracker

/-- One call and the faults it emits. -/
def call (t : OutputFaultTracker) : TrackerOp → OutputFaultTracker × List Fault
  | .share round idx => (t.observeShare round idx, [])
  | .output round => (t.observeOutput round, [])
  | .fastForward round => (t.fastForward round, [])
  | .evaluate => t.evaluate

/-- The tracker after a history. -/
def after (roster : List PeerId) (threshold : U64) (ops : List TrackerOp) : OutputFaultTracker :=
  Trace.run (new roster threshold) (fun t op => (t.call op).1) ops

@[simp] theorem after_concat (roster : List PeerId) (threshold : U64) (ops : List TrackerOp)
    (op : TrackerOp) :
    after roster threshold (ops ++ [op]) = ((after roster threshold ops).call op).1 :=
  Trace.run_concat ..

/-! ## What the tracker remembers -/

/-- The tracker's books hold what its history observed. -/
structure Books (n : Nat) (ops : List TrackerOp) (t : OutputFaultTracker) : Prop where
  size : t.roster.length = n
  shares : ∀ r i, (((t.shares.get? r).getD .empty).contains i = true) ↔ i < n ∧ .share r i ∈ ops
  outputs : ∀ r, t.outputs.contains r = true ↔ .output r ∈ ops
  frontier : ∀ m, t.maxShareRound = some m → ∃ i < n, .share m i ∈ ops
  jumps : ∀ x, .fastForward x ∈ ops →
    ∃ through, t.evaluatedThrough = some through ∧ x.val ≤ through.val + 1
  /-- The round after the last one judged is a number. -/
  room : ∀ e, t.evaluatedThrough = some e → e.val + 1 < 2 ^ 64

theorem mem_concat_of_ne {ops : List TrackerOp} {op op' : TrackerOp} (hne : op ≠ op') :
    op ∈ ops ++ [op'] ↔ op ∈ ops := by
  simp [hne]

namespace Books
variable {n : Nat} {ops : List TrackerOp} {t : OutputFaultTracker}

theorem share (h : Books n ops t) (round : Round) (idx : Nat) :
    Books n (ops ++ [.share round idx]) (t.observeShare round idx) := by
  unfold observeShare
  split
  -- the relay is on the roster, so its share is counted
  · rename_i hidx
    refine ⟨h.size, ?_, ?_, ?_, ?_, h.room⟩
    · intro r i
      dsimp only
      rw [OrdMap.get?_insert]
      by_cases hr : r = round
      · subst hr
        rw [if_pos rfl, Option.getD_some, OrdSet.contains_add_iff, h.shares]
        constructor
        · rintro (rfl | ⟨hi, hmem⟩)
          · exact ⟨h.size ▸ hidx, by simp⟩
          · exact ⟨hi, List.mem_append_left _ hmem⟩
        · rintro ⟨hi, hmem⟩
          rcases List.mem_append.mp hmem with hmem | hmem
          · exact Or.inr ⟨hi, hmem⟩
          · cases List.mem_singleton.mp hmem
            exact Or.inl rfl
      · rw [if_neg hr, h.shares, mem_concat_of_ne (by simp [hr])]
    · intro r
      rw [mem_concat_of_ne (by simp)]
      exact h.outputs r
    · intro m hm
      dsimp only at hm
      cases hold : t.maxShareRound with
      | none =>
        rw [hold] at hm
        cases hm
        exact ⟨idx, h.size ▸ hidx, by simp⟩
      | some old =>
        rw [hold, Option.elim_some] at hm
        obtain rfl := Option.some.inj hm
        -- the frontier stays, or the share moves it
        rcases max_choice old round with hmax | hmax
        · obtain ⟨i, hi, hmem⟩ := h.frontier old hold
          rw [hmax]
          exact ⟨i, hi, List.mem_append_left _ hmem⟩
        · rw [hmax]
          exact ⟨idx, h.size ▸ hidx, by simp⟩
    · intro x hx
      exact h.jumps x ((mem_concat_of_ne (by simp)).mp hx)
  · rename_i hidx
    refine ⟨h.size, ?_, ?_, ?_, ?_, h.room⟩
    · intro r i
      rw [h.shares]
      constructor
      · exact fun ⟨hi, hmem⟩ => ⟨hi, List.mem_append_left _ hmem⟩
      · rintro ⟨hi, hmem⟩
        rcases List.mem_append.mp hmem with hmem | hmem
        · exact ⟨hi, hmem⟩
        · cases List.mem_singleton.mp hmem
          exact absurd (h.size ▸ hi) hidx
    · intro r
      rw [mem_concat_of_ne (by simp)]
      exact h.outputs r
    · intro m hm
      obtain ⟨i, hi, hmem⟩ := h.frontier m hm
      exact ⟨i, hi, List.mem_append_left _ hmem⟩
    · exact fun x hx => h.jumps x ((mem_concat_of_ne (by simp)).mp hx)

theorem output (h : Books n ops t) (round : Round) :
    Books n (ops ++ [.output round]) (t.observeOutput round) := by
  have hkept : (t.observeOutput round).roster = t.roster ∧
      (t.observeOutput round).shares = t.shares ∧
      (t.observeOutput round).outputs = t.outputs.add round ∧
      (t.observeOutput round).maxShareRound = t.maxShareRound ∧
      (t.observeOutput round).evaluatedThrough = t.evaluatedThrough := by
    unfold observeOutput
    dsimp only
    split <;> exact ⟨rfl, rfl, rfl, rfl, rfl⟩
  obtain ⟨hroster, hshares, houtputs, hfrontier, hthrough⟩ := hkept
  refine ⟨hroster ▸ h.size, ?_, ?_, ?_, ?_, hthrough ▸ h.room⟩
  · intro r i
    rw [hshares, h.shares, mem_concat_of_ne (by simp)]
  · intro r
    rw [houtputs, OrdSet.contains_add_iff, h.outputs]
    simp [or_comm]
  · intro m hm
    obtain ⟨i, hi, hmem⟩ := h.frontier m (hfrontier ▸ hm)
    exact ⟨i, hi, List.mem_append_left _ hmem⟩
  · rw [hthrough]
    exact fun x hx => h.jumps x ((mem_concat_of_ne (by simp)).mp hx)

theorem fastForward (h : Books n ops t) (round : Round) :
    Books n (ops ++ [.fastForward round]) (t.fastForward round) := by
  -- One before the round asked for has a successor, also when the round is 0.
  have hlast : (round.saturatingSub 1).val + 1 < 2 ^ 64 := by
    have hthrough : (round.saturatingSub 1).val = round.val - 1 := rfl
    have := round.isLt
    omega
  refine ⟨h.size, ?_, ?_, ?_, ?_, ?_⟩
  · intro r i
    rw [mem_concat_of_ne (by simp)]
    exact h.shares r i
  · intro r
    rw [mem_concat_of_ne (by simp)]
    exact h.outputs r
  · intro m hm
    obtain ⟨i, hi, hmem⟩ := h.frontier m hm
    exact ⟨i, hi, List.mem_append_left _ hmem⟩
  · intro x hx
    have hthrough : (round.saturatingSub 1).val = round.val - 1 := rfl
    cases hold : t.evaluatedThrough with
    | none =>
      refine ⟨round.saturatingSub 1, by simp [OutputFaultTracker.fastForward, hold], ?_⟩
      rcases List.mem_append.mp hx with hx | hx
      · obtain ⟨through, hsome, -⟩ := h.jumps x hx
        rw [hold] at hsome
        cases hsome
      · cases List.mem_singleton.mp hx
        omega
    | some through =>
      refine ⟨max through (round.saturatingSub 1),
        by simp [OutputFaultTracker.fastForward, hold], ?_⟩
      have hmax : (max through (round.saturatingSub 1)).val =
          max through.val (round.saturatingSub 1).val := Fin.coe_max ..
      rw [hmax]
      rcases List.mem_append.mp hx with hx | hx
      · obtain ⟨through', hsome, hle⟩ := h.jumps x hx
        rw [hold] at hsome
        cases hsome
        omega
      · cases List.mem_singleton.mp hx
        omega
  · intro e he
    unfold OutputFaultTracker.fastForward at he
    dsimp only at he
    obtain rfl := Option.some.inj he
    cases hold : t.evaluatedThrough with
    | none => exact hlast
    | some through =>
      rcases max_choice through (round.saturatingSub 1) with hmax | hmax
      · rw [Option.elim_some, hmax]
        exact h.room through hold
      · rw [Option.elim_some, hmax]
        exact hlast

/-- An evaluation looks at the books without adding to them. -/
theorem evaluate (h : Books n ops t) : Books n (ops ++ [.evaluate]) t := by
  refine ⟨h.size, ?_, ?_, ?_, ?_, h.room⟩
  · intro r i
    rw [h.shares, mem_concat_of_ne (by simp)]
  · intro r
    rw [h.outputs, mem_concat_of_ne (by simp)]
  · intro m hm
    obtain ⟨i, hi, hmem⟩ := h.frontier m hm
    exact ⟨i, hi, List.mem_append_left _ hmem⟩
  · exact fun x hx => h.jumps x ((mem_concat_of_ne (by simp)).mp hx)

end Books

/-! ## Judgements -/

/-- The relays whose share of a round was not observed. -/
def missingAt (n : Nat) (r : Round) (ops : List TrackerOp) : List Nat :=
  (List.range n).filter (fun i => decide (.share r i ∉ ops))

theorem missing_eq {n : Nat} {ops : List TrackerOp} {t : OutputFaultTracker} (h : Books n ops t)
    (r : Round) : t.missing ((t.shares.get? r).getD .empty) = missingAt n r ops := by
  unfold missing missingAt
  rw [h.size]
  refine List.filter_congr ?_
  intro i hi
  rw [List.mem_range] at hi
  rw [Bool.eq_iff_iff, Bool.not_eq_true', decide_eq_true_eq, ← Bool.not_eq_true, h.shares]
  simp [hi]

/-- What became of a round that is judged. -/
inductive Judgement (t : OutputFaultTracker) (r : Round) (t' : OutputFaultTracker)
    (f : Option Fault) : Prop
  /-- It had output: the streak is over. -/
  | success (hstreak : t'.failRun = []) (hf : f = none)
  /-- It had no output; it is not counted. -/
  | passed (hsilent : t.outputs.contains r = false) (hstreak : t'.failRun = t.failRun)
      (hf : f = none)
  /-- It had shares and no output: it is counted. -/
  | failed (hsilent : t.outputs.contains r = false)
      (hshared : ((t.shares.get? r).getD .empty).size ≠ 0)
      (hstreak : t'.failRun = t.failRun ++ [t.missing ((t.shares.get? r).getD .empty)])
      (hf : ∀ fault ∈ f, t.threshold.val ≤ t'.failRun.length ∧
        fault = ⟨.liveness, t.attribution t'.failRun, []⟩)

theorem judgement_of_judge {t t' : OutputFaultTracker} {r : Round} {f : Option Fault}
    (h : t.judge r = some (t', f)) :
    t'.evaluatedThrough = some r ∧ t'.roster = t.roster ∧ t'.shares = t.shares ∧
      t'.outputs = t.outputs ∧ t'.maxShareRound = t.maxShareRound ∧ t'.threshold = t.threshold ∧
      Judgement t r t' f := by
  unfold judge at h
  dsimp only at h
  split at h
  · cases h
    exact ⟨rfl, rfl, rfl, rfl, rfl, rfl, .success rfl rfl⟩
  rename_i hout
  have hsilent : t.outputs.contains r = false := by simpa using hout
  split at h
  · cases h
    exact ⟨rfl, rfl, rfl, rfl, rfl, rfl, .passed hsilent rfl rfl⟩
  rename_i hshared
  split at h
  · cases h
  split at h
  · cases h
    exact ⟨rfl, rfl, rfl, rfl, rfl, rfl, .passed hsilent rfl rfl⟩
  split at h
  · rename_i hlong
    cases h
    refine ⟨rfl, rfl, rfl, rfl, rfl, rfl, .failed hsilent hshared rfl ?_⟩
    intro fault hfault
    cases hfault
    exact ⟨hlong, rfl⟩
  · cases h
    exact ⟨rfl, rfl, rfl, rfl, rfl, rfl, .failed hsilent hshared rfl (by simp)⟩

/-! ## Streaks -/

/-- A round judged failed, with the history when it was. -/
abbrev Verdict := Round × List TrackerOp

/-- The round had a share and no output, and lay behind the share frontier. -/
structure Failed (n : Nat) (v : Verdict) : Prop where
  shared : ∃ i < n, .share v.1 i ∈ v.2
  silent : .output v.1 ∉ v.2
  behind : ∃ r > v.1, ∃ i < n, .share r i ∈ v.2

/-- The rounds of a failure streak: each judged failed at a moment of the history, in order,
none before a jump, and every round from the first on was without output when the tracker
passed it. -/
structure Streak (n : Nat) (ops : List TrackerOp) (through : Option Round)
    (streak : List Verdict) : Prop where
  moment : ∀ v ∈ streak, v.2 <+: ops
  failed : ∀ v ∈ streak, Failed n v
  ordered : (streak.map Prod.fst).Pairwise (· < ·)
  since : ∀ v ∈ streak, ∀ x, .fastForward x ∈ ops → x ≤ v.1
  between : ∀ v ∈ streak, ∀ v' ∈ streak, ∀ r, v.1 ≤ r → r ≤ v'.1 →
    ∃ q, v.2 <+: q ∧ q <+: v'.2 ∧ .output r ∉ q
  passed : ∀ v ∈ streak, ∃ e, through = some e ∧ v.1 ≤ e ∧
    ∀ r, v.1 ≤ r → r ≤ e → ∃ q, v.2 <+: q ∧ q <+: ops ∧ .output r ∉ q

/-- The streak is the one the tracker counts. -/
structure Counted (n : Nat) (ops : List TrackerOp) (t : OutputFaultTracker)
    (streak : List Verdict) : Prop where
  run : t.failRun = streak.map (fun v => missingAt n v.1 v.2)
  streak : Streak n ops t.evaluatedThrough streak

namespace Streak
variable {n : Nat} {ops : List TrackerOp} {through : Option Round} {streak : List Verdict}

theorem nil (n : Nat) (ops : List TrackerOp) (through : Option Round) :
    Streak n ops through [] := by
  refine ⟨?_, ?_, List.Pairwise.nil, ?_, ?_, ?_⟩ <;> simp

/-- A call that is not a jump leaves the streak. -/
theorem concat (h : Streak n ops through streak) {op : TrackerOp}
    (hop : ∀ x, op ≠ .fastForward x) : Streak n (ops ++ [op]) through streak := by
  have hpre : ops <+: ops ++ [op] := List.prefix_append _ _
  refine ⟨fun v hv => (h.moment v hv).trans hpre, h.failed, h.ordered, ?_, h.between, ?_⟩
  · intro v hv x hx
    exact h.since v hv x ((mem_concat_of_ne (hop x).symm).mp hx)
  · intro v hv
    obtain ⟨e, he, hle, hpassed⟩ := h.passed v hv
    refine ⟨e, he, hle, fun r hlo hhi => ?_⟩
    obtain ⟨q, hvq, hq, hout⟩ := hpassed r hlo hhi
    exact ⟨q, hvq, hq.trans hpre, hout⟩

/-- The tracker passes the next round, which had no output. -/
theorem pass (h : Streak n ops through streak) {r : Round}
    (hnext : ∀ e, through = some e → r.val = e.val + 1) (hsilent : .output r ∉ ops) :
    Streak n ops (some r) streak := by
  refine ⟨h.moment, h.failed, h.ordered, h.since, h.between, ?_⟩
  intro v hv
  obtain ⟨e, he, hle, hpassed⟩ := h.passed v hv
  have hr := hnext e he
  have hle : v.1.val ≤ e.val := hle
  refine ⟨r, rfl, by rw [Fin.le_def]; omega, fun r' hlo hhi => ?_⟩
  rcases Nat.lt_or_ge e.val r'.val with hlt | hge
  · have hthis : r' = r := Fin.ext (by
      have : r'.val ≤ r.val := hhi
      omega)
    exact ⟨ops, h.moment v hv, List.prefix_refl ops, hthis ▸ hsilent⟩
  · exact hpassed r' hlo hge

/-- The next round fails and joins the streak. -/
theorem fail (h : Streak n ops through streak) {r : Round}
    (hnext : ∀ e, through = some e → r.val = e.val + 1) (hfailed : Failed n (r, ops))
    (hjumps : ∀ x, .fastForward x ∈ ops → x ≤ r) : Streak n ops (some r) (streak ++ [(r, ops)]) := by
  have hpass := h.pass hnext hfailed.silent
  -- The new round is the first after `through`, so it lies after all that failed.
  have hbefore : ∀ v ∈ streak, v.1 < r := by
    intro v hv
    obtain ⟨e, he, hle, -⟩ := h.passed v hv
    have hr := hnext e he
    have hle : v.1.val ≤ e.val := hle
    rw [Fin.lt_def]
    omega
  refine ⟨?_, ?_, ?_, ?_, ?_, ?_⟩
  · intro v hv
    rcases List.mem_append.mp hv with hv | hv
    · exact h.moment v hv
    · cases List.mem_singleton.mp hv
      exact List.prefix_refl ops
  · intro v hv
    rcases List.mem_append.mp hv with hv | hv
    · exact h.failed v hv
    · cases List.mem_singleton.mp hv
      exact hfailed
  · rw [List.map_append, List.map_singleton, List.pairwise_append]
    refine ⟨h.ordered, List.pairwise_singleton _ _, ?_⟩
    intro a ha b hb
    obtain ⟨v, hv, rfl⟩ := List.mem_map.mp ha
    cases List.mem_singleton.mp hb
    exact hbefore v hv
  · intro v hv x hx
    rcases List.mem_append.mp hv with hv | hv
    · exact h.since v hv x hx
    · cases List.mem_singleton.mp hv
      exact hjumps x hx
  · intro v hv v' hv' r' hlo hhi
    rcases List.mem_append.mp hv' with hv' | hv'
    · rcases List.mem_append.mp hv with hv | hv
      · exact h.between v hv v' hv' r' hlo hhi
      · -- no earlier round of the streak lies after the new one
        cases List.mem_singleton.mp hv
        exact absurd (hlo.trans hhi) (not_le.mpr (hbefore v' hv'))
    · cases List.mem_singleton.mp hv'
      rcases List.mem_append.mp hv with hv | hv
      -- between an old round and the new one the passed rounds were silent
      · obtain ⟨e, he, -, hpassed⟩ := hpass.passed v hv
        cases he
        exact hpassed r' hlo hhi
      · cases List.mem_singleton.mp hv
        exact ⟨ops, List.prefix_refl ops, List.prefix_refl ops,
          le_antisymm hhi hlo ▸ hfailed.silent⟩
  · intro v hv
    rcases List.mem_append.mp hv with hv | hv
    · exact hpass.passed v hv
    · cases List.mem_singleton.mp hv
      refine ⟨r, rfl, le_rfl, fun r' hlo hhi => ?_⟩
      exact ⟨ops, List.prefix_refl ops, List.prefix_refl ops,
        le_antisymm hhi hlo ▸ hfailed.silent⟩

end Streak

/-! ## Attribution -/

theorem mem_foldl_filter {i : Nat} : ∀ {rest : List (List Nat)} {acc : List Nat},
    i ∈ rest.foldl (fun acc s => acc.filter s.contains) acc ↔ i ∈ acc ∧ ∀ s ∈ rest, i ∈ s
  | [], acc => by simp
  | s :: rest, acc => by
      rw [List.foldl_cons, mem_foldl_filter, List.mem_filter, List.forall_mem_cons]
      simp [and_assoc]

theorem nodup_foldl_filter : ∀ {rest : List (List Nat)} {acc : List Nat}, acc.Nodup →
    (rest.foldl (fun acc s => acc.filter s.contains) acc).Nodup
  | [], _, h => h
  | s :: rest, acc, h => by
      rw [List.foldl_cons]
      exact nodup_foldl_filter (h.filter _)

/-- The culprits are the relays that every round of the streak missed. -/
theorem mem_culprits {run : List (List Nat)} {i : Nat} (h : i ∈ culprits run) :
    ∀ s ∈ run, i ∈ s := by
  cases run with
  | nil => cases h
  | cons first rest =>
    unfold culprits at h
    obtain ⟨hfirst, hrest⟩ := mem_foldl_filter.mp h
    exact List.forall_mem_cons.mpr ⟨hfirst, hrest⟩

/-- The fault names these slots of the roster, a proper part of it. -/
structure Names (roster : List PeerId) (named : List PeerId) (slots : List Nat) : Prop where
  nonempty : slots ≠ []
  nodup : slots.Nodup
  within : ∀ i ∈ slots, i < roster.length
  proper : slots.length < roster.length
  named : named.Perm (slots.filterMap (roster[·]?))

theorem names_of_attribution {t : OutputFaultTracker} {n : Nat} (hsize : t.roster.length = n)
    {streak : List Verdict} (hne : streak ≠ []) {named : List PeerId}
    (h : t.attribution (streak.map (fun v => missingAt n v.1 v.2)) = .peers named) :
    ∃ slots, Names t.roster named slots ∧ ∀ i ∈ slots, ∀ v ∈ streak, .share v.1 i ∉ v.2 := by
  unfold attribution at h
  dsimp only at h
  split at h
  · rename_i hcond
    rw [Bool.and_eq_true, decide_eq_true_eq] at hcond
    have hmissed : ∀ i ∈ culprits (streak.map (fun v => missingAt n v.1 v.2)), ∀ v ∈ streak,
        i < n ∧ .share v.1 i ∉ v.2 := by
      intro i hi v hv
      have hin := mem_culprits hi _ (List.mem_map_of_mem hv)
      unfold missingAt at hin
      simpa using hin
    refine ⟨culprits (streak.map (fun v => missingAt n v.1 v.2)), ⟨?_, ?_, ?_, hcond.2, ?_⟩, ?_⟩
    · intro hnil
      rw [hnil] at hcond
      exact absurd hcond.1 (by simp)
    · obtain ⟨v, rest, rfl⟩ := List.exists_cons_of_ne_nil hne
      exact nodup_foldl_filter (List.nodup_range.filter _)
    · intro i hi
      obtain ⟨v, rest, rfl⟩ := List.exists_cons_of_ne_nil hne
      rw [hsize]
      exact (hmissed i hi v (List.mem_cons_self ..)).1
    · cases h
      exact List.perm_insertionSort ..
    · exact fun i hi v hv => (hmissed i hi v hv).2
  · cases h

/-! ## Evaluation -/

/-- What a fault says of the history: the rounds of a streak as long as the threshold, whose
shares the peers it names all missed. -/
def Explained (roster : List PeerId) (threshold : U64) (ops : List TrackerOp) (f : Fault) : Prop :=
  ∃ streak through, Streak roster.length ops through streak ∧ threshold.val ≤ streak.length ∧
    ∀ named, f.attribution = .peers named → ∃ slots, Names roster named slots ∧
      ∀ i ∈ slots, ∀ v ∈ streak, .share v.1 i ∉ v.2

section Walk
variable {n : Nat} {ops : List TrackerOp} {t t' : OutputFaultTracker} {streak : List Verdict}

/-- A judgement behind a share keeps the books. -/
theorem Books.judge (hb : Books n ops t) {r m : Round} {f : Option Fault}
    (hnext : ∀ e, t.evaluatedThrough = some e → r.val = e.val + 1) (hlt : r < m)
    (h : t.judge r = some (t', f)) : Books n ops t' := by
  obtain ⟨hthrough, hroster, hshares, houtputs, hfrontier, -, -⟩ := judgement_of_judge h
  refine ⟨hroster ▸ hb.size, hshares ▸ hb.shares, houtputs ▸ hb.outputs, hfrontier ▸ hb.frontier,
    ?_, ?_⟩
  · intro x hx
    obtain ⟨e, he, hle⟩ := hb.jumps x hx
    have := hnext e he
    exact ⟨r, hthrough, by omega⟩
  · intro e he
    rw [hthrough] at he
    cases he
    have hlt : r.val < m.val := hlt
    have := m.isLt
    omega

/-- A round without output in the books had none in the history. -/
theorem Books.quiet (hb : Books n ops t) {r : Round} (hsilent : t.outputs.contains r = false) :
    .output r ∉ ops := by
  intro hmem
  rw [(hb.outputs r).mpr hmem] at hsilent
  cases hsilent

/-- A round with shares in the books had one in the history. -/
theorem Books.exists_share (hb : Books n ops t) {r : Round}
    (hshared : ((t.shares.get? r).getD .empty).size ≠ 0) : ∃ i < n, .share r i ∈ ops := by
  obtain ⟨i, hi⟩ := List.exists_mem_of_ne_nil _ (fun hnil => hshared (by
    rw [OrdMap.size, ← List.length_map Prod.fst]
    exact congrArg List.length hnil) :
      ((t.shares.get? r).getD .empty).keys ≠ [])
  have hcontains : ((t.shares.get? r).getD .empty).contains i = true := by
    rw [OrdMap.contains_iff]
    exact OrdMap.mem_keys.mp hi
  exact ⟨i, (hb.shares r i).mp hcontains⟩

/-- **One round of an evaluation** keeps the books and the streak, and explains its fault. -/
theorem Counted.judge (hb : Books n ops t) (hc : Counted n ops t streak) {r : Round}
    {f : Option Fault} (hnext : ∀ e, t.evaluatedThrough = some e → r.val = e.val + 1)
    (hbehind : ∃ r' > r, ∃ i < n, .share r' i ∈ ops) (h : t.judge r = some (t', f)) :
    (∃ streak', Counted n ops t' streak') ∧
      ∀ fault ∈ f, Explained t.roster t.threshold ops fault := by
  obtain ⟨hthrough, hroster, -, -, -, hthreshold, hjudged⟩ := judgement_of_judge h
  have hjumps : ∀ x, .fastForward x ∈ ops → x ≤ r := by
    intro x hx
    obtain ⟨e, he, hle⟩ := hb.jumps x hx
    have := hnext e he
    rw [Fin.le_def]
    omega
  cases hjudged with
  | success hstreak hf =>
    refine ⟨⟨[], by rw [hstreak]; rfl, Streak.nil ..⟩, ?_⟩
    rw [hf]
    simp
  | passed hsilent hstreak hf =>
    refine ⟨⟨streak, hstreak.trans hc.run, ?_⟩, ?_⟩
    · rw [hthrough]
      exact hc.streak.pass hnext (hb.quiet hsilent)
    · rw [hf]
      simp
  | failed hsilent hshared hstreak hf =>
    have hfailed : Failed n (r, ops) := ⟨hb.exists_share hshared, hb.quiet hsilent, hbehind⟩
    have hstreak' := hc.streak.fail hnext hfailed hjumps
    have hrun : t'.failRun = (streak ++ [(r, ops)]).map (fun v => missingAt n v.1 v.2) := by
      rw [hstreak, hc.run, missing_eq hb, List.map_append, List.map_singleton]
    refine ⟨⟨streak ++ [(r, ops)], hrun, by rw [hthrough]; exact hstreak'⟩, ?_⟩
    intro fault hfault
    obtain ⟨hlong, rfl⟩ := hf fault hfault
    rw [hrun] at hlong ⊢
    rw [List.length_map] at hlong
    refine ⟨streak ++ [(r, ops)], some r, hb.size ▸ hstreak', hlong, ?_⟩
    intro named hnamed
    exact names_of_attribution hb.size (by simp) hnamed

/-- What every judgement below `m` keeps, a walk up to `m` keeps: the induction is on the
rounds left. -/
theorem walk_induction {P : OutputFaultTracker → Prop} {Q : Fault → Prop} {m : Round}
    (hstep : ∀ {t t' : OutputFaultTracker} {r : Round} {f : Option Fault}, P t →
      (∀ e, t.evaluatedThrough = some e → r.val = e.val + 1) → r < m →
      t.judge r = some (t', f) → P t' ∧ ∀ fault ∈ f, Q fault) :
    ∀ (k : Nat) (r : Round) {t : OutputFaultTracker}, P t →
      (∀ e, t.evaluatedThrough = some e → r.val = e.val + 1) → r.val + k ≤ m.val →
      P (walk k r t).1 ∧ ∀ f ∈ (walk k r t).2, Q f
  | 0, _, t, hP, _, _ => ⟨hP, by simp [walk]⟩
  | k + 1, r, t, hP, hnext, hle => by
      unfold walk
      cases hj : t.judge r with
      | none => exact ⟨hP, by simp⟩
      | some judged =>
        obtain ⟨t', f⟩ := judged
        have hlt : r < m := by
          rw [Fin.lt_def]
          omega
        obtain ⟨hP', hfault⟩ := hstep hP hnext hlt hj
        have hthrough := (judgement_of_judge hj).1
        have hsucc : (r + 1).val = r.val + 1 := Fin.val_add_one_of_lt' (by
          have := m.isLt
          omega)
        obtain ⟨hP'', hrest⟩ := walk_induction hstep k (r + 1) hP'
          (by rw [hthrough]; rintro e he; cases he; exact hsucc) (by omega)
        refine ⟨hP'', ?_⟩
        intro fault hmem
        rcases List.mem_append.mp hmem with hmem | hmem
        · exact hfault fault (Option.mem_toList.mp hmem)
        · exact hrest fault hmem

/-- The walk of an evaluation begins after the last round judged. -/
theorem evaluate_eq_walk {frontier : Round} (h : t.maxShareRound = some frontier) :
    ∃ start : Round, (∀ e, t.evaluatedThrough = some e → start = e + 1) ∧ t.evaluate =
      walk ((min frontier (start.saturatingAdd maxEvaluateSpan)).val - start.val) start t := by
  unfold OutputFaultTracker.evaluate
  rw [h]
  cases hthrough : t.evaluatedThrough with
  | none => exact ⟨_, by simp, rfl⟩
  | some r =>
    refine ⟨r + 1, ?_, rfl⟩
    rintro e ⟨⟩
    rfl

/-- **The rule of an evaluation**: what every judgement below the share frontier keeps, it
keeps. -/
theorem evaluate_induction {P : OutputFaultTracker → Prop} {Q : Fault → Prop}
    (hb : Books n ops t) (hP : P t)
    (hstep : ∀ {m : Round}, t.maxShareRound = some m → ∀ {u u' : OutputFaultTracker} {r : Round}
      {f : Option Fault}, P u → (∀ e, u.evaluatedThrough = some e → r.val = e.val + 1) → r < m →
      u.judge r = some (u', f) → P u' ∧ ∀ fault ∈ f, Q fault) :
    P t.evaluate.1 ∧ ∀ f ∈ t.evaluate.2, Q f := by
  cases hfrontier : t.maxShareRound with
  | none =>
    have heval : t.evaluate = (t, []) := by
      unfold OutputFaultTracker.evaluate
      rw [hfrontier]
    rw [heval]
    exact ⟨hP, by simp⟩
  | some frontier =>
    obtain ⟨start, hstart, heval⟩ := evaluate_eq_walk hfrontier
    have hnext : ∀ e, t.evaluatedThrough = some e → start.val = e.val + 1 := by
      intro e he
      rw [hstart e he]
      exact Fin.val_add_one_of_lt' (hb.room e he)
    have hspan : (min frontier (start.saturatingAdd maxEvaluateSpan)).val ≤ frontier.val :=
      Fin.le_def.mp (min_le_left _ _)
    rw [heval]
    rcases Nat.le_total start.val (min frontier (start.saturatingAdd maxEvaluateSpan)).val
      with hle | hle
    · exact walk_induction (hstep hfrontier) _ start hP hnext (by omega)
    · rw [Nat.sub_eq_zero_of_le hle]
      exact ⟨hP, by simp [walk]⟩

end Walk

/-! ## Histories -/

section History
variable {n : Nat} {ops : List TrackerOp} {t : OutputFaultTracker}

/-- The tracker's books and streak are those of its history. -/
structure Faithful (roster : List PeerId) (threshold : U64) (ops : List TrackerOp)
    (t : OutputFaultTracker) : Prop where
  peers : t.roster = roster
  limit : t.threshold = max threshold 1
  books : Books roster.length ops t
  counted : ∃ streak, Counted roster.length ops t streak

namespace Faithful
variable {roster : List PeerId} {threshold : U64}

theorem new (roster : List PeerId) (threshold : U64) :
    Faithful roster threshold [] (OutputFaultTracker.new roster threshold) := by
  refine ⟨rfl, rfl, ⟨rfl, ?_, ?_, ?_, ?_, ?_⟩, [], rfl, Streak.nil ..⟩
  · intro r i
    simp [OutputFaultTracker.new, OrdMap.empty, OrdMap.get?, OrdMap.find, OrdMap.contains]
  · intro r
    simp [OutputFaultTracker.new, OrdMap.contains, OrdMap.get?, OrdMap.find, OrdMap.empty]
  · rintro m ⟨⟩
  · simp
  · rintro e ⟨⟩

/-- **An evaluation** walks on from the last round judged, and explains its faults. -/
theorem evaluate (h : Faithful roster threshold ops t) :
    Faithful roster threshold (ops ++ [.evaluate]) t.evaluate.1 ∧
      ∀ f ∈ t.evaluate.2, Explained roster (max threshold 1) (ops ++ [.evaluate]) f := by
  have hb := h.books.evaluate
  obtain ⟨streak, hrun, hstreak⟩ := h.counted
  have hc : Counted roster.length (ops ++ [.evaluate]) t streak :=
    ⟨hrun, hstreak.concat (by simp)⟩
  refine evaluate_induction (P := Faithful roster threshold (ops ++ [.evaluate])) hb
    ⟨h.peers, h.limit, hb, streak, hc⟩ ?_
  intro m hm u u' r f hu hnext hlt hj
  obtain ⟨streak, hc⟩ := hu.counted
  obtain ⟨-, hroster, -, -, -, hthreshold, -⟩ := judgement_of_judge hj
  obtain ⟨hc', hexplained⟩ := Counted.judge hu.books hc hnext ⟨m, hlt, hb.frontier m hm⟩ hj
  rw [hu.peers, hu.limit] at hexplained
  exact ⟨⟨hroster.trans hu.peers, hthreshold.trans hu.limit, hu.books.judge hnext hlt hj, hc'⟩,
    hexplained⟩

/-- What one call preserves. -/
theorem call (h : Faithful roster threshold ops t) (op : TrackerOp) :
    Faithful roster threshold (ops ++ [op]) (t.call op).1 := by
  obtain ⟨streak, hrun, hstreak⟩ := h.counted
  cases op with
  | share round idx =>
    have hkept : (t.observeShare round idx).roster = t.roster ∧
        (t.observeShare round idx).threshold = t.threshold ∧
        (t.observeShare round idx).failRun = t.failRun ∧
        (t.observeShare round idx).evaluatedThrough = t.evaluatedThrough := by
      unfold observeShare
      split <;> exact ⟨rfl, rfl, rfl, rfl⟩
    obtain ⟨hroster, hthreshold, hfail, hthrough⟩ := hkept
    exact ⟨hroster.trans h.peers, hthreshold.trans h.limit, h.books.share round idx, streak,
      hfail.trans hrun, hthrough ▸ hstreak.concat (by simp)⟩
  | output round =>
    have hkept : (t.observeOutput round).roster = t.roster ∧
        (t.observeOutput round).threshold = t.threshold ∧
        (t.observeOutput round).failRun = t.failRun ∧
        (t.observeOutput round).evaluatedThrough = t.evaluatedThrough := by
      unfold observeOutput
      dsimp only
      split <;> exact ⟨rfl, rfl, rfl, rfl⟩
    obtain ⟨hroster, hthreshold, hfail, hthrough⟩ := hkept
    exact ⟨hroster.trans h.peers, hthreshold.trans h.limit, h.books.output round, streak,
      hfail.trans hrun, hthrough ▸ hstreak.concat (by simp)⟩
  | fastForward round =>
    -- a jump drops the streak
    exact ⟨h.peers, h.limit, h.books.fastForward round, [], rfl, Streak.nil ..⟩
  | evaluate => exact h.evaluate.1

end Faithful

/-- The tracker is faithful to its history at every moment. -/
theorem faithful_after (roster : List PeerId) (threshold : U64) (ops : List TrackerOp) :
    Faithful roster threshold ops (after roster threshold ops) := by
  induction ops using List.reverseRecOn with
  | nil => exact Faithful.new roster threshold
  | append_singleton ops op ih =>
    rw [after_concat]
    exact ih.call op

/-- **Liveness attribution**: behind every fault of an evaluation there are as many failed rounds
as the threshold asks for. -/
theorem streak_of_fault (roster : List PeerId) (threshold : U64) (ops : List TrackerOp) {f : Fault}
    (h : f ∈ ((after roster threshold ops).call .evaluate).2) :
    ∃ streak : List Verdict, (max threshold 1).val ≤ streak.length ∧
      (streak.map Prod.fst).Pairwise (· < ·) ∧
      (∀ v ∈ streak, v.2 <+: ops ++ [.evaluate] ∧ Failed roster.length v ∧
        ∀ x, .fastForward x ∈ ops → x ≤ v.1) ∧
      (∀ v ∈ streak, ∀ v' ∈ streak, ∀ r, v.1 ≤ r → r ≤ v'.1 →
        ∃ q, v.2 <+: q ∧ q <+: v'.2 ∧ .output r ∉ q) ∧
      ∀ named, f.attribution = .peers named → ∃ slots, Names roster named slots ∧
        ∀ i ∈ slots, ∀ v ∈ streak, .share v.1 i ∉ v.2 := by
  obtain ⟨streak, through, hstreak, hlong, hnamed⟩ :=
    (faithful_after roster threshold ops).evaluate.2 f h
  refine ⟨streak, hlong, hstreak.ordered, ?_, hstreak.between, hnamed⟩
  intro v hv
  exact ⟨hstreak.moment v hv, hstreak.failed v hv, fun x hx =>
    hstreak.since v hv x (List.mem_append_left _ hx)⟩

/-- A roster of two. -/
def pair : List PeerId := [.filled 32 1, .filled 32 2]

/-- The second slot never shares. -/
def silentSlot : List TrackerOp :=
  [.share 2 0, .share 3 0, .share 4 0, .output 5]

theorem streak_of_fault_silentSlot :
    ∃ streak : List Verdict, (max 2 1 : U64).val ≤ streak.length ∧
      (streak.map Prod.fst).Pairwise (· < ·) ∧
      (∀ v ∈ streak, v.2 <+: silentSlot ++ [.evaluate] ∧ Failed pair.length v ∧
        ∀ x, .fastForward x ∈ silentSlot → x ≤ v.1) ∧
      (∀ v ∈ streak, ∀ v' ∈ streak, ∀ r, v.1 ≤ r → r ≤ v'.1 →
        ∃ q, v.2 <+: q ∧ q <+: v'.2 ∧ .output r ∉ q) ∧
      ∀ named, Attribution.peers (pair.drop 1) = .peers named → ∃ slots, Names pair named slots ∧
        ∀ i ∈ slots, ∀ v ∈ streak, .share v.1 i ∉ v.2 :=
  streak_of_fault pair 2 silentSlot (f := ⟨.liveness, .peers (pair.drop 1), []⟩)
    (by decide +kernel)

/-- The round had a share and no output in the history, and lies behind its share frontier. -/
def Unanswered (ops : List TrackerOp) (r : Round) : Prop :=
  (∃ i, .share r i ∈ ops) ∧ .output r ∉ ops ∧ ∃ r' > r, ∃ i, .share r' i ∈ ops

/-- Two slots: round 2 is judged failed, has output after all, and round 3 fails too. -/
def lateOutput : List TrackerOp :=
  [.share 2 0, .share 3 0, .output 5, .evaluate, .output 2, .share 4 0]

/-- The fault of the threshold's two rounds, though the output of the first has arrived: only
round 3 is unanswered. -/
theorem fault_despite_lateOutput :
    ((after pair 2 lateOutput).call .evaluate).2 ≠ [] ∧
      ¬ ∃ rounds : List Round, rounds.Nodup ∧ 2 ≤ rounds.length ∧
        ∀ r ∈ rounds, Unanswered lateOutput r := by
  refine ⟨by decide +kernel, ?_⟩
  rintro ⟨rounds, hnodup, hlong, hall⟩
  have hthree : ∀ r ∈ rounds, r = 3 := by
    intro r hr
    obtain ⟨⟨i, hi⟩, hsilent, r', hlt, i', hi'⟩ := hall r hr
    simp only [lateOutput, List.mem_cons, TrackerOp.share.injEq, TrackerOp.output.injEq,
      List.not_mem_nil, reduceCtorEq, or_false, false_or, not_or] at hi hi' hsilent
    rcases hi with ⟨rfl, -⟩ | ⟨rfl, -⟩ | ⟨rfl, -⟩
    · exact absurd rfl hsilent.2
    · rfl
    · -- no share lies beyond round 4
      rcases hi' with ⟨rfl, -⟩ | ⟨rfl, -⟩ | ⟨rfl, -⟩ <;> exact absurd hlt (by decide)
  match rounds, hnodup, hlong, hthree with
  | a :: b :: rest, hnodup, _, hthree =>
    have hab : a = b := (hthree a (by simp)).trans (hthree b (by simp)).symm
    exact (List.nodup_cons.mp hnodup).1 (hab ▸ List.mem_cons_self ..)

end History
end OutputFaultTracker
end Anymone
