import Anymone.Enrolment

/-! # Reissuing the node's own attestation

A phone's platform makes attestations asynchronously: `BridgeProver::attest` serves a cached one or
starts a fetch and reports that none is there yet.  `refresh_own_attestation` asks for a new one
when the one held has passed half of the policy's window; the prover judges its cache by a constant
window of its own, half the default one.

Where the policy's window is at least the default, a stale attestation is replaced or a fetch for
the round is in flight (`stale_replaced`).  Under any shorter one the prover can hand back the very
attestation that was judged stale.
-/

namespace Anymone

namespace Ffi

/-! ## The prover -/

/-- `MAX_AGE_ROUNDS`. -/
def maxAgeRounds : Nat := 100 / 2

/-- `FetchError`. -/
inductive FetchError where
  | unavailable (text : String)
  | failed (text : String)

/-- `to_string`. -/
def FetchError.text : FetchError → String
  | .unavailable text => "unavailable: " ++ text
  | .failed text => "fetch failed: " ++ text

/-- `State` of the prover. -/
inductive FetchState where
  | cold
  | pending (round : Round)
  | ready (att : Attestation)
  | failed (detail : String)

/-- `Shared`. -/
structure Shared where
  state : FetchState
  generation : Nat

/-- A fetch in flight. -/
structure Fetch where
  round : Round
  generation : Nat
  deriving DecidableEq

/-- `BridgeProver`, and its fetches. -/
structure BridgeProver where
  shared : Shared
  fetches : List Fetch

namespace BridgeProver
variable (p : BridgeProver)

/-- `BridgeProver::new`. -/
def new : BridgeProver := ⟨⟨.cold, 0⟩, []⟩

/-- What `attest` serves from its cache. -/
def cached (round : Round) : Option Attestation :=
  match p.shared.state with
  | .ready att =>
      if att.round ≤ round ∧ round.val - att.round.val < maxAgeRounds then some att else none
  | .cold | .pending _ | .failed _ => none

/-- Whether a fetch for the round is in flight. -/
def awaits (round : Round) : Bool :=
  match p.shared.state with
  | .pending r => decide (r = round)
  | .cold | .ready _ | .failed _ => false

/-- `attest`: its error is the text of `TeeError::Fetch`. -/
def attest (round : Round) : BridgeProver × Except String Attestation :=
  match p.cached round with
  | some att => (p, .ok att)
  | none =>
      if p.awaits round then (p, .error "token fetch in flight")
      else
        (⟨⟨.pending round, p.shared.generation + 1⟩,
            p.fetches ++ [⟨round, p.shared.generation + 1⟩]⟩,
          .error "no token yet for this round")

/-- What a fetch resolves to. -/
def resolved (round : Round) : Except FetchError Bytes → FetchState
  | .ok evidence =>
      if Tee.maxAttestationBytes < evidence.length then
        .failed ("evidence is " ++ toString evidence.length ++ " bytes, over the limit")
      else .ready ⟨round, evidence⟩
  | .error e => .failed e.text

/-- The end of `spawn_fetch`. -/
def complete (k : Nat) (outcome : Except FetchError Bytes) : BridgeProver :=
  (p.fetches[k]?).elim p (fun fetch =>
    { shared :=
        if p.shared.generation = fetch.generation then
          { p.shared with state := resolved fetch.round outcome }
        else p.shared
      fetches := p.fetches.eraseIdx k })

end BridgeProver

/-! ## The runtime -/

/-- A `refresh_own_attestation` under way: the section it is to run next. -/
inductive Call where
  | validity (round : Round)
  | judge (round validity : Round)
  /-- `attest`, with what was held when it was judged. -/
  | attest (round validity : Round) (judged : Option Attestation)
  | hold (att : Attestation)
  | deliver (att : Attestation)
  deriving DecidableEq

/-- What `AttestedClients` tells a client, the node's own attestation, and its prover. -/
structure State (ι : Type) where
  round : Round
  validityRounds : Round
  own : OwnAttestation
  prover : BridgeProver
  calls : ι → Option Call

/-- What happens, one section at a time. -/
inductive Op (ι : Type) where
  /-- `adopt_policy` stores a changed policy's validity. -/
  | adopt (validityRounds : Round)
  | setRound (round : Round)
  /-- `discard_own_attestation`. -/
  | discard
  /-- `refresh_own_attestation` begins, and reads the round. -/
  | refresh (i : ι)
  | next (i : ι)
  | complete (k : Nat) (outcome : Except FetchError Bytes)

/-- `fresh`. -/
def fresh (own : OwnAttestation) (round validity : Round) : Bool :=
  own.held.any (fun a =>
    decide (a.round ≤ round) && decide (round < a.round.saturatingAdd (validity.val / 2)))

variable {ι : Type} [DecidableEq ι]

namespace State
variable (s : State ι) (i : ι)

/-- The call goes on. -/
def goOn (call : Call) : State ι := { s with calls := Function.update s.calls i (some call) }

/-- The call returns. -/
def finish : State ι := { s with calls := Function.update s.calls i none }

/-- The next section of a call. -/
def proceed : Call → State ι
  | .validity round => s.goOn i (.judge round s.validityRounds)
  | .judge round validity =>
      if fresh s.own round validity && s.own.delivered then s.finish i
      else s.goOn i (.attest round validity s.own.held)
  | .attest round _ _ =>
      let (prover, answer) := s.prover.attest round
      let s := { s with prover := prover }
      match answer with
      | .ok att => s.goOn i (.hold att)
      | .error _ => s.finish i
  | .hold att =>
      -- A newer one is held already.
      if s.own.held.any (fun held => decide (att.round < held.round)) then s.finish i
      else { s with own := s.own.hold att }.goOn i (.deliver att)
  | .deliver att => { s with own := s.own.deliver att }.finish i

/-- One step. -/
def step : Op ι → State ι
  | .adopt validityRounds =>
      { s with validityRounds :=
          if validityRounds = 0 then Tee.defaultValidityRounds else validityRounds }
  | .setRound round => { s with round := round }
  | .discard => { s with own := ⟨none, false⟩ }
  | .refresh i => if (s.calls i).isSome then s else s.goOn i (.validity s.round)
  | .next i => (s.calls i).elim s (s.proceed i)
  | .complete k outcome => { s with prover := s.prover.complete k outcome }

end State

/-- A node at its start. -/
def init : State ι := ⟨0, Tee.defaultValidityRounds, ⟨none, false⟩, .new, fun _ => none⟩

/-- The node after a list of steps. -/
def after (ops : List (Op ι)) : State ι := Trace.run init State.step ops

@[simp] theorem after_concat (ops : List (Op ι)) (op : Op ι) :
    after (ops ++ [op]) = (after ops).step op :=
  Trace.run_concat ..

/-! ## The prover's part -/

namespace BridgeProver

/-- What is awaited is in flight. -/
def Awaited (p : BridgeProver) : Prop :=
  ∀ round, p.awaits round = true →
    ∃ fetch ∈ p.fetches, fetch.round = round ∧ fetch.generation = p.shared.generation

variable {p : BridgeProver}

theorem awaited_complete (h : p.Awaited) (k : Nat) (outcome : Except FetchError Bytes) :
    (p.complete k outcome).Awaited := by
  unfold complete
  rcases Option.eq_none_or_eq_some p.fetches[k]? with hk | ⟨done, hk⟩
  · rw [hk]
    exact h
  · rw [hk, Option.elim_some]
    by_cases hgen : p.shared.generation = done.generation
    · rw [if_pos hgen]
      intro round hawaits
      unfold awaits resolved at hawaits
      cases outcome with
      | error e => cases hawaits
      | ok evidence =>
        dsimp only at hawaits
        by_cases hlen : Tee.maxAttestationBytes < evidence.length
        · rw [if_pos hlen] at hawaits
          cases hawaits
        · rw [if_neg hlen] at hawaits
          cases hawaits
    · rw [if_neg hgen]
      intro round hawaits
      obtain ⟨fetch, hmem, hround, hcurrent⟩ := h round hawaits
      refine ⟨fetch, ?_, hround, hcurrent⟩
      -- The one that is done is another, for its generation is.
      obtain ⟨j, hj⟩ := List.mem_iff_getElem?.mp hmem
      refine List.mem_eraseIdx_iff_getElem?.mpr ⟨j, ?_, hj⟩
      rintro rfl
      rw [hk, Option.some_inj] at hj
      rw [hj] at hgen
      exact hgen hcurrent.symm

theorem awaited_attest (h : p.Awaited) (round : Round) : (p.attest round).1.Awaited := by
  unfold attest
  rcases Option.eq_none_or_eq_some (p.cached round) with hcached | ⟨att, hcached⟩
  · rw [hcached]
    dsimp only
    split
    · exact h
    · intro r hawaits
      have hr : round = r := of_decide_eq_true hawaits
      exact ⟨_, List.mem_append_right _ (List.mem_singleton_self _), hr, rfl⟩
  · rw [hcached]
    exact h

/-- What the cache serves is at most so old. -/
theorem cached_eq_some {round : Round} {att : Attestation} (h : p.cached round = some att) :
    att.round ≤ round ∧ round.val - att.round.val < maxAgeRounds := by
  unfold cached at h
  split at h
  · split at h
    · obtain rfl := Option.some.inj h
      assumption
    · cases h
  · cases h
  · cases h
  · cases h

/-- **An answer of `attest`** comes from the cache, or leaves a fetch for the round in flight. -/
theorem attest_cases (h : p.Awaited) (round : Round) :
    (∃ att, (p.attest round).2 = .ok att ∧ att.round ≤ round ∧
        round.val - att.round.val < maxAgeRounds) ∨
      ∃ e, (p.attest round).2 = .error e ∧ ∃ fetch ∈ (p.attest round).1.fetches,
        fetch.round = round ∧ fetch.generation = (p.attest round).1.shared.generation := by
  rcases Option.eq_none_or_eq_some (p.cached round) with hcached | ⟨att, hcached⟩
  · refine Or.inr ?_
    cases hawaits : p.awaits round with
    | true =>
      refine ⟨"token fetch in flight", by simp [attest, hcached, hawaits], ?_⟩
      simpa [attest, hcached, hawaits] using h round hawaits
    | false =>
      exact ⟨"no token yet for this round", by simp [attest, hcached, hawaits],
        ⟨round, p.shared.generation + 1⟩, by simp [attest, hcached, hawaits], rfl,
        by simp [attest, hcached, hawaits]⟩
  · exact Or.inl ⟨att, by simp [attest, hcached], cached_eq_some hcached⟩

end BridgeProver

section Step
variable {s : State ι}

theorem awaited_step (h : s.prover.Awaited) (op : Op ι) : (s.step op).prover.Awaited := by
  cases op with
  | adopt | setRound | discard => exact h
  | complete k outcome => exact BridgeProver.awaited_complete h k outcome
  | refresh i =>
    unfold State.step
    dsimp only
    split <;> exact h
  | next i =>
    unfold State.step
    dsimp only
    rcases Option.eq_none_or_eq_some (s.calls i) with hcall | ⟨call, hcall⟩
    · rw [hcall]
      exact h
    · rw [hcall, Option.elim_some]
      cases call with
      | validity | deliver => exact h
      | judge | hold =>
        unfold State.proceed
        dsimp only
        split <;> exact h
      | attest round validity judged =>
        have hattest := BridgeProver.awaited_attest h round
        unfold State.proceed
        dsimp only
        cases hanswer : (s.prover.attest round).2 <;> exact hattest

theorem awaited (ops : List (Op ι)) : (after ops).prover.Awaited := by
  induction ops using List.reverseRecOn with
  | nil =>
    intro round hawaits
    cases hawaits
  | append_singleton ops op ih =>
    rw [after_concat]
    exact awaited_step ih op

/-! ## What a refresh is to leave -/

/-- The attestation that was judged is missing, or has passed half of the validity. -/
def PassedHalf (judged : Option Attestation) (round validity : Round) : Prop :=
  ∀ held ∈ judged, held.round.val + validity.val / 2 ≤ round.val

/-- The call has a valid attestation newer than the one judged, or a fetch for its round is in
flight. -/
def Replaced (s : State ι) (i : ι) (round validity : Round) (judged : Option Attestation) : Prop :=
  (∃ att, s.calls i = some (.hold att) ∧ att.round ≤ round ∧
      round.val < att.round.val + validity.val ∧ ∀ held ∈ judged, held.round < att.round) ∨
    ∃ fetch ∈ s.prover.fetches, fetch.round = round ∧
      fetch.generation = s.prover.shared.generation

theorem replaced_step (hawaited : s.prover.Awaited) {i : ι} {round validity : Round}
    {judged : Option Attestation} (hcall : s.calls i = some (.attest round validity judged))
    (hpassed : PassedHalf judged round validity) (hvalidity : 100 ≤ validity.val) :
    Replaced (s.step (.next i)) i round validity judged := by
  unfold State.step
  dsimp only
  rw [hcall, Option.elim_some]
  unfold State.proceed
  dsimp only
  rcases BridgeProver.attest_cases hawaited round with
    ⟨att, hanswer, hle, hage⟩ | ⟨e, hanswer, hfetch⟩
  · rw [hanswer]
    have hle : att.round.val ≤ round.val := hle
    unfold maxAgeRounds at hage
    refine Or.inl ⟨att, Function.update_self .., hle, by omega, fun held hheld => ?_⟩
    have hhalf := hpassed held hheld
    exact Fin.lt_def.mpr (by omega)
  · rw [hanswer]
    exact Or.inr hfetch

/-- What is held is not made older by a step that does not discard it. -/
theorem held_step {op : Op ι} (hop : op ≠ .discard) {held : Attestation}
    (hheld : s.own.held = some held) :
    ∃ held', (s.step op).own.held = some held' ∧ held.round ≤ held'.round := by
  cases op with
  | discard => exact absurd rfl hop
  | adopt | setRound | complete => exact ⟨held, hheld, le_rfl⟩
  | refresh i =>
    refine ⟨held, ?_, le_rfl⟩
    unfold State.step
    dsimp only
    split <;> exact hheld
  | next i =>
    unfold State.step
    dsimp only
    rcases Option.eq_none_or_eq_some (s.calls i) with hcall | ⟨call, hcall⟩
    · rw [hcall]
      exact ⟨held, hheld, le_rfl⟩
    · rw [hcall, Option.elim_some]
      cases call with
      | validity => exact ⟨held, hheld, le_rfl⟩
      | judge =>
        refine ⟨held, ?_, le_rfl⟩
        unfold State.proceed
        dsimp only
        split <;> exact hheld
      | attest round validity judged =>
        refine ⟨held, ?_, le_rfl⟩
        unfold State.proceed
        dsimp only
        cases hanswer : (s.prover.attest round).2 <;> exact hheld
      | deliver att =>
        refine ⟨held, ?_, le_rfl⟩
        unfold State.proceed OwnAttestation.deliver
        dsimp only
        split <;> exact hheld
      -- the one call that changes what is held, and not for an earlier round
      | hold att =>
        unfold State.proceed OwnAttestation.hold
        dsimp only
        rw [hheld, Option.any_some]
        by_cases hnewer : att.round < held.round
        · rw [if_pos (decide_eq_true hnewer)]
          exact ⟨held, hheld, le_rfl⟩
        · rw [if_neg (by simpa using hnewer), if_neg (by simpa using hnewer)]
          exact ⟨att, rfl, Fin.not_lt.mp hnewer⟩

/-- A fetch that another has superseded only leaves the list. -/
theorem superseded_step {k : Nat} {fetch : Fetch} (hk : s.prover.fetches[k]? = some fetch)
    (hgen : fetch.generation ≠ s.prover.shared.generation) (outcome : Except FetchError Bytes) :
    s.step (.complete k outcome) =
      { s with prover := ⟨s.prover.shared, s.prover.fetches.eraseIdx k⟩ } := by
  unfold State.step BridgeProver.complete
  dsimp only
  rw [hk, Option.elim_some, if_neg hgen.symm]

end Step

/-! ## Whole runs -/

namespace ReissueToy

/-- An attestation of round 0 is fetched, held and delivered under a policy; half its validity
later it is judged again, and the prover asked. -/
def shortWindow (validity : Round) : List (Op Unit) :=
  [.adopt validity, .refresh (), .next (), .next (), .next (), .complete 0 (.ok []),
    .refresh (), .next (), .next (), .next (), .next (), .next (),
    .setRound ⟨validity.val / 2, by omega⟩, .refresh (), .next (), .next ()]

/-- A fetch for round 1 takes the place of the one for round 0, which is still in flight. -/
def superseding : List (Op Unit) :=
  [.refresh (), .next (), .next (), .next (), .setRound 1, .refresh (), .next (), .next (),
    .next ()]

/-- The prover hands the attestation back. -/
def handsBack (validity : Round) : Bool :=
  decide ((after (shortWindow validity)).calls () = some (.attest ⟨validity.val / 2, by omega⟩
    validity (some ⟨0, []⟩))) &&
  decide ((after (shortWindow validity ++ [.next ()])).calls () = some (.hold ⟨0, []⟩)) &&
  (after (shortWindow validity ++ [.next ()])).prover.fetches.isEmpty

theorem handsBack_of_lt {validity : Round} (hpos : 1 ≤ validity)
    (hlt : validity < Tee.defaultValidityRounds) : handsBack validity = true := by
  have hall : (List.range 100).all (fun n => decide (n = 0) || handsBack (Fin.ofNat _ n)) =
      true := by
    decide +kernel
  have hn := List.all_eq_true.mp hall validity.val (List.mem_range.mpr hlt)
  rw [Bool.or_eq_true, decide_eq_true_eq, Fin.ofNat_val_eq_self] at hn
  exact hn.resolve_left (Nat.one_le_iff_ne_zero.mp hpos)

end ReissueToy

/-- **A stale attestation is replaced**, or a fetch for the round is in flight, where the policy's
window is at least the default one; under any shorter window a run hands back the very attestation
that was judged stale.  What a superseded fetch brings is dropped, and the round of what is held
goes back only by discarding it. -/
theorem stale_replaced :
    (∀ (ops : List (Op ι)) i round validity judged,
      (after ops).calls i = some (.attest round validity judged) →
        PassedHalf judged round validity → Tee.defaultValidityRounds ≤ validity →
          Replaced (after (ops ++ [.next i])) i round validity judged) ∧
    (∀ (ops : List (Op ι)) k fetch outcome, (after ops).prover.fetches[k]? = some fetch →
      fetch.generation ≠ (after ops).prover.shared.generation →
        after (ops ++ [.complete k outcome]) = { after ops with
          prover := ⟨(after ops).prover.shared, (after ops).prover.fetches.eraseIdx k⟩ }) ∧
    (∀ (ops : List (Op ι)) op held, op ≠ .discard → (after ops).own.held = some held →
      ∃ held', (after (ops ++ [op])).own.held = some held' ∧ held.round ≤ held'.round) ∧
    (∀ validity : Round, 1 ≤ validity → validity < Tee.defaultValidityRounds →
      ∃ round judged, (after (ReissueToy.shortWindow validity)).calls () =
          some (.attest round validity judged) ∧
        PassedHalf judged round validity ∧
        ¬ Replaced (after (ReissueToy.shortWindow validity ++ [.next ()])) () round validity
          judged) := by
  refine ⟨fun ops i round validity judged hcall hpassed hvalidity => ?_,
    fun ops k fetch outcome hk hgen => ?_, fun ops op held hop hheld => ?_, ?_⟩
  · rw [after_concat]
    exact replaced_step (awaited ops) hcall hpassed hvalidity
  · rw [after_concat]
    exact superseded_step hk hgen outcome
  · rw [after_concat]
    exact held_step hop hheld
  · intro validity hpos hlt
    -- A shorter window hands the stale attestation back, with no fetch under way.
    have hback := ReissueToy.handsBack_of_lt hpos hlt
    unfold ReissueToy.handsBack at hback
    rw [Bool.and_eq_true, Bool.and_eq_true, decide_eq_true_eq, decide_eq_true_eq,
      List.isEmpty_iff] at hback
    obtain ⟨⟨hcall, hhold⟩, hfetches⟩ := hback
    refine ⟨_, _, hcall, ?_, ?_⟩
    · rintro held hheld
      obtain rfl := Option.some.inj hheld
      exact (Nat.zero_add _).le
    · rintro (⟨att, hatt, -, -, hnewer⟩ | ⟨fetch, hmem, -⟩)
      · rw [hhold, Option.some_inj, Call.hold.injEq] at hatt
        rw [← hatt] at hnewer
        exact absurd (hnewer _ rfl) (lt_irrefl _)
      · rw [hfetches] at hmem
        cases hmem

open ReissueToy in
theorem stale_replaced_toy :
    Replaced (after (shortWindow 100 ++ [.next ()])) () 50 100 (some ⟨0, []⟩) ∧
    after (superseding ++ [.complete 0 (.ok [])]) =
      { after superseding with prover := ⟨⟨.pending 1, 2⟩, [⟨1, 2⟩]⟩ } ∧
    (∃ held', (after (shortWindow 100 ++ [Op.next ()])).own.held = some held' ∧ 0 ≤ held'.round) ∧
    ∃ round judged, (after (shortWindow 10)).calls () = some (.attest round 10 judged) ∧
      PassedHalf judged round 10 ∧
      ¬ Replaced (after (shortWindow 10 ++ [.next ()])) () round 10 judged :=
  ⟨(stale_replaced (ι := Unit)).1 (shortWindow 100) () 50 100 (some ⟨0, []⟩) (by decide +kernel)
      (by rintro held hheld; obtain rfl := Option.some.inj hheld; decide) (by decide),
    (stale_replaced (ι := Unit)).2.1 superseding 0 ⟨0, 1⟩ (.ok []) (by rfl) (by decide +kernel),
    (stale_replaced (ι := Unit)).2.2.1 (shortWindow 100) (.next ()) ⟨0, []⟩ (by simp) (by rfl),
    (stale_replaced (ι := Unit)).2.2.2 10 (by decide) (by decide)⟩

open ReissueToy in
/-- Under a policy of ten rounds the prover serves what the runtime judged stale five rounds on. -/
theorem stale_handed_back :
    (after (shortWindow 10)).calls () = some (.attest 5 10 (some ⟨0, []⟩)) ∧
      (after (shortWindow 10 ++ [.next ()])).calls () = some (.hold ⟨0, []⟩) ∧
      (after (shortWindow 10 ++ [.next ()])).prover.fetches = [] := by
  decide +kernel

end Ffi
end Anymone
