import Anymone.Participation

/-! # One submission per node and round

The draw is a function of the configuration, the readiness and the factory, so workers
that call while these stay the same agree on it.  Workers that call on different sides
of a change need not: what keeps a node to one submission in a round is that the draw
of the round does not move once a worker has submitted in it.
-/

namespace Anymone
namespace AnymoneInner
variable {Policy S : Type} {P : ParticipationEnv Policy S}
variable {s s' : AnymoneInner Policy S} {subnet : SubnetId} {round : Round}

/-! ## What the draw depends on -/

theorem SameInputs.refl (s : AnymoneInner Policy S) : SameInputs s s := ⟨rfl, rfl, rfl⟩

theorem SameInputs.candidates (h : SameInputs s s') : s'.candidates = s.candidates := by
  obtain ⟨hconfig, hready, hfactory⟩ := h
  rw [AnymoneInner.candidates, AnymoneInner.candidates, hconfig, hready, hfactory]

theorem SameInputs.participationSubnet (h : SameInputs s s') :
    s'.participationSubnet P round = s.participationSubnet P round := by
  rw [AnymoneInner.participationSubnet, AnymoneInner.participationSubnet, h.candidates]

theorem sameInputs_dropSession : SameInputs s (s.dropSession P subnet) := by
  rw [dropSession]
  split
  · exact SameInputs.refl s
  · exact ⟨rfl, rfl, rfl⟩

theorem sameInputs_setSession {sess : Option S} : SameInputs s (s.setSession subnet sess) :=
  ⟨rfl, rfl, rfl⟩

theorem SameInputs.trans {s'' : AnymoneInner Policy S} (h : SameInputs s s')
    (h' : SameInputs s' s'') : SameInputs s s'' :=
  ⟨h'.1.trans h.1, h'.2.1.trans h.2.1, h'.2.2.trans h.2.2⟩

theorem sameInputs_retire : SameInputs s (s.retire P subnet) := by
  rw [retire]
  split
  · exact SameInputs.refl s
  · split
    · exact sameInputs_setSession
    · exact sameInputs_setSession.trans sameInputs_dropSession

theorem sameInputs_enter {submit : Bool} : SameInputs s (s.enter P subnet round submit) := by
  dsimp only [enter]
  split
  · split
    · exact sameInputs_setSession
    · exact ⟨rfl, rfl, rfl⟩
  · exact sameInputs_setSession

/-- A worker's call changes nothing another worker's draw reads. -/
theorem sameInputs_sync {coin : Bool} :
    SameInputs s (s.syncClientRound P subnet round coin) := by
  rw [syncClientRound]
  split
  · exact sameInputs_enter
  · split
    · exact sameInputs_dropSession
    · exact sameInputs_retire

/-- With something to draw from, one of the drawable subnets is drawn. -/
theorem participationSubnet_mem (h : s.candidates ≠ []) :
    ∃ n ∈ s.candidates, s.participationSubnet P round = some n := by
  have hlen : 0 < (s.candidates.insertionSort (· ≤ ·)).length := by
    rw [List.length_insertionSort]
    exact List.length_pos_iff.mpr h
  have hlt := Nat.mod_lt (P.drawHash round).val hlen
  refine ⟨_, ?_, List.getElem?_eq_getElem hlt⟩
  exact (List.mem_insertionSort (· ≤ ·)).mp (List.getElem_mem hlt)

/-! ## Submissions -/

/-- A list without repetitions whose members are all equal. -/
theorem length_le_one {α : Type} {l : List α} (hn : l.Nodup)
    (h : ∀ a ∈ l, ∀ b ∈ l, a = b) : l.length ≤ 1 := by
  cases l with
  | nil => exact Nat.zero_le 1
  | cons a l =>
    cases l with
    | nil => exact Nat.le_refl 1
    | cons b l =>
      have hab : a = b := h a List.mem_cons_self b (List.mem_cons_of_mem _ List.mem_cons_self)
      exact absurd (hab ▸ List.mem_cons_self) (List.nodup_cons.mp hn).1

theorem submission_eq_some {op : NodeOp Policy S}
    (h : s.submission P op = some (subnet, round)) :
    (∃ coin, op = .sync subnet round coin) ∧ s.participationSubnet P round = some subnet := by
  cases op with
  | sync n r coin =>
    rw [submission] at h
    split at h
    · rename_i hd
      cases h
      rw [decides] at hd
      split at hd
      · cases hd
      · split at hd
        · cases hd
        · have hdrawn := (Bool.and_eq_true _ _ ▸ Option.some.inj hd).1
          exact ⟨⟨coin, rfl⟩, of_decide_eq_true hdrawn⟩
    · cases h
  | _ => cases h

variable [DecidableEq Policy]

theorem submissions_concat (s : AnymoneInner Policy S) (ops : List (NodeOp Policy S))
    (op : NodeOp Policy S) :
    s.submissions P (ops ++ [op]) =
      s.submissions P ops ++ ((s.after P ops).submission P op).toList := by
  rw [submissions, Trace.steps_concat, List.filterMap_append]
  cases h : (s.after P ops).submission P op <;> simp [h, submissions]

/-- Every submission is a call of its worker. -/
theorem submissions_sublist (s : AnymoneInner Policy S) (ops : List (NodeOp Policy S)) :
    (s.submissions P ops).Sublist (calls ops) := by
  induction ops using List.reverseRecOn with
  | nil => exact List.Sublist.refl _
  | append_singleton ops op ih =>
    rw [submissions_concat, calls, List.filterMap_append]
    refine ih.append ?_
    cases h : (s.after P ops).submission P op with
    | none => exact List.nil_sublist _
    | some c =>
      obtain ⟨⟨coin, rfl⟩, -⟩ := submission_eq_some h
      exact List.Sublist.refl _

omit [DecidableEq Policy] in
/-- A call is among those still to come before it. -/
theorem mem_roundsAfter {ops pre : List (NodeOp Policy S)} {coin : Bool}
    (h : (pre, NodeOp.sync subnet round coin) ∈ Trace.steps ops) :
    round ∈ roundsAfter ops pre.length := by
  obtain ⟨post, rfl⟩ := Trace.mem_steps.mp h
  rw [roundsAfter, List.drop_left, calls, List.filterMap_cons]
  exact List.mem_cons_self

omit [DecidableEq Policy] in
theorem roundsAfter_mono {ops : List (NodeOp Policy S)} {m n : Nat} (h : m ≤ n)
    (hr : round ∈ roundsAfter ops n) : round ∈ roundsAfter ops m := by
  obtain ⟨k, rfl⟩ := Nat.exists_eq_add_of_le h
  rw [roundsAfter, ← List.drop_drop] at hr
  obtain ⟨c, hc, rfl⟩ := List.mem_map.mp hr
  exact List.mem_map_of_mem (((List.drop_sublist k _).filterMap _).subset hc)

/-- What the draw of a round submitted in has to stay, until its last call. -/
theorem submissions_drawn {ops : List (NodeOp Policy S)}
    (hkeep : ∀ σ ∈ Trace.steps ops, s.KeepsDraw P ops σ) :
    ∀ l, l <+: ops → ∀ c ∈ s.submissions P l, c.2 ∈ roundsAfter ops l.length →
      (s.after P l).participationSubnet P c.2 = some c.1 := by
  refine Trace.prefix_induction nofun ?_
  rintro ⟨pre, op⟩ hσ ih c hc hcalled
  rw [List.length_append, List.length_singleton] at hcalled
  rw [after_concat]
  rw [submissions_concat, List.mem_append] at hc
  rcases hc with hold | hnew
  · rw [hkeep _ hσ c hold hcalled]
    exact ih c hold (roundsAfter_mono (Nat.le_succ _) hcalled)
  · -- The call that submits leaves the draw it submitted on.
    obtain ⟨⟨coin, rfl⟩, hdrawn⟩ := submission_eq_some (Option.mem_toList.mp hnew)
    show AnymoneInner.participationSubnet P ((s.after P pre).syncClientRound P c.1 c.2 coin) c.2 = _
    rw [sameInputs_sync.participationSubnet]
    exact hdrawn

/-- A round is submitted in for one subnet only. -/
theorem submissions_agree {ops : List (NodeOp Policy S)}
    (hkeep : ∀ σ ∈ Trace.steps ops, s.KeepsDraw P ops σ) :
    ∀ l, l <+: ops → ∀ c ∈ s.submissions P l, ∀ d ∈ s.submissions P l, c.2 = d.2 → c = d := by
  refine Trace.prefix_induction nofun ?_
  rintro ⟨pre, op⟩ hσ ih
  have hpre : pre <+: ops := by
    obtain ⟨post, rfl⟩ := Trace.mem_steps.mp hσ
    exact List.prefix_append _ _
  -- The worker that submits last reads the draw the earlier one submitted on.
  have hlast : ∀ c ∈ s.submissions P pre, ∀ d, (s.after P pre).submission P op = some d →
      c.2 = d.2 → c = d := by
    rintro c hc d hd hround
    obtain ⟨⟨coin, rfl⟩, hdrawn⟩ := submission_eq_some hd
    have hkept := submissions_drawn hkeep pre hpre c hc (hround ▸ mem_roundsAfter hσ)
    rw [hround, hdrawn] at hkept
    exact Prod.ext (Option.some.inj hkept).symm hround
  intro c hc d hd hround
  rw [submissions_concat, List.mem_append, Option.mem_toList] at hc hd
  rcases hc with hc | hc <;> rcases hd with hd | hd
  · exact ih c hc d hd hround
  · exact hlast c hc d hd hround
  · exact (hlast d hd c hc hround.symm).symm
  · exact Option.some.inj (hc.symm.trans hd)

/-- **Once a worker has submitted in a round, no other does, as long as the draw of the round stays
until the last call for it; and while configuration and readiness stay, exactly one of the
drawable subnets holds the draw.** -/
theorem one_submission_per_round (P : ParticipationEnv Policy S) (s : AnymoneInner Policy S)
    (ops : List (NodeOp Policy S)) :
    (OncePerRound ops → (∀ σ ∈ Trace.steps ops, s.KeepsDraw P ops σ) →
      ∀ l, l <+: ops → ∀ r, ((s.submissions P l).filter (fun c => c.2 = r)).length ≤ 1) ∧
    (∀ pre r, pre <+: ops → (s.after P pre).candidates ≠ [] →
      (∀ l, pre <+: l → l <+: ops → SameInputs (s.after P pre) (s.after P l)) →
      ∃! n, n ∈ (s.after P pre).candidates ∧
        ∀ l, pre <+: l → l <+: ops → (s.after P l).participationSubnet P r = some n) := by
  constructor
  · intro honce hkeep l hl r
    have hnodup : ((s.submissions P l).filter (fun c => c.2 = r)).Nodup := by
      refine List.Nodup.filter _ ((submissions_sublist s l).nodup ?_)
      obtain ⟨rest, rfl⟩ := hl
      rw [OncePerRound, calls, List.filterMap_append] at honce
      exact honce.of_append_left
    refine length_le_one hnodup fun c hc d hd => ?_
    obtain ⟨hc, hcr⟩ := List.mem_filter.mp hc
    obtain ⟨hd, hdr⟩ := List.mem_filter.mp hd
    exact submissions_agree hkeep l hl c hc d hd
      ((of_decide_eq_true hcr).trans (of_decide_eq_true hdr).symm)
  · intro pre r hpre hne hsame
    obtain ⟨n, hn, hdraw⟩ : ∃ n ∈ (s.after P pre).candidates,
        (s.after P pre).participationSubnet P r = some n := participationSubnet_mem hne
    refine ⟨n, ⟨hn, fun l h1 h2 => ?_⟩, ?_⟩
    · rw [(hsame l h1 h2).participationSubnet]
      exact hdraw
    · rintro m ⟨-, hm⟩
      have := hm pre List.prefix_rfl hpre
      rw [hdraw] at this
      exact (Option.some.inj this).symm

end AnymoneInner

/-! ## A node with two workers -/

namespace ParticipationToy
open AnymoneInner

/-- A session is the cover rate it was given last. -/
def env : ParticipationEnv Unit U32 :=
  { validityRounds := fun _ => 10, drawHash := fun round => round, setCoverRate := fun _ r => r,
    hasPendingTransmissions := fun _ => false, canStage := fun _ => true,
    stage := fun sess _ => sess, requeued := fun _ => [], make := fun _ _ => 0 }

def relay : Pubkey := ⟨List.replicate 32 7, rfl⟩

def subnet (id : SubnetId) (attested : Bool) : Subnet :=
  ⟨id, [relay], .noop ⟨1000, 64, 0, 256⟩, oneBits, attested⟩

/-- Version `round`: one of the two subnets is attested. -/
def config (round : Round) (attested : SubnetId) : AnymoneRoundConfiguration Unit :=
  ⟨{ round, endpoints := ⟨[], []⟩, epochUnixMs := 0, services := [], relayExchangeKeys := [],
     subnets := [subnet 0 (attested = 0), subnet 1 (attested = 1)], relayClientAddrs := [],
     watchers := [], attestation := () }, []⟩

/-- A node without an attestation, with one pipe open. -/
def node : AnymoneInner Unit U32 :=
  { config := config 1 1, clientFactory := none, joined := [⟨List.replicate 20 1, rfl⟩],
    outbox := [[1], [2]], clients := ⟨none, 1, 10⟩, own := ⟨none, false⟩, session := fun _ => none }

/-- Both workers call for rounds five and six, and the configuration changes in between. -/
def quietRun : List (NodeOp Unit U32) :=
  [.sync 0 5 true, .queue [3], .sync 1 5 true, .adopt (config 2 0), .sync 0 6 true, .sync 1 6 true]

/-- Version two attests the other subnet, between the two calls. -/
def changedRun : List (NodeOp Unit U32) := [.sync 0 5 true, .adopt (config 2 0), .sync 1 5 true]

theorem quiet_one_submission :
    ((node.submissions env quietRun).filter (fun c => c.2 = 6)).length ≤ 1 ∧
      ∃! n, n ∈ node.candidates ∧ ∀ l, [] <+: l → l <+: [] →
        (node.after env l).participationSubnet env 5 = some n := by
  refine ⟨(one_submission_per_round env node quietRun).1 (by decide +kernel) (by decide +kernel)
    quietRun List.prefix_rfl 6, ?_⟩
  refine (one_submission_per_round env node []).2 [] 5 List.prefix_rfl (by decide +kernel) ?_
  intro l _ hl
  rw [List.prefix_nil.mp hl]
  exact SameInputs.refl _

/-- Subnets zero and one are both submitted to in round five. -/
theorem changed_config_submits_twice :
    OncePerRound changedRun ∧ node.submissions env changedRun = [(0, 5), (1, 5)] ∧
      ¬ ∀ r, ((node.submissions env changedRun).filter (fun c => c.2 = r)).length ≤ 1 := by
  have htwice : node.submissions env changedRun = [(0, 5), (1, 5)] := by decide +kernel
  refine ⟨by decide +kernel, htwice, fun h => ?_⟩
  have := h 5
  rw [htwice] at this
  exact absurd this (by decide)

end ParticipationToy
end Anymone
