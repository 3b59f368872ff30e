import Anymone.AdcnetScheduledPartials

/-! # A scheduled ADCNet subnet

The leader, the relays and the readers of a subnet, over messages that reach them in any order.
What is assumed of the network is that what is signed by the leader was signed by it
(`Subnet.HonestSets`); every other sender may send what it likes.

The leader signs one set in a round, so the partials of the relays are over the same clients
(`partials_agree`).
-/

namespace Anymone
namespace ScheduledAdcnet
variable {C : ServiceCrate}

/-- `Signed::new` keeps the object. -/
structure ServiceCrate.Signs (C : ServiceCrate) : Prop where
  set : ∀ key set, (C.signSet key set).object = set
  result : ∀ key result, (C.signResult key result).object = result

namespace ServerSession
open ServerOp
variable {cfg : ServerConfig C} {s : ServerSession C}

/-! ## The sets of a leader -/

/-- The sets a relay signs in a run. -/
def sets (cfg : ServerConfig C) (svc : C.Svc) (ops : List (ServerOp C)) : List C.SignedSet :=
  Trace.observed (new cfg svc 1) (fun s op => (call cfg s op).1) (setsOf cfg) ops

/-- The second phase of the round has been entered. -/
def checkpointed (ops : List (ServerOp C)) : Bool :=
  ops.foldl (fun entered op => match op with
    | .begin .. => false
    | .checkpoint k _ => entered || decide (k = 1)
    | _ => entered) false

theorem checkpointed_concat (ops : List (ServerOp C)) (op : ServerOp C) :
    checkpointed (ops ++ [op]) = match op with
      | .begin .. => false
      | .checkpoint k _ => checkpointed ops || decide (k = 1)
      | _ => checkpointed ops := by
  unfold checkpointed
  rw [List.foldl_append]
  rfl

/-- The worker enters each phase of a round once. -/
def Paced (ops : List (ServerOp C)) : Prop :=
  ∀ σ ∈ Trace.steps ops, ∀ good, σ.2 = .checkpoint 1 good → checkpointed σ.1 = false

theorem Paced.of_isPrefix {l ops : List (ServerOp C)} (h : Paced ops) (hl : l <+: ops) : Paced l :=
  fun σ hσ => h σ (Trace.mem_steps_mono hl hσ)

/-- Only a checkpoint signs a set, and one at most, for the round of the leader. -/
theorem setsOf_cases (hlaws : C.Signs) (s : ServerSession C) (op : ServerOp C) :
    s.setsOf cfg op = [] ∨ ∃ good signed, op = .checkpoint 1 good ∧ isLeader cfg = true ∧
      s.setsOf cfg op = [signed] ∧ signed.object.round = s.currentRound := by
  cases op with
  | begin round good => exact Or.inl rfl
  | inbound good msg =>
    refine Or.inl ?_
    rcases msg with _ | client | signed | signed | signed
    · rfl
    · rfl
    · exact sets_decryption _
    · show (if isLeader cfg then s.onPartial cfg signed else (s, [])).2.filterMap Sent.set? = []
      split
      · obtain ⟨-, results, hresults⟩ := @sameRound_onPartial _ cfg s signed
        rw [hresults]
        exact sets_broadcast results
      · rfl
    · rfl
  | checkpoint k good =>
    rcases @checkpoint_cases _ cfg s k good with hnone | ⟨rfl, hleads, hsets, -⟩
    · refine Or.inl ?_
      unfold setsOf
      rw [show s.call cfg (.checkpoint k good) = (s, []) from hnone]
      rfl
    · exact Or.inr ⟨good, _, rfl, hleads, hsets, congrArg ScheduledSet.round (hlaws.set _ _)⟩
  | finish =>
    refine Or.inl ?_
    obtain ⟨-, results, hresults⟩ := @sameRound_broadcastResult _ cfg s
    show (s.broadcastResult cfg).2.filterMap Sent.set? = []
    rw [hresults]
    exact sets_broadcast results
  | setMisbehavior mode => exact Or.inl rfl

/-- What the sets of a run keep. -/
structure Announced (rounds : List Round) (current : Int) (entered : Bool)
    (sets : List C.SignedSet) : Prop where
  once : (sets.map (fun signed => signed.object.round)).Nodup
  begun : ∀ signed ∈ sets, signed.object.round ∈ rounds.map wireRound
  /-- As long as the phase has not been entered, no set has been signed in the round. -/
  free : entered = false → ∀ signed ∈ sets, signed.object.round ≠ current

theorem announced_after (hlaws : C.Signs) (cfg : ServerConfig C) (svc : C.Svc)
    {ops : List (ServerOp C)} (hdriven : Driven ops) (hpaced : Paced ops) :
    Announced (begun ops) (after cfg svc ops).currentRound (checkpointed ops)
      (sets cfg svc ops) := by
  induction ops using List.reverseRecOn with
  | nil => exact ⟨List.nodup_nil, nofun, fun _ => nofun⟩
  | append_singleton ops op ih =>
    have ih := ih (hdriven.of_isPrefix (List.prefix_append ops [op]))
      (hpaced.of_isPrefix (List.prefix_append ops [op]))
    have hround := currentRound_after cfg svc ops
    have hpace := hpaced (ops, op) (by rw [Trace.steps_concat]; simp)
    have hsame := fun hop => @round_call _ cfg (after cfg svc ops) op hop
    unfold after at ih hround hsame ⊢
    unfold sets at ih ⊢
    rw [Trace.run_concat, Trace.observed_concat, begun_concat, checkpointed_concat]
    generalize Trace.run (new cfg svc 1) (fun s op => (call cfg s op).1) ops = s
      at ih hround hsame ⊢
    cases hop : op.beginning with
    | some round =>
      cases op with
      | begin r good =>
        cases hop
        have hsets : setsOf cfg s (.begin round good) = [] := rfl
        rw [hsets, List.append_nil]
        refine ⟨ih.once, ?_, ?_⟩
        · intro signed hsigned
          rw [List.map_append]
          exact List.mem_append_left _ (ih.begun signed hsigned)
        · -- The round is new, so none of the sets is for it.
          intro _ signed hsigned heq
          have heq : signed.object.round = wireRound round := heq
          exact hdriven.fresh rfl (heq ▸ ih.begun signed hsigned)
      | _ => cases hop
    | none =>
      rw [hsame hop, show begun ops ++ (none : Option Round).toList = begun ops from
        List.append_nil _]
      -- only a checkpoint signs a set, and it signs one for the current round
      rcases setsOf_cases hlaws s op with hnone | ⟨good, signed, rfl, -, hone, hsround⟩
      · rw [hnone, List.append_nil]
        refine ⟨ih.once, ih.begun, fun hfree => ih.free ?_⟩
        cases op with
        | begin r good => cases hop
        | checkpoint k good => exact (Bool.or_eq_false_iff.mp hfree).1
        | inbound good msg => exact hfree
        | finish => exact hfree
        | setMisbehavior mode => exact hfree
      · obtain ⟨r, hlast, hround⟩ := hround (hdriven.begun_ne_nil hop)
        -- the first checkpoint of the round, so no set of it is there yet
        have hnew := ih.free (hpace good rfl)
        rw [hone]
        refine ⟨?_, ?_, fun hfree => ?_⟩
        · rw [List.map_append, List.map_singleton]
          refine List.Nodup.append ih.once (List.nodup_singleton _)
            (List.disjoint_singleton.mpr fun hmem => ?_)
          obtain ⟨other, hother, heq⟩ := List.mem_map.mp hmem
          exact hnew other hother (heq.trans hsround)
        · intro signed' hmem
          rcases List.mem_append.mp hmem with hmem | hmem
          · exact ih.begun signed' hmem
          · rw [List.mem_singleton.mp hmem, hsround, hround]
            exact List.mem_map_of_mem (List.mem_of_getLast? hlast)
        · have hentered : (checkpointed ops || decide (1 = 1)) = false := hfree
          simp at hentered

end ServerSession

/-! ## The calls of a reader -/

/-- A call of a reader. -/
inductive WatchOp (C : ServiceCrate) where
  | inbound (msg : Option (Wire C))
  | endRound

namespace WatchSession
variable (cfg : ServerConfig C)

def call (w : WatchSession C) : WatchOp C → WatchSession C × List Bytes
  | .inbound msg => (w.onInbound cfg msg, [])
  | .endRound => w.endRound

/-- The reader after the calls. -/
def after (ops : List (WatchOp C)) : WatchSession C :=
  Trace.run new (fun w op => (call cfg w op).1) ops

/-- What it has read: what has gone out, and what is to go out at the end of the round. -/
def read (ops : List (WatchOp C)) : List Bytes :=
  Trace.observed new (fun w op => (call cfg w op).1) (fun w op => (call cfg w op).2) ops ++
    (after cfg ops).decoded

end WatchSession

/-! ## The subnet -/

open ServerOp ScheduledAdcnet.ServerSession

/-- The relays of a subnet by their identities, as one configuration has them. -/
structure Subnet (C : ServiceCrate) where
  leader : Pubkey
  relay : Pubkey → ServerConfig C
  svc : Pubkey → C.Svc
  identity : ∀ i, (relay i).identity = i
  follows : ∀ i, (relay i).leader = leader

/-- A call of one of the parties. -/
inductive SubnetEvent (C : ServiceCrate) where
  | relay (i : Pubkey) (op : ServerOp C)
  | watch (w : Nat) (op : WatchOp C)

namespace Subnet
variable (S : Subnet C)

/-- The calls of a relay. -/
def relayOps (evs : List (SubnetEvent C)) (i : Pubkey) : List (ServerOp C) :=
  evs.filterMap (fun e => match e with
    | .relay j op => if j = i then some op else none
    | _ => none)

/-- The calls of a reader. -/
def watchOps (evs : List (SubnetEvent C)) (w : Nat) : List (WatchOp C) :=
  evs.filterMap (fun e => match e with
    | .watch v op => if v = w then some op else none
    | _ => none)

/-- The sets the leader signed. -/
def announced (evs : List (SubnetEvent C)) : List C.SignedSet :=
  ServerSession.sets (S.relay S.leader) (S.svc S.leader) (relayOps evs S.leader)

/-- The partials a relay made. -/
def disclosures (evs : List (SubnetEvent C)) (i : Pubkey) : List (Disclosure C) :=
  ServerSession.disclosures (S.relay i) (S.svc i) (relayOps evs i)

/-- The message a call brings. -/
def messageOf : SubnetEvent C → Option (Wire C)
  | .relay _ (.inbound _ msg) => msg
  | .watch _ (.inbound msg) => msg
  | _ => none

/-- The leader runs its session, and a set of the leader was signed by it. -/
structure HonestSets (evs : List (SubnetEvent C)) : Prop where
  driven : Driven (relayOps evs S.leader)
  paced : Paced (relayOps evs S.leader)
  sets : ∀ σ ∈ Trace.steps evs, ∀ signed, messageOf σ.2 = some (.clientSet signed) →
    C.recoverSet signed = some S.leader.val → ∃ own ∈ S.announced σ.1, own.object = signed.object

variable {S}

theorem relayOps_mono {l evs : List (SubnetEvent C)} (h : l <+: evs) (i : Pubkey) :
    relayOps l i <+: relayOps evs i := by
  obtain ⟨rest, rfl⟩ := h
  rw [relayOps, relayOps, List.filterMap_append]
  exact List.prefix_append _ _

/-- A call of a relay is a step of the run. -/
theorem mem_steps_relay {i : Pubkey} {evs : List (SubnetEvent C)} {l : List (ServerOp C)}
    {op : ServerOp C} (h : (l, op) ∈ Trace.steps (relayOps evs i)) :
    ∃ pre, (pre, .relay i op) ∈ Trace.steps evs ∧ relayOps pre i = l := by
  obtain ⟨pre, e, hσ, he, hl⟩ := Trace.mem_steps_filterMap h
  cases e with
  | relay j op' =>
    dsimp only at he
    split at he
    next hj =>
      cases he
      exact ⟨pre, hj ▸ hσ, hl⟩
    next => cases he
  | watch w op' => cases he

theorem mem_sets {evs : List (SubnetEvent C)} {i : Pubkey} {l : List (ServerOp C)}
    {op : ServerOp C} {signed : C.SignedSet} (hσ : (l, op) ∈ Trace.steps (relayOps evs i))
    (h : signed ∈ setsOf (S.relay i) (after (S.relay i) (S.svc i) l) op) :
    signed ∈ ServerSession.sets (S.relay i) (S.svc i) (relayOps evs i) :=
  List.mem_flatMap.mpr ⟨(l, op), hσ, h⟩

theorem announced_subset {l evs : List (SubnetEvent C)} (h : l <+: evs) :
    S.announced l ⊆ S.announced evs := by
  intro signed hsigned
  obtain ⟨⟨pre, op⟩, hσ, hmem⟩ := List.mem_flatMap.mp hsigned
  exact List.mem_flatMap.mpr ⟨(pre, op), Trace.mem_steps_mono (relayOps_mono h _) hσ, hmem⟩

/-- A partial is over a set that the leader signed for its round. -/
theorem disclosure_announced (hlaws : C.Signs) {evs : List (SubnetEvent C)} (h : S.HonestSets evs)
    {i : Pubkey} {d : Disclosure C} (hd : d ∈ S.disclosures evs i) :
    ∃ own ∈ S.announced evs, own.object = ⟨d.round, d.clients⟩ := by
  obtain ⟨⟨l, op⟩, hσ, hmem⟩ := List.mem_flatMap.mp hd
  have hmem : d ∈ disclosuresOf (S.relay i) (after (S.relay i) (S.svc i) l) op := hmem
  have hop : op.beginning = none := by
    cases op with
    | begin r good => cases hmem
    | _ => rfl
  rcases @opens_call _ (S.relay i) (after (S.relay i) (S.svc i) l) op hop with
    ⟨-, hnone⟩ | ⟨signed, hbrings, hopens⟩
  · rw [hnone] at hmem
    cases hmem
  · generalize disclosuresOf (S.relay i) (after (S.relay i) (S.svc i) l) op = ds at hmem hopens
    cases hopens with
    | ignored => cases hmem
    | closed => cases hmem
    | disclosed hround hfree hselected hset hsigner hsetround share =>
      rw [List.mem_singleton.mp hmem]
      have hobject : signed.object =
          ⟨(after (S.relay i) (S.svc i) l).currentRound, signed.object.clients⟩ := by
        rw [← hsetround]
      cases hbrings with
      | came good signed =>
        -- The set came in, so its leader is the leader of the subnet.
        obtain ⟨pre, hpre, -⟩ := mem_steps_relay hσ
        obtain ⟨own, hown, heq⟩ := h.sets _ hpre signed rfl (S.follows i ▸ hsigner)
        exact ⟨own, announced_subset
          ((List.prefix_append pre _).trans (Trace.prefix_of_mem_steps hpre)) hown,
          heq.trans hobject⟩
      | own k good signed hsigned =>
        -- Only the leader signs sets.
        rcases @setsOf_cases _ (S.relay i) hlaws (after (S.relay i) (S.svc i) l)
          (.checkpoint k good) with hnone | ⟨_, _, -, hleads, -⟩
        · rw [hnone] at hsigned
          cases hsigned
        · have hi : i = S.leader := by
            have := of_decide_eq_true hleads
            rwa [S.identity, S.follows] at this
          subst hi
          exact ⟨signed, mem_sets hσ hsigned, hobject⟩

/-- **The relays of an honest leader disclose over the same clients in a round.** -/
theorem partials_agree (hlaws : C.Signs) (evs : List (SubnetEvent C)) (h : S.HonestSets evs)
    (i j : Pubkey) : ∀ d ∈ S.disclosures evs i, ∀ d' ∈ S.disclosures evs j, d.round = d'.round →
      d.clients = d'.clients ∧ PartialOver (S.svc i) d ∧ PartialOver (S.svc j) d' := by
  intro d hd d' hd' hround
  refine ⟨?_, partialOver_after _ _ _ d hd, partialOver_after _ _ _ d' hd'⟩
  obtain ⟨own, hown, heq⟩ := disclosure_announced hlaws h hd
  obtain ⟨own', hown', heq'⟩ := disclosure_announced hlaws h hd'
  have honce := (announced_after hlaws (S.relay S.leader) (S.svc S.leader) h.driven h.paced).once
  have hsame : own = own' := List.inj_on_of_nodup_map honce hown hown'
    (by rw [heq, heq', hround])
  rw [hsame, heq'] at heq
  exact (congrArg ScheduledSet.clients heq).symm

end Subnet

/-! ## A subnet to run -/

namespace Toy
open ScheduledAdcnet.Subnet

/-- Identity 1 leads. -/
def subnet : Subnet crate where
  leader := identity 1
  relay := relay
  svc _ := (0, 0)
  identity _ := rfl
  follows _ := rfl

/-- The leader collects two clients and signs the set of them; another's set, over one of them,
comes to a relay first. -/
def collects : List (SubnetEvent crate) :=
  [.relay (identity 1) (.begin 0 good), .relay (identity 2) (.begin 0 good),
    .relay (identity 3) (.begin 0 good),
    .relay (identity 1) (came (.client (client 1 [] 6))),
    .relay (identity 1) (came (.client (client 1 [] 5))),
    .relay (identity 2) (came (.clientSet ⟨⟨1, [client 1 [] 5]⟩, (identity 7).1⟩)),
    .relay (identity 1) (.checkpoint 1 good),
    .relay (identity 3) (came (signedSet 1 [client 1 [] 5, client 1 [] 6])),
    .relay (identity 2) (came (signedSet 1 [client 1 [] 5, client 1 [] 6]))]

instance : DecidableEq (ScheduledSet crate.Sig crate.Word) :=
  inferInstanceAs (DecidableEq (ScheduledSet Bytes Nat))

/-- A set of the leader was signed by it, checked at one step. -/
def honestSet (σ : List (SubnetEvent crate) × SubnetEvent crate) : Bool :=
  match messageOf σ.2 with
  | some (.clientSet signed) =>
      decide (crate.recoverSet signed ≠ some (identity 1).1) ||
        (subnet.announced σ.1).any (fun own => decide (own.object = signed.object))
  | _ => true

theorem signs : crate.Signs := ⟨fun _ _ => rfl, fun _ _ => rfl⟩

theorem honestSets_of_steps {evs : List (SubnetEvent crate)}
    (hdriven : Driven (relayOps evs (identity 1))) (hpaced : Paced (relayOps evs (identity 1)))
    (h : ∀ σ ∈ Trace.steps evs, honestSet σ = true) : subnet.HonestSets evs where
  driven := hdriven
  paced := hpaced
  sets σ hσ signed hmsg hleader := by
    have hset := h σ hσ
    unfold honestSet at hset
    rw [hmsg] at hset
    rcases Bool.or_eq_true_iff.mp hset with hother | hown
    · exact absurd hleader (of_decide_eq_true hother)
    · obtain ⟨own, hmem, heq⟩ := List.any_eq_true.mp hown
      exact ⟨own, hmem, of_decide_eq_true heq⟩

/-- The pace of the worker, checked at one step. -/
def pacedStep (σ : List (ServerOp crate) × ServerOp crate) : Bool :=
  match σ.2 with
  | .checkpoint k _ => decide (k ≠ 1) || !checkpointed σ.1
  | _ => true

theorem paced_of_steps {ops : List (ServerOp crate)}
    (h : ∀ σ ∈ Trace.steps ops, pacedStep σ = true) : Paced ops := by
  intro σ hσ good hop
  have hstep := h σ hσ
  unfold pacedStep at hstep
  rw [hop] at hstep
  simpa using hstep

theorem partials_agree_toy :
    (subnet.disclosures collects (identity 2)).length = 1 ∧
      (subnet.disclosures collects (identity 3)).length = 1 ∧
      ∀ d ∈ subnet.disclosures collects (identity 2),
        ∀ d' ∈ subnet.disclosures collects (identity 3), d.round = d'.round →
          d.clients = d'.clients ∧ PartialOver (0, 0) d ∧ PartialOver (0, 0) d' :=
  ⟨by decide +kernel, by decide +kernel, partials_agree signs collects
    (honestSets_of_steps ⟨by decide +kernel, by decide +kernel⟩
      (paced_of_steps (by decide +kernel)) (by decide +kernel)) (identity 2) (identity 3)⟩

end Toy
end ScheduledAdcnet
end Anymone
