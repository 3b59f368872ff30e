import Anymone.AdcnetAggregator
import Anymone.AdcnetOnce

/-! # An ADCNet subnet

A subnet of one leader, its relays and its group aggregators, over the messages that
reach them in any order.  What is assumed of the others is that they run their sessions
and that signatures and the sender of a message cannot be forged (`AdcnetSubnet.Honest`).

Every relay takes the one set the leader announces for a round (`announced_unique`), so
every share is made over it (`shares_over`), and the leader holds the shares of the
relays and nothing else (`filed_after`).
-/

namespace Anymone
variable {C : AdcnetCrate}

namespace AdcnetServerSession
open Adcnet AdcnetServerOp AdcnetAggregatorSession
variable {cfg : AdcnetServerConfig C} {s : AdcnetServerSession C}

/-! ## Contributions -/

/-- The contributions that came to a relay. -/
def came (ops : List (AdcnetServerOp C)) : List C.SignedContribution :=
  ops.filterMap (fun op => match op with
    | .inbound _ (some (.client contribution _)) _ => some contribution
    | _ => none)

/-- A contribution held is an old one or the one that came. -/
theorem items_onInbound {sender : PeerId} {msg : Option (AdcnetWire C)} {good : Pubkey → Bool}
    {t : U32} {items : List (ClientContribution × PublicKey)} {i : ClientContribution × PublicKey}
    (h : (s.onInbound cfg sender msg good).clientsByRound.get? t = some items) (hi : i ∈ items) :
    (∃ old, s.clientsByRound.get? t = some old ∧ i ∈ old) ∨
    ∃ contribution key, msg = some (.client contribution key) ∧
      C.recoverContribution contribution = some i ∧ i.1.round = t := by
  by_cases hmsg : ∃ contribution key, msg = some (.client contribution key)
  · obtain ⟨contribution, key, rfl⟩ := hmsg
    rw [onInbound] at h
    split at h
    -- refused, taken without a new item, or filed at the end of its round
    · rcases s.onClient_cases cfg good contribution key with heq | ⟨r, heq⟩ |
        ⟨c, signer, ke, hc, -, -, -, heq⟩
      · rw [heq] at h
        exact Or.inl ⟨items, h, hi⟩
      · rw [heq] at h
        have h : (s.clientsByRound.insert r ((s.clientsByRound.get? r).getD [])).get? t =
          some items := h
        rw [OrdMap.get?_insert] at h
        by_cases ht : t = r
        · rw [if_pos ht] at h
          cases h
          cases hold : s.clientsByRound.get? r with
          | none =>
            rw [hold] at hi
            cases hi
          | some old =>
            rw [hold] at hi
            exact Or.inl ⟨old, ht ▸ hold, hi⟩
        · rw [if_neg ht] at h
          exact Or.inl ⟨items, h, hi⟩
      · rw [heq] at h
        have h : (s.clientsByRound.insert c.round
          ((s.clientsByRound.get? c.round).getD [] ++ [(c, signer)])).get? t = some items := h
        rw [OrdMap.get?_insert] at h
        by_cases ht : t = c.round
        · rw [if_pos ht] at h
          cases h
          rcases List.mem_append.mp hi with hi | hi
          · cases hold : s.clientsByRound.get? c.round with
            | none =>
              rw [hold] at hi
              cases hi
            | some old =>
              rw [hold] at hi
              exact Or.inl ⟨old, ht ▸ hold, hi⟩
          · cases List.mem_singleton.mp hi
            exact Or.inr ⟨contribution, key, rfl, hc, ht.symm⟩
        · rw [if_neg ht] at h
          exact Or.inl ⟨items, h, hi⟩
    · exact Or.inl ⟨items, h, hi⟩
  · refine Or.inl ⟨items, ?_, hi⟩
    rcases s.onInbound_cases cfg sender msg good with
      ⟨-, -, _, _, _, _, heq, rfl | hclient, -⟩ | ⟨_, _, _, _, -, -, heq⟩ |
      ⟨_, _, -, -, heq⟩ | ⟨_, _, _, _, _, _, _, _, -, -, heq⟩
    · rwa [heq] at h
    · exact absurd hclient hmsg
    · rwa [heq] at h
    · rwa [heq] at h
    · rwa [heq] at h

/-- A share filed is an old one, or the one that came, in its signer's slot. -/
theorem filed_onInbound {sender : PeerId} {msg : Option (AdcnetWire C)} {good : Pubkey → Bool}
    {t sid : U32} {share : ServerShare} (h : (s.onInbound cfg sender msg good).Filed t sid share) :
    s.Filed t sid share ∨
    ∃ signed own signer, msg = some (.server signed) ∧
      C.recoverShare signed = some (own, signer) ∧ serverIdOf cfg signer = some sid ∧
      own.round = t ∧ share = { own with serverId := sid } := by
  by_cases hmsg : ∃ signed, msg = some (.server signed)
  · obtain ⟨signed, rfl⟩ := hmsg
    rw [onInbound] at h
    split at h
    · rcases s.onShare_cases cfg signed with heq | ⟨own, signer, slot, hr, hslot, -, heq⟩
      · rw [heq] at h
        exact Or.inl h
      · have hs : (s.onShare cfg signed).sharesByRound = s.sharesByRound.insert own.round
            (((s.sharesByRound.get? own.round).getD OrdMap.empty).insert slot
              { own with serverId := slot }) := by
          rw [heq]
        rcases h.of_insert hs with hold | ⟨ht, hsid, hshare⟩
        · exact Or.inl hold
        · subst hsid
          exact Or.inr ⟨signed, own, signer, rfl, hr, hslot, ht.symm, hshare⟩
    · exact Or.inl h
  · refine Or.inl ?_
    obtain ⟨pool, hpool, hget⟩ := h
    refine ⟨pool, ?_, hget⟩
    rcases s.onInbound_cases cfg sender msg good with
      ⟨-, -, _, _, _, _, heq, -, rfl | hserver⟩ | ⟨_, _, _, _, -, -, heq⟩ |
      ⟨_, _, -, -, heq⟩ | ⟨_, _, _, _, _, _, _, _, -, -, heq⟩
    · rwa [heq] at hpool
    · exact absurd hserver hmsg
    · rwa [heq] at hpool
    · rwa [heq] at hpool
    · rwa [heq] at hpool

/-- Every contribution held is for its round and came. -/
theorem items_after (cfg : AdcnetServerConfig C) (ops : List (AdcnetServerOp C)) : ∀ t items,
    (after cfg ops).clientsByRound.get? t = some items → ∀ i ∈ items,
      i.1.round = t ∧ Contributed (came ops) t (i.2, i.1.blinded) := by
  induction ops using List.reverseRecOn with
  | nil => exact nofun
  | append_singleton ops op ih =>
    intro t items h i hi
    have hcame : came (ops ++ [op]) = came ops ++ came [op] := List.filterMap_append
    have hold : ∀ old, (after cfg ops).clientsByRound.get? t = some old → i ∈ old →
        i.1.round = t ∧ Contributed (came (ops ++ [op])) t (i.2, i.1.blinded) := by
      intro old hget hmem
      obtain ⟨hround, hc⟩ := ih t old hget i hmem
      refine ⟨hround, hc.mono (fun c hc => ?_)⟩
      rw [hcame]
      exact List.mem_append_left _ hc
    rw [after_concat] at h
    cases op with
    | beginRound r =>
      have h : ((after cfg ops).clientsByRound.retain
        (fun r' _ => decide (r.toU32.saturatingSub roundWindow ≤ r'))).get? t = some items := h
      rw [OrdMap.get?_retain] at h
      exact hold items (Option.filter_eq_some_iff.mp h).1 hi
    | inbound sender msg good =>
      rcases items_onInbound h hi with ⟨old, hget, hmem⟩ | ⟨contribution, key, rfl, hc, hround⟩
      · exact hold old hget hmem
      · refine ⟨hround, contribution, ?_, ?_⟩
        · rw [hcame]
          exact List.mem_append_right _ List.mem_cons_self
        · rw [hc, ← hround]
    | endRound r =>
      have h : ((after cfg ops).endRound cfg r).session.clientsByRound.get? t = some items := h
      rw [(endRound_held cfg _ r t).1] at h
      split at h
      · cases h
      · exact hold items h hi
    | setMisbehavior mode => exact hold items h hi

end AdcnetServerSession

/-! ## The subnet -/

open Adcnet AdcnetServerOp AdcnetServerSession

/-- A leader, its relays by slot and its aggregators by group, as one configuration has
them. -/
structure AdcnetSubnet (C : AdcnetCrate) where
  leader : AdcnetServerConfig C
  relay : U32 → AdcnetServerConfig C
  aggregator : U32 → AdcnetAggregatorConfig
  groupCount : U32
  relay_follows : ∀ i, (relay i).isLeader = false ∧ (relay i).leaderPk = leader.leaderPk
  aggregator_group : ∀ g, (aggregator g).group = g ∧ (aggregator g).groupCount = groupCount
  aggregator_key : ∀ roster ∈ leader.aggregation, ∀ g, ∀ key ∈ roster.get? g,
    (aggregator g).identity = key

/-- A call of one of the parties. -/
inductive SubnetOp (C : AdcnetCrate) where
  | leader (op : AdcnetServerOp C)
  | relay (i : U32) (op : AdcnetServerOp C)
  | aggregator (g : U32) (op : AdcnetAggregatorOp C)

namespace AdcnetSubnet
variable (S : AdcnetSubnet C)

/-- The leader's calls. -/
def leaderOps (evs : List (SubnetOp C)) : List (AdcnetServerOp C) :=
  evs.filterMap (fun e => match e with
    | .leader op => some op
    | _ => none)

/-- The calls of one relay. -/
def relayOps (i : U32) (evs : List (SubnetOp C)) : List (AdcnetServerOp C) :=
  evs.filterMap (fun e => match e with
    | .relay j op => if j = i then some op else none
    | _ => none)

/-- The calls of one aggregator. -/
def aggregatorOps (g : U32) (evs : List (SubnetOp C)) : List (AdcnetAggregatorOp C) :=
  evs.filterMap (fun e => match e with
    | .aggregator h op => if h = g then some op else none
    | _ => none)

/-- The leader. -/
def leaderAfter (evs : List (SubnetOp C)) : AdcnetServerSession C := after S.leader (leaderOps evs)

/-- The sets the leader announced. -/
def announced (evs : List (SubnetOp C)) : List (U32 × List C.SignedKey) :=
  emitted S.leader EndRound.announced (leaderOps evs)

/-- The shares made in a slot: the leader has one too. -/
def shares (evs : List (SubnetOp C)) (sid : U32) : List (EmittedShare C) :=
  if sid = S.leader.serverId then emitted S.leader EndRound.shares (leaderOps evs)
  else emitted (S.relay sid) EndRound.shares (relayOps sid evs)

/-- What the aggregator of a group sent. -/
def aggregates (evs : List (SubnetOp C)) (g : U32) : List (AdcnetWire C) :=
  AdcnetAggregatorSession.outbound (S.aggregator g) (aggregatorOps g evs)

/-- The contribution a call brings. -/
def contributionOf : SubnetOp C → Option C.SignedContribution
  | .leader (.inbound _ (some (.client contribution _)) _) => some contribution
  | .aggregator _ (.inbound (some (.client contribution _)) _) => some contribution
  | _ => none

/-- The contributions that came to anyone. -/
def came (evs : List (SubnetOp C)) : List C.SignedContribution := evs.filterMap contributionOf

/-- The set a call brings to the leader or to a relay, with its sender. -/
def setOf : SubnetOp C → Option (PeerId × U32 × List C.SignedKey)
  | .leader (.inbound sender (some (.clientSet round clients)) _) => some (sender, round, clients)
  | .relay _ (.inbound sender (some (.clientSet round clients)) _) => some (sender, round, clients)
  | _ => none

/-- The share a call brings to the leader. -/
def shareOf : SubnetOp C → Option C.SignedShare
  | .leader (.inbound _ (some (.server signed)) _) => some signed
  | _ => none

/-- The words an aggregate signs. -/
def signedWords : AdcnetWire C → Option (Pubkey × Bytes × Bytes)
  | .groupAggregate round group blinded clients signer signature =>
      some (signer, groupAggregateSigningBytes C round group blinded clients, signature)
  | _ => none

/-- The aggregate a call brings to the leader. -/
def aggregateOf : SubnetOp C → Option (AdcnetWire C)
  | .leader (.inbound _ (some (.groupAggregate round group blinded clients signer signature)) _) =>
      some (.groupAggregate round group blinded clients signer signature)
  | _ => none

/-- Rounds go forward, only the leader speaks as the leader, and what is signed was signed
by its signer: a share by the relay of its slot, an aggregate by an aggregator with that
key, over the same bytes. -/
structure Honest (evs : List (SubnetOp C)) : Prop where
  leaderRounds : InOrder (leaderOps evs)
  relayRounds : ∀ i, InOrder (relayOps i evs)
  sets : ∀ σ ∈ Trace.steps evs, ∀ a ∈ setOf σ.2, a.1 = S.leader.leaderPk → a.2 ∈ S.announced σ.1
  shares : ∀ σ ∈ Trace.steps evs, ∀ signed ∈ shareOf σ.2, ∀ own ∈ C.recoverShare signed,
    ∀ sid ∈ serverIdOf S.leader own.2,
      ∃ e ∈ S.shares σ.1 sid, C.recoverShare e.signed = some own
  aggregates : ∀ σ ∈ Trace.steps evs, ∀ w ∈ aggregateOf σ.2, ∀ words ∈ signedWords w,
    C.verify words.1 words.2.1 words.2.2 = true → ∀ g, (S.aggregator g).identity = words.1 →
      ∃ g', (S.aggregator g').identity = words.1 ∧ ∃ w' ∈ S.aggregates σ.1 g',
        ∃ words' ∈ signedWords w', words'.2.1 = words.2.1

variable {S}

/-! ## Runs of the subnet -/

theorem leaderOps_mono {l evs : List (SubnetOp C)} (h : l <+: evs) :
    leaderOps l <+: leaderOps evs := by
  obtain ⟨rest, rfl⟩ := h
  rw [leaderOps, leaderOps, List.filterMap_append]
  exact List.prefix_append _ _

theorem relayOps_mono {i : U32} {l evs : List (SubnetOp C)} (h : l <+: evs) :
    relayOps i l <+: relayOps i evs := by
  obtain ⟨rest, rfl⟩ := h
  rw [relayOps, relayOps, List.filterMap_append]
  exact List.prefix_append _ _

theorem announced_subset {l evs : List (SubnetOp C)} (h : l <+: evs) :
    S.announced l ⊆ S.announced evs := emitted_subset (leaderOps_mono h)

theorem shares_subset {l evs : List (SubnetOp C)} (h : l <+: evs) (sid : U32) :
    S.shares l sid ⊆ S.shares evs sid := by
  rw [shares, shares]
  split
  · exact emitted_subset (leaderOps_mono h)
  · exact emitted_subset (relayOps_mono h)

theorem came_subset {l evs : List (SubnetOp C)} (h : l <+: evs) : came l ⊆ came evs := by
  obtain ⟨rest, rfl⟩ := h
  rw [came, came, List.filterMap_append]
  exact List.subset_append_left _ _

/-- What holds of the others in a run holds in its beginnings. -/
theorem Honest.mono {l evs : List (SubnetOp C)} (h : S.Honest evs) (hl : l <+: evs) :
    S.Honest l where
  leaderRounds := h.leaderRounds.mono (leaderOps_mono hl)
  relayRounds i := (h.relayRounds i).mono (relayOps_mono hl)
  sets σ hσ := h.sets σ (Trace.mem_steps_mono hl hσ)
  shares σ hσ := h.shares σ (Trace.mem_steps_mono hl hσ)
  aggregates σ hσ := h.aggregates σ (Trace.mem_steps_mono hl hσ)

/-- A call of the leader is a step of the run. -/
theorem mem_steps_leader {evs : List (SubnetOp C)} {l : List (AdcnetServerOp C)}
    {op : AdcnetServerOp C} (h : (l, op) ∈ Trace.steps (leaderOps evs)) :
    ∃ pre, (pre, .leader op) ∈ Trace.steps evs ∧ leaderOps pre = l := by
  obtain ⟨pre, e, hσ, he, hl⟩ := Trace.mem_steps_filterMap h
  cases e with
  | leader op' =>
    cases he
    exact ⟨pre, hσ, hl⟩
  | relay i op' => cases he
  | aggregator g op' => cases he

/-- A call of a relay is a step of the run. -/
theorem mem_steps_relay {i : U32} {evs : List (SubnetOp C)} {l : List (AdcnetServerOp C)}
    {op : AdcnetServerOp C} (h : (l, op) ∈ Trace.steps (relayOps i evs)) :
    ∃ pre, (pre, .relay i op) ∈ Trace.steps evs := by
  obtain ⟨pre, e, hσ, he, -⟩ := Trace.mem_steps_filterMap h
  cases e with
  | leader op' => cases he
  | relay j op' =>
    dsimp only at he
    split at he
    · rename_i hj
      cases he
      exact ⟨pre, hj ▸ hσ⟩
    · cases he
  | aggregator g op' => cases he

/-! ## Sets -/

/-- A relay takes no sets but the announced ones. -/
theorem takesSet_sender {cfg : AdcnetServerConfig C} {s : AdcnetServerSession C} {sender : PeerId}
    {round : U32} {clients : List C.SignedKey} (h : s.takesSet cfg sender round clients = true) :
    sender = cfg.leaderPk := by
  simp only [takesSet, Bool.and_eq_true, decide_eq_true_eq] at h
  exact h.1.2

theorem accepted_leader {evs : List (SubnetOp C)} (h : S.Honest evs)
    {a : U32 × List C.SignedKey} (ha : a ∈ accepted S.leader (leaderOps evs)) :
    a ∈ S.announced evs := by
  obtain ⟨⟨l, op⟩, hσ, hmem⟩ := List.mem_flatMap.mp ha
  rcases mem_setsOf hmem with ⟨sender, good, rfl, htake⟩ | ⟨r, rfl, hann⟩
  · obtain ⟨pre, hpre, -⟩ := mem_steps_leader hσ
    have hset := h.sets _ hpre (sender, a.1, a.2) rfl (takesSet_sender htake)
    exact announced_subset
      ((List.prefix_append pre _).trans (Trace.prefix_of_mem_steps hpre)) hset
  · exact mem_emitted hσ hann

theorem accepted_relay {evs : List (SubnetOp C)} (h : S.Honest evs) {i : U32}
    {a : U32 × List C.SignedKey} (ha : a ∈ accepted (S.relay i) (relayOps i evs)) :
    a ∈ S.announced evs := by
  obtain ⟨⟨l, op⟩, hσ, hmem⟩ := List.mem_flatMap.mp ha
  rcases mem_setsOf hmem with ⟨sender, good, rfl, htake⟩ | ⟨r, rfl, hann⟩
  · obtain ⟨pre, hpre⟩ := mem_steps_relay hσ
    have hset := h.sets _ hpre (sender, a.1, a.2) rfl
      ((takesSet_sender htake).trans (S.relay_follows i).2)
    exact announced_subset
      ((List.prefix_append pre _).trans (Trace.prefix_of_mem_steps hpre)) hset
  · -- A relay that does not lead announces nothing.
    have hleads := (announcements_cases (mem_announcements hann)).1
    rw [(S.relay_follows i).1] at hleads
    cases hleads

/-- One set is announced for a round. -/
theorem announced_unique {evs : List (SubnetOp C)} (h : S.Honest evs) {t : U32}
    {keys keys' : List C.SignedKey} (h1 : (t, keys) ∈ S.announced evs)
    (h2 : (t, keys') ∈ S.announced evs) : keys' = keys := by
  have hnodup :=
    (once_after S.leader h.leaderRounds _ (List.prefix_refl (leaderOps evs))).announced.nodup
  exact congrArg Prod.snd (List.inj_on_of_nodup_map hnodup h2 h1 rfl)

/-! ## Shares -/

/-- What the crate's shares say of themselves: the round they were made for. -/
def SharesNameRound (C : AdcnetCrate) : Prop :=
  ∀ cfg t sid key secrets signed own, C.serverContribute cfg t sid key secrets = some signed →
    C.recoverShare signed = some own → own.1.round = t

/-- A share is made over the announced set of its round. -/
theorem shares_over {evs : List (SubnetOp C)} (h : S.Honest evs) {sid : U32}
    {e : EmittedShare C} (he : e ∈ S.shares evs sid) :
    ∃ keys, (e.round, keys) ∈ S.announced evs ∧ e.secrets.keys.Perm (signersOf keys) := by
  rw [shares] at he
  split at he
  · obtain ⟨keys, hfirst, hperm⟩ :=
      (once_after S.leader h.leaderRounds _ (List.prefix_refl _)).overSet e he
    exact ⟨keys, accepted_leader h (mem_of_firstSet hfirst), hperm⟩
  · obtain ⟨keys, hfirst, hperm⟩ :=
      (once_after (S.relay sid) (h.relayRounds sid) _ (List.prefix_refl _)).overSet e he
    exact ⟨keys, accepted_relay h (mem_of_firstSet hfirst), hperm⟩

theorem emitted_made {cfg : AdcnetServerConfig C} {ops : List (AdcnetServerOp C)}
    {e : EmittedShare C} (he : e ∈ emitted cfg EndRound.shares ops) :
    C.serverContribute cfg.config e.round cfg.serverId cfg.signingKey e.secrets =
      some e.signed := by
  obtain ⟨⟨pre, op⟩, -, hmem⟩ := List.mem_flatMap.mp he
  cases op with
  | beginRound r => cases hmem
  | inbound sender msg good => cases hmem
  | setMisbehavior mode => cases hmem
  | endRound r =>
    have hmem : e ∈ ((after cfg pre).endRound cfg r).shares := hmem
    rcases endRound_cases cfg (after cfg pre) r with heq | ⟨c, -, heq⟩
    · rw [heq] at hmem
      cases hmem
    · rw [heq] at hmem
      obtain ⟨-, -, -, -, hmake, -⟩ :=
        phaseB_eq cfg ((after cfg pre).phaseA cfg r.toU32).pendingShareRounds
          ((after cfg pre).phaseA cfg r.toU32)
      exact (makeShare_eq_some (hmake e hmem)).2.2.1

/-- A share recovers to the round it is for. -/
theorem shares_round (hC : SharesNameRound C) {evs : List (SubnetOp C)} {sid : U32}
    {e : EmittedShare C} (he : e ∈ S.shares evs sid) {own : ServerShare × PublicKey}
    (hown : C.recoverShare e.signed = some own) : own.1.round = e.round := by
  rw [shares] at he
  split at he
  · exact hC _ _ _ _ _ _ _ (emitted_made he) hown
  · exact hC _ _ _ _ _ _ _ (emitted_made he) hown

/-! ## What the leader holds -/

/-- A call of another party leaves the leader. -/
theorem leaderOps_concat (evs : List (SubnetOp C)) (e : SubnetOp C) :
    leaderOps (evs ++ [e]) = leaderOps evs ++ leaderOps [e] := List.filterMap_append

theorem leaderAfter_concat (evs : List (SubnetOp C)) (op : AdcnetServerOp C) :
    S.leaderAfter (evs ++ [.leader op]) = (S.leaderAfter evs).apply S.leader op := by
  rw [leaderAfter, leaderOps_concat]
  exact after_concat _ _

/-- **What an invariant of the leader takes.**  It holds at the start, the leader's calls
keep it, and so does everything that happens elsewhere. -/
theorem leader_induction {P : List (SubnetOp C) → AdcnetServerSession C → Prop}
    {evs : List (SubnetOp C)} (h0 : P [] new)
    (hmono : ∀ l e s, leaderOps [e] = [] → P l s → P (l ++ [e]) s)
    (hstep : ∀ l op, (l, .leader op) ∈ Trace.steps evs → P l (S.leaderAfter l) →
      P (l ++ [.leader op]) ((S.leaderAfter l).apply S.leader op)) :
    ∀ l, l <+: evs → P l (S.leaderAfter l) := by
  refine Trace.prefix_induction h0 ?_
  rintro ⟨l, e⟩ hσ ih
  cases e with
  | leader op =>
    rw [leaderAfter_concat]
    exact hstep l op hσ ih
  | relay i op =>
    have hsame : S.leaderAfter (l ++ [.relay i op]) = S.leaderAfter l := by
      rw [leaderAfter, leaderOps_concat]
      exact congrArg (after S.leader) (List.append_nil _)
    rw [hsame]
    exact hmono l _ _ rfl ih
  | aggregator g op =>
    have hsame : S.leaderAfter (l ++ [.aggregator g op]) = S.leaderAfter l := by
      rw [leaderAfter, leaderOps_concat]
      exact congrArg (after S.leader) (List.append_nil _)
    rw [hsame]
    exact hmono l _ _ rfl ih

/-- A share the leader holds is one made in its slot, for its round. -/
def FiledFrom (S : AdcnetSubnet C) (evs : List (SubnetOp C)) (t sid : U32) (share : ServerShare) :
    Prop :=
  ∃ e ∈ S.shares evs sid, e.round = t ∧ ∃ own, C.recoverShare e.signed = some own ∧
    (share = own.1 ∨ share = { own.1 with serverId := sid })

theorem FiledFrom.mono {l evs : List (SubnetOp C)} {t sid : U32} {share : ServerShare}
    (h : S.FiledFrom l t sid share) (hl : l <+: evs) : S.FiledFrom evs t sid share := by
  obtain ⟨e, he, hrest⟩ := h
  exact ⟨e, shares_subset hl sid he, hrest⟩

theorem filed_after (hC : SharesNameRound C) {evs : List (SubnetOp C)} (h : S.Honest evs) :
    ∀ l, l <+: evs → ∀ t sid share, (S.leaderAfter l).Filed t sid share →
      S.FiledFrom l t sid share := by
  refine leader_induction
    (P := fun l s => ∀ t sid share, s.Filed t sid share → S.FiledFrom l t sid share) ?_ ?_ ?_
  · rintro t sid share ⟨pool, hpool, -⟩
    cases hpool
  · intro l e s _ ih t sid share hf
    exact (ih t sid share hf).mono (List.prefix_append l [e])
  · intro l op hσ ih t sid share hf
    have hold : (S.leaderAfter l).Filed t sid share →
        S.FiledFrom (l ++ [.leader op]) t sid share :=
      fun hf => (ih t sid share hf).mono (List.prefix_append l _)
    cases op with
    | beginRound r =>
      obtain ⟨pool, hpool, hget⟩ := hf
      have hpool : ((S.leaderAfter l).sharesByRound.retain
        (fun r' _ => decide (r.toU32.saturatingSub roundWindow ≤ r'))).get? t = some pool := hpool
      rw [OrdMap.get?_retain] at hpool
      exact hold ⟨pool, (Option.filter_eq_some_iff.mp hpool).1, hget⟩
    | inbound sender msg good =>
      rcases filed_onInbound hf with hf | ⟨signed, own, signer, rfl, hr, hsid, hround, hshare⟩
      · exact hold hf
      · obtain ⟨e, he, hown⟩ := h.shares _ hσ signed rfl (own, signer) hr sid hsid
        refine FiledFrom.mono ⟨e, he, ?_, (own, signer), hown, Or.inr hshare⟩
          (List.prefix_append l _)
        rw [← shares_round hC he hown]
        exact hround
    | endRound r =>
      rcases endRound_filed hf with hf | ⟨hsid, e, he, hround, signer, hr⟩
      · exact hold hf
      · refine ⟨e, ?_, hround, (share, signer), hr, Or.inl rfl⟩
        rw [shares, if_pos hsid, leaderOps_concat]
        have hlast : leaderOps ([.leader (.endRound r)] : List (SubnetOp C)) = [.endRound r] := rfl
        rw [hlast, emitted_concat]
        exact List.mem_append_right _ he
    | setMisbehavior mode => exact hold hf

end AdcnetSubnet
end Anymone
