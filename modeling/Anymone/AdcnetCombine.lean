import Anymone.AdcnetSubnet

/-! # The ADCNet leader combines the set it announced

In a direct subnet the leader picks the contributions of the announced clients, and
nothing else is summed.  In an aggregated one it sums whatever the groups sent: that is
the announced set as long as the groups come before the announcement, with members whose
keys all recover, and with the member list that was signed (`Combinable`).
-/

namespace Anymone
open Adcnet AdcnetServerOp AdcnetServerSession
variable {C : AdcnetCrate}

namespace AdcnetSubnet
variable (S : AdcnetSubnet C)

/-- A member list that is read as it was signed: no aggregate sent has the same bytes and
other members. -/
def ReadsAsSigned (evs : List (SubnetOp C)) (round group : U32) (blinded : List U64)
    (clients : List C.SignedKey) : Prop :=
  ∀ blinded' clients' signer signature,
    .groupAggregate round group blinded' clients' signer signature ∈ S.aggregates evs group →
    groupAggregateSigningBytes C round group blinded' clients' =
      groupAggregateSigningBytes C round group blinded clients → clients' = clients

/-- The sets that are about to be announced hold the clients of their groups: the keys of
all of them are cached, or of none. -/
def groupsCached (s : AdcnetServerSession C) : Bool :=
  s.aggByRound.entries.all (fun e => s.announcedRounds.contains e.1 ||
    (e.2.values.flatMap Prod.snd).all (fun pk => s.clientKeys.contains pk) ||
    (e.2.values.flatMap Prod.snd).all (fun pk => !s.clientKeys.contains pk))

/-- A group's aggregate comes before its round is announced, or after it is combined, and
reads as it was signed; a round ends with the keys of its groups cached. -/
def Combinable (σ : List (SubnetOp C) × SubnetOp C) : Prop :=
  match σ.2 with
  | .leader (.inbound _ (some (.groupAggregate round group blinded clients signer signature)) _) =>
      (S.leaderAfter σ.1).takesGroup S.leader round group blinded clients signer signature = true →
      (((S.leaderAfter σ.1).aggByRound.get? round).getD .empty).contains group = false →
        ((S.leaderAfter σ.1).announcedRounds.contains round = false ∨
          (S.leaderAfter σ.1).combinedRounds.contains round = true) ∧
        S.ReadsAsSigned σ.1 round group blinded clients
  | .leader (.endRound _) =>
      S.leader.aggregation.isSome = true → groupsCached (S.leaderAfter σ.1) = true
  | _ => True

/-- An input of the sum, by the vectors in it. -/
structure SumOf (C : AdcnetCrate) (round : U32) (input : ClientContribution × List PublicKey)
    (members : List (PublicKey × List U64)) : Prop where
  round : input.1.round = round
  clients : input.2 = members.map Prod.fst
  vector : members = [(input.2.headD [], input.1.blinded)] ∨
    input.1.blinded = C.aggregateClients (members.map Prod.snd)

/-- **The call is over the announced set.**  It is the only set announced for the round,
its keys are readable, the vectors summed are one contribution of each of its clients, and
every share in the call was made over it. -/
structure OverAnnounced (evs : List (SubnetOp C)) (call : CombineCall)
    (keys : List C.SignedKey) : Prop where
  announced : (call.round, keys) ∈ S.announced evs
  only : ∀ keys', (call.round, keys') ∈ S.announced evs → keys' = keys
  readable : ∀ k ∈ keys, (C.recoverKey k).isSome = true
  once : (signersOf keys).Nodup
  summed : ∃ parts, List.Forall₂ (SumOf C call.round) call.inputs parts ∧
    (parts.flatten.map Prod.fst).Perm (signersOf keys) ∧
    ∀ p ∈ parts.flatten, AdcnetAggregatorSession.Contributed (came evs) call.round p
  shares : ∀ share ∈ call.shares, ∃ sid, ∃ e ∈ S.shares evs sid, e.round = call.round ∧
    (∃ own, C.recoverShare e.signed = some own ∧
      (share = own.1 ∨ share = { own.1 with serverId := sid })) ∧
    e.secrets.keys.Perm (signersOf keys)

variable {S}

/-! ## Groups -/

/-- A group's aggregate as it was made: one contribution of each of its members. -/
def IsGroup (S : AdcnetSubnet C) (came : List C.SignedContribution) (t g : U32)
    (v : List U64 × List PublicKey) : Prop :=
  ∃ parts : List (PublicKey × List U64), v.1 = C.aggregateClients (parts.map Prod.snd) ∧
    v.2 = parts.map Prod.fst ∧ v.2.Nodup ∧
    (∀ pk ∈ v.2, clientGroup pk S.groupCount = g.val) ∧
    ∀ p ∈ parts, AdcnetAggregatorSession.Contributed came t p

theorem IsGroup.mono {came came' : List C.SignedContribution} {t g : U32}
    {v : List U64 × List PublicKey} (h : S.IsGroup came t g v) (hsub : came ⊆ came') :
    S.IsGroup came' t g v := by
  obtain ⟨parts, h1, h2, h3, h4, h5⟩ := h
  exact ⟨parts, h1, h2, h3, h4, fun p hp => (h5 p hp).mono (fun c hc => hsub hc)⟩

/-- The keys of the members name the members. -/
theorem signersOf_members {members : OrdMap PublicKey (List U64 × C.SignedKey)}
    (h : ∀ pk vector key, members.get? pk = some (vector, key) →
      (C.recoverKey key).map Prod.snd = some pk) :
    signersOf (members.values.map Prod.snd) = members.keys := by
  have hentries : ∀ e ∈ members.entries, (C.recoverKey e.2.2).map Prod.snd = some e.1 :=
    fun e he => h e.1 e.2.1 e.2.2 (OrdMap.get?_eq_some_iff.mpr he)
  rw [signersOf, OrdMap.values, OrdMap.keys, List.map_map, List.filterMap_map]
  generalize members.entries = entries at hentries ⊢
  induction entries with
  | nil => rfl
  | cons e l ih =>
    have he : ((fun k => Option.map Prod.snd (C.recoverKey k)) ∘ Prod.snd ∘ Prod.snd) e =
        some e.1 := hentries e List.mem_cons_self
    rw [List.filterMap_cons_some he, List.map_cons,
      ih (fun d hd => hentries d (List.mem_cons_of_mem _ hd))]

/-- The words of a vector can be read back. -/
theorem flatMap_leBytes_inj {a b : List U64}
    (h : a.flatMap (fun v => leBytes 8 v.val) = b.flatMap (fun v => leBytes 8 v.val)) : a = b := by
  induction a generalizing b with
  | nil =>
    cases b with
    | nil => rfl
    | cons y b =>
      have := congrArg List.length h
      simp at this
      omega
  | cons x a ih =>
    cases b with
    | nil =>
      have := congrArg List.length h
      simp at this
    | cons y b =>
      rw [List.flatMap_cons, List.flatMap_cons] at h
      obtain ⟨hxy, hrest⟩ := append_eq_append_of_length
        ((leBytes_length 8 x.val).trans (leBytes_length 8 y.val).symm) h
      rw [ih hrest, Fin.ext (leBytes_inj x.isLt y.isLt hxy)]

/-- The round and the group of a signed aggregate are read off its bytes, and the vector,
once the members are known. -/
theorem signingBytes_eq {round round' group group' : U32} {blinded blinded' : List U64}
    {clients clients' : List C.SignedKey}
    (h : groupAggregateSigningBytes C round' group' blinded' clients' =
      groupAggregateSigningBytes C round group blinded clients) :
    round' = round ∧ group' = group ∧ (clients' = clients → blinded' = blinded) := by
  rw [groupAggregateSigningBytes, groupAggregateSigningBytes, List.append_assoc, List.append_assoc,
    List.append_assoc, List.append_assoc] at h
  obtain ⟨hround, h⟩ := append_eq_append_of_length
    ((leBytes_length 4 _).trans (leBytes_length 4 _).symm) h
  obtain ⟨hgroup, h⟩ := append_eq_append_of_length
    ((leBytes_length 4 _).trans (leBytes_length 4 _).symm) h
  refine ⟨leBytes_u32_inj hround, leBytes_u32_inj hgroup, fun hclients => ?_⟩
  rw [hclients] at h
  exact flatMap_leBytes_inj (List.append_cancel_right h)

/-- The contributions an aggregator heard are contributions of the run. -/
theorem came_aggregator {g : U32} {evs : List (SubnetOp C)} {c : C.SignedContribution}
    (h : c ∈ AdcnetAggregatorSession.came (aggregatorOps g evs)) : c ∈ came evs := by
  obtain ⟨op, hop, hc⟩ := List.mem_filterMap.mp h
  obtain ⟨e, he, hf⟩ := List.mem_filterMap.mp hop
  cases e with
  | leader op' => cases hf
  | relay i op' => cases hf
  | aggregator g' op' =>
    dsimp only at hf
    split at hf
    · cases hf
      refine List.mem_filterMap.mpr ⟨_, he, ?_⟩
      cases op with
      | beginRound round => cases hc
      | checkpoint round k => cases hc
      | inbound msg good =>
        cases msg with
        | none => cases hc
        | some msg =>
          cases msg with
          | client contribution key => exact hc
          | server _ => cases hc
          | clientSet _ _ => cases hc
          | decoded _ _ => cases hc
          | groupAggregate _ _ _ _ _ _ => cases hc
    · cases hf

/-- The members of a group, held properly, make an aggregate of the group. -/
theorem isGroup_of_members {evs : List (SubnetOp C)} {g t : U32}
    {members : OrdMap PublicKey (List U64 × C.SignedKey)}
    (h : ∀ pk vector key, members.get? pk = some (vector, key) →
      AdcnetAggregatorSession.Held (S.aggregator g)
        (AdcnetAggregatorSession.came (aggregatorOps g evs)) t pk vector key) :
    S.IsGroup (came evs) t g (C.aggregateClients (members.values.map Prod.fst),
      signersOf (members.values.map Prod.snd)) := by
  obtain ⟨hgroup, hcount⟩ := S.aggregator_group g
  have hsigners := signersOf_members (fun pk vector key hget => (h pk vector key hget).key)
  rw [hsigners]
  refine ⟨members.entries.map (fun e => (e.1, e.2.1)), ?_, ?_, ?_, ?_, ?_⟩
  · rw [OrdMap.values, List.map_map, List.map_map]
    rfl
  · rw [List.map_map]
    rfl
  · exact members.keys_sorted.imp (fun hlt => hlt.ne)
  · intro pk hpk
    obtain ⟨⟨vector, key⟩, hget⟩ := OrdMap.mem_keys.mp hpk
    have hg := (h pk vector key hget).group
    rw [hcount, hgroup] at hg
    exact hg
  · intro p hp
    obtain ⟨e, he, rfl⟩ := List.mem_map.mp hp
    exact (h e.1 e.2.1 e.2.2 (OrdMap.get?_eq_some_iff.mpr he)).contributed.mono
      (fun c hc => came_aggregator hc)

/-- An aggregate an aggregator sent is one of its group. -/
theorem isGroup_of_sent {evs : List (SubnetOp C)} {g : U32} {w : AdcnetWire C}
    (h : w ∈ S.aggregates evs g) : ∃ t blinded clients signer signature,
      w = .groupAggregate t g blinded clients signer signature ∧
      S.IsGroup (came evs) t g (blinded, signersOf clients) := by
  obtain ⟨t, members, rfl, hheld⟩ := AdcnetAggregatorSession.emits_members h
  have hw : AdcnetAggregatorSession.aggregateOf (S.aggregator g) t members =
      .groupAggregate t g (C.aggregateClients (members.values.map Prod.fst))
        (members.values.map Prod.snd) (S.aggregator g).identity
        (C.sign (S.aggregator g).identity (groupAggregateSigningBytes C t g
          (C.aggregateClients (members.values.map Prod.fst)) (members.values.map Prod.snd))) := by
    rw [AdcnetAggregatorSession.aggregateOf, (S.aggregator_group g).1]
  exact ⟨t, _, _, _, _, hw, isGroup_of_members hheld⟩

/-- A group aggregate that is taken, and read as it was signed, is one its group made. -/
theorem isGroup_of_taken {evs l : List (SubnetOp C)} (h : S.Honest evs) {sender : PeerId}
    {round group : U32} {blinded : List U64} {clients : List C.SignedKey} {signer : Pubkey}
    {signature : Bytes} {good : Pubkey → Bool}
    (hσ : (l, .leader (.inbound sender
      (some (.groupAggregate round group blinded clients signer signature)) good)) ∈
        Trace.steps evs)
    (htake : (S.leaderAfter l).takesGroup S.leader round group blinded clients signer signature =
      true)
    (hreads : S.ReadsAsSigned l round group blinded clients) :
    S.IsGroup (came l) round group (blinded, signersOf clients) := by
  rw [takesGroup] at htake
  obtain ⟨roster, hroster, htake⟩ := (Option.any_eq_true _ _).mp htake
  obtain ⟨key, hkey, htake⟩ := (Option.any_eq_true _ _).mp htake
  simp only [Bool.and_eq_true, decide_eq_true_eq] at htake
  have hid := S.aggregator_key roster hroster group key hkey
  obtain ⟨g', -, w, hw, words, hwords, hbytes⟩ := h.aggregates _ hσ _ rfl _ rfl htake.1.1.2 group
    (hid.trans htake.1.1.1.1)
  obtain ⟨t, blinded', clients', signer', signature', rfl, hmade⟩ := isGroup_of_sent hw
  cases hwords
  obtain ⟨hround, hgroup, hvector⟩ := signingBytes_eq hbytes
  subst hround hgroup
  have hclients := hreads _ _ _ _ hw hbytes
  rw [← hclients, ← hvector hclients]
  exact hmade

/-- What an inbound message does to the groups. -/
theorem groups_onInbound (cfg : AdcnetServerConfig C) (s : AdcnetServerSession C)
    (sender : PeerId) (msg : Option (AdcnetWire C)) (good : Pubkey → Bool) :
    (s.onInbound cfg sender msg good).aggByRound = s.aggByRound ∨
    ∃ round group blinded clients signer signature,
      msg = some (.groupAggregate round group blinded clients signer signature) ∧
      s.takesGroup cfg round group blinded clients signer signature = true ∧
      (s.onInbound cfg sender msg good).aggByRound = s.aggByRound.insert round
        (((s.aggByRound.get? round).getD OrdMap.empty).orInsert group
          (blinded, signersOf clients)) := by
  rcases s.onInbound_cases cfg sender msg good with ⟨-, -, _, _, _, _, heq, -, -⟩ |
    ⟨_, _, _, _, -, -, heq⟩ | ⟨_, _, -, -, heq⟩ |
    ⟨round, group, blinded, clients, signer, signature, _, _, rfl, htake, heq⟩
  · rw [heq]
    exact Or.inl rfl
  · rw [heq]
    exact Or.inl rfl
  · rw [heq]
    exact Or.inl rfl
  · refine Or.inr ⟨round, group, blinded, clients, signer, signature, rfl, htake, ?_⟩
    rw [heq]

/-- Every group the leader holds is one its aggregator made. -/
theorem groups_after {evs : List (SubnetOp C)} (h : S.Honest evs)
    (hok : ∀ σ ∈ Trace.steps evs, S.Combinable σ) : ∀ l, l <+: evs → ∀ t groups g v,
      (S.leaderAfter l).aggByRound.get? t = some groups → groups.get? g = some v →
        S.IsGroup (came l) t g v := by
  refine leader_induction
    (P := fun l s => ∀ t groups g v, s.aggByRound.get? t = some groups → groups.get? g = some v →
      S.IsGroup (came l) t g v) ?_ ?_ ?_
  · intro t groups g v hget
    cases hget
  · intro l e s _ ih t groups g v hget hv
    exact (ih t groups g v hget hv).mono (came_subset (List.prefix_append l [e]))
  · intro l op hσ ih t groups g v hget hv
    -- what was held before the call came from the run before it
    have hold : ∀ groups, (S.leaderAfter l).aggByRound.get? t = some groups →
        groups.get? g = some v → S.IsGroup (came (l ++ [.leader op])) t g v :=
      fun groups hget hv =>
        (ih t groups g v hget hv).mono (came_subset (List.prefix_append l _))
    cases op with
    | beginRound r =>
      have hget : ((S.leaderAfter l).aggByRound.retain
        (fun r' _ => decide (r.toU32.saturatingSub roundWindow ≤ r'))).get? t = some groups := hget
      rw [OrdMap.get?_retain] at hget
      exact hold groups (Option.filter_eq_some_iff.mp hget).1 hv
    | inbound sender msg good =>
      rcases groups_onInbound S.leader (S.leaderAfter l) sender msg good with heq |
        ⟨round, group, blinded, clients, signer, signature, rfl, htake, heq⟩
      · exact hold groups (heq ▸ hget) hv
      · have hget : ((S.leaderAfter l).onInbound S.leader sender
          (some (.groupAggregate round group blinded clients signer signature))
            good).aggByRound.get? t = some groups := hget
        rw [heq, OrdMap.get?_insert] at hget
        by_cases ht : t = round
        · subst ht
          rw [if_pos rfl] at hget
          cases hget
          rw [OrdMap.get?_orInsert] at hv
          by_cases hg : g = group
          · subst hg
            rw [if_pos rfl] at hv
            -- the first aggregate of a group stays (`or_insert`)
            cases hheld : ((S.leaderAfter l).aggByRound.get? t).getD OrdMap.empty |>.get? g with
            | some v' =>
              rw [hheld] at hv
              cases hv
              cases hgroups : (S.leaderAfter l).aggByRound.get? t with
              | none =>
                rw [hgroups] at hheld
                cases hheld
              | some groups' =>
                rw [hgroups] at hheld
                exact hold groups' hgroups hheld
            | none =>
              rw [hheld] at hv
              cases hv
              have hfree : (((S.leaderAfter l).aggByRound.get? t).getD .empty).contains g = false := by
                rw [OrdMap.contains, hheld]
                rfl
              -- a new one was taken while every member could be read, by the condition on the step
              have hreads := (hok _ hσ htake hfree).2
              exact (isGroup_of_taken h hσ htake hreads).mono
                (came_subset (List.prefix_append l _))
          · rw [if_neg hg] at hv
            cases hgroups : (S.leaderAfter l).aggByRound.get? t with
            | none =>
              rw [hgroups] at hv
              cases hv
            | some groups' =>
              rw [hgroups] at hv
              exact hold groups' hgroups hv
        · rw [if_neg ht] at hget
          exact hold groups hget hv
    | endRound r =>
      have hget : ((S.leaderAfter l).endRound S.leader r).session.aggByRound.get? t =
        some groups := hget
      rw [(endRound_held S.leader _ r t).2.1] at hget
      split at hget
      · cases hget
      · exact hold groups hget hv
    | setMisbehavior mode => exact hold groups hget hv

/-! ## The announced set -/

theorem signersOf_filterMap {s : AdcnetServerSession C} (h : s.KeysRecover)
    {signers : List PublicKey} (hall : ∀ pk ∈ signers, s.clientKeys.contains pk = true) :
    signersOf (signers.filterMap (fun k => s.clientKeys.get? k)) = signers := by
  induction signers with
  | nil => rfl
  | cons pk signers ih =>
    obtain ⟨key, hkey⟩ := OrdMap.contains_iff.mp (hall pk List.mem_cons_self)
    obtain ⟨ke, hr⟩ := h pk key hkey
    have hsigner : signersOf (key :: signers.filterMap (fun k => s.clientKeys.get? k)) =
        pk :: signersOf (signers.filterMap (fun k => s.clientKeys.get? k)) := by
      simp [signersOf, hr]
    rw [List.filterMap_cons_some hkey, hsigner,
      ih (fun pk' hpk' => hall pk' (List.mem_cons_of_mem _ hpk'))]

/-- The announced keys are of the cached ones among the signers, each once. -/
theorem signersOf_cachedKeys {s : AdcnetServerSession C} (h : s.KeysRecover)
    (signers : List PublicKey) : signersOf (s.cachedKeys signers) =
      sortDedup (signers.filter (fun k => s.clientKeys.contains k)) := by
  refine signersOf_filterMap h (fun pk hpk => ?_)
  exact (List.mem_filter.mp (mem_sortDedup.mp hpk)).2

/-- Groups have no clients in common. -/
theorem nodup_members {came : List C.SignedContribution} {t : U32}
    {groups : OrdMap U32 (List U64 × List PublicKey)}
    (h : ∀ g v, groups.get? g = some v → S.IsGroup came t g v) :
    (groups.values.flatMap Prod.snd).Nodup := by
  have hentry : ∀ e ∈ groups.entries, S.IsGroup came t e.1 e.2 :=
    fun e he => h e.1 e.2 (OrdMap.get?_eq_some_iff.mpr he)
  rw [OrdMap.values, List.flatMap_map]
  refine List.nodup_flatMap.mpr ⟨fun e he => ?_, ?_⟩
  · obtain ⟨-, -, -, hnodup, -, -⟩ := hentry e he
    exact hnodup
  · refine groups.sorted.imp_of_mem ?_
    intro a b ha hb hlt pk hpa hpb
    obtain ⟨-, -, -, -, hga, -⟩ := hentry a ha
    obtain ⟨-, -, -, -, hgb, -⟩ := hentry b hb
    have : a.1.val = b.1.val := (hga pk hpa).symm.trans (hgb pk hpb)
    exact absurd (Fin.ext this) hlt.ne

/-- What is announced and still to be combined is what the groups hold. -/
def Settled (announced : List (U32 × List C.SignedKey)) (s : AdcnetServerSession C) : Prop :=
  ∀ a ∈ announced, s.keepFrom ≤ a.1 → s.combinedRounds.contains a.1 = false →
    ∃ groups, s.aggByRound.get? a.1 = some groups ∧
      (groups.values.flatMap Prod.snd).Perm (signersOf a.2)

/-- A set announced with the keys of its groups cached is the clients of the groups. -/
theorem perm_of_announced {s : AdcnetServerSession C} {cfg : AdcnetServerConfig C}
    {came : List C.SignedContribution} {cur : U32} {a : U32 × List C.SignedKey}
    (hkeys : s.KeysRecover) (hagg : cfg.aggregation.isSome = true)
    (hgroups : ∀ t groups g v, s.aggByRound.get? t = some groups → groups.get? g = some v →
      S.IsGroup came t g v)
    (hcached : groupsCached s = true) (ha : a ∈ s.announcements cfg cur) :
    ∃ groups, s.aggByRound.get? a.1 = some groups ∧
      (groups.values.flatMap Prod.snd).Perm (signersOf a.2) := by
  obtain ⟨-, hfresh, hne, ⟨-, groups, hget, hset⟩ | ⟨hdirect, -, -⟩⟩ := announcements_cases ha
  · refine ⟨groups, hget, ?_⟩
    have hnodup := nodup_members (hgroups a.1 groups · · hget)
    have hcase := List.all_eq_true.mp hcached _ (OrdMap.get?_eq_some_iff.mp hget)
    simp only [hfresh, Bool.false_or, Bool.or_eq_true] at hcase
    rcases hcase with hall | hnone
    · rw [hset, signersOf_cachedKeys hkeys, List.filter_eq_self.mpr (List.all_eq_true.mp hall)]
      exact (List.perm_ext_iff_of_nodup hnodup (nodup_sortDedup _)).mpr
        (fun pk => mem_sortDedup.symm)
    · -- With no key cached there is nothing to announce.
      refine absurd ?_ hne
      have hnil : (groups.values.flatMap Prod.snd).filter (fun pk => s.clientKeys.contains pk) =
          [] := by
        refine List.filter_eq_nil_iff.mpr (fun pk hpk hc => ?_)
        have := List.all_eq_true.mp hnone pk hpk
        rw [hc] at this
        cases this
      rw [hset, cachedKeys, hnil]
      rfl
  · rw [hdirect] at hagg
    cases hagg

theorem announced_concat (l : List (SubnetOp C)) (op : AdcnetServerOp C) :
    S.announced (l ++ [.leader op]) = S.announced l ++ (match op with
      | .endRound r => ((S.leaderAfter l).endRound S.leader r).announced
      | _ => []) := by
  rw [announced, leaderOps_concat]
  exact emitted_concat _ _ _

/-- A message keeps what is settled: a group that comes late finds its round combined. -/
theorem Settled.inbound {cfg : AdcnetServerConfig C} {s : AdcnetServerSession C}
    {announced : List (U32 × List C.SignedKey)} {sender : PeerId} {msg : Option (AdcnetWire C)}
    {good : Pubkey → Bool} (h : Settled announced s)
    (hguard : ∀ a ∈ announced, s.keepFrom ≤ a.1 → s.announcedRounds.contains a.1 = true)
    (hlate : ∀ round group blinded clients signer signature,
      msg = some (.groupAggregate round group blinded clients signer signature) →
      s.takesGroup cfg round group blinded clients signer signature = true →
      ((s.aggByRound.get? round).getD OrdMap.empty).contains group = false →
        s.announcedRounds.contains round = false ∨ s.combinedRounds.contains round = true) :
    Settled announced (s.onInbound cfg sender msg good) := by
  have hcur : (s.onInbound cfg sender msg good).curRound = s.curRound :=
    curRound_apply s (.inbound sender msg good)
  have hcomb : (s.onInbound cfg sender msg good).combinedRounds = s.combinedRounds := by
    rcases s.onInbound_cases cfg sender msg good with ⟨-, -, _, _, _, _, heq, -, -⟩ |
      ⟨_, _, _, _, -, -, heq⟩ | ⟨_, _, -, -, heq⟩ | ⟨_, _, _, _, _, _, _, _, -, -, heq⟩
    · rw [heq]
    · rw [heq]
    · rw [heq]
    · rw [heq]
  intro a ha hlo hnot
  rw [keepFrom, hcur] at hlo
  rw [hcomb] at hnot
  obtain ⟨groups, hget, hperm⟩ := h a ha hlo hnot
  refine ⟨groups, ?_, hperm⟩
  rcases groups_onInbound cfg s sender msg good with heq |
    ⟨round, group, blinded, clients, signer, signature, rfl, htake, heq⟩
  · rw [heq]
    exact hget
  · rw [heq, OrdMap.get?_insert]
    -- a group that is held already is not replaced
    by_cases hr : a.1 = round
    · rw [if_pos hr, ← hr, hget]
      show some (groups.orInsert group (blinded, signersOf clients)) = some groups
      cases hheld : groups.contains group with
      | true =>
        rw [OrdMap.contains] at hheld
        rw [OrdMap.orInsert, if_pos hheld]
      | false =>
        have hfree : ((s.aggByRound.get? round).getD OrdMap.empty).contains group = false := by
          rw [← hr, hget]
          exact hheld
        -- a new group of an announced round comes only once that round is combined
        rcases hlate _ _ _ _ _ _ rfl htake hfree with hfresh | hdone
        · rw [← hr, hguard a ha hlo] at hfresh
          cases hfresh
        · rw [← hr, hnot] at hdone
          cases hdone
    · rw [if_neg hr]
      exact hget

theorem settled_after {evs : List (SubnetOp C)} (hagg : S.leader.aggregation.isSome = true)
    (h : S.Honest evs) (hok : ∀ σ ∈ Trace.steps evs, S.Combinable σ) :
    ∀ l, l <+: evs → Settled (S.announced l) (S.leaderAfter l) := by
  refine leader_induction (P := fun l s => Settled (S.announced l) s) nofun ?_ ?_
  · intro l e s he ih
    rw [announced, leaderOps_concat, he, List.append_nil]
    exact ih
  · intro l op hσ ih
    have hl : l <+: evs := (List.prefix_append l _).trans (Trace.prefix_of_mem_steps hσ)
    have hops : (leaderOps l, op) ∈ Trace.steps (leaderOps (l ++ [.leader op])) := by
      rw [leaderOps_concat]
      exact Trace.mem_steps.mpr ⟨[], rfl⟩
    have hord := h.leaderRounds.mono (leaderOps_mono (Trace.prefix_of_mem_steps hσ))
    have honce := once_after S.leader h.leaderRounds _ (leaderOps_mono hl)
    rw [announced_concat]
    cases op with
    | beginRound r =>
      rw [List.append_nil]
      -- rounds begin in order, so what is kept was kept before
      have hmove : (S.leaderAfter l).keepFrom ≤ ((S.leaderAfter l).beginRound r).keepFrom :=
        keepFrom_le_beginRound (curRound_le_of_begins hord hops)
      intro a ha hlo hnot
      have hlo : ((S.leaderAfter l).beginRound r).keepFrom ≤ a.1 := hlo
      have hkept : ∀ {V : Type} (m : OrdMap U32 V), (m.retain
          (fun r' _ => decide (((S.leaderAfter l).beginRound r).keepFrom ≤ r'))).get? a.1 =
            m.get? a.1 := by
        intro V m
        rw [OrdMap.get?_retain, decide_eq_true hlo]
        cases m.get? a.1 <;> rfl
      have hnot : ((S.leaderAfter l).combinedRounds.retain
        (fun r' _ => decide (((S.leaderAfter l).beginRound r).keepFrom ≤ r'))).contains a.1 =
          false := hnot
      rw [OrdMap.contains, hkept] at hnot
      obtain ⟨groups, hget, hperm⟩ := ih a ha (le_trans hmove hlo) hnot
      exact ⟨groups, (hkept _).trans hget, hperm⟩
    | inbound sender msg good =>
      rw [List.append_nil]
      refine ih.inbound (fun a ha hlo => ?_) ?_
      · refine (honce.announced.seen_of_mem a.1 (List.mem_map_of_mem ha)).resolve_left ?_
        exact not_lt.mpr hlo
      · rintro round group blinded clients signer signature rfl htake hfree
        exact (hok _ hσ htake hfree).1
    | endRound r =>
      intro a ha hlo hnot
      -- a round that is not combined here keeps what it held
      obtain ⟨-, hheld, hmark⟩ := endRound_held S.leader (S.leaderAfter l) r a.1
      have hnot : ((S.leaderAfter l).endRound S.leader r).session.combinedRounds.contains a.1 =
        false := hnot
      rw [hmark, Bool.or_eq_false_iff] at hnot
      rw [hnot.2] at hheld
      have hlo : (S.leaderAfter l).keepFrom ≤ a.1 := by
        rw [keepFrom, ← (endRound_keeps S.leader (S.leaderAfter l) r).1]
        exact hlo
      obtain ⟨groups, hget, hperm⟩ : ∃ groups, (S.leaderAfter l).aggByRound.get? a.1 = some groups ∧
          (groups.values.flatMap Prod.snd).Perm (signersOf a.2) := by
        rcases List.mem_append.mp ha with ha | ha
        · exact ih a ha hlo hnot.1
        · exact perm_of_announced (keysRecover_after S.leader (leaderOps l)) hagg
            (groups_after h hok l hl) (hok _ hσ hagg) (mem_announcements ha)
      exact ⟨groups, hheld.trans hget, hperm⟩
    | setMisbehavior mode =>
      rw [List.append_nil]
      exact ih

/-! ## The call -/

/-- Announced keys are readable and their clients distinct. -/
theorem announced_keys {evs : List (SubnetOp C)} {a : U32 × List C.SignedKey}
    (ha : a ∈ S.announced evs) :
    (∀ k ∈ a.2, (C.recoverKey k).isSome = true) ∧ (signersOf a.2).Nodup := by
  obtain ⟨⟨l, op⟩, -, hmem⟩ := List.mem_flatMap.mp ha
  cases op with
  | beginRound r => cases hmem
  | inbound sender msg good => cases hmem
  | setMisbehavior mode => cases hmem
  | endRound r =>
    have hkeys := keysRecover_after S.leader l
    obtain ⟨signers, hset⟩ : ∃ signers, a.2 = (after S.leader l).cachedKeys signers := by
      obtain ⟨-, -, -, ⟨-, _, -, hset⟩ | ⟨-, -, hset⟩⟩ :=
        announcements_cases (mem_announcements hmem)
      · exact ⟨_, hset⟩
      · exact ⟨_, hset⟩
    rw [hset, signersOf_cachedKeys hkeys]
    exact ⟨fun k hk => hkeys.cachedKeys hk, nodup_sortDedup _⟩

/-- The contributions the leader heard are contributions of the run. -/
theorem came_leader {evs : List (SubnetOp C)} {c : C.SignedContribution}
    (h : c ∈ AdcnetServerSession.came (leaderOps evs)) : c ∈ came evs := by
  obtain ⟨op, hop, hc⟩ := List.mem_filterMap.mp h
  obtain ⟨e, he, hf⟩ := List.mem_filterMap.mp hop
  cases e with
  | relay i op' => cases hf
  | aggregator g op' => cases hf
  | leader op' =>
    cases hf
    refine List.mem_filterMap.mpr ⟨_, he, ?_⟩
    cases op with
    | beginRound round => cases hc
    | endRound round => cases hc
    | setMisbehavior mode => cases hc
    | inbound sender msg good =>
      cases msg with
      | none => cases hc
      | some msg =>
        cases msg with
        | client contribution key => exact hc
        | server _ => cases hc
        | clientSet _ _ => cases hc
        | decoded _ _ => cases hc
        | groupAggregate _ _ _ _ _ _ => cases hc

/-- In a direct subnet the inputs are one contribution of each client of the set. -/
theorem summed_direct {s : AdcnetServerSession C} {cfg : AdcnetServerConfig C} {t : U32}
    {set : List PublicKey} {inputs : List (ClientContribution × List PublicKey)}
    {came : List C.SignedContribution} (hagg : cfg.aggregation.isSome = false)
    (hitems : ∀ items, s.clientsByRound.get? t = some items → ∀ i ∈ items,
      i.1.round = t ∧ AdcnetAggregatorSession.Contributed came t (i.2, i.1.blinded))
    (h : s.combineInputs cfg t set = some inputs) :
    ∃ parts, List.Forall₂ (SumOf C t) inputs parts ∧ (parts.flatten.map Prod.fst).Perm set ∧
      ∀ p ∈ parts.flatten, AdcnetAggregatorSession.Contributed came t p := by
  rw [combineInputs, hagg] at h
  rw [if_neg (by decide)] at h
  split at h
  · cases h
  · rename_i items hget
    dsimp only at h
    split at h
    -- every announced client has an item, so the items are those of the set
    · rename_i hlen
      cases h
      have hinput : ∀ i ∈ set.filterMap (fun pk =>
          (items.find? (fun i => i.2 = pk)).map (fun i => (i.1, [pk]))),
          ∃ it ∈ items, i = (it.1, [it.2]) := by
        intro i hi
        obtain ⟨pk, -, hf⟩ := List.mem_filterMap.mp hi
        obtain ⟨it, hit, rfl⟩ := Option.map_eq_some_iff.mp hf
        have hpk : it.2 = pk := by simpa using List.find?_some hit
        exact ⟨it, List.mem_of_find?_eq_some hit, by rw [hpk]⟩
      have hheads : (set.filterMap (fun pk =>
          (items.find? (fun i => i.2 = pk)).map (fun i => (i.1, [pk])))).map
            (fun i => i.2.headD []) = set := by
        refine (map_filterMap_sublist (fun pk b hb => ?_) set).eq_of_length ?_
        · obtain ⟨it, -, rfl⟩ := Option.map_eq_some_iff.mp hb
          rfl
        · rw [List.length_map]
          exact hlen
      generalize set.filterMap (fun pk =>
        (items.find? (fun i => i.2 = pk)).map (fun i => (i.1, [pk]))) = inputs at hinput hheads ⊢
      refine ⟨inputs.map (fun i => [(i.2.headD [], i.1.blinded)]), ?_, ?_, ?_⟩
      · refine List.forall₂_map_right_iff.mpr (List.forall₂_same.mpr (fun i hi => ?_))
        obtain ⟨it, hit, rfl⟩ := hinput i hi
        exact ⟨(hitems items hget it hit).1, rfl, Or.inl rfl⟩
      · refine List.Perm.of_eq (Eq.trans ?_ hheads)
        rw [← List.flatMap_def, List.map_flatMap]
        exact List.map_eq_flatMap.symm
      · intro p hp
        obtain ⟨part, hpart, hp⟩ := List.mem_flatten.mp hp
        obtain ⟨i, hi, rfl⟩ := List.mem_map.mp hpart
        obtain ⟨it, hit, rfl⟩ := hinput i hi
        cases List.mem_singleton.mp hp
        exact (hitems items hget it hit).2
    · cases h

/-- Sums of groups are sums of their members. -/
theorem summed_groups {came : List C.SignedContribution} {t : U32} :
    ∀ {vs : List (List U64 × List PublicKey)}, (∀ v ∈ vs, ∃ g, S.IsGroup came t g v) →
      ∃ parts, List.Forall₂ (SumOf C t) (vs.map (fun g => (⟨t, g.1⟩, g.2))) parts ∧
        parts.flatten.map Prod.fst = vs.flatMap Prod.snd ∧
        ∀ p ∈ parts.flatten, AdcnetAggregatorSession.Contributed came t p := by
  intro vs
  induction vs with
  | nil => exact fun _ => ⟨[], List.Forall₂.nil, rfl, nofun⟩
  | cons v vs ih =>
    intro h
    obtain ⟨rest, hsum, hfst, hcame⟩ := ih (fun w hw => h w (List.mem_cons_of_mem _ hw))
    obtain ⟨g, parts, hvec, hmem, -, -, hparts⟩ := h v List.mem_cons_self
    refine ⟨parts :: rest, List.Forall₂.cons ⟨rfl, hmem, Or.inr hvec⟩ hsum, ?_, ?_⟩
    · rw [List.flatten_cons, List.map_append, hfst, List.flatMap_cons, hmem]
    · intro p hp
      rw [List.flatten_cons] at hp
      rcases List.mem_append.mp hp with hp | hp
      · exact hparts p hp
      · exact hcame p hp

section Call
variable {evs l : List (SubnetOp C)} {r : Round} {t : U32}

/-- The round that ends is the leader's current one. -/
theorem toU32_of_ends (h : S.Honest evs) (hσ : (l, .leader (.endRound r)) ∈ Trace.steps evs) :
    r.toU32 = (S.leaderAfter l).curRound := by
  have hl' := Trace.prefix_of_mem_steps hσ
  refine toU32_eq_of_ends (h.leaderRounds.mono (leaderOps_mono hl')) ?_
  rw [leaderOps_concat]
  exact Trace.mem_steps.mpr ⟨[], rfl⟩

/-- The set of a round is one of those announced. -/
theorem set_announced (h : S.Honest evs) (hσ : (l, .leader (.endRound r)) ∈ Trace.steps evs)
    {set : List PublicKey}
    (hset : ((S.leaderAfter l).shared S.leader r).clientSetByRound.get? t = some set) :
    (S.leaderAfter l).keepFrom ≤ t ∧ ∃ keys, set = signersOf keys ∧
      (t, keys) ∈ S.announced l ++ (S.leaderAfter l).announcements S.leader r.toU32 := by
  have hl : l <+: evs := (List.prefix_append l _).trans (Trace.prefix_of_mem_steps hσ)
  have honce := (once_after S.leader h.leaderRounds _ (leaderOps_mono hl)).shareRounds S.leader
    (toU32_of_ends h hσ)
  obtain ⟨hlo, keys, hkeys, hget⟩ := honce.of_mem_keys (OrdMap.mem_keys.mpr ⟨set, hset⟩)
  obtain ⟨sets, announced, pool, marks, hb⟩ := shared_eq S.leader (S.leaderAfter l) r
  refine ⟨?_, keys, Option.some.inj (hset.symm.trans hget), ?_⟩
  · have hlo : ((S.leaderAfter l).shared S.leader r).keepFrom ≤ t := hlo
    rw [keepFrom, hb] at hlo
    exact hlo
  · rcases List.mem_append.mp (mem_of_firstSet hkeys) with hmem | hmem
    · exact List.mem_append_left _ (accepted_leader (h.mono hl) hmem)
    · exact List.mem_append_right _ hmem

/-- What is summed is the clients of the set. -/
theorem summed_of_call (h : S.Honest evs) (hok : ∀ σ ∈ Trace.steps evs, S.Combinable σ)
    (hσ : (l, .leader (.endRound r)) ∈ Trace.steps evs)
    {inputs : List (ClientContribution × List PublicKey)} {keys : List C.SignedKey}
    (hlo : (S.leaderAfter l).keepFrom ≤ t)
    (hnot : (S.leaderAfter l).combinedRounds.contains t = false)
    (hkeys : (t, keys) ∈ S.announced l ++ (S.leaderAfter l).announcements S.leader r.toU32)
    (hinputs : ((S.leaderAfter l).shared S.leader r).combineInputs S.leader t (signersOf keys) =
      some inputs) :
    ∃ parts, List.Forall₂ (SumOf C t) inputs parts ∧
      (parts.flatten.map Prod.fst).Perm (signersOf keys) ∧
      ∀ p ∈ parts.flatten, AdcnetAggregatorSession.Contributed (came l) t p := by
  have hl : l <+: evs := (List.prefix_append l _).trans (Trace.prefix_of_mem_steps hσ)
  obtain ⟨sets, announced, pool, marks, hb⟩ := shared_eq S.leader (S.leaderAfter l) r
  cases hagg : S.leader.aggregation.isSome with
  | false =>
    refine summed_direct hagg (fun items hget i hi => ?_) hinputs
    rw [hb] at hget
    obtain ⟨hround, hc⟩ := items_after S.leader (leaderOps l) t items hget i hi
    exact ⟨hround, hc.mono (fun c hc => came_leader hc)⟩
  | true =>
    rw [combineInputs, if_pos hagg, hb] at hinputs
    obtain ⟨groups, hget, rfl⟩ := Option.map_eq_some_iff.mp hinputs
    have hgroups := groups_after h hok l hl
    obtain ⟨groups', hget', hperm⟩ : ∃ groups, (S.leaderAfter l).aggByRound.get? t = some groups ∧
        (groups.values.flatMap Prod.snd).Perm (signersOf keys) := by
      rcases List.mem_append.mp hkeys with hold | hnew
      · exact settled_after hagg h hok l hl _ hold hlo hnot
      · exact perm_of_announced (keysRecover_after S.leader (leaderOps l)) hagg hgroups
          (hok _ hσ hagg) hnew
    cases hget.symm.trans hget'
    have hmade : ∀ v ∈ groups.values, ∃ g, S.IsGroup (came l) t g v := by
      intro v hv
      obtain ⟨g, hg⟩ := OrdMap.mem_values.mp hv
      exact ⟨g, hgroups t groups g v hget hg⟩
    obtain ⟨parts, hsum, hfst, hcame⟩ := summed_groups hmade
    exact ⟨parts, hsum, hfst ▸ hperm, hcame⟩

/-- The shares of a call were made in their slots, over the announced set. -/
theorem shares_of_call (hC : SharesNameRound C) (h : S.Honest evs)
    (hσ : (l, .leader (.endRound r)) ∈ Trace.steps evs)
    (hshares : ((S.leaderAfter l).endRound S.leader r).shares =
      (phaseB S.leader ((S.leaderAfter l).phaseA S.leader r.toU32)
        ((S.leaderAfter l).phaseA S.leader r.toU32).pendingShareRounds).2)
    {pool : OrdMap U32 ServerShare}
    (hpool : ((S.leaderAfter l).shared S.leader r).sharesByRound.get? t = some pool) :
    ∀ share ∈ pool.values, ∃ sid, S.FiledFrom (l ++ [.leader (.endRound r)]) t sid share := by
  have hl : l <+: evs := (List.prefix_append l _).trans (Trace.prefix_of_mem_steps hσ)
  intro share hmem
  obtain ⟨sid, hget⟩ := OrdMap.mem_values.mp hmem
  refine ⟨sid, ?_⟩
  rcases shared_filed ⟨pool, hpool, hget⟩ with hold | ⟨hsid, e, he, hround, signer, hr⟩
  · exact (filed_after hC h l hl t sid share hold).mono (List.prefix_append l _)
  · refine ⟨e, ?_, hround, (share, signer), hr, Or.inl rfl⟩
    have hlast : leaderOps ([.leader (.endRound r)] : List (SubnetOp C)) = [.endRound r] := rfl
    rw [shares, if_pos hsid, leaderOps_concat, hlast, emitted_concat]
    refine List.mem_append_right _ ?_
    show e ∈ ((S.leaderAfter l).endRound S.leader r).shares
    rw [hshares]
    exact he

end Call

/-- **The leader combines what it announced.**  In every run with honest relays and
aggregators in which no group comes after its round is announced, the keys of a group's
members are cached and member lists read as they were signed, each call of
`combine_round` is over the set announced for its round. -/
theorem combines_announced_set (S : AdcnetSubnet C) (hC : SharesNameRound C)
    (evs : List (SubnetOp C)) (h : S.Honest evs)
    (hok : ∀ σ ∈ Trace.steps evs, S.Combinable σ) :
    ∀ l r, (l, .leader (.endRound r)) ∈ Trace.steps evs →
      ∀ call ∈ ((S.leaderAfter l).endRound S.leader r).calls,
        ∃ keys, S.OverAnnounced (l ++ [.leader (.endRound r)]) call keys := by
  intro l r hσ call hcall
  have hl' : l ++ [SubnetOp.leader (.endRound r)] <+: evs := Trace.prefix_of_mem_steps hσ
  have hnow : S.Honest (l ++ [.leader (.endRound r)]) := h.mono hl'
  obtain ⟨hann, hshares, t, ht⟩ := mem_calls hcall
  obtain ⟨hnot, set, pool, inputs, hset, hpool, hinputs, rfl⟩ := combineCall_eq_some ht
  obtain ⟨hlo, keys, rfl, hkeys⟩ := set_announced h hσ hset
  have hannounced : (t, keys) ∈ S.announced (l ++ [.leader (.endRound r)]) := by
    rw [announced_concat]
    dsimp only
    rw [hann]
    exact hkeys
  have hnot : (S.leaderAfter l).combinedRounds.contains t = false := by
    obtain ⟨sets, announced, pool, marks, hb⟩ := shared_eq S.leader (S.leaderAfter l) r
    rw [hb] at hnot
    exact hnot
  obtain ⟨parts, hsum, hperm, hcame⟩ := summed_of_call h hok hσ hlo hnot hkeys hinputs
  obtain ⟨hreadable, honce⟩ := announced_keys hannounced
  refine ⟨keys, hannounced, fun keys' h' => announced_unique hnow hannounced h', hreadable, honce,
    ⟨parts, hsum, hperm, fun p hp => (hcame p hp).mono (fun c hc =>
      came_subset (List.prefix_append l _) hc)⟩, fun share hshare => ?_⟩
  obtain ⟨sid, e, he, hround, own, hown, heq⟩ := shares_of_call hC h hσ hshares hpool share hshare
  obtain ⟨keys', hkeys', hover⟩ := shares_over hnow he
  rw [hround] at hkeys'
  rw [announced_unique hnow hannounced hkeys'] at hover
  exact ⟨sid, e, he, hround, ⟨own, hown, heq⟩, hover⟩

/-- The clients of the inputs are the announced ones. -/
theorem OverAnnounced.clients {evs : List (SubnetOp C)} {call : CombineCall}
    {keys : List C.SignedKey} (h : S.OverAnnounced evs call keys) :
    (call.inputs.flatMap Prod.snd).Perm (signersOf keys) := by
  obtain ⟨parts, hsum, hperm, -⟩ := h.summed
  refine List.Perm.trans (List.Perm.of_eq ?_) hperm
  generalize call.inputs = inputs at hsum
  clear hperm
  induction hsum with
  | nil => rfl
  | cons hsum _ ih =>
    rw [List.flatMap_cons, List.flatten_cons, List.map_append, ih, hsum.clients]

end AdcnetSubnet

/-! ## A subnet to run -/

namespace AdcnetToy
open AdcnetSubnet

instance : DecidableEq crate.SignedKey := inferInstanceAs (DecidableEq (Bytes × Option PublicKey))

/-- The keys of the two aggregators. -/
def groupKeys : OrdMap U32 Pubkey := (OrdMap.empty.insert 0 (identity 20)).insert 1 (identity 21)

/-- Two groups, one relay and the leader, which is identity 9. -/
def subnet : AdcnetSubnet crate where
  leader :=
    { relay with
      serverId := 1, signingKey := (identity 9).1, isLeader := true, aggregation := some groupKeys }
  relay _ := relay
  aggregator g := ⟨g, 2, if g = 1 then identity 21 else identity 20, 4⟩
  groupCount := 2
  relay_follows _ := ⟨rfl, rfl⟩
  aggregator_group _ := ⟨rfl, rfl⟩
  aggregator_key := by
    rintro roster ⟨⟩ g key hkey
    have hkey : groupKeys.get? g = some key := hkey
    rw [groupKeys, OrdMap.get?_insert] at hkey
    by_cases h1 : g = 1
    · rw [if_pos h1] at hkey ⊢
      exact Option.some.inj hkey
    · rw [if_neg h1, OrdMap.get?_insert] at hkey
      by_cases h0 : g = 0
      · rw [if_pos h0] at hkey
        rw [if_neg h1]
        exact Option.some.inj hkey
      · rw [if_neg h0] at hkey
        cases hkey

/-- A client's contribution of round 1, at the aggregator of its group. -/
def contributes (n xpub : U8) : SubnetOp crate :=
  .aggregator (Fin.ofNat _ (n.val % 2)) (.inbound (some (.client
    ((⟨1, [Fin.ofNat _ n.val]⟩, (identity n).1) : ClientContribution × PublicKey)
    ((if xpub = 0 then [] else [xpub], some (identity n).1) : Bytes × Option PublicKey)))
    (fun _ => true))

/-- What comes to the leader. -/
def toLeader (msg : Option (AdcnetWire crate)) : SubnetOp crate :=
  .leader (.inbound (identity 1) msg (fun _ => true))

/-- A group's aggregate of a round, as it went out. -/
def sentBy (g : U32) (evs : List (SubnetOp crate)) : Option (AdcnetWire crate) :=
  (subnet.aggregates evs g)[0]?

/-- The relay hears the set, shares and its share reaches the leader, which ends round 2. -/
def finishes (evs : List (SubnetOp crate)) : List (SubnetOp crate) :=
  let shared := evs ++ [.relay 0 (.beginRound 1), .relay 0 (fromLeader
    (match subnet.announced evs with
      | [] => .decoded 0 []
      | a :: _ => .clientSet a.1 a.2)), .relay 0 (.endRound 1)]
  shared ++ [toLeader ((subnet.shares shared 0)[0]?.map (fun e => .server e.signed)),
    .leader (.endRound 2)]

/-- Both groups send their clients, and the leader hears of both before it ends round 1. -/
def onTime : List (SubnetOp crate) :=
  let sent := [.leader (.beginRound 1), contributes 2 2, contributes 3 3,
    .aggregator 0 (.checkpoint 1 1), .aggregator 1 (.checkpoint 1 1)]
  let told := sent ++ [toLeader (sentBy 0 sent), toLeader (sentBy 1 sent)]
  finishes (told ++ [.leader (.endRound 1), .leader (.beginRound 2)])

/-- The second group comes when the first has been announced. -/
def late : List (SubnetOp crate) :=
  let sent := [.leader (.beginRound 1), contributes 2 2, contributes 3 3,
    .aggregator 0 (.checkpoint 1 1), .aggregator 1 (.checkpoint 1 1)]
  let told := sent ++ [toLeader (sentBy 0 sent)]
  finishes (told ++ [.leader (.endRound 1), .leader (.beginRound 2), toLeader (sentBy 1 sent)])

/-- A member of the group has a key that does not decode. -/
def undecodable : List (SubnetOp crate) :=
  let sent := [.leader (.beginRound 1), contributes 2 2, contributes 4 0,
    .aggregator 0 (.checkpoint 1 1)]
  let told := sent ++ [toLeader (sentBy 0 sent)]
  finishes (told ++ [.leader (.endRound 1), .leader (.beginRound 2)])

/-- What honest parties do, checked at one step. -/
def honestStep (σ : List (SubnetOp crate) × SubnetOp crate) : Bool :=
  (setOf σ.2).all (fun a => (subnet.announced σ.1).any (fun b => decide (b = a.2))) &&
    (shareOf σ.2).all (fun signed => decide (serverIdOf subnet.leader signed.2 = some 0) &&
      (subnet.shares σ.1 0).any (fun e => decide (crate.recoverShare e.signed = crate.recoverShare signed))) &&
    (aggregateOf σ.2).all (fun w => [0, 1].any (fun g => (subnet.aggregates σ.1 g).any (fun w' =>
      decide (signedWords w' = signedWords w) && decide ((signedWords w).map Prod.fst =
        some (subnet.aggregator g).identity))))

/-- Every relay that is called is the one there is. -/
def onlyRelay (e : SubnetOp crate) : Bool :=
  match e with
  | .relay i _ => decide (i = 0)
  | _ => true

theorem relayOps_eq_nil {evs : List (SubnetOp crate)} {i : U32} (hi : i ≠ 0)
    (h : ∀ e ∈ evs, onlyRelay e = true) : relayOps i evs = [] := by
  refine List.filterMap_eq_nil_iff.mpr (fun e he => ?_)
  cases e with
  | leader op => rfl
  | aggregator g op => rfl
  | relay j op =>
    have hj : j = 0 := of_decide_eq_true (h _ he)
    exact if_neg (fun hji => hi (hji.symm.trans hj))

theorem honest_of_steps {evs : List (SubnetOp crate)} (hleader : InOrder (leaderOps evs))
    (hrelay : InOrder (relayOps 0 evs)) (honly : ∀ e ∈ evs, onlyRelay e = true)
    (h : ∀ σ ∈ Trace.steps evs, honestStep σ = true) : subnet.Honest evs where
  leaderRounds := hleader
  relayRounds i := by
    by_cases hi : i = 0
    · exact hi ▸ hrelay
    · rw [relayOps_eq_nil hi honly]
      exact ⟨List.Pairwise.nil, nofun, nofun⟩
  sets σ hσ a ha _ := by
    have hset := (Bool.and_eq_true_iff.mp (Bool.and_eq_true_iff.mp (h σ hσ)).1).1
    rw [ha] at hset
    obtain ⟨b, hb, heq⟩ := List.any_eq_true.mp hset
    exact of_decide_eq_true heq ▸ hb
  shares σ hσ signed hsigned own hown sid hsid := by
    have hshare := (Bool.and_eq_true_iff.mp (Bool.and_eq_true_iff.mp (h σ hσ)).1).2
    rw [hsigned] at hshare
    obtain ⟨hslot, hmade⟩ := Bool.and_eq_true_iff.mp hshare
    obtain ⟨e, he, heq⟩ := List.any_eq_true.mp hmade
    have hsame := (of_decide_eq_true heq).trans hown
    cases hown
    cases (of_decide_eq_true hslot).symm.trans hsid
    exact ⟨e, he, hsame⟩
  aggregates σ hσ w hw words hwords _ g _ := by
    have hagg := (Bool.and_eq_true_iff.mp (h σ hσ)).2
    rw [hw] at hagg
    obtain ⟨g', -, hg⟩ := List.any_eq_true.mp hagg
    obtain ⟨w', hw', heq⟩ := List.any_eq_true.mp hg
    obtain ⟨hsame, hid⟩ := Bool.and_eq_true_iff.mp heq
    have hsame := of_decide_eq_true hsame
    have hid := of_decide_eq_true hid
    rw [hwords] at hsame hid
    exact ⟨g', (Option.some.inj hid).symm, w', hw', words, hsame, rfl⟩

/-- The condition on the run, checked at one step. -/
def combinableStep (σ : List (SubnetOp crate) × SubnetOp crate) : Bool :=
  match σ.2 with
  | .leader (.inbound _ (some (.groupAggregate round group _ clients _ _)) _) =>
      (!(subnet.leaderAfter σ.1).announcedRounds.contains round ||
        (subnet.leaderAfter σ.1).combinedRounds.contains round) &&
      (subnet.aggregates σ.1 group).all (fun w => match w with
        | .groupAggregate _ _ _ clients' _ _ => decide (clients' = clients)
        | _ => true)
  | .leader (.endRound _) => groupsCached (subnet.leaderAfter σ.1)
  | _ => true

theorem combinable_of_step {σ : List (SubnetOp crate) × SubnetOp crate}
    (h : combinableStep σ = true) : subnet.Combinable σ := by
  rw [combinableStep.eq_def] at h
  rw [Combinable.eq_def]
  split
  · rename_i hop
    rw [hop] at h
    intro _ _
    obtain ⟨hround, hall⟩ := Bool.and_eq_true_iff.mp h
    refine ⟨by simpa using hround, fun blinded' clients' signer signature hmem _ => ?_⟩
    exact of_decide_eq_true (List.all_eq_true.mp hall _ hmem)
  · rename_i hop
    rw [hop] at h
    exact fun _ => h
  · trivial

theorem sharesNameRound : SharesNameRound crate := by
  rintro cfg t sid key secrets signed own ⟨⟩ ⟨⟩
  rfl

/-- The calls of `combine_round` at the end of a run. -/
def lastCalls (evs : List (SubnetOp crate)) : List CombineCall :=
  ((subnet.leaderAfter evs.dropLast).endRound subnet.leader 2).calls

/-- With both groups on time the call has two groups, and is over the announced set. -/
theorem onTime_combines : (lastCalls onTime).map (fun call => call.inputs.length) = [2] ∧
    ∀ l r, (l, .leader (.endRound r)) ∈ Trace.steps onTime →
      ∀ call ∈ ((subnet.leaderAfter l).endRound subnet.leader r).calls,
        ∃ keys, subnet.OverAnnounced (l ++ [.leader (.endRound r)]) call keys := by
  refine ⟨by decide +kernel, combines_announced_set subnet sharesNameRound onTime ?_ ?_⟩
  · exact honest_of_steps ⟨by decide +kernel, by decide +kernel, by decide +kernel⟩
      ⟨by decide +kernel, by decide +kernel, by decide +kernel⟩ (by decide +kernel)
      (by decide +kernel)
  · exact fun σ hσ => combinable_of_step ((by decide +kernel :
      ∀ σ ∈ Trace.steps onTime, combinableStep σ = true) σ hσ)

theorem mem_steps_finishes (evs : List (SubnetOp crate)) :
    ((finishes evs).dropLast, .leader (.endRound 2)) ∈ Trace.steps (finishes evs) := by
  obtain ⟨l, hl⟩ : ∃ l, finishes evs = l ++ [.leader (.endRound 2)] :=
    ⟨_, (List.append_assoc _ [_] [_]).symm⟩
  rw [hl, List.dropLast_concat]
  exact Trace.mem_steps.mpr ⟨[], rfl⟩

/-- Two clients are summed, and every set announced has one. -/
theorem not_overAnnounced {evs : List (SubnetOp crate)} {call : CombineCall}
    (hone : ∀ a ∈ subnet.announced evs, (signersOf a.2).length = 1)
    (htwo : (call.inputs.flatMap Prod.snd).length = 2) :
    ¬ ∃ keys, subnet.OverAnnounced evs call keys := by
  rintro ⟨keys, h⟩
  have hlen := h.clients.length_eq
  rw [htwo, hone _ h.announced] at hlen
  cases hlen

/-- **A group that comes after its round is announced is summed with the others, and so is
a member whose key does not decode**; neither is in the announced set. -/
theorem late_group_is_summed :
    (subnet.Honest late ∧ ∃ l call, (l, .leader (.endRound 2)) ∈ Trace.steps late ∧
      call ∈ ((subnet.leaderAfter l).endRound subnet.leader 2).calls ∧
      ¬ ∃ keys, subnet.OverAnnounced (l ++ [.leader (.endRound 2)]) call keys) ∧
    (subnet.Honest undecodable ∧ ∃ l call, (l, .leader (.endRound 2)) ∈ Trace.steps undecodable ∧
      call ∈ ((subnet.leaderAfter l).endRound subnet.leader 2).calls ∧
      ¬ ∃ keys, subnet.OverAnnounced (l ++ [.leader (.endRound 2)]) call keys) := by
  constructor
  · refine ⟨honest_of_steps ⟨by decide +kernel, by decide +kernel, by decide +kernel⟩
      ⟨by decide +kernel, by decide +kernel, by decide +kernel⟩ (by decide +kernel)
      (by decide +kernel), late.dropLast, ?_⟩
    obtain ⟨call, hcall⟩ := List.length_eq_one_iff.mp
      (by decide +kernel : (lastCalls late).length = 1)
    have hmem : call ∈ lastCalls late := hcall ▸ List.mem_cons_self
    refine ⟨call, mem_steps_finishes _, hmem, not_overAnnounced (by decide +kernel) ?_⟩
    exact (by decide +kernel : ∀ call ∈ lastCalls late,
      (call.inputs.flatMap Prod.snd).length = 2) call hmem
  · refine ⟨honest_of_steps ⟨by decide +kernel, by decide +kernel, by decide +kernel⟩
      ⟨by decide +kernel, by decide +kernel, by decide +kernel⟩ (by decide +kernel)
      (by decide +kernel), undecodable.dropLast, ?_⟩
    obtain ⟨call, hcall⟩ := List.length_eq_one_iff.mp
      (by decide +kernel : (lastCalls undecodable).length = 1)
    have hmem : call ∈ lastCalls undecodable := hcall ▸ List.mem_cons_self
    refine ⟨call, mem_steps_finishes _, hmem, not_overAnnounced (by decide +kernel) ?_⟩
    exact (by decide +kernel : ∀ call ∈ lastCalls undecodable,
      (call.inputs.flatMap Prod.snd).length = 2) call hmem

end AdcnetToy
end Anymone
