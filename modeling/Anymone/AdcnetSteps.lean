import Anymone.AdcnetServer
import Anymone.WindowGuard

/-! # What the calls of an ADCNet relay do

One statement for each kind of inbound message and for each phase of `end_round`: the
fields it changes, and what it puts there.  The properties of runs are derived from
these and do not look inside the session again.
-/

namespace Anymone
namespace AdcnetServerSession
open Adcnet
variable {C : AdcnetCrate} {cfg : AdcnetServerConfig C} {s : AdcnetServerSession C}

/-! ## Keys -/

@[simp] theorem signersOf_nil : signersOf ([] : List C.SignedKey) = [] := rfl

theorem signersOf_append (l l' : List C.SignedKey) :
    signersOf (l ++ l') = signersOf l ++ signersOf l' := List.filterMap_append

theorem cacheClientKey_eq (cfg : AdcnetServerConfig C) (s : AdcnetServerSession C)
    (signer : PublicKey) (ke : KeyExchange) (signed : C.SignedKey) : ∃ secrets keys,
      s.cacheClientKey cfg signer ke signed =
        { s with sharedSecrets := secrets, clientKeys := keys } := by
  rw [cacheClientKey]
  split
  · exact ⟨_, _, rfl⟩
  · exact ⟨_, _, rfl⟩

theorem cacheClients_concat (s : AdcnetServerSession C) (clients : List C.SignedKey)
    (signed : C.SignedKey) : s.cacheClients cfg (clients ++ [signed]) =
      match C.recoverKey signed with
      | none => s.cacheClients cfg clients
      | some (ke, signer) =>
          ((s.cacheClients cfg clients).1.cacheClientKey cfg signer ke signed,
            (s.cacheClients cfg clients).2 ++ [signer]) := List.foldl_concat ..

/-- Caching an announced set touches secrets and keys only, and recovers the signers. -/
theorem cacheClients_eq (cfg : AdcnetServerConfig C) (s : AdcnetServerSession C)
    (clients : List C.SignedKey) :
    (∃ secrets keys, (s.cacheClients cfg clients).1 =
      { s with sharedSecrets := secrets, clientKeys := keys }) ∧
      (s.cacheClients cfg clients).2 = signersOf clients := by
  induction clients using List.reverseRecOn with
  | nil => exact ⟨⟨_, _, rfl⟩, rfl⟩
  | append_singleton clients signed ih =>
    obtain ⟨⟨secrets, keys, hs⟩, hl⟩ := ih
    rw [cacheClients_concat, signersOf_append]
    cases hr : C.recoverKey signed with
    | none =>
      refine ⟨⟨secrets, keys, hs⟩, ?_⟩
      rw [hl]
      simp [signersOf, hr]
    | some r =>
      obtain ⟨ke, signer⟩ := r
      obtain ⟨secrets', keys', hk⟩ :=
        cacheClientKey_eq cfg (s.cacheClients cfg clients).1 signer ke signed
      refine ⟨⟨secrets', keys', ?_⟩, ?_⟩
      · show (s.cacheClients cfg clients).1.cacheClientKey cfg signer ke signed = _
        rw [hk, hs]
      · show (s.cacheClients cfg clients).2 ++ [signer] = _
        rw [hl]
        simp [signersOf, hr]

/-! ## Inbound -/

/-- A contribution is kept when it is signed by the signer of its key, from the current
round on, and the first of that signer in its round. -/
theorem onClient_cases (cfg : AdcnetServerConfig C) (s : AdcnetServerSession C)
    (good : Pubkey → Bool) (contribution : C.SignedContribution) (key : C.SignedKey) :
    s.onClient cfg good contribution key = s ∨
    (∃ r, s.onClient cfg good contribution key =
      { s with clientsByRound :=
          s.clientsByRound.insert r ((s.clientsByRound.get? r).getD []) }) ∨
    (∃ c signer ke, C.recoverContribution contribution = some (c, signer) ∧
      C.recoverKey key = some (ke, signer) ∧ s.curRound ≤ c.round ∧
      (∀ i ∈ (s.clientsByRound.get? c.round).getD [], i.2 ≠ signer) ∧
      s.onClient cfg good contribution key =
        { s.cacheClientKey cfg signer ke key with
          clientsByRound := s.clientsByRound.insert c.round
            ((s.clientsByRound.get? c.round).getD [] ++ [(c, signer)]) }) := by
  rw [onClient]
  split
  case h_2 => exact Or.inl rfl
  case h_1 c signer ke keySigner hc hk =>
    by_cases hsigner : keySigner ≠ signer
    · rw [if_pos hsigner]
      exact Or.inl rfl
    rw [if_neg hsigner]
    by_cases hround : (decide (c.round < s.curRound) || tooFar c.round s.curRound) = true
    · rw [if_pos hround]
      exact Or.inl rfl
    rw [if_neg hround]
    by_cases hgood : (!(pubkeyOf signer).any good) = true
    · rw [if_pos hgood]
      exact Or.inl rfl
    rw [if_neg hgood]
    dsimp only
    by_cases hdup : ((s.clientsByRound.get? c.round).getD []).any (fun i => i.2 = signer) = true
    · rw [if_pos hdup]
      exact Or.inr (Or.inl ⟨c.round, rfl⟩)
    rw [if_neg hdup]
    by_cases hfull : cfg.clientSetMax ≤ ((s.clientsByRound.get? c.round).getD []).length
    · rw [if_pos hfull]
      exact Or.inr (Or.inl ⟨c.round, rfl⟩)
    rw [if_neg hfull]
    rw [not_not.mp hsigner] at hk
    refine Or.inr (Or.inr ⟨c, signer, ke, hc, hk, ?_, fun i hi hsame => hdup ?_, ?_⟩)
    · simp only [Bool.or_eq_true, decide_eq_true_eq, not_or] at hround
      exact not_lt.mp hround.1
    · exact List.any_eq_true.mpr ⟨i, hi, decide_eq_true hsame⟩
    · rw [cacheClientKey, cacheClientKey]
      split <;> rfl

/-- A share is filed under its own round and its signer's slot. -/
theorem onShare_cases (cfg : AdcnetServerConfig C) (s : AdcnetServerSession C)
    (signed : C.SignedShare) :
    s.onShare cfg signed = s ∨
    ∃ share signer sid, C.recoverShare signed = some (share, signer) ∧
      serverIdOf cfg signer = some sid ∧ tooOld share.round s.curRound = false ∧
      s.onShare cfg signed =
        { s with
          sharesByRound := s.sharesByRound.insert share.round
            (((s.sharesByRound.get? share.round).getD OrdMap.empty).insert sid
              { share with serverId := sid }) } := by
  rw [onShare]
  split
  case h_1 => exact Or.inl rfl
  case h_2 share signer hr =>
    by_cases hround : (tooOld share.round s.curRound || tooFar share.round s.curRound) = true
    · rw [if_pos hround]
      exact Or.inl rfl
    rw [if_neg hround]
    cases hsid : serverIdOf cfg signer with
    | none => exact Or.inl rfl
    | some sid =>
      simp only [Bool.or_eq_true, not_or, Bool.not_eq_true] at hround
      exact Or.inr ⟨share, signer, sid, hr, hsid, hround.1, rfl⟩

/-- What a message can do to the session, but for the leader's contributions and shares. -/
theorem onInbound_cases (cfg : AdcnetServerConfig C) (s : AdcnetServerSession C) (sender : PeerId)
    (msg : Option (AdcnetWire C)) (good : Pubkey → Bool) :
    ((∀ round clients, msg = some (.clientSet round clients) →
        s.takesSet cfg sender round clients = false) ∧
      (∀ round payloads, msg = some (.decoded round payloads) →
        s.routes cfg sender round = false) ∧
      ∃ clients shares secrets keys, s.onInbound cfg sender msg good =
        { s with clientsByRound := clients, sharesByRound := shares, sharedSecrets := secrets,
                 clientKeys := keys } ∧
        (clients = s.clientsByRound ∨ ∃ contribution key, msg = some (.client contribution key)) ∧
        (shares = s.sharesByRound ∨ ∃ signed, msg = some (.server signed))) ∨
    (∃ round clients secrets keys, msg = some (.clientSet round clients) ∧
      s.takesSet cfg sender round clients = true ∧ s.onInbound cfg sender msg good =
        { s with sharedSecrets := secrets, clientKeys := keys,
                 clientSetByRound := s.clientSetByRound.orInsert round (signersOf clients) }) ∨
    (∃ round payloads, msg = some (.decoded round payloads) ∧ s.routes cfg sender round = true ∧
      s.onInbound cfg sender msg good =
        { s with routedRounds := s.routedRounds.add round,
                 pendingDecoded := s.pendingDecoded ++ payloads }) ∨
    (∃ round group blinded clients signer signature secrets keys,
      msg = some (.groupAggregate round group blinded clients signer signature) ∧
      s.takesGroup cfg round group blinded clients signer signature = true ∧
      s.onInbound cfg sender msg good =
        { s with
          sharedSecrets := secrets, clientKeys := keys,
          aggByRound := s.aggByRound.insert round
            (((s.aggByRound.get? round).getD OrdMap.empty).orInsert group
              (blinded, signersOf clients)) }) := by
  cases msg with
  | none => exact Or.inl ⟨nofun, nofun, _, _, _, _, rfl, Or.inl rfl, Or.inl rfl⟩
  | some msg =>
    cases msg with
    | client contribution key =>
      refine Or.inl ⟨nofun, nofun, ?_⟩
      -- only a leader takes contributions
      by_cases hl : cfg.isLeader = true
      · rw [onInbound, if_pos hl]
        rcases s.onClient_cases cfg good contribution key with h | ⟨r, h⟩ |
          ⟨c, signer, ke, -, -, -, -, h⟩
        · rw [h]
          exact ⟨_, _, _, _, rfl, Or.inr ⟨_, _, rfl⟩, Or.inl rfl⟩
        · rw [h]
          exact ⟨_, _, _, _, rfl, Or.inr ⟨_, _, rfl⟩, Or.inl rfl⟩
        · obtain ⟨secrets, keys, hk⟩ := cacheClientKey_eq cfg s signer ke key
          rw [h, hk]
          exact ⟨_, _, _, _, rfl, Or.inr ⟨_, _, rfl⟩, Or.inl rfl⟩
      · rw [onInbound, if_neg hl]
        exact ⟨_, _, _, _, rfl, Or.inr ⟨_, _, rfl⟩, Or.inl rfl⟩
    | server signed =>
      refine Or.inl ⟨nofun, nofun, ?_⟩
      by_cases hl : cfg.isLeader = true
      · rw [onInbound, if_pos hl]
        rcases s.onShare_cases cfg signed with h | ⟨share, signer, sid, -, -, -, h⟩
        · rw [h]
          exact ⟨_, _, _, _, rfl, Or.inl rfl, Or.inr ⟨_, rfl⟩⟩
        · rw [h]
          exact ⟨_, _, _, _, rfl, Or.inl rfl, Or.inr ⟨_, rfl⟩⟩
      · rw [onInbound, if_neg hl]
        exact ⟨_, _, _, _, rfl, Or.inl rfl, Or.inr ⟨_, rfl⟩⟩
    | clientSet round clients =>
      by_cases h : s.takesSet cfg sender round clients = true
      · obtain ⟨⟨secrets, keys, hs⟩, hl⟩ := cacheClients_eq cfg s clients
        refine Or.inr (Or.inl ⟨round, clients, secrets, keys, rfl, h, ?_⟩)
        rw [onInbound, onClientSet, if_pos h]
        dsimp only
        rw [hs, hl]
      · refine Or.inl ⟨fun round' clients' he => ?_, nofun, ?_⟩
        · cases he
          exact Bool.eq_false_iff.mpr h
        · rw [onInbound, onClientSet, if_neg h]
          exact ⟨_, _, _, _, rfl, Or.inl rfl, Or.inl rfl⟩
    | decoded round payloads =>
      by_cases h : s.routes cfg sender round = true
      · refine Or.inr (Or.inr (Or.inl ⟨round, payloads, rfl, h, ?_⟩))
        rw [onInbound, onDecoded, if_pos h]
      · refine Or.inl ⟨nofun, fun round' payloads' he => ?_, ?_⟩
        · cases he
          exact Bool.eq_false_iff.mpr h
        · rw [onInbound, onDecoded, if_neg h]
          exact ⟨_, _, _, _, rfl, Or.inl rfl, Or.inl rfl⟩
    | groupAggregate round group blinded clients signer signature =>
      by_cases h : s.takesGroup cfg round group blinded clients signer signature = true
      · obtain ⟨⟨secrets, keys, hs⟩, hl⟩ := cacheClients_eq cfg s clients
        refine Or.inr (Or.inr (Or.inr
          ⟨round, group, blinded, clients, signer, signature, secrets, keys, rfl, h, ?_⟩))
        rw [onInbound, onGroupAggregate, if_pos h]
        dsimp only
        rw [hs, hl]
      · refine Or.inl ⟨nofun, nofun, ?_⟩
        rw [onInbound, onGroupAggregate, if_neg h]
        exact ⟨_, _, _, _, rfl, Or.inl rfl, Or.inl rfl⟩

/-! ## Phase A -/

/-- The session after some sets are announced: their rounds are marked, and a round
without a set takes the first one. -/
theorem announceAll_eq (as : List (U32 × List C.SignedKey)) (s : AdcnetServerSession C) :
    ∃ sets announced, as.foldl (fun s a => s.announce a.1 a.2) s =
        { s with clientSetByRound := sets, announcedRounds := announced } ∧
      (∀ t, sets.get? t = (s.clientSetByRound.get? t).or
        ((as.find? (fun a => a.1 = t)).map (fun a => signersOf a.2))) ∧
      ∀ t, announced.contains t = (s.announcedRounds.contains t || as.any (fun a => a.1 = t)) := by
  induction as generalizing s with
  | nil => exact ⟨_, _, rfl, fun t => by simp, fun t => by simp⟩
  | cons a as ih =>
    obtain ⟨sets, announced, heq, hsets, hann⟩ := ih (s.announce a.1 a.2)
    refine ⟨sets, announced, heq, fun t => ?_, fun t => ?_⟩
    · rw [hsets]
      show ((s.clientSetByRound.orInsert a.1 (signersOf a.2)).get? t).or _ = _
      rw [OrdMap.get?_orInsert, List.find?_cons]
      by_cases hat : a.1 = t
      · subst hat
        cases s.clientSetByRound.get? a.1 <;> simp
      · rw [if_neg (Ne.symm hat)]
        simp [hat]
    · rw [hann]
      show ((s.announcedRounds.add a.1).contains t || _) = _
      rw [OrdSet.contains_add, List.any_cons]
      by_cases hat : a.1 = t
      · subst hat
        simp
      · have hta : ¬ t = a.1 := fun h => hat h.symm
        simp [hat, hta]

/-- What is announced: the cached keys of the clients heard from, directly or through
their groups, in a round not announced before. -/
theorem announcements_cases {cur : U32} {a : U32 × List C.SignedKey}
    (h : a ∈ s.announcements cfg cur) :
    cfg.isLeader = true ∧ s.announcedRounds.contains a.1 = false ∧ a.2 ≠ [] ∧
      ((cfg.aggregation.isSome = true ∧ ∃ groups, s.aggByRound.get? a.1 = some groups ∧
          a.2 = s.cachedKeys (groups.values.flatMap Prod.snd)) ∨
        (cfg.aggregation.isSome = false ∧ a.1 = cur ∧ a.2 = s.leaderSetForRound cur)) := by
  rw [announcements] at h
  split at h
  · cases h
  · rename_i hl
    have hl : cfg.isLeader = true := by simpa using hl
    split at h
    · rename_i hagg
      obtain ⟨r, hr, ha⟩ := List.mem_filterMap.mp h
      obtain ⟨-, hnot⟩ := List.mem_filter.mp hr
      cases hkeys : s.leaderAggSetForRound r with
      | none =>
        rw [hkeys] at ha
        cases ha
      | some keys =>
        simp only [hkeys] at ha
        split at ha
        · cases ha
        · rename_i hne
          cases ha
          obtain ⟨groups, hgroups, hset⟩ := Option.map_eq_some_iff.mp hkeys
          exact ⟨hl, by simpa using hnot, by simpa using hne,
            Or.inl ⟨hagg, groups, hgroups, hset.symm⟩⟩
    · rename_i hagg
      split at h
      · cases h
      · rename_i hnot
        split at h
        · cases h
        · rename_i hne
          cases List.mem_singleton.mp h
          exact ⟨hl, by simpa using hnot, by simpa using hne,
            Or.inr ⟨by simpa using hagg, rfl, rfl⟩⟩

/-- A round is announced once. -/
theorem announcements_fresh {cur : U32} {a : U32 × List C.SignedKey}
    (h : a ∈ s.announcements cfg cur) : s.announcedRounds.contains a.1 = false ∧
      (a.1 = cur ∨ s.aggByRound.contains a.1 = true) := by
  obtain ⟨-, hnot, -, ⟨-, groups, hgroups, -⟩ | ⟨-, hcur, -⟩⟩ := announcements_cases h
  · exact ⟨hnot, Or.inr (OrdMap.contains_iff.mpr ⟨groups, hgroups⟩)⟩
  · exact ⟨hnot, Or.inl hcur⟩

/-- A partial function that names what it was given keeps the order and drops some. -/
theorem map_filterMap_sublist {α β : Type} {f : α → Option β} {g : β → α}
    (h : ∀ a b, f a = some b → g b = a) (l : List α) : ((l.filterMap f).map g).Sublist l := by
  induction l with
  | nil => exact List.Sublist.refl _
  | cons a l ih =>
    rw [List.filterMap_cons]
    cases hf : f a with
    | none => exact ih.cons a
    | some b =>
      rw [List.map_cons, h a b hf]
      exact ih.cons_cons a

theorem nodup_announcements (cur : U32) : ((s.announcements cfg cur).map Prod.fst).Nodup := by
  rw [announcements]
  split
  · exact List.nodup_nil
  · split
    · have hkeys : (s.aggByRound.keys.filter (fun r => !s.announcedRounds.contains r)).Nodup :=
        (s.aggByRound.keys_sorted.imp (fun h => h.ne)).filter _
      refine List.Nodup.sublist (map_filterMap_sublist ?_ _) hkeys
      intro r a ha
      split at ha
      · cases ha
      · split at ha
        · cases ha
        · cases ha
          rfl
    · split
      · exact List.nodup_nil
      · split
        · exact List.nodup_nil
        · exact List.nodup_singleton _

/-! ## Phase B -/

theorem contains_secretsFor (set : List PublicKey) (pk : PublicKey) :
    (s.secretsFor set).contains pk = true ↔ pk ∈ set ∧ s.sharedSecrets.contains pk = true := by
  induction set using List.reverseRecOn with
  | nil => simp [secretsFor, OrdMap.contains]
  | append_singleton set k ih =>
    rw [List.mem_append, List.mem_singleton]
    cases hk : s.sharedSecrets.get? k with
    | none =>
      have hstep : s.secretsFor (set ++ [k]) = s.secretsFor set := by
        unfold secretsFor
        rw [List.foldl_concat, hk]
      rw [hstep]
      have hnot : ¬ s.sharedSecrets.contains k = true := by simp [OrdMap.contains, hk]
      constructor
      · intro h
        exact ⟨Or.inl (ih.mp h).1, (ih.mp h).2⟩
      · rintro ⟨hmem | rfl, hc⟩
        · exact ih.mpr ⟨hmem, hc⟩
        · exact absurd hc hnot
    | some secret =>
      have hyes : s.sharedSecrets.contains k = true := by simp [OrdMap.contains, hk]
      have hstep : s.secretsFor (set ++ [k]) = (s.secretsFor set).insert k secret := by
        unfold secretsFor
        rw [List.foldl_concat, hk]
      rw [hstep, OrdMap.contains_insert_iff, ih]
      constructor
      · rintro (rfl | ⟨hmem, hc⟩)
        · exact ⟨Or.inr rfl, hyes⟩
        · exact ⟨Or.inl hmem, hc⟩
      · rintro ⟨hmem | rfl, hc⟩
        · exact Or.inr ⟨hmem, hc⟩
        · exact Or.inl rfl

theorem mem_keys_iff {m : OrdMap PublicKey SharedKey} {pk : PublicKey} :
    pk ∈ m.keys ↔ m.contains pk = true := OrdMap.mem_keys.trans OrdMap.contains_iff.symm

/-- As many secrets as members: no member is repeated and each has its secret. -/
theorem secretsFor_full {set : List PublicKey} (h : (s.secretsFor set).size = set.length) :
    (s.secretsFor set).keys.Perm set := by
  have hnodup : (s.secretsFor set).keys.Nodup := (OrdMap.keys_sorted _).imp (fun h => h.ne)
  have hsub : (s.secretsFor set).keys ⊆ set := by
    intro pk hpk
    exact ((contains_secretsFor set pk).mp (mem_keys_iff.mp hpk)).1
  refine (List.subperm_of_subset hnodup hsub).perm_of_length_le ?_
  rw [OrdMap.keys, List.length_map]
  exact h.ge

theorem keys_corrupt (secrets : OrdMap PublicKey SharedKey) :
    (corrupt secrets).keys = secrets.keys := by
  obtain ⟨entries, hsorted⟩ := secrets
  cases entries with
  | nil => rfl
  | cons e entries =>
    simp [corrupt, OrdMap.keys, OrdMap.insert, OrdMap.ins]

/-- A share that is made is over exactly the round's set, each client once. -/
theorem makeShare_eq_some {t : U32} {e : EmittedShare C} (h : s.makeShare cfg t = some e) :
    e.round = t ∧ e.secrets.keys.Perm ((s.clientSetByRound.get? t).getD []) ∧
      C.serverContribute cfg.config t cfg.serverId cfg.signingKey e.secrets = some e.signed ∧
      (s.misbehavior ≠ some .corruptShare →
        e.secrets = s.secretsFor ((s.clientSetByRound.get? t).getD [])) := by
  rw [makeShare] at h
  dsimp only at h
  split at h
  · cases h
  · rename_i hfull
    obtain ⟨signed, hsigned, rfl⟩ := Option.map_eq_some_iff.mp h
    simp only [Bool.or_eq_true, decide_eq_true_eq, not_or, not_not] at hfull
    have hperm := secretsFor_full hfull.1
    refine ⟨rfl, ?_, hsigned, fun hm => if_neg hm⟩
    show (if s.misbehavior = some .corruptShare then _ else _ : OrdMap _ _).keys.Perm _
    split
    · rw [keys_corrupt]
      exact hperm
    · exact hperm

/-- Phase B shares in some of the rounds it is given, each at most once, marks them, and
leaves the sets, the secrets and the mode that the shares are made from. -/
theorem phaseB_eq (cfg : AdcnetServerConfig C) (ts : List U32) (s : AdcnetServerSession C) :
    ∃ shares shared, (phaseB cfg s ts).1 =
        { s with sharesByRound := shares, sharedRounds := shared } ∧
      ((phaseB cfg s ts).2.map EmittedShare.round).Sublist ts ∧
      (∀ e ∈ (phaseB cfg s ts).2, s.makeShare cfg e.round = some e) ∧
      ∀ t, shared.contains t =
        (s.sharedRounds.contains t || (phaseB cfg s ts).2.any (fun e => e.round = t)) := by
  induction ts generalizing s with
  | nil => exact ⟨_, _, rfl, List.Sublist.refl _, nofun, fun t => by simp [phaseB]⟩
  | cons t ts ih =>
    rw [phaseB]
    cases hm : s.makeShare cfg t with
    | none =>
      obtain ⟨shares, shared, heq, hsub, hmem, hcontains⟩ := ih s
      exact ⟨shares, shared, heq, hsub.cons t, hmem, hcontains⟩
    | some e =>
      obtain ⟨shares, shared, heq, hsub, hmem, hcontains⟩ := ih (s.recordShare cfg e)
      have he := (makeShare_eq_some hm).1
      refine ⟨shares, shared, heq, ?_, ?_, fun r => ?_⟩
      · show (e.round :: _).Sublist _
        rw [he]
        exact hsub.cons_cons t
      · intro e' he'
        rcases List.mem_cons.mp he' with rfl | he'
        · rw [he]
          exact hm
        · exact hmem e' he'
      · rw [hcontains]
        show ((s.sharedRounds.add e.round).contains r || _) = _
        rw [OrdSet.contains_add, List.any_cons]
        by_cases her : e.round = r
        · subst her
          simp
        · have hre : ¬ r = e.round := fun h => her h.symm
          simp [her, hre]

/-- A relay's share in a round, as it is filed. -/
def Filed (s : AdcnetServerSession C) (t sid : U32) (share : ServerShare) : Prop :=
  ∃ pool, s.sharesByRound.get? t = some pool ∧ pool.get? sid = some share

/-- Filing one share leaves the others. -/
theorem Filed.of_insert {s' : AdcnetServerSession C} {r sid t sid' : U32}
    {share share' : ServerShare}
    (hs : s'.sharesByRound = s.sharesByRound.insert r
      (((s.sharesByRound.get? r).getD OrdMap.empty).insert sid share))
    (h : s'.Filed t sid' share') :
    s.Filed t sid' share' ∨ (t = r ∧ sid' = sid ∧ share' = share) := by
  obtain ⟨pool, hpool, hget⟩ := h
  rw [hs, OrdMap.get?_insert] at hpool
  by_cases ht : t = r
  · rw [if_pos ht] at hpool
    cases hpool
    rw [OrdMap.get?_insert] at hget
    by_cases hsid : sid' = sid
    · rw [if_pos hsid] at hget
      exact Or.inr ⟨ht, hsid, (Option.some.inj hget).symm⟩
    · rw [if_neg hsid] at hget
      cases hold : s.sharesByRound.get? r with
      | none =>
        rw [hold] at hget
        cases hget
      | some pool =>
        rw [hold] at hget
        exact Or.inl ⟨pool, ht ▸ hold, hget⟩
  · rw [if_neg ht] at hpool
    exact Or.inl ⟨pool, hpool, hget⟩

/-- The shares phase B files are the relay's own. -/
theorem phaseB_filed {cfg : AdcnetServerConfig C} {ts : List U32} {s : AdcnetServerSession C}
    {t sid : U32} {share : ServerShare} (h : (phaseB cfg s ts).1.Filed t sid share) :
    s.Filed t sid share ∨ (sid = cfg.serverId ∧ ∃ e ∈ (phaseB cfg s ts).2, e.round = t ∧
      ∃ signer, C.recoverShare e.signed = some (share, signer)) := by
  induction ts generalizing s with
  | nil => exact Or.inl h
  | cons r ts ih =>
    rw [phaseB] at h ⊢
    cases hm : s.makeShare cfg r with
    | none =>
      rw [hm] at h
      exact ih h
    | some e =>
      rw [hm] at h
      rcases ih h with hold | ⟨hsid, e', he', hround, hsigned⟩
      · by_cases hl : cfg.isLeader = true
        · cases hr : C.recoverShare e.signed with
          | none =>
            refine Or.inl ?_
            obtain ⟨pool, hpool, hget⟩ := hold
            rw [recordShare, if_pos hl, hr] at hpool
            exact ⟨pool, hpool, hget⟩
          | some own =>
            have hs : (s.recordShare cfg e).sharesByRound = s.sharesByRound.insert e.round
                (((s.sharesByRound.get? e.round).getD OrdMap.empty).insert cfg.serverId own.1) := by
              rw [recordShare, if_pos hl, hr]
              rfl
            rcases hold.of_insert hs with hold | ⟨rfl, hsid, rfl⟩
            · exact Or.inl hold
            · exact Or.inr ⟨hsid, e, List.mem_cons_self, rfl, own.2, hr⟩
        · refine Or.inl ?_
          obtain ⟨pool, hpool, hget⟩ := hold
          rw [recordShare, if_neg hl] at hpool
          exact ⟨pool, hpool, hget⟩
      · exact Or.inr ⟨hsid, e', List.mem_cons_of_mem _ he', hround, hsigned⟩

/-! ## Phase C -/

/-- The map without its entry at the target, seen from another round. -/
theorem get?_erase_ne {V : Type} {m : OrdMap U32 V} {t r : U32} (h : r ≠ t) :
    (m.erase t).get? r = m.get? r := by
  rw [OrdMap.get?_erase, if_neg h]

/-- Combining a round leaves what the other rounds are combined from. -/
theorem leaderCombine_eq (cfg : AdcnetServerConfig C) (s : AdcnetServerSession C) (t : U32) :
    s.leaderCombine cfg t = (s, none) ∨
    ∃ call payloads, s.combineCall cfg t = some call ∧
      s.combinedRounds.contains t = false ∧
      s.leaderCombine cfg t =
        ({ s with
            combinedRounds := s.combinedRounds.add t
            clientsByRound := s.clientsByRound.erase t
            aggByRound := s.aggByRound.erase t
            sharesByRound := s.sharesByRound.erase t }, some payloads) := by
  rw [leaderCombine]
  cases hcall : s.combineCall cfg t with
  | none => exact Or.inl rfl
  | some call =>
    dsimp only
    split
    · exact Or.inl rfl
    · rename_i payloads _
      refine Or.inr ⟨call, payloads, rfl, ?_, rfl⟩
      rw [combineCall] at hcall
      split at hcall
      · cases hcall
      · rename_i hnot
        simpa using hnot

/-- What a call of `combine_round` takes. -/
theorem combineCall_eq_some {t : U32} {call : CombineCall} (h : s.combineCall cfg t = some call) :
    s.combinedRounds.contains t = false ∧ ∃ set pool inputs,
      s.clientSetByRound.get? t = some set ∧ s.sharesByRound.get? t = some pool ∧
      s.combineInputs cfg t set = some inputs ∧ call = ⟨t, inputs, pool.values⟩ := by
  rw [combineCall] at h
  split at h
  · cases h
  · rename_i hnot
    split at h
    · cases h
    · rename_i set hset
      split at h
      · cases h
      · split at h
        · cases h
        · rename_i pool hpool
          split at h
          · cases h
          · obtain ⟨inputs, hinputs, rfl⟩ := Option.map_eq_some_iff.mp h
            exact ⟨by simpa using hnot, set, pool, inputs, hset, hpool, hinputs, rfl⟩

theorem combineCall_congr {s' : AdcnetServerSession C} {t : U32}
    (h1 : s'.combinedRounds.contains t = s.combinedRounds.contains t)
    (h2 : s'.clientSetByRound = s.clientSetByRound)
    (h3 : s'.sharesByRound.get? t = s.sharesByRound.get? t)
    (h4 : s'.aggByRound.get? t = s.aggByRound.get? t)
    (h5 : s'.clientsByRound.get? t = s.clientsByRound.get? t) :
    s'.combineCall cfg t = s.combineCall cfg t := by
  simp only [combineCall, combineInputs, h1, h2, h3, h4, h5]

/-- A round that was decoded. -/
def decodedIn (l : List (U32 × List Bytes)) (t : U32) : Bool := l.any (fun d => d.1 = t)

/-- Phase C decodes some of the rounds it is given, each at most once, marks them and
drops what was held for them; every call of `combine_round` is the one the state before
the phase gives. -/
theorem phaseC_eq (cfg : AdcnetServerConfig C) (ts : List U32) (hts : ts.Nodup)
    (s : AdcnetServerSession C) :
    ∃ combined clients agg shares, (phaseC cfg s ts).1 =
        { s with combinedRounds := combined, clientsByRound := clients, aggByRound := agg,
                 sharesByRound := shares } ∧
      ((phaseC cfg s ts).2.1.map Prod.fst).Sublist ts ∧
      (∀ d ∈ (phaseC cfg s ts).2.1, s.combinedRounds.contains d.1 = false) ∧
      (∀ t, combined.contains t =
        (s.combinedRounds.contains t || decodedIn (phaseC cfg s ts).2.1 t)) ∧
      (∀ t,
        clients.get? t =
          (if decodedIn (phaseC cfg s ts).2.1 t then none else s.clientsByRound.get? t) ∧
        agg.get? t =
          (if decodedIn (phaseC cfg s ts).2.1 t then none else s.aggByRound.get? t) ∧
        shares.get? t =
          (if decodedIn (phaseC cfg s ts).2.1 t then none else s.sharesByRound.get? t)) ∧
      ∀ call ∈ (phaseC cfg s ts).2.2, ∃ t ∈ ts, s.combineCall cfg t = some call := by
  induction ts generalizing s with
  | nil =>
    exact ⟨_, _, _, _, rfl, List.Sublist.refl _, nofun, fun t => by simp [phaseC, decodedIn],
      fun _ => ⟨rfl, rfl, rfl⟩, nofun⟩
  -- The induction is on the rounds still to try; the state is the one they are tried in.
  | cons t ts ih =>
    obtain ⟨hnot, hts⟩ := List.nodup_cons.mp hts
    have here : ∀ call ∈ (s.combineCall cfg t).toList,
        ∃ r ∈ t :: ts, s.combineCall cfg r = some call := fun call hcall =>
      ⟨t, List.mem_cons_self, Option.mem_toList.mp hcall⟩
    -- the round is not decoded, or it is decoded, marked and dropped
    rcases leaderCombine_eq cfg s t with hl | ⟨call, payloads, hcall, hnc, hl⟩
    · obtain ⟨combined, clients, agg, shares, heq, hsub, hfresh, hcontains, hheld, hcalls⟩ :=
        ih hts s
      rw [phaseC, hl]
      refine ⟨combined, clients, agg, shares, heq, hsub.cons t, hfresh, hcontains, hheld, ?_⟩
      intro call hmem
      rcases List.mem_append.mp hmem with hmem | hmem
      · exact here call hmem
      · obtain ⟨r, hr, hc⟩ := hcalls call hmem
        exact ⟨r, List.mem_cons_of_mem _ hr, hc⟩
    · rw [phaseC, hl]
      obtain ⟨combined, clients, agg, shares, heq, hsub, hfresh, hcontains, hheld, hcalls⟩ :=
        ih hts { s with
          combinedRounds := s.combinedRounds.add t
          clientsByRound := s.clientsByRound.erase t
          aggByRound := s.aggByRound.erase t
          sharesByRound := s.sharesByRound.erase t }
      generalize phaseC cfg { s with
          combinedRounds := s.combinedRounds.add t
          clientsByRound := s.clientsByRound.erase t
          aggByRound := s.aggByRound.erase t
          sharesByRound := s.sharesByRound.erase t } ts = rest at *
      have hmark : ∀ r, decodedIn ((t, payloads) :: rest.2.1) r =
          (decide (t = r) || decodedIn rest.2.1 r) := fun r => List.any_cons
      refine ⟨combined, clients, agg, shares, heq, hsub.cons_cons t, ?_, fun r => ?_, fun r => ?_,
        ?_⟩
      · intro d hd
        rcases List.mem_cons.mp hd with rfl | hd
        · exact hnc
        · have := hfresh d hd
          rw [OrdSet.contains_add, Bool.or_eq_false_iff] at this
          exact this.2
      · show combined.contains r = (_ || decodedIn ((t, payloads) :: rest.2.1) r)
        rw [hcontains, hmark]
        show ((s.combinedRounds.add t).contains r || _) = _
        rw [OrdSet.contains_add, Bool.or_left_comm, Bool.or_assoc]
        by_cases htr : t = r
        · subst htr
          simp
        · have hrt : ¬ r = t := fun h => htr h.symm
          simp [htr, hrt]
      · show clients.get? r = (if decodedIn ((t, payloads) :: rest.2.1) r then _ else _) ∧
          agg.get? r = (if decodedIn ((t, payloads) :: rest.2.1) r then _ else _) ∧
          shares.get? r = (if decodedIn ((t, payloads) :: rest.2.1) r then _ else _)
        obtain ⟨h1, h2, h3⟩ := hheld r
        rw [hmark, h1, h2, h3]
        show (if _ then _ else (s.clientsByRound.erase t).get? r) = _ ∧
          (if _ then _ else (s.aggByRound.erase t).get? r) = _ ∧
          (if _ then _ else (s.sharesByRound.erase t).get? r) = _
        by_cases htr : t = r
        · subst htr
          simp
        · have hrt : ¬ r = t := fun h => htr h.symm
          simp [htr, hrt]
      · intro call' hmem
        rcases List.mem_append.mp hmem with hmem | hmem
        · exact here call' hmem
        · obtain ⟨r, hr, hc⟩ := hcalls call' hmem
          -- no later round is `t`, so its call reads the same entries before the phase
          have hne : r ≠ t := fun h => hnot (h ▸ hr)
          refine ⟨r, List.mem_cons_of_mem _ hr, ?_⟩
          rw [← hc]
          symm
          apply combineCall_congr
          · show (s.combinedRounds.add t).contains r = _
            rw [OrdSet.contains_add, decide_eq_false hne, Bool.false_or]
          · rfl
          · exact get?_erase_ne hne
          · exact get?_erase_ne hne
          · exact get?_erase_ne hne

/-! ## The end of a round -/

/-- The session after phases A and B. -/
def shared (cfg : AdcnetServerConfig C) (s : AdcnetServerSession C) (r : Round) :
    AdcnetServerSession C :=
  (phaseB cfg (s.phaseA cfg r.toU32) (s.phaseA cfg r.toU32).pendingShareRounds).1

/-- Phases A and B touch the sets, the marks of both and the shares only. -/
theorem shared_eq (cfg : AdcnetServerConfig C) (s : AdcnetServerSession C) (r : Round) :
    ∃ sets announced pool marks, s.shared cfg r =
      { s with clientSetByRound := sets, announcedRounds := announced, sharesByRound := pool,
               sharedRounds := marks } := by
  obtain ⟨sets, announced, ha, -, -⟩ := announceAll_eq (s.announcements cfg r.toU32) s
  obtain ⟨pool, marks, hb, -, -, -⟩ :=
    phaseB_eq cfg (s.phaseA cfg r.toU32).pendingShareRounds (s.phaseA cfg r.toU32)
  refine ⟨sets, announced, pool, marks, ?_⟩
  rw [shared, hb, phaseA, ha]

/-- The end of a round is withheld, or is the three phases. -/
theorem endRound_cases (cfg : AdcnetServerConfig C) (s : AdcnetServerSession C) (r : Round) :
    s.endRound cfg r = ⟨{ s with pendingDecoded := [] }, [], [], [], [], s.pendingDecoded⟩ ∨
    ∃ c, c = (if cfg.isLeader then
          phaseC cfg (s.shared cfg r) (s.shared cfg r).clientSetByRound.keys
        else (s.shared cfg r, [], [])) ∧
      s.endRound cfg r = ⟨{ c.1 with pendingDecoded := [] }, s.announcements cfg r.toU32,
        (phaseB cfg (s.phaseA cfg r.toU32) (s.phaseA cfg r.toU32).pendingShareRounds).2,
        c.2.1, c.2.2, c.1.pendingDecoded⟩ := by
  by_cases h : s.misbehavior = some .withhold
  · exact Or.inl (if_pos h)
  · exact Or.inr ⟨_, rfl, if_neg h⟩

/-- The end of a round keeps what was held for the rounds it does not decode, and the
marks of the others. -/
theorem endRound_held (cfg : AdcnetServerConfig C) (s : AdcnetServerSession C) (r : Round)
    (t : U32) :
    (s.endRound cfg r).session.clientsByRound.get? t =
        (if decodedIn (s.endRound cfg r).combined t then none else s.clientsByRound.get? t) ∧
      (s.endRound cfg r).session.aggByRound.get? t =
        (if decodedIn (s.endRound cfg r).combined t then none else s.aggByRound.get? t) ∧
      (s.endRound cfg r).session.combinedRounds.contains t =
        (s.combinedRounds.contains t || decodedIn (s.endRound cfg r).combined t) := by
  obtain ⟨sets, announced, pool, marks, hb⟩ := shared_eq cfg s r
  rcases endRound_cases cfg s r with heq | ⟨c, hc, heq⟩
  · rw [heq]
    exact ⟨rfl, rfl, (Bool.or_false _).symm⟩
  · rw [heq]
    dsimp only
    by_cases hl : cfg.isLeader = true
    · rw [if_pos hl] at hc
      have hnodup : (s.shared cfg r).clientSetByRound.keys.Nodup :=
        (OrdMap.keys_sorted _).imp (fun h => h.ne)
      obtain ⟨combined, clients, agg, shares, hceq, -, -, hmark, hheld, -⟩ :=
        phaseC_eq cfg _ hnodup (s.shared cfg r)
      rw [← hc] at hceq hmark hheld
      rw [hceq]
      obtain ⟨h1, h2, -⟩ := hheld t
      refine ⟨h1.trans ?_, h2.trans ?_, (hmark t).trans ?_⟩
      · rw [hb]
      · rw [hb]
      · rw [hb]
    · rw [if_neg hl] at hc
      rw [hc, hb]
      exact ⟨rfl, rfl, (Bool.or_false _).symm⟩

/-- The shares filed after phase B are the old ones and the relay's own. -/
theorem shared_filed {cfg : AdcnetServerConfig C} {s : AdcnetServerSession C} {r : Round}
    {t sid : U32} {share : ServerShare} (h : (s.shared cfg r).Filed t sid share) :
    s.Filed t sid share ∨ (sid = cfg.serverId ∧
      ∃ e ∈ (phaseB cfg (s.phaseA cfg r.toU32) (s.phaseA cfg r.toU32).pendingShareRounds).2,
        e.round = t ∧ ∃ signer, C.recoverShare e.signed = some (share, signer)) := by
  obtain ⟨sets, announced, ha, -, -⟩ := announceAll_eq (s.announcements cfg r.toU32) s
  rcases phaseB_filed h with ⟨pool, hpool, hget⟩ | hown
  · rw [phaseA, ha] at hpool
    exact Or.inl ⟨pool, hpool, hget⟩
  · exact Or.inr hown

/-- The shares filed at the end of a round are the old ones and the relay's own. -/
theorem endRound_filed {cfg : AdcnetServerConfig C} {s : AdcnetServerSession C} {r : Round}
    {t sid : U32} {share : ServerShare} (h : (s.endRound cfg r).session.Filed t sid share) :
    s.Filed t sid share ∨ (sid = cfg.serverId ∧ ∃ e ∈ (s.endRound cfg r).shares, e.round = t ∧
      ∃ signer, C.recoverShare e.signed = some (share, signer)) := by
  rcases endRound_cases cfg s r with heq | ⟨c, hc, heq⟩
  · rw [heq] at h
    exact Or.inl h
  · rw [heq] at h ⊢
    by_cases hl : cfg.isLeader = true
    · rw [if_pos hl] at hc
      have hnodup : (s.shared cfg r).clientSetByRound.keys.Nodup :=
        (OrdMap.keys_sorted _).imp (fun h => h.ne)
      obtain ⟨combined, clients, agg, shares, hceq, -, -, -, hheld, -⟩ :=
        phaseC_eq cfg _ hnodup (s.shared cfg r)
      rw [← hc] at hceq hheld
      obtain ⟨pool, hpool, hget⟩ := h
      rw [hceq] at hpool
      have hpool : shares.get? t = some pool := hpool
      rw [(hheld t).2.2] at hpool
      split at hpool
      · cases hpool
      · exact shared_filed ⟨pool, hpool, hget⟩
    · rw [if_neg hl] at hc
      rw [hc] at h
      exact shared_filed h

/-- Every call of `combine_round` is the one the session after phase B gives. -/
theorem mem_calls {cfg : AdcnetServerConfig C} {s : AdcnetServerSession C} {r : Round}
    {call : CombineCall} (h : call ∈ (s.endRound cfg r).calls) :
    (s.endRound cfg r).announced = s.announcements cfg r.toU32 ∧
      (s.endRound cfg r).shares =
        (phaseB cfg (s.phaseA cfg r.toU32) (s.phaseA cfg r.toU32).pendingShareRounds).2 ∧
      ∃ t, (s.shared cfg r).combineCall cfg t = some call := by
  rcases endRound_cases cfg s r with heq | ⟨c, hc, heq⟩
  · rw [heq] at h
    cases h
  · rw [heq] at h ⊢
    refine ⟨rfl, rfl, ?_⟩
    by_cases hl : cfg.isLeader = true
    · rw [if_pos hl] at hc
      have hnodup : (s.shared cfg r).clientSetByRound.keys.Nodup :=
        (OrdMap.keys_sorted _).imp (fun h => h.ne)
      obtain ⟨-, -, -, -, -, -, -, -, -, hcalls⟩ := phaseC_eq cfg _ hnodup (s.shared cfg r)
      rw [← hc] at hcalls
      obtain ⟨t, -, ht⟩ := hcalls call h
      exact ⟨t, ht⟩
    · rw [if_neg hl] at hc
      rw [hc] at h
      cases h

/-- The end of a round leaves the keys, the secrets, the current round and the rounds
queued, and surfaces everything that waits. -/
theorem endRound_keeps (cfg : AdcnetServerConfig C) (s : AdcnetServerSession C) (r : Round) :
    (s.endRound cfg r).session.curRound = s.curRound ∧
      (s.endRound cfg r).session.clientKeys = s.clientKeys ∧
      (s.endRound cfg r).session.sharedSecrets = s.sharedSecrets ∧
      (s.endRound cfg r).session.pendingDecoded = [] ∧
      (s.endRound cfg r).decoded = s.pendingDecoded ∧
      (s.endRound cfg r).session.routedRounds = s.routedRounds := by
  obtain ⟨sets, announced, pool, marks, hb⟩ := shared_eq cfg s r
  rcases endRound_cases cfg s r with heq | ⟨c, hc, heq⟩
  · rw [heq]
    exact ⟨rfl, rfl, rfl, rfl, rfl, rfl⟩
  · rw [heq]
    dsimp only
    by_cases hl : cfg.isLeader = true
    · rw [if_pos hl] at hc
      have hnodup : (s.shared cfg r).clientSetByRound.keys.Nodup :=
        (OrdMap.keys_sorted _).imp (fun h => h.ne)
      obtain ⟨combined, clients, agg, shares, hceq, -, -, -, -, -⟩ :=
        phaseC_eq cfg _ hnodup (s.shared cfg r)
      rw [← hc] at hceq
      rw [hceq, hb]
      exact ⟨rfl, rfl, rfl, rfl, rfl, rfl⟩
    · rw [if_neg hl] at hc
      rw [hc, hb]
      exact ⟨rfl, rfl, rfl, rfl, rfl, rfl⟩

end AdcnetServerSession
end Anymone
