import Anymone.AdcnetWire
import Anymone.Trace

/-! # An ADCNet group aggregator

`AdcnetAggregatorSession`: sums the contributions of the clients of its group and sends
the leader one signed `GroupAggregate` for a round, with the members' signed keys.

What it sends is the sum of one contribution of each member, all for the round it names
and all of clients of the group (`emits_members`).
-/

namespace Anymone
open Adcnet
variable {C : AdcnetCrate}

/-- What an `AdcnetAggregatorSession` is built with. -/
structure AdcnetAggregatorConfig where
  group : U32
  groupCount : U32
  identity : Pubkey
  clientSetMax : Nat

/-- `AdcnetAggregatorSession`, its changing part. -/
structure AdcnetAggregatorSession (C : AdcnetCrate) where
  rounds : OrdMap U32 (OrdMap PublicKey (List U64 × C.SignedKey))
  emitted : OrdSet U32
  curRound : U32

/-- A call of the session. -/
inductive AdcnetAggregatorOp (C : AdcnetCrate) where
  | beginRound (round : Round)
  | inbound (msg : Option (AdcnetWire C)) (good : Pubkey → Bool)
  | checkpoint (round : Round) (k : U8)

namespace AdcnetAggregatorSession
variable (cfg : AdcnetAggregatorConfig) (s : AdcnetAggregatorSession C)

/-- `AdcnetAggregatorSession::new`. -/
def new : AdcnetAggregatorSession C := ⟨.empty, .empty, 0⟩

/-- `begin_round`. -/
def beginRound (round : Round) : AdcnetAggregatorSession C :=
  let keep := round.toU32.saturatingSub roundWindow
  { rounds := s.rounds.retain (fun r _ => keep ≤ r)
    emitted := s.emitted.retain (fun r _ => keep ≤ r)
    curRound := round.toU32 }

/-- The members heard from in a round. -/
def bucket (round : U32) : OrdMap PublicKey (List U64 × C.SignedKey) :=
  (s.rounds.get? round).getD .empty

/-- `on_inbound`: the last contribution of a client of the group counts. -/
def onInbound (msg : Option (AdcnetWire C)) (good : Pubkey → Bool) : AdcnetAggregatorSession C :=
  match msg with
  | some (.client contribution key) =>
      match C.recoverContribution contribution, C.recoverKey key with
      | some (c, signer), some (_, keySigner) =>
          if clientGroup signer cfg.groupCount ≠ cfg.group.val then s
          else if keySigner ≠ signer then s
          else if !(pubkeyOf signer).any good then s
          else if tooOld c.round s.curRound || tooFar c.round s.curRound then s
          else
            let bucket := s.bucket c.round
            -- `entry` leaves an empty bucket behind where the contribution is refused.
            if !bucket.contains signer && decide (cfg.clientSetMax ≤ bucket.size) then
              { s with rounds := s.rounds.insert c.round bucket }
            else
              { s with
                rounds := s.rounds.insert c.round (bucket.insert signer (c.blinded, key)) }
      | _, _ => s
  | _ => s

/-- The `GroupAggregate` of a round's members. -/
def aggregateOf (round : U32) (members : OrdMap PublicKey (List U64 × C.SignedKey)) :
    AdcnetWire C :=
  let blinded := C.aggregateClients (members.values.map Prod.fst)
  let clients := members.values.map Prod.snd
  .groupAggregate round cfg.group blinded clients cfg.identity
    (C.sign cfg.identity (groupAggregateSigningBytes C round cfg.group blinded clients))

/-- `checkpoint`: the group's batch goes out at `k = 1`, once for a round. -/
def checkpoint (round : Round) (k : U8) : AdcnetAggregatorSession C × List (AdcnetWire C) :=
  if k ≠ 1 then (s, [])
  else if s.emitted.contains round.toU32 then (s, [])
  else
    match s.rounds.get? round.toU32 with
    | none => (s, [])
    | some members =>
        if members.size = 0 then (s, [])
        else ({ s with emitted := s.emitted.add round.toU32 },
          [aggregateOf cfg round.toU32 members])

/-- One call. -/
def apply : AdcnetAggregatorOp C → AdcnetAggregatorSession C
  | .beginRound round => s.beginRound round
  | .inbound msg good => s.onInbound cfg msg good
  | .checkpoint round k => (s.checkpoint cfg round k).1

/-- What one call sends. -/
def sent : AdcnetAggregatorOp C → List (AdcnetWire C)
  | .checkpoint round k => (s.checkpoint cfg round k).2
  | _ => []

/-- The session after the calls. -/
def after (ops : List (AdcnetAggregatorOp C)) : AdcnetAggregatorSession C :=
  Trace.run new (apply cfg) ops

/-- Everything the calls send. -/
def outbound (ops : List (AdcnetAggregatorOp C)) : List (AdcnetWire C) :=
  Trace.observed new (apply cfg) (sent cfg) ops

/-! ## What it sums -/

/-- A client's vector for a round, of one of the contributions that came. -/
def Contributed (came : List C.SignedContribution) (round : U32) (member : PublicKey × List U64) :
    Prop :=
  ∃ signed ∈ came, C.recoverContribution signed = some (⟨round, member.2⟩, member.1)

/-- The contributions that came. -/
def came (ops : List (AdcnetAggregatorOp C)) : List C.SignedContribution :=
  ops.filterMap (fun op => match op with
    | .inbound (some (.client contribution _)) _ => some contribution
    | _ => none)

/-- What is held of a member: the key it signed, its group and its contribution. -/
structure Held (came : List C.SignedContribution) (round : U32) (pk : PublicKey)
    (vector : List U64) (key : C.SignedKey) : Prop where
  key : (C.recoverKey key).map Prod.snd = some pk
  group : clientGroup pk cfg.groupCount = cfg.group.val
  contributed : Contributed came round (pk, vector)

/-- Every member heard from in a round is held properly. -/
def Sound (came : List C.SignedContribution) : Prop :=
  ∀ round members, s.rounds.get? round = some members → ∀ pk vector key,
    members.get? pk = some (vector, key) → Held cfg came round pk vector key

variable {cfg s}

theorem Contributed.mono {came came' : List C.SignedContribution} {round : U32}
    {member : PublicKey × List U64} (h : Contributed came round member)
    (hsub : ∀ c ∈ came, c ∈ came') : Contributed came' round member := by
  obtain ⟨signed, hmem, hr⟩ := h
  exact ⟨signed, hsub signed hmem, hr⟩

theorem Held.mono {came came' : List C.SignedContribution} {round : U32} {pk : PublicKey}
    {vector : List U64} {key : C.SignedKey} (h : Held cfg came round pk vector key)
    (hsub : ∀ c ∈ came, c ∈ came') : Held cfg came' round pk vector key :=
  ⟨h.key, h.group, h.contributed.mono hsub⟩

theorem Sound.bucket {came : List C.SignedContribution} (h : s.Sound cfg came) {round : U32}
    {pk : PublicKey} {vector : List U64} {key : C.SignedKey}
    (hget : (s.bucket round).get? pk = some (vector, key)) :
    Held cfg came round pk vector key := by
  rw [AdcnetAggregatorSession.bucket] at hget
  cases hr : s.rounds.get? round with
  | none =>
    rw [hr] at hget
    cases hget
  | some members =>
    rw [hr] at hget
    exact h round members hr pk vector key hget

/-- A message leaves the members sound: what is filed is the contribution that came. -/
theorem Sound.onInbound {came : List C.SignedContribution} {msg : Option (AdcnetWire C)}
    (good : Pubkey → Bool) (h : s.Sound cfg came)
    (hcame : ∀ contribution key, msg = some (.client contribution key) → contribution ∈ came) :
    (s.onInbound cfg msg good).Sound cfg came := by
  rw [AdcnetAggregatorSession.onInbound.eq_def]
  split
  · rename_i contribution key
    split
    · rename_i c signer ke keySigner hc hk
      -- the four guards of `on_inbound`; past them the contribution may be filed
      by_cases hgroup : clientGroup signer cfg.groupCount ≠ cfg.group.val
      · rw [if_pos hgroup]
        exact h
      rw [if_neg hgroup]
      by_cases hsigner : keySigner ≠ signer
      · rw [if_pos hsigner]
        exact h
      rw [if_neg hsigner]
      by_cases hgood : (!(pubkeyOf signer).any good) = true
      · rw [if_pos hgood]
        exact h
      rw [if_neg hgood]
      by_cases hround : (tooOld c.round s.curRound || tooFar c.round s.curRound) = true
      · rw [if_pos hround]
        exact h
      rw [if_neg hround]
      dsimp only
      have hkey : (C.recoverKey key).map Prod.snd = some signer := by
        rw [hk, not_not.mp hsigner]
        rfl
      -- what is filed is what came, under the key that signed it
      have hnew : Held cfg came c.round signer c.blinded key :=
        ⟨hkey, not_not.mp hgroup, contribution, hcame contribution key rfl, hc⟩
      split
      · intro round members hget pk vector key' hmem
        have hget : (s.rounds.insert c.round (s.bucket c.round)).get? round = some members := hget
        rw [OrdMap.get?_insert] at hget
        by_cases hr : round = c.round
        · rw [if_pos hr] at hget
          cases hget
          rw [hr]
          exact h.bucket hmem
        · rw [if_neg hr] at hget
          exact h round members hget pk vector key' hmem
      · intro round members hget pk vector key' hmem
        have hget : (s.rounds.insert c.round
          ((s.bucket c.round).insert signer (c.blinded, key))).get? round = some members := hget
        rw [OrdMap.get?_insert] at hget
        by_cases hr : round = c.round
        · rw [if_pos hr] at hget
          cases hget
          rw [OrdMap.get?_insert] at hmem
          by_cases hpk : pk = signer
          · rw [if_pos hpk] at hmem
            cases hmem
            rw [hr, hpk]
            exact hnew
          · rw [if_neg hpk] at hmem
            rw [hr]
            exact h.bucket hmem
        · rw [if_neg hr] at hget
          exact h round members hget pk vector key' hmem
    · exact h
  · exact h

theorem checkpoint_rounds (round : Round) (k : U8) :
    (s.checkpoint cfg round k).1.rounds = s.rounds := by
  rw [checkpoint]
  split
  · rfl
  · split
    · rfl
    · split
      · rfl
      · split <;> rfl

/-- What goes out is the aggregate of the members heard from in its round. -/
theorem mem_checkpoint {round : Round} {k : U8} {w : AdcnetWire C}
    (h : w ∈ (s.checkpoint cfg round k).2) :
    ∃ members, s.rounds.get? round.toU32 = some members ∧
      w = aggregateOf cfg round.toU32 members := by
  rw [checkpoint] at h
  split at h
  · cases h
  · split at h
    · cases h
    · split at h
      · cases h
      · rename_i members hget
        split at h
        · cases h
        · exact ⟨members, hget, List.mem_singleton.mp h⟩

theorem sound_after (ops : List (AdcnetAggregatorOp C)) :
    (after cfg ops).Sound cfg (came ops) := by
  induction ops using List.reverseRecOn with
  | nil => exact nofun
  | append_singleton ops op ih =>
    have hcame : came (ops ++ [op]) = came ops ++ came [op] := List.filterMap_append
    have hold : (after cfg ops).Sound cfg (came (ops ++ [op])) := by
      intro round members hget pk vector key hmem
      refine (ih round members hget pk vector key hmem).mono (fun c hc => ?_)
      rw [hcame]
      exact List.mem_append_left _ hc
    have hstep : after cfg (ops ++ [op]) = (after cfg ops).apply cfg op := Trace.run_concat ..
    rw [hstep]
    cases op with
    | beginRound round =>
      intro r members hget
      have hget : ((after cfg ops).rounds.retain
        (fun r _ => decide (round.toU32.saturatingSub roundWindow ≤ r))).get? r =
          some members := hget
      rw [OrdMap.get?_retain] at hget
      exact hold r members (Option.filter_eq_some_iff.mp hget).1
    | inbound msg good =>
      refine hold.onInbound good (fun contribution key hmsg => ?_)
      rw [hcame, hmsg]
      exact List.mem_append_right _ List.mem_cons_self
    | checkpoint round k =>
      intro r members hget
      rw [show ((after cfg ops).apply cfg (.checkpoint round k)).rounds = (after cfg ops).rounds
        from checkpoint_rounds round k] at hget
      exact hold r members hget

/-- **An aggregate is of its members.**  Everything sent is the aggregate of members whose
keys, groups and contributions for its round are what it says. -/
theorem emits_members {ops : List (AdcnetAggregatorOp C)} {w : AdcnetWire C}
    (h : w ∈ outbound cfg ops) : ∃ round members, w = aggregateOf cfg round members ∧
      ∀ pk vector key, members.get? pk = some (vector, key) →
        Held cfg (came ops) round pk vector key := by
  obtain ⟨⟨pre, op⟩, hσ, hw⟩ := List.mem_flatMap.mp h
  obtain ⟨rest, rfl⟩ := Trace.mem_steps.mp hσ
  cases op with
  | beginRound round => cases hw
  | inbound msg good => cases hw
  | checkpoint round k =>
    obtain ⟨members, hget, rfl⟩ := mem_checkpoint hw
    refine ⟨round.toU32, members, rfl, fun pk vector key hmem => ?_⟩
    refine (sound_after pre round.toU32 members hget pk vector key hmem).mono (fun c hc => ?_)
    rw [came, List.filterMap_append]
    exact List.mem_append_left _ hc

end AdcnetAggregatorSession
end Anymone
