import Anymone.AdcnetWire
import Anymone.PanetiereSession
import Anymone.Trace

/-! # An ADCNet relay

`AdcnetServerSession`: a relay derives a pad secret with every client of the set its
leader announces, shares once over that set and surfaces what the leader decoded.  The
leader collects contributions or group aggregates, announces the set of a round, and
combines the round once every relay's share is in.

Per-round state is kept for a window of rounds behind the current one.  The screen of
accepted clients is an argument of a call: what it admits changes as clients attest.
-/

namespace Anymone
variable {C : AdcnetCrate}

/-- What an `AdcnetServerSession` is built with. -/
structure AdcnetServerConfig (C : AdcnetCrate) where
  config : OneRoundConfig
  serverId : U32
  signingKey : C.PrivateKey
  exchange : C.ExchangeIdentity
  expectedServers : Nat
  /-- Sorted; a share's slot is its signer's index here. -/
  roster : List Pubkey
  minClients : Nat
  clientSetMax : Nat
  isLeader : Bool
  leaderPk : PeerId
  /-- `LeaderAggregation`: which key signs each group's aggregate. -/
  aggregation : Option (OrdMap U32 Pubkey)

/-- `AdcnetServerSession`, its changing part. -/
structure AdcnetServerSession (C : AdcnetCrate) where
  sharedSecrets : OrdMap PublicKey SharedKey
  clientKeys : OrdMap PublicKey C.SignedKey
  clientsByRound : OrdMap U32 (List (ClientContribution × PublicKey))
  clientSetByRound : OrdMap U32 (List PublicKey)
  sharesByRound : OrdMap U32 (OrdMap U32 ServerShare)
  announcedRounds : OrdSet U32
  sharedRounds : OrdSet U32
  combinedRounds : OrdSet U32
  pendingDecoded : List Bytes
  routedRounds : OrdSet U32
  curRound : U32
  misbehavior : Option Misbehavior
  /-- Round, group: the summed blinded vectors and the member signers. -/
  aggByRound : OrdMap U32 (OrdMap U32 (List U64 × List PublicKey))

/-- A share as it is made: the round, the secrets it is over and what is sent. -/
structure EmittedShare (C : AdcnetCrate) where
  round : U32
  secrets : OrdMap PublicKey SharedKey
  signed : C.SignedShare

/-- A call of `combine_round`: each contribution with the clients summed in it. -/
structure CombineCall where
  round : U32
  inputs : List (ClientContribution × List PublicKey)
  shares : List ServerShare

namespace AdcnetServerSession
open Adcnet
variable (cfg : AdcnetServerConfig C) (s : AdcnetServerSession C)

/-- `AdcnetServerSession::new`. -/
def new : AdcnetServerSession C :=
  ⟨.empty, .empty, .empty, .empty, .empty, .empty, .empty, .empty, [], .empty, 0, none, .empty⟩

/-- `server_id_of`. -/
def serverIdOf (signer : PublicKey) : Option U32 :=
  (cfg.roster.findIdx? (fun p => p.val == signer)).map (fun i => Fin.ofNat _ i)

/-- `prune_stale`. -/
def pruneStale : AdcnetServerSession C :=
  let keepFrom := s.curRound.saturatingSub roundWindow
  { s with
    clientsByRound := s.clientsByRound.retain (fun r _ => keepFrom ≤ r)
    clientSetByRound := s.clientSetByRound.retain (fun r _ => keepFrom ≤ r)
    sharesByRound := s.sharesByRound.retain (fun r _ => keepFrom ≤ r)
    announcedRounds := s.announcedRounds.retain (fun r _ => keepFrom ≤ r)
    sharedRounds := s.sharedRounds.retain (fun r _ => keepFrom ≤ r)
    combinedRounds := s.combinedRounds.retain (fun r _ => keepFrom ≤ r)
    routedRounds := s.routedRounds.retain (fun r _ => keepFrom ≤ r)
    aggByRound := s.aggByRound.retain (fun r _ => keepFrom ≤ r) }

/-- `cache_client_key`: the first key of a signer stays. -/
def cacheClientKey (signer : PublicKey) (ke : KeyExchange) (signed : C.SignedKey) :
    AdcnetServerSession C :=
  match C.fromSec1Bytes ke.xpub with
  | none => s
  | some xp =>
      { s with
        sharedSecrets := s.sharedSecrets.orInsert signer (C.ecdh cfg.exchange xp)
        clientKeys := s.clientKeys.orInsert signer signed }

/-- The loop that caches the keys of an announced set or a group: the session and the
signers recovered. -/
def cacheClients (clients : List C.SignedKey) : AdcnetServerSession C × List PublicKey :=
  clients.foldl (fun acc signed =>
    match C.recoverKey signed with
    | none => acc
    | some (ke, signer) => (acc.1.cacheClientKey cfg signer ke signed, acc.2 ++ [signer]))
    (s, [])

/-- The signed keys of the signers that are cached, each signer once, in key order. -/
def cachedKeys (signers : List PublicKey) : List C.SignedKey :=
  (sortDedup (signers.filter (fun k => s.clientKeys.contains k))).filterMap
    (fun k => s.clientKeys.get? k)

/-- `leader_set_for_round`. -/
def leaderSetForRound (round : U32) : List C.SignedKey :=
  s.cachedKeys (((s.clientsByRound.get? round).getD []).map Prod.snd)

/-- `leader_agg_set_for_round`. -/
def leaderAggSetForRound (round : U32) : Option (List C.SignedKey) :=
  (s.aggByRound.get? round).map (fun groups =>
    s.cachedKeys (groups.values.flatMap Prod.snd))

/-- The contributions `leader_combine` sums, each with the clients in it. -/
def combineInputs (target : U32) (set : List PublicKey) :
    Option (List (ClientContribution × List PublicKey)) :=
  if cfg.aggregation.isSome then
    (s.aggByRound.get? target).map (fun groups =>
      groups.values.map (fun g => (⟨target, g.1⟩, g.2)))
  else
    match s.clientsByRound.get? target with
    | none => none
    | some items =>
        let clients := set.filterMap (fun pk =>
          (items.find? (fun i => i.2 = pk)).map (fun i => (i.1, [pk])))
        if clients.length = set.length then some clients else none

/-- The call of `combine_round` that `leader_combine` makes for the round, if it gets
that far. -/
def combineCall (target : U32) : Option CombineCall :=
  if s.combinedRounds.contains target then none
  else
    match s.clientSetByRound.get? target with
    | none => none
    | some set =>
        if set.length < cfg.minClients then none
        else
          match s.sharesByRound.get? target with
          | none => none
          | some shares =>
              if shares.size < cfg.expectedServers then none
              else (s.combineInputs cfg target set).map (fun inputs =>
                ⟨target, inputs, shares.values⟩)

/-- `leader_combine`: the payloads, when there are any to announce. -/
def leaderCombine (target : U32) : AdcnetServerSession C × Option (List Bytes) :=
  match s.combineCall cfg target with
  | none => (s, none)
  | some call =>
      match C.combineRound cfg.config target (call.inputs.map Prod.fst) call.shares
        cfg.expectedServers with
      | none => (s, none)
      | some payloads =>
          ({ s with
              combinedRounds := s.combinedRounds.add target
              clientsByRound := s.clientsByRound.erase target
              aggByRound := s.aggByRound.erase target
              sharesByRound := s.sharesByRound.erase target }, some payloads)

/-! ## Inbound -/

/-- `on_inbound` of a `Client`, at the leader. -/
def onClient (good : Pubkey → Bool) (contribution : C.SignedContribution) (key : C.SignedKey) :
    AdcnetServerSession C :=
  match C.recoverContribution contribution, C.recoverKey key with
  | some (c, signer), some (ke, keySigner) =>
      if keySigner ≠ signer then s
      else if c.round < s.curRound || tooFar c.round s.curRound then s
      else if !(pubkeyOf signer).any good then s
      else
        let bucket := (s.clientsByRound.get? c.round).getD []
        -- `entry` leaves an empty bucket behind where the contribution is refused.
        let opened := { s with clientsByRound := s.clientsByRound.insert c.round bucket }
        if bucket.any (fun i => i.2 = signer) then opened
        else if cfg.clientSetMax ≤ bucket.length then opened
        else
          { opened.cacheClientKey cfg signer ke key with
            clientsByRound := s.clientsByRound.insert c.round (bucket ++ [(c, signer)]) }
  | _, _ => s

/-- `on_inbound` of a `Server`, at the leader. -/
def onShare (signed : C.SignedShare) : AdcnetServerSession C :=
  match C.recoverShare signed with
  | none => s
  | some (share, signer) =>
      if tooOld share.round s.curRound || tooFar share.round s.curRound then s
      else
        match serverIdOf cfg signer with
        | none => s
        | some sid =>
            let held := (s.sharesByRound.get? share.round).getD .empty
            { s with
              sharesByRound := s.sharesByRound.insert share.round
                (held.insert sid { share with serverId := sid }) }

/-- A `ClientSet` that is taken, whether or not the round has a set already. -/
def takesSet (sender : PeerId) (round : U32) (clients : List C.SignedKey) : Bool :=
  !(tooOld round s.curRound || tooFar round s.curRound) && decide (sender = cfg.leaderPk) &&
    decide (clients.length ≤ cfg.clientSetMax)

/-- `on_inbound` of a `ClientSet`. -/
def onClientSet (sender : PeerId) (round : U32) (clients : List C.SignedKey) :
    AdcnetServerSession C :=
  if s.takesSet cfg sender round clients then
    let cached := s.cacheClients cfg clients
    { cached.1 with
      clientSetByRound := cached.1.clientSetByRound.orInsert round cached.2 }
  else s

/-- A `Decoded` whose payloads are queued. -/
def routes (sender : PeerId) (round : U32) : Bool :=
  decide (sender = cfg.leaderPk) && decide (round ≤ s.curRound.saturatingAdd roundWindow) &&
    !s.routedRounds.contains round

/-- `on_inbound` of a `Decoded`. -/
def onDecoded (sender : PeerId) (round : U32) (payloads : List Bytes) :
    AdcnetServerSession C :=
  if s.routes cfg sender round then
    { s with
      routedRounds := s.routedRounds.add round
      pendingDecoded := s.pendingDecoded ++ payloads }
  else s

/-- A `GroupAggregate` that passes its checks. -/
def takesGroup (round group : U32) (blinded : List U64) (clients : List C.SignedKey)
    (signer : Pubkey) (signature : Bytes) : Bool :=
  cfg.aggregation.any (fun roster => (roster.get? group).any (fun key =>
    decide (key = signer) &&
      decide (clients.length ≤ max (cfg.clientSetMax / max roster.size 1) 1) &&
      C.verify signer (groupAggregateSigningBytes C round group blinded clients) signature &&
      !tooOld round s.curRound && !tooFar round s.curRound))

/-- `on_inbound` of a `GroupAggregate`. -/
def onGroupAggregate (round group : U32) (blinded : List U64) (clients : List C.SignedKey)
    (signer : Pubkey) (signature : Bytes) : AdcnetServerSession C :=
  if s.takesGroup cfg round group blinded clients signer signature then
    let cached := s.cacheClients cfg clients
    let groups := (cached.1.aggByRound.get? round).getD .empty
    { cached.1 with
      aggByRound := cached.1.aggByRound.insert round (groups.orInsert group (blinded, cached.2)) }
  else s

/-- `on_inbound`; `none` is a payload that does not decode. -/
def onInbound (sender : PeerId) (msg : Option (AdcnetWire C)) (good : Pubkey → Bool) :
    AdcnetServerSession C :=
  match msg with
  | none => s
  | some (.client contribution key) =>
      if cfg.isLeader then s.onClient cfg good contribution key else s
  | some (.server signed) => if cfg.isLeader then s.onShare cfg signed else s
  | some (.clientSet round clients) => s.onClientSet cfg sender round clients
  | some (.decoded round payloads) => s.onDecoded cfg sender round payloads
  | some (.groupAggregate round group blinded clients signer signature) =>
      s.onGroupAggregate cfg round group blinded clients signer signature

/-! ## The end of a round -/

/-- The signers of announced keys. -/
def signersOf (keys : List C.SignedKey) : List PublicKey :=
  keys.filterMap (fun k => (C.recoverKey k).map Prod.snd)

/-- A set is announced: it is the round's set unless there is one already. -/
def announce (round : U32) (keys : List C.SignedKey) : AdcnetServerSession C :=
  { s with
    clientSetByRound := s.clientSetByRound.orInsert round (signersOf keys)
    announcedRounds := s.announcedRounds.add round }

/-- The sets phase A announces. -/
def announcements (cur : U32) : List (U32 × List C.SignedKey) :=
  if !cfg.isLeader then []
  else if cfg.aggregation.isSome then
    (s.aggByRound.keys.filter (fun r => !s.announcedRounds.contains r)).filterMap (fun r =>
      match s.leaderAggSetForRound r with
      | none => none
      | some keys => if keys.isEmpty then none else some (r, keys))
  else if s.announcedRounds.contains cur then []
  else if (s.leaderSetForRound cur).isEmpty then [] else [(cur, s.leaderSetForRound cur)]

/-- Phase A. -/
def phaseA (cur : U32) : AdcnetServerSession C :=
  (s.announcements cfg cur).foldl (fun s a => s.announce a.1 a.2) s

/-- The secrets held for the clients of a set. -/
def secretsFor (set : List PublicKey) : OrdMap PublicKey SharedKey :=
  set.foldl (fun m pk => match s.sharedSecrets.get? pk with
    | some secret => m.insert pk secret
    | none => m) .empty

/-- `CorruptShare`: a byte of the first secret is flipped. -/
def corrupt (secrets : OrdMap PublicKey SharedKey) : OrdMap PublicKey SharedKey :=
  match secrets.entries with
  | [] => secrets
  | (pk, secret) :: _ => secrets.insert pk (match secret with
      | [] => []
      | b :: rest => Fin.ofNat 256 (b.val ^^^ 255) :: rest)

/-- The share phase B makes for a round. -/
def makeShare (t : U32) : Option (EmittedShare C) :=
  let set := (s.clientSetByRound.get? t).getD []
  let secrets := s.secretsFor set
  if secrets.size ≠ set.length || secrets.size = 0 then none
  else
    let used := if s.misbehavior = some .corruptShare then corrupt secrets else secrets
    (C.serverContribute cfg.config t cfg.serverId cfg.signingKey used).map
      (fun signed => ⟨t, used, signed⟩)

/-- A share is recorded: the leader's own goes with the others. -/
def recordShare (e : EmittedShare C) : AdcnetServerSession C :=
  let own := if cfg.isLeader then (C.recoverShare e.signed).map Prod.fst else none
  { s with
    sharesByRound := match own with
      | none => s.sharesByRound
      | some share => s.sharesByRound.insert e.round
          (((s.sharesByRound.get? e.round).getD .empty).insert cfg.serverId share)
    sharedRounds := s.sharedRounds.add e.round }

/-- Phase B over the rounds still to be shared in. -/
def phaseB : AdcnetServerSession C → List U32 → AdcnetServerSession C × List (EmittedShare C)
  | s, [] => (s, [])
  | s, t :: ts =>
      match s.makeShare cfg t with
      | none => phaseB s ts
      | some e =>
          let rest := phaseB (s.recordShare cfg e) ts
          (rest.1, e :: rest.2)

/-- `pending_share_rounds`. -/
def pendingShareRounds : List U32 :=
  s.clientSetByRound.keys.filter (fun r => !s.sharedRounds.contains r)

/-- Phase C over the rounds with a set: what is decoded, and the calls of
`combine_round` made on the way. -/
def phaseC : AdcnetServerSession C → List U32 →
    AdcnetServerSession C × List (U32 × List Bytes) × List CombineCall
  | s, [] => (s, [], [])
  | s, t :: ts =>
      let combined := s.leaderCombine cfg t
      let rest := phaseC combined.1 ts
      (rest.1, (combined.2.map (fun payloads => (t, payloads))).toList ++ rest.2.1,
        (s.combineCall cfg t).toList ++ rest.2.2)

/-- What `end_round` leaves and puts out. -/
structure EndRound (C : AdcnetCrate) where
  session : AdcnetServerSession C
  announced : List (U32 × List C.SignedKey)
  shares : List (EmittedShare C)
  combined : List (U32 × List Bytes)
  calls : List CombineCall
  decoded : List Bytes

/-- `RoundOutcome::outbound`. -/
def EndRound.outbound (e : EndRound C) : List (AdcnetWire C) :=
  e.announced.map (fun a => .clientSet a.1 a.2) ++ e.shares.map (fun e => .server e.signed) ++
    e.combined.map (fun d => .decoded d.1 d.2)

/-- `end_round`. -/
def endRound (round : Round) : EndRound C :=
  if s.misbehavior = some .withhold then
    ⟨{ s with pendingDecoded := [] }, [], [], [], [], s.pendingDecoded⟩
  else
    let a := s.phaseA cfg round.toU32
    let b := phaseB cfg a a.pendingShareRounds
    let c := if cfg.isLeader then phaseC cfg b.1 b.1.clientSetByRound.keys else (b.1, [], [])
    ⟨{ c.1 with pendingDecoded := [] }, s.announcements cfg round.toU32, b.2, c.2.1, c.2.2,
      c.1.pendingDecoded⟩

/-- `begin_round`. -/
def beginRound (round : Round) : AdcnetServerSession C :=
  pruneStale { s with curRound := round.toU32 }

end AdcnetServerSession

/-! ## Runs -/

/-- A call of the session. -/
inductive AdcnetServerOp (C : AdcnetCrate) where
  | beginRound (round : Round)
  | inbound (sender : PeerId) (msg : Option (AdcnetWire C)) (good : Pubkey → Bool)
  | endRound (round : Round)
  | setMisbehavior (mode : Option Misbehavior)

namespace AdcnetServerSession
variable (cfg : AdcnetServerConfig C)

/-- One call. -/
def apply (s : AdcnetServerSession C) : AdcnetServerOp C → AdcnetServerSession C
  | .beginRound round => s.beginRound round
  | .inbound sender msg good => s.onInbound cfg sender msg good
  | .endRound round => (s.endRound cfg round).session
  | .setMisbehavior mode => { s with misbehavior := mode }

/-- The session after the calls. -/
def after (ops : List (AdcnetServerOp C)) : AdcnetServerSession C :=
  Trace.run new (apply cfg) ops

/-- What the calls' `end_round`s put out, by a projection of it. -/
def emitted {α : Type} (f : EndRound C → List α) (ops : List (AdcnetServerOp C)) : List α :=
  Trace.observed new (apply cfg) (fun s op => match op with
    | .endRound round => f (s.endRound cfg round)
    | _ => []) ops

end AdcnetServerSession
end Anymone
