import Anymone.AdcnetWire
import Anymone.AdcnetScheduledClient
import Anymone.PanetiereSession
import Anymone.Trace
import Mathlib.Data.List.Chain

/-! # A scheduled ADCNet relay

`ScheduledAdcnetServerSession`: the leader collects the submissions of a round and signs the set of
them; every relay checks the set for itself, feeds it to its service and answers with one partial
decryption; the leader combines the partials and signs the result, which every relay and every
`ScheduledAdcnetWatchSession` reads.

The `adcnet` crate is a parameter, and its `ServerService` a state that its calls change.  A signed
object is read before its signature is checked, as in the source.  The screen of accepted clients is
an argument of a call.
-/

namespace Anymone
namespace ScheduledAdcnet

/-! ## The wire -/

/-- `adcnet::crypto::Signed`: its object and its signature. -/
structure Signed (Sig α : Type) where
  object : α
  signature : Sig
  deriving DecidableEq

/-- `ClientRoundMessage`. -/
structure ClientRoundMessage (Word : Type) where
  roundNumber : Int
  allServerIds : List U32
  auctionVector : List Word
  messageVector : List Word
  deriving DecidableEq

/-- `RoundBroadcast`. -/
structure RoundBroadcast (Iblt Word : Type) where
  roundNumber : Int
  auctionVector : Iblt
  messageVector : List Word
  deriving DecidableEq

/-- `ScheduledClient`. -/
structure ScheduledClient (Sig Word : Type) where
  message : Signed Sig (ClientRoundMessage Word)
  key : Signed Sig KeyExchange
  deriving DecidableEq

/-- `ScheduledSet`. -/
structure ScheduledSet (Sig Word : Type) where
  round : Int
  clients : List (ScheduledClient Sig Word)
  deriving DecidableEq

/-- `ScheduledResult`. -/
structure ScheduledResult (Iblt Word : Type) where
  broadcast : RoundBroadcast Iblt Word
  completed : Bool
  deriving DecidableEq

/-- What the sessions use of the `adcnet` crate. -/
structure ServiceCrate where
  Sig : Type
  /-- A word of a vector. -/
  Word : Type
  /-- `IbltVector`. -/
  Iblt : Type
  /-- `ServerPartialDecryptionMessage`. -/
  Partial : Type
  ExchangePublicKey : Type
  PrivateKey : Type
  /-- A winner of an auction. -/
  Winner : Type
  /-- `ServerService`. -/
  Svc : Type
  /-- `Signed::recover`: the signer, when the signature is right. -/
  recoverMessage : Signed Sig (ClientRoundMessage Word) → Option PublicKey
  recoverKey : Signed Sig KeyExchange → Option PublicKey
  recoverSet : Signed Sig (ScheduledSet Sig Word) → Option PublicKey
  recoverResult : Signed Sig (ScheduledResult Iblt Word) → Option PublicKey
  /-- `Signed::new`. -/
  signSet : PrivateKey → ScheduledSet Sig Word → Signed Sig (ScheduledSet Sig Word)
  signResult : PrivateKey → ScheduledResult Iblt Word → Signed Sig (ScheduledResult Iblt Word)
  /-- `ExchangePublicKey::from_sec1_bytes`. -/
  fromSec1Bytes : Bytes → Option ExchangePublicKey
  /-- `IbltVector::new`. -/
  ibltNew : U32 → Iblt
  /-- `iblt_field_element_count` at the auction's bid width. -/
  ibltFieldElementCount : U32 → Nat
  /-- `process_previous_auction(..).total_allocated`, for so many slots and so long a message. -/
  totalAllocated : U32 → Nat → Iblt → Nat
  /-- `auction_iblt::decode_winners`. -/
  decodeWinners : Iblt → U32 → Nat → Option (List Winner)
  /-- `message_slots::read_slots`. -/
  readSlots : List Word → List Winner → List Bytes
  /-- `advance_to_round`. -/
  advanceToRound : Svc → Int → Svc
  /-- `register_client`, and whether it succeeds. -/
  registerClient : Svc → PublicKey → ExchangePublicKey → Svc × Bool
  deregisterClient : Svc → PublicKey → Svc
  processClientMessage : Svc → Signed Sig (ClientRoundMessage Word) → Svc × Bool
  /-- `finalize_partial_for_direct_aggregate`. -/
  finalizePartial : Svc → Svc × Option Partial
  /-- `CorruptShare`: a word of the partial is flipped. -/
  corrupt : Partial → Partial
  signPartial : Svc → Partial → Signed Sig Partial
  /-- `process_signed_partial_decryption_message`, when it succeeds with a result. -/
  processPartial : Svc → Signed Sig Partial → Svc × Option (RoundBroadcast Iblt Word)

variable {C : ServiceCrate}

abbrev ServiceCrate.Client (C : ServiceCrate) := ScheduledClient C.Sig C.Word

abbrev ServiceCrate.Broadcast (C : ServiceCrate) := RoundBroadcast C.Iblt C.Word

abbrev ServiceCrate.SignedSet (C : ServiceCrate) := Signed C.Sig (ScheduledSet C.Sig C.Word)

abbrev ServiceCrate.SignedResult (C : ServiceCrate) := Signed C.Sig (ScheduledResult C.Iblt C.Word)

/-- `ScheduledAdcnetWire`. -/
inductive Wire (C : ServiceCrate) where
  | client (client : C.Client)
  | clientSet (signed : C.SignedSet)
  | decryption (signed : Signed C.Sig C.Partial)
  | broadcast (signed : C.SignedResult)

/-! ## A relay -/

/-- What a `ScheduledAdcnetServerSession` is built with. -/
structure ServerConfig (C : ServiceCrate) where
  auctionSlots : U32
  messageLength : Nat
  minClients : Nat
  clientSetMax : Nat
  signingKey : C.PrivateKey
  /-- The public key of `signingKey`. -/
  identity : Pubkey
  leader : Pubkey
  /-- The sorted server ids. -/
  roster : List U32

/-- `ScheduledAdcnetServerSession`, its changing part. -/
structure ServerSession (C : ServiceCrate) where
  svc : C.Svc
  currentRound : Int
  clients : OrdMap Pubkey C.Client
  earlyClients : OrdMap Pubkey C.Client
  registeredClients : List PublicKey
  selected : Bool
  pendingBroadcast : Option C.Broadcast
  published : Bool
  previous : C.Broadcast
  misbehavior : Option Misbehavior

/-- A partial as it is made: the round, the clients it is over and what is sent. -/
structure Disclosure (C : ServiceCrate) where
  round : Int
  clients : List C.Client
  signed : Signed C.Sig C.Partial

/-- What a relay sends. -/
inductive Sent (C : ServiceCrate) where
  | clientSet (signed : C.SignedSet)
  | decryption (disclosure : Disclosure C)
  | broadcast (signed : C.SignedResult)

/-- What is sent, as it goes out. -/
def Sent.wire : Sent C → Wire C
  | clientSet signed => .clientSet signed
  | decryption disclosure => .decryption disclosure.signed
  | broadcast signed => .broadcast signed

namespace ServerSession
variable (cfg : ServerConfig C) (s : ServerSession C)

/-- `empty_scheduled_broadcast`. -/
def emptyBroadcast (round : Int) : C.Broadcast := ⟨round, C.ibltNew cfg.auctionSlots, []⟩

/-- `ScheduledAdcnetServerSession::new`, over a service that knows the peers. -/
def new (svc : C.Svc) (startingRound : Int) : ServerSession C :=
  ⟨C.advanceToRound svc startingRound, startingRound, .empty, .empty, [], false, none, false,
    emptyBroadcast cfg (startingRound - 1), none⟩

/-- `is_leader`. -/
def isLeader : Bool := decide (cfg.identity = cfg.leader)

/-- `valid_client`: the key of a submission, and its exchange key. -/
def validClient (good : Pubkey → Bool) (client : C.Client) (round : Int) :
    Option (Pubkey × C.ExchangePublicKey) :=
  match C.recoverMessage client.message, C.recoverKey client.key with
  | some signer, some keySigner =>
      match pubkeyOf signer with
      | none => none
      | some pk =>
          let message := client.message.object
          if signer ≠ keySigner ∨ good pk = false ∨ message.roundNumber ≠ round ∨
              message.allServerIds ≠ cfg.roster ∨
              message.auctionVector.length ≠ C.ibltFieldElementCount cfg.auctionSlots ∨
              message.messageVector.length ≠
                C.totalAllocated cfg.auctionSlots cfg.messageLength s.previous.auctionVector then
            none
          else (C.fromSec1Bytes client.key.object.xpub).map (fun xpub => (pk, xpub))
  | _, _ => none

/-- `broadcast_result`. -/
def broadcastResult : ServerSession C × List (Sent C) :=
  if !isLeader cfg || s.published then (s, [])
  else
    let broadcast := s.pendingBroadcast.getD (emptyBroadcast cfg s.currentRound)
    ({ s with published := true, pendingBroadcast := none, previous := broadcast },
      [.broadcast (C.signResult cfg.signingKey ⟨broadcast, s.pendingBroadcast.isSome⟩)])

/-- `begin_round`. -/
def beginRound (round : Round) (good : Pubkey → Bool) : ServerSession C :=
  let current := round.toI64 + 1
  let previous :=
    if s.previous.roundNumber ≠ current - 1 then emptyBroadcast cfg (current - 1) else s.previous
  let cleared : ServerSession C :=
    { s with
      svc := s.registeredClients.foldl C.deregisterClient (C.advanceToRound s.svc current)
      currentRound := current
      clients := .empty
      earlyClients := .empty
      registeredClients := []
      selected := false
      pendingBroadcast := none
      published := false
      previous := previous }
  { cleared with
    clients := s.earlyClients.retain (fun _ client =>
      (cleared.validClient cfg good client current).isSome) }

/-- `on_inbound` of a `Client`, at the leader. -/
def onClient (good : Pubkey → Bool) (client : C.Client) : ServerSession C :=
  let round := client.message.object.roundNumber
  if round = s.currentRound + 1 ∧ s.published = true then
    if s.earlyClients.size < cfg.clientSetMax then
      match s.validClient cfg good client round with
      | none => s
      | some (pk, _) => { s with earlyClients := s.earlyClients.orInsert pk client }
    else s
  else if round = s.currentRound ∧ s.selected = false ∧ s.clients.size < cfg.clientSetMax then
    match s.validClient cfg good client round with
    | none => s
    | some (pk, _) => { s with clients := s.clients.orInsert pk client }
  else s

/-- The keys of a set that passes its checks. -/
def openSet (good : Pubkey → Bool) (signed : C.SignedSet) :
    Option (List (Pubkey × C.ExchangePublicKey)) :=
  match C.recoverSet signed with
  | none => none
  | some signer =>
      let set := signed.object
      if signer ≠ cfg.leader.val ∨ set.round ≠ s.currentRound ∨
          cfg.clientSetMax < set.clients.length ∨
          set.clients ≠ [] ∧ set.clients.length < cfg.minClients then none
      else
        match set.clients.mapM (fun client => s.validClient cfg good client s.currentRound) with
        | none => none
        | some keys => if (keys.map Prod.fst).IsChain (· < ·) then some keys else none

/-- The clients of a set go to the service; `false` when one is refused. -/
def registerAll (s : ServerSession C) :
    List (C.Client × Pubkey × C.ExchangePublicKey) → ServerSession C × Bool
  | [] => (s, true)
  | (client, pk, xpub) :: rest =>
      match C.registerClient s.svc pk.val xpub with
      | (svc, false) => ({ s with svc := svc }, false)
      | (svc, true) =>
          match C.processClientMessage svc client.message with
          | (svc, false) =>
              ({ s with svc := svc, registeredClients := s.registeredClients ++ [pk.val] }, false)
          | (svc, true) =>
              registerAll
                { s with svc := svc, registeredClients := s.registeredClients ++ [pk.val] } rest

/-- The partial that a relay signs, once the clients of the set are registered. -/
def disclose (round : Int) (clients : List C.Client) : ServerSession C × List (Disclosure C) :=
  if s.misbehavior = some .withhold then (s, [])
  else
    match C.finalizePartial s.svc with
    | (svc, none) => ({ s with svc := svc }, [])
    | (svc, some share) =>
        let signed := C.signPartial svc
          (if s.misbehavior = some .corruptShare then C.corrupt share else share)
        let s' : ServerSession C :=
          if isLeader cfg then
            match C.processPartial svc signed with
            | (svc, none) => { s with svc := svc }
            | (svc, some broadcast) =>
                { s with svc := svc, pendingBroadcast := some broadcast }
          else { s with svc := svc }
        (s', [⟨round, clients, signed⟩])

/-- `on_inbound` of a `ClientSet`. -/
def onClientSet (good : Pubkey → Bool) (signed : C.SignedSet) :
    ServerSession C × List (Disclosure C) :=
  if s.selected then (s, [])
  else
    match s.openSet cfg good signed with
    | none => (s, [])
    | some keys =>
        match registerAll { s with selected := true } (signed.object.clients.zip keys) with
        | (s', false) => (s', [])
        | (s', true) => s'.disclose cfg s.currentRound signed.object.clients

/-- `on_inbound` of a `Partial`, at the leader. -/
def onPartial (signed : Signed C.Sig C.Partial) : ServerSession C × List (Sent C) :=
  match C.processPartial s.svc signed with
  | (svc, none) => ({ s with svc := svc }, [])
  | (svc, some broadcast) =>
      broadcastResult cfg { s with svc := svc, pendingBroadcast := some broadcast }

/-- `on_inbound` of a `Broadcast`. -/
def onBroadcast (signed : C.SignedResult) : ServerSession C :=
  if C.recoverResult signed = some cfg.leader.val ∧
      s.previous.roundNumber ≤ signed.object.broadcast.roundNumber ∧
      signed.object.broadcast.roundNumber ≤ s.currentRound then
    { s with previous := signed.object.broadcast }
  else s

/-- `on_inbound`; `none` is a payload that does not decode. -/
def onInbound (good : Pubkey → Bool) (msg : Option (Wire C)) : ServerSession C × List (Sent C) :=
  match msg with
  | none => (s, [])
  | some (.client client) => (if isLeader cfg then s.onClient cfg good client else s, [])
  | some (.clientSet signed) =>
      let r := s.onClientSet cfg good signed
      (r.1, r.2.map .decryption)
  | some (.decryption signed) => if isLeader cfg then s.onPartial cfg signed else (s, [])
  | some (.broadcast signed) => (s.onBroadcast cfg signed, [])

/-- The set the leader signs. -/
def ownSet : ScheduledSet C.Sig C.Word :=
  ⟨s.currentRound, if cfg.minClients ≤ s.clients.size then s.clients.values else []⟩

/-- `checkpoint`. -/
def checkpoint (k : Nat) (good : Pubkey → Bool) : ServerSession C × List (Sent C) :=
  if k ≠ 1 ∨ isLeader cfg = false ∨ s.selected = true then (s, [])
  else
    let signed := C.signSet cfg.signingKey (s.ownSet cfg)
    let emptied : ServerSession C :=
      if cfg.minClients ≤ s.clients.size then { s with clients := .empty } else s
    let r := emptied.onClientSet cfg good signed
    let b := if r.1.pendingBroadcast.isSome then broadcastResult cfg r.1 else (r.1, [])
    (b.1, .clientSet signed :: (r.2.map .decryption ++ b.2))

/-! ## Runs of a relay -/

end ServerSession

/-- A call of a relay. -/
inductive ServerOp (C : ServiceCrate) where
  | begin (round : Round) (good : Pubkey → Bool)
  | inbound (good : Pubkey → Bool) (msg : Option (Wire C))
  | checkpoint (k : Nat) (good : Pubkey → Bool)
  /-- `end_round`. -/
  | finish
  | setMisbehavior (mode : Option Misbehavior)

namespace ServerSession
variable (cfg : ServerConfig C) (s : ServerSession C)

/-- One call: the session after it, and what it sends. -/
def call : ServerOp C → ServerSession C × List (Sent C)
  | .begin round good => (s.beginRound cfg round good, [])
  | .inbound good msg => s.onInbound cfg good msg
  | .checkpoint k good => s.checkpoint cfg k good
  | .finish => s.broadcastResult cfg
  | .setMisbehavior mode => ({ s with misbehavior := mode }, [])

/-- The session after the calls. -/
def after (svc : C.Svc) (ops : List (ServerOp C)) : ServerSession C :=
  Trace.run (new cfg svc 1) (fun s op => (call cfg s op).1) ops

/-- What the calls send. -/
def sent (svc : C.Svc) (ops : List (ServerOp C)) : List (Sent C) :=
  Trace.observed (new cfg svc 1) (fun s op => (call cfg s op).1) (fun s op => (call cfg s op).2) ops

end ServerSession

/-- The partial a relay has sent. -/
def Sent.disclosure? : Sent C → Option (Disclosure C)
  | decryption d => some d
  | _ => none

/-- The set a relay has signed. -/
def Sent.set? : Sent C → Option C.SignedSet
  | clientSet signed => some signed
  | _ => none

/-- The result a relay has signed. -/
def Sent.result? : Sent C → Option C.SignedResult
  | broadcast signed => some signed
  | _ => none

/-! ## A reader -/

/-- `ScheduledAdcnetWatchSession`, its changing part. -/
structure WatchSession (C : ServiceCrate) where
  previous : Option C.Broadcast
  decoded : List Bytes

namespace WatchSession
variable (cfg : ServerConfig C) (w : WatchSession C)

/-- `ScheduledAdcnetWatchSession::new`. -/
def new : WatchSession C := ⟨none, []⟩

/-- `extract_payloads`. -/
def extractPayloads (broadcast : C.Broadcast) (auction : C.Iblt) : List Bytes :=
  match C.decodeWinners auction cfg.auctionSlots cfg.messageLength with
  | none => []
  | some winners =>
      if winners.isEmpty || broadcast.messageVector.isEmpty then []
      else C.readSlots broadcast.messageVector winners

/-- A result that is read: of the leader, and newer than the last. -/
def accepts (signed : C.SignedResult) : Bool :=
  decide (C.recoverResult signed = some cfg.leader.val) &&
    decide (1 ≤ signed.object.broadcast.roundNumber) &&
    w.previous.all (fun p => decide (p.roundNumber < signed.object.broadcast.roundNumber))

/-- The payloads of a result that is read. -/
def payloads (signed : C.SignedResult) : List Bytes :=
  match w.previous with
  | none => []
  | some previous =>
      if signed.object.completed &&
          decide (previous.roundNumber + 1 = signed.object.broadcast.roundNumber) then
        extractPayloads cfg signed.object.broadcast previous.auctionVector
      else []

/-- `on_inbound`. -/
def onInbound (msg : Option (Wire C)) : WatchSession C :=
  match msg with
  | some (.broadcast signed) =>
      if w.accepts cfg signed then
        ⟨some signed.object.broadcast, w.decoded ++ w.payloads cfg signed⟩
      else w
  | _ => w

/-- `end_round`: what was decoded goes out. -/
def endRound : WatchSession C × List Bytes := ({ w with decoded := [] }, w.decoded)

end WatchSession

end ScheduledAdcnet
end Anymone
