import Anymone.AdcnetScheduledClient
import Anymone.RelayKeys
import Anymone.RemoteLink
import Anymone.WireEstimate

/-! # The clients a phone runs

A `RemoteAttestedSession` runs one client session of its subnet's protocol, built from the
configuration and the relays' keys (`build`).  `validateConfig` bounds the configuration first.
What is asked of the client is a `ProtocolAction`.

A call that does not return, as on one of the source's assertions, is `none`.
-/

/-- `i64`. -/
abbrev I64 := { z : Int // -9223372036854775808 ≤ z ∧ z < 9223372036854775808 }

/-- `u64::try_from(..)`, then `checked_sub(1)`. -/
def I64.prev? (z : I64) : Option U64 :=
  if 1 ≤ z.1 then some ⟨(z.1 - 1).toNat, by have := z.2; omega⟩ else none

namespace Anymone
namespace Remote

/-! ## Actions -/

/-- `PanetiereAction`. -/
inductive PanetiereAction where
  | prepareRound (round : Round)
  | finalizeRound (round : Round) (payload : Option Bytes)
  | acceptReceiptBatch (round : Round) (batch : Bytes)
  | buildRepair (round : Round)
  deriving DecidableEq

/-- `ScheduledPanetiereAction`.  A rate is the bits of an `f32`. -/
inductive ScheduledPanetiereAction where
  | setCoverRate (rate : U32)
  | advanceRound (round : Round)
  | reserveMessage (payload : Bytes)
  | prepareRound (round : Round)
  | finalizeRound (round : Round)
  | acceptReservations (message : Bytes)
  | acceptReceiptBatch (round : Round) (batch : Bytes)
  | buildRepair (round : Round)
  deriving DecidableEq

/-- `AdcnetAction`. -/
inductive AdcnetAction where
  | contribute (round : Round) (payload : Option Bytes)
  deriving DecidableEq

/-- `ScheduledAdcnetAction`. -/
inductive ScheduledAdcnetAction where
  | setCoverRate (rate : U32)
  | advanceToRound (round : I64)
  | scheduleMessageForNextRound (payload : Bytes) (bid : U32)
  | processRoundBroadcast (message : Bytes)
  | messagesForCurrentRound
  deriving DecidableEq

/-- `ProtocolAction`. -/
inductive ProtocolAction where
  | panetiere (action : PanetiereAction)
  | scheduledPanetiere (action : ScheduledPanetiereAction)
  | adcnet (action : AdcnetAction)
  | scheduledAdcnet (action : ScheduledAdcnetAction)
  deriving DecidableEq

/-! ## Crates -/

/-- What the phone's session takes from the crates it is built on. -/
structure RemoteCrate extends WireCrate where
  /-- `Identity::exchange_keys`. -/
  exchangeKeys : Identity → ExchangePublicKeyWire
  /-- `pke::PublicKey::from_bytes`. -/
  sealKeyFromBytes : Bytes → Option ServerKey
  /-- `sig::VerifyingKey::from_sec1_bytes`. -/
  setKeyFromSec1 : Bytes → Option VerifyingKey
  /-- `ChannelParams::prony_for_messages`. -/
  pronyForMessages : U32 → U64 → ChannelParams
  /-- `ChannelParams::for_messages`. -/
  forMessages : U32 → U64 → ByteArr 32 → ChannelParams
  /-- `ChannelParams::for_symbols`. -/
  forSymbols : U32 → Nat → ByteArr 32 → ChannelParams
  plaintextModulus : ChannelParams → Nat
  /-- `ProtocolParams::setup_rs_mode`. -/
  setupRsMode : Rng → Nat → Nat → Nat → Nat → Nat → Nat → ByteArr 32 → ProtocolParams
  /-- A channel for symbols is the peeling encoding. -/
  mse_forSymbols : ∀ rho symbols key, (mseOf (forSymbols rho symbols key)).isSome
  /-- The parameters are for the servers they are set up for, -/
  nServers_setupRsMode : ∀ rng n mu t lanes modulus rho seed,
    (setupRsMode rng n mu t lanes modulus rho seed).nServers = n
  /-- and for the polynomials of the channel, whatever the threshold is. -/
  nPolys_le_setupRsMode : ∀ rng n ch t lanes modulus rho seed shamirT, nPolys ch ≤
    messagePolys { setupRsMode rng n (nPolys ch) t lanes modulus rho seed with shamirT := shamirT }
  /-- `bincode::serialize` of an action, which none makes fail. -/
  actionBytes : ProtocolAction → Bytes
  /-- The error of `channel::encode_message`. -/
  encodeMessageError : ChannelParams → Bytes → String
  /-- The error of `bincode` on bytes that it refuses. -/
  decodeError : Bytes → String
  adcnet : ScheduledAdcnetCrate
  /-- `adcnet::crypto::ExchangePublicKey`. -/
  ExchangeKey : Type
  /-- `adcnet::crypto::ExchangePrivateKey`. -/
  ExchangePrivateKey : Type
  /-- `Signed<ClientContribution>`. -/
  SignedContribution : Type
  /-- `ExchangePublicKey::from_sec1_bytes`. -/
  exchangeKeyFromSec1 : Bytes → Option ExchangeKey
  /-- `ExchangePrivateKey::from_bytes`, of the identity's scalar. -/
  exchangePrivateKey : Identity → Except String ExchangePrivateKey
  /-- `public().to_sec1_bytes()`. -/
  publicOf : ExchangePrivateKey → Bytes
  privateEcdh : ExchangePrivateKey → ExchangeKey → SharedKey
  /-- `exchange().ecdh(..)`. -/
  ecdh : Identity → ExchangeKey → SharedKey
  /-- `exchange_pubkey().to_sec1_bytes()`. -/
  exchangePubkey : Identity → Bytes
  /-- `to_adcnet_signing_key`. -/
  toAdcnetSigningKey : Identity → adcnet.PrivateKey
  /-- `Signed::new`, of a key exchange. -/
  signKey : adcnet.PrivateKey → KeyExchange → Except String adcnet.SignedKey
  clientContribute : OneRoundConfig → U32 → adcnet.PrivateKey → List (ServerId × SharedKey) →
    Option Bytes → Rng → Except String SignedContribution × Rng
  /-- `bincode::serialize` of an `AdcnetWire::Client`. -/
  adcnetClientBytes : SignedContribution → adcnet.SignedKey → Bytes
  /-- A `ClientMessager`, over the configuration and the shared secrets. -/
  messager : ScheduledAdcnetConfig → List (ServerId × SharedKey) → adcnet.Messager
  /-- A `RoundBroadcast` of a round, with an empty vector of so many auction slots. -/
  emptyBroadcast : U32 → Int → adcnet.RoundBroadcast
  /-- `bincode` of the scheduled wire, written and read. -/
  scheduledAdcnetBytes : ScheduledAdcnetWire adcnet → Bytes
  readScheduledAdcnet : Bytes → Except String (ScheduledAdcnetWire adcnet)

variable (R : RemoteCrate)

/-- The readers of the relays' keys. -/
abbrev RemoteCrate.readers : KeyReaders :=
  ⟨R.ServerKey, R.VerifyingKey, R.sealKeyFromBytes, R.setKeyFromSec1⟩

/-! ## The one-round ADCNet client -/

/-- `AdcnetClientSession`. -/
structure AdcnetClientSession where
  config : OneRoundConfig
  signingKey : R.adcnet.PrivateKey
  sharedSecrets : List (ServerId × SharedKey)
  clientXpub : Bytes
  signedKey : Option R.adcnet.SignedKey
  pending : Option Bytes
  rng : R.Rng
  coverRate : U32

variable {R}

namespace AdcnetClientSession

/-- `AdcnetClientSession::new`. -/
def new (config : OneRoundConfig) (signingKey : R.adcnet.PrivateKey)
    (sharedSecrets : List (ServerId × SharedKey)) (clientXpub : Bytes) (rngSeed : ByteArr 32) :
    AdcnetClientSession R :=
  ⟨config, signingKey, sharedSecrets, clientXpub, none, none, R.fromSeed rngSeed,
    AnymoneInner.oneBits⟩

/-- `contribute`. -/
def contribute (s : AdcnetClientSession R) (round : Round) (payload : Option Bytes) :
    AdcnetClientSession R × Except String Bytes :=
  if h : round.val < 4294967296 then
    if payload.any (fun p => decide (s.config.maxPayloadBytes.val < p.length)) then
      (s, .error "payload exceeds channel capacity")
    else
      match s.signedKey.elim (R.signKey s.signingKey ⟨s.clientXpub⟩) .ok with
      | .error e => (s, .error e)
      | .ok key =>
          let contribution := R.clientContribute s.config ⟨round.val, h⟩ s.signingKey
            s.sharedSecrets payload s.rng
          ({ s with signedKey := some key, rng := contribution.2 },
            contribution.1.map (R.adcnetClientBytes · key))
  else (s, .error "ADCNet round exceeds u32")

end AdcnetClientSession

/-! ## The client in charge -/

/-- `RemoteProtocol`. -/
inductive RemoteProtocol where
  | panetiere
  | scheduledPanetiere
  | adcnet
  | scheduledAdcnet
  deriving DecidableEq

variable (R) in
/-- `Client`, each with what it is built with. -/
inductive Client where
  | panetiere (client : PanetiereClientSession R.toChannelCrate)
  | scheduledPanetiere (cfg : ScheduledClientConfig R.toScheduledCrate)
      (client : ScheduledClientSession R.toScheduledCrate)
  | adcnet (client : AdcnetClientSession R)
  /-- The cover rate is the bits of an `f32`. -/
  | scheduledAdcnet (cfg : ScheduledAdcnetClientConfig R.adcnet) (coverRate : U32)
      (client : ScheduledAdcnetClientSession R.adcnet)

namespace Client
variable (c : Client R)

/-- `pending_message_count`, of a scheduled client. -/
def pendingMessageCount : Nat :=
  match c with
  | scheduledPanetiere _ s =>
      s.staged.length + s.deferred.length + s.granted.length +
        (s.reserved.values.map List.length).sum
  | scheduledAdcnet _ _ s => s.pendingMessageCount
  | panetiere _ | adcnet _ => 0

/-- `take_pending_messages`, of a scheduled client. -/
def takePendingMessages : Client R × List Bytes :=
  match c with
  | scheduledPanetiere cfg s =>
      (scheduledPanetiere cfg s.takePendingMessages.1, s.takePendingMessages.2)
  | scheduledAdcnet cfg rate s =>
      (scheduledAdcnet cfg rate s.takePendingMessages.1, s.takePendingMessages.2)
  | panetiere _ | adcnet _ => (c, [])

end Client

/-! ## The configuration -/

/-- What `validate_config` bounds of every protocol. -/
structure Sizes where
  bytes : U64
  estimate : U32
  min : U32
  max : U32
  threshold : U32

/-- The sizes of a protocol, with what only that protocol is held to. -/
def sizes : ProtocolConfig → Except RemoteSessionError Sizes
  | .panetiere c =>
      .ok ⟨c.messageSize, c.estimatedMessages, c.clientSetMin, c.clientSetMax, c.threshold⟩
  | .scheduledPanetiere c =>
      if 65535 < c.messageSize ∨ c.vectorBytes < c.messageSize then .error .invalidConfig
      else .ok ⟨c.vectorBytes, c.estimatedMessages, c.clientSetMin, c.clientSetMax, c.threshold⟩
  | .adcnet c =>
      .ok ⟨c.maxPayloadBytes, c.estimatedMessages, c.clientSetMin, c.clientSetMax, 1⟩
  | .scheduledAdcnet c =>
      if c.messageLength.val % 1024 ≠ 0 ∨ c.messageLength.val < c.minMessageSize.val then
        .error .invalidConfig
      else .ok ⟨c.messageLength, c.auctionSlots, c.clientSetMin, c.clientSetMax, 1⟩
  | .noop _ => .error .unsupportedProtocol

/-- The bounds on the sizes. -/
def Sizes.inBounds (s : Sizes) (n : Nat) : Bool :=
  decide (s.bytes ≠ 0 ∧ s.estimate ≠ 0 ∧ s.estimate ≤ 4096 ∧ s.max ≠ 0 ∧ s.max ≤ 65536 ∧
    s.min ≤ s.max ∧ s.threshold ≠ 0 ∧ s.threshold.val ≤ n ∧
    s.bytes.saturatingMul s.estimate.val ≤ 1048576)

/-- How many messages of a round one client sends at once. -/
def fanout (n : Nat) : ProtocolConfig → Nat
  | .panetiere _ | .scheduledPanetiere _ => 1 + 2 * n
  | .adcnet _ | .scheduledAdcnet _ | .noop _ => 1

/-- The relays and the round a session can begin with. -/
def startable (subnet : Subnet) (startingRound : Round) : Bool :=
  decide (1 ≤ subnet.relays.length ∧ subnet.relays.length ≤ 32 ∧ startingRound < 4294967295 ∧
    subnet.relays.Nodup)

/-- `validate_config`. -/
def validateConfig (C : SchedulerCrate) (subnet : Subnet) (startingRound : Round) :
    Except RemoteSessionError Unit :=
  if !startable subnet startingRound then .error .invalidConfig
  else
    let n := subnet.relays.length
    match sizes subnet.protocol with
    | .error e => .error e
    | .ok s =>
        if !s.inBounds n ∨
            15728640 < (subnetMaxWire C n subnet.protocol).saturatingMul (fanout n subnet.protocol)
        then .error .invalidConfig
        else .ok ()

/-- `require_roster`. -/
def requireRoster (size : Nat) (subnet : Subnet) : Except RemoteSessionError Unit :=
  if size = subnet.relays.length then .ok () else .error .incompleteRoster

variable (R) in
/-- `consensus_roster`. -/
def consensusRoster (mode : SetFormation) (keys : List (Pubkey × ExchangePublicKeyWire))
    (subnet : Subnet) : Except RemoteSessionError (Option (List R.VerifyingKey)) :=
  if mode = .consensus then
    match setRoster R.readers keys subnet with
    | some pks => .ok (some pks)
    | none => .error .incompleteRoster
  else .ok none

/-- `subnet_leader_pk`; `none` is its assertion. -/
def subnetLeaderPk (subnet : Subnet) : Option Pubkey :=
  leaderOf (subnet.relays.insertionSort (· ≤ ·)) subnet.id

/-! ## Parameters -/

variable (R) in
/-- `channel_params`. -/
def channelParams (rho : U32) (messageBytes : U64) (setupSeed : ByteArr 32) :
    Encoding → R.ChannelParams
  | .prony => R.pronyForMessages rho messageBytes
  | .mse => R.forMessages rho messageBytes (tweakSeed 0x5C setupSeed)

variable (R) in
/-- What both `params_for` set up. -/
def setupParams (setupSeed : ByteArr 32) (n mu modulus : Nat) (threshold clientSetMax : U32) :
    ProtocolParams :=
  { R.setupRsMode (R.fromSeed setupSeed) n mu threshold.val n modulus (max clientSetMax 1).val
      setupSeed with shamirT := threshold.val }

/-- `panetiere::params_for`: the channel. -/
def PanetiereConfig.channel (R : RemoteCrate) (c : PanetiereConfig) : R.ChannelParams :=
  channelParams R c.estimatedMessages c.messageSize c.setupSeed c.encoding

/-- `panetiere::params_for`: the parameters. -/
def PanetiereConfig.params (R : RemoteCrate) (c : PanetiereConfig) (n : Nat) : ProtocolParams :=
  setupParams R c.setupSeed n (R.nPolys (PanetiereConfig.channel R c))
    (R.plaintextModulus (PanetiereConfig.channel R c)) c.threshold c.clientSetMax

/-- `sched_channel_params`. -/
def ScheduledPanetiereConfig.channel (R : RemoteCrate) (c : ScheduledPanetiereConfig) :
    R.ChannelParams :=
  R.forSymbols c.estimatedMessages 2 (tweakSeed 0x77 c.setupSeed)

/-- `panetiere_scheduled::params_for`: the parameters. -/
def ScheduledPanetiereConfig.params (R : RemoteCrate) (c : ScheduledPanetiereConfig) (n : Nat) :
    ProtocolParams :=
  setupParams R c.setupSeed n
    (R.nPolys (ScheduledPanetiereConfig.channel R c) +
      (msgPolys R.toSchedulerCrate c.vectorBytes).val)
    (R.plaintextModulus (ScheduledPanetiereConfig.channel R c)) c.threshold c.clientSetMax

/-! ## Building a client -/

variable (R) in
/-- A client with its protocol and the largest payload it takes. -/
structure Built where
  client : Client R
  protocol : RemoteProtocol
  maxPayload : U64

section Build
variable (subnet : Subnet) (keys : List (Pubkey × ExchangePublicKeyWire)) (startingRound : Round)
  (identity : R.Identity) (seed : ByteArr 32)

/-- The session of a Panetière client. -/
def buildPanetiere (c : PanetiereConfig) : Except RemoteSessionError (Built R) := do
  let servers := sealRoster R.readers keys subnet
  requireRoster servers.length subnet
  let setPks ← consensusRoster R c.setFormation keys subnet
  pure {
    client := .panetiere (.new {
      pp := PanetiereConfig.params R c subnet.relays.length
      identity := identity
      servers := servers
      rngSeed := seed
      setupSeed := c.setupSeed
      setPks := setPks
      mse := PanetiereConfig.channel R c
      sized := R.nPolys_le_setupRsMode .. })
    protocol := .panetiere
    maxPayload := c.messageSize }

/-- The session of a scheduled Panetière client. -/
def buildScheduledPanetiere (c : ScheduledPanetiereConfig) (leaderPk : Pubkey) :
    Except RemoteSessionError (Built R) := do
  let servers := sealRoster R.readers keys subnet
  requireRoster servers.length subnet
  let setPks ← consensusRoster R c.setFormation keys subnet
  let cfg : ScheduledClientConfig R.toScheduledCrate := {
    pp := ScheduledPanetiereConfig.params R c subnet.relays.length
    identity := identity
    servers := servers
    rngSeed := seed
    setupSeed := c.setupSeed
    setPks := setPks
    schedMse := ScheduledPanetiereConfig.channel R c
    mse := (R.mseOf (ScheduledPanetiereConfig.channel R c)).get (R.mse_forSymbols ..)
    peeling := (Option.some_get _).symm
    vectorBytes := c.vectorBytes
    leaderPk := leaderPk
    coverRate := AnymoneInner.oneBits }
  pure {
    client := .scheduledPanetiere cfg
      ((ScheduledClientSession.new cfg .empty).advanceRound startingRound)
    protocol := .scheduledPanetiere
    maxPayload := c.messageSize }

/-- `roster_exchange_pubkeys`, by server. -/
def exchangeRoster : List (ServerId × R.ExchangeKey) :=
  (rosterKeys subnet.relays keys (fun xk => R.exchangeKeyFromSec1 xk.ecdh)).map
    (fun e => (Fin.ofNat _ e.1, e.2))

/-- The session of an ADCNet client. -/
def buildAdcnet (c : AdcnetConfig) : Except RemoteSessionError (Built R) := do
  let shared := (exchangeRoster (R := R) subnet keys).map (fun e => (e.1, R.ecdh identity e.2))
  requireRoster shared.length subnet
  pure {
    client := .adcnet (.new ⟨c.estimatedMessages, c.maxPayloadBytes⟩ (R.toAdcnetSigningKey identity)
      shared (R.exchangePubkey identity) seed)
    protocol := .adcnet
    maxPayload := c.maxPayloadBytes }

/-- The session of a scheduled ADCNet client; `none` is a key exchange that cannot be signed. -/
def buildScheduledAdcnet (c : ScheduledAdcnetConfig) (leaderPk : Pubkey) :
    Option (Except RemoteSessionError (Built R)) :=
  let servers := exchangeRoster (R := R) subnet keys
  match requireRoster servers.length subnet with
  | .error e => some (.error e)
  | .ok () =>
      match R.exchangePrivateKey identity with
      | .error e => some (.error (.protocol e))
      | .ok exchangeKey =>
          let signingKey := R.toAdcnetSigningKey identity
          match R.signKey signingKey ⟨R.publicOf exchangeKey⟩ with
          | .error _ => none
          | .ok key =>
              some (.ok {
                client := .scheduledAdcnet {
                    messager := R.messager c
                      (servers.map (fun e => (e.1, R.privateEcdh exchangeKey e.2)))
                    signingKey := signingKey
                    key := key
                    leader := leaderPk
                    messageLength := c.messageLength.val
                    minMessageSize := c.minMessageSize.val }
                  AnymoneInner.oneBits
                  (.new (R.emptyBroadcast c.auctionSlots 0) (startingRound.toI64 + 1))
                protocol := .scheduledAdcnet
                maxPayload := c.messageLength })

/-- What `with_identity` builds its client of. -/
def build : Option (Except RemoteSessionError (Built R)) :=
  match subnet.protocol with
  | .panetiere c => some (buildPanetiere subnet keys identity seed c)
  | .scheduledPanetiere c =>
      (subnetLeaderPk subnet).map
        (buildScheduledPanetiere subnet keys startingRound identity seed c)
  | .adcnet c => some (buildAdcnet subnet keys identity seed c)
  | .scheduledAdcnet c =>
      (subnetLeaderPk subnet).bind (buildScheduledAdcnet subnet keys startingRound identity c)
  | .noop _ => some (.error .unsupportedProtocol)

end Build

end Remote
end Anymone
