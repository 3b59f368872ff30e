import Anymone.PanetiereWire

/-! # The round configuration

What the committee signs and every node runs: services, relays and their keys, and
the subnets with their protocols.  The multisig covers the canonical bytes of the
body, a big-endian fixed-width encoding.

The attestation policy is opaque here (`SchedulerCrate.Policy`); it is only compared
and written out.  A cover rate is an `f32`, kept as its bits.
-/

namespace Anymone

/-- `SubnetId`. -/
abbrev SubnetId := U32

/-- `ServiceTag`. -/
abbrev ServiceTag := ByteArr 20

/-- A `String`, as its UTF-8 bytes. -/
abbrev Text := Bytes

/-- `ExchangePublicKeyWire`. -/
structure ExchangePublicKeyWire where
  ecdh : Bytes
  kem : Bytes
  setSig : Bytes
  deriving DecidableEq

/-- `Encoding`. -/
inductive Encoding where
  | prony
  | mse
  deriving DecidableEq

/-- `SetFormation`. -/
inductive SetFormation where
  | leader
  | consensus
  deriving DecidableEq

/-- `NoopConfig`. -/
structure NoopConfig where
  roundDurationMs : U64
  messageSize : U64
  clientSetMin : U32
  clientSetMax : U32
  deriving DecidableEq

/-- `PanetiereConfig`. -/
structure PanetiereConfig where
  roundDurationMs : U64
  messageSize : U64
  estimatedMessages : U32
  clientSetMin : U32
  clientSetMax : U32
  threshold : U32
  setupSeed : ByteArr 32
  encoding : Encoding
  setFormation : SetFormation
  deriving DecidableEq

/-- `ScheduledPanetiereConfig`. -/
structure ScheduledPanetiereConfig where
  roundDurationMs : U64
  messageSize : U64
  vectorBytes : U64
  estimatedMessages : U32
  clientSetMin : U32
  clientSetMax : U32
  threshold : U32
  setupSeed : ByteArr 32
  setFormation : SetFormation
  deriving DecidableEq

/-- `Aggregation`: one aggregator per group. -/
structure Aggregation where
  groups : List Pubkey
  deriving DecidableEq

/-- `AdcnetConfig`. -/
structure AdcnetConfig where
  roundDurationMs : U64
  maxPayloadBytes : U64
  estimatedMessages : U32
  clientSetMin : U32
  clientSetMax : U32
  aggregation : Option Aggregation
  deriving DecidableEq

/-- `ScheduledAdcnetConfig`. -/
structure ScheduledAdcnetConfig where
  roundDurationMs : U64
  messageLength : U64
  auctionSlots : U32
  minMessageSize : U32
  clientSetMin : U32
  clientSetMax : U32
  deriving DecidableEq

/-- `ProtocolConfig`. -/
inductive ProtocolConfig where
  | noop (c : NoopConfig)
  | panetiere (c : PanetiereConfig)
  | scheduledPanetiere (c : ScheduledPanetiereConfig)
  | adcnet (c : AdcnetConfig)
  | scheduledAdcnet (c : ScheduledAdcnetConfig)
  deriving DecidableEq

/-- `SchedulerProtocol`. -/
inductive SchedulerProtocol where
  | adcnet
  | panetiere
  | scheduledPanetiere
  | noop
  | scheduledAdcnet
  deriving DecidableEq

namespace ProtocolConfig

/-- `round_duration`, in milliseconds. -/
def roundDurationMs : ProtocolConfig → U64
  | noop c => c.roundDurationMs
  | panetiere c => c.roundDurationMs
  | scheduledPanetiere c => c.roundDurationMs
  | adcnet c => c.roundDurationMs
  | scheduledAdcnet c => c.roundDurationMs

/-- `message_size`. -/
def messageSize : ProtocolConfig → U64
  | noop c => c.messageSize
  | panetiere c => c.messageSize
  | scheduledPanetiere c => c.messageSize
  | adcnet c => c.maxPayloadBytes
  | scheduledAdcnet c => c.messageLength

/-- `client_set_min`. -/
def clientSetMin : ProtocolConfig → U32
  | noop c => c.clientSetMin
  | panetiere c => c.clientSetMin
  | scheduledPanetiere c => c.clientSetMin
  | adcnet c => c.clientSetMin
  | scheduledAdcnet c => c.clientSetMin

/-- `client_set_max`. -/
def clientSetMax : ProtocolConfig → U32
  | noop c => c.clientSetMax
  | panetiere c => c.clientSetMax
  | scheduledPanetiere c => c.clientSetMax
  | adcnet c => c.clientSetMax
  | scheduledAdcnet c => c.clientSetMax

/-- `proto_kind`. -/
def protoKind : ProtocolConfig → SchedulerProtocol
  | noop _ => .noop
  | panetiere _ => .panetiere
  | scheduledPanetiere _ => .scheduledPanetiere
  | adcnet _ => .adcnet
  | scheduledAdcnet _ => .scheduledAdcnet

end ProtocolConfig

/-- `Subnet`.  The cover rate is the bits of an `f32`. -/
structure Subnet where
  id : SubnetId
  relays : List Pubkey
  protocol : ProtocolConfig
  coverRate : U32
  attested : Bool
  deriving DecidableEq

/-- `discovery::Endpoints`. -/
structure Endpoints where
  nodes : List (Pubkey × Text)
  services : List (ServiceTag × Text)
  deriving DecidableEq

/-- `AnymoneRoundConfigurationBody`, over the attestation policies. -/
structure AnymoneRoundConfigurationBody (Policy : Type) where
  round : Round
  endpoints : Endpoints
  epochUnixMs : U64
  services : List (ServiceTag × Pubkey)
  relayExchangeKeys : List (Pubkey × ExchangePublicKeyWire)
  subnets : List Subnet
  relayClientAddrs : List (Pubkey × Text)
  watchers : List Pubkey
  attestation : Policy

/-- `Signature`. -/
structure Signature where
  signer : Pubkey
  bytes : Bytes
  deriving DecidableEq

/-- `AnymoneRoundConfiguration`. -/
structure AnymoneRoundConfiguration (Policy : Type) where
  body : AnymoneRoundConfigurationBody Policy
  signatures : List Signature

/-! ## Canonical bytes -/

namespace ConfigFormat
open Bincode

/-- The canonical encoding is big-endian. -/
def word : Bincode U32 := u32 .big

def long : Bincode U64 := u64 .big

def text : Bincode Text := bytes .big

def key : Bincode Pubkey := array 32

/-- An enumeration without fields is its variant number. -/
def encoding : Bincode Encoding :=
  iso (uint .big 4 2 (by decide)) (fun n => if n = 0 then .prony else .mse)
    (fun e => if e = .prony then 0 else 1) (by intro e; cases e <;> rfl)

def setFormation : Bincode SetFormation :=
  iso (uint .big 4 2 (by decide)) (fun n => if n = 0 then .leader else .consensus)
    (fun f => if f = .leader then 0 else 1) (by intro f; cases f <;> rfl)

def exchangeKey : Bincode ExchangePublicKeyWire :=
  iso (pair text (pair text text)) (fun ⟨ecdh, kem, setSig⟩ => ⟨ecdh, kem, setSig⟩)
    (fun k => (k.ecdh, k.kem, k.setSig)) (fun _ => rfl)

def noop : Bincode NoopConfig :=
  iso (pair long (pair long (pair word word))) (fun ⟨d, m, lo, hi⟩ => ⟨d, m, lo, hi⟩)
    (fun c => (c.roundDurationMs, c.messageSize, c.clientSetMin, c.clientSetMax)) (fun _ => rfl)

def panetiere : Bincode PanetiereConfig :=
  iso (pair long (pair long (pair word (pair word (pair word (pair word (pair (array 32)
      (pair encoding setFormation))))))))
    (fun ⟨d, m, e, lo, hi, t, seed, enc, form⟩ => ⟨d, m, e, lo, hi, t, seed, enc, form⟩)
    (fun c => (c.roundDurationMs, c.messageSize, c.estimatedMessages, c.clientSetMin,
      c.clientSetMax, c.threshold, c.setupSeed, c.encoding, c.setFormation))
    (fun _ => rfl)

def scheduledPanetiere : Bincode ScheduledPanetiereConfig :=
  iso (pair long (pair long (pair long (pair word (pair word (pair word (pair word
      (pair (array 32) setFormation))))))))
    (fun ⟨d, m, v, e, lo, hi, t, seed, form⟩ => ⟨d, m, v, e, lo, hi, t, seed, form⟩)
    (fun c => (c.roundDurationMs, c.messageSize, c.vectorBytes, c.estimatedMessages,
      c.clientSetMin, c.clientSetMax, c.threshold, c.setupSeed, c.setFormation))
    (fun _ => rfl)

def aggregation : Bincode Aggregation :=
  iso (list .big key) (fun groups => ⟨groups⟩) (fun a => a.groups) (fun _ => rfl)

def adcnet : Bincode AdcnetConfig :=
  iso (pair long (pair long (pair word (pair word (pair word (option aggregation))))))
    (fun ⟨d, m, e, lo, hi, agg⟩ => ⟨d, m, e, lo, hi, agg⟩)
    (fun c => (c.roundDurationMs, c.maxPayloadBytes, c.estimatedMessages, c.clientSetMin,
      c.clientSetMax, c.aggregation))
    (fun _ => rfl)

def scheduledAdcnet : Bincode ScheduledAdcnetConfig :=
  iso (pair long (pair long (pair word (pair word (pair word word)))))
    (fun ⟨d, m, slots, least, lo, hi⟩ => ⟨d, m, slots, least, lo, hi⟩)
    (fun c => (c.roundDurationMs, c.messageLength, c.auctionSlots, c.minMessageSize,
      c.clientSetMin, c.clientSetMax))
    (fun _ => rfl)

/-- The variant number of a protocol. -/
def protocolTag : ProtocolConfig → U32
  | .noop _ => 0
  | .panetiere _ => 1
  | .scheduledPanetiere _ => 2
  | .adcnet _ => 3
  | .scheduledAdcnet _ => 4

def protocolVariants : U32 → Option (Bincode ProtocolConfig)
  | 0 => some <| variant noop .noop
      (fun
        | .noop c => some c
        | _ => none)
      (by intro a b h; cases a <;> simp at h; subst h; rfl)
  | 1 => some <| variant panetiere .panetiere
      (fun
        | .panetiere c => some c
        | _ => none)
      (by intro a b h; cases a <;> simp at h; subst h; rfl)
  | 2 => some <| variant scheduledPanetiere .scheduledPanetiere
      (fun
        | .scheduledPanetiere c => some c
        | _ => none)
      (by intro a b h; cases a <;> simp at h; subst h; rfl)
  | 3 => some <| variant adcnet .adcnet
      (fun
        | .adcnet c => some c
        | _ => none)
      (by intro a b h; cases a <;> simp at h; subst h; rfl)
  | 4 => some <| variant scheduledAdcnet .scheduledAdcnet
      (fun
        | .scheduledAdcnet c => some c
        | _ => none)
      (by intro a b h; cases a <;> simp at h; subst h; rfl)
  | _ => none

def subnet : Bincode Subnet :=
  iso (pair word (pair (list .big key)
      (pair (tagged .big protocolTag protocolVariants) (pair word bool))))
    (fun ⟨id, relays, protocol, cover, attested⟩ => ⟨id, relays, protocol, cover, attested⟩)
    (fun s => (s.id, s.relays, s.protocol, s.coverRate, s.attested)) (fun _ => rfl)

def endpoints : Bincode Endpoints :=
  iso (pair (list .big (pair key text)) (list .big (pair (array 20) text)))
    (fun ⟨nodes, services⟩ => ⟨nodes, services⟩) (fun e => (e.nodes, e.services)) (fun _ => rfl)

/-- The format of a body, over the format of its policy. -/
def body {Policy : Type} (policy : Bincode Policy) :
    Bincode (AnymoneRoundConfigurationBody Policy) :=
  iso (pair long (pair endpoints (pair long (pair (list .big (pair (array 20) key))
      (pair (list .big (pair key exchangeKey)) (pair (list .big subnet)
        (pair (list .big (pair key text)) (pair (list .big key) policy))))))))
    (fun ⟨round, eps, epoch, services, keys, subnets, addrs, watchers, policy⟩ =>
      ⟨round, eps, epoch, services, keys, subnets, addrs, watchers, policy⟩)
    (fun b => (b.round, b.endpoints, b.epochUnixMs, b.services, b.relayExchangeKeys, b.subnets,
      b.relayClientAddrs, b.watchers, b.attestation))
    (fun _ => rfl)

end ConfigFormat

/-- What the scheduler takes from outside on top of a session's crates: the attestation
policy, and the sizes that the wire estimates add up. -/
structure SchedulerCrate extends SessionCrate where
  /-- `AttestationPolicy`. -/
  Policy : Type
  policyEq : Policy → Policy → Bool
  policyEq_self : ∀ p, policyEq p p = true
  policyFormat : Bincode Policy
  /-- `channel_params(..).n_polys()`, for so many messages of a size. -/
  channelPolys : U32 → U64 → Encoding → U64
  /-- `sched_channel_params(..).n_polys()`. -/
  schedChannelPolys : U32 → U64
  /-- `codec::BYTES_PER_POLY`. -/
  bytesPerPoly : Nat
  /-- `RsParams::block_len`. -/
  blockLen : RsParams → U64 → U64
  /-- `round_wire_sizes(..).server_entry`. -/
  serverEntryLen : Nat → U64 → U32 → U64
  lanePostPackedLen : U64 → Nat → Nat → U64
  /-- `IbltMsgParams::encoded_len`. -/
  ibltEncodedLen : U32 → U64 → U64
  /-- `iblt_field_element_count` at the auction's bid width. -/
  ibltFieldElementCount : U32 → U64
  /-- Whether unpacked shares are the ones the opening commits to. -/
  sharesOpen : List CsPoly → Opening → Bool

variable {C : SchedulerCrate}

/-- A configuration body. -/
abbrev SchedulerCrate.Body (C : SchedulerCrate) := AnymoneRoundConfigurationBody C.Policy

/-- A signed configuration. -/
abbrev SchedulerCrate.Config (C : SchedulerCrate) := AnymoneRoundConfiguration C.Policy

namespace AnymoneRoundConfigurationBody

/-- `canonical_bytes`. -/
def canonicalBytes (body : C.Body) : Bytes := (ConfigFormat.body C.policyFormat).write body

/-- `from_canonical_bytes`, which rejects trailing bytes. -/
def fromCanonicalBytes (bytes : Bytes) : Option C.Body :=
  match (ConfigFormat.body C.policyFormat).read bytes with
  | some (body, []) => some body
  | _ => none

/-- `propose_bytes`: what the lead signs. -/
def proposeBytes (body : C.Body) : Bytes := ascii "anymone/config/propose" ++ body.canonicalBytes

/-- `approve_bytes`: what every member signs. -/
def approveBytes (body : C.Body) : Bytes := ascii "anymone/config/approve" ++ body.canonicalBytes

end AnymoneRoundConfigurationBody

/-- The signers `verify_multisig` counts. -/
def multisigSigners (committee : List Pubkey) (config : C.Config) : List Pubkey :=
  config.signatures.foldl (fun seen sig =>
    if committee.contains sig.signer && !seen.contains sig.signer &&
        C.pubkeyVerify sig.signer config.body.approveBytes sig.bytes
    then seen ++ [sig.signer] else seen) []

/-- `verify_multisig`: enough distinct members cover the body. -/
def verifyMultisig (committee : List Pubkey) (threshold : U32) (config : C.Config) : Bool :=
  decide (threshold ≠ 0) && decide (threshold.val ≤ committee.length) &&
    decide (threshold.val ≤ (multisigSigners committee config).length)

/-- `derive_seed`: over a domain and the sorted roster. -/
def deriveSeed (C : SchedulerCrate) (domain : String) (pubkeys : List Pubkey) : ByteArr 32 :=
  C.sha256 (ascii domain ++ (pubkeys.insertionSort (· ≤ ·)).flatMap Subtype.val)

end Anymone
