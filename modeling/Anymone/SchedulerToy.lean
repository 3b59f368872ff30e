import Anymone.SchedulerRun
import Anymone.PanetiereToy

/-! # A committee to run the model on

The toy crate of a session with a committee on top: no attestation policy, small
sizes, and observers that report nothing.  The member is `toyNode 2` of a committee of
two whose lead is `toyNode 1`, and `toyNode 9` is a relay.
-/

namespace Anymone

/-- The toy crate of a scheduler. -/
def toyScheduler : SchedulerCrate where
  toSessionCrate := toySession
  Policy := Unit
  policyEq _ _ := true
  policyEq_self _ := rfl
  policyFormat := ⟨fun _ => [], fun bytes => some ((), bytes), fun _ => True, fun _ _ => rfl⟩
  channelPolys est size _ := est.toU64 * size.divCeil 8
  schedChannelPolys est := est.toU64
  bytesPerPoly := 1024
  blockLen rs n := n.divCeil rs.k
  serverEntryLen _ n _ := n * 8
  lanePostPackedLen block _ _ := block * 8
  ibltEncodedLen est size := est.toU64 * 2 * (size.divCeil 8 + 2)
  ibltFieldElementCount slots := slots.toU64 * 2
  sharesOpen := fun (shares : List Nat) _ => decide (shares ≠ [255])

/-- An observer session that sees nothing. -/
def silentObserver : ObserverSession where
  State := Unit
  onInbound s _ _ := s
  beginRound s _ := s
  endRound s _ := (s, [])
  round _ := none
  anonymitySet _ := none
  anonSetRound _ := none
  shareFrontier _ := none

/-- The observers of the toy committee. -/
def toyObservers : ObserverSessions where
  adcnet := silentObserver
  panetiere := silentObserver
  adcnetFor _ _ _ _ := ()
  panetiereNew _ _ _ := ()
  demand _ := none
  latestClients _ := none
  decodedBytesRecent _ _ := 0

/-- The parameters `SchedulerParams::default` gives. -/
def toySchedulerParams : SchedulerParams toyScheduler where
  publicRoundDurationMs := 1000
  minRelays := 1
  minServices := 1
  faultThreshold := 2
  growAt := 63
  messageSize := 256
  integrityBackoffMs := 360000
  minCapacity := 8
  sideline := true
  renegotiateOnFault := true
  vectorBytes := 0
  pin := none
  aggregation := true
  encoding := .prony
  setFormation := .leader
  attestedSubnets := []
  attestation := ()

/-- Member `id` of the committee of nodes 1 and 2. -/
def toyMember (id : U8) : SchedulerConfig toyScheduler where
  identity := toyNode id
  committee := [toyNode 1, toyNode 2]
  threshold := 2
  params := toySchedulerParams

/-- The exchange keys of the toy relay. -/
def toyExchangeKeys : ExchangePublicKeyWire := ⟨[1], [2], [3]⟩

/-- Relay 9 registers, with the address its clients dial. -/
def toyRegistration (addr : Text) : Registration :=
  .relay (toyNode 9) toyExchangeKeys (some addr) none []

/-- A body with one subnet over relay 9. -/
def toyBody (round : Round) (protocol : ProtocolConfig) (addr : Text) : toyScheduler.Body where
  round := round
  endpoints := ⟨[], []⟩
  epochUnixMs := 0
  services := []
  relayExchangeKeys := [(toyNode 9, toyExchangeKeys)]
  subnets := [⟨0, [toyNode 9], protocol, 0x3f800000, false⟩]
  relayClientAddrs := [(toyNode 9, addr)]
  watchers := []
  attestation := ()

/-- A body under the lead's signature. -/
def toyProposal (body : toyScheduler.Body) : SignedProposal toyScheduler :=
  ⟨body, toyNode 1, toySign (toyNode 1) body.proposeBytes⟩

/-- The Panetière subnet the default parameters give one relay. -/
def toyPanetiere (clients : U32) : ProtocolConfig :=
  .panetiere ⟨1000, 256, 4, 0, clients, 1, SchedulerCore.subnetSeed toyScheduler [toyNode 9], .prony,
    .leader⟩

end Anymone
