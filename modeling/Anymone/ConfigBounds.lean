import Anymone.NetworkConfig

/-! # Structural bounds on a configuration

`validate_structure`: what every body must satisfy whatever its reader has seen, with
the wire-size estimates it adds up.  A `usize` is 64 bits here, and sums and products
of sizes wrap as the release build's do.
-/

namespace Anymone

/-- `MAX_SUBNETS`. -/
def maxSubnets : Nat := 16

/-- `MAX_COMMITTEE_RELAYS`. -/
def maxCommitteeRelays : Nat := 16

/-- `INITIAL_CAPACITY`. -/
def initialCapacity : U32 := 8

/-- `MIN_CAPACITY`. -/
def minCapacity : U32 := 8

/-- `MAX_SUBNET_CLIENTS`. -/
def maxSubnetClients : U32 := 300

/-- `MAX_VECTOR_BYTES`. -/
def maxVectorBytes : U64 := 131072

/-- `MAX_SUBNET_WIRE`: three quarters of `MAX_TRANSMIT_SIZE`. -/
def maxSubnetWire : U64 := 12582912

/-- `CONSENSUS_PHASES`. -/
def consensusPhases : Nat := 3

/-- `CONSENSUS_PHASE_MS`. -/
def consensusPhaseMs : Nat := 150

/-! ## Wire estimates -/

section Wire
variable (C : SchedulerCrate)

/-- `adcnet::max_wire_estimate`. -/
def adcnetMaxWireEstimate (messageSize : U64) (estimatedMessages clientSetMax : U32) : U64 :=
  let share := C.ibltEncodedLen estimatedMessages messageSize * 8 + 256
  let clientSet := clientSetMax.toU64 * 200 + 256
  let decoded := estimatedMessages.toU64 * messageSize + 256
  max (max share clientSet) decoded

/-- `adcnet::scheduled_max_wire_estimate`. -/
def scheduledAdcnetMaxWireEstimate (c : ScheduledAdcnetConfig) (nRelays : Nat) : U64 :=
  let auction := (C.ibltFieldElementCount c.auctionSlots).saturatingMul 8
  let contribution := ((auction.saturatingAdd c.messageLength.val).saturatingAdd
    (nRelays * 4)).saturatingAdd 512
  let clientSet := (contribution.saturatingMul c.clientSetMax.val).saturatingAdd 256
  let partialSum := (contribution.saturatingMul 2).saturatingAdd
    (c.clientSetMax.toU64.saturatingMul 128).val
  max clientSet partialSum

/-- `noop::max_wire_estimate`. -/
def noopMaxWireEstimate (messageSize : U64) (clientSetMax : U32) : U64 :=
  clientSetMax.toU64 * messageSize + 64

/-- `ReceiptBatch::packed_len`. -/
def receiptBatchPackedLen (nReceipts : Nat) : Nat :=
  8 + C.sigLen + nReceipts * Receipt.packedLen C.toSetCrate

/-- `rs_wire_estimate`: the client's post, one lane's coded share, the relay's two
sums and the decoded round. -/
def rsWireEstimate (nPolys decodedBytes : U64) (clientSetMax : U32) (nRelays : Nat)
    (threshold : U32) : U64 :=
  let n := max nRelays 1
  let rho := max clientSetMax 1
  let block := C.blockLen ⟨threshold.val, n⟩ nPolys
  let clientPublic := Fin.ofNat _ C.bulletinPackedLen + 512
  let slice := block * Fin.ofNat _ C.rsPolyPackedLen + Fin.ofNat _ (C.freshPathPackedLen n) + 512
  let serverPublic := C.serverEntryLen n nPolys rho + C.lanePostPackedLen block n rho.val +
    rho.toU64 * 4 + 512
  max (max (max clientPublic slice) serverPublic) (decodedBytes + 512)

/-- `consensus_wire_estimate`: a bundle, an evidence package, a batch of receipts or a
chain-signed relay item. -/
def consensusWireEstimate (nPolys : U64) (clientSetMax : U32) (nRelays : Nat) (threshold : U32)
    (setFormation : SetFormation) : U64 :=
  if setFormation ≠ .consensus then 0
  else
    let n := max nRelays 1
    let rho := max clientSetMax 1
    let block := C.blockLen ⟨threshold.val, n⟩ nPolys
    let sealed := C.serverEntryLen n nPolys rho + 1600
    let bundle := block * Fin.ofNat _ C.rsPolyPackedLen + Fin.ofNat _ (C.freshPathPackedLen n) +
      sealed + 512
    let batch := Fin.ofNat _ (receiptBatchPackedLen C rho.val) + 512
    let relay := max bundle batch + Fin.ofNat _ (n * (4 + C.sigLen)) + 512
    max (max bundle batch) relay

/-- `panetiere::max_wire_estimate`. -/
def panetiereMaxWireEstimate (c : PanetiereConfig) (nRelays : Nat) : U64 :=
  let nPolys := C.channelPolys c.estimatedMessages c.messageSize c.encoding
  max (rsWireEstimate C nPolys (c.estimatedMessages.toU64 * c.messageSize) c.clientSetMax nRelays
      c.threshold)
    (consensusWireEstimate C nPolys c.clientSetMax nRelays c.threshold c.setFormation)

/-- `panetiere_scheduled::msg_polys`. -/
def msgPolys (vectorBytes : U64) : U64 := vectorBytes.divCeil C.bytesPerPoly

/-- `panetiere_scheduled::max_wire_estimate`. -/
def scheduledPanetiereMaxWireEstimate (c : ScheduledPanetiereConfig) (nRelays : Nat) : U64 :=
  let nPolys := C.schedChannelPolys c.estimatedMessages + msgPolys C c.vectorBytes
  let reservations := 4 * c.estimatedMessages.toU64 + 512
  max (max (rsWireEstimate C nPolys c.vectorBytes c.clientSetMax nRelays c.threshold) reservations)
    (consensusWireEstimate C nPolys c.clientSetMax nRelays c.threshold c.setFormation)

/-- `subnet_max_wire`: the largest message a round of the protocol broadcasts. -/
def subnetMaxWire (nRelays : Nat) : ProtocolConfig → U64
  | .adcnet c => adcnetMaxWireEstimate C c.maxPayloadBytes c.estimatedMessages c.clientSetMax
  | .panetiere c => panetiereMaxWireEstimate C c nRelays
  | .scheduledPanetiere c => scheduledPanetiereMaxWireEstimate C c nRelays
  | .noop c => noopMaxWireEstimate c.messageSize c.clientSetMax
  | .scheduledAdcnet c => scheduledAdcnetMaxWireEstimate C c nRelays

end Wire

/-! ## Structure -/

/-- `(0.0..=1.0).contains(&rate)`, on the bits of an `f32`: the bits of the
non-negative floats grow with them, and minus zero is zero. -/
def coverRateInUnit (rate : U32) : Bool :=
  decide (rate.val ≤ 0x3f800000) || decide (rate.val = 0x80000000)

/-- `consensus_cadence_fits`: a phase for every step of the consensus grid. -/
def consensusCadenceFits (roundDurationMs : U64) (setFormation : SetFormation) (nRelays : Nat)
    (threshold : U32) : Bool :=
  if setFormation ≠ .consensus then true
  else
    let phases := consensusPhases + (max nRelays 1 - threshold.val + 1)
    decide ((phases + 1) * consensusPhaseMs ≤ roundDurationMs.val)

/-- `aggregation_structural_ok`. -/
def aggregationStructuralOk : Option Aggregation → Bool
  | none => true
  | some a => !a.groups.isEmpty && decide a.groups.Nodup

/-- The threshold bounds of both Panetière kinds. -/
def thresholdOk (nRelays : Nat) (threshold : U32) : Bool :=
  decide (nRelays / 2 + 1 ≤ threshold.val) && decide (threshold.val ≤ max nRelays 1)

/-- The bounds on the fields of one protocol. -/
def protocolBoundsOk (nRelays : Nat) : ProtocolConfig → Bool
  | .noop c => decide (minCapacity ≤ c.clientSetMax)
  | .adcnet c =>
      decide (minCapacity ≤ c.clientSetMax) && decide (c.estimatedMessages ≠ 0) &&
        aggregationStructuralOk c.aggregation
  | .panetiere c =>
      decide (minCapacity ≤ c.clientSetMax) && decide (c.estimatedMessages ≠ 0) &&
        thresholdOk nRelays c.threshold &&
        consensusCadenceFits c.roundDurationMs c.setFormation nRelays c.threshold
  | .scheduledPanetiere c =>
      decide (minCapacity ≤ c.clientSetMax) && decide (c.estimatedMessages ≠ 0) &&
        thresholdOk nRelays c.threshold && decide (c.messageSize.val ≤ 65535) &&
        decide (c.vectorBytes ≠ 0) &&
        consensusCadenceFits c.roundDurationMs c.setFormation nRelays c.threshold
  | .scheduledAdcnet c =>
      decide (minCapacity ≤ c.clientSetMax) && decide (c.auctionSlots ≠ 0) &&
        decide (c.auctionSlots ≤ maxSubnetClients) && decide (1024 ≤ c.messageLength.val) &&
        decide (c.messageLength.val % 1024 = 0) && decide (c.messageLength ≤ maxVectorBytes) &&
        decide (c.minMessageSize ≠ 0) && decide (c.minMessageSize.val ≤ c.messageLength.val)

/-- What `validate_structure` asks of one subnet. -/
def subnetStructureOk (C : SchedulerCrate) (s : Subnet) : Bool :=
  !s.relays.isEmpty && decide (s.relays.length ≤ maxCommitteeRelays) && decide s.relays.Nodup &&
    coverRateInUnit s.coverRate &&
    (decide (s.protocol.roundDurationMs ≠ 0) && decide (s.protocol.messageSize ≠ 0) &&
      decide (s.protocol.clientSetMin ≤ s.protocol.clientSetMax)) &&
    protocolBoundsOk s.relays.length s.protocol &&
    decide (subnetMaxWire C s.relays.length s.protocol ≤ maxSubnetWire)

/-- `validate_structure`: the checks that need no local state. -/
def validateStructure {C : SchedulerCrate} (body : C.Body) : Bool :=
  !body.subnets.isEmpty && decide (body.subnets.length ≤ maxSubnets) &&
    decide (body.subnets.map Subnet.id).Nodup && decide (body.services.map Prod.fst).Nodup &&
    decide (body.relayExchangeKeys.map Prod.fst).Nodup &&
    body.subnets.all (subnetStructureOk C)

variable {C : SchedulerCrate}

theorem subnetStructureOk_of_mem {body : C.Body} (h : validateStructure body = true) {s : Subnet}
    (hs : s ∈ body.subnets) : subnetStructureOk C s = true := by
  unfold validateStructure at h
  simp only [Bool.and_eq_true, List.all_eq_true] at h
  exact h.2 s hs

/-- A body that passes has a subnet, and a subnet that passes has a relay. -/
theorem exists_relay_of_validateStructure {body : C.Body} (h : validateStructure body = true) :
    ∃ s ∈ body.subnets, ∃ pk, pk ∈ s.relays := by
  have hne : body.subnets ≠ [] := by
    intro he
    simp [validateStructure, he] at h
  obtain ⟨s, hs⟩ := List.exists_mem_of_ne_nil _ hne
  have hok := subnetStructureOk_of_mem h hs
  have hrel : s.relays ≠ [] := by
    intro he
    simp [subnetStructureOk, he] at hok
  exact ⟨s, hs, List.exists_mem_of_ne_nil _ hrel⟩

end Anymone
