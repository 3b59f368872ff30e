import Anymone.SchedulerCore

/-! # A tick of the scheduling core

`tick` moves the observers' clocks, takes their faults, resizes the public subnets to
what the observers report and, at the lead, builds and stages the next configuration.

The sizes the source computes in floating point are exact here: `ceil(1.2 n)` is
`(6 n + 4) / 5`, the root of a capacity is its integer root, and a quarter of a vector
is compared by multiplying out.
-/

namespace Anymone
variable {C : SchedulerCrate} {O : ObserverSessions}

/-! ## Sizes -/

/-- `capacity_resize_margin`. -/
def capacityResizeMargin (current : U32) : U32 := max (current / 10) minCapacity

/-- `size_capacity`. -/
def sizeCapacity (clients : Nat) : U32 :=
  max (Fin.ofNat _ (max (clients + 10) ((6 * clients + 4) / 5))) minCapacity

/-- `u32::div_ceil`, on a divisor that is not zero. -/
def divCeil32 (a : U32) (n : Nat) : U32 := Fin.ofNat _ ((a.val + (n - 1)) / n)

/-- `expected_active`: half of a set sends, the rest is cover. -/
def expectedActive (set : U32) : U32 := max (divCeil32 set 2) (minCapacity / 2)

/-- `abs_diff`. -/
def absDiff {n : Nat} (a b : Fin n) : Nat := (a.val - b.val) + (b.val - a.val)

/-- `round_up_to`. -/
def roundUpTo (x : U64) (step : Nat) : U64 := x.divCeil step * Fin.ofNat _ step

/-- `AGGREGATION_THRESHOLD`. -/
def aggregationThreshold : U32 := 16

/-- `aggregator_group_count`: `min(1 + capacity/16, √capacity/2)`, at least one and at
most one a relay. -/
def aggregatorGroupCount (capacity : U32) (nRelays : Nat) : Option Nat :=
  if capacity ≤ aggregationThreshold ∨ nRelays = 0 then none
  else some (max (min (min (1 + capacity.val / 16) (Nat.sqrt capacity.val / 2)) nRelays) 1)

/-- `build_subnet_aggregation`. -/
def buildSubnetAggregation (capacity : U32) (relayVec : List Pubkey) : Option Aggregation :=
  (aggregatorGroupCount capacity relayVec.length).map (fun n => ⟨relayVec.take n⟩)

namespace SchedulerCore

/-! ## Clocks and faults -/

/-- Every observer's clock at the subnet's wall-clock round. -/
def refreshClocks (s : SchedulerCore O) (nowUnixMs : U64) : SchedulerCore O :=
  { s with observers := s.observers.mapVals (fun id o =>
      o.refreshClock (do
        let epoch ← s.epochUnixMs
        let dur ← s.subnetRoundMs.get? id
        if 0 < dur then some (roundAt epoch dur nowUnixMs) else none)) }

/-- Drop the replay marks far behind their subnet's frontier. -/
def forgetOldFaults (s : SchedulerCore O) : SchedulerCore O :=
  { s with seenIntegrityFaults := s.seenIntegrityFaults.filter (fun e =>
      match (s.observers.get? e.1).bind PublicObserver.shareFrontier with
      | some frontier => decide (frontier ≤ e.2.1.saturatingAdd (2 * faultReportRoundWindow))
      | none => true) }

/-- One observer's end of round: its faults count once its grace is over. -/
def endObserverRound (cfg : SchedulerConfig C) (round : Round) (nowUnixMs : U64)
    (s : SchedulerCore O) (id : SubnetId) : SchedulerCore O :=
  match s.observers.get? id with
  | none => s
  | some o =>
      let (o, faults) := o.endRoundFaults round
      let s := { s with observers := s.observers.insert id o }
      match s.observerGrace.get? id with
      | some g =>
          { s with observerGrace :=
              if g = 1 then s.observerGrace.erase id else s.observerGrace.insert id (g - 1) }
      | none => s.applyObservedFaults cfg faults nowUnixMs

/-- Barred relays whose backoff is over may register again. -/
def releaseOffenders (cfg : SchedulerConfig C) (s : SchedulerCore O) (nowUnixMs : U64) :
    SchedulerCore O :=
  { s with integrityOffenders := s.integrityOffenders.retain (fun _ t =>
      decide (nowUnixMs.saturatingSub t.val < cfg.params.integrityBackoffMs)) }

/-! ## Sizing -/

/-- `ANON_SET_FRESHNESS`. -/
def anonSetFreshness : Round := 4

/-- `SUBNET_SHRINK_GRACE`. -/
def subnetShrinkGrace : Nat := 3

/-- `CAPACITY_RESIZE_GRACE`. -/
def capacityResizeGrace : Nat := 3

/-- The observers whose last set is near the freshest one. -/
def freshObservers (s : SchedulerCore O) : List (PublicObserver O) :=
  match (s.observers.values.filterMap PublicObserver.anonSetRound).max? with
  | none => []
  | some freshest => s.observers.values.filter (fun o =>
      o.anonSetRound.any (fun r => decide (freshest ≤ r + anonSetFreshness)))

/-- `total`: the union of the sets that carry their members, and the sizes of the
others. -/
def totalClients (s : SchedulerCore O) : Nat :=
  let fresh := s.freshObservers
  (fresh.filterMap PublicObserver.latestClients).flatten.dedup.length +
    (fresh.map (fun o =>
      match o.latestClients with
      | some _ => 0
      | none => o.anonymitySet.getD 0)).sum

/-- `busiest`. -/
def busiest (s : SchedulerCore O) : U32 :=
  Fin.ofNat _ ((s.freshObservers.filterMap PublicObserver.anonymitySet).max?.getD 0)

/-- `demand`, capped. -/
def demandCapped (s : SchedulerCore O) : U32 :=
  min ((s.freshObservers.filterMap PublicObserver.demand).max?.getD 0) maxSubnetClients

/-- `load`. -/
def load (s : SchedulerCore O) : U32 := max (Fin.ofNat _ s.totalClients) s.demandCapped

/-- The subnet count: grow at once, shrink after a few ticks. -/
def resizeCount (cfg : SchedulerConfig C) (s : SchedulerCore O) (load : U32) :
    SchedulerCore O :=
  let growAt := cfg.params.growAt.val
  let perSubnet := load.val / max s.subnetCount 1
  let mergedPerSubnet := load.val / (max s.subnetCount 2 - 1)
  let shrinkFloor := growAt - growAt / 10
  if growAt ≤ perSubnet ∧ s.subnetCount < maxSubnets then
    let absorbing := load.val / max growAt 1 + 1
    { s with
      subnetCount := min (max absorbing s.subnetCount) maxSubnets
      shrinkStreak := 0 }
  else if 1 < s.subnetCount ∧ mergedPerSubnet ≤ shrinkFloor then
    if subnetShrinkGrace ≤ s.shrinkStreak + 1 then
      { s with subnetCount := s.subnetCount - 1, shrinkStreak := 0 }
    else { s with shrinkStreak := s.shrinkStreak + 1 }
  else { s with shrinkStreak := 0 }

/-- The capacity: grow at once when it overflows, else drift after a few ticks. -/
def resizeCapacity (cfg : SchedulerConfig C) (s : SchedulerCore O) (busiest load : U32) :
    SchedulerCore O :=
  let observed := max busiest (divCeil32 load (max s.subnetCount 1))
  let desired := min (max (sizeCapacity observed.val) cfg.params.minCapacity) maxSubnetClients
  let s :=
    if s.capacity ≤ observed then
      { s with capacity := max desired s.capacity, capacityStreak := 0 }
    else if (capacityResizeMargin s.capacity).val ≤ absDiff desired s.capacity then
      if capacityResizeGrace ≤ s.capacityStreak + 1 then
        { s with capacity := desired, capacityStreak := 0 }
      else { s with capacityStreak := s.capacityStreak + 1 }
    else { s with capacityStreak := 0 }
  { s with capacity := min s.capacity maxSubnetClients }

/-- The sizing of one tick. -/
def resize (cfg : SchedulerConfig C) (s : SchedulerCore O) : SchedulerCore O :=
  let busiest := s.busiest
  let load := s.load
  let s := (s.resizeCount cfg load).resizeCapacity cfg busiest load
  { s with scheduledVectors := s.scheduledVectors.retain (fun id _ => id.val < s.subnetCount) }

/-! ## Proposals -/

/-- `SCHED_WINDOW`. -/
def schedWindow : U64 := 8

/-- `subnet_protocols`. -/
def subnetProtocols (cfg : SchedulerConfig C) (s : SchedulerCore O) : List SchedulerProtocol :=
  List.replicate (max s.subnetCount 1) (cfg.params.pin.getD .panetiere)

/-- The vector width that carries the expected senders. -/
def baseVector (cfg : SchedulerConfig C) (s : SchedulerCore O) : U64 :=
  roundUpTo ((expectedActive s.capacity).toU64 * cfg.params.messageSize / 2) 8192

/-- One subnet of `resize_scheduled_vectors`. -/
def resizeVector (cfg : SchedulerConfig C) (s : SchedulerCore O)
    (e : SchedulerProtocol × Nat) : SchedulerCore O :=
  let id : SubnetId := Fin.ofNat _ e.2
  if e.1 ≠ .scheduledPanetiere then { s with scheduledVectors := s.scheduledVectors.erase id }
  else
    let bytes := ((s.observers.get? id).bind (·.decodedBytesRecent schedWindow)).getD 0
    let current := (s.scheduledVectors.get? id).getD 0
    let desired :=
      if 0 < cfg.params.vectorBytes then cfg.params.vectorBytes
      else min (max (roundUpTo (bytes.saturatingMul 3 / 2) 8192) (s.baseVector cfg)) maxVectorBytes
    -- past a quarter of the current width in either direction
    let next := if current = 0 ∨ current.val ≤ 4 * absDiff desired current then desired else current
    { s with scheduledVectors := s.scheduledVectors.insert id next }

/-- `resize_scheduled_vectors`. -/
def resizeScheduledVectors (cfg : SchedulerConfig C) (s : SchedulerCore O)
    (protos : List SchedulerProtocol) : SchedulerCore O :=
  protos.zipIdx.foldl (resizeVector cfg) s

/-- The relays a proposal places: the lowest keys of the registered ones. -/
def relayVec (s : SchedulerCore O) : List Pubkey := s.registered.keys.take maxCommitteeRelays

/-- The threshold the scheduler gives `n` relays. -/
def emittedThreshold (n : Nat) : U32 := Fin.ofNat _ (max (n / 2 + 1) (n - 2))

/-- `derive_seed(b"anymone/subnet-seed", ..)`. -/
def subnetSeed (C : SchedulerCrate) (relays : List Pubkey) : ByteArr 32 :=
  deriveSeed C "anymone/subnet-seed" relays

/-- The protocol of subnet `i` in a proposal. -/
def buildProtocol (cfg : SchedulerConfig C) (s : SchedulerCore O) (proto : SchedulerProtocol)
    (i : Nat) : ProtocolConfig :=
  let relays := s.relayVec
  let dur := cfg.params.publicRoundDurationMs
  match proto with
  | .panetiere => .panetiere
      { roundDurationMs := dur
        messageSize := cfg.params.messageSize
        estimatedMessages := expectedActive s.capacity
        clientSetMin := 0
        clientSetMax := s.capacity
        threshold := emittedThreshold relays.length
        setupSeed := subnetSeed C relays
        encoding := cfg.params.encoding
        setFormation := cfg.params.setFormation }
  | .scheduledPanetiere => .scheduledPanetiere
      { roundDurationMs := dur
        messageSize := cfg.params.messageSize
        vectorBytes :=
          if 0 < cfg.params.vectorBytes then cfg.params.vectorBytes
          else match (s.scheduledVectors.get? (Fin.ofNat _ i)).filter (fun v => decide (0 < v)) with
            | some v => v
            | none => min (s.baseVector cfg) maxVectorBytes
        estimatedMessages := s.capacity
        clientSetMin := 0
        clientSetMax := s.capacity
        threshold := emittedThreshold relays.length
        setupSeed := subnetSeed C relays
        setFormation := cfg.params.setFormation }
  | .scheduledAdcnet => .scheduledAdcnet
      { roundDurationMs := dur
        messageLength := roundUpTo cfg.params.messageSize 1024
        auctionSlots := expectedActive s.capacity
        minMessageSize := 1
        clientSetMin := 0
        clientSetMax := s.capacity }
  | .noop => .noop
      { roundDurationMs := dur
        messageSize := cfg.params.messageSize
        clientSetMin := 0
        clientSetMax := s.capacity }
  | .adcnet => .adcnet
      { roundDurationMs := dur
        maxPayloadBytes := cfg.params.messageSize
        estimatedMessages := expectedActive s.capacity
        clientSetMin := 0
        clientSetMax := s.capacity
        aggregation :=
          if cfg.params.aggregation then buildSubnetAggregation s.capacity relays else none }

/-- `build_body`, at a clock reading for a network without an epoch. -/
def buildBody (cfg : SchedulerConfig C) (s : SchedulerCore O) (protos : List SchedulerProtocol)
    (clockMs : U64) : C.Body :=
  let relays := s.relayVec
  -- every subnet places the same relays, so the placed ones are those of any subnet
  let placed := fun pk => !protos.isEmpty && relays.contains pk
  { round := s.publicRound
    endpoints :=
      { nodes := s.nodeRpcUrls.entries.filter (fun e => placed e.1)
        services := s.serviceDescriptorUrls.entries.filter (fun e => s.services.contains e.1) }
    epochUnixMs := s.epochUnixMs.getD clockMs
    services := s.services.entries
    relayExchangeKeys :=
      relays.filterMap (fun pk => (s.relayXpubs.get? pk).map (fun xk => (pk, xk)))
    subnets := protos.zipIdx.map (fun e =>
      { id := Fin.ofNat _ e.2
        relays := relays
        protocol := s.buildProtocol cfg e.1 e.2
        coverRate := s.coverRate
        attested := cfg.params.attestedSubnets.contains (Fin.ofNat _ e.2) })
    relayClientAddrs := s.relayClientAddrs.entries.filter (fun e => placed e.1)
    watchers := s.watchers.keys
    attestation := cfg.params.attestation }

/-- The floors below which the lead holds back.  A sidelined relay suspends the relay
floor. -/
def aboveFloors (cfg : SchedulerConfig C) (s : SchedulerCore O) : Bool :=
  (decide (cfg.params.minRelays ≤ s.registered.size) ||
      (decide (s.sidelined.size ≠ 0) && decide (s.registered.size ≠ 0))) &&
    decide (cfg.params.minServices ≤ s.services.size)

/-- The lead's proposal: a new version when the content changed, staged again until it
is published. -/
def propose (cfg : SchedulerConfig C) (s : SchedulerCore O) (clockMs : U64) :
    SchedulerCore O × List (SchedulerAction C) :=
  let protos := s.subnetProtocols cfg
  let s := s.resizeScheduledVectors cfg protos
  let s : SchedulerCore O := { s with epochUnixMs := some (s.epochUnixMs.getD clockMs) }
  let body : C.Body := { s.buildBody cfg protos clockMs with round := 0 }
  let content : Bytes := body.canonicalBytes
  let s : SchedulerCore O :=
    if s.lastContent = some content then s
    else { s with publicRound := s.publicRound + 1, lastContent := some content }
  if s.publishedRound = some s.publicRound then (s, [])
  else
    let body : C.Body := { body with round := s.publicRound }
    (s, [.stageProposal ⟨body, cfg.ourPk, C.idSign cfg.identity body.proposeBytes⟩])

/-- What a tick does before the proposal. -/
def advance (cfg : SchedulerConfig C) (s : SchedulerCore O) (round : Round) (nowUnixMs : U64) :
    SchedulerCore O :=
  let s := ({ s with curRound := round }.refreshClocks nowUnixMs).forgetOldFaults
  let s := s.observers.keys.foldl (endObserverRound cfg round nowUnixMs) s
  (s.releaseOffenders cfg nowUnixMs).resize cfg

/-- `tick`.  The lead reads the clock once more, for an epoch it has to stamp. -/
def tick (cfg : SchedulerConfig C) (s : SchedulerCore O) (round : Round) (nowUnixMs clockMs : U64) :
    SchedulerCore O × List (SchedulerAction C) :=
  let s := s.advance cfg round nowUnixMs
  if cfg.isLead && s.aboveFloors cfg then s.propose cfg clockMs else (s, [])

end SchedulerCore
end Anymone
