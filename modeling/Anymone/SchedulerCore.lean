import Anymone.ConfigBounds
import Anymone.PanetiereSession

/-! # The scheduling core of a committee member

`SchedulerCore`: what a member has seen register, which relays it holds out, how it
sizes the public subnets, and which configurations it proposes, approves and
publishes.  What a core is built with (`SchedulerConfig`) is separate from what it
changes (`SchedulerCore`), and an effect is the value before `bincode`.

The liveness observers of the public subnets are sessions of their own
(`ObserverSessions`); the core only feeds them, reads their counts and takes their
faults.
-/

namespace Anymone

/-! ## Inputs and effects -/

/-- `Registration`. -/
inductive Registration where
  | relay (pubkey : Pubkey) (exchangePubkey : ExchangePublicKeyWire)
      (clientAddr rpcUrl : Option Text) (signature : Bytes)
  | service (tag : ServiceTag) (pubkey : Pubkey) (exchangePubkey : ExchangePublicKeyWire)
      (descriptorUrl : Option Text) (signature : Bytes)
  | watcher (pubkey : Pubkey) (signature : Bytes)
  deriving DecidableEq

/-- `FaultReport`. -/
structure FaultReport where
  round : Round
  subnet : SubnetId
  reporter : Pubkey
  fault : Fault
  deriving DecidableEq

/-- `CommitteeSig`: one member's approval of a body. -/
structure CommitteeSig where
  bodyBytes : Bytes
  signer : Pubkey
  signature : Bytes
  deriving DecidableEq

/-- `SignedProposal`: a body under the lead's signature. -/
structure SignedProposal (C : SchedulerCrate) where
  body : C.Body
  proposer : Pubkey
  signature : Bytes

/-- `SchedulerAction`, before `bincode`. -/
inductive SchedulerAction (C : SchedulerCrate) where
  | stageProposal (proposal : SignedProposal C)
  /-- `Publish` on `TOPIC_COMMITTEE_SIGS`. -/
  | publishSig (sig : CommitteeSig)
  /-- `Publish` on `TOPIC_CONFIG`. -/
  | publishConfig (config : C.Config)

/-- `SchedulerParams`. -/
structure SchedulerParams (C : SchedulerCrate) where
  publicRoundDurationMs : U64
  minRelays : Nat
  minServices : Nat
  faultThreshold : U64
  growAt : U32
  messageSize : U64
  integrityBackoffMs : U64
  minCapacity : U32
  sideline : Bool
  renegotiateOnFault : Bool
  vectorBytes : U64
  pin : Option SchedulerProtocol
  aggregation : Bool
  encoding : Encoding
  setFormation : SetFormation
  attestedSubnets : List SubnetId
  attestation : C.Policy

/-- What a core is built with. -/
structure SchedulerConfig (C : SchedulerCrate) where
  identity : C.Identity
  committee : List Pubkey
  threshold : U32
  params : SchedulerParams C

namespace SchedulerConfig
variable {C : SchedulerCrate} (cfg : SchedulerConfig C)

/-- The member's own key. -/
def ourPk : Pubkey := C.pubkey cfg.identity

/-- `lead`: the lowest key of the committee. -/
def lead : Pubkey := (cfg.committee.insertionSort (· ≤ ·)).headD cfg.ourPk

/-- `is_lead`. -/
def isLead : Bool := cfg.lead == cfg.ourPk

end SchedulerConfig

/-! ## Observers -/

/-- What the core asks of an observer session. -/
structure ObserverSession where
  State : Type
  onInbound : State → Pubkey → Bytes → State
  beginRound : State → Round → State
  endRound : State → Round → State × List Fault
  /-- The highest wire round accepted so far. -/
  round : State → Option Round
  anonymitySet : State → Option Nat
  anonSetRound : State → Option Round
  shareFrontier : State → Option Round

/-- `AdcnetObserverSession` and `PanetiereObserverSession`. -/
structure ObserverSessions where
  adcnet : ObserverSession
  panetiere : ObserverSession
  /-- `AdcnetObserverSession::for_protocol`. -/
  adcnetFor : Bool → List Pubkey → Pubkey → U64 → adcnet.State
  /-- `PanetiereObserverSession::new`. -/
  panetiereNew : List Pubkey → Option Pubkey → U64 → panetiere.State
  demand : panetiere.State → Option U32
  latestClients : panetiere.State → Option (List U32)
  decodedBytesRecent : panetiere.State → U64 → U64

/-- `PublicObserver`.  The last one is `NoopWireCount`. -/
inductive PublicObserver (O : ObserverSessions) where
  | adcnet (o : O.adcnet.State)
  | panetiere (o : O.panetiere.State)
  | noop (current : OrdSet Pubkey) (last : Option (Round × Nat))

variable {C : SchedulerCrate} {O : ObserverSessions}

namespace PublicObserver

/-- `on_inbound`. -/
def onInbound (o : PublicObserver O) (sender : Pubkey) (bytes : Bytes) : PublicObserver O :=
  match o with
  | adcnet o => .adcnet (O.adcnet.onInbound o sender bytes)
  | panetiere o => .panetiere (O.panetiere.onInbound o sender bytes)
  | noop current last => .noop (current.add sender) last

/-- `end_round_faults`. -/
def endRoundFaults (o : PublicObserver O) (round : Round) : PublicObserver O × List Fault :=
  match o with
  | adcnet o =>
      let (o, faults) := O.adcnet.endRound o round
      (.adcnet o, faults)
  | panetiere o =>
      let (o, faults) := O.panetiere.endRound o round
      (.panetiere o, faults)
  | noop current last =>
      if current.size = 0 then (.noop current last, [])
      else (.noop .empty (some (round, current.size)), [])

/-- `refresh_clock`: never behind the highest wire round already accepted. -/
def refreshClock (o : PublicObserver O) (wallRound : Option Round) : PublicObserver O :=
  match o with
  | adcnet o =>
      match ((O.adcnet.round o).toList ++ wallRound.toList).max? with
      | some r => .adcnet (O.adcnet.beginRound o r)
      | none => .adcnet o
  | panetiere o =>
      match ((O.panetiere.round o).toList ++ wallRound.toList).max? with
      | some r => .panetiere (O.panetiere.beginRound o r)
      | none => .panetiere o
  | noop current last => .noop current last

/-- `anonymity_set`. -/
def anonymitySet : PublicObserver O → Option Nat
  | adcnet o => O.adcnet.anonymitySet o
  | panetiere o => O.panetiere.anonymitySet o
  | noop _ last => last.map Prod.snd

/-- `anon_set_round`. -/
def anonSetRound : PublicObserver O → Option Round
  | adcnet o => O.adcnet.anonSetRound o
  | panetiere o => O.panetiere.anonSetRound o
  | noop _ last => last.map Prod.fst

/-- `demand`. -/
def demand : PublicObserver O → Option U32
  | panetiere o => O.demand o
  | adcnet _ | noop _ _ => none

/-- `latest_clients`. -/
def latestClients : PublicObserver O → Option (List U32)
  | panetiere o => O.latestClients o
  | adcnet _ | noop _ _ => none

/-- `share_frontier`. -/
def shareFrontier : PublicObserver O → Option Round
  | adcnet o => O.adcnet.shareFrontier o
  | panetiere o => O.panetiere.shareFrontier o
  | noop _ last => last.map Prod.fst

/-- `decoded_bytes_recent`. -/
def decodedBytesRecent (o : PublicObserver O) (window : U64) : Option U64 :=
  match o with
  | panetiere o => some (O.decodedBytesRecent o window)
  | adcnet _ | noop _ _ => none

end PublicObserver

/-- `build_observer`. -/
def buildObserver (proto : SchedulerProtocol) (roster : List Pubkey) (leader : Pubkey)
    (faultThreshold : U64) : PublicObserver O :=
  match proto with
  | .adcnet => .adcnet (O.adcnetFor false roster leader faultThreshold)
  | .scheduledAdcnet => .adcnet (O.adcnetFor true roster leader faultThreshold)
  | .panetiere | .scheduledPanetiere =>
      .panetiere (O.panetiereNew roster (some leader) faultThreshold)
  | .noop => .noop .empty none

/-- `runtime::leader_of`; a roster that passed its checks is not empty. -/
def leaderOf (sortedRoster : List Pubkey) (id : SubnetId) : Option Pubkey :=
  sortedRoster[id.val % sortedRoster.length]?

/-- `runtime::round_at` from round zero. -/
def roundAt (epochUnixMs durMs nowMs : U64) : Round :=
  if nowMs ≤ epochUnixMs then 0 else (nowMs - epochUnixMs) / durMs

/-! ## State -/

/-- One subnet of `current_subnets_sig`: its id, sorted roster and kind. -/
abbrev SubnetSig := SubnetId × List Pubkey × SchedulerProtocol

/-- `SchedulerCore`, its changing part. -/
structure SchedulerCore (O : ObserverSessions) where
  lastAcceptedRound : Option Round
  curRound : Round
  seenIntegrityFaults : List (SubnetId × Round × Pubkey)
  epochUnixMs : Option U64
  registered : OrdSet Pubkey
  sidelined : OrdSet Pubkey
  integrityOffenders : OrdMap Pubkey U64
  scheduledVectors : OrdMap SubnetId U64
  services : OrdMap ServiceTag Pubkey
  relayXpubs : OrdMap Pubkey ExchangePublicKeyWire
  relayClientAddrs : OrdMap Pubkey Text
  nodeRpcUrls : OrdMap Pubkey Text
  serviceDescriptorUrls : OrdMap ServiceTag Text
  watchers : OrdSet Pubkey
  observers : OrdMap SubnetId (PublicObserver O)
  observerGrace : OrdMap SubnetId Nat
  subnetRoundMs : OrdMap SubnetId U64
  currentSubnetsSig : List SubnetSig
  subnetCount : Nat
  shrinkStreak : Nat
  capacityStreak : Nat
  capacity : U32
  /-- The bits of an `f32`. -/
  coverRate : U32
  lastContent : Option Bytes
  publicRound : Round
  publishedRound : Option Round
  /-- The approvals held, by canonical body and signer. -/
  sigs : OrdMap Bytes (OrdMap Pubkey Bytes)
  published : OrdSet Bytes

namespace SchedulerCore

/-- `SchedulerCore::new`. -/
def new (cfg : SchedulerConfig C) : SchedulerCore O where
  lastAcceptedRound := none
  curRound := 0
  seenIntegrityFaults := []
  epochUnixMs := none
  registered := .empty
  sidelined := .empty
  integrityOffenders := .empty
  scheduledVectors := .empty
  services := .empty
  relayXpubs := .empty
  relayClientAddrs := .empty
  nodeRpcUrls := .empty
  serviceDescriptorUrls := .empty
  watchers := .empty
  observers := .empty
  observerGrace := .empty
  subnetRoundMs := .empty
  currentSubnetsSig := []
  subnetCount := 1
  shrinkStreak := 0
  capacityStreak := 0
  capacity := max cfg.params.minCapacity initialCapacity
  coverRate := 0x3f800000
  lastContent := none
  publicRound := 0
  publishedRound := none
  sigs := .empty
  published := .empty

/-- `set_cover_rate`: clamped to the unit interval, on the bits; a NaN and minus zero
stay. -/
def setCoverRate (s : SchedulerCore O) (rate : U32) : SchedulerCore O :=
  { s with coverRate :=
      if 0x3f800000 < rate.val ∧ rate.val ≤ 0x7f800000 then 0x3f800000
      else if 0x80000000 < rate.val ∧ rate.val ≤ 0xff800000 then 0
      else rate }

/-! ## Registrations and faults -/

/-- A map entry that the latest registration states or takes back. -/
def restate {K V : Type} [LinearOrder K] (m : OrdMap K V) (k : K) : Option V → OrdMap K V
  | some v => m.insert k v
  | none => m.erase k

/-- `on_registration`. -/
def onRegistration (s : SchedulerCore O) : Registration → SchedulerCore O
  | .watcher pubkey _ => { s with watchers := s.watchers.add pubkey }
  | .relay pubkey exchangePubkey clientAddr rpcUrl _ =>
      if s.integrityOffenders.contains pubkey then s
      else { s with
        sidelined := s.sidelined.erase pubkey
        registered := s.registered.add pubkey
        nodeRpcUrls := restate s.nodeRpcUrls pubkey rpcUrl
        relayXpubs := s.relayXpubs.insert pubkey exchangePubkey
        relayClientAddrs := restate s.relayClientAddrs pubkey clientAddr }
  | .service tag pubkey _ descriptorUrl _ =>
      { s with
        serviceDescriptorUrls := restate s.serviceDescriptorUrls tag descriptorUrl
        services := s.services.insert tag pubkey }

/-- `on_subnet_message`. -/
def onSubnetMessage (s : SchedulerCore O) (subnet : SubnetId) (sender : Pubkey) (bytes : Bytes) :
    SchedulerCore O :=
  match s.observers.get? subnet with
  | some o => { s with observers := s.observers.insert subnet (o.onInbound sender bytes) }
  | none => s

/-- One relay a fault names: dropped from the roster, and barred for an integrity
fault. -/
def sidelineOne (nowUnixMs : U64) (integrity : Bool) (s : SchedulerCore O) (pk : Pubkey) :
    SchedulerCore O :=
  { s with
    registered := s.registered.erase pk
    sidelined := s.sidelined.add pk
    integrityOffenders :=
      if integrity then s.integrityOffenders.insert pk nowUnixMs else s.integrityOffenders }

/-- One observed fault. -/
def applyFault (nowUnixMs : U64) (s : SchedulerCore O) (fault : Fault) : SchedulerCore O :=
  match fault.attribution with
  | .peers pks => pks.foldl (sidelineOne nowUnixMs (fault.kind = .integrity)) s
  | .none => s

/-- `apply_observed_faults`. -/
def applyObservedFaults (cfg : SchedulerConfig C) (s : SchedulerCore O) (faults : List Fault)
    (nowUnixMs : U64) : SchedulerCore O :=
  if cfg.params.renegotiateOnFault && cfg.params.sideline then
    faults.foldl (applyFault nowUnixMs) s
  else s

/-- `FAULT_REPORT_ROUND_WINDOW`. -/
def faultReportRoundWindow : Nat := 32

/-- Whether a report's round is near its subnet's share frontier. -/
def reportInWindow (s : SchedulerCore O) (report : FaultReport) : Bool :=
  match (s.observers.get? report.subnet).bind PublicObserver.shareFrontier with
  | some frontier =>
      decide (frontier ≤ report.round.saturatingAdd faultReportRoundWindow) &&
        decide (report.round ≤ frontier.saturatingAdd faultReportRoundWindow)
  | none => true

end SchedulerCore

/-- `server_public_consistent`; `true` when the wire cannot be reconstructed. -/
def serverPublicConsistent (C : SchedulerCrate) (aggOpen aggShare : Bytes) : Bool :=
  match C.packedOpeningFromBytes aggOpen with
  | none => true
  | some packed =>
      match C.openingFromPacked packed with
      | none => true
      | some opening =>
          match C.unpackCsShares aggShare (C.muCs packed) with
          | some share => C.sharesOpen share opening
          | none => true

/-- `integrity_culprit_from_evidence`. -/
def integrityCulpritFromEvidence (C : SchedulerCrate) (evidence : Bytes) (roster : List Pubkey) :
    Option Pubkey :=
  match PanetiereWire.deserialize evidence with
  | some (.serverPublic round serverId clients aggOpen aggShare shareSum laneOpen signature) => do
      let culprit ← roster[serverId.val]?
      if !C.pubkeyVerify culprit
          (serverPublicSigningBytes round serverId clients aggOpen aggShare shareSum laneOpen)
          signature then none
      else if !serverPublicConsistent C aggOpen aggShare then some culprit
      else none
  | _ => none

namespace SchedulerCore

/-- The relay a report proves guilty: from the subnet's own roster, in its window, and
named by the report as by the evidence. -/
def reportCulprit (C : SchedulerCrate) (s : SchedulerCore O) (sender : Pubkey)
    (report : FaultReport) : Option Pubkey :=
  if report.fault.kind ≠ .integrity then none
  else match s.currentSubnetsSig.find? (fun e => e.1 = report.subnet) with
    | none => none
    | some (_, roster, _) =>
        if roster.contains sender && s.reportInWindow report then do
          let culprit ← integrityCulpritFromEvidence C report.fault.evidence roster
          if report.fault.attribution = .peers [culprit] then some culprit else none
        else none

/-- `on_fault_report`. -/
def onFaultReport (cfg : SchedulerConfig C) (s : SchedulerCore O) (sender : Pubkey)
    (report : FaultReport) (nowUnixMs : U64) : SchedulerCore O :=
  match s.reportCulprit C sender report with
  | none => s
  | some culprit =>
      if s.seenIntegrityFaults.contains (report.subnet, report.round, culprit) then s
      else
        applyObservedFaults cfg
          { s with seenIntegrityFaults :=
              (report.subnet, report.round, culprit) :: s.seenIntegrityFaults }
          [report.fault] nowUnixMs

/-! ## Learning a configuration -/

/-- `OBSERVER_FAULT_GRACE`. -/
def observerFaultGrace : Nat := 3

/-- The signature of one subnet: its roster sorted. -/
def subnetSig (s : Subnet) : SubnetSig :=
  (s.id, s.relays.insertionSort (· ≤ ·), s.protocol.protoKind)

/-- The observers while a new subnet set is taken over: those of the old set not yet
taken, those of the new set, and the grace counters. -/
structure Takeover (O : ObserverSessions) where
  old : OrdMap SubnetId (PublicObserver O)
  observers : OrdMap SubnetId (PublicObserver O)
  grace : OrdMap SubnetId Nat

/-- One subnet of the new set: an unchanged one keeps its observer, any other gets a
fresh one with its grace. -/
def takeOver (prev : OrdMap SubnetId (List Pubkey × SchedulerProtocol)) (faultThreshold : U64)
    (t : Takeover O) : SubnetSig → Takeover O
  | (id, roster, proto) =>
      let kept := if prev.get? id = some (roster, proto) then t.old.get? id else none
      match kept with
      | some o => { t with old := t.old.erase id, observers := t.observers.insert id o }
      | none =>
          match (leaderOf roster id).map (buildObserver proto roster · faultThreshold) with
          | some o =>
              { t with
                observers := t.observers.insert id o
                grace := t.grace.insert id observerFaultGrace }
          | none => t

/-- The observers for a new subnet set. -/
def rebuildObservers (cfg : SchedulerConfig C) (s : SchedulerCore O) (sig : List SubnetSig) :
    SchedulerCore O :=
  let prev := OrdMap.empty.insertAll s.currentSubnetsSig
  let t := sig.foldl (takeOver prev cfg.params.faultThreshold) ⟨s.observers, .empty, s.observerGrace⟩
  { s with
    observers := t.observers
    observerGrace := t.grace.retain (fun id _ => sig.any (fun e => e.1 = id))
    currentSubnetsSig := sig }

/-- `learn_config`. -/
def learnConfig (cfg : SchedulerConfig C) (s : SchedulerCore O) (body : C.Body) :
    SchedulerCore O :=
  let s := { s with
    epochUnixMs := some body.epochUnixMs
    subnetRoundMs :=
      OrdMap.empty.insertAll (body.subnets.map (fun s => (s.id, s.protocol.roundDurationMs))) }
  let sig := body.subnets.map subnetSig
  if sig = s.currentSubnetsSig then s else rebuildObservers cfg s sig

/-! ## Approval -/

/-- The higher of a counter that may not be set and a round. -/
def raise (last : Option Round) (r : Round) : Option Round := some (max (last.getD 0) r)

/-- The approvals of a body, with one more recorded. -/
def recordSig (sigs : OrdMap Bytes (OrdMap Pubkey Bytes)) (canonical : Bytes) (signer : Pubkey)
    (signature : Bytes) : OrdMap Bytes (OrdMap Pubkey Bytes) :=
  sigs.insert canonical (((sigs.get? canonical).getD .empty).insert signer signature)

/-- `try_assemble`. -/
def tryAssemble (cfg : SchedulerConfig C) (s : SchedulerCore O) (body : C.Body) :
    SchedulerCore O × Option (SchedulerAction C) :=
  let canonical := body.canonicalBytes
  if s.published.contains canonical then (s, none)
  else match s.sigs.get? canonical with
    | none => (s, none)
    | some entry =>
        if entry.size < cfg.threshold.val then (s, none)
        else
          let config : C.Config := ⟨body, entry.entries.map (fun e => ⟨e.1, e.2⟩)⟩
          if !verifyMultisig cfg.committee cfg.threshold config then (s, none)
          else
            ({ s with
                published := s.published.add canonical
                publishedRound := raise s.publishedRound body.round },
              some (.publishConfig config))

/-- `exchange_keys_match`. -/
def exchangeKeysMatch (s : SchedulerCore O) (keys : List (Pubkey × ExchangePublicKeyWire)) :
    Bool :=
  keys.all (fun e => decide (s.relayXpubs.get? e.1 = some e.2))

/-- `aggregation_valid`: every aggregator is a registered relay. -/
def aggregationValid (s : SchedulerCore O) (agg : Option Aggregation) : Bool :=
  aggregationStructuralOk agg &&
    match agg with
    | none => true
    | some a => a.groups.all s.registered.contains

/-- The endpoints are the registered ones, of relays and services the body lists. -/
def endpointsMatch (s : SchedulerCore O) (body : C.Body) : Bool :=
  body.endpoints.nodes.all (fun e =>
      decide (s.nodeRpcUrls.get? e.1 = some e.2) &&
        body.relayExchangeKeys.any (fun k => k.1 = e.1)) &&
    body.endpoints.services.all (fun e =>
      decide (s.serviceDescriptorUrls.get? e.1 = some e.2) &&
        body.services.any (fun k => k.1 = e.1))

/-- What `validate_body` asks of one subnet. -/
def validateSubnet (cfg : SchedulerConfig C) (s : SchedulerCore O) (subnet : Subnet) : Bool :=
  subnet.attested == cfg.params.attestedSubnets.contains subnet.id &&
    subnet.relays.all s.registered.contains &&
    match subnet.protocol with
    | .adcnet c => s.aggregationValid c.aggregation
    | .noop _ | .panetiere _ | .scheduledPanetiere _ | .scheduledAdcnet _ => true

/-- `validate_body`. -/
def validateBody (cfg : SchedulerConfig C) (s : SchedulerCore O) (body : C.Body) : Bool :=
  validateStructure body &&
    s.epochUnixMs.all (fun known => known = body.epochUnixMs) &&
    body.services.all (fun e => decide (s.services.get? e.1 = some e.2)) &&
    s.endpointsMatch body &&
    s.exchangeKeysMatch body.relayExchangeKeys &&
    C.policyEq body.attestation cfg.params.attestation &&
    body.subnets.all (s.validateSubnet cfg)

/-- `MAX_ROUND_ADVANCE`. -/
def maxRoundAdvance : Nat := 8

/-- The highest round the member has established. -/
def established (s : SchedulerCore O) : Round :=
  max (max (s.lastAcceptedRound.getD 0) s.publicRound) (s.publishedRound.getD 0)

/-- The four checks before a proposal is signed: the lead's signature, freshness,
reachability and content. -/
def accepts (cfg : SchedulerConfig C) (s : SchedulerCore O) (proposal : SignedProposal C) : Bool :=
  decide (proposal.proposer = cfg.lead) &&
    C.pubkeyVerify proposal.proposer proposal.body.proposeBytes proposal.signature &&
    s.lastAcceptedRound.all (fun last => decide (last ≤ proposal.body.round)) &&
    decide (proposal.body.round ≤ s.established.saturatingAdd maxRoundAdvance) &&
    s.validateBody cfg proposal.body

/-- The member's approval of a body. -/
def approval (cfg : SchedulerConfig C) (body : C.Body) : CommitteeSig :=
  ⟨body.canonicalBytes, cfg.ourPk, C.idSign cfg.identity body.approveBytes⟩

/-- The state once a proposal is signed and learned. -/
def approve (cfg : SchedulerConfig C) (s : SchedulerCore O) (body : C.Body) : SchedulerCore O :=
  let sig := approval cfg body
  learnConfig cfg
    { s with
      lastAcceptedRound := raise s.lastAcceptedRound body.round
      sigs := recordSig s.sigs sig.bodyBytes sig.signer sig.signature }
    body

/-- `on_decoded_body`. -/
def onDecodedBody (cfg : SchedulerConfig C) (s : SchedulerCore O) (proposal : SignedProposal C) :
    SchedulerCore O × List (SchedulerAction C) :=
  if !s.accepts cfg proposal then (s, [])
  else
    let (s, published) := (s.approve cfg proposal.body).tryAssemble cfg proposal.body
    (s, .publishSig (approval cfg proposal.body) :: published.toList)

/-- `on_committee_sig`. -/
def onCommitteeSig (cfg : SchedulerConfig C) (s : SchedulerCore O) (sig : CommitteeSig) :
    SchedulerCore O × List (SchedulerAction C) :=
  if !cfg.committee.contains sig.signer then (s, [])
  else match AnymoneRoundConfigurationBody.fromCanonicalBytes (C := C) sig.bodyBytes with
    | none => (s, [])
    | some body =>
        if !C.pubkeyVerify sig.signer body.approveBytes sig.signature then (s, [])
        else
          let s := { s with sigs := recordSig s.sigs sig.bodyBytes sig.signer sig.signature }
          let (s, published) := s.tryAssemble cfg body
          (s, published.toList)

/-- `on_published_config`. -/
def onPublishedConfig (cfg : SchedulerConfig C) (s : SchedulerCore O) (config : C.Config) :
    SchedulerCore O × Bool :=
  if !verifyMultisig cfg.committee cfg.threshold config then (s, false)
  else if !validateStructure config.body then (s, false)
  else
    let r := config.body.round
    (learnConfig cfg
      { s with
        lastAcceptedRound := raise s.lastAcceptedRound r
        publicRound := max s.publicRound r
        publishedRound := raise s.publishedRound r
        published := s.published.add config.body.canonicalBytes }
      config.body, true)

end SchedulerCore
end Anymone
