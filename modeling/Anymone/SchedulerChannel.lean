import Anymone.SchedulerReports
import Mathlib.Algebra.Order.BigOperators.Group.List
import Mathlib.Algebra.Order.Group.Nat

/-! # Proposals and the committee channel

A staged proposal travels through the committee's own anonymising channel, which
carries a fixed number of bytes and drops what is longer.  The length of a proposal is
a sum over the lists of its body.  The relays a proposal places and the subnets are
capped, and an endpoint is at most 2048 bytes long; the services, the watchers and the
addresses clients dial are bounded by nothing.
-/

namespace Anymone
variable {C : SchedulerCrate} {O : ObserverSessions}

/-! ## Registrations -/

/-- `valid_endpoint`. -/
def validEndpoint : Option Text → Bool
  | none => true
  | some url =>
      decide (url.length ≤ 2048) &&
        ((ascii "https://").isPrefixOf url || (ascii "http://").isPrefixOf url)

namespace Registration

/-- `relay_sign_msg`. -/
def relaySignMsg (pubkey : Pubkey) (xk : ExchangePublicKeyWire) (clientAddr rpcUrl : Option Text) :
    Bytes :=
  ascii "anymone-relay" ++ pubkey.1 ++ xk.ecdh ++ xk.kem ++ xk.setSig ++
    (Bincode.pair (Bincode.option (Bincode.bytes .little))
      (Bincode.option (Bincode.bytes .little))).write (clientAddr, rpcUrl)

/-- `watcher_sign_msg`. -/
def watcherSignMsg (pubkey : Pubkey) : Bytes := ascii "anymone-watcher" ++ pubkey.1

/-- `service_sign_msg`. -/
def serviceSignMsg (tag : ServiceTag) (pubkey : Pubkey) (xk : ExchangePublicKeyWire)
    (descriptorUrl : Option Text) : Bytes :=
  ascii "anymone-service" ++ tag.1 ++ pubkey.1 ++ xk.ecdh ++ xk.kem ++ xk.setSig ++
    (Bincode.option (Bincode.bytes .little)).write descriptorUrl

/-- `verify`. -/
def verify (C : SchedulerCrate) : Registration → Bool
  | relay pubkey xk clientAddr rpcUrl signature =>
      validEndpoint rpcUrl &&
        C.pubkeyVerify pubkey (relaySignMsg pubkey xk clientAddr rpcUrl) signature
  | service tag pubkey xk descriptorUrl signature =>
      validEndpoint descriptorUrl &&
        C.pubkeyVerify pubkey (serviceSignMsg tag pubkey xk descriptorUrl) signature
  | watcher pubkey signature => C.pubkeyVerify pubkey (watcherSignMsg pubkey) signature

end Registration

/-! ## The length of a body -/

/-- `COMMITTEE_MSG_BYTES`. -/
def committeeMsgBytes : Nat := 36864

/-- An exchange key: three byte strings. -/
def ExchangePublicKeyWire.serializedLen (xk : ExchangePublicKeyWire) : Nat :=
  24 + xk.ecdh.length + xk.kem.length + xk.setSig.length

/-- The aggregators of a subnet. -/
def Aggregation.serializedLen (a : Aggregation) : Nat := 8 + 32 * a.groups.length

/-- A protocol, with its variant number. -/
def ProtocolConfig.serializedLen : ProtocolConfig → Nat
  | noop _ => 28
  | panetiere _ => 76
  | scheduledPanetiere _ => 80
  | adcnet c => 33 + (c.aggregation.map Aggregation.serializedLen).getD 0
  | scheduledAdcnet _ => 36

/-- A subnet. -/
def Subnet.serializedLen (s : Subnet) : Nat :=
  17 + 32 * s.relays.length + s.protocol.serializedLen

theorem length_exchangeKey (xk : ExchangePublicKeyWire) :
    (ConfigFormat.exchangeKey.write xk).length = xk.serializedLen := by
  simp only [ConfigFormat.exchangeKey, ConfigFormat.text, Bincode.length_write_iso,
    Bincode.length_write_pair, Bincode.length_write_bytes, ExchangePublicKeyWire.serializedLen]
  omega

theorem length_keys (pks : List Pubkey) :
    ((Bincode.list .big ConfigFormat.key).write pks).length = 8 + 32 * pks.length := by
  simp [ConfigFormat.key, Nat.mul_comm]

theorem length_protocol (protocol : ProtocolConfig) :
    ((Bincode.tagged .big ConfigFormat.protocolTag ConfigFormat.protocolVariants).write
      protocol).length = protocol.serializedLen := by
  cases protocol with
  | noop c =>
    rw [Bincode.length_write_tagged .big (f := _) rfl]
    show 4 + (ConfigFormat.noop.write c).length = _
    simp [ConfigFormat.noop, ConfigFormat.long, ConfigFormat.word, ProtocolConfig.serializedLen]
  | panetiere c =>
    rw [Bincode.length_write_tagged .big (f := _) rfl]
    show 4 + (ConfigFormat.panetiere.write c).length = _
    simp [ConfigFormat.panetiere, ConfigFormat.long, ConfigFormat.word, ConfigFormat.encoding,
      ConfigFormat.setFormation, ProtocolConfig.serializedLen]
  | scheduledPanetiere c =>
    rw [Bincode.length_write_tagged .big (f := _) rfl]
    show 4 + (ConfigFormat.scheduledPanetiere.write c).length = _
    simp [ConfigFormat.scheduledPanetiere, ConfigFormat.long, ConfigFormat.word,
      ConfigFormat.setFormation, ProtocolConfig.serializedLen]
  | adcnet c =>
    rw [Bincode.length_write_tagged .big (f := _) rfl]
    show 4 + (ConfigFormat.adcnet.write c).length = _
    cases hagg : c.aggregation with
    | none =>
      simp [ConfigFormat.adcnet, ConfigFormat.long, ConfigFormat.word, hagg,
        ProtocolConfig.serializedLen]
    | some a =>
      simp [ConfigFormat.adcnet, ConfigFormat.aggregation, ConfigFormat.long, ConfigFormat.word,
        hagg, ProtocolConfig.serializedLen, Aggregation.serializedLen, ConfigFormat.key]
      omega
  | scheduledAdcnet c =>
    rw [Bincode.length_write_tagged .big (f := _) rfl]
    show 4 + (ConfigFormat.scheduledAdcnet.write c).length = _
    simp [ConfigFormat.scheduledAdcnet, ConfigFormat.long, ConfigFormat.word,
      ProtocolConfig.serializedLen]

theorem length_subnet (s : Subnet) : (ConfigFormat.subnet.write s).length = s.serializedLen := by
  simp only [ConfigFormat.subnet, ConfigFormat.word, Bincode.length_write_iso,
    Bincode.length_write_pair, Bincode.length_write_u32, Bincode.length_write_bool, length_keys,
    length_protocol, Subnet.serializedLen]
  omega

/-- **The length of a body**: what each of its lists adds. -/
theorem AnymoneRoundConfigurationBody.length_canonicalBytes (body : C.Body) :
    body.canonicalBytes.length =
      72 + (C.policyFormat.write body.attestation).length +
        (body.endpoints.nodes.map (fun e => 40 + e.2.length)).sum +
        (body.endpoints.services.map (fun e => 28 + e.2.length)).sum +
        52 * body.services.length +
        (body.relayExchangeKeys.map (fun e => 32 + e.2.serializedLen)).sum +
        (body.subnets.map Subnet.serializedLen).sum +
        (body.relayClientAddrs.map (fun e => 40 + e.2.length)).sum +
        32 * body.watchers.length := by
  have hkeys : ∀ e : Pubkey × ExchangePublicKeyWire,
      ((Bincode.pair (Bincode.array 32) ConfigFormat.exchangeKey).write e).length =
        32 + e.2.serializedLen := by
    intro e
    rw [Bincode.length_write_pair, length_exchangeKey, Bincode.length_write_array]
  have htexts : ∀ {n : Nat} (l : List (ByteArr n × Text)),
      ((Bincode.list .big (Bincode.pair (Bincode.array n) ConfigFormat.text)).write l).length =
        8 + (l.map (fun e => n + 8 + e.2.length)).sum := by
    intro n l
    simp [ConfigFormat.text, Nat.add_assoc]
  have hservices : ((Bincode.list .big (Bincode.pair (Bincode.array 20) ConfigFormat.key)).write
      body.services).length = 8 + 52 * body.services.length := by
    simp [ConfigFormat.key, Nat.mul_comm]
  have hnodes : ((Bincode.list .big (Bincode.pair ConfigFormat.key ConfigFormat.text)).write
      body.endpoints.nodes).length =
        8 + (body.endpoints.nodes.map (fun e => 40 + e.2.length)).sum := htexts _
  have hends : ((Bincode.list .big (Bincode.pair (Bincode.array 20) ConfigFormat.text)).write
      body.endpoints.services).length =
        8 + (body.endpoints.services.map (fun e => 28 + e.2.length)).sum := htexts _
  have haddrs : ((Bincode.list .big (Bincode.pair ConfigFormat.key ConfigFormat.text)).write
      body.relayClientAddrs).length =
        8 + (body.relayClientAddrs.map (fun e => 40 + e.2.length)).sum := htexts _
  have hsubnets : ((Bincode.list .big ConfigFormat.subnet).write body.subnets).length =
      8 + (body.subnets.map Subnet.serializedLen).sum := by
    simp [length_subnet]
  have hxks : ((Bincode.list .big (Bincode.pair ConfigFormat.key ConfigFormat.exchangeKey)).write
      body.relayExchangeKeys).length =
        8 + (body.relayExchangeKeys.map (fun e => 32 + e.2.serializedLen)).sum := by
    rw [Bincode.length_write_list]
    exact congrArg (fun f => 8 + (body.relayExchangeKeys.map f).sum) (funext hkeys)
  unfold canonicalBytes ConfigFormat.body
  simp only [ConfigFormat.endpoints, Bincode.length_write_iso, Bincode.length_write_pair,
    hservices, length_keys, hsubnets, hxks, hnodes, hends, haddrs, ConfigFormat.long,
    Bincode.length_write_u64]
  omega

/-- The length of `bincode::serialize` of a proposal: its body in the widths of the
canonical bytes, the proposer, and the signature under its length. -/
def SignedProposal.serializedLen (proposal : SignedProposal C) : Nat :=
  proposal.body.canonicalBytes.length + 32 + (8 + proposal.signature.length)

namespace SchedulerCore
variable {cfg : SchedulerConfig C} {s s' : SchedulerCore O}

/-! ## The length of a staged proposal -/

/-- The protocol of every subnet the state proposes. -/
def protocolLen (cfg : SchedulerConfig C) (s : SchedulerCore O) : Nat :=
  match cfg.params.pin.getD .panetiere with
  | .noop => 28
  | .panetiere => 76
  | .scheduledPanetiere => 80
  | .scheduledAdcnet => 36
  | .adcnet =>
      if cfg.params.aggregation then
        match aggregatorGroupCount s.capacity s.relayVec.length with
        | some groups => 41 + 32 * min groups s.relayVec.length
        | none => 33
      else 33

/-- **What a body takes up**, from what the core holds: the endpoints, keys and addresses
of the relays it places, every described service, every service, every watcher, and a
roster for every subnet. -/
def bodyLen (cfg : SchedulerConfig C) (s : SchedulerCore O) (subnets : Nat) : Nat :=
  72 + (C.policyFormat.write cfg.params.attestation).length +
    ((s.nodeRpcUrls.entries.filter (fun e => s.relayVec.contains e.1)).map
      (fun e => 40 + e.2.length)).sum +
    ((s.serviceDescriptorUrls.entries.filter (fun e => s.services.contains e.1)).map
      (fun e => 28 + e.2.length)).sum +
    52 * s.services.size +
    ((s.relayVec.filterMap s.relayXpubs.get?).map (fun xk => 32 + xk.serializedLen)).sum +
    subnets * (17 + 32 * s.relayVec.length + s.protocolLen cfg) +
    ((s.relayClientAddrs.entries.filter (fun e => s.relayVec.contains e.1)).map
      (fun e => 40 + e.2.length)).sum +
    32 * s.watchers.size

/-- A proposal adds the lead's key and signature to its body. -/
def proposalLen (cfg : SchedulerConfig C) (s : SchedulerCore O) (sigLen : Nat) : Nat :=
  s.bodyLen cfg (max s.subnetCount 1) + 40 + sigLen

theorem serializedLen_buildProtocol (s : SchedulerCore O) (i : Nat) :
    (s.buildProtocol cfg (cfg.params.pin.getD .panetiere) i).serializedLen = s.protocolLen cfg := by
  unfold protocolLen
  cases cfg.params.pin.getD .panetiere with
  | adcnet =>
    simp only [buildProtocol, ProtocolConfig.serializedLen, buildSubnetAggregation]
    split
    · cases aggregatorGroupCount s.capacity s.relayVec.length with
      | none => rfl
      | some groups =>
        simp only [Option.map_some, Option.getD_some, Aggregation.serializedLen, List.length_take]
        omega
    · rfl
  | panetiere | scheduledPanetiere | noop | scheduledAdcnet => rfl

/-- Sizing the vectors changes the vectors only. -/
theorem resizeScheduledVectors_eq (cfg : SchedulerConfig C) (protos : List SchedulerProtocol)
    (s : SchedulerCore O) :
    ∃ vectors, s.resizeScheduledVectors cfg protos = { s with scheduledVectors := vectors } := by
  unfold resizeScheduledVectors
  generalize protos.zipIdx = l
  induction l generalizing s with
  | nil => exact ⟨s.scheduledVectors, rfl⟩
  | cons e l ih =>
    obtain ⟨vectors, h⟩ : ∃ vectors, s.resizeVector cfg e = { s with scheduledVectors := vectors } := by
      unfold resizeVector
      dsimp only
      split
      · exact ⟨_, rfl⟩
      · exact ⟨_, rfl⟩
    rw [List.foldl_cons, h]
    exact ih _

theorem length_buildBody (s : SchedulerCore O) (n : Nat) (round : Round) (clock : U64) :
    (AnymoneRoundConfigurationBody.canonicalBytes (C := C)
      { s.buildBody cfg (List.replicate (n + 1) (cfg.params.pin.getD .panetiere)) clock with
        round := round }).length = s.bodyLen cfg (n + 1) := by
  rw [AnymoneRoundConfigurationBody.length_canonicalBytes]
  have hkeys : ((s.relayVec.filterMap
      (fun pk => (s.relayXpubs.get? pk).map (fun xk => (pk, xk)))).map
        (fun e => 32 + e.2.serializedLen)).sum =
      ((s.relayVec.filterMap s.relayXpubs.get?).map (fun xk => 32 + xk.serializedLen)).sum := by
    rw [List.map_filterMap, List.map_filterMap]
    simp only [Option.map_map]
    rfl
  have hsubnets : (((s.buildBody cfg (List.replicate (n + 1)
      (cfg.params.pin.getD .panetiere)) clock).subnets).map Subnet.serializedLen).sum =
      (n + 1) * (17 + 32 * s.relayVec.length + s.protocolLen cfg) := by
    rw [List.sum_eq_card_nsmul _ (17 + 32 * s.relayVec.length + s.protocolLen cfg)]
    · simp [buildBody]
    · intro len hlen
      obtain ⟨subnet, hsubnet, rfl⟩ := List.mem_map.mp hlen
      obtain ⟨⟨proto, i⟩, hproto, rfl⟩ := List.mem_map.mp hsubnet
      have hpin : proto = cfg.params.pin.getD .panetiere :=
        List.eq_of_mem_replicate (List.fst_mem_of_mem_zipIdx hproto)
      subst hpin
      show 17 + 32 * s.relayVec.length + (s.buildProtocol cfg _ i).serializedLen = _
      rw [serializedLen_buildProtocol]
  rw [hsubnets]
  simp only [buildBody, List.replicate_succ, List.isEmpty_cons, Bool.not_false, Bool.true_and, hkeys]
  unfold bodyLen OrdMap.size OrdMap.keys
  rw [List.length_map]

/-- A staged proposal is as long as the state says. -/
theorem serializedLen_staged {proposal : SignedProposal C} {clock : U64} {sigLen : Nat}
    (hsig : ∀ m, (C.idSign cfg.identity m).length = sigLen)
    (h : .stageProposal proposal ∈ (s.propose cfg clock).2) :
    proposal.serializedLen = s.proposalLen cfg sigLen := by
  obtain ⟨vectors, hvectors⟩ := resizeScheduledVectors_eq cfg (s.subnetProtocols cfg) s
  obtain ⟨n, hn⟩ : ∃ n, max s.subnetCount 1 = n + 1 := ⟨max s.subnetCount 1 - 1, by omega⟩
  have hprimed : (s.primed cfg clock).bodyLen cfg (n + 1) = s.bodyLen cfg (n + 1) := by
    unfold primed
    rw [hvectors]
    rfl
  have hbody : (AnymoneRoundConfigurationBody.canonicalBytes (C := C)
      { s.nextBody cfg clock with round := (s.settled cfg clock).publicRound }).length =
        s.bodyLen cfg (n + 1) := by
    unfold nextBody subnetProtocols
    rw [hn, ← hprimed]
    exact length_buildBody (s.primed cfg clock) n _ clock
  rw [staged_eq h]
  unfold SignedProposal.serializedLen proposalOf proposalLen
  dsimp only
  rw [hsig, hn, hbody]
  omega

/-- **A staged proposal fits the committee channel exactly when what the lead holds
does.**  The relays placed are at most `maxCommitteeRelays` and the subnets at most
`maxSubnets`; nothing bounds the services, the watchers, the addresses or the keys. -/
theorem staged_proposal_fits_iff (ops : List (SchedulerOp C)) (round : Round) (now clock : U64)
    (proposal : SignedProposal C) (sigLen : Nat)
    (hsig : ∀ m, (C.idSign cfg.identity m).length = sigLen)
    (h : .stageProposal proposal ∈ (after O cfg ops).actions cfg (.tick round now clock)) :
    proposal.serializedLen ≤ committeeMsgBytes ↔
      ((after O cfg ops).advance cfg round now).proposalLen cfg sigLen ≤ committeeMsgBytes := by
  obtain ⟨round', now', clock', hop, -, -, hstage⟩ := tick_of_stageProposal h
  cases hop
  rw [serializedLen_staged hsig hstage]

theorem length_toySign (pk : Pubkey) (m : Bytes) : (toySign pk m).length = 32 :=
  (toyHash (pk.1 ++ m)).2

/-- Relay 9 registers an address, under its signature. -/
def signedRelay (addr : Text) : Registration :=
  .relay (toyNode 9) toyExchangeKeys (some addr) none
    (toySign (toyNode 9) (Registration.relaySignMsg (toyNode 9) toyExchangeKeys (some addr) none))

/-- A service registers. -/
def signedService : Registration :=
  .service (.filled 20 0) (toyNode 8) toyExchangeKeys none
    (toySign (toyNode 8) (Registration.serviceSignMsg (.filled 20 0) (toyNode 8)
      toyExchangeKeys none))

/-- The lead has one relay and one service. -/
def addressedRun (addr : Text) : List (SchedulerOp toyScheduler) :=
  [.registration (signedRelay addr), .registration signedService]

/-- A lead above its floors that has seen nothing published stages a proposal. -/
theorem stages_of_unpublished (cfg : SchedulerConfig C) (s : SchedulerCore O) (round : Round)
    (now clock : U64) (hlead : cfg.isLead = true)
    (hfloors : (s.advance cfg round now).aboveFloors cfg = true) (hnone : s.publishedRound = none) :
    ∃ proposal, .stageProposal proposal ∈ s.actions cfg (.tick round now clock) := by
  have hversions : ((s.advance cfg round now).settled cfg clock).publishedRound = none := by
    have hquiet := congrArg Versions.publishedRound (quiet_advance cfg s round now).versions
    have hprimed := congrArg Versions.publishedRound
      ((s.advance cfg round now).versions_primed cfg clock)
    unfold settled
    dsimp only
    split
    · exact hprimed.trans (hquiet.trans hnone)
    · exact hprimed.trans (hquiet.trans hnone)
  simp only [actions, tick, hlead, hfloors, Bool.and_self, if_true, propose_eq, hversions]
  exact ⟨_, List.mem_singleton_self _⟩

theorem verify_signedRelay (addr : Text) : (signedRelay addr).verify toyScheduler = true :=
  decide_eq_true rfl

/-- A proposal is longer than any address it carries. -/
theorem length_lt_proposalLen (cfg : SchedulerConfig C) {pk : Pubkey} {addr : Text} (sigLen : Nat)
    (haddr : s.relayClientAddrs.get? pk = some addr) (hpk : s.relayVec.contains pk = true) :
    addr.length < s.proposalLen cfg sigLen := by
  have hmem : 40 + addr.length ∈ (s.relayClientAddrs.entries.filter
      (fun e => s.relayVec.contains e.1)).map (fun e => 40 + e.2.length) :=
    List.mem_map.mpr ⟨(pk, addr),
      List.mem_filter.mpr ⟨OrdMap.get?_eq_some_iff.mp haddr, hpk⟩, rfl⟩
  have hsum := List.le_sum_of_mem hmem
  unfold proposalLen bodyLen
  omega

/-- An address of 40000 bytes. -/
def longAddress : Text := List.replicate 40000 97

theorem longAddress_registered : ((after toyObservers (toyMember 1)
    (addressedRun longAddress)).advance (toyMember 1) 1 1000).relayClientAddrs.get? (toyNode 9) =
      some longAddress := by
  have hdir := congrArg Ledger.directory
    (quiet_advance (toyMember 1) (after toyObservers (toyMember 1) (addressedRun longAddress)) 1
      1000).ledger
  rw [show SchedulerCore.relayClientAddrs _ = _ from congrArg Directory.relayClientAddrs hdir]
  rfl

/-- **An address of 40000 bytes is a valid registration and wedges the lead**: the
proposal with it is longer than the channel. -/
theorem long_address_exceeds_channel :
    (signedRelay longAddress).verify toyScheduler = true ∧
      signedService.verify toyScheduler = true ∧
      ∃ proposal, .stageProposal proposal ∈
          (after toyObservers (toyMember 1) (addressedRun longAddress)).actions (toyMember 1)
            (.tick 1 1000 1000) ∧
        ¬ proposal.serializedLen ≤ committeeMsgBytes := by
  refine ⟨verify_signedRelay longAddress, by decide +kernel, ?_⟩
  obtain ⟨proposal, hproposal⟩ := stages_of_unpublished (toyMember 1)
    (after toyObservers (toyMember 1) (addressedRun longAddress)) 1 1000 1000
    (by decide +kernel) (by decide +kernel) rfl
  refine ⟨proposal, hproposal, ?_⟩
  obtain ⟨_, _, _, hop, -, -, hstage⟩ := tick_of_stageProposal hproposal
  cases hop
  have hlong := length_lt_proposalLen (toyMember 1) 32 longAddress_registered
    (by decide +kernel)
  rw [show longAddress.length = 40000 from List.length_replicate] at hlong
  rw [serializedLen_staged (length_toySign _) hstage]
  unfold committeeMsgBytes
  omega

/-- With a short address the proposal fits. -/
theorem staged_proposal_fits_toy : ∃ proposal,
    .stageProposal proposal ∈ (after toyObservers (toyMember 1) (addressedRun [97])).actions
        (toyMember 1) (.tick 1 1000 1000) ∧
      proposal.serializedLen ≤ committeeMsgBytes := by
  obtain ⟨proposal, hproposal⟩ := stages_of_unpublished (toyMember 1)
    (after toyObservers (toyMember 1) (addressedRun [97])) 1 1000 1000
    (by decide +kernel) (by decide +kernel) rfl
  exact ⟨proposal, hproposal, (staged_proposal_fits_iff (addressedRun [97]) 1 1000 1000 proposal 32
    (length_toySign _) hproposal).mpr (by decide +kernel)⟩

end SchedulerCore
end Anymone
