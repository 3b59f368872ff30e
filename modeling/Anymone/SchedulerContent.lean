import Anymone.SchedulerApproval

/-! # What an approved body may contain

The maps a member compares a body with are what the registrations it ingested state,
the latest for each owner (`directory_after`).  `validate_body` compares four of the
lists of a body with them.  The client addresses and the watchers it never reads, and a
placed relay may go without its exchange key.

Nor does it read the parameters that choose a subnet's protocol: whoever has a relay
registered is shown a proposal it approves whose subnet is of another kind.
-/

namespace Anymone
variable {C : SchedulerCrate} {O : ObserverSessions}

/-! ## The latest registrations -/

/-- What a relay stated. -/
structure RelayStatement where
  exchangePubkey : ExchangePublicKeyWire
  clientAddr : Option Text
  rpcUrl : Option Text

/-- What the owner of a service tag stated. -/
structure ServiceStatement where
  pubkey : Pubkey
  descriptorUrl : Option Text

namespace Registration

/-- The statement about relay `pk`. -/
def ofRelay (pk : Pubkey) : Registration → Option RelayStatement
  | .relay pubkey xk addr url _ => if pubkey = pk then some ⟨xk, addr, url⟩ else none
  | _ => none

/-- The statement about service `tag`. -/
def ofService (tag : ServiceTag) : Registration → Option ServiceStatement
  | .service tag' pubkey _ url _ => if tag' = tag then some ⟨pubkey, url⟩ else none
  | _ => none

end Registration

/-- The latest statement of relay `pk`. -/
def latestRelay (regs : List Registration) (pk : Pubkey) : Option RelayStatement :=
  regs.reverse.findSome? (Registration.ofRelay pk)

/-- The latest statement about service `tag`. -/
def latestService (regs : List Registration) (tag : ServiceTag) : Option ServiceStatement :=
  regs.reverse.findSome? (Registration.ofService tag)

@[simp] theorem latestRelay_concat (regs : List Registration) (reg : Registration) (pk : Pubkey) :
    latestRelay (regs ++ [reg]) pk = (reg.ofRelay pk).or (latestRelay regs pk) := by
  unfold latestRelay
  rw [List.reverse_append, List.findSome?_append]
  simp

@[simp] theorem latestService_concat (regs : List Registration) (reg : Registration)
    (tag : ServiceTag) :
    latestService (regs ++ [reg]) tag = (reg.ofService tag).or (latestService regs tag) := by
  unfold latestService
  rw [List.reverse_append, List.findSome?_append]
  simp

namespace Directory

/-- The directory once a registration is ingested. -/
def register (d : Directory) : Registration → Directory
  | .watcher pubkey _ => { d with watchers := d.watchers.add pubkey }
  | .relay pubkey xk addr url _ =>
      { d with
        nodeRpcUrls := SchedulerCore.restate d.nodeRpcUrls pubkey url
        relayXpubs := d.relayXpubs.insert pubkey xk
        relayClientAddrs := SchedulerCore.restate d.relayClientAddrs pubkey addr }
  | .service tag pubkey _ url _ =>
      { d with
        serviceDescriptorUrls := SchedulerCore.restate d.serviceDescriptorUrls tag url
        services := d.services.insert tag pubkey }

/-- The directory states exactly the latest registrations. -/
structure States (d : Directory) (regs : List Registration) : Prop where
  relayXpubs : ∀ pk, d.relayXpubs.get? pk = (latestRelay regs pk).map (·.exchangePubkey)
  relayClientAddrs : ∀ pk, d.relayClientAddrs.get? pk = (latestRelay regs pk).bind (·.clientAddr)
  nodeRpcUrls : ∀ pk, d.nodeRpcUrls.get? pk = (latestRelay regs pk).bind (·.rpcUrl)
  services : ∀ tag, d.services.get? tag = (latestService regs tag).map (·.pubkey)
  serviceDescriptorUrls : ∀ tag,
    d.serviceDescriptorUrls.get? tag = (latestService regs tag).bind (·.descriptorUrl)
  watchers : ∀ pk, d.watchers.contains pk = true ↔ ∃ sig, .watcher pk sig ∈ regs

theorem get?_restate {K V : Type} [LinearOrder K] (m : OrdMap K V) (k k' : K) (v : Option V) :
    (SchedulerCore.restate m k v).get? k' = if k' = k then v else m.get? k' := by
  cases v <;> simp [SchedulerCore.restate]

/-- **A registration restates what its owner said and nothing else.** -/
theorem States.register {d : Directory} {regs : List Registration} (h : d.States regs)
    (reg : Registration) : (d.register reg).States (regs ++ [reg]) := by
  cases reg with
  | watcher pubkey sig =>
    refine ⟨?_, ?_, ?_, ?_, ?_, ?_⟩
    · exact fun pk => (latestRelay_concat ..) ▸ h.relayXpubs pk
    · exact fun pk => (latestRelay_concat ..) ▸ h.relayClientAddrs pk
    · exact fun pk => (latestRelay_concat ..) ▸ h.nodeRpcUrls pk
    · exact fun tag' => (latestService_concat ..) ▸ h.services tag'
    · exact fun tag' => (latestService_concat ..) ▸ h.serviceDescriptorUrls tag'
    · intro pk
      show (d.watchers.add pubkey).contains pk = true ↔ _
      rw [OrdSet.contains_add_iff, h.watchers]
      simp only [List.mem_append, List.mem_singleton]
      constructor
      · rintro (rfl | ⟨sig', hsig⟩)
        · exact ⟨sig, Or.inr rfl⟩
        · exact ⟨sig', Or.inl hsig⟩
      · rintro ⟨sig', hsig | hsig⟩
        · exact Or.inr ⟨sig', hsig⟩
        · cases hsig
          exact Or.inl rfl
  | relay pubkey xk addr url sig =>
    refine ⟨?_, ?_, ?_, ?_, ?_, ?_⟩
    · intro pk
      show (d.relayXpubs.insert pubkey xk).get? pk = _
      by_cases hpk : pk = pubkey
      · simp [Registration.ofRelay, hpk]
      · simp [Registration.ofRelay, hpk, Ne.symm hpk, h.relayXpubs]
    · intro pk
      show (SchedulerCore.restate d.relayClientAddrs pubkey addr).get? pk = _
      rw [get?_restate]
      by_cases hpk : pk = pubkey
      · simp [Registration.ofRelay, hpk]
      · simp [Registration.ofRelay, hpk, Ne.symm hpk, h.relayClientAddrs]
    · intro pk
      show (SchedulerCore.restate d.nodeRpcUrls pubkey url).get? pk = _
      rw [get?_restate]
      by_cases hpk : pk = pubkey
      · simp [Registration.ofRelay, hpk]
      · simp [Registration.ofRelay, hpk, Ne.symm hpk, h.nodeRpcUrls]
    · exact fun tag' => (latestService_concat ..) ▸ h.services tag'
    · exact fun tag' => (latestService_concat ..) ▸ h.serviceDescriptorUrls tag'
    · intro pk
      show d.watchers.contains pk = true ↔ _
      rw [h.watchers]
      simp
  | service tag pubkey xk url sig =>
    refine ⟨?_, ?_, ?_, ?_, ?_, ?_⟩
    · exact fun pk => (latestRelay_concat ..) ▸ h.relayXpubs pk
    · exact fun pk => (latestRelay_concat ..) ▸ h.relayClientAddrs pk
    · exact fun pk => (latestRelay_concat ..) ▸ h.nodeRpcUrls pk
    · intro tag'
      show (d.services.insert tag pubkey).get? tag' = _
      by_cases htag : tag' = tag
      · simp [Registration.ofService, htag]
      · simp [Registration.ofService, htag, Ne.symm htag, h.services]
    · intro tag'
      show (SchedulerCore.restate d.serviceDescriptorUrls tag url).get? tag' = _
      rw [get?_restate]
      by_cases htag : tag' = tag
      · simp [Registration.ofService, htag]
      · simp [Registration.ofService, htag, Ne.symm htag, h.serviceDescriptorUrls]
    · intro pk
      show d.watchers.contains pk = true ↔ _
      rw [h.watchers]
      simp

end Directory

namespace SchedulerCore
variable {cfg : SchedulerConfig C} {s : SchedulerCore O}

theorem directory_onRegistration (s : SchedulerCore O) (reg : Registration) :
    (s.onRegistration reg).directory =
      if s.ingests reg then s.directory.register reg else s.directory := by
  cases reg with
  | relay pubkey xk addr url sig =>
    unfold onRegistration ingests
    dsimp only
    by_cases hoff : s.integrityOffenders.contains pubkey = true
    · rw [if_pos hoff, if_neg (by simp [hoff])]
    · rw [if_neg hoff, if_pos (by simpa using hoff)]
      rfl
  | service | watcher => rfl

theorem registered_onRegistration {reg : Registration} {pk : Pubkey}
    (h : (s.onRegistration reg).registered.contains pk = true) :
    s.registered.contains pk = true ∨ s.ingests reg = true ∧ (reg.ofRelay pk).isSome := by
  cases reg with
  | relay pubkey xk addr url sig =>
    unfold onRegistration at h
    dsimp only at h
    split_ifs at h with hoff
    · exact Or.inl h
    · rcases OrdSet.contains_add_iff.mp h with rfl | h
      · exact Or.inr ⟨by simpa [ingests] using hoff, by simp [Registration.ofRelay]⟩
      · exact Or.inl h
  | service | watcher => exact Or.inl h

/-- **What a member compares a body with is what the latest registrations stated**, and
a registered relay has made a statement. -/
theorem directory_after (cfg : SchedulerConfig C) (ops : List (SchedulerOp C)) :
    (after O cfg ops).directory.States (ingested O cfg ops) ∧
      ∀ pk, (after O cfg ops).registered.contains pk = true →
        (latestRelay (ingested O cfg ops) pk).isSome := by
  induction ops using List.reverseRecOn with
  | nil =>
    refine ⟨⟨fun _ => rfl, fun _ => rfl, fun _ => rfl, fun _ => rfl, fun _ => rfl, ?_⟩, ?_⟩
    · intro pk
      simp [after, Trace.run, new, directory, ingested]
    · intro pk h
      simp [after, Trace.run, new] at h
  | append_singleton ops op ih =>
    obtain ⟨hstates, hreg⟩ := ih
    rw [after_concat, ingested_concat]
    by_cases hop : ∃ reg, op = .registration reg
    · obtain ⟨reg, rfl⟩ := hop
      simp only [apply, ingestedBy]
      rw [directory_onRegistration]
      cases hing : (after O cfg ops).ingests reg with
      | false =>
        simp only [Bool.false_eq_true, if_false, List.append_nil]
        refine ⟨hstates, fun pk hpk => hreg pk ?_⟩
        simpa [hing] using registered_onRegistration hpk
      | true =>
        simp only [if_true]
        refine ⟨hstates.register reg, fun pk hpk => ?_⟩
        rw [latestRelay_concat, Option.isSome_or]
        rcases registered_onRegistration hpk with hold | ⟨-, hnew⟩
        · simp [hreg pk hold]
        · simp [hnew]
    · have hkeeps := keeps_apply cfg (after O cfg ops) op (fun reg he => hop ⟨reg, he⟩)
      have hnone : (after O cfg ops).ingestedBy op = [] := by
        cases op with
        | registration reg => exact absurd ⟨reg, rfl⟩ hop
        | _ => rfl
      rw [hnone, List.append_nil, hkeeps.directory]
      exact ⟨hstates, fun pk hpk => hreg pk (hkeeps.registered hpk)⟩

/-! ## Registered content -/

/-- Everything in a body is what its owner stated last, and every placed relay has its
exchange key listed. -/
structure StatedBy (regs : List Registration) (body : C.Body) : Prop where
  relays : ∀ subnet ∈ body.subnets, ∀ pk ∈ subnet.relays, (latestRelay regs pk).isSome
  exchangeKeys : ∀ e ∈ body.relayExchangeKeys,
    ∃ r, latestRelay regs e.1 = some r ∧ r.exchangePubkey = e.2
  clientAddrs : ∀ e ∈ body.relayClientAddrs,
    ∃ r, latestRelay regs e.1 = some r ∧ r.clientAddr = some e.2
  nodes : ∀ e ∈ body.endpoints.nodes, ∃ r, latestRelay regs e.1 = some r ∧ r.rpcUrl = some e.2
  watchers : ∀ pk ∈ body.watchers, ∃ sig, .watcher pk sig ∈ regs
  services : ∀ e ∈ body.services, ∃ r, latestService regs e.1 = some r ∧ r.pubkey = e.2
  serviceEndpoints : ∀ e ∈ body.endpoints.services,
    ∃ r, latestService regs e.1 = some r ∧ r.descriptorUrl = some e.2
  keysListed : ∀ subnet ∈ body.subnets, ∀ pk ∈ subnet.relays, ∃ xk, (pk, xk) ∈ body.relayExchangeKeys

/-- The comparisons `validate_body` leaves out: the client addresses and the watchers
with the core's own maps, and the placed relays with the listed exchange keys. -/
def uncheckedMatch (s : SchedulerCore O) (body : C.Body) : Bool :=
  body.relayClientAddrs.all (fun e => decide (s.relayClientAddrs.get? e.1 = some e.2)) &&
    body.watchers.all s.watchers.contains &&
    body.subnets.all (fun subnet => subnet.relays.all (fun pk =>
      body.relayExchangeKeys.any (fun e => decide (e.1 = pk))))

/-- What `validate_body` has compared. -/
structure Checked (s : SchedulerCore O) (body : C.Body) : Prop where
  relays : ∀ subnet ∈ body.subnets, ∀ pk ∈ subnet.relays, s.registered.contains pk = true
  exchangeKeys : ∀ e ∈ body.relayExchangeKeys, s.relayXpubs.get? e.1 = some e.2
  nodes : ∀ e ∈ body.endpoints.nodes, s.nodeRpcUrls.get? e.1 = some e.2
  services : ∀ e ∈ body.services, s.services.get? e.1 = some e.2
  serviceEndpoints : ∀ e ∈ body.endpoints.services, s.serviceDescriptorUrls.get? e.1 = some e.2

theorem validateBody_of_accepts {proposal : SignedProposal C}
    (h : s.accepts cfg proposal = true) : s.validateBody cfg proposal.body = true := by
  unfold accepts at h
  exact (Bool.and_eq_true _ _ ▸ h).2

theorem checked_of_accepts {proposal : SignedProposal C} (h : s.accepts cfg proposal = true) :
    s.Checked proposal.body := by
  have hbody := validateBody_of_accepts h
  simp only [validateBody, endpointsMatch, exchangeKeysMatch, validateSubnet, Bool.and_eq_true,
    List.all_eq_true, decide_eq_true_eq] at hbody
  obtain ⟨⟨⟨⟨⟨⟨-, -⟩, hservices⟩, hnodes, hends⟩, hkeys⟩, -⟩, hsubnets⟩ := hbody
  exact
    { relays := fun subnet hs pk hpk => (hsubnets subnet hs).1.2 pk hpk
      exchangeKeys := hkeys
      nodes := fun e he => (hnodes e he).1
      services := hservices
      serviceEndpoints := fun e he => (hends e he).1 }

theorem uncheckedMatch_iff {body : C.Body} : s.uncheckedMatch body = true ↔
    (∀ e ∈ body.relayClientAddrs, s.relayClientAddrs.get? e.1 = some e.2) ∧
      (∀ pk ∈ body.watchers, s.watchers.contains pk = true) ∧
      ∀ subnet ∈ body.subnets, ∀ pk ∈ subnet.relays, ∃ xk, (pk, xk) ∈ body.relayExchangeKeys := by
  unfold uncheckedMatch
  simp only [Bool.and_eq_true, List.all_eq_true, List.any_eq_true, decide_eq_true_eq, and_assoc]
  refine and_congr Iff.rfl (and_congr Iff.rfl ?_)
  constructor
  · intro h subnet hs pk hpk
    obtain ⟨⟨_, xk⟩, he, rfl⟩ := h subnet hs pk hpk
    exact ⟨xk, he⟩
  · intro h subnet hs pk hpk
    obtain ⟨xk, he⟩ := h subnet hs pk hpk
    exact ⟨(pk, xk), he, rfl⟩

/-- **An approved body states what was registered exactly when it passes the three
comparisons that are left out.** -/
theorem approved_body_registered_iff (ops : List (SchedulerOp C)) (proposal : SignedProposal C)
    (happ : (after O cfg ops).Approves cfg proposal) :
    StatedBy (ingested O cfg ops) proposal.body ↔
      (after O cfg ops).uncheckedMatch proposal.body = true := by
  obtain ⟨hstates, hreg⟩ := directory_after (O := O) cfg ops
  have hchecked := checked_of_accepts (approves_iff.mp happ)
  rw [uncheckedMatch_iff]
  constructor
  · intro h
    refine ⟨fun e he => ?_, fun pk hpk => (hstates.watchers pk).mpr (h.watchers pk hpk),
      h.keysListed⟩
    obtain ⟨r, hr, haddr⟩ := h.clientAddrs e he
    refine (hstates.relayClientAddrs e.1).trans ?_
    rw [hr]
    exact haddr
  · rintro ⟨haddrs, hwatch, hlisted⟩
    exact
      { relays := fun subnet hs pk hpk => hreg pk (hchecked.relays subnet hs pk hpk)
        exchangeKeys := fun e he => Option.map_eq_some_iff.mp
          ((hstates.relayXpubs e.1).symm.trans (hchecked.exchangeKeys e he))
        clientAddrs := fun e he => Option.bind_eq_some_iff.mp
          ((hstates.relayClientAddrs e.1).symm.trans (haddrs e he))
        nodes := fun e he => Option.bind_eq_some_iff.mp
          ((hstates.nodeRpcUrls e.1).symm.trans (hchecked.nodes e he))
        watchers := fun pk hpk => (hstates.watchers pk).mp (hwatch pk hpk)
        services := fun e he => Option.map_eq_some_iff.mp
          ((hstates.services e.1).symm.trans (hchecked.services e he))
        serviceEndpoints := fun e he => Option.bind_eq_some_iff.mp
          ((hstates.serviceDescriptorUrls e.1).symm.trans (hchecked.serviceEndpoints e he))
        keysListed := hlisted }

/-- The lead gives relay 9's clients an address the relay never stated. -/
def redirectingBody : toyScheduler.Body := toyBody 1 (toyPanetiere 8) [2]

/-- **The member approves it.** -/
theorem member_approves_redirected_clients :
    (after toyObservers (toyMember 2) (toyApprovals [])).Approves (toyMember 2)
        (toyProposal redirectingBody) ∧
      ¬ StatedBy (ingested toyObservers (toyMember 2) (toyApprovals [])) redirectingBody := by
  refine ⟨approves_iff.mpr (by decide +kernel), ?_⟩
  intro h
  obtain ⟨r, hr, haddr⟩ := h.clientAddrs (toyNode 9, [2]) (List.mem_singleton.mpr rfl)
  have hstated : latestRelay (ingested toyObservers (toyMember 2) (toyApprovals [])) (toyNode 9) =
      some ⟨toyExchangeKeys, some [1], none⟩ := by rfl
  rw [hstated] at hr
  cases hr
  revert haddr
  decide

/-- A body that states what relay 9 registered is approved, and passes. -/
theorem approved_body_registered_toy :
    (after toyObservers (toyMember 2) (toyApprovals [])).Approves (toyMember 2)
        (toyProposal eightClients) ∧
      StatedBy (ingested toyObservers (toyMember 2) (toyApprovals [])) eightClients := by
  have happ : (after toyObservers (toyMember 2) (toyApprovals [])).Approves (toyMember 2)
      (toyProposal eightClients) := approves_iff.mpr (by decide +kernel)
  exact ⟨happ, (approved_body_registered_iff _ _ happ).mpr (by decide +kernel)⟩

/-! ## Protocols -/

/-- A protocol the member's own scheduler could emit for the relays: its kind is the
pinned one, and a Panetière kind has the parameters' set formation and encoding and the
seed of its relays. -/
def CouldEmit (cfg : SchedulerConfig C) (relays : List Pubkey) (protocol : ProtocolConfig) : Prop :=
  protocol.protoKind = cfg.params.pin.getD .panetiere ∧
    match protocol with
    | .panetiere c =>
        c.setFormation = cfg.params.setFormation ∧ c.encoding = cfg.params.encoding ∧
          c.setupSeed = subnetSeed C relays
    | .scheduledPanetiere c =>
        c.setFormation = cfg.params.setFormation ∧ c.setupSeed = subnetSeed C relays
    | .noop _ | .adcnet _ | .scheduledAdcnet _ => True

/-- A subnet over one relay, attested as the parameters ask. -/
def soloSubnet (cfg : SchedulerConfig C) (pk : Pubkey) (protocol : ProtocolConfig) : Subnet :=
  ⟨0, [pk], protocol, 0x3f800000, cfg.params.attestedSubnets.contains 0⟩

/-- A body with one subnet over one relay, at the lowest round the member takes. -/
def soloBody (cfg : SchedulerConfig C) (s : SchedulerCore O) (pk : Pubkey)
    (protocol : ProtocolConfig) : C.Body where
  round := s.lastAcceptedRound.getD 0
  endpoints := ⟨[], []⟩
  epochUnixMs := s.epochUnixMs.getD 0
  services := []
  relayExchangeKeys := []
  subnets := [soloSubnet cfg pk protocol]
  relayClientAddrs := []
  watchers := []
  attestation := cfg.params.attestation

/-- The lead's proposal of a body. -/
def proposalOf (id : C.Identity) (body : C.Body) : SignedProposal C :=
  ⟨body, C.pubkey id, C.idSign id body.proposeBytes⟩

/-- A crypto-free subnet, and an ADCNet subnet of the reference size. -/
def smallNoop : ProtocolConfig := .noop ⟨1000, 1, 0, 8⟩

def referenceAdcnet : ProtocolConfig := .adcnet ⟨1000, 256, 150, 0, 300, none⟩

theorem le_saturatingAdd {a b : U64} (h : a ≤ b) (n : Nat) : a ≤ b.saturatingAdd n := by
  rw [Fin.le_def] at h ⊢
  rw [U64.val_saturatingAdd]
  have := a.isLt
  omega

theorem lastAccepted_le_established (s : SchedulerCore O) :
    s.lastAcceptedRound.getD 0 ≤ s.established := by
  unfold established
  exact le_trans (le_max_left _ _) (le_max_left _ _)

/-- Any protocol within the structural bounds is accepted over any registered relay. -/
theorem accepts_soloBody {id : C.Identity} (hid : C.pubkey id = cfg.lead) {pk : Pubkey}
    (hpk : s.registered.contains pk = true) {protocol : ProtocolConfig}
    (hok : subnetStructureOk C (soloSubnet cfg pk protocol) = true)
    (hagg : ∀ c, protocol = .adcnet c → c.aggregation = none) :
    s.accepts cfg (proposalOf id (s.soloBody cfg pk protocol)) = true := by
  have hstructure : validateStructure (s.soloBody cfg pk protocol) = true := by
    simp [validateStructure, soloBody, maxSubnets, hok]
  have hsubnet : s.validateSubnet cfg (soloSubnet cfg pk protocol) = true := by
    unfold validateSubnet soloSubnet
    simp only [List.all_cons, List.all_nil, hpk, beq_self_eq_true, Bool.true_and]
    cases protocol with
    | adcnet c => simp [hagg c rfl, aggregationValid, aggregationStructuralOk]
    | noop | panetiere | scheduledPanetiere | scheduledAdcnet => rfl
  have hepoch : s.epochUnixMs.all (fun known => known = (s.soloBody cfg pk protocol).epochUnixMs) =
      true := by
    cases hs : s.epochUnixMs <;> simp [soloBody, hs]
  have hbody : s.validateBody cfg (s.soloBody cfg pk protocol) = true := by
    unfold validateBody
    rw [hstructure, hepoch]
    simp [soloBody, endpointsMatch, exchangeKeysMatch, C.policyEq_self, hsubnet]
  have hfresh : s.lastAcceptedRound.all
      (fun last => decide (last ≤ (s.soloBody cfg pk protocol).round)) = true := by
    cases hs : s.lastAcceptedRound <;> simp [soloBody, hs]
  have hreach : (s.soloBody cfg pk protocol).round ≤ s.established.saturatingAdd maxRoundAdvance :=
    le_saturatingAdd s.lastAccepted_le_established _
  unfold accepts
  have hsig := C.pubkeyVerify_idSign id (s.soloBody cfg pk protocol).proposeBytes
  simp only [proposalOf, hid, hfresh, hreach, hbody, decide_true, Bool.true_and, Bool.and_true]
  rwa [hid] at hsig

theorem smallNoop_ok (cfg : SchedulerConfig C) (pk : Pubkey) :
    subnetStructureOk C (soloSubnet cfg pk smallNoop) = true := by
  simp only [subnetStructureOk, subnetMaxWire, soloSubnet, smallNoop, List.length_singleton]
  rfl

theorem referenceAdcnet_ok (hfits : adcnetMaxWireEstimate C 256 150 300 ≤ maxSubnetWire)
    (cfg : SchedulerConfig C) (pk : Pubkey) :
    subnetStructureOk C (soloSubnet cfg pk referenceAdcnet) = true := by
  simp only [subnetStructureOk, subnetMaxWire, soloSubnet, referenceAdcnet, List.length_singleton,
    hfits, decide_true, Bool.and_true]
  rfl

/-- **The lead chooses the protocol.**  With the ADCNet reference size within the wire
budget, the only members that approve nothing but what they could emit are those with
no relay registered, which approve nothing. -/
theorem approved_protocols_emitted_iff (hlead : ∃ id, C.pubkey id = cfg.lead)
    (hfits : adcnetMaxWireEstimate C 256 150 300 ≤ maxSubnetWire) (ops : List (SchedulerOp C)) :
    (∀ proposal, (after O cfg ops).Approves cfg proposal → ∀ subnet ∈ proposal.body.subnets,
        CouldEmit cfg subnet.relays subnet.protocol) ↔
      ∀ pk, (after O cfg ops).registered.contains pk = false := by
  constructor
  · intro h pk
    by_contra hpk
    have hpk : (after O cfg ops).registered.contains pk = true := by simpa using hpk
    obtain ⟨id, hid⟩ := hlead
    -- whatever the pinned kind, one of the two small subnets is of another
    by_cases hpin : cfg.params.pin.getD .panetiere = .noop
    · have hemit := h _ (approves_iff.mpr (accepts_soloBody hid hpk
        (referenceAdcnet_ok hfits cfg pk) (fun c hc => by cases hc; rfl))) _
        (List.mem_singleton.mpr rfl)
      have hkind : SchedulerProtocol.adcnet = cfg.params.pin.getD .panetiere := hemit.1
      rw [hpin] at hkind
      cases hkind
    · have hemit := h _ (approves_iff.mpr (accepts_soloBody hid hpk (smallNoop_ok cfg pk)
        (fun c hc => by cases hc))) _ (List.mem_singleton.mpr rfl)
      exact hpin hemit.1.symm
  · intro hnone proposal happ
    have hbody := validateBody_of_accepts (approves_iff.mp happ)
    have hstructure : validateStructure proposal.body = true := by
      unfold validateBody at hbody
      simp only [Bool.and_eq_true] at hbody
      exact hbody.1.1.1.1.1.1
    obtain ⟨subnet, hs, pk, hpk⟩ := exists_relay_of_validateStructure hstructure
    have := (checked_of_accepts (approves_iff.mp happ)).relays subnet hs pk hpk
    rw [hnone pk] at this
    cases this

/-- The lead proposes a crypto-free subnet. -/
def noopBody : toyScheduler.Body := toyBody 1 smallNoop [1]

/-- **A member whose scheduler only emits Panetière subnets approves it.** -/
theorem member_approves_noop_subnet :
    ¬ ∀ proposal, (after toyObservers (toyMember 2) (toyApprovals [])).Approves (toyMember 2) proposal →
      ∀ subnet ∈ proposal.body.subnets,
        CouldEmit (toyMember 2) subnet.relays subnet.protocol := by
  intro h
  have happ : (after toyObservers (toyMember 2) (toyApprovals [])).Approves (toyMember 2)
      (toyProposal noopBody) := approves_iff.mpr (by decide +kernel)
  have hemit := h _ happ _ (List.mem_singleton.mpr rfl)
  exact absurd hemit.1 (by decide)

/-- The toy committee: one registered relay is enough. -/
theorem approved_protocols_emitted_toy :
    (∀ proposal, (after toyObservers (toyMember 2) []).Approves (toyMember 2) proposal →
        ∀ subnet ∈ proposal.body.subnets,
          CouldEmit (toyMember 2) subnet.relays subnet.protocol) ∧
      ¬ ∀ proposal, (after toyObservers (toyMember 2) (toyApprovals [])).Approves (toyMember 2)
          proposal → ∀ subnet ∈ proposal.body.subnets,
            CouldEmit (toyMember 2) subnet.relays subnet.protocol := by
  have hlead : ∃ id, toyScheduler.pubkey id = (toyMember 2).lead := ⟨toyNode 1, by decide⟩
  have hfits : adcnetMaxWireEstimate toyScheduler 256 150 300 ≤ maxSubnetWire := by decide
  constructor
  · exact (approved_protocols_emitted_iff hlead hfits []).mpr (fun _ => rfl)
  · intro h
    have := (approved_protocols_emitted_iff hlead hfits (toyApprovals [])).mp h (toyNode 9)
    revert this
    decide +kernel

end SchedulerCore
end Anymone
