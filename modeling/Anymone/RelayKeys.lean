import Anymone.RegistrationSignature
import Anymone.SchedulerOwn

/-! # Key rosters

A session looks up the key of every relay of its subnet and decodes it, and skips the relays
whose key is missing or does not decode.  A client with a key short of the roster seals nothing,
and a session of consensus set formation with a set key short forms no set.

The keys of a staged body are those its relays registered, so what a subnet can be used with is
decided by the registrations.  `Registration::verify` looks at no key.
-/

namespace Anymone

/-- The readers of the sealing layer's and the signature layer's public keys. -/
structure KeyReaders where
  SealKey : Type
  SetKey : Type
  /-- `pke::PublicKey::from_bytes`. -/
  sealKeyFromBytes : Bytes → Option SealKey
  /-- `sig::VerifyingKey::from_sec1_bytes`. -/
  setKeyFromSec1 : Bytes → Option SetKey

namespace ExchangePublicKeyWire

/-- `to_seal_key`. -/
def toSealKey (R : KeyReaders) (xk : ExchangePublicKeyWire) : Option R.SealKey :=
  R.sealKeyFromBytes xk.kem

/-- `to_set_key`. -/
def toSetKey (R : KeyReaders) (xk : ExchangePublicKeyWire) : Option R.SetKey :=
  R.setKeyFromSec1 xk.setSig

end ExchangePublicKeyWire

/-- `roster_keys`: the sorted relays whose key is there and decodes, by their index. -/
def rosterKeys {K : Type} (relays : List Pubkey)
    (exchangeKeys : List (Pubkey × ExchangePublicKeyWire))
    (decode : ExchangePublicKeyWire → Option K) : List (Nat × K) :=
  let byPk : OrdMap Pubkey ExchangePublicKeyWire := OrdMap.empty.insertAll exchangeKeys
  (relays.insertionSort (· ≤ ·)).zipIdx.filterMap (fun e =>
    ((byPk.get? e.1).bind decode).map (fun key => (e.2, key)))

/-- `seal_roster`, over `roster_seal_pubkeys`. -/
def sealRoster (R : KeyReaders) (relayXk : List (Pubkey × ExchangePublicKeyWire))
    (subnet : Subnet) : List (U32 × R.SealKey) :=
  (rosterKeys subnet.relays relayXk (·.toSealKey R)).map (fun e => (Fin.ofNat _ e.1, e.2))

/-- `set_roster`, over `roster_set_pubkeys`. -/
def setRoster (R : KeyReaders) (relayXk : List (Pubkey × ExchangePublicKeyWire))
    (subnet : Subnet) : Option (List R.SetKey) :=
  let keys := rosterKeys subnet.relays relayXk (·.toSetKey R)
  if keys.length = subnet.relays.length then some (keys.map Prod.snd) else none

/-- The set formation of a Panetière subnet. -/
def ProtocolConfig.formation : ProtocolConfig → Option SetFormation
  | panetiere c => some c.setFormation
  | scheduledPanetiere c => some c.setFormation
  | noop _ | adcnet _ | scheduledAdcnet _ => none

/-- A client that adopts the subnet can use it: it has a sealing key of every relay, in order, and
the set keys when they are needed. -/
structure Usable (R : KeyReaders) (relayXk : List (Pubkey × ExchangePublicKeyWire))
    (subnet : Subnet) : Prop where
  sealed : (sealRoster R relayXk subnet).map Prod.fst =
    (List.range subnet.relays.length).map (Fin.ofNat _)
  set : subnet.protocol.formation = some .consensus → (setRoster R relayXk subnet).isSome

/-- The keys that the subnet needs decode. -/
structure Decodes (R : KeyReaders) (formation : Option SetFormation) (xk : ExchangePublicKeyWire) :
    Prop where
  sealKey : (xk.toSealKey R).isSome
  setKey : formation = some .consensus → (xk.toSetKey R).isSome

section Rosters
variable {K : Type} {relays : List Pubkey} {exchangeKeys : List (Pubkey × ExchangePublicKeyWire)}
  {decode : ExchangePublicKeyWire → Option K}

/-- A roster is complete exactly when every relay's key is there and decodes. -/
theorem length_rosterKeys_iff :
    (rosterKeys relays exchangeKeys decode).length = relays.length ↔
      ∀ pk ∈ relays, (((OrdMap.empty.insertAll exchangeKeys).get? pk).bind decode).isSome := by
  have hlen : relays.length = (relays.insertionSort (· ≤ ·)).zipIdx.length := by simp
  unfold rosterKeys
  rw [hlen, List.filterMap_length_eq_length]
  constructor
  · intro h pk hpk
    obtain ⟨i, hi⟩ := List.mem_iff_getElem?.mp ((List.mem_insertionSort (· ≤ ·)).mpr hpk)
    have hsome := h (pk, i) (List.mem_zipIdx_iff_getElem?.mpr hi)
    rwa [Option.isSome_map] at hsome
  · intro h e he
    rw [Option.isSome_map]
    refine h e.1 ((List.mem_insertionSort (· ≤ ·)).mp ?_)
    exact List.mem_of_getElem? (List.mem_zipIdx_iff_getElem?.mp he)

/-- The indices of a complete roster are those of the relays. -/
theorem map_fst_rosterKeys (h : (rosterKeys relays exchangeKeys decode).length = relays.length) :
    (rosterKeys relays exchangeKeys decode).map Prod.fst = List.range relays.length := by
  have hall := length_rosterKeys_iff.mp h
  have hidx : ∀ (l : List (Pubkey × Nat)),
      (∀ e ∈ l, (((OrdMap.empty.insertAll exchangeKeys).get? e.1).bind decode).isSome) →
      (l.filterMap (fun e => (((OrdMap.empty.insertAll exchangeKeys).get? e.1).bind decode).map
        (fun key => (e.2, key)))).map Prod.fst = l.map Prod.snd := by
    intro l hl
    induction l with
    | nil => rfl
    | cons e l ih =>
      obtain ⟨key, hkey⟩ := Option.isSome_iff_exists.mp (hl e (List.mem_cons_self ..))
      rw [List.filterMap_cons, hkey]
      simp only [Option.map_some, List.map_cons]
      rw [ih fun e' he' => hl e' (List.mem_cons_of_mem _ he')]
  unfold rosterKeys
  rw [hidx _ fun e he => hall e.1 ((List.mem_insertionSort (· ≤ ·)).mp
    (List.mem_of_getElem? (List.mem_zipIdx_iff_getElem?.mp he)))]
  rw [List.zipIdx_map_snd, List.length_insertionSort, List.range_eq_range']

end Rosters

/-- **A subnet is usable exactly when the keys it needs decode**, where every relay has a key. -/
theorem usable_iff {R : KeyReaders} {relayXk : List (Pubkey × ExchangePublicKeyWire)}
    {subnet : Subnet} {keyOf : Pubkey → Option ExchangePublicKeyWire}
    (hkeys : ∀ pk ∈ subnet.relays, (OrdMap.empty.insertAll relayXk).get? pk = keyOf pk)
    (hknown : ∀ pk ∈ subnet.relays, (keyOf pk).isSome) :
    Usable R relayXk subnet ↔
      ∀ pk ∈ subnet.relays, ∀ xk, keyOf pk = some xk →
        Decodes R subnet.protocol.formation xk := by
  -- A roster has as many keys as relays exactly if each of them decodes.
  have hsealed : (rosterKeys subnet.relays relayXk (·.toSealKey R)).length = subnet.relays.length ↔
      (sealRoster R relayXk subnet).map Prod.fst =
        (List.range subnet.relays.length).map (Fin.ofNat _) := by
    unfold sealRoster
    rw [List.map_map]
    constructor
    · intro h
      rw [← map_fst_rosterKeys h, List.map_map]
      rfl
    · intro h
      have hlen := congrArg List.length h
      simpa using hlen
  have hset : (rosterKeys subnet.relays relayXk (·.toSetKey R)).length = subnet.relays.length ↔
      (setRoster R relayXk subnet).isSome := by
    unfold setRoster
    dsimp only
    split_ifs with h
    · exact iff_of_true h rfl
    · exact iff_of_false h (by simp)
  constructor
  · intro h pk hpk xk hxk
    refine ⟨?_, fun hcons => ?_⟩
    · have hsome := length_rosterKeys_iff.mp (hsealed.mpr h.sealed) pk hpk
      rwa [hkeys pk hpk, hxk] at hsome
    · have hsome := length_rosterKeys_iff.mp (hset.mpr (h.set hcons)) pk hpk
      rwa [hkeys pk hpk, hxk] at hsome
  · intro h
    refine ⟨hsealed.mp (length_rosterKeys_iff.mpr fun pk hpk => ?_), fun hcons =>
      hset.mp (length_rosterKeys_iff.mpr fun pk hpk => ?_)⟩
    · obtain ⟨xk, hxk⟩ := Option.isSome_iff_exists.mp (hknown pk hpk)
      rw [hkeys pk hpk, hxk]
      exact (h pk hpk xk hxk).sealKey
    · obtain ⟨xk, hxk⟩ := Option.isSome_iff_exists.mp (hknown pk hpk)
      rw [hkeys pk hpk, hxk]
      exact (h pk hpk xk hxk).setKey hcons

/-! ## Staged bodies -/

namespace SchedulerCore
variable {C : SchedulerCrate} {O : ObserverSessions} {cfg : SchedulerConfig C}

/-- A relay placed in a body is looked up under the key it registered. -/
theorem get?_relayExchangeKeys (s : SchedulerCore O) (protos : List SchedulerProtocol) (clock : U64)
    {pk : Pubkey} (hpk : pk ∈ s.relayVec) :
    (OrdMap.empty.insertAll (s.buildBody cfg protos clock).relayExchangeKeys).get? pk =
      s.relayXpubs.get? pk := by
  have hsorted : (s.relayVec.filterMap
      (fun pk => (s.relayXpubs.get? pk).map (fun xk => (pk, xk)))).Pairwise (fun a b => a.1 < b.1) :=
    List.pairwise_map.mp ((s.registered.keys_sorted.sublist (List.take_sublist _ _)).sublist
      (map_fst_filterMap_sublist _ _))
  show (OrdMap.empty.insertAll (s.relayVec.filterMap
    (fun pk => (s.relayXpubs.get? pk).map (fun xk => (pk, xk))))).get? pk = _
  cases hxk : s.relayXpubs.get? pk with
  | some xk =>
    exact OrdMap.get?_insertAll_of_mem _ hsorted
      (List.mem_filterMap.mpr ⟨pk, hpk, by rw [hxk]; rfl⟩)
  | none =>
    rw [OrdMap.get?_insertAll_of_not_mem]
    · rfl
    · intro xk hmem
      obtain ⟨pk', -, hmap⟩ := List.mem_filterMap.mp hmem
      obtain ⟨xk', hget, hpair⟩ := Option.map_eq_some_iff.mp hmap
      cases hpair
      rw [hxk] at hget
      cases hget

/-- The keys of a relay registered after a run are those of its latest registration. -/
theorem relayXpubs_advance (ops : List (SchedulerOp C)) (round : Round) (now : U64) (pk : Pubkey) :
    ((after O cfg ops).advance cfg round now).relayXpubs.get? pk =
      (latestRelay (ingested O cfg ops) pk).map (·.exchangePubkey) := by
  have hquiet := (quiet_advance cfg (after O cfg ops) round now).keeps.directory
  rw [← (directory_after cfg ops).1.relayXpubs pk]
  exact congrArg (fun d => d.relayXpubs.get? pk) hquiet

/-- What a client reads off a staged subnet: the relays the state placed, each under the keys it
registered last. -/
theorem staged_keys {ops : List (SchedulerOp C)} {round : Round} {now clock : U64}
    {proposal : SignedProposal C}
    (h : .stageProposal proposal ∈ (after O cfg ops).actions cfg (.tick round now clock))
    {subnet : Subnet} (hsubnet : subnet ∈ proposal.body.subnets) :
    subnet.relays = ((after O cfg ops).advance cfg round now).relayVec ∧
      (∃ (t : SchedulerCore O) (i : Nat), subnet.protocol =
        t.buildProtocol cfg (pinned cfg) i) ∧
      ∀ pk ∈ subnet.relays,
        (OrdMap.empty.insertAll proposal.body.relayExchangeKeys).get? pk =
          (latestRelay (ingested O cfg ops) pk).map (·.exchangePubkey) ∧
        ((latestRelay (ingested O cfg ops) pk).map (·.exchangePubkey)).isSome := by
  obtain ⟨round', now', clock', hop, -, -, hstage⟩ := tick_of_stageProposal h
  cases hop
  generalize hs : (after O cfg ops).advance cfg round now = s at *
  -- the next body is built from the relays and keys of the state the tick advanced to
  obtain ⟨vectors, hvectors⟩ := resizeScheduledVectors_eq cfg (s.subnetProtocols cfg) s
  have hprimed : (s.primed cfg clock).relayVec = s.relayVec ∧
      (s.primed cfg clock).relayXpubs = s.relayXpubs := by
    unfold primed
    rw [hvectors]
    exact ⟨rfl, rfl⟩
  have hbody : proposal.body.relayExchangeKeys = ((s.primed cfg clock).buildBody cfg
      (s.subnetProtocols cfg) clock).relayExchangeKeys := by
    rw [staged_eq hstage]
    rfl
  have hbuilt : subnet ∈ ((s.primed cfg clock).buildBody cfg
      (List.replicate (max s.subnetCount 1) (pinned cfg)) clock).subnets := by
    rw [staged_eq hstage] at hsubnet
    exact hsubnet
  obtain ⟨i, -, rfl⟩ := mem_subnets_buildBody hbuilt
  refine ⟨hprimed.1, ⟨_, i, rfl⟩, fun pk hpk => ⟨?_, ?_⟩⟩
  · rw [hbody, get?_relayExchangeKeys _ _ _ hpk, hprimed.2, ← hs]
    exact relayXpubs_advance ops round now pk
  · have hmem : pk ∈ s.relayVec := hprimed.1 ▸ hpk
    rw [← hs] at hmem
    have hreg := (quiet_advance cfg (after O cfg ops) round now).registered
      (registered_of_mem_relayVec hmem)
    rw [Option.isSome_map]
    exact (directory_after cfg ops).2 pk hreg

/-- **A staged subnet is usable exactly when the keys its relays registered last decode.** -/
theorem staged_usable_iff (R : KeyReaders) (ops : List (SchedulerOp C)) (round : Round)
    (now clock : U64) (proposal : SignedProposal C)
    (h : .stageProposal proposal ∈ (after O cfg ops).actions cfg (.tick round now clock))
    (subnet : Subnet) (hsubnet : subnet ∈ proposal.body.subnets) :
    Usable R proposal.body.relayExchangeKeys subnet ↔
      ∀ pk ∈ ((after O cfg ops).advance cfg round now).relayVec, ∀ st,
        latestRelay (ingested O cfg ops) pk = some st →
          Decodes R subnet.protocol.formation st.exchangePubkey := by
  obtain ⟨hrelays, -, hkeys⟩ := staged_keys h hsubnet
  rw [usable_iff (fun pk hpk => (hkeys pk hpk).1) (fun pk hpk => (hkeys pk hpk).2), hrelays]
  constructor
  · intro hall pk hpk st hst
    exact hall pk hpk _ (by rw [hst]; rfl)
  · intro hall pk hpk xk hxk
    obtain ⟨st, hst, rfl⟩ := Option.map_eq_some_iff.mp hxk
    exact hall pk hpk st hst

/-! ## One relay and its keys -/

/-- Readers that look at the length of a key. -/
def lengthReaders : KeyReaders where
  SealKey := Unit
  SetKey := Unit
  sealKeyFromBytes bytes := if bytes.length = 1184 then some () else none
  setKeyFromSec1 bytes := if bytes.length = 33 then some () else none

/-- Relay `id` registers keys under its signature. -/
def keyedRelay (id : U8) (xk : ExchangePublicKeyWire) : Registration :=
  .relay (toyNode id) xk none none
    (toySign (toyNode id) (Registration.relaySignMsg (toyNode id) xk none none))

theorem verify_keyedRelay (id : U8) (xk : ExchangePublicKeyWire) :
    (keyedRelay id xk).verify toyScheduler = true :=
  decide_eq_true rfl

/-- Two relays and a service; the second relay registers these keys. -/
def keyedRun (xk : ExchangePublicKeyWire) : List (SchedulerOp toyScheduler) :=
  [.registration (keyedRelay 8 Registration.nodeKeys), .registration (keyedRelay 9 xk),
    .registration signedService]

/-- The lead stages a subnet over both relays. -/
theorem exists_staged_keyedRun (xk : ExchangePublicKeyWire)
    (hfloors : ((after toyObservers (toyMember 1) (keyedRun xk)).advance (toyMember 1) 1
      1000).aboveFloors (toyMember 1) = true) : ∃ proposal,
    .stageProposal proposal ∈ (after toyObservers (toyMember 1) (keyedRun xk)).actions
        (toyMember 1) (.tick 1 1000 1000) ∧ ∃ subnet, subnet ∈ proposal.body.subnets := by
  obtain ⟨proposal, hproposal⟩ := stages_of_unpublished (toyMember 1)
    (after toyObservers (toyMember 1) (keyedRun xk)) 1 1000 1000 (by decide +kernel) hfloors
    rfl
  obtain ⟨round', now', clock', hop, -, -, hstage⟩ := tick_of_stageProposal hproposal
  cases hop
  refine ⟨proposal, hproposal, List.exists_mem_of_ne_nil _ ?_⟩
  rw [staged_eq hstage]
  intro hnil
  have hlen := congrArg List.length hnil
  simp [proposalOf, nextBody, buildBody, subnetProtocols] at hlen

theorem latestRelay_keyedRun (xk : ExchangePublicKeyWire) :
    latestRelay (ingested toyObservers (toyMember 1) (keyedRun xk)) (toyNode 9) =
      some ⟨xk, none, none⟩ := rfl

/-- With keys that decode the subnet is usable. -/
theorem staged_usable_toy : ∃ (proposal : SignedProposal toyScheduler) (subnet : Subnet),
    subnet ∈ proposal.body.subnets ∧
      Usable lengthReaders proposal.body.relayExchangeKeys subnet := by
  obtain ⟨proposal, hproposal, subnet, hsubnet⟩ :=
    exists_staged_keyedRun Registration.nodeKeys (by decide +kernel)
  refine ⟨proposal, subnet, hsubnet, (staged_usable_iff lengthReaders
    (keyedRun Registration.nodeKeys) 1 1000 1000 proposal hproposal subnet hsubnet).mpr ?_⟩
  intro pk hpk st hst
  have hpk : pk ∈ [toyNode 8, toyNode 9] := by
    rwa [show ((after toyObservers (toyMember 1) (keyedRun Registration.nodeKeys)).advance
      (toyMember 1) 1 1000).relayVec = [toyNode 8, toyNode 9] by decide +kernel] at hpk
  have hkeys : st.exchangePubkey = Registration.nodeKeys := by
    rcases List.mem_cons.mp hpk with rfl | hpk
    · cases hst
      rfl
    · cases List.mem_singleton.mp hpk
      cases hst
      rfl
  rw [hkeys]
  exact ⟨by decide +kernel, fun _ => by decide +kernel⟩

/-- A registration with an empty sealing key. -/
def keyless : ExchangePublicKeyWire := { Registration.nodeKeys with kem := [] }

/-- **One relay makes the subnet unusable**: its registration verifies, and no client has a
sealing key of every relay of the subnet that is staged. -/
theorem keyless_unusable :
    (keyedRelay 9 keyless).verify toyScheduler = true ∧
      (keyedRelay 8 Registration.nodeKeys).verify toyScheduler = true ∧
      signedService.verify toyScheduler = true ∧
      ∃ proposal, .stageProposal proposal ∈
          (after toyObservers (toyMember 1) (keyedRun keyless)).actions (toyMember 1)
            (.tick 1 1000 1000) ∧
        ∃ subnet ∈ proposal.body.subnets, subnet.protocol.formation = some .leader ∧
          ¬ Usable lengthReaders proposal.body.relayExchangeKeys subnet := by
  have hservice : signedService.verify toyScheduler = true := by decide +kernel
  refine ⟨verify_keyedRelay _ _, verify_keyedRelay _ _, hservice, ?_⟩
  obtain ⟨proposal, hproposal, subnet, hsubnet⟩ :=
    exists_staged_keyedRun keyless (by decide +kernel)
  obtain ⟨hrelays, ⟨t, i, hproto⟩, hkeys⟩ := staged_keys hproposal hsubnet
  refine ⟨proposal, hproposal, subnet, hsubnet, by rw [hproto]; rfl, fun husable => ?_⟩
  rw [usable_iff (fun pk hpk => (hkeys pk hpk).1) (fun pk hpk => (hkeys pk hpk).2), hrelays]
    at husable
  have hplaced : toyNode 9 ∈ ((after toyObservers (toyMember 1) (keyedRun keyless)).advance
      (toyMember 1) 1 1000).relayVec := by decide +kernel
  have hdecodes := husable (toyNode 9) hplaced keyless (by rw [latestRelay_keyedRun]; rfl)
  have hsome : (none : Option Unit).isSome := hdecodes.sealKey
  cases hsome

end SchedulerCore
end Anymone
