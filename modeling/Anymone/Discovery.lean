import Anymone.EthFeed
import Anymone.EthReplies
import Anymone.NetworkConfig
import Anymone.Trace
import Mathlib.Data.List.Destutter
import Mathlib.Data.List.Sort
import Mathlib.Data.String.Basic

/-! # Discovering a network

An RPC client finds the configuration of a network at addresses it does not trust.  It pins the
genesis on its first use, and takes a configuration only under enough approvals of the committee of
that genesis and never behind one it has taken (`check_config`).  What it takes goes to its state
directory before it acts on it.

Replies, the clock, and which writes succeed are chosen by the run; JSON and URLs are parameters,
and so is what a provider signs.
-/

namespace Anymone
open Eth

/-! ## Genesis -/

/-- `CommitteeMember`. -/
structure CommitteeMember where
  pubkey : Pubkey
  exchangePubkey : ExchangePublicKeyWire
  deriving DecidableEq

/-- `GovernanceConfig`. -/
structure GovernanceConfig where
  committee : List CommitteeMember
  threshold : U32
  deriving DecidableEq

/-- `discovery::Genesis`. -/
structure Genesis where
  version : Fin 65536
  governance : GovernanceConfig
  deriving DecidableEq

/-- `discovery::Error`. -/
inductive DiscoveryError where
  | invalid (text : String)
  | config
  deriving DecidableEq

namespace Genesis

/-- `Genesis::validate`. -/
def validate (g : Genesis) : Except DiscoveryError Unit :=
  let committee := g.governance.committee
  if g.version.val ≠ 1 ∨ committee = [] ∨ 256 < committee.length ∨ g.governance.threshold.val = 0 ∨
      committee.length < g.governance.threshold.val ∨
      ¬ (committee.map CommitteeMember.pubkey).IsChain (· < ·) then
    .error (.invalid "invalid genesis")
  else .ok ()

section Format
open Bincode

/-- A member as `bincode` writes it. -/
def member : Bincode CommitteeMember :=
  iso (pair (array 32) (pair (bytes .little) (pair (bytes .little) (bytes .little))))
    (fun ⟨pk, ecdh, kem, setSig⟩ => ⟨pk, ⟨ecdh, kem, setSig⟩⟩)
    (fun m => (m.pubkey, m.exchangePubkey.ecdh, m.exchangePubkey.kem, m.exchangePubkey.setSig))
    (fun _ => rfl)

/-- A genesis as `bincode` writes it. -/
def format : Bincode Genesis :=
  iso (pair (u16 .little) (pair (list .little member) (u32 .little)))
    (fun ⟨version, committee, threshold⟩ => ⟨version, ⟨committee, threshold⟩⟩)
    (fun g => (g.version, g.governance.committee, g.governance.threshold)) (fun _ => rfl)

end Format

variable {C : SchedulerCrate}

/-- `Genesis::hash`. -/
def hash (C : SchedulerCrate) (g : Genesis) : ByteArr 32 :=
  C.sha256 (ascii "anymone/genesis/v1" ++ format.write g)

/-- `Genesis::verify_config`. -/
def verifyConfig (g : Genesis) (config : C.Config) : Except DiscoveryError Unit :=
  g.validate >>= fun _ =>
    if ¬ verifyMultisig (g.governance.committee.map CommitteeMember.pubkey) g.governance.threshold
        config = true then .error .config
    else .ok ()

end Genesis

/-! ## Which configuration may follow which -/

/-- The bits of an `f32` that is no number. -/
def f32Nan (bits : U32) : Bool := decide (0x7f800000 < bits.val % 0x80000000)

/-- `==` on the bits of two `f32`: nothing equals a NaN, and the two zeros are equal. -/
def f32Eq (a b : U32) : Bool :=
  !f32Nan a && !f32Nan b &&
    (decide (a = b) || decide (a.val % 0x80000000 = 0 ∧ b.val % 0x80000000 = 0))

/-- `Subnet::eq`. -/
def subnetEq (a b : Subnet) : Bool :=
  decide (a.id = b.id) && decide (a.relays = b.relays) && decide (a.protocol = b.protocol) &&
    f32Eq a.coverRate b.coverRate && decide (a.attested = b.attested)

variable {C : SchedulerCrate}

/-- `AnymoneRoundConfigurationBody::eq`. -/
def bodyEq (a b : C.Body) : Bool :=
  decide (a.round = b.round) && decide (a.endpoints = b.endpoints) &&
    decide (a.epochUnixMs = b.epochUnixMs) && decide (a.services = b.services) &&
    decide (a.relayExchangeKeys = b.relayExchangeKeys) && a.subnets.isEqv b.subnets subnetEq &&
    decide (a.relayClientAddrs = b.relayClientAddrs) && decide (a.watchers = b.watchers) &&
    C.policyEq a.attestation b.attestation

/-- `check_config`. -/
def checkConfig (genesis : Genesis) (config : C.Config) (previous : Option C.Config) :
    Except DiscoveryError Unit :=
  genesis.verifyConfig config >>= fun _ =>
    match previous with
    | none => .ok ()
    | some previous =>
        if config.body.round < previous.body.round ∨
            config.body.round = previous.body.round ∧ ¬ bodyEq config.body previous.body = true then
          .error (.invalid "configuration rollback or equivocation")
        else .ok ()

/-! ## The RPC client -/

/-- `SignedServiceDescriptor`. -/
structure SignedServiceDescriptor where
  descriptor : ServiceDescriptor
  signature : Bytes
  deriving DecidableEq

/-- `NetworkInfo`. -/
structure NetworkInfo (C : SchedulerCrate) where
  genesis : Genesis
  config : C.Config

/-- `ServiceTarget`. -/
structure ServiceTarget where
  serviceIdentity : ByteArr 32
  signed : SignedServiceDescriptor
  revoked : Bool
  deriving DecidableEq

/-- `BrokerProfile`, but for what discovery sets alike in every one. -/
structure BrokerProfile where
  services : OrdMap String ServiceTarget
  feedMirrors : List String

/-- What discovery takes from outside. -/
structure DiscoveryCrate where
  /-- `ServiceDescriptor::signing_bytes`. -/
  signingBytes : ServiceDescriptor → Option Bytes
  /-- `validate_url`. -/
  validUrl : Text → Bool
  /-- The address of a relay parses, and is not the unspecified one. -/
  dialable : Text → Bool
  /-- A mirror that a profile may name. -/
  validMirror : String → Bool

/-- The arguments of `serve` that say which network it is. -/
structure ServeArgs where
  /-- `--bootnode` or `--node-rpc`, without its fragment. -/
  endpoint : Text
  /-- The fragment, decoded. -/
  expected : Option Bytes
  /-- `--genesis`. -/
  imported : Option Genesis

/-- What a run of the client is answered. -/
structure Replies (C : SchedulerCrate) where
  /-- The reply to the first request of a first use. -/
  first : Option (NetworkInfo C)
  network : Text → Option (NetworkInfo C)
  descriptor : Text → Option SignedServiceDescriptor
  /-- The clock, when the descriptor of a tag is checked. -/
  clock : ServiceTag → U64
  /-- The clock, when the profile is checked. -/
  done : U64

/-- Which writes succeed. -/
structure Writes where
  genesis : Bool
  network : Bool
  bootstrap : Bool
  /-- `RemoteSession::update_targets`. -/
  remote : Bool
  connection : Bool

/-- The state directory. -/
structure Files (C : SchedulerCrate) where
  genesis : Option Genesis
  network : Option C.Config
  /-- The relays in `bootstrap.toml`. -/
  streams : Option (List (Pubkey × Text))

/-- `Discovery`. -/
structure Discovery (C : SchedulerCrate) where
  genesis : Genesis
  config : Option C.Config
  endpoint : Text

/-- The bytes of a string. -/
def utf8 (s : String) : Bytes := s.toUTF8.data.toList.map (fun b => Fin.ofNat 256 b.toNat)

/-- `ServiceTag::from_label`. -/
def ServiceTag.fromLabel (C : SchedulerCrate) (s : String) : ServiceTag :=
  ⟨(C.sha256 (utf8 s)).val.take 20, by rw [List.length_take, (C.sha256 (utf8 s)).property]; rfl⟩

/-- The characters of the name of a service. -/
def nameChars (s : String) : Bool :=
  s.toList.all (fun c => c.isAlphanum || decide (c = '-') || decide (c = '_'))

namespace BrokerProfile

/-- `BrokerProfile::validate`, without its errors. -/
def validate (C : SchedulerCrate) (K : DiscoveryCrate) (p : BrokerProfile) (now : U64) : Bool :=
  match p.services.values with
  | [] => false
  | first :: rest =>
      let serviceOk := fun (entry : String × ServiceTarget) =>
        let d := entry.2.signed.descriptor
        decide (0 < entry.1.utf8ByteSize) && decide (entry.1.utf8ByteSize ≤ 64) &&
          nameChars entry.1 && d.validate now &&
          decide (entry.2.serviceIdentity = d.serviceIdentity) &&
          (match K.signingBytes d with
            | none => false
            | some bytes =>
                C.pubkeyVerify entry.2.serviceIdentity bytes entry.2.signed.signature) &&
          decide (d.network = first.signed.descriptor.network ∧
            d.chain = first.signed.descriptor.chain ∧ d.feed = first.signed.descriptor.feed)
      p.services.entries.all serviceOk &&
        decide (((first :: rest).map (fun t => t.signed.descriptor.tag)).Nodup) &&
        !p.feedMirrors.isEmpty && p.feedMirrors.all K.validMirror

/-- The feed and the chain of the first service, which `validate` makes those of all. -/
def feedAndChain (p : BrokerProfile) : Option (FeedDescriptor × U64) :=
  p.services.values.head?.map (fun t => (t.signed.descriptor.feed, t.signed.descriptor.chain))

end BrokerProfile

/-- `Broker::authorize_services`. -/
def authorizeServices (config : C.Config) (p : BrokerProfile) : BrokerProfile :=
  { p with services := p.services.mapVals (fun _ target =>
      let tag := ServiceTag.fromLabel C target.signed.descriptor.tag
      if config.body.services.any
          (fun entry => decide (entry.1 = tag ∧ entry.2 = target.serviceIdentity)) then target
      else { target with revoked := true }) }

namespace Discovery
variable (K : DiscoveryCrate) (d : Discovery C)

/-- The addresses that `refresh` asks. -/
def endpoints : List Text :=
  (d.endpoint :: ((d.config.map (fun c => c.body.endpoints.nodes.map Prod.snd)).getD [])).take 8

/-- What an address offers, if it may follow what is held. -/
def offer (net : Replies C) (endpoint : Text) : Option C.Config :=
  if !K.validUrl endpoint then none
  else match net.network endpoint with
    | none => none
    | some info =>
        if info.genesis.hash C ≠ d.genesis.hash C then none
        else match checkConfig d.genesis info.config d.config with
          | .ok () => some info.config
          | .error _ => none

/-- The relays a client can dial. -/
def streams (config : C.Config) : List (Pubkey × Text) :=
  config.body.relayClientAddrs.filter (fun relay => K.dialable relay.2)

/-- `Discovery::refresh`: the files, the state, and whether it ended well. -/
def refresh (files : Files C) (net : Replies C) (writes : Writes) :
    Files C × Discovery C × Option C.Config :=
  match d.endpoints.findSome? (d.offer K net) with
  | none => (files, d, none)
  | some config =>
      let d' := { d with config := some config }
      if !writes.network then (files, d', none)
      else
        let files := { files with network := some config }
        if (streams K config).isEmpty || !writes.bootstrap then (files, d', none)
        else ({ files with streams := some (streams K config) }, d', some config)

/-- A service of the configuration, if its descriptor may be used.  `none` ends `profile`. -/
def target (config : C.Config) (net : Replies C) (entry : ServiceTag × Text) :
    Option (Option ServiceTarget) :=
  match config.body.services.find? (fun service => decide (service.1 = entry.1)) with
  | none => some none
  | some placement =>
      if !K.validUrl entry.2 then some none
      else match net.descriptor entry.2 with
        | none => some none
        | some signed =>
            let descriptor := signed.descriptor
            if descriptor.network ≠ d.genesis.hash C ∨
                descriptor.serviceIdentity ≠ placement.2 ∨
                ServiceTag.fromLabel C descriptor.tag ≠ entry.1 ∨
                descriptor.validate (net.clock entry.1) = false then some none
            else match K.signingBytes descriptor with
              | none => none
              | some bytes =>
                  if C.pubkeyVerify placement.2 bytes signed.signature then
                    some (some ⟨placement.2, signed, false⟩)
                  else some none

/-- The name of a service in the profile. -/
def serviceName (tag : ServiceTag) (descriptor : ServiceDescriptor) : String :=
  if descriptor.tag.utf8ByteSize ≤ 64 ∧ 0 < descriptor.tag.utf8ByteSize ∧
      nameChars descriptor.tag = true then descriptor.tag
  else Broker.hexEncode tag.val

/-- The body of the loop of `profile`. -/
def addService (config : C.Config) (net : Replies C)
    (acc : OrdMap String ServiceTarget × List String) (entry : ServiceTag × Text) :
    Option (OrdMap String ServiceTarget × List String) :=
  match d.target K config net entry with
  | none => none
  | some none => some acc
  | some (some target) =>
      let name := serviceName entry.1 target.signed.descriptor
      if target.signed.descriptor.feedMirrors.isEmpty || acc.1.contains name then none
      else some (acc.1.insert name target, acc.2 ++ target.signed.descriptor.feedMirrors)

/-- `Discovery::profile`. -/
def profile (config : C.Config) (net : Replies C) : Option BrokerProfile :=
  match config.body.endpoints.services.foldlM (d.addService K config net) (.empty, []) with
  | none => none
  | some (services, mirrors) =>
      let p : BrokerProfile :=
        ⟨services, (mirrors.insertionSort (· ≤ ·)).destutter (· ≠ ·)⟩
      if p.validate C K net.done then some p else none

end Discovery

/-! ## The client over its life -/

/-- The process: what `follow` works on, and the profile of its broker. -/
structure Client (C : SchedulerCrate) where
  discovery : Discovery C
  profile : BrokerProfile

/-- The state directory, the process, and the configurations that a refresh ended well with, oldest
first. -/
structure ClientState (C : SchedulerCrate) where
  files : Files C
  client : Option (Client C)
  adopted : List C.Config

/-- What happens to a client. -/
inductive ClientStep (C : SchedulerCrate) where
  /-- `Discovery::start`, and the broker on its profile. -/
  | start (args : ServeArgs) (net : Replies C) (writes : Writes)
  /-- A tick of `follow`. -/
  | refresh (net : Replies C) (writes : Writes)
  | crash

namespace ClientState
variable (K : DiscoveryCrate) (s : ClientState C)

/-- An empty state directory. -/
def empty : ClientState C := ⟨⟨none, none, none⟩, none, []⟩

/-- The genesis a start goes on with. -/
def genesisFor (args : ServeArgs) (net : Replies C) : Option Genesis :=
  match s.files.genesis with
  | some saved =>
      if args.imported.all (fun g => decide (g.hash C = saved.hash C)) then some saved else none
  | none =>
      match args.imported with
      | some imported => some imported
      | none => if args.expected.isNone then none else net.first.map NetworkInfo.genesis

/-- What a start asks of the genesis. -/
def genesisOk (C : SchedulerCrate) (args : ServeArgs) (genesis : Genesis) : Bool :=
  decide (genesis.validate = .ok ()) &&
    args.expected.all (fun expected => decide (expected = (genesis.hash C).val))

/-- Whether `network.json` is read back: JSON has no infinity. -/
def readable (config : C.Config) : Bool :=
  config.body.subnets.all (fun subnet => decide (subnet.coverRate.val % 0x80000000 < 0x7f800000))

/-- The saved configuration, unless it cannot be read or does not verify. -/
def saved (genesis : Genesis) : Option (Option C.Config) :=
  match s.files.network with
  | none => some none
  | some saved =>
      if readable saved && decide (genesis.verifyConfig saved = .ok ()) then some (some saved)
      else none

/-- `Discovery::start`, from the state it has read on. -/
def begin (genesis : Genesis) (config : Option C.Config) (args : ServeArgs) (net : Replies C)
    (writes : Writes) : ClientState C :=
  let files := { s.files with genesis := some genesis }
  match Discovery.refresh K ⟨genesis, config, args.endpoint⟩ files net writes with
  | (files, _, none) => { s with files := files }
  | (files, d, some config) =>
      { s with
        files := files
        adopted := s.adopted ++ [config]
        client := match d.profile K config net with
          | none => none
          | some profile => if writes.connection then some ⟨d, profile⟩ else none }

/-- `Discovery::start`. -/
def start (args : ServeArgs) (net : Replies C) (writes : Writes) : ClientState C :=
  if args.expected.any (fun expected => decide (expected.length ≠ 32)) then s
  else match s.genesisFor args net with
    | none => s
    | some genesis =>
        if !genesisOk C args genesis || !writes.genesis then s
        else match s.saved genesis with
          | none => { s with files := { s.files with genesis := some genesis } }
          | some config => s.begin K genesis config args net writes

/-- A tick of `follow`. -/
def tick (client : Client C) (net : Replies C) (writes : Writes) : ClientState C :=
  match client.discovery.refresh K s.files net writes with
  | (files, d, none) => { s with files := files, client := some { client with discovery := d } }
  | (files, d, some config) =>
      let old := authorizeServices config client.profile
      { s with
        files := files
        adopted := s.adopted ++ [config]
        client := some ⟨d, match d.profile K config net with
          | none => old
          | some next =>
              if old.feedAndChain = next.feedAndChain ∧ writes.remote ∧ writes.connection then next
              else old⟩ }

/-- One step.  A state directory has one process at a time. -/
def step : ClientStep C → ClientState C
  | .start args net writes => if s.client.isSome then s else s.start K args net writes
  | .refresh net writes =>
      match s.client with
      | none => s
      | some client => s.tick K client net writes
  | .crash => { s with client := none }

/-- The client after a run. -/
def after (K : DiscoveryCrate) (steps : List (ClientStep C)) : ClientState C :=
  Trace.run empty (step K) steps

end ClientState
end Anymone
