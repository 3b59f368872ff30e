import Anymone.NetworkConfig
import Anymone.Trace
import Mathlib.Logic.Function.Basic

/-! # The per-round participation draw

A node takes part, with cover or with a real payload, in one subnet per round.  No
worker is told which: each one computes the draw for its round from the node's current
configuration and attestation, in `sync_client_round`, at its own moment.  The tasks
that adopt configurations and refresh the attestation change both in between.
-/

namespace Anymone

/-- The `dyn Session` of a client as `sync_client_round` uses it, and what else the draw
takes from outside. -/
structure ParticipationEnv (Policy S : Type) where
  /-- `AttestationPolicy::validity_rounds`. -/
  validityRounds : Policy → Round
  /-- The default hasher over the node's participation seed and a round. -/
  drawHash : Round → U64
  setCoverRate : S → U32 → S
  hasPendingTransmissions : S → Bool
  canStage : S → Bool
  stage : S → Bytes → S
  /-- What dropping the session puts back at the front of the outbox. -/
  requeued : S → List Bytes
  /-- The worker's own `make`. -/
  make : SubnetId → Round → S

/-- `ClientSessionFactory`. -/
structure ClientSessionFactory (S : Type) where
  accepts : Subnet → List (Pubkey × ExchangePublicKeyWire) → Bool
  create : Subnet → List (Pubkey × ExchangePublicKeyWire) → Round → S

/-- `Attestation`. -/
structure Attestation where
  round : Round
  evidence : Bytes
  deriving DecidableEq

/-- `OwnAttestation`. -/
structure OwnAttestation where
  held : Option Attestation
  delivered : Bool
  deriving DecidableEq

namespace OwnAttestation
variable (own : OwnAttestation) (att : Attestation)

/-- `refresh_own_attestation`, when the prover has answered. -/
def hold : OwnAttestation :=
  if own.held.any (fun held => decide (att.round < held.round)) then own else ⟨some att, false⟩

/-- Its end, when the transport has the attestation. -/
def deliver : OwnAttestation :=
  if own.held.any (fun held => decide (held.round = att.round)) then
    { own with delivered := true }
  else own

end OwnAttestation

/-- What `AttestedClients` tells a client of: the policy adopted, its validity and the
round of the configuration. -/
structure AttestedClients (Policy : Type) where
  policy : Option Policy
  round : Round
  validityRounds : Round
  deriving DecidableEq

/-- A node: the part of `AnymoneInner` the draw and `sync_client_round` use, and each
worker's client session. -/
structure AnymoneInner (Policy S : Type) where
  config : AnymoneRoundConfiguration Policy
  clientFactory : Option (ClientSessionFactory S)
  joined : List ServiceTag
  outbox : List Bytes
  clients : AttestedClients Policy
  own : OwnAttestation
  session : SubnetId → Option S

/-- `subnet_runnable`: every protocol has runtime wiring. -/
def subnetRunnable (subnet : Subnet) : Bool := !subnet.relays.isEmpty

namespace AnymoneInner
variable {Policy S : Type} (P : ParticipationEnv Policy S) (s : AnymoneInner Policy S)

/-! ## The draw -/

/-- `attestation_ready`. -/
def attestationReady : Bool :=
  s.own.delivered && s.own.held.any (fun a =>
    decide (a.round ≤ s.clients.round) &&
      decide (s.clients.round < a.round.saturatingAdd s.clients.validityRounds.val))

/-- `candidates` in `participation_subnet`. -/
def candidates : List SubnetId :=
  ((s.config.body.subnets.filter (fun n =>
      subnetRunnable n && (s.attestationReady || !n.attested))).filter (fun n =>
      s.clientFactory.all (fun f => f.accepts n s.config.body.relayExchangeKeys))).map (·.id)

/-- `participation_subnet`. -/
def participationSubnet (round : Round) : Option SubnetId :=
  let sorted := s.candidates.insertionSort (· ≤ ·)
  sorted[(P.drawHash round).val % sorted.length]?

/-! ## The round of a worker -/

/-- `1.0`. -/
def oneBits : U32 := 1065353216

/-- The subnet the factory's session is built for. -/
def factorySubnet (subnet : SubnetId) : Option Subnet :=
  s.config.body.subnets.find? (fun n => decide (n.id = subnet))

/-- What `or_insert_with` puts in the `Client` entry. -/
def newSession (subnet : SubnetId) (round : Round) : S :=
  match s.clientFactory, s.factorySubnet subnet with
  | some f, some n => f.create n s.config.body.relayExchangeKeys round
  | _, _ => P.make subnet round

/-- A worker's `Client` entry. -/
def setSession (subnet : SubnetId) (sess : Option S) : AnymoneInner Policy S :=
  { s with session := Function.update s.session subnet sess }

/-- `sessions.remove` of the `Client` entry. -/
def dropSession (subnet : SubnetId) : AnymoneInner Policy S :=
  match s.session subnet with
  | none => s
  | some sess => { s with outbox := P.requeued sess ++ s.outbox }.setSession subnet none

/-- The factory no longer accepts the worker's subnet. -/
def factoryRefuses (subnet : SubnetId) : Bool :=
  s.clientFactory.any (fun f => !s.config.body.subnets.any (fun n =>
    decide (n.id = subnet) && f.accepts n s.config.body.relayExchangeKeys))

/-- Nothing joined and nothing queued: the session stays only while it has transmissions
pending. -/
def retire (subnet : SubnetId) : AnymoneInner Policy S :=
  match s.session subnet with
  | none => s
  | some sess =>
      if P.hasPendingTransmissions (P.setCoverRate sess 0) then
        s.setSession subnet (some (P.setCoverRate sess 0))
      else (s.setSession subnet (some (P.setCoverRate sess 0))).dropSession P subnet

/-- The worker's session, with the cover rate of the round. -/
def entered (subnet : SubnetId) (round : Round) (submit : Bool) : S :=
  P.setCoverRate ((s.session subnet).getD (s.newSession P subnet round))
    (if submit then oneBits else 0)

/-- The rest of `sync_client_round`, once it is decided whether to submit. -/
def enter (subnet : SubnetId) (round : Round) (submit : Bool) : AnymoneInner Policy S :=
  let sess := s.entered P subnet round submit
  if submit && P.canStage sess then
    match s.outbox with
    | [] => s.setSession subnet (some sess)
    | frame :: rest => { s with outbox := rest }.setSession subnet (some (P.stage sess frame))
  else s.setSession subnet (some sess)

/-- `submit` in `sync_client_round`; `none` where it returns before it gets there.  The
coin is whether the roll was below the rate. -/
def decides (subnet : SubnetId) (round : Round) (coin : Bool) : Option Bool :=
  if s.factoryRefuses subnet then none
  else if s.joined.isEmpty && s.outbox.isEmpty then none
  else some (decide (s.participationSubnet P round = some subnet) && coin)

/-- `sync_client_round`. -/
def syncClientRound (subnet : SubnetId) (round : Round) (coin : Bool) :
    AnymoneInner Policy S :=
  match s.decides P subnet round coin with
  | some submit => s.enter P subnet round submit
  | none =>
      if s.factoryRefuses subnet then s.dropSession P subnet
      else s.retire P subnet

/-! ## The tasks beside the workers -/

/-- `reconfig_watch`: a strictly newer version is swapped in. -/
def adopt (config : AnymoneRoundConfiguration Policy) : AnymoneInner Policy S :=
  if config.body.round ≤ s.config.body.round then s else { s with config := config }

/-- `DEFAULT_VALIDITY_ROUNDS`. -/
def defaultValidityRounds : Round := 100

/-- The attestation part of `apply_config`, for the configuration last swapped in. -/
def applyAttestation [DecidableEq Policy] : AnymoneInner Policy S :=
  let body := s.config.body
  if s.clients.policy = some body.attestation then
    { s with clients := { s.clients with round := body.round } }
  else
    -- A changed policy drops what was proved under the old one.
    let validity := P.validityRounds body.attestation
    { s with
      clients := ⟨some body.attestation, body.round,
        if validity = 0 then defaultValidityRounds else validity⟩
      own := ⟨none, false⟩ }

/-- `refresh_own_attestation`, up to its last await. -/
def holdAttestation (att : Attestation) : AnymoneInner Policy S :=
  { s with own := s.own.hold att }

/-- The rest of it. -/
def deliverAttestation (att : Attestation) : AnymoneInner Policy S :=
  { s with own := s.own.deliver att }

/-- `set_client_factory`. -/
def setClientFactory (f : ClientSessionFactory S) : AnymoneInner Policy S :=
  if !s.joined.isEmpty || !s.outbox.isEmpty then s
  else if !s.config.body.subnets.any (fun n => f.accepts n s.config.body.relayExchangeKeys)
  then s
  else if s.clientFactory.isSome then s
  else { s with clientFactory := some f }

end AnymoneInner

/-! ## Runs -/

/-- What happens at a node that matters to the draw. -/
inductive NodeOp (Policy S : Type) where
  | adopt (config : AnymoneRoundConfiguration Policy)
  | applyAttestation
  | holdAttestation (att : Attestation)
  | deliverAttestation (att : Attestation)
  | setClientFactory (f : ClientSessionFactory S)
  | join (tag : ServiceTag)
  | leave (tag : ServiceTag)
  | queue (payload : Bytes)
  | sync (subnet : SubnetId) (round : Round) (coin : Bool)

namespace AnymoneInner
variable {Policy S : Type} [DecidableEq Policy] (P : ParticipationEnv Policy S)

/-- One operation. -/
def apply (s : AnymoneInner Policy S) : NodeOp Policy S → AnymoneInner Policy S
  | .adopt config => s.adopt config
  | .applyAttestation => s.applyAttestation P
  | .holdAttestation att => s.holdAttestation att
  | .deliverAttestation att => s.deliverAttestation att
  | .setClientFactory f => s.setClientFactory f
  | .join tag => { s with joined := s.joined.insert tag }
  | .leave tag => { s with joined := s.joined.erase tag }
  | .queue payload => { s with outbox := s.outbox ++ [payload] }
  | .sync subnet round coin => s.syncClientRound P subnet round coin

/-- The node after the operations. -/
def after (s : AnymoneInner Policy S) (ops : List (NodeOp Policy S)) : AnymoneInner Policy S :=
  ops.foldl (apply P) s

theorem after_concat (s : AnymoneInner Policy S) (ops : List (NodeOp Policy S))
    (op : NodeOp Policy S) : s.after P (ops ++ [op]) = (s.after P ops).apply P op :=
  List.foldl_concat ..

/-- The subnet and round of a call that decides to submit. -/
def submission (s : AnymoneInner Policy S) : NodeOp Policy S → Option (SubnetId × Round)
  | .sync subnet round coin =>
      if s.decides P subnet round coin = some true then some (subnet, round) else none
  | _ => none

/-- The submissions decided in a run, oldest first. -/
def submissions (s : AnymoneInner Policy S) (ops : List (NodeOp Policy S)) :
    List (SubnetId × Round) :=
  (Trace.steps ops).filterMap (fun σ => (s.after P σ.1).submission P σ.2)

/-- The calls of a run: which worker, for which round. -/
def calls (ops : List (NodeOp Policy S)) : List (SubnetId × Round) :=
  ops.filterMap (fun op => match op with
    | .sync subnet round _ => some (subnet, round)
    | _ => none)

/-- Each worker calls `sync_client_round` once for a round. -/
def OncePerRound (ops : List (NodeOp Policy S)) : Prop := (calls ops).Nodup

/-- The rounds some worker still calls for after the first `n` operations. -/
def roundsAfter (ops : List (NodeOp Policy S)) (n : Nat) : List Round :=
  (calls (ops.drop n)).map Prod.snd

/-- An operation of the run leaves the draw as it is of every round already submitted in that
some worker still calls for. -/
def KeepsDraw (s : AnymoneInner Policy S) (ops : List (NodeOp Policy S))
    (σ : List (NodeOp Policy S) × NodeOp Policy S) : Prop :=
  ∀ c ∈ s.submissions P σ.1, c.2 ∈ roundsAfter ops (σ.1.length + 1) →
    ((s.after P σ.1).apply P σ.2).participationSubnet P c.2 =
      (s.after P σ.1).participationSubnet P c.2

instance (ops : List (NodeOp Policy S)) : Decidable (OncePerRound ops) :=
  inferInstanceAs (Decidable (List.Nodup _))

instance (s : AnymoneInner Policy S) (ops : List (NodeOp Policy S))
    (σ : List (NodeOp Policy S) × NodeOp Policy S) : Decidable (s.KeepsDraw P ops σ) :=
  List.decidableBAll (fun c : SubnetId × Round => c.2 ∈ roundsAfter ops (σ.1.length + 1) →
    ((s.after P σ.1).apply P σ.2).participationSubnet P c.2 =
      (s.after P σ.1).participationSubnet P c.2) (s.submissions P σ.1)

/-- Same configuration, same readiness and same client factory. -/
def SameInputs (s s' : AnymoneInner Policy S) : Prop :=
  s'.config = s.config ∧ s'.attestationReady = s.attestationReady ∧
    s'.clientFactory = s.clientFactory

end AnymoneInner
end Anymone
