import Anymone.ClientSetFinalize
import Anymone.SchedulerChannel
import Anymone.Trace
import Mathlib.Logic.Function.Basic

/-! # The backbone and its stream clients

Nodes exchange frames on topics over authenticated links: a frame arrives under the key of
the node that transmitted it.  A node admits a frame on a topic that its view binds to a
roster when the roster holds that key.  Clients are not on the backbone; they dial a node,
which may republish what they submit, under its own key.

A node is its `Shared` state, its client feeds, and the two queues into its network loop.
The rest of the loop, who is connected and what gets lost, is up to the run.
-/

namespace Anymone
variable {C : SchedulerCrate}

/-- `Topic`. -/
inductive Topic where
  | config
  | registration
  | faults
  | committeeBody
  | committeeSigs
  | broadcast (subnet : SubnetId)
  | shares (subnet : SubnetId)
  deriving DecidableEq

/-! ## The view of a configuration -/

/-- `NetView`. -/
structure NetView where
  index : Round
  /-- Who may publish on a topic; a topic with no entry is open. -/
  senders : Topic → Option (List Pubkey)
  primary : List Pubkey
  secondary : List Pubkey
  registrationRecipients : List Pubkey
  relayClientAddrs : List (Pubkey × Text)
  subnets : List SubnetId

/-- `subnet_aggregation`, its aggregators. -/
def subnetAggregators (subnet : Subnet) : List Pubkey :=
  match subnet.protocol with
  | .adcnet c => (c.aggregation.map Aggregation.groups).getD []
  | _ => []

/-- One turn of the loop of `net_view`. -/
def bindSubnet (senders : Topic → Option (List Pubkey)) (subnet : Subnet) :
    Topic → Option (List Pubkey) :=
  let senders := Function.update senders (.shares subnet.id)
    (some (subnet.relays ++ subnetAggregators subnet))
  match subnet.protocol with
  | .noop _ => senders
  | _ => Function.update senders (.broadcast subnet.id) (some subnet.relays)

/-- `net_view`. -/
def netView (body : C.Body) (committee : List Pubkey) : NetView :=
  let senders := body.subnets.foldl bindSubnet (fun _ => none)
  let senders := Function.update senders .faults (some (body.subnets.flatMap Subnet.relays))
  let primary := sortDedup (committee ++
    body.subnets.flatMap (fun s => s.relays ++ subnetAggregators s))
  { index := body.round
    senders := Function.update senders .config (some committee)
    primary := primary
    secondary := sortDedup (body.watchers.filter (fun pk => !primary.contains pk))
    registrationRecipients := sortDedup (committee ++ body.watchers)
    relayClientAddrs := body.relayClientAddrs
    subnets := body.subnets.map Subnet.id }

/-! ## Messages -/

/-- `NetFrame`. -/
inductive NetFrame where
  | topic (topic : Topic) (payload : Bytes)
  | direct (subnet : SubnetId) (payload : Bytes)
  deriving DecidableEq

/-- Where a frame comes from.  This is not on the wire. -/
inductive Origin where
  /-- A `Cmd::Publish` or `Cmd::Send` of the node that transmits it. -/
  | published
  /-- A client's frame that a node republishes. -/
  | forwarded
  /-- A client's frame, under the client's key. -/
  | spoken
  deriving DecidableEq

/-- `Cmd`, without the config pull. -/
inductive Cmd where
  | publish (topic : Topic) (bytes : Bytes)
  | send (dest : Pubkey) (subnet : SubnetId) (bytes : Bytes)
  | track (index : Round) (primary secondary : List Pubkey)
  deriving DecidableEq

/-- `StreamMsg`. -/
inductive StreamMsg where
  | configReq
  | configResp (config : Option Bytes)
  | register (bytes : Bytes)
  | attest (attestation : Bytes)
  | data (subnet : SubnetId) (payload : Bytes)
  | submit (topic : Topic) (payload : Bytes)
  | feedSubscribe (topics : List Topic)
  | feedFrame (topic : Topic) (sender : Pubkey) (payload : Bytes)
  deriving DecidableEq

/-- What `try_send` on a feed finds. -/
inductive FeedStatus where
  | ready
  | full
  | closed
  deriving DecidableEq

/-- Who reads a topic at a node: a local subscriber, or the feed of a client. -/
inductive Reader where
  | subscriber
  | feed (conn : Nat)
  deriving DecidableEq

/-- What a node hands on. -/
inductive Output where
  | frame (reader : Reader) (topic : Topic) (sender : Pubkey) (payload : Bytes) (origin : Origin)
  | inbox (subnet : SubnetId) (sender : Pubkey) (payload : Bytes)
  | configResp (conn : Nat) (config : Option Bytes)
  deriving DecidableEq

/-- A frame between two nodes. -/
structure Packet where
  sender : Pubkey
  dest : Pubkey
  frame : NetFrame
  origin : Origin
  deriving DecidableEq

/-! ## A node -/

/-- `Shared`. -/
structure Shared where
  senders : Topic → Option (List Pubkey)
  servedConfig : Option Bytes
  /-- The topics with a channel to local subscribers. -/
  topics : List Topic
  inboxes : List SubnetId
  regRecipients : List Pubkey
  subnets : List SubnetId

namespace Shared
variable (s : Shared)

/-- `deliver_local`. -/
def deliverLocal (topic : Topic) (sender : Pubkey) (payload : Bytes) (origin : Origin) :
    List Output :=
  if s.topics.contains topic then [.frame .subscriber topic sender payload origin] else []

/-- `deliver_inbox`. -/
def deliverInbox (subnet : SubnetId) (sender : Pubkey) (payload : Bytes) : List Output :=
  if s.inboxes.contains subnet then [.inbox subnet sender payload] else []

/-- `subnet_known`. -/
def subnetKnown (subnet : SubnetId) : Bool := s.subnets.contains subnet

/-- `admits`. -/
def admits (topic : Topic) (sender : Pubkey) : Bool :=
  match s.senders topic with
  | some roster => roster.contains sender
  | none => true

/-- `topic_is_bound`. -/
def topicIsBound (topic : Topic) : Bool := (s.senders topic).isSome

end Shared

/-- `Feeds`: the connections subscribed to a topic. -/
abbrev Feeds := Topic → List Nat

namespace Feeds

/-- `Feeds::add`. -/
def add (feeds : Feeds) (topics : List Topic) (conn : Nat) : Feeds :=
  topics.foldl (fun feeds t =>
    if (feeds t).contains conn then feeds else Function.update feeds t (feeds t ++ [conn])) feeds

/-- `Feeds::fanout`. -/
def fanout (feeds : Feeds) (status : Nat → FeedStatus) (topic : Topic) (sender : Pubkey)
    (payload : Bytes) (origin : Origin) : Feeds × List Output :=
  (Function.update feeds topic ((feeds topic).filter (fun c => status c ≠ .closed)),
    ((feeds topic).filter (fun c => status c = .ready)).map
      (fun c => .frame (.feed c) topic sender payload origin))

end Feeds

/-- A `CommonwareNetwork` with its loop. -/
structure Node where
  shared : Shared
  feeds : Feeds
  /-- `cmds`, in order. -/
  cmds : List Cmd
  /-- `forward_rx`, in order. -/
  forwards : List (Topic × Bytes)

/-- What a deployment fixes.  `decode` reads a registration, `allows` says which clients a
node's listener accepts. -/
structure BackboneConfig where
  committee : List Pubkey
  threshold : U32
  decode : Bytes → Option Registration
  allows : Pubkey → Pubkey → Bool

/-- `MAX_TRANSMIT_SIZE`. -/
def maxTransmitSize : Nat := 16 * 1024 * 1024

namespace Node
variable (cfg : BackboneConfig) (node : Node) (me : Pubkey)

/-- `CommonwareNetwork::start`. -/
def start : Node :=
  ⟨⟨fun _ => none, none, [], [], cfg.committee, []⟩, fun _ => [], [], []⟩

/-- `apply`. -/
def apply (view : NetView) : Node :=
  { node with
    shared := { node.shared with
      senders := view.senders
      regRecipients := view.registrationRecipients
      subnets := view.subnets }
    cmds := node.cmds ++ [.track view.index view.primary view.secondary] }

/-- `publish`. -/
def publish (topic : Topic) (bytes : Bytes) : Node :=
  if !node.shared.admits topic me then node
  else if maxTransmitSize < bytes.length then node
  else { node with cmds := node.cmds ++ [.publish topic bytes] }

/-- `send`. -/
def send (dest : Pubkey) (subnet : SubnetId) (bytes : Bytes) : Node :=
  if maxTransmitSize < bytes.length then node
  else { node with cmds := node.cmds ++ [.send dest subnet bytes] }

/-- `subscribe`. -/
def subscribe (topic : Topic) : Node :=
  { node with shared := { node.shared with topics := node.shared.topics.insert topic } }

/-- `inbox`. -/
def inbox (subnet : SubnetId) : Node :=
  { node with shared := { node.shared with inboxes := node.shared.inboxes.insert subnet } }

/-- `serve_config`. -/
def serveConfig (bytes : Bytes) : Node :=
  { node with shared := { node.shared with servedConfig := some bytes } }

/-- `session`: one message of a client, on connection `conn`. -/
def session (C : SchedulerCrate) (status : Nat → FeedStatus) (client : Pubkey) (conn : Nat) :
    StreamMsg → Node × List Output
  | .configReq => (node, [.configResp conn node.shared.servedConfig])
  | .attest _ => (node, [])
  | .register bytes =>
      match cfg.decode bytes with
      | some reg =>
          if reg.verify C then
            ({ node with forwards := node.forwards ++ [(.registration, bytes)] },
              node.shared.deliverLocal .registration client bytes .spoken)
          else (node, [])
      | none => (node, [])
  | .submit topic payload =>
      match topic with
      | .broadcast subnet =>
          -- A bound topic is closed to clients, by the view of this node.
          if node.shared.topicIsBound (.broadcast subnet) then (node, [])
          else
            let fan := node.feeds.fanout status (.broadcast subnet) client payload .spoken
            ({ node with
                feeds := fan.1
                forwards := node.forwards ++ [(.broadcast subnet, payload)] },
              fan.2 ++ node.shared.deliverLocal (.broadcast subnet) client payload .spoken)
      | _ => (node, [])
  | .data subnet payload =>
      if !node.shared.subnetKnown subnet then (node, [])
      else (node, node.shared.deliverInbox subnet client payload)
  | .feedSubscribe topics =>
      ({ node with feeds := node.feeds.add (topics.filter (fun t =>
          match t with
          | .broadcast _ | .config => true
          | _ => false)) conn }, [])
  | .configResp _ | .feedFrame .. => (node, [])

/-- The packets of `transmit`, to those of the connected `peers` it is for. -/
def transmit (peers : List Pubkey) (frame : NetFrame) (dest : Option Pubkey) (origin : Origin) :
    List Packet :=
  let recipients := match frame with
    | .direct .. => dest.toList
    | .topic t _ => if t = Topic.registration then node.shared.regRecipients else peers
  ((recipients.filter (fun p => peers.contains p && p ≠ me)).map
    (fun p => ⟨me, p, frame, origin⟩))

/-- The loop takes the next command. -/
def command (peers : List Pubkey) (status : Nat → FeedStatus) : Node × List Packet × List Output :=
  match node.cmds with
  | [] => (node, [], [])
  | cmd :: cmds =>
      let node := { node with cmds := cmds }
      match cmd with
      | .publish topic bytes =>
          let fan := node.feeds.fanout status topic me bytes .published
          ({ node with feeds := fan.1 },
            node.transmit me peers (.topic topic bytes) none .published, fan.2)
      | .send dest subnet bytes =>
          (node, node.transmit me peers (.direct subnet bytes) (some dest) .published, [])
      | .track .. => (node, [], [])

/-- The loop takes the next frame of a client. -/
def forward (peers : List Pubkey) : Node × List Packet :=
  match node.forwards with
  | [] => (node, [])
  | (topic, bytes) :: forwards =>
      ({ node with forwards := forwards },
        node.transmit me peers (.topic topic bytes) none .forwarded)

/-- The inbound demux. -/
def receive (status : Nat → FeedStatus) (sender : Pubkey) (origin : Origin) :
    NetFrame → Node × List Output
  | .topic topic payload =>
      if !node.shared.admits topic sender then (node, [])
      else
        let fan := node.feeds.fanout status topic sender payload origin
        ({ node with feeds := fan.1 },
          fan.2 ++ node.shared.deliverLocal topic sender payload origin)
  | .direct subnet payload => (node, node.shared.deliverInbox subnet sender payload)

end Node

/-! ## The network -/

/-- Every node, and the frames between them. -/
structure Backbone where
  node : Pubkey → Node
  wire : List Packet

/-- One step of the network. -/
inductive BackboneOp (C : SchedulerCrate) where
  | subscribe (node : Pubkey) (topic : Topic)
  | inbox (node : Pubkey) (subnet : SubnetId)
  | serveConfig (node : Pubkey) (bytes : Bytes)
  | apply (node : Pubkey) (config : C.Config)
  | publish (node : Pubkey) (topic : Topic) (bytes : Bytes)
  | send (node dest : Pubkey) (subnet : SubnetId) (bytes : Bytes)
  | client (node client : Pubkey) (conn : Nat) (msg : StreamMsg) (status : Nat → FeedStatus)
  | command (node : Pubkey) (peers : List Pubkey) (status : Nat → FeedStatus)
  | forward (node : Pubkey) (peers : List Pubkey)
  | deliver (i : Nat) (status : Nat → FeedStatus)
  | drop (i : Nat)

namespace Backbone
variable (cfg : BackboneConfig) (b : Backbone)

/-- Nobody has a view yet. -/
def init : Backbone := ⟨fun _ => Node.start cfg, []⟩

/-- One node moves on. -/
def setNode (me : Pubkey) (node : Node) : Backbone :=
  { b with node := Function.update b.node me node }

/-- Whether a configuration is one that nodes apply. -/
def governed (config : C.Config) : Bool := verifyMultisig cfg.committee cfg.threshold config

/-- A step: the network after it, and what is handed on at which node. -/
def step : BackboneOp C → Backbone × List (Pubkey × Output)
  | .subscribe me topic => (b.setNode me ((b.node me).subscribe topic), [])
  | .inbox me subnet => (b.setNode me ((b.node me).inbox subnet), [])
  | .serveConfig me bytes => (b.setNode me ((b.node me).serveConfig bytes), [])
  | .apply me config =>
      if governed cfg config then
        (b.setNode me ((b.node me).apply (netView config.body cfg.committee)), [])
      else (b, [])
  | .publish me topic bytes => (b.setNode me ((b.node me).publish me topic bytes), [])
  | .send me dest subnet bytes => (b.setNode me ((b.node me).send dest subnet bytes), [])
  | .client me client conn msg status =>
      if cfg.allows me client then
        let r := (b.node me).session cfg C status client conn msg
        (b.setNode me r.1, r.2.map (me, ·))
      else (b, [])
  | .command me peers status =>
      let r := (b.node me).command me peers status
      ({ b.setNode me r.1 with wire := b.wire ++ r.2.1 }, r.2.2.map (me, ·))
  | .forward me peers =>
      let r := (b.node me).forward me peers
      ({ b.setNode me r.1 with wire := b.wire ++ r.2 }, [])
  | .deliver i status =>
      match b.wire[i]? with
      | some p =>
          let r := (b.node p.dest).receive status p.sender p.origin p.frame
          ({ b.setNode p.dest r.1 with wire := b.wire.eraseIdx i }, r.2.map (p.dest, ·))
      | none => (b, [])
  | .drop i => ({ b with wire := b.wire.eraseIdx i }, [])

/-- The network after the steps. -/
def after (ops : List (BackboneOp C)) : Backbone :=
  Trace.run (init cfg) (fun b op => (b.step cfg op).1) ops

@[simp] theorem after_nil : after (C := C) cfg [] = init cfg := rfl

theorem after_concat (ops : List (BackboneOp C)) (op : BackboneOp C) :
    after cfg (ops ++ [op]) = ((after cfg ops).step cfg op).1 := Trace.run_concat ..

end Backbone

end Anymone
