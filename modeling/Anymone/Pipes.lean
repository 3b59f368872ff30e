import Anymone.BincodeCanonical
import Anymone.Participation
import Anymone.Trace

/-! # Frames and pipes

A pipe is where a node receives what is addressed to one tag, and from where it sends.  A message
travels as a frame: a version byte, the tag it is addressed to, and the return tag and payload in
bincode.  Every node decodes every payload of a round and hands it to the pipe registered for its
tag, if there is one.

The random tags of `open` and `send_unlinkable` are arguments.  `open` and `subscribe` register a
pipe in one lock section and join the node in another, and a pipe that is dropped is forgotten in
one and leaves in another; a step of a run is one such section, so other calls may come between.
-/

namespace Anymone.Pipes

/-! ## Frames -/

/-- `RouteTag`; a `ServiceTag` is one too. -/
abbrev RouteTag := ByteArr 20

/-- `Frame`. -/
inductive Frame where
  | raw (dst : RouteTag) (data : Bytes)
  | fragment (dst : RouteTag) (nChunks chunkIndex : U8) (signature : ByteArr 64) (data : Bytes)
  deriving DecidableEq

/-- `WireError`. -/
inductive WireError where
  | truncated
  | unknownVersion (version : U8)
  | invalidChunkCount
  | invalidChunkIndex (index count : U8)
  deriving DecidableEq

namespace Frame
open Bincode

/-- What stands before the data of a fragment. -/
def fragmentHeader : Bincode (RouteTag × U8 × U8 × ByteArr 64) :=
  pair (array 20) (pair (u8 .little) (pair (u8 .little) (array 64)))

/-- `Frame::decode`. -/
def decode : Bytes → Except WireError Frame
  | [] => .error .truncated
  | version :: rest =>
      -- `VERSION_RAW` and `VERSION_MULTI_FRAGMENT`
      if version = 0 then
        match (array 20).read rest with
        | none => .error .truncated
        | some (dst, data) => .ok (.raw dst data)
      else if version = 1 then
        match fragmentHeader.read rest with
        | none => .error .truncated
        | some ((dst, nChunks, chunkIndex, signature), data) =>
            if nChunks = 0 then .error .invalidChunkCount
            else if nChunks ≤ chunkIndex then .error (.invalidChunkIndex chunkIndex nChunks)
            else .ok (.fragment dst nChunks chunkIndex signature data)
      else .error (.unknownVersion version)

/-- `Frame::encode`. -/
def encode : Frame → Bytes
  | raw dst data => 0 :: ((array 20).write dst ++ data)
  | fragment dst nChunks chunkIndex signature data =>
      1 :: (fragmentHeader.write (dst, nChunks, chunkIndex, signature) ++ data)

/-- `Frame::dst`. -/
def dst : Frame → RouteTag
  | raw dst _ => dst
  | fragment dst .. => dst

/-- A fragment is one of its chunks. -/
def Valid : Frame → Prop
  | raw .. => True
  | fragment _ nChunks chunkIndex .. => chunkIndex < nChunks

theorem canonical_fragmentHeader : fragmentHeader.Canonical :=
  canonical_array.pair ((canonical_uint _).pair ((canonical_uint _).pair canonical_array))

/-- A valid frame is read back. -/
theorem decode_encode {f : Frame} (hvalid : f.Valid) : decode f.encode = .ok f := by
  cases f with
  | raw dst data =>
    unfold decode encode
    dsimp only
    rw [if_pos rfl, (array 20).read_write trivial]
  | fragment dst nChunks chunkIndex signature data =>
    have hindex : chunkIndex < nChunks := hvalid
    have hzero : nChunks ≠ 0 := (lt_of_le_of_lt (Fin.zero_le _) hindex).ne'
    unfold decode encode
    dsimp only
    rw [if_neg (by decide), if_pos rfl,
      fragmentHeader.read_write ⟨trivial, trivial, trivial, trivial⟩]
    dsimp only
    rw [if_neg hzero, if_neg (not_le.mpr hindex)]

/-- What is read is valid and was written so. -/
theorem encode_of_decode {bytes : Bytes} {f : Frame} (h : decode bytes = .ok f) :
    f.Valid ∧ f.encode = bytes := by
  cases bytes with
  | nil => cases h
  | cons version rest =>
    unfold decode at h
    dsimp only at h
    by_cases hraw : version = 0
    · rw [if_pos hraw] at h
      subst hraw
      split at h
      next => cases h
      next dst data hread =>
        cases h
        exact ⟨trivial, by rw [encode, ← canonical_array _ _ _ hread]⟩
    · rw [if_neg hraw] at h
      by_cases hfragment : version = 1
      · rw [if_pos hfragment] at h
        subst hfragment
        split at h
        next => cases h
        next dst nChunks chunkIndex signature data hread =>
          split_ifs at h with hzero hindex
          cases h
          exact ⟨not_le.mp hindex, by rw [encode, ← canonical_fragmentHeader _ _ _ hread]⟩
      · rw [if_neg hfragment] at h
        cases h

/-- **What is decoded is exactly what was encoded**: a byte string reads as a frame if and only if
it is what a valid frame is written as. -/
theorem decode_eq_ok_iff (bytes : Bytes) (f : Frame) :
    decode bytes = .ok f ↔ f.Valid ∧ f.encode = bytes := by
  constructor
  · exact encode_of_decode
  · rintro ⟨hvalid, rfl⟩
    exact decode_encode hvalid

end Frame

/-! ## Messages -/

/-- `PipeMessage`. -/
structure PipeMessage where
  returnTag : RouteTag
  payload : Bytes
  deriving DecidableEq

/-- The format of a message. -/
def PipeMessage.format : Bincode PipeMessage :=
  (Bincode.pair (Bincode.array 20) (Bincode.bytes .little)).iso (fun p => ⟨p.1, p.2⟩)
    (fun m => (m.returnTag, m.payload)) (fun _ => rfl)

/-- `framing_overhead`. -/
def framingOverhead : Nat := 1 + 20 + (PipeMessage.format.write ⟨.filled 20 0, []⟩).length

/-- `max_message_payload`. -/
def maxMessagePayload (messageSize : Nat) : Nat := messageSize - framingOverhead

/-- `PipeIncoming`. -/
structure PipeIncoming where
  returnTag : RouteTag
  payload : Bytes
  round : Round
  deriving DecidableEq

/-- The frame of a message. -/
def framed (dst : RouteTag) (msg : PipeMessage) : Bytes :=
  (Frame.raw dst (PipeMessage.format.write msg)).encode

theorem length_framed (dst : RouteTag) (msg : PipeMessage) :
    (framed dst msg).length = framingOverhead + msg.payload.length := by
  simp [framed, Frame.encode, framingOverhead, PipeMessage.format]
  omega

/-- What `route_to_pipe` reads: the tag, and the message for its pipe. -/
def routed (round : Round) (bytes : Bytes) : Option (RouteTag × PipeIncoming) :=
  match Frame.decode bytes with
  | .error _ => none
  | .ok (.fragment ..) => none
  | .ok (.raw dst data) =>
      -- `bincode::deserialize` leaves trailing bytes alone
      (PipeMessage.format.read data).map (fun p => (dst, ⟨p.1.returnTag, p.1.payload, round⟩))

/-- A frame is read back, whatever a carrier pads it with. -/
theorem routed_framed (round : Round) (dst : RouteTag) (msg : PipeMessage) (padding : Bytes)
    (hlen : msg.payload.length < 18446744073709551616) :
    routed round (framed dst msg ++ padding) = some (dst, ⟨msg.returnTag, msg.payload, round⟩) := by
  have hframe : framed dst msg ++ padding =
      (Frame.raw dst (PipeMessage.format.write msg ++ padding)).encode := by
    simp [framed, Frame.encode, List.append_assoc]
  have hfits : PipeMessage.format.Fits msg := ⟨trivial, hlen⟩
  unfold routed
  rw [hframe, Frame.decode_encode (f := .raw dst _) trivial]
  dsimp only
  rw [PipeMessage.format.read_write hfits]
  rfl

/-! ## The pipes of a node -/

/-- What the two halves of a pipe share, with what was sent to its receiver. -/
structure Channel where
  /-- `PipeState::return_tag`. -/
  tag : RouteTag
  /-- `PipeState::peer_tag`. -/
  peer : Option ServiceTag
  /-- The `PipeReceiver` was not dropped. -/
  receiver : Bool
  /-- How many `PipeSender`s there are. -/
  senders : Nat
  inbox : List PipeIncoming
  /-- What `recv` handed out. -/
  received : List PipeIncoming
  deriving DecidableEq

/-- `tx.send(incoming)`: nothing reaches a receiver that was dropped. -/
def Channel.push (msg : PipeIncoming) (c : Channel) : Channel :=
  if c.receiver then { c with inbox := c.inbox ++ [msg] } else c

/-- `rx.recv()`. -/
def Channel.pop (c : Channel) : Channel :=
  match c.inbox with
  | [] => c
  | msg :: inbox => { c with inbox := inbox, received := c.received ++ [msg] }

/-- The part of `AnymoneInner` the pipes use. -/
structure PipeNode (Policy : Type) where
  ourPk : Pubkey
  config : AnymoneRoundConfiguration Policy
  /-- The channel registered for a tag. -/
  pipes : OrdMap RouteTag Nat
  joined : OrdMap RouteTag ServiceTag
  outbox : List Bytes
  /-- Every channel ever made. -/
  channels : List Channel
  /-- The channels whose `open` or `subscribe` has yet to join the node. -/
  joining : List Nat
  /-- The channels whose `PipeState::drop` has yet to take the node's join back. -/
  leaving : List Nat

/-- `OpenError`. -/
inductive OpenError where
  | tagNotInConfig
  | notOurService
  | tagAlreadyOpen
  deriving DecidableEq

/-- `SendError`, of a node that was not dropped. -/
inductive SendError where
  | noPeerTag
  | subnetGone
  | payloadTooLarge (size max : Nat)
  deriving DecidableEq

namespace PipeNode
variable {Policy : Type} (n : PipeNode Policy)

/-- A node that has just started. -/
def start (ourPk : Pubkey) (config : AnymoneRoundConfiguration Policy) : PipeNode Policy :=
  ⟨ourPk, config, .empty, .empty, [], [], [], []⟩

/-! ### Opening -/

/-- A live pipe receives on the tag. -/
def isOpen (tag : RouteTag) : Bool :=
  (n.pipes.get? tag).any (fun i => (n.channels[i]?).any Channel.receiver)

/-- `register_pipe`, and the pipe made of what it returns. -/
def registerPipe (tag : RouteTag) (peer : Option ServiceTag) :
    Except OpenError (PipeNode Policy) :=
  if n.isOpen tag then .error .tagAlreadyOpen
  else .ok { n with
    pipes := n.pipes.insert tag n.channels.length
    channels := n.channels ++ [⟨tag, peer, true, 1, [], []⟩] }

/-- `open` and `subscribe`, up to `joined.insert`. -/
def registerJoining (tag : RouteTag) (service : ServiceTag) :
    Except OpenError (PipeNode Policy) :=
  (n.registerPipe tag (some service)).map (fun n' =>
    { n' with joining := n'.joining ++ [n.channels.length] })

/-- `joined.insert`, the end of `open` and `subscribe`. -/
def join (i : Nat) : PipeNode Policy :=
  match n.channels[i]? with
  | some ⟨tag, some service, _, _, _, _⟩ =>
      if i ∈ n.joining then
        { n with joined := n.joined.insert tag service, joining := n.joining.erase i }
      else n
  | _ => n

/-- A service of the configuration has the tag. -/
def hasCarrier (tag : ServiceTag) : Bool :=
  n.config.body.services.any (fun svc => decide (svc.1 = tag))

/-- `open`, with the return tag it draws. -/
def openPipe (tag : ServiceTag) (returnTag : RouteTag) : Except OpenError (PipeNode Policy) :=
  if !n.hasCarrier tag then .error .tagNotInConfig else n.registerJoining returnTag tag

/-- `bind`. -/
def bind (tag : ServiceTag) : Except OpenError (PipeNode Policy) :=
  match n.config.body.services.find? (fun svc => decide (svc.1 = tag)) with
  | none => .error .tagNotInConfig
  | some svc => if svc.2 ≠ n.ourPk then .error .notOurService else n.registerPipe tag none

/-- `subscribe`. -/
def subscribe (tag : ServiceTag) : Except OpenError (PipeNode Policy) :=
  if !n.hasCarrier tag then .error .tagNotInConfig else n.registerJoining tag tag

/-- `listen`. -/
def listen (tag : ServiceTag) : Except OpenError (PipeNode Policy) :=
  if !n.hasCarrier tag then .error .tagNotInConfig else n.registerPipe tag none

/-! ### The halves -/

/-- Rewrite one channel. -/
def onChannel (i : Nat) (f : Channel → Channel) : PipeNode Policy :=
  { n with channels := n.channels.modify i f }

/-- `PipeState::drop` once no half is left, up to `joined.remove`. -/
def release (i : Nat) (c : Channel) : PipeNode Policy :=
  if n.pipes.get? c.tag = some i then
    { n with
      pipes := n.pipes.erase c.tag
      leaving := if c.peer.isSome then n.leaving ++ [i] else n.leaving }
  else n

/-- `joined.remove`, the end of `PipeState::drop`. -/
def leave (i : Nat) : PipeNode Policy :=
  match n.channels[i]? with
  | none => n
  | some c =>
      if i ∈ n.leaving then
        { n with joined := n.joined.erase c.tag, leaving := n.leaving.erase i }
      else n

/-- A clone of a `PipeSender`. -/
def cloneSender (i : Nat) : PipeNode Policy :=
  n.onChannel i (fun c => { c with senders := if c.senders = 0 then 0 else c.senders + 1 })

/-- A `PipeSender` is dropped. -/
def dropSender (i : Nat) : PipeNode Policy :=
  match n.channels[i]? with
  | none => n
  | some c =>
      let fewer := n.onChannel i (fun c => { c with senders := c.senders - 1 })
      if c.senders = 1 ∧ c.receiver = false then fewer.release i c else fewer

/-- The `PipeReceiver` is dropped, and what it was not asked for with it. -/
def dropReceiver (i : Nat) : PipeNode Policy :=
  match n.channels[i]? with
  | none => n
  | some c =>
      let closed := n.onChannel i (fun c => { c with receiver := false, inbox := [] })
      if c.receiver = true ∧ c.senders = 0 then closed.release i c else closed

/-- `recv`, or `try_recv`. -/
def recv (i : Nat) : PipeNode Policy := n.onChannel i Channel.pop

/-- `route_to_pipe`. -/
def routeToPipe (round : Round) (bytes : Bytes) : PipeNode Policy :=
  match routed round bytes with
  | none => n
  | some (dst, msg) =>
      match n.pipes.get? dst with
      | none => n
      | some i => n.onChannel i (Channel.push msg)

/-! ### Sending -/

/-- The message sizes of the runnable subnets. -/
def messageSizes : List Nat :=
  (n.config.body.subnets.filter subnetRunnable).map (fun s => s.protocol.messageSize.val)

/-- `check_size_against`. -/
def checkSize (payloadLen : Nat) : Except SendError Unit :=
  match n.messageSizes.min? with
  | none => .error .subnetGone
  | some max =>
      if max < framingOverhead + payloadLen then
        .error (.payloadTooLarge (framingOverhead + payloadLen) max)
      else .ok ()

/-- `send_inner`. -/
def sendInner (dst returnTag : RouteTag) (payload : Bytes) : Except SendError (PipeNode Policy) :=
  (n.checkSize payload.length).map (fun _ =>
    { n with outbox := n.outbox ++ [framed dst ⟨returnTag, payload⟩] })

/-- `PipeSender::send_to`. -/
def sendTo (c : Channel) (dst : RouteTag) (payload : Bytes) :
    Except SendError (PipeNode Policy) :=
  n.sendInner dst c.tag payload

/-- `PipeSender::send`. -/
def send (c : Channel) (payload : Bytes) : Except SendError (PipeNode Policy) :=
  match c.peer with
  | none => .error .noPeerTag
  | some dst => n.sendTo c dst payload

/-- `PipeSender::send_unlinkable`, with the one-off tag it draws. -/
def sendUnlinkable (c : Channel) (oneOff : RouteTag) (payload : Bytes) :
    Except SendError (PipeNode Policy) :=
  match c.peer with
  | none => .error .noPeerTag
  | some dst => n.sendInner dst oneOff payload

end PipeNode

/-! ## Runs -/

/-- What happens at a node. -/
inductive PipeOp (Policy : Type) where
  | adopt (config : AnymoneRoundConfiguration Policy)
  | openPipe (tag : ServiceTag) (returnTag : RouteTag)
  | bind (tag : ServiceTag)
  | subscribe (tag : ServiceTag)
  | listen (tag : ServiceTag)
  | join (i : Nat)
  | leave (i : Nat)
  | cloneSender (i : Nat)
  | dropSender (i : Nat)
  | dropReceiver (i : Nat)
  | recv (i : Nat)
  | route (round : Round) (bytes : Bytes)
  | sendTo (i : Nat) (dst : RouteTag) (payload : Bytes)
  | send (i : Nat) (payload : Bytes)
  | sendUnlinkable (i : Nat) (oneOff : RouteTag) (payload : Bytes)
  /-- A worker takes frames from the outbox, or puts them back. -/
  | stage (outbox : List Bytes)

namespace PipeNode
variable {Policy : Type}

/-- A refused call changes nothing. -/
def orKeep {ε : Type} (n : PipeNode Policy) : Except ε (PipeNode Policy) → PipeNode Policy
  | .ok n' => n'
  | .error _ => n

/-- A call on a sender of a channel. -/
def onSender (n : PipeNode Policy) (i : Nat)
    (call : Channel → Except SendError (PipeNode Policy)) : PipeNode Policy :=
  match n.channels[i]? with
  | none => n
  | some c => if c.senders = 0 then n else n.orKeep (call c)

/-- A call on a half of a pipe, which is handed out once its opening is over. -/
def onHalf (n : PipeNode Policy) (i : Nat) (call : PipeNode Policy → PipeNode Policy) :
    PipeNode Policy :=
  if i ∈ n.joining then n else call n

/-- The step of a node. -/
def step (n : PipeNode Policy) : PipeOp Policy → PipeNode Policy
  | .adopt config => { n with config := config }
  | .openPipe tag returnTag => n.orKeep (n.openPipe tag returnTag)
  | .bind tag => n.orKeep (n.bind tag)
  | .subscribe tag => n.orKeep (n.subscribe tag)
  | .listen tag => n.orKeep (n.listen tag)
  | .join i => n.join i
  | .leave i => n.leave i
  | .cloneSender i => n.onHalf i (fun n => n.cloneSender i)
  | .dropSender i => n.onHalf i (fun n => n.dropSender i)
  | .dropReceiver i => n.onHalf i (fun n => n.dropReceiver i)
  | .recv i => n.onHalf i (fun n => n.recv i)
  | .route round bytes => n.routeToPipe round bytes
  | .sendTo i dst payload =>
      n.onHalf i (fun n => n.onSender i (fun c => n.sendTo c dst payload))
  | .send i payload => n.onHalf i (fun n => n.onSender i (fun c => n.send c payload))
  | .sendUnlinkable i oneOff payload =>
      n.onHalf i (fun n => n.onSender i (fun c => n.sendUnlinkable c oneOff payload))
  | .stage outbox => { n with outbox := outbox }

/-- The node after a run. -/
def after (ourPk : Pubkey) (config : AnymoneRoundConfiguration Policy)
    (ops : List (PipeOp Policy)) : PipeNode Policy :=
  Trace.run (start ourPk config) step ops

end PipeNode
end Anymone.Pipes
