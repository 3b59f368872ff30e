import Anymone.EthFeed
import Anymone.OrdMap
import Anymone.Trace

/-! # The client's broker

`Broker::rpc` makes a request with a capability of its own, keeps the capability and uploads
the request.  A reader follows the feed: it fetches the batch of one closed epoch after
another, records the packets that the pending capabilities open, and moves its cursor on.

What is fetched, when the reader is started and stopped and what the clock says at each
reading are the environment's (`BrokerOp`).  Sessions follow one another over one store.
-/

namespace Anymone.Eth

/-! ## The store -/

/-- A row of `operations`. -/
structure OperationEntry (K : EthCrypto) where
  capability : ResponseCapability
  response : Option Bytes
  packet : Option (ReplyPacket K)

/-- `OperationStore`. -/
structure OperationStore (K : EthCrypto) where
  operations : OrdMap (ByteArr 32) (OperationEntry K)
  cursors : OrdMap (ByteArr 32) U64
  operationLimits : OrdMap (ByteArr 32) U32

namespace OperationStore
variable {K : EthCrypto} (st : OperationStore K)

/-- `open`, on a new database. -/
def new : OperationStore K := ⟨.empty, .empty, .empty⟩

/-- The operation waits for its response. -/
def waits (entry : OperationEntry K) (now : U64) : Bool :=
  decide (now < entry.capability.context.expiresAt) && entry.response.isNone

/-- `insert`. -/
def insert (cap : ResponseCapability) (maxResponseBytes : U32) (now : U64) :
    Except String (OperationStore K) :=
  let operation := cap.context.operation
  if 128 ≤ (st.operations.retain (fun _ entry => waits entry now)).size then
    .error "too many outstanding operations"
  else if st.operations.contains operation || st.operationLimits.contains operation then
    .error "UNIQUE constraint failed"
  else .ok { st with
    operations := st.operations.insert operation ⟨cap, none, none⟩
    operationLimits := st.operationLimits.insert operation maxResponseBytes }

/-- `pending`. -/
def pending (now : U64) : List (ResponseCapability × Option U32) :=
  (st.operations.retain (fun _ entry => waits entry now)).entries.map
    (fun e => (e.2.capability, st.operationLimits.get? e.1))

/-- `record`. -/
def record (J : JsonText) (cap : ResponseCapability) (packet : ReplyPacket K)
    (maxResponseBytes : U32) (now : U64) : Except String (OperationStore K) := do
  let response ← orText (cap.openResponse packet.binding packet.sealed now)
  if maxResponseBytes.val < response.length then .error "response exceeds service limit"
  else if (J.parseOption response).isNone then .error Error.encoding.text
  else match st.operations.get? cap.context.operation with
    | none => .error "Query returned no rows"
    | some entry =>
        match entry.packet with
        | some existing => if existing = packet then .ok st else .error "conflicting response"
        | none =>
            let entry := { entry with response := some response, packet := some packet }
            .ok { st with operations := st.operations.insert cap.context.operation entry }

/-- `response`. -/
def response (operation : ByteArr 32) : Option Bytes :=
  (st.operations.get? operation).bind OperationEntry.response

/-- `cursor`. -/
def cursor (feed : ByteArr 32) : Option U64 := st.cursors.get? feed

/-- `advance`. -/
def advance (feed : ByteArr 32) (epoch : U64) : OperationStore K :=
  let next := epoch.saturatingAdd 1
  { st with cursors := st.cursors.insert feed (((st.cursors.get? feed).map (max next)).getD next) }

end OperationStore

/-! ## Requests -/

/-- The request that `Broker::rpc` makes, with its readings of the clock. -/
def rpcRequest (K : EthCrypto) (d : ServiceDescriptor) (route : String) (payload : Bytes)
    (operation secret : ByteArr 32) (stopAt : U64) (clock : Nat → U64) :
    Except String RequestEnvelope :=
  if !d.backendRoutes.contains route then .error "unsupported backend route"
  else if stopAt ≤ clock 0 then .error "response reader expired"
  else do
    let expiresAt := min (min ((clock 1).saturatingAdd d.limits.maxLifetimeSeconds.val) d.expiresAt) stopAt
    let epoch ← orText (d.feed.epoch (clock 2))
    -- an epoch at the end of `u64` would panic
    match checked (epoch.val + 1), checked (epoch.val + 2),
        checked (epoch.val + d.feed.retainedEpochs.val - 1) with
    | some first, some second, some last =>
        if d.feed.retainedEpochs.val < 3 then .error "insufficient publication window"
        else do
          let closes ← orText (d.feed.closesAt second)
          if expiresAt ≤ closes then .error "insufficient publication window"
          else do
            let digest ← orText (RequestEnvelope.payloadDigest K route payload)
            let context : ResponseKeyContext :=
              ⟨version, d.network, d.signingKey, d.chain, operation, digest, expiresAt⟩
            let request : RequestEnvelope := ⟨⟨secret, context, ⟨d.feed.feed, first, last⟩⟩, route, payload⟩
            orText (request.validate K d operation (clock 3))
            .ok request
    | _, _, _ => .error "attempt to add with overflow"

/-! ## The reader -/

namespace OperationStore
variable {K : EthCrypto} (st : OperationStore K) (J : JsonText)

/-- The capabilities that have a locator in the epoch, by that locator. -/
def locators (feed : ByteArr 32) (epoch : U64) (caps : List (ResponseCapability × Option U32)) :
    OrdMap K.Locator (ResponseCapability × Option U32) :=
  OrdMap.empty.insertAll (caps.filterMap (fun c =>
    -- in its range a capability has a locator, so the range need not be checked twice
    if c.1.delivery.feed = feed then
      match c.1.locator K epoch with
      | .ok locator => some (locator, c)
      | .error _ => none
    else none))

/-- One packet of a batch; a packet that is rejected is only warned about. -/
def recordPacket (pending : OrdMap K.Locator (ResponseCapability × Option U32))
    (services : List (ByteArr 32 × U32)) (packet : ReplyPacket K) (now : U64) : OperationStore K :=
  match pending.get? packet.binding.locator with
  | none => st
  | some (cap, limit) =>
      match limit.or ((services.find? (fun s => s.1 = cap.context.service)).map Prod.snd) with
      | none => st
      | some limit =>
          match st.record J cap packet limit now with
          | .ok st' => st'
          | .error _ => st

/-- The packets of a batch, one after another. -/
def recordAll (pending : OrdMap K.Locator (ResponseCapability × Option U32))
    (services : List (ByteArr 32 × U32)) :
    OperationStore K → List (ReplyPacket K) → (Nat → U64) → OperationStore K
  | st, [], _ => st
  | st, packet :: packets, clock =>
      recordAll pending services (st.recordPacket J pending services packet (clock 0)) packets
        (fun n => clock (n + 1))

end OperationStore

/-- A reader that follows the feed. -/
structure Session where
  next : U64
  stopAt : U64

/-- `Broker`, its changing part. -/
structure BrokerState (K : EthCrypto) where
  store : OperationStore K
  session : Option Session

/-- What can happen to a broker. -/
inductive BrokerOp (K : EthCrypto) where
  /-- `rpc`, up to the upload; it fails without a trace when its fragments cannot be sealed. -/
  | rpc (d : ServiceDescriptor) (route : String) (payload : Bytes) (operation secret : ByteArr 32)
      (clock : Nat → U64)
  /-- A reader is started. -/
  | start (now stopAt : U64)
  /-- One round of the reader's loop, with what it could fetch and decode and the response
  limits of the services. -/
  | poll (clock : Nat → U64) (fetched : Option (EpochBatch K)) (services : List (ByteArr 32 × U32))
  /-- The reader is aborted, or the broker restarted. -/
  | stop

/-- What a run shows. -/
inductive BrokerEvent where
  /-- A request was made for a service and its capability kept. -/
  | uploaded (d : ServiceDescriptor) (request : RequestEnvelope)
  /-- A validated batch of the epoch was processed and the cursor moved past it. -/
  | processed (epoch : U64)
  deriving DecidableEq

namespace Broker
variable {K : EthCrypto} (J : JsonText) (feed : FeedDescriptor)

/-- The epoch to fetch. -/
def fetchEpoch (next current : U64) : U64 :=
  max (min next (current.saturatingSub 1)) (current.saturatingSub feed.retainedEpochs.val)

/-- One round of the loop of `follow`. -/
def poll (s : BrokerState K) (session : Session) (clock : Nat → U64)
    (fetched : Option (EpochBatch K)) (services : List (ByteArr 32 × U32)) :
    BrokerState K × List BrokerEvent :=
  if session.stopAt ≤ clock 0 then ({ s with session := none }, [])
  else match feed.epoch (clock 1) with
    | .error _ => ({ s with session := none }, [])
    | .ok current =>
        if current = 0 then (s, [])
        else match fetched with
          | none => (s, [])
          | some batch =>
              let epoch := fetchEpoch feed session.next current
              match batch.validate feed epoch (clock 2) with
              | .error _ => (s, [])
              | .ok () =>
                  let pending := OperationStore.locators feed.feed epoch (s.store.pending (clock 3))
                  let store := OperationStore.recordAll J pending services s.store batch.responses
                    (fun n => clock (n + 4))
                  (⟨store.advance feed.feed epoch, some { session with next := epoch.saturatingAdd 1 }⟩,
                    [.processed epoch])

/-- One step of a broker whose services use the feed. -/
def step (s : BrokerState K) : BrokerOp K → BrokerState K × List BrokerEvent
  | .rpc d route payload operation secret clock =>
      match s.session with
      | none => (s, [])
      | some session =>
          match rpcRequest K d route payload operation secret session.stopAt clock with
          | .error _ => (s, [])
          | .ok request =>
              match s.store.insert request.capability d.limits.maxResponseBytes (clock 4) with
              | .error _ => (s, [])
              | .ok store => ({ s with store := store }, [.uploaded d request])
  | .start now stopAt =>
      match feed.epoch now with
      | .error _ => ({ s with session := none }, [])
      | .ok current =>
          let oldest := current.saturatingSub feed.retainedEpochs.val
          ({ s with session := some ⟨max ((s.store.cursor feed.feed).getD oldest) oldest, stopAt⟩ }, [])
  | .poll clock fetched services =>
      match s.session with
      | none => (s, [])
      | some session => poll J feed s session clock fetched services
  | .stop => ({ s with session := none }, [])

/-- The broker after a list of steps, from a new database. -/
def after (ops : List (BrokerOp K)) : BrokerState K :=
  Trace.run ⟨.new, none⟩ (fun s op => (step J feed s op).1) ops

/-- Everything a list of steps shows. -/
def events (ops : List (BrokerOp K)) : List BrokerEvent :=
  Trace.observed (⟨.new, none⟩ : BrokerState K) (fun s op => (step J feed s op).1)
    (fun s op => (step J feed s op).2) ops

@[simp] theorem after_concat (ops : List (BrokerOp K)) (op : BrokerOp K) :
    after J feed (ops ++ [op]) = (step J feed (after J feed ops) op).1 :=
  Trace.run_concat ..

@[simp] theorem events_concat (ops : List (BrokerOp K)) (op : BrokerOp K) :
    events J feed (ops ++ [op]) = events J feed ops ++ (step J feed (after J feed ops) op).2 :=
  Trace.observed_concat ..

end Broker
end Anymone.Eth
