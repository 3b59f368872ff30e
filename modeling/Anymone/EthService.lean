import Anymone.EthFeed
import Anymone.OrdMap
import Anymone.Trace

/-! # The Ethereum service

A call of `execute` validates its request, waits for the dispatch lock, files the operation,
passes the calls of the payload on to the upstream one by one, and seals the replies into a
packet that it files and publishes in one transaction.  A submission is journalled before it
is sent and its reply after.

The step of the model is what happens between two points at which another call can run or the
process can die: a transaction, or an upstream call.  What the upstream answers, how much
time has passed and when the process dies are the environment's (`ServiceOp`); a crash keeps
the store and nothing else.
-/

namespace Anymone.Eth

/-! ## Forwarding -/

/-- `RpcRoute`, without its upstream. -/
structure RpcRoute where
  methods : List String

/-- `RpcForwarder`. -/
structure RpcForwarder where
  chain : U64
  routes : List (String × RpcRoute)
  maxLogBlocks : U64

/-- What `digest` of a submission is taken over. -/
structure Submission where
  chain : U64
  route : String
  method : String
  params : Option Json
  deriving DecidableEq

/-- A hexadecimal digit. -/
def hexDigit? (c : Char) : Option Nat :=
  if '0' ≤ c ∧ c ≤ '9' then some (c.toNat - '0'.toNat)
  else if 'a' ≤ c ∧ c ≤ 'f' then some (c.toNat - 'a'.toNat + 10)
  else if 'A' ≤ c ∧ c ≤ 'F' then some (c.toNat - 'A'.toNat + 10)
  else none

/-- `u64::from_str_radix(s, 16)`: at least one digit after an optional plus sign. -/
def fromHex (s : List Char) : Option U64 :=
  let digits := match s with
    | '+' :: rest => rest
    | s => s
  if digits.isEmpty then none
  else (digits.mapM hexDigit?).bind (fun ds => checked (ds.foldl (fun n d => 16 * n + d) 0))

/-- `strip_prefix("0x")`. -/
def stripHex (s : String) : Option (List Char) :=
  match s.toList with
  | '0' :: 'x' :: rest => some rest
  | _ => none

/-- A block number of a log filter. -/
def blockNumber (filter : Json) (field : String) : Option U64 :=
  (((filter.get? field).bind Json.asStr?).bind stripHex).bind fromHex

/-- `valid_logs`. -/
def validLogs (params : Option Json) (maxBlocks : U64) : Bool :=
  match params with
  | some (.array [.object fields]) =>
      let filter := Json.object fields
      match filter.get? "blockHash" with
      | some hash =>
          (filter.get? "fromBlock").isNone && (filter.get? "toBlock").isNone &&
            (hash.asStr?.bind stripHex).any (fun digits =>
              decide (digits.length = 64) && digits.all (fun c => (hexDigit? c).isSome))
      | none =>
          match blockNumber filter "fromBlock", blockNumber filter "toBlock" with
          | some start, some stop =>
              decide (start ≤ stop) && decide (0 < maxBlocks.val) &&
                decide (stop.val - start.val < maxBlocks.val)
          | _, _ => false
  | _ => false

/-- What `forward` does with a call. -/
inductive Forward where
  | unknownRoute
  /-- It answers itself. -/
  | answer (reply : Json)
  /-- It asks the upstream. -/
  | read
  /-- It journals the call and sends it once. -/
  | submit (submission : Submission)

/-- The cases of `forward`. -/
def RpcForwarder.forward (f : RpcForwarder) (name : String) (call : RpcCall) : Forward :=
  match f.routes.find? (fun r => r.1 == name) with
  | none => .unknownRoute
  | some (_, route) =>
      if !route.methods.contains call.method then
        .answer (rpcError .null (-32601) "Method not supported by route")
      else if call.method == "eth_getLogs" && !validLogs call.params f.maxLogBlocks then
        .answer (rpcError .null (-32602) "Use a blockHash or a bounded numeric block range")
      else if !isSubmission call.method then .read
      else .submit ⟨f.chain, name, call.method, call.params⟩

/-- `ExecutionRpc::call`: the body that came back, when it is a reply to the call's own id. -/
def upstreamCall (J : JsonText) (body : Option Bytes) : Option Json :=
  (body.bind J.parse).filter (fun reply => validateResponse reply (.ofInt 1))

/-- `RpcForwarder::call`: the result of `forward` under the caller's id. -/
def callReply (id : Json) : Option Json → Json
  | some reply => reply.set "id" id
  | none => rpcError id (-32000) "Upstream unavailable"

/-- `call.id.clone().unwrap_or(Value::Null)`. -/
def RpcCall.replyId (call : RpcCall) : Json := call.id.getD .null

/-! ## The store -/

/-- A row of `operations`. -/
structure OperationRow (K : EthCrypto) where
  digest : ByteArr 32
  expires : U64
  reply : Option (ReplyPacket K)

/-- A row of `publications`. -/
structure Publication (K : EthCrypto) where
  packet : ReplyPacket K
  expires : U64

/-- `ServiceStore`. -/
structure ServiceStore (K : EthCrypto) where
  operations : OrdMap (ByteArr 32) (OperationRow K)
  publications : OrdMap U64 (OrdMap K.Locator (Publication K))
  /-- A submission journalled, with the text of its reply once there is one. -/
  rpcDispatches : OrdMap (ByteArr 32) (Option Bytes)

/-- `ServiceStore::open`, on a new database. -/
def ServiceStore.new {K : EthCrypto} : ServiceStore K := ⟨.empty, .empty, .empty⟩

/-- `Dispatch`. -/
inductive Dispatch where
  | fresh
  | saved (reply : Json)
  | unknown

namespace ServiceStore
variable {K : EthCrypto} (st : ServiceStore K)

/-- `reserve`. -/
def reserve (J : JsonText) (digest : ByteArr 32) : Except String (ServiceStore K × Dispatch) :=
  match st.rpcDispatches.get? digest with
  | some (some text) =>
      match J.parse text with
      | some reply => .ok (st, .saved reply)
      | none => .error Error.encoding.text
  | some none => .ok (st, .unknown)
  | none =>
      if 100000 ≤ st.rpcDispatches.size then .error "submission journal capacity exhausted"
      else .ok ({ st with rpcDispatches := st.rpcDispatches.insert digest none }, .fresh)

/-- `finish`. -/
def finish (J : JsonText) (digest : ByteArr 32) (reply : Json) : Except String (ServiceStore K) :=
  if st.rpcDispatches.contains digest then
    .ok { st with rpcDispatches := st.rpcDispatches.insert digest (some (J.write reply)) }
  else .error "missing submission intent"

/-- `DELETE FROM operations WHERE expires<=?`. -/
def dropExpired (now : U64) : ServiceStore K :=
  { st with operations := st.operations.retain (fun _ row => decide (now < row.expires)) }

/-- The first transaction of `execute`: the reply filed for the request, or none once the
operation is filed. -/
def fileOperation (operation digest : ByteArr 32) (expires now : U64) :
    Except String (ServiceStore K × Option (ReplyPacket K)) :=
  let st' := st.dropExpired now
  match st'.operations.get? operation with
  | some row =>
      if row.digest ≠ digest then .error "conflicting operation replay"
      else match row.reply with
        | some reply => .ok (st, some reply)
        | none => .ok (st', none)
  | none =>
      if 1024 ≤ st'.operations.size then .error "operation capacity exhausted"
      else .ok ({ st' with operations := st'.operations.insert operation ⟨digest, expires, none⟩ },
        none)

/-- The second transaction of `execute`. -/
def fileReply (operation : ByteArr 32) (packet : ReplyPacket K) (expires : U64) :
    Except String (ServiceStore K) :=
  let rows := (st.publications.get? packet.binding.epoch).getD .empty
  if rows.contains packet.binding.locator then .error "UNIQUE constraint failed"
  else
    let published := rows.insert packet.binding.locator ⟨packet, expires⟩
    .ok { st with
      operations := match st.operations.get? operation with
        | some row => st.operations.insert operation { row with reply := some packet }
        | none => st.operations
      publications := st.publications.insert packet.binding.epoch published }

/-- `pending_publications`. -/
def pendingPublications (epoch now : U64) : ServiceStore K × List (ReplyPacket K) :=
  let kept := st.publications.mapVals (fun _ rows => rows.retain (fun _ p => decide (now < p.expires)))
  ({ st with publications := kept },
    ((kept.get? epoch).getD .empty).values.map Publication.packet)

/-! ### What a transaction leaves alone -/

variable {st} {st' : ServiceStore K}

theorem reserve_frame {J : JsonText} {digest : ByteArr 32} {d : Dispatch}
    (h : st.reserve J digest = .ok (st', d)) :
    st'.operations = st.operations ∧ st'.publications = st.publications := by
  unfold reserve at h
  split at h
  · split at h <;> cases h
    exact ⟨rfl, rfl⟩
  · cases h
    exact ⟨rfl, rfl⟩
  · split_ifs at h
    cases h
    exact ⟨rfl, rfl⟩

theorem finish_frame {J : JsonText} {digest : ByteArr 32} {reply : Json}
    (h : st.finish J digest reply = .ok st') :
    st'.operations = st.operations ∧ st'.publications = st.publications := by
  unfold finish at h
  split_ifs at h
  cases h
  exact ⟨rfl, rfl⟩

theorem fileOperation_frame {operation digest : ByteArr 32} {expires now : U64}
    {reply : Option (ReplyPacket K)}
    (h : st.fileOperation operation digest expires now = .ok (st', reply)) :
    st'.rpcDispatches = st.rpcDispatches ∧ st'.publications = st.publications := by
  unfold fileOperation at h
  dsimp only at h
  split at h
  · split_ifs at h
    split at h <;> cases h <;> exact ⟨rfl, rfl⟩
  · split_ifs at h
    cases h
    exact ⟨rfl, rfl⟩

theorem fileReply_frame {operation : ByteArr 32} {packet : ReplyPacket K} {expires : U64}
    (h : st.fileReply operation packet expires = .ok st') :
    st'.rpcDispatches = st.rpcDispatches := by
  unfold fileReply at h
  dsimp only at h
  split_ifs at h
  cases h
  rfl

end ServiceStore

/-! ## A call of `execute` -/

/-- `RpcService`, but for its store and its lock. -/
structure RpcService (K : EthCrypto) where
  descriptor : ServiceDescriptor
  forwarder : RpcForwarder
  signingKey : K.SigningKey

/-- A call that waits for the lock: its request and operation, and when it was made. -/
structure Call where
  request : RequestEnvelope
  operation : ByteArr 32
  now : U64
  deriving DecidableEq

/-- Where the dispatch of one item stands. -/
inductive Stage where
  | ready
  /-- The submission is journalled and not yet sent. -/
  | reserved (call : RpcCall) (submission : Submission)
  /-- The submission was answered and the reply is not yet journalled. -/
  | answered (call : RpcCall) (submission : Submission) (reply : Json)
  deriving DecidableEq

/-- The call that holds the lock, while it dispatches its payload. -/
structure Active where
  call : Call
  batch : Bool
  items : List Json
  replies : List Json
  stage : Stage

namespace Active

/-- The first item is done with. -/
def done (a : Active) : Active := { a with items := a.items.tail, stage := .ready }

/-- The first item is answered: a notification is not replied to. -/
def push (a : Active) (call : RpcCall) (reply : Json) : Active :=
  { a.done with replies := if call.id.isSome then a.replies ++ [reply] else a.replies }

/-- What `dispatch_rpc` returns. -/
def reply (a : Active) : Option Json :=
  if a.replies.isEmpty then none
  else if a.batch then some (.array a.replies)
  else a.replies.getLast?

end Active

/-- The start of `dispatch_rpc`. -/
def startDispatch (J : JsonText) (maxBatch : Nat) (call : Call) : Active :=
  match parseRequest J call.request.payload maxBatch with
  | .ok (batch, items) => ⟨call, batch, items, [], .ready⟩
  | .error .encoding => ⟨call, false, [], [rpcError .null (-32700) "Parse error"], .ready⟩
  | .error _ => ⟨call, false, [], [rpcError .null (-32600) "Invalid Request"], .ready⟩

/-- `limit_errors`. -/
def limitErrors (J : JsonText) (bytes : Bytes) : Option Json :=
  match parseRequest J bytes 128 with
  | .error _ => none
  | .ok (batch, items) =>
      let errors := items.filterMap (fun item =>
        ((RpcCall.parse item).bind RpcCall.id).map (fun id =>
          rpcError id (-32005) "Response exceeds service limit"))
      if errors.isEmpty then none
      else if batch then some (.array errors)
      else errors.getLast?

namespace RpcService
variable {K : EthCrypto} (svc : RpcService K) (J : JsonText)

/-- The content sealed: the reply, or errors when it is too long. -/
def content (a : Active) : Bytes :=
  let content := J.writeOption a.reply
  if svc.descriptor.limits.maxResponseBytes.val < content.length then
    J.writeOption (limitErrors J a.call.request.payload)
  else content

/-- The epoch, binding and sealing of a reply: the first epoch that is not open yet and lies
in the delivery window. -/
def sealPacket (request : RequestEnvelope) (content : Bytes) (nonce : ByteArr 24) (now : U64) :
    Except String (ReplyPacket K) := do
  let feed := svc.descriptor.feed
  let delivery := request.capability.delivery
  let current ← orText (feed.epoch now)
  match checked (current.val + 1) with
  | none => .error "epoch overflow"
  | some next =>
      let epoch := max next delivery.firstEpoch
      if delivery.lastEpoch < epoch then .error "publication window exhausted"
      else do
        let closes ← orText (feed.closesAt epoch)
        if request.capability.context.expiresAt ≤ closes then
          .error "response expires before publication"
        else if svc.descriptor.limits.maxResponseBytes.val < content.length then
          .error "response exceeds service limit"
        else do
          let locator ← orText (request.capability.locator K epoch)
          let binding : K.Binding := ⟨feed.feed, epoch, locator⟩
          let sealed ← orText
            (request.capability.sealResponse binding content svc.signingKey nonce now)
          .ok ⟨binding, sealed⟩

end RpcService

/-! ## The machine -/

/-- What can happen to a service. -/
inductive ServiceOp where
  /-- `execute` is called at a clock. -/
  | execute (call : Call)
  /-- A waiting call takes the lock, so many seconds after it was made. -/
  | acquire (i : Nat) (elapsed : Nat)
  /-- The first item is answered; an upstream it is read from answers this. -/
  | item (body : Option Bytes)
  /-- The first item is a submission, and is journalled or found in the journal. -/
  | reserve
  /-- The submission is sent, and the upstream answers this. -/
  | send (body : Option Bytes)
  /-- The reply to the submission is journalled. -/
  | finish
  /-- The replies are sealed, filed and published. -/
  | file (elapsed : Nat) (nonce : ByteArr 24)
  /-- `pending_publications`. -/
  | pending (epoch now : U64)
  /-- The process dies and is started again. -/
  | crash

/-- What a run shows. -/
inductive ServiceEvent (K : EthCrypto) where
  /-- The operation is filed and its payload will be dispatched. -/
  | started (call : Call)
  /-- `execute` returns a packet. -/
  | returned (call : Call) (packet : ReplyPacket K)
  /-- `execute` fails. -/
  | failed (call : Call) (error : String)
  /-- A submission goes to the upstream, which answers so. -/
  | sent (submission : Submission) (reply : Option Json)
  /-- A submission is replied to in a call, under the caller's id. -/
  | replied (call : Call) (submission : Submission) (id reply : Json)
  /-- A row is inserted into `publications`. -/
  | published (call : Call) (packet : ReplyPacket K)

/-- `RpcService`, its changing part: the store, the calls that wait for the lock and the one
that holds it. -/
structure ServiceState (K : EthCrypto) where
  store : ServiceStore K
  waiting : List Call
  active : Option Active

/-- A new service over a new database. -/
def ServiceState.new {K : EthCrypto} : ServiceState K := ⟨.new, [], none⟩

namespace RpcService
variable {K : EthCrypto} (svc : RpcService K) (J : JsonText)

/-- The call takes the lock: it is validated once more and its operation filed. -/
def begin (s : ServiceState K) (call : Call) (elapsed : Nat) :
    ServiceState K × List (ServiceEvent K) :=
  match call.request.validate K svc.descriptor call.operation (call.now.saturatingAdd elapsed) with
  | .error e => (s, [.failed call e.text])
  | .ok () =>
      match call.request.digest K with
      | .error e => (s, [.failed call e.text])
      | .ok digest =>
          match s.store.fileOperation call.operation digest
            call.request.capability.context.expiresAt call.now with
          | .error e => (s, [.failed call e])
          | .ok (_, some packet) => (s, [.returned call packet])
          | .ok (store, none) =>
              ({ s with
                store := store
                active := some (startDispatch J svc.descriptor.limits.maxBatch.val call) },
                [.started call])

/-- The first item of the call, when it is not a submission. -/
def answerItem (a : Active) (body : Option Bytes) : Option Active :=
  match a.items with
  | [] => none
  | item :: _ =>
      match RpcCall.parse item with
      | none => some { a.done with replies := a.replies ++ [rpcError .null (-32600) "Invalid Request"] }
      | some call =>
          match svc.forwarder.forward a.call.request.backendRoute call with
          | .unknownRoute => some (a.push call (callReply call.replyId none))
          | .answer reply => some (a.push call (callReply call.replyId (some reply)))
          | .read => some (a.push call (callReply call.replyId (upstreamCall J body)))
          | .submit _ => none

/-- The submission that the first item of the call is. -/
def submissionOf (a : Active) : Option (RpcCall × Submission) :=
  match a.items with
  | [] => none
  | item :: _ =>
      match RpcCall.parse item with
      | none => none
      | some call =>
          match svc.forwarder.forward a.call.request.backendRoute call with
          | .submit submission => some (call, submission)
          | .unknownRoute | .answer _ | .read => none

/-- `digest` of a submission. -/
def submissionKey (K : EthCrypto) (sub : Submission) : ByteArr 32 :=
  K.submissionDigest sub.chain sub.route sub.method sub.params

/-- A submission is replied to. -/
def replied (a : Active) (call : RpcCall) (sub : Submission) (result : Option Json) :
    Active × List (ServiceEvent K) :=
  (a.push call (callReply call.replyId result),
    [.replied a.call sub call.replyId (callReply call.replyId result)])

/-- `reserve`, for the submission that is the first item of the call. -/
def reserveItem (s : ServiceState K) (a : Active) (call : RpcCall) (sub : Submission) :
    ServiceState K × List (ServiceEvent K) :=
  match s.store.reserve J (submissionKey K sub) with
  | .error _ =>
      let (a, out) := replied a call sub none
      ({ s with active := some a }, out)
  | .ok (_, .saved reply) =>
      let (a, out) := replied a call sub (some reply)
      ({ s with active := some a }, out)
  | .ok (_, .unknown) =>
      let (a, out) := replied a call sub (some unknownOutcome)
      ({ s with active := some a }, out)
  | .ok (store, .fresh) =>
      ({ s with store := store, active := some { a with stage := .reserved call sub } }, [])

/-- The submission is sent. -/
def sendItem (s : ServiceState K) (a : Active) (call : RpcCall) (sub : Submission)
    (body : Option Bytes) : ServiceState K × List (ServiceEvent K) :=
  match upstreamCall J body with
  | some reply =>
      ({ s with active := some { a with stage := .answered call sub reply } },
        [.sent sub (some reply)])
  | none =>
      let (a, out) := replied a call sub (some unknownOutcome)
      ({ s with active := some a }, .sent sub none :: out)

/-- `finish`, for the reply to the submission. -/
def finishItem (s : ServiceState K) (a : Active) (call : RpcCall) (sub : Submission) (reply : Json) :
    ServiceState K × List (ServiceEvent K) :=
  match s.store.finish J (submissionKey K sub) reply with
  | .ok store =>
      let (a, out) := replied a call sub (some reply)
      ({ s with store := store, active := some a }, out)
  | .error _ =>
      let (a, out) := replied a call sub (some unknownOutcome)
      ({ s with active := some a }, out)

/-- The end of `execute`. -/
def finishCall (s : ServiceState K) (a : Active) (elapsed : Nat) (nonce : ByteArr 24) :
    ServiceState K × List (ServiceEvent K) :=
  match svc.sealPacket a.call.request (svc.content J a) nonce (a.call.now.saturatingAdd elapsed) with
  | .error e => ({ s with active := none }, [.failed a.call e])
  | .ok packet =>
      match s.store.fileReply a.call.operation packet
        a.call.request.capability.context.expiresAt with
      | .error e => ({ s with active := none }, [.failed a.call e])
      | .ok store =>
          ({ s with store := store, active := none },
            [.published a.call packet, .returned a.call packet])

/-- One step.  A step that is not possible in the state changes nothing. -/
def step (s : ServiceState K) : ServiceOp → ServiceState K × List (ServiceEvent K)
  | .execute call =>
      match call.request.validate K svc.descriptor call.operation call.now with
      | .error e => (s, [.failed call e.text])
      | .ok () => ({ s with waiting := s.waiting ++ [call] }, [])
  | .acquire i elapsed =>
      match s.active, s.waiting[i]? with
      | none, some call => svc.begin J { s with waiting := s.waiting.eraseIdx i } call elapsed
      | _, _ => (s, [])
  | .item body =>
      match s.active with
      | some a =>
          match a.stage, svc.answerItem J a body with
          | .ready, some a' => ({ s with active := some a' }, [])
          | _, _ => (s, [])
      | none => (s, [])
  | .reserve =>
      match s.active with
      | some a =>
          match a.stage, svc.submissionOf a with
          | .ready, some (call, sub) => reserveItem J s a call sub
          | _, _ => (s, [])
      | none => (s, [])
  | .send body =>
      match s.active with
      | some a =>
          match a.stage with
          | .reserved call sub => sendItem J s a call sub body
          | .ready | .answered .. => (s, [])
      | none => (s, [])
  | .finish =>
      match s.active with
      | some a =>
          match a.stage with
          | .answered call sub reply => finishItem J s a call sub reply
          | .ready | .reserved .. => (s, [])
      | none => (s, [])
  | .file elapsed nonce =>
      match s.active with
      | some a =>
          match a.stage, a.items with
          | .ready, [] => svc.finishCall J s a elapsed nonce
          | _, _ => (s, [])
      | none => (s, [])
  | .pending epoch now => ({ s with store := (s.store.pendingPublications epoch now).1 }, [])
  | .crash => ({ s with waiting := [], active := none }, [])

/-- The state after a list of steps of a new service. -/
def after (ops : List ServiceOp) : ServiceState K :=
  Trace.run .new (fun s op => (svc.step J s op).1) ops

/-- Everything a list of steps shows. -/
def events (ops : List ServiceOp) : List (ServiceEvent K) :=
  Trace.observed .new (fun s op => (svc.step J s op).1) (fun s op => (svc.step J s op).2) ops

@[simp] theorem after_concat (ops : List ServiceOp) (op : ServiceOp) :
    svc.after J (ops ++ [op]) = (svc.step J (svc.after J ops) op).1 :=
  Trace.run_concat ..

@[simp] theorem events_concat (ops : List ServiceOp) (op : ServiceOp) :
    svc.events J (ops ++ [op]) = svc.events J ops ++ (svc.step J (svc.after J ops) op).2 :=
  Trace.observed_concat ..

/-! ## What a step can do -/

/-- **What a step can do**, and when: every rule that is about all steps goes by these cases. -/
inductive ServiceStep (s : ServiceState K) :
    ServiceOp → ServiceState K → List (ServiceEvent K) → Prop
  | idle (op : ServiceOp)
      (hunsent : ∀ body, op = .send body → ∀ a ∈ s.active, ∀ call sub, a.stage ≠ .reserved call sub) :
      ServiceStep s op s []
  | refused (call : Call) (error : String) : ServiceStep s (.execute call) s [.failed call error]
  | queued (call : Call) :
      ServiceStep s (.execute call) { s with waiting := s.waiting ++ [call] } []
  | acquired {call : Call} (i elapsed : Nat) (hidle : s.active = none)
      (hcall : s.waiting[i]? = some call) :
      ServiceStep s (.acquire i elapsed)
        (svc.begin J { s with waiting := s.waiting.eraseIdx i } call elapsed).1
        (svc.begin J { s with waiting := s.waiting.eraseIdx i } call elapsed).2
  | answered {a a' : Active} (body : Option Bytes) (hactive : s.active = some a)
      (hitem : svc.answerItem J a body = some a') :
      ServiceStep s (.item body) { s with active := some a' } []
  | reserving {a : Active} {call : RpcCall} {sub : Submission} (hactive : s.active = some a)
      (hsub : svc.submissionOf a = some (call, sub)) :
      ServiceStep s .reserve (reserveItem J s a call sub).1 (reserveItem J s a call sub).2
  | sending {a : Active} {call : RpcCall} {sub : Submission} (body : Option Bytes)
      (hactive : s.active = some a) (hstage : a.stage = .reserved call sub) :
      ServiceStep s (.send body) (sendItem J s a call sub body).1 (sendItem J s a call sub body).2
  | finishing {a : Active} {call : RpcCall} {sub : Submission} {reply : Json}
      (hactive : s.active = some a) (hstage : a.stage = .answered call sub reply) :
      ServiceStep s .finish (finishItem J s a call sub reply).1 (finishItem J s a call sub reply).2
  | filing {a : Active} (elapsed : Nat) (nonce : ByteArr 24) (hactive : s.active = some a)
      (hitems : a.items = []) :
      ServiceStep s (.file elapsed nonce) (svc.finishCall J s a elapsed nonce).1
        (svc.finishCall J s a elapsed nonce).2
  | listed (epoch now : U64) :
      ServiceStep s (.pending epoch now)
        { s with store := (s.store.pendingPublications epoch now).1 } []
  | crashed : ServiceStep s .crash { s with waiting := [], active := none } []

theorem serviceStep (s : ServiceState K) (op : ServiceOp) :
    ServiceStep svc J s op (svc.step J s op).1 (svc.step J s op).2 := by
  cases op with
  | execute call =>
    unfold step
    dsimp only
    split
    · exact .refused call _
    · exact .queued call
  | acquire i elapsed =>
    unfold step
    dsimp only
    split
    · rename_i call hidle hcall
      exact .acquired i elapsed hidle hcall
    · exact .idle _ nofun
  | item body =>
    unfold step
    dsimp only
    split
    · rename_i a hactive
      split
      · rename_i a' _ hitem
        exact .answered body hactive hitem
      · exact .idle _ nofun
    · exact .idle _ nofun
  | reserve =>
    unfold step
    dsimp only
    split
    · rename_i a hactive
      split
      · rename_i call sub _ hsub
        exact .reserving hactive hsub
      · exact .idle _ nofun
    · exact .idle _ nofun
  | send body =>
    have hidle : (∀ a ∈ s.active, ∀ call sub, a.stage ≠ .reserved call sub) →
        ServiceStep svc J s (.send body) s [] := fun h => .idle _ (fun _ _ => h)
    unfold step
    dsimp only
    split
    · rename_i a hactive
      split
      · rename_i call sub hstage
        exact .sending body hactive hstage
      all_goals
        rename_i hstage
        refine hidle (fun a' ha' call sub hreserved => ?_)
        rw [hactive] at ha'
        cases ha'
        rw [hstage] at hreserved
        cases hreserved
    · rename_i hactive
      exact hidle (by simp [hactive])
  | finish =>
    unfold step
    dsimp only
    split
    · rename_i a hactive
      split
      · rename_i call sub reply hstage
        exact .finishing hactive hstage
      all_goals exact .idle _ nofun
    · exact .idle _ nofun
  | file elapsed nonce =>
    unfold step
    dsimp only
    split
    · rename_i a hactive
      split
      · rename_i _ hitems
        exact .filing elapsed nonce hactive hitems
      · exact .idle _ nofun
    · exact .idle _ nofun
  | pending epoch now => exact .listed epoch now
  | crash => exact .crashed

end RpcService
end Anymone.Eth
