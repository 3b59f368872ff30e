import Anymone.RemoteClients

/-! # The session a phone holds

`RemoteAttestedSession`: a client under one identity, with a reply to give again and the round
that was finalized last.  An action is answered from what is kept, refused, or performed by the
client; `reconfigure` puts another client in its place and returns the payloads the old one had
pending.
-/

namespace Anymone
namespace Remote
variable {R : RemoteCrate}

/-! ## Performing an action -/

/-- What a call draws: the generators of the threads, and a bound on the reservation loop. -/
structure Draw (R : RemoteCrate) where
  spins : Nat
  /-- `gen::<f32>() < rate`, the rate by its bits. -/
  below : U32 → Bool
  seed : R.adcnet.Seed

/-- What a client makes of an action: itself afterwards, the session's round and the answer. -/
structure Performed (R : RemoteCrate) where
  client : Client R
  currentRound : Round
  result : Except RemoteSessionError (List Bytes)

variable (R) in
/-- `decode_native`, of a Panetière message. -/
def decodeNative (message : Bytes) : Except RemoteSessionError PanetiereWire :=
  match PanetiereWire.format.read message with
  | some (wire, []) =>
      if 16777216 < message.length then .error (.protocol (R.decodeError message)) else .ok wire
  | _ => .error (.protocol (R.decodeError message))

/-- A call that changes the client's posts, or fails. -/
def posted {α : Type} (old : α) (replace : α → Client R) (round : Round) :
    Except String α → Performed R
  | .error e => ⟨replace old, round, .error (.protocol e)⟩
  | .ok new => ⟨replace new, round, .ok []⟩

/-- `finalize_round` of a Panetière client, with the text of its errors. -/
def finalizePanetiere (s : PanetiereClientSession R.toChannelCrate) (round : Round)
    (payload : Option Bytes) :
    Option (PanetiereClientSession R.toChannelCrate × Except String (List PanetiereWire)) :=
  let drawn := { s with rRng := (s.encoded payload).2 }
  match (s.encoded payload).1 with
  | none => some (drawn, .error (payload.elim "" (fun p =>
      if R.maxPayloadBytes s.cfg.mse < p.length then "payload exceeds channel capacity"
      else R.encodeMessageError s.cfg.mse p)))
  | some message =>
      let staged := { drawn with pending := some (s.cfg.pad message) }
      (staged.finalizeStaged round).map (fun r => (r.1, .ok r.2))

/-- The Panetière branch of `execute_action`. -/
def performPanetiere (s : PanetiereClientSession R.toChannelCrate) (current : Round) :
    PanetiereAction → Option (Performed R)
  | .prepareRound round => some ⟨.panetiere (s.call (.prepare round)), current, .ok []⟩
  | .finalizeRound round payload =>
      (finalizePanetiere s round payload).map (fun r =>
        ⟨.panetiere r.1, current, match r.2 with
          | .error e => .error (.protocol e)
          | .ok wires => .ok (wires.map PanetiereWire.serialize)⟩)
  | .acceptReceiptBatch round batch =>
      some (posted s.toPostState (fun st => .panetiere { s with toPostState := st }) current
        (s.cfg.acceptReceiptBatch s.toPostState round batch))
  | .buildRepair round =>
      (s.cfg.buildRepair s.toPostState round).map (fun r =>
        ⟨.panetiere { s with toPostState := r.1 }, current, .ok (r.2.map PanetiereWire.serialize)⟩)

/-- Its scheduled Panetière branch. -/
def performScheduledPanetiere (cfg : ScheduledClientConfig R.toScheduledCrate)
    (s : ScheduledClientSession R.toScheduledCrate) (current : Round) (spins : Nat) :
    ScheduledPanetiereAction → Option (Performed R)
  | .setCoverRate rate =>
      some ⟨.scheduledPanetiere { cfg with coverRate := rate } s, current, .ok []⟩
  | .advanceRound round => some ⟨.scheduledPanetiere cfg (s.advanceRound round), round, .ok []⟩
  | .reserveMessage payload =>
      some (posted s (.scheduledPanetiere cfg) current (s.reserveMessage cfg payload))
  | .prepareRound round =>
      some ⟨.scheduledPanetiere cfg (s.withPost (cfg.prepareRound s.toPostState round)), current,
        .ok []⟩
  | .finalizeRound round =>
      if round ≠ current then some ⟨.scheduledPanetiere cfg s, current, .error .roundOrder⟩
      else (s.finalizeRound cfg round spins).map (fun r =>
        ⟨.scheduledPanetiere cfg r.1, current, .ok (r.2.map PanetiereWire.serialize)⟩)
  | .acceptReservations message =>
      match decodeNative R message with
      | .error e => some ⟨.scheduledPanetiere cfg s, current, .error e⟩
      | .ok (.reservations round entries signature) =>
          some (posted s (.scheduledPanetiere cfg) current
            (s.acceptReservations cfg round entries signature))
      | .ok _ =>
          some ⟨.scheduledPanetiere cfg s, current, .error (.protocol "expected reservations")⟩
  | .acceptReceiptBatch round batch =>
      some (posted s.toPostState (fun st => .scheduledPanetiere cfg (s.withPost st)) current
        (cfg.acceptReceiptBatch s.toPostState round batch))
  | .buildRepair round =>
      (cfg.buildRepair s.toPostState round).map (fun r =>
        ⟨.scheduledPanetiere cfg (s.withPost r.1), current,
          .ok (r.2.map PanetiereWire.serialize)⟩)

/-- Its ADCNet branch. -/
def performAdcnet (s : AdcnetClientSession R) (current : Round) : AdcnetAction → Performed R
  | .contribute round payload =>
      let r := s.contribute round payload
      ⟨.adcnet r.1, current, match r.2 with
        | .error e => .error (.protocol e)
        | .ok message => .ok [message]⟩

/-- Its scheduled ADCNet branch. -/
def performScheduledAdcnet (cfg : ScheduledAdcnetClientConfig R.adcnet) (rate : U32)
    (s : ScheduledAdcnetClientSession R.adcnet) (current : Round) (draw : Draw R) :
    ScheduledAdcnetAction → Performed R
  | .setCoverRate rate => ⟨.scheduledAdcnet cfg rate s, current, .ok []⟩
  | .advanceToRound round =>
      match s.advanceToRound round.1 with
      | .error e => ⟨.scheduledAdcnet cfg rate s, current, .error (.protocol e)⟩
      | .ok s => ⟨.scheduledAdcnet cfg rate s, round.prev?.getD current, .ok []⟩
  | .scheduleMessageForNextRound payload bid =>
      posted s (.scheduledAdcnet cfg rate) current (s.scheduleMessageForNextRound cfg payload bid)
  | .processRoundBroadcast message =>
      posted s (.scheduledAdcnet cfg rate) current
        (s.processRoundBroadcast cfg (R.readScheduledAdcnet message))
  | .messagesForCurrentRound =>
      let r := s.messagesForCurrentRound cfg (!draw.below rate) draw.seed
      ⟨.scheduledAdcnet cfg rate r.1, current, match r.2 with
        | .error e => .error (.protocol e)
        | .ok wires => .ok (wires.map R.scheduledAdcnetBytes)⟩

/-- The match of `execute_action`. -/
def Client.perform (c : Client R) (current : Round) (draw : Draw R) :
    ProtocolAction → Option (Performed R)
  | .panetiere action =>
      match c with
      | .panetiere s => performPanetiere s current action
      | _ => some ⟨c, current, .error .wrongProtocol⟩
  | .scheduledPanetiere action =>
      match c with
      | .scheduledPanetiere cfg s => performScheduledPanetiere cfg s current draw.spins action
      | _ => some ⟨c, current, .error .wrongProtocol⟩
  | .adcnet action =>
      match c with
      | .adcnet s => some (performAdcnet s current action)
      | _ => some ⟨c, current, .error .wrongProtocol⟩
  | .scheduledAdcnet action =>
      match c with
      | .scheduledAdcnet cfg rate s => some (performScheduledAdcnet cfg rate s current draw action)
      | _ => some ⟨c, current, .error .wrongProtocol⟩

/-! ## The session -/

/-- `RemoteSessionStatus`. -/
structure RemoteSessionStatus where
  subnet : Subnet
  relayExchangeKeys : List (Pubkey × ExchangePublicKeyWire)
  sessionId : ByteArr 32
  protocol : RemoteProtocol
  participant : Pubkey
  exchangeKeys : ExchangePublicKeyWire
  currentRound : Round
  nextRequest : U64
  closed : Bool
  developerMode : Bool
  pendingMessages : Nat

/-- `FinalizedRound`. -/
structure FinalizedRound where
  round : Round
  input : Digest
  messages : List Bytes

/-- `Reply`. -/
structure Reply where
  sequence : U64
  input : Digest
  result : Except RemoteSessionError (List Bytes)

/-- `RemoteAttestedSession`. -/
structure RemoteAttestedSession (R : RemoteCrate) where
  client : Option (Client R)
  identity : Option R.Identity
  status : RemoteSessionStatus
  lastReply : Option Reply
  finalized : Option FinalizedRound
  repair : Option (Round × List Bytes)
  maxPayload : U64

/-- What `with_identity` draws. -/
structure Fresh where
  seed : ByteArr 32
  sessionId : ByteArr 32

/-- The round an action finalizes, in a session at the current round. -/
def ProtocolAction.finalizes (current : Round) : ProtocolAction → Option Round
  | .panetiere (.finalizeRound round _) => some round
  | .scheduledPanetiere (.finalizeRound round) => some round
  | .adcnet (.contribute round _) => some round
  | .scheduledAdcnet .messagesForCurrentRound => some current
  | _ => none

/-- The round an action repairs. -/
def ProtocolAction.repairs : ProtocolAction → Option Round
  | .panetiere (.buildRepair round) => some round
  | .scheduledPanetiere (.buildRepair round) => some round
  | _ => none

namespace RemoteAttestedSession

/-- A session over a client as it was built. -/
def ofBuilt (subnet : Subnet) (keys : List (Pubkey × ExchangePublicKeyWire))
    (startingRound : Round) (identity : R.Identity) (sessionId : ByteArr 32) (built : Built R) :
    RemoteAttestedSession R where
  client := some built.client
  identity := some identity
  status := {
    subnet := subnet
    relayExchangeKeys := keys
    sessionId := sessionId
    protocol := built.protocol
    participant := R.pubkey identity
    exchangeKeys := R.exchangeKeys identity
    currentRound := startingRound
    nextRequest := 0
    closed := false
    developerMode := true
    pendingMessages := 0 }
  lastReply := none
  finalized := none
  repair := none
  maxPayload := built.maxPayload

/-- `with_identity`. -/
def withIdentity (subnet : Subnet) (keys : List (Pubkey × ExchangePublicKeyWire))
    (startingRound : Round) (identity : R.Identity) (fresh : Fresh) :
    Option (Except RemoteSessionError (RemoteAttestedSession R)) :=
  match validateConfig R.toSchedulerCrate subnet startingRound with
  | .error e => some (.error e)
  | .ok () =>
      (build subnet keys startingRound identity fresh.seed).map
        (·.map (ofBuilt subnet keys startingRound identity fresh.sessionId))

/-- `developer`, with the identity it generates. -/
def developer (subnet : Subnet) (keys : List (Pubkey × ExchangePublicKeyWire))
    (startingRound : Round) (identity : R.Identity) (fresh : Fresh) :
    Option (Except RemoteSessionError (RemoteAttestedSession R)) :=
  withIdentity subnet keys startingRound identity fresh

variable (s : RemoteAttestedSession R)

/-- The key a list gives a relay. -/
def keyOf (keys : List (Pubkey × ExchangePublicKeyWire)) (pk : Pubkey) :
    Option (Pubkey × ExchangePublicKeyWire) :=
  keys.find? (fun e => e.1 == pk)

/-- The configuration is the one the client was built from. -/
def unchanged (subnet : Subnet) (keys : List (Pubkey × ExchangePublicKeyWire)) : Bool :=
  decide (subnet.id = s.status.subnet.id) && decide (subnet.protocol = s.status.subnet.protocol) &&
    decide (subnet.relays = s.status.subnet.relays) &&
    subnet.relays.all (fun pk => decide (keyOf keys pk = keyOf s.status.relayExchangeKeys pk))

/-- The session under another description of its subnet. -/
def withSubnet (subnet : Subnet) : RemoteAttestedSession R :=
  { s with status := { s.status with subnet := subnet } }

/-- A session that takes over the name of this one. -/
def replacedBy (replacement : RemoteAttestedSession R) : RemoteAttestedSession R :=
  { replacement with
    status := { replacement.status with sessionId := s.status.sessionId } }

/-- `reconfigure`. -/
def reconfigure (subnet : Subnet) (keys : List (Pubkey × ExchangePublicKeyWire))
    (startingRound : Round) (fresh : Fresh) :
    Option (RemoteAttestedSession R × Except RemoteSessionError (List Bytes)) :=
  if s.status.closed then some (s, .error .closed)
  else
    match validateConfig R.toSchedulerCrate subnet startingRound with
    | .error e => some (s, .error e)
    | .ok () =>
        if s.unchanged subnet keys then some (s.withSubnet subnet, .ok [])
        else
          -- `unwrap` of the identity, then `with_identity`.
          (s.identity.bind (withIdentity subnet keys startingRound · fresh)).map (fun r =>
            match r with
            | .error e => (s, .error e)
            | .ok replacement =>
                (s.replacedBy replacement,
                  .ok (s.client.elim [] (fun c => c.takePendingMessages.2))))

/-- `status`. -/
def currentStatus : RemoteSessionStatus :=
  { s.status with pendingMessages := s.client.elim 0 Client.pendingMessageCount }

/-- `close`. -/
def close : RemoteAttestedSession R :=
  { s with
    client := none
    identity := none
    finalized := none
    repair := none
    lastReply := none
    status := { s.status with closed := true } }

/-! ## Executing an action -/

/-- `check_round`. -/
def checkRound (round : Round) : Except RemoteSessionError Unit :=
  if round < s.status.currentRound ∨ 4294967295 ≤ round then .error .roundOrder else .ok ()

/-- `check_payload`. -/
def checkPayload (payload : Bytes) : Except RemoteSessionError Unit :=
  if s.maxPayload.val < payload.length then .error .payloadTooLarge else .ok ()

/-- The answer to an action for a round that was finalized, or is past. -/
def finalizedAnswer (action : ProtocolAction) (input : Digest) :
    Option (Except RemoteSessionError (List Bytes)) :=
  (action.finalizes s.status.currentRound).bind (fun round =>
    s.finalized.bind (fun finalized =>
      if round < finalized.round then some (.error .roundOrder)
      else if round = finalized.round then
        some (if finalized.input = input then .ok finalized.messages else .error .roundConflict)
      else none))

/-- A round can be prepared for. -/
def checkPrepare (round : Round) : Except RemoteSessionError (Option (List Bytes)) := do
  s.checkRound round
  if s.finalized.any (fun f => decide (round ≤ f.round)) then .error .roundOrder else .ok none

/-- A round can be repaired, or was. -/
def checkRepair (round : Round) : Except RemoteSessionError (Option (List Bytes)) :=
  if s.finalized.all (fun f => decide (f.round < round)) then .error .roundOrder
  else
    match s.repair with
    | none => .ok none
    | some (savedRound, messages) =>
        if round = savedRound then .ok (some messages)
        else if round < savedRound then .error .roundOrder
        else .ok none

/-- A payload can be queued. -/
def checkQueue (payload : Bytes) : Except RemoteSessionError (Option (List Bytes)) := do
  s.checkPayload payload
  let pending := s.client.elim 0 Client.pendingMessageCount
  if 64 ≤ pending ∨ 8388608 < s.maxPayload.saturatingMul (pending + 1) then .error .queueFull
  else .ok none

/-- A cover rate is a probability. -/
def checkRate (rate : U32) : Except RemoteSessionError (Option (List Bytes)) :=
  if coverRateInUnit rate then .ok none else .error (.protocol "invalid cover rate")

/-- The checks of an action, by its kind; some are answered with what was built before. -/
def check : ProtocolAction → Except RemoteSessionError (Option (List Bytes))
  | .panetiere (.prepareRound round) | .scheduledPanetiere (.prepareRound round) =>
      s.checkPrepare round
  | .panetiere (.buildRepair round) | .scheduledPanetiere (.buildRepair round) =>
      s.checkRepair round
  | .panetiere (.finalizeRound _ (some payload)) | .adcnet (.contribute _ (some payload)) =>
      (s.checkPayload payload).map (fun _ => none)
  | .scheduledPanetiere (.reserveMessage payload)
  | .scheduledAdcnet (.scheduleMessageForNextRound payload _) => s.checkQueue payload
  | .scheduledPanetiere (.setCoverRate rate) | .scheduledAdcnet (.setCoverRate rate) =>
      checkRate rate
  | .scheduledPanetiere (.advanceRound round) => (s.checkRound round).map (fun _ => none)
  | .scheduledAdcnet (.advanceToRound round) =>
      match round.prev? with
      | none => .error .roundOrder
      | some round => (s.checkRound round).map (fun _ => none)
  | _ => .ok none

/-- What is answered without the client. -/
def early (action : ProtocolAction) (input : Digest) :
    Option (Except RemoteSessionError (List Bytes)) :=
  match s.finalizedAnswer action input with
  | some answer => some answer
  | none =>
      match (action.finalizes s.status.currentRound).elim (.ok ()) s.checkRound with
      | .error e => some (.error e)
      | .ok () =>
          match s.check action with
          | .error e => some (.error e)
          | .ok (some messages) => some (.ok messages)
          | .ok none => none

/-- What is kept of an answer. -/
def settled (action : ProtocolAction) (input : Digest) (p : Performed R) :
    RemoteAttestedSession R :=
  match p.result with
  | .error _ | .ok [] =>
      { s with
        client := some p.client
        status := { s.status with currentRound := p.currentRound } }
  | .ok messages =>
      { s with
        client := some p.client
        status := { s.status with
          currentRound := (action.finalizes s.status.currentRound).getD p.currentRound }
        finalized := match action.finalizes s.status.currentRound with
          | some round => some ⟨round, input, messages⟩
          | none => s.finalized
        repair := match action.repairs with
          | some round => some (round, messages)
          | none => s.repair }

/-- `execute_action`. -/
def executeAction (action : ProtocolAction) (input : Digest) (draw : Draw R) :
    Option (RemoteAttestedSession R × Except RemoteSessionError (List Bytes)) :=
  match s.early action input with
  | some answer => some (s, answer)
  | none =>
      match s.client with
      | none => some (s, .error .closed)
      | some client =>
          (client.perform s.status.currentRound draw action).map (fun p =>
            (s.settled action input p, p.result))

/-- `action_digest`. -/
def actionDigest (R : RemoteCrate) (action : ProtocolAction) : Digest :=
  R.sha256 (R.actionBytes action)

/-- `apply`. -/
def apply (action : ProtocolAction) (draw : Draw R) :
    Option (RemoteAttestedSession R × Except RemoteSessionError (List Bytes)) :=
  if s.status.closed then some (s, .error .closed)
  else s.executeAction action (actionDigest R action) draw

/-- `execute`, past the reply to the last request. -/
def executeNew (sequence : U64) (action : ProtocolAction) (draw : Draw R) :
    Option (RemoteAttestedSession R × Except RemoteSessionError (List Bytes)) :=
  if sequence ≠ s.status.nextRequest then
    some (s, .error (.requestSequence s.status.nextRequest))
  else
    match sequence.next? with
    | none => some (s, .error .sequenceExhausted)
    | some next =>
        let input := actionDigest R action
        let counted := { s with status := { s.status with nextRequest := next } }
        (counted.executeAction action input draw).map (fun r =>
          ({ r.1 with lastReply := some ⟨sequence, input, r.2⟩ }, r.2))

/-- `execute`. -/
def execute (sequence : U64) (action : ProtocolAction) (draw : Draw R) :
    Option (RemoteAttestedSession R × Except RemoteSessionError (List Bytes)) :=
  if s.status.closed then some (s, .error .closed)
  else
    match s.lastReply with
    | none => s.executeNew sequence action draw
    | some reply =>
        if sequence = reply.sequence then
          some (s, if actionDigest R action = reply.input then reply.result
            else .error .requestConflict)
        else s.executeNew sequence action draw

end RemoteAttestedSession

/-! ## Runs -/

/-- A call of the session. -/
inductive Op (R : RemoteCrate) where
  | apply (action : ProtocolAction) (draw : Draw R)
  | execute (sequence : U64) (action : ProtocolAction) (draw : Draw R)
  | reconfigure (subnet : Subnet) (keys : List (Pubkey × ExchangePublicKeyWire))
      (startingRound : Round) (fresh : Fresh)
  | close

namespace RemoteAttestedSession
variable (s : RemoteAttestedSession R)

/-- The session after a call, and its answer. -/
def call : Op R → Option (RemoteAttestedSession R × Except RemoteSessionError (List Bytes))
  | .apply action draw => s.apply action draw
  | .execute sequence action draw => s.execute sequence action draw
  | .reconfigure subnet keys startingRound fresh =>
      s.reconfigure subnet keys startingRound fresh
  | .close => some (s.close, .ok [])

/-- The session after a call; one that does not return leaves it as it was. -/
def step (op : Op R) : RemoteAttestedSession R := ((s.call op).map Prod.fst).getD s

/-- The answer of a call. -/
def answer (op : Op R) : Option (Except RemoteSessionError (List Bytes)) :=
  (s.call op).map Prod.snd

/-- The session after calls. -/
def after (ops : List (Op R)) : RemoteAttestedSession R := Trace.run s step ops

/-- The answers of calls. -/
def answers (ops : List (Op R)) : List (Option (Except RemoteSessionError (List Bytes))) :=
  Trace.observed s step (fun s op => [s.answer op]) ops

@[simp] theorem after_concat (ops : List (Op R)) (op : Op R) :
    s.after (ops ++ [op]) = (s.after ops).step op :=
  Trace.run_concat ..

end RemoteAttestedSession

end Remote
end Anymone
