import Anymone.Bytes
import Mathlib.Data.List.Infix

/-! # A desktop and its phone

The desktop numbers its commands and keeps the one it is waiting for; the phone executes a
command under the number it expects next and keeps the last reply, to give it again when
the same request comes twice.  Between them is one connection after another: each may break
at any moment, with a request or a reply still on it, and a request that the phone has read
may be processed after the connection it came on was replaced.

What the phone runs for the desktop is a `RemoteProgram`.  A run is one in which every
application returns: an input whose application does not is not taken up.
-/

namespace U64

/-- `checked_add(1)`. -/
def next? (n : U64) : Option U64 :=
  if h : n.val + 1 < 18446744073709551616 then some ⟨n.val + 1, h⟩ else none

theorem val_next {n m : U64} (h : n.next? = some m) : m.val = n.val + 1 := by
  rw [next?] at h
  split at h
  · cases h
    rfl
  · cases h

end U64

namespace Anymone

/-- `RemoteSessionError`. -/
inductive RemoteSessionError where
  | closed
  | unsupportedProtocol
  | wrongProtocol
  | invalidConfig
  | incompleteRoster
  | roundOrder
  | roundConflict
  | requestConflict
  | requestSequence (expected : U64)
  | sequenceExhausted
  | payloadTooLarge
  | queueFull
  | protocol (message : String)
  deriving DecidableEq

/-- The text of an error. -/
def RemoteSessionError.text : RemoteSessionError → String
  | closed => "session is closed"
  | unsupportedProtocol => "unsupported remote protocol"
  | wrongProtocol => "action belongs to another protocol"
  | invalidConfig => "invalid or oversized protocol configuration"
  | incompleteRoster => "relay exchange-key roster is incomplete"
  | roundOrder => "round is out of order or exceeds protocol limits"
  | roundConflict => "round was already finalized with different inputs"
  | requestConflict => "request sequence was reused with different input"
  | requestSequence expected => "expected request sequence " ++ toString expected.val
  | sequenceExhausted => "request sequence exhausted"
  | payloadTooLarge => "payload exceeds protocol capacity"
  | queueFull => "pending message queue is full"
  | protocol message => message

/-- What a phone runs: `HostState::apply` over its client, and how commands are written,
compared and named.  A seed is what an application draws. -/
structure RemoteProgram where
  Client : Type
  Command : Type
  Result : Type
  Status : Type
  Digest : Type
  Seed : Type
  digestEq : DecidableEq Digest
  commandEq : Command → Command → Bool
  /-- `bincode::serialize`, which no command makes fail. -/
  bytes : Command → Bytes
  digest : Bytes → Digest
  commandName : Command → String
  status : Client → Status
  close : Client → Client
  /-- `none`, where it does not return. -/
  apply : Client → Command → Nat → Seed → Option (Client × Except RemoteSessionError Result)
  /-- Numbers are the host's own matter. -/
  apply_error : ∀ {c cmd n seed c' e}, apply c cmd n seed = some (c', .error e) →
    e ≠ .requestConflict ∧ ∀ expected, e ≠ .requestSequence expected

instance (P : RemoteProgram) : DecidableEq P.Digest := P.digestEq

variable {P : RemoteProgram}

/-- The outcome of an application. -/
abbrev RemoteProgram.Outcome (P : RemoteProgram) := Except RemoteSessionError P.Result

/-! ## Messages -/

/-- `HostStatus`. -/
structure HostStatus (P : RemoteProgram) where
  sessionId : ByteArr 32
  nextRequest : U64
  closed : Bool
  paired : Bool
  connected : Bool
  lastActivity : String
  lastError : Option String
  pairingAttemptsRemaining : U8
  client : P.Status

/-- `SessionInput`, of a paired desktop. -/
inductive SessionInput (P : RemoteProgram) where
  /-- `Pair(Resume)`. -/
  | resume (controllerSecret : ByteArr 32)
  | request (sequence : U64) (command : P.Command)
  | status
  | close

/-- `SessionReply`, to a paired desktop. -/
inductive SessionReply (P : RemoteProgram) where
  | paired (status : HostStatus P)
  | executed (sequence : U64) (result : P.Outcome)
  | status (status : HostStatus P)
  | closed
  | error (text : String)

/-! ## The phone -/

/-- `HostState`. -/
structure HostState (P : RemoteProgram) where
  client : P.Client
  sessionId : ByteArr 32
  nextRequest : U64
  lastReply : Option (P.Digest × P.Outcome)
  closed : Bool
  paired : Bool
  connected : Bool
  connectionGeneration : U64
  lastActivity : String
  lastError : Option String
  pairingAttemptsRemaining : U8

namespace HostState
variable (host : HostState P)

/-- `status`. -/
def status : HostStatus P :=
  ⟨host.sessionId, host.nextRequest, host.closed, host.paired, host.connected, host.lastActivity,
    host.lastError, host.pairingAttemptsRemaining, P.status host.client⟩

/-- `close`. -/
def close : HostState P :=
  { host with
    client := P.close host.client
    lastReply := none
    closed := true
    lastActivity := "Desktop closed the session" }

/-- `request_error`. -/
def requestError (sequence : U64) (operation : String) (error : RemoteSessionError) :
    HostState P × P.Outcome :=
  ({ host with
      lastActivity := s!"Request {sequence} failed: {operation}"
      lastError := some error.text }, .error error)

/-- The request is the next one, and it has a successor. -/
def applies (sequence : U64) : Bool :=
  !host.closed && decide (sequence = host.nextRequest) && sequence.next?.isSome

/-- What is left after an application: the activity it is reported as, and the reply. -/
def finish (sequence : U64) (operation : String) (digest : P.Digest) (result : P.Outcome) :
    HostState P :=
  match result with
  | .ok _ =>
      { host with
        lastActivity := s!"Request {sequence} completed: {operation}"
        lastReply := some (digest, result) }
  | .error e =>
      { host with
        lastActivity := s!"Request {sequence} failed: {operation}"
        lastError := some e.text
        lastReply := some (digest, result) }

/-- `execute`. -/
def execute (sequence : U64) (command : P.Command) (seed : P.Seed) :
    Option (HostState P × P.Outcome) :=
  let operation := P.commandName command
  if host.closed then some (host.requestError sequence operation .closed)
  else
    let digest := P.digest (P.bytes command)
    if sequence.next? = some host.nextRequest then
      match host.lastReply with
      | some (previous, result) =>
          if previous = digest then some (host, result)
          else some (host.requestError sequence operation .requestConflict)
      | none => some (host.requestError sequence operation .requestConflict)
    else if sequence ≠ host.nextRequest then
      some (host.requestError sequence operation (.requestSequence host.nextRequest))
    else
      match sequence.next? with
      | none => some (host.requestError sequence operation .sequenceExhausted)
      | some next =>
          (P.apply host.client command (P.bytes command).length seed).map (fun applied =>
            (({ host with client := applied.1, nextRequest := next } : HostState P).finish sequence
              operation digest applied.2, applied.2))

/-- A connection of the desktop is accepted, as a new generation. -/
def accept (activity : String) : HostState P :=
  { host with
    paired := true
    connected := true
    connectionGeneration := host.connectionGeneration + 1
    lastActivity := activity }

/-- A connection is not one of the desktop. -/
def refuse : HostState P :=
  { host with
    lastActivity := "Desktop pairing failed"
    lastError := some "pairing failed" }

/-- One input of an accepted connection, of generation `generation`. -/
def serve (generation : U64) (input : SessionInput P) (seed : P.Seed) :
    Option (HostState P × SessionReply P) :=
  if host.connectionGeneration ≠ generation then
    some (host, .error "connection replaced by reconnect")
  else
    match input with
    | .resume _ => some (host, .error "connection is already paired")
    | .request sequence command =>
        (host.execute sequence command seed).map (fun r => (r.1, .executed sequence r.2))
    | .status => some (host, .status host.status)
    | .close => some (host.close, .closed)

/-- A connection has ended. -/
def hangUp (generation : U64) (error : Option String) : HostState P :=
  if host.connectionGeneration = generation then
    { host with
      connected := false
      lastActivity := "Desktop disconnected"
      lastError := error.or host.lastError }
  else host

end HostState

/-! ## The desktop -/

/-- A call of the client. -/
inductive RemoteCall (P : RemoteProgram) where
  | reconnect
  | performCommand (command : P.Command)
  | retryPending
  | status
  | close

/-- What the client awaits. -/
inductive Awaiting (P : RemoteProgram) where
  | nothing
  /-- The reply to a connection attempt, and the call to go on with. -/
  | pairing (conn : Nat) (call : RemoteCall P)
  | reply (conn : Nat) (input : SessionInput P)

/-- `RemoteSessionClient`, with where its current call stands. -/
structure RemoteSessionClient (P : RemoteProgram) where
  stream : Option Nat
  controllerSecret : ByteArr 32
  nextRequest : U64
  pending : Option (U64 × P.Command)
  sessionId : ByteArr 32
  awaiting : Awaiting P

/-- What happened so far: the commands in the order they were numbered, those that were
applied, and the results that calls returned. -/
structure RemoteLedger (P : RemoteProgram) where
  numbered : List (U64 × P.Command)
  applied : List ((U64 × P.Command) × P.Outcome)
  returned : List ((U64 × P.Command) × P.Outcome)
  /-- Every reply that the client read. -/
  received : List (SessionReply P)

/-- The two parties and what is between them: inputs sent or already read, and replies,
each on its connection. -/
structure RemoteLink (P : RemoteProgram) where
  client : RemoteSessionClient P
  host : HostState P
  /-- Connections tried so far. -/
  conns : Nat
  /-- The generation of an accepted connection. -/
  generation : Nat → Option U64
  inputs : List (Nat × SessionInput P)
  replies : List (Nat × SessionReply P)
  ledger : RemoteLedger P

/-- One step: of a call, of its cancellation or failure, of the host, or of the network. -/
inductive RemoteOp (P : RemoteProgram) where
  | call (c : RemoteCall P)
  | cancel
  | receive
  | serve (i : Nat) (seed : P.Seed)
  | hangUp (conn : Nat) (error : Option String)
  | shutdown
  | loseInput (i : Nat)
  | loseReply (i : Nat)

namespace RemoteLink
variable (L : RemoteLink P)

/-- `reconnect`, up to its reply. -/
def dial (c : RemoteCall P) : RemoteLink P :=
  { L with
    client := { L.client with stream := none, awaiting := .pairing L.conns c }
    conns := L.conns + 1
    inputs := L.inputs ++ [(L.conns, .resume L.client.controllerSecret)] }

/-- `exchange` on a stream, up to its reply. -/
def exchange (conn : Nat) (input : SessionInput P) : RemoteLink P :=
  { L with
    client := { L.client with stream := none, awaiting := .reply conn input }
    inputs := L.inputs ++ [(conn, input)] }

/-- `retry_pending` with a stream. -/
def retryPending (conn : Nat) : RemoteLink P :=
  match L.client.pending with
  | some (sequence, command) => L.exchange conn (.request sequence command)
  | none => L

/-- `perform_command` with a stream. -/
def performCommand (conn : Nat) (command : P.Command) : RemoteLink P :=
  match L.client.pending with
  | some (_, pending) => if !P.commandEq pending command then L else L.retryPending conn
  | none =>
      let numbered := (L.client.nextRequest, command)
      ({ L with
          client := { L.client with pending := some numbered }
          ledger := { L.ledger with numbered := L.ledger.numbered ++ [numbered] } }
        : RemoteLink P).retryPending conn

/-- A call starts. -/
def call (c : RemoteCall P) : RemoteLink P :=
  match c, L.client.stream with
  | .reconnect, _ => L.dial c
  | .performCommand command, some conn => L.performCommand conn command
  | .performCommand _, none => L.dial c
  | .retryPending, some conn => L.retryPending conn
  | .retryPending, none => L.dial c
  | .status, some conn => L.exchange conn .status
  | .close, some conn => L.exchange conn .close
  | .status, none | .close, none => L

/-- The client is left with no call and no stream: the call was dropped, or it failed. -/
def abandon : RemoteLink P :=
  { L with client := { L.client with stream := none, awaiting := .nothing } }

/-- `reconnect` gets its reply, and the call goes on. -/
def paired (conn : Nat) (c : RemoteCall P) : SessionReply P → RemoteLink P
  | .paired status =>
      if status.sessionId = L.client.sessionId then
        let L : RemoteLink P := { L with client := { L.client with
          nextRequest := if L.client.pending.isNone then status.nextRequest
            else L.client.nextRequest
          stream := some conn
          awaiting := .nothing } }
        match c with
        | .performCommand command => L.performCommand conn command
        | .retryPending => L.retryPending conn
        | _ => L
      else L.abandon
  | _ => L.abandon

/-- `exchange` gets its reply. -/
def replied (conn : Nat) (input : SessionInput P) (reply : SessionReply P) : RemoteLink P :=
  match reply with
  | .error _ => L.abandon
  | _ =>
      let L : RemoteLink P :=
        { L with client := { L.client with stream := some conn, awaiting := .nothing } }
      match input, reply with
      | .request sequence command, .executed received result =>
          if received ≠ sequence then L
          else
            match sequence.next? with
            | none => { L with client := { L.client with pending := none } }
            | some next =>
                { L with
                  client := { L.client with pending := none, nextRequest := next }
                  ledger := { L.ledger with
                    returned := L.ledger.returned ++ [((sequence, command), result)] } }
      | .close, .closed => { L with client := { L.client with pending := none } }
      | _, _ => L

/-- The first reply on a connection, and the others. -/
def takeReply (conn : Nat) : Option (SessionReply P × RemoteLink P) :=
  (L.replies.find? (fun m => m.1 = conn)).map (fun m =>
    (m.2, { L with
      replies := L.replies.eraseP (fun m => m.1 = conn)
      ledger := { L.ledger with received := L.ledger.received ++ [m.2] } }))

/-- The client reads the reply it awaits. -/
def receive : RemoteLink P :=
  match L.client.awaiting with
  | .nothing => L
  | .pairing conn c =>
      match L.takeReply conn with
      | some (reply, L) => L.paired conn c reply
      | none => L
  | .reply conn input =>
      match L.takeReply conn with
      | some (reply, L) => L.replied conn input reply
      | none => L

/-- The host answers an input of an accepted connection. -/
def answer (conn : Nat) (generation : U64) (input : SessionInput P) (seed : P.Seed) :
    Option (RemoteLink P) :=
  (L.host.serve generation input seed).map (fun r =>
    { L with
      host := r.1
      replies := L.replies ++ [(conn, r.2)]
      ledger := match input, r.2 with
        | .request sequence command, .executed _ result =>
            if L.host.applies sequence then
              { L.ledger with applied := L.ledger.applied ++ [((sequence, command), result)] }
            else L.ledger
        | _, _ => L.ledger })

/-- The host accepts a connection, and tells the client where it stands. -/
def accept (conn : Nat) : RemoteLink P :=
  let host := L.host.accept "Desktop reconnected"
  { L with
    host := host
    generation := fun k => if k = conn then some host.connectionGeneration else L.generation k
    replies := L.replies ++ [(conn, .paired host.status)] }

/-- The host turns a connection down. -/
def refuse (conn : Nat) : RemoteLink P :=
  { L with
    host := L.host.refuse
    replies := L.replies ++ [(conn, .error "pairing failed")] }

/-- The host takes up an input it has read: the first one of a connection pairs it. -/
def serve (secret : ByteArr 32) (i : Nat) (seed : P.Seed) : RemoteLink P :=
  match L.inputs[i]? with
  | none => L
  | some (conn, input) =>
      let taken : RemoteLink P := { L with inputs := L.inputs.eraseIdx i }
      match L.generation conn, input with
      | some generation, input => (taken.answer conn generation input seed).getD L
      | none, .resume controllerSecret =>
          if controllerSecret = secret then taken.accept conn else taken.refuse conn
      | none, _ => taken.refuse conn

/-- One step, of a host that is paired under `secret`. -/
def step (secret : ByteArr 32) : RemoteOp P → RemoteLink P
  | .call c =>
      match L.client.awaiting with
      | .nothing => L.call c
      | _ => L
  | .cancel =>
      match L.client.awaiting with
      | .nothing => L
      | _ => L.abandon
  | .receive => L.receive
  | .serve i seed => L.serve secret i seed
  | .hangUp conn error =>
      match L.generation conn with
      | some generation => { L with host := L.host.hangUp generation error }
      | none => L
  | .shutdown => { L with host := L.host.close }
  | .loseInput i => { L with inputs := L.inputs.eraseIdx i }
  | .loseReply i => { L with replies := L.replies.eraseIdx i }

end RemoteLink

/-- What a pairing fixes: the controller's secret, and the phone's client and session. -/
structure Pairing (P : RemoteProgram) where
  controllerSecret : ByteArr 32
  sessionId : ByteArr 32
  client : P.Client

namespace RemoteLink
variable (pairing : Pairing P)

/-- The host after its first connection. -/
def pairedHost : HostState P :=
  ({ client := pairing.client
     sessionId := pairing.sessionId
     nextRequest := 0
     lastReply := none
     closed := false
     paired := false
     connected := false
     connectionGeneration := 0
     lastActivity := "Waiting for desktop"
     lastError := none
     pairingAttemptsRemaining := 5 } : HostState P).accept "Desktop connected with pairing data"

/-- `pair` has just returned. -/
def init : RemoteLink P where
  client := ⟨some 0, pairing.controllerSecret, (pairedHost pairing).status.nextRequest, none,
    (pairedHost pairing).status.sessionId, .nothing⟩
  host := pairedHost pairing
  conns := 1
  generation := fun k => if k = 0 then some (pairedHost pairing).connectionGeneration else none
  inputs := []
  replies := []
  ledger := ⟨[], [], [], []⟩

/-- The pairing after the steps. -/
def after (ops : List (RemoteOp P)) : RemoteLink P :=
  ops.foldl (fun L op => L.step pairing.controllerSecret op) (init pairing)

@[simp] theorem after_nil : after pairing [] = init pairing := rfl

@[simp] theorem after_concat (ops : List (RemoteOp P)) (op : RemoteOp P) :
    after pairing (ops ++ [op]) = (after pairing ops).step pairing.controllerSecret op := by
  rw [after, List.foldl_append]
  rfl

end RemoteLink
end Anymone
