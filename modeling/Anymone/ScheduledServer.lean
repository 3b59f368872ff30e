import Anymone.ScheduledCodec
import Anymone.PanetiereRun

/-! # The scheduled relay session

The relay session wraps the one-round session for its buckets and its decode.  Each
plaintext it settles splits into the reservations of its round and a message section,
which waits until the reservations of the round two before are known and is then cut
into the slots they were granted.
-/

namespace Anymone

/-- What a scheduled relay session is built with. -/
structure ScheduledServerConfig (C : ScheduledCrate) where
  inner : ServerConfig C.toSessionCrate
  mse : C.MseParams
  peeling : C.mseOf inner.mse = some mse
  vectorBytes : U64
  leaderPk : Pubkey

/-- `ScheduledPanetiereServerSession`, its changing part. -/
structure ScheduledServerSession (C : ScheduledCrate) where
  inner : ServerSession C.toSessionCrate
  entriesByRound : EntryMap
  pendingMsg : OrdMap Round (List C.KahePoly)
  curRound : Option Round
  firstRound : Option Round

variable {C : ScheduledCrate}

/-- `x as u16`. -/
def asU16 (x : Int) : U16 := ⟨(x % 65536).toNat, by omega⟩

/-- The reservations among the decoded elements; an all-zero one is dropped. -/
def entriesOf (elements : List (List Int)) : List Entry :=
  elements.filterMap (fun symbols => match symbols with
    | [rand, size] => if rand ≠ 0 ∨ size ≠ 0 then some (asU16 rand, asU16 size) else none
    | _ => none)

/-- The slots a list of reservations is granted, without the empty ones. -/
def grantedRanges (entries : List Entry) (offs : List (Option Nat)) : List (Nat × Nat) :=
  ((entries.zip offs).filterMap (fun e => e.2.map (fun o => (o, e.1.2.val)))).filter
    (fun r => 0 < r.2)

namespace ScheduledServerConfig
variable (cfg : ScheduledServerConfig C)

/-- `consensus`. -/
def consensus : Bool :=
  match cfg.inner.mode with
  | .consensus _ => true
  | _ => false

/-- Where the message section of a plaintext starts. -/
def split (plain : List C.KahePoly) : Nat := min (C.nPolys cfg.inner.mse) plain.length

/-- The reservations in a plaintext; a peel that stalls loses them. -/
def decodedEntries (plain : List C.KahePoly) : List Entry :=
  match C.mseDecode (C.mseUnpack cfg.mse (plain.take (cfg.split plain))) with
  | some elements => entriesOf elements
  | none => []

/-- The publisher's signed reservations of a round. -/
def reservationsWire (round : Round) (entries : List Entry) : PanetiereWire :=
  .reservations round entries
    (C.idSign cfg.inner.identity (reservationSigningBytes cfg.inner.setupSeed round entries))

/-- The payloads in a message section, under the reservations it fulfils.  A slot that
reads all zero was cover or not used. -/
def extract (section_ : List C.KahePoly) (entries : List Entry) : List Bytes :=
  let ranges := grantedRanges entries (allocation C entries cfg.vectorBytes.val).1
  if ranges = [] then []
  else ((C.decodeRanges section_ ranges).getD []).filter (fun b => b.any (fun x => x ≠ 0))

end ScheduledServerConfig

namespace ScheduledServerSession
variable (cfg : ScheduledServerConfig C) (s : ScheduledServerSession C)

/-- `ScheduledPanetiereServerSession::new`, over the node's entry map. -/
def new (entries : EntryMap) : ScheduledServerSession C :=
  ⟨ServerSession.new, entries, .empty, none, none⟩

/-- `begin_round`. -/
def beginRound (round : Round) : ScheduledServerSession C :=
  { s with
    curRound := some round
    firstRound := s.firstRound.or (some round)
    inner := s.inner.beginRound round }

/-- The part of `on_inbound` that is not the inner session's. -/
def noteReservations (round : Round) (entries : List Entry) : ScheduledServerSession C :=
  if roundInWindow round s.curRound then
    { s with entriesByRound := s.entriesByRound.orInsert round entries }
  else s

/-- Whether the leader signed these entries for the round. -/
def leaderSigned (round : Round) (entries : List Entry) (signature : Bytes) : Bool :=
  C.pubkeyVerify cfg.leaderPk (reservationSigningBytes cfg.inner.setupSeed round entries) signature

/-- The inner session's `on_inbound`. -/
def passOn (sender : PeerId) (payload : Bytes) :
    ScheduledServerSession C × List PanetiereWire :=
  let out := s.inner.onInbound cfg.inner sender payload
  ({ s with inner := out.1 }, out.2)

/-- `on_inbound`.  Reservations the leader did not sign end there. -/
def onInbound (sender : PeerId) (payload : Bytes) :
    ScheduledServerSession C × List PanetiereWire :=
  if sender = cfg.leaderPk then
    match PanetiereWire.deserialize payload with
    | some (.reservations round entries signature) =>
        if leaderSigned cfg round entries signature then
          (s.noteReservations round entries).passOn cfg sender payload
        else (s, [])
    | _ => s.passOn cfg sender payload
  else s.passOn cfg sender payload

/-- `checkpoint`. -/
def checkpoint (round : Round) (k : U8) : ScheduledServerSession C × List PanetiereWire :=
  if cfg.consensus then
    let out := s.inner.checkpoint cfg.inner round k
    ({ s with inner := out.1 }, out.2)
  else if k = 3 ∧ cfg.inner.mode = .leader then
    let out := s.inner.announceSettled cfg.inner round
    ({ s with inner := out.1 }, out.2)
  else (s, [])

/-! ## The end of a round -/

/-- The inner session after the shares of `end_round` went out, with those. -/
def shared (round : Round) : ServerSession C.toSessionCrate × List PanetiereWire :=
  (if cfg.consensus then s.inner.fixConsensusSets cfg.inner round
    else s.inner).emitServerPublics cfg.inner round

/-- The plaintexts `end_round` settles. -/
def settled (round : Round) : List (Round × List C.KahePoly) :=
  (s.shared cfg round).1.settledRounds cfg.inner

/-- The session once the settled plaintexts are split. -/
def recorded (round : Round) : ScheduledServerSession C :=
  { s with
    inner := ((s.shared cfg round).1.decodeSettled cfg.inner).1
    entriesByRound := s.entriesByRound.insertAll
      ((s.settled cfg round).map (fun d => (d.1, cfg.decodedEntries d.2)))
    pendingMsg := s.pendingMsg.insertAll
      ((s.settled cfg round).map (fun d => (d.1, d.2.drop (cfg.split d.2)))) }

/-- Whether a waiting message section has its reservations. -/
def ready (rd : Round) : Bool := (reservedAt rd).any (fun prev => s.entriesByRound.contains prev)

/-- The payloads of every message section that is ready. -/
def extractions : List (Round × List Bytes) :=
  s.pendingMsg.entries.filterMap (fun p => do
    let prev ← reservedAt p.1
    let entries ← s.entriesByRound.get? prev
    some (p.1, cfg.extract p.2 entries))

/-- What `end_round` keeps of it. -/
def swept (round : Round) : ScheduledServerSession C :=
  let cutoff := round.saturatingSub schedEntriesRetention
  { s with
    inner := s.inner.gc round
    entriesByRound := s.entriesByRound.retain (fun r _ => decide (cutoff ≤ r))
    pendingMsg := (s.pendingMsg.retain (fun r _ => !s.ready r)).retain
      (fun r _ => decide (cutoff ≤ r)) }

/-- `end_round`: no faults of its own. -/
def endRound (round : Round) : ScheduledServerSession C × ServerSession.RoundOutcome :=
  let recorded := s.recorded cfg round
  let messages := recorded.extractions cfg
  (recorded.swept round,
    { outbound := (s.shared cfg round).2 ++
        (if cfg.inner.publishes then (s.settled cfg round).map (fun d =>
          cfg.reservationsWire d.1 (cfg.decodedEntries d.2)) else []) ++
        ServerSession.publishDecoded cfg.inner (messages.filter (fun d => !d.2.isEmpty))
      decoded := messages.flatMap Prod.snd
      faults := [] })

end ScheduledServerSession

/-! ## Runs -/

/-- One call of the session, or a rewrite of the entry map by its other holder. -/
inductive RelayOp where
  | beginRound (round : Round)
  | inbound (sender : PeerId) (payload : Bytes)
  | checkpoint (round : Round) (k : U8)
  | endRound (round : Round)
  | setMisbehavior (mode : Option Misbehavior)
  | share (entries : EntryMap)

namespace ScheduledServerSession
variable (cfg : ScheduledServerConfig C) (s : ScheduledServerSession C)

/-- The session after a call. -/
def apply : RelayOp → ScheduledServerSession C
  | .beginRound round => s.beginRound round
  | .inbound sender payload => (s.onInbound cfg sender payload).1
  | .checkpoint round k => (s.checkpoint cfg round k).1
  | .endRound round => (s.endRound cfg round).1
  | .setMisbehavior mode => { s with inner := s.inner.setMisbehavior mode }
  | .share entries => { s with entriesByRound := entries }

/-- The session after a run, over the entry map the node held before. -/
def after (entries : EntryMap) (ops : List RelayOp) : ScheduledServerSession C :=
  Trace.run (new entries) (apply cfg) ops

/-- The plaintexts a call settles. -/
def settledBy : RelayOp → List (Round × List C.KahePoly)
  | .endRound round => s.settled cfg round
  | _ => []

/-- The payloads a call extracts, by the round whose message section they were in. -/
def extractedBy : RelayOp → List (Round × List Bytes)
  | .endRound round => (s.recorded cfg round).extractions cfg
  | _ => []

end ScheduledServerSession
end Anymone
