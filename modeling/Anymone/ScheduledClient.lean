import Anymone.ScheduledCodec
import Anymone.Trace

/-! # The scheduled client session

A client's payloads wait in `staged`, move to `reserved` when a round reserves slots
for them, to `granted` when the leader's reservations come back, and from there into
the message vector of the round that fulfils the grant.  What misses its grant waits
in `deferred` and is staged again on a coin flip.

`ClientOp` is one call of the session; the entry map is shared with the relay session
of the same node, so a run may also rewrite it (`share`).
-/

namespace Anymone

/-- What a scheduled client session is built with.  `peeling` is the
`expect("scheduled channel is the peeling encoding")` of the source, carried by the
value. -/
structure ScheduledClientConfig (C : ScheduledCrate) extends ClientConfig C.toPostCrate where
  schedMse : C.ChannelParams
  mse : C.MseParams
  peeling : C.mseOf schedMse = some mse
  vectorBytes : U64
  leaderPk : Pubkey
  /-- The bits of `cover_rate`. -/
  coverRate : U32

/-- `ScheduledPanetiereClientSession`, its changing part. -/
structure ScheduledClientSession (C : ScheduledCrate) extends PostState C.toPostCrate where
  staged : List Bytes
  deferred : List Bytes
  reserved : OrdMap Round (List (U16 × Bytes))
  granted : List (Round × Nat × Bytes)
  entriesByRound : EntryMap
  curRound : Option Round
  coverRng : C.Rng
  randRng : C.Rng

/-- What `finalize_round` has once every staged payload has a rand. -/
structure Drawn (C : ScheduledCrate) where
  session : ScheduledClientSession C
  sched : C.MseEncoding
  reservations : List (U16 × Bytes)

variable {C : ScheduledCrate}

/-- The index a reservation of `len` bytes under `rand` is matched at. -/
def matchedAt (entries : List Entry) (rand : U16) (len : Nat) : Option Nat :=
  entries.findIdx? (fun e => e.1 == rand && e.2.val == len)

/-- The slot a reservation is granted, if it is. -/
def grantedSlot (entries : List Entry) (offs : List (Option Nat)) (m : U16 × Bytes) : Option Nat :=
  (matchedAt entries m.1 m.2.length).bind (fun i => (offs[i]?).join)

/-- The coin flips over the bounced payloads: what goes back to `staged`, and what
waits on. -/
def coinSplit : C.Rng → List Bytes → (List Bytes × List Bytes) × C.Rng
  | rng, [] => (([], []), rng)
  | rng, data :: rest =>
      let coin := C.genBool rng
      let split := coinSplit coin.2 rest
      (if coin.1 then (data :: split.1.1, split.1.2) else (split.1.1, data :: split.1.2), split.2)

/-- A rand no reservation of the round has yet.  The loop of the source has no bound;
`none` is a loop that does not end within `spins` draws. -/
def freshRand (taken : List U16) : Nat → C.Rng → Option (U16 × C.Rng)
  | 0, _ => none
  | spins + 1, rng =>
      let candidate := C.genU16 rng
      if candidate.1 ∈ taken then freshRand taken spins candidate.2 else some candidate

/-- The reservation loop: each staged payload gets a rand and goes into the
encoding. -/
def reserveAll (spins : Nat) : List Bytes → C.MseEncoding → List (U16 × Bytes) → C.Rng →
    Option (C.MseEncoding × List (U16 × Bytes) × C.Rng)
  | [], sched, reservations, rng => some (sched, reservations, rng)
  | data :: rest, sched, reservations, rng => do
      let (rand, rng) ← freshRand (reservations.map Prod.fst) spins rng
      let inserted := C.mseInsert sched rng [rand.val, data.length]
      reserveAll spins rest inserted.1 (reservations ++ [(rand, data)]) inserted.2

namespace ScheduledClientSession
variable (cfg : ScheduledClientConfig C) (s : ScheduledClientSession C)

/-- `ScheduledPanetiereClientSession::new`, over the node's entry map. -/
def new (entries : EntryMap) : ScheduledClientSession C where
  clientRound := none
  setRounds := .empty
  staged := []
  deferred := []
  reserved := .empty
  granted := []
  entriesByRound := entries
  curRound := none
  coverRng := C.fromSeed (tweakSeed 0xA5 cfg.rngSeed)
  randRng := C.fromSeed (tweakSeed 0x91 cfg.rngSeed)

/-- `reserve_message`. -/
def reserveMessage (payload : Bytes) : Except String (ScheduledClientSession C) :=
  if min cfg.vectorBytes.val 65535 < payload.length then
    .error "payload exceeds reservation capacity"
  else .ok { s with staged := s.staged ++ [payload] }

/-- `take_pending_messages`, oldest first. -/
def takePendingMessages : ScheduledClientSession C × List Bytes :=
  ({ s with staged := [], deferred := [], reserved := .empty, granted := [] },
    (s.granted.map (fun g => g.2.2) ++ s.reserved.values.flatten.map Prod.snd ++ s.deferred ++
      s.staged).filter (fun p => p ≠ []))

/-- `advance_round`: a reservation whose grant never arrived goes back. -/
def advanceRound (round : Round) : ScheduledClientSession C :=
  let cutoff := round.saturatingSub panetiereRoundRetention
  let stale := s.reserved.retain (fun r _ => decide (r < cutoff))
  { s with
    curRound := some round
    entriesByRound := s.entriesByRound.retain
      (fun r _ => decide (round.saturatingSub schedEntriesRetention ≤ r))
    reserved := s.reserved.retain (fun r _ => decide (cutoff ≤ r))
    deferred := s.deferred ++
      (stale.values.flatten.map Prod.snd).filter (fun p => p ≠ []) }

/-- What `accept_reservations` does with the reservations of the round. -/
def settle (target : Round) (entries : List Entry) (offs : List (Option Nat))
    (mine : List (U16 × Bytes)) : ScheduledClientSession C :=
  { s with
    granted := s.granted ++ mine.filterMap (fun m =>
      (grantedSlot entries offs m).map (fun o => (target, o, m.2)))
    -- Cover that is not granted ends there; a payload retries with a fresh rand.
    deferred := s.deferred ++
      (mine.filter (fun m => (grantedSlot entries offs m).isNone && m.2 ≠ [])).map Prod.snd }

/-- Whether the leader signed these entries for the round. -/
def leaderSigned (round : Round) (entries : List Entry) (signature : Bytes) : Bool :=
  C.pubkeyVerify cfg.leaderPk (reservationSigningBytes cfg.setupSeed round entries) signature

/-- `accept_reservations`.  The round's first list stays in the entry map; the grants
are made from the list at hand. -/
def acceptReservations (round : Round) (entries : List Entry) (signature : Bytes) :
    Except String (ScheduledClientSession C) :=
  if !leaderSigned cfg round entries signature then .error "invalid reservation signature"
  else if !roundInWindow round s.curRound then
    .error "reservation round is outside the active window"
  else
    let recorded := { s with entriesByRound := s.entriesByRound.orInsert round entries }
    match s.reserved.get? round with
    | none => .ok recorded
    | some mine =>
        .ok ({ recorded with reserved := s.reserved.erase round }.settle (fulfilledAt round) entries
          (allocation C entries cfg.vectorBytes.val).1 mine)

/-! ## Finalizing a round -/

/-- `msg_bytes`: the width of the message vector, from the entry map. -/
def msgBytes (round : Round) : Nat :=
  ((reservedAt round).bind (fun prev =>
    (s.entriesByRound.get? prev).map (fun e => vectorWidth C e cfg.vectorBytes.val))).getD 0

/-- The grants the round fulfils, with their slots. -/
def due (round : Round) : List (Nat × Bytes) :=
  (s.granted.filter (fun g => g.1 = round)).map Prod.snd

/-- The grants whose round is over. -/
def missed (round : Round) : List Bytes :=
  (s.granted.filter (fun g => g.1 < round)).map (fun g => g.2.2)

/-- `msg_buf`: the message vector with every due grant copied in, cut off at its end. -/
def msgBuf (round : Round) : Bytes :=
  (s.due round).foldl SlotVector.place (List.replicate (s.msgBytes cfg round) 0)

/-- The payloads the coin flips stage again, behind those already staged. -/
def restaged (round : Round) : List Bytes :=
  s.staged ++ (coinSplit s.randRng (s.deferred ++ s.missed round)).1.1

/-- The staged items the round reserves for: an empty cover item where there are no
payloads and the cover coin says so. -/
def toReserve (round : Round) : List Bytes × C.Rng :=
  if s.restaged round = [] then
    let cover := C.genBelow s.coverRng cfg.coverRate
    (if cover.1 then [[]] else [], cover.2)
  else (s.restaged round, s.coverRng)

/-- `finalize_round` up to the plaintext. -/
def draw (round : Round) (spins : Nat) : Option (Drawn C) := do
  let split := coinSplit s.randRng (s.deferred ++ s.missed round)
  let staged := s.toReserve cfg round
  let (sched, reservations, rng) ← reserveAll spins staged.1 (C.mseNew cfg.mse) [] split.2
  some {
    session := { s with
      staged := []
      deferred := split.1.2
      granted := s.granted.filter (fun g => round < g.1)
      reserved := if reservations = [] then s.reserved else s.reserved.insert round reservations
      coverRng := staged.2
      randRng := rng }
    sched := sched
    reservations := reservations }

/-- The round's plaintext, at full width. -/
def plaintext (round : Round) (sched : C.MseEncoding) : List C.KahePoly :=
  SlotVector.resize C.kaheZero (C.messagePolys cfg.pp)
    (C.msePack sched ++ C.encodeRaw (s.msgBuf cfg round))

/-- `finalize_round`; `none` is a call that does not return. -/
def finalizeRound (round : Round) (spins : Nat) :
    Option (ScheduledClientSession C × List PanetiereWire) :=
  if !cfg.complete then some (s, [])
  else do
    let drawn ← s.draw cfg round spins
    if s.due round = [] ∧ drawn.reservations = [] then some (drawn.session, [])
    else
      let posted ← cfg.post drawn.session.toPostState round (s.plaintext cfg round drawn.sched)
      some ({ drawn.session with toPostState := posted.1 }, posted.2)

end ScheduledClientSession

/-! ## Runs -/

/-- One call of the session, or a rewrite of the entry map by its other holder. -/
inductive ClientOp where
  | reserve (payload : Bytes)
  | advance (round : Round)
  | accept (round : Round) (entries : List Entry) (signature : Bytes)
  | batch (round : Round) (data : Bytes)
  | prepare (round : Round)
  | repair (round : Round)
  | finalize (round : Round) (spins : Nat)
  | share (entries : EntryMap)

namespace ScheduledClientSession
variable (cfg : ScheduledClientConfig C) (s : ScheduledClientSession C)

/-- Replace the part the posts change. -/
def withPost (st : PostState C.toPostCrate) : ScheduledClientSession C :=
  { s with toPostState := st }

/-- The session after a call; a call that fails leaves it as it was. -/
def apply : ClientOp → ScheduledClientSession C
  | .reserve payload => (s.reserveMessage cfg payload).toOption.getD s
  | .advance round => s.advanceRound round
  | .accept round entries signature =>
      (s.acceptReservations cfg round entries signature).toOption.getD s
  | .batch round data =>
      s.withPost ((cfg.acceptReceiptBatch s.toPostState round data).toOption.getD s.toPostState)
  | .prepare round => s.withPost (cfg.prepareRound s.toPostState round)
  | .repair round =>
      s.withPost (((cfg.buildRepair s.toPostState round).map Prod.fst).getD s.toPostState)
  | .finalize round spins => ((s.finalizeRound cfg round spins).map Prod.fst).getD s
  | .share entries => { s with entriesByRound := entries }

/-- The session after a run, over the entry map the node held before. -/
def after (entries : EntryMap) (ops : List ClientOp) : ScheduledClientSession C :=
  Trace.run (new cfg entries) (apply cfg) ops

/-- Whether a call returns. -/
def returns : ClientOp → Bool
  | .finalize round spins => (s.finalizeRound cfg round spins).isSome
  | _ => true

/-- Every call of the run returned. -/
def Returned (entries : EntryMap) (ops : List ClientOp) : Prop :=
  ∀ σ ∈ Trace.steps ops, (after cfg entries σ.1).returns cfg σ.2 = true

instance (entries : EntryMap) (ops : List ClientOp) : Decidable (Returned cfg entries ops) :=
  List.decidableBAll _ _

/-- The rounds a run finalizes, in order. -/
def finalized (ops : List ClientOp) : List Round :=
  ops.filterMap (fun op => match op with
    | .finalize round _ => some round
    | _ => none)

end ScheduledClientSession
end Anymone
