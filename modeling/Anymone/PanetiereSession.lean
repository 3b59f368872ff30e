import Anymone.PanetiereWire

/-! # A relay's session

`PanetiereServerSession`: one relay's state across Panetière rounds, bucketed by the
round each wire message is stamped with.  A round is fed by `onInbound`, its set is
formed at checkpoints, and `endRound` settles it: the canonical set is announced or
fixed, the relay's share is emitted, whatever reached its threshold is decoded, and
old buckets are dropped.

What a session is built with (`ServerConfig`) is separate from what it changes
(`ServerSession`).  Outgoing messages are the wire values before `bincode`, incoming
ones are the payload bytes.
-/

namespace Anymone

/-- `SetMode`: how a relay obtains the round's canonical client set. -/
inductive SetMode where
  | leader
  | follower (leader : PeerId)
  | selfDerived
  | consensus (publisher : PeerId)
  deriving DecidableEq

/-- `Misbehavior`, for fault injection. -/
inductive Misbehavior where
  | withhold
  | corruptShare
  deriving DecidableEq

/-- `FaultKind`. -/
inductive FaultKind where
  | decryption
  | integrity
  | liveness
  | censorship
  deriving DecidableEq

/-- `Attribution`. -/
inductive Attribution where
  | none
  | peers (pks : List PeerId)
  deriving DecidableEq

/-- `Fault`. -/
structure Fault where
  kind : FaultKind
  attribution : Attribution
  evidence : Bytes
  deriving DecidableEq

/-- What a server session is built with.  `rs_mode` is the `expect("RS mode
params")` of the source, carried by the value. -/
structure ServerConfig (C : SessionCrate) where
  pp : ProtocolParams
  scp : ShareCommitmentParams
  rs_mode : pp.shareComm = some scp
  mse : C.ChannelParams
  serverId : ServerId
  identity : C.Identity
  mode : SetMode
  serverPubkeys : OrdMap ServerId Pubkey
  /-- Bound on the canonical set; `usize::MAX` where none was set. -/
  clientSetMax : U64
  setupSeed : ByteArr 32
  /-- `GoodClients::allows`. -/
  goodClients : Pubkey → Bool
  setKeys : Option (C.SigningKey × List C.VerifyingKey)

/-- `PanetiereRoundState`. -/
structure RoundState (C : SessionCrate) where
  publics : OrdMap ClientId C.ClientEntry
  inboxItems : List (ClientId × C.Opening)
  laneItems : List (ClientId × C.Share × SharePath C.HVCPoly)
  peerServerPublics : OrdMap ServerId C.ServerEntry
  /-- With the raw wire, kept as fault evidence. -/
  peerLaneSums : OrdMap NodeId (C.NodeEntry × Bytes)
  emittedMyPublic : Bool
  decoded : Bool
  owners : OrdMap ClientId Pubkey
  rejected : OrdSet ClientId
  set : Option (SetServer C.toSetCrate)
  pendingBulletins : List (ClientId × C.Pk)
  relayBuf : List (Relay C.toSetCrate)
  finalized : Bool

/-- `PanetiereServerSession`, its changing part. -/
structure ServerSession (C : SessionCrate) where
  rounds : OrdMap Round (RoundState C)
  clientSetByRound : OrdMap Round (List ClientId)
  announcedRounds : OrdSet Round
  misbehavior : Option Misbehavior
  curRound : Option Round
  firstRound : Option Round

/-- `RELAY_BUF_MAX`. -/
def relayBufMax : Nat := 4096

/-- `K_BATCH`. -/
def kBatch : Nat := 2

/-- `K_REPAIR`. -/
def kRepair : Nat := 3

variable {C : SessionCrate}

namespace RoundState

/-- `PanetiereRoundState::default`. -/
def default : RoundState C :=
  ⟨.empty, [], [], .empty, .empty, false, false, .empty, .empty, none, [], [], false⟩

/-- The admission every client message goes through: the signer takes or keeps the
client id, and a capacity rejection is recorded as demand. -/
def claim (b : RoundState C) (cid : ClientId) (signer : Pubkey) (max : U64) :
    RoundState C × Bool :=
  match admitClient b.owners cid signer max.val with
  | (owners, .admitted) => ({ b with owners := owners }, true)
  | (_, .atCapacity) =>
      ({ b with
          rejected :=
            if b.rejected.size < (max.saturatingMul 4).val then b.rejected.add cid
            else b.rejected },
        false)
  | (_, .notOwner) => (b, false)

/-- A client's slot, then what the message brings. -/
def claimed (b : RoundState C) (cid : ClientId) (signer : Pubkey) (max : U64)
    (store : RoundState C → RoundState C × List PanetiereWire) :
    RoundState C × List PanetiereWire :=
  let r := b.claim cid signer max
  if r.2 then store r.1 else (r.1, [])

/-- Clients with an opening and a public, the ones a set can be made of. -/
def servable (b : RoundState C) : List ClientId :=
  (b.inboxItems.map Prod.fst).filter b.publics.contains

/-- `collect_outputs`. -/
def collectOutputs (b : RoundState C) : List C.ServerEntry := b.peerServerPublics.values

end RoundState

/-- `relay_wire`. -/
def relayWire (round : Round) (items : List (Relay C.toSetCrate)) : List PanetiereWire :=
  items.map (fun r => .setRelay round r.pack)

namespace ServerConfig
variable (cfg : ServerConfig C)

/-- `PanetiereServerSession::consensus`. -/
def consensus : Bool :=
  match cfg.mode with
  | .consensus _ => cfg.setKeys.isSome
  | _ => false

/-- `PanetiereServerSession::publishes`. -/
def publishes : Bool :=
  match cfg.mode with
  | .leader => true
  | .consensus publisher => publisher = C.pubkey cfg.identity
  | .follower _ | .selfDerived => false

/-- The round's `sid`. -/
def sid (round : Round) : SessionId := sessionId C.toSetCrate cfg.setupSeed round

/-- `PanetiereServerSession::accept_client`. -/
def acceptClient (signer : Pubkey) (signature signingBytes : Bytes) : Bool :=
  C.pubkeyVerify signer signingBytes signature && cfg.goodClients signer

/-- Admission is at twice the set bound, so that any set the leader picks is
servable. -/
def admitMax : U64 := cfg.clientSetMax.saturatingMul 2

/-- `slice_wire_lens`. -/
def sliceWireLens : Nat × Nat :=
  (cfg.scp.blockLen * C.rsPolyPackedLen, C.freshPathPackedLen cfg.scp.nLanes)

/-- `get_or_insert_with(|| SetServer::new(..))`. -/
def setServer (signer : C.SigningKey) (pks : List C.VerifyingKey) (b : RoundState C) :
    SetServer C.toSetCrate :=
  b.set.getD (SetServer.new cfg.pp cfg.serverId signer pks)

/-- Whether a `ClientSet` is the leader's to a follower, and within the cap. -/
def adopts (sender : PeerId) (clients : List U32) : Bool :=
  match cfg.mode with
  | .follower leader => decide (sender = leader) && decide (clients.length ≤ cfg.clientSetMax.val)
  | _ => false

/-! ## Filing a message into its bucket -/

/-- The P-256 check on a parsed post. -/
def postOk (round : Round) (cid : ClientId) (parsed : C.ClientEntry) : Bool :=
  match C.fromSec1Bytes parsed.pubkey with
  | none => false
  | some vk =>
      C.verify vk (C.bulletinSigningBytes (cfg.sid round) cid parsed.comm parsed.shareRoot)
        parsed.sig

/-- What an admitted `ClientPublic` leaves in its bucket. -/
def filePublic (round : Round) (cid : ClientId) (entry : Bytes) (b : RoundState C) :
    RoundState C :=
  match C.bulletinFromBytes entry with
  | none => b
  | some parsed =>
      if cfg.postOk round cid parsed then
        { b with
          set := b.set.map (fun s => s.noteBulletin cid parsed.pubkey)
          pendingBulletins := b.pendingBulletins ++ [(cid, parsed.pubkey)]
          publics := b.publics.insert cid parsed }
      else b

/-- What an admitted `Opening` leaves: the first opening of a client is kept. -/
def fileOpening (round : Round) (cid : ClientId) (sealed : Bytes) (b : RoundState C) :
    RoundState C :=
  match C.unsealOpening (C.pke cfg.identity) (cfg.sid round) cid cfg.serverId sealed with
  | none => b
  | some opening =>
      if b.inboxItems.any (fun i => i.1 == cid) then b
      else { b with inboxItems := b.inboxItems ++ [(cid, opening)] }

/-- What an admitted `ClientSlice` leaves: the first slice of a client is kept. -/
def fileSlice (cid : ClientId) (lane : U32) (share path : Bytes) (b : RoundState C) :
    RoundState C :=
  if b.laneItems.any (fun i => i.1 == cid) then b
  else match C.unpackShare share cfg.scp.blockLen, C.pathFromBytes cfg.scp lane.val path with
    | some share, some path => { b with laneItems := b.laneItems ++ [(cid, share, path)] }
    | _, _ => b

/-- The entries a `ServerPublic` unpacks to, both halves or neither. -/
def unpackServerPublic (serverId : U32) (clients : List U32)
    (aggOpen aggShare shareSum laneOpen : Bytes) : Option (C.ServerEntry × C.NodeEntry) := do
  let packed ← C.packedOpeningFromBytes aggOpen
  let opening ← C.openingFromPacked packed
  let shares ← C.unpackCsShares aggShare (C.muCs packed)
  match shares with
  | [csShare] =>
      let laneShareSum ← C.unpackShare shareSum cfg.scp.blockLen
      let laneOpening ← C.shareOpeningFromBytes cfg.scp serverId.val laneOpen
      some (⟨serverId, clients, opening, csShare⟩, ⟨serverId, clients, laneShareSum, laneOpening⟩)
  | _ => none

/-- Where an authenticated `ServerPublic` goes. -/
def filePeer (entries : C.ServerEntry × C.NodeEntry) (payload : Bytes) (b : RoundState C) :
    RoundState C :=
  { b with
    peerServerPublics := b.peerServerPublics.insert entries.1.serverId entries.1
    peerLaneSums := b.peerLaneSums.insert entries.2.nodeId (entries.2, payload) }

/-- Where a relay waits for the next absorb; a full buffer drops it. -/
def fileRelay (relay : Relay C.toSetCrate) (b : RoundState C) : RoundState C :=
  if b.relayBuf.length < relayBufMax then { b with relayBuf := b.relayBuf ++ [relay] } else b

/-- What a message does to the bucket of its round; `none` when it is dropped
before the bucket is looked up. -/
def file (sender : PeerId) (payload : Bytes) :
    PanetiereWire → Option (RoundState C → RoundState C × List PanetiereWire)
  | .clientPublic round cid entry signer signature =>
      if entry.length = C.bulletinPackedLen ∧
          cfg.acceptClient signer signature (clientPublicSigningBytes round cid entry) = true then
        some (fun b => b.claimed cid signer cfg.admitMax
          (fun b => (cfg.filePublic round cid entry b, [])))
      else none
  | .opening round cid target sealed signer signature =>
      if target = cfg.serverId ∧
          cfg.acceptClient signer signature
            (clientOpeningSigningBytes round cid target sealed) = true then
        some (fun b => b.claimed cid signer cfg.admitMax
          (fun b => (cfg.fileOpening round cid sealed b, [])))
      else none
  | .clientSlice round cid lane share path signer signature =>
      if lane = cfg.serverId ∧
          cfg.acceptClient signer signature
            (clientSliceSigningBytes round cid lane share path) = true ∧
          (share.length, path.length) = cfg.sliceWireLens then
        some (fun b => b.claimed cid signer cfg.admitMax
          (fun b => (cfg.fileSlice cid lane share path b, [])))
      else none
  | .serverPublic round serverId clients aggOpen aggShare shareSum laneOpen signature => do
      -- Attribution binds to the slot owner's key.
      let expected ← cfg.serverPubkeys.get? serverId
      if sender = expected ∧
          C.pubkeyVerify expected (serverPublicSigningBytes round serverId clients aggOpen aggShare
            shareSum laneOpen) signature = true then
        let entries ← cfg.unpackServerPublic serverId clients aggOpen aggShare shareSum laneOpen
        some (fun b => (filePeer entries payload b, []))
      else none
  | .bundle round cid lane data signer signature => do
      let (signerKey, pks) ← cfg.setKeys
      if lane = cfg.serverId ∧ cfg.consensus = true ∧
          cfg.acceptClient signer signature (clientBundleSigningBytes round cid lane data) = true then
        let (bundle, used) ← Bundle.unpack cfg.scp cid data
        if used = data.length then
          some (fun b => b.claimed cid signer cfg.admitMax (fun b =>
            ({ b with set := some ((cfg.setServer signerKey pks b).receive (cfg.sid round) bundle).1 },
              [])))
        else none
      else none
  | .setFragment round cid target data signer signature => do
      let (signerKey, pks) ← cfg.setKeys
      if target = cfg.serverId ∧ cfg.consensus = true ∧
          cfg.acceptClient signer signature
            (clientFragmentSigningBytes round cid target data) = true then
        let fragment ← Fragment.unpack (C := C.toSetCrate) data
        if fragment.clientId = cid then
          some (fun b => b.claimed cid signer cfg.admitMax (fun b =>
            let r := (cfg.setServer signerKey pks b).submit (cfg.sid round) [fragment]
            ({ b with set := some r.1 }, relayWire round r.2)))
        else none
      else none
  | .setRelay _ data =>
      if cfg.consensus then
        (Relay.unpack (C := C.toSetCrate) data).map (fun relay b => (fileRelay relay b, []))
      else none
  | .setBatch .. | .decoded .. | .reservations .. | .clientSet .. => none

end ServerConfig

namespace ServerSession
variable (cfg : ServerConfig C) (s : ServerSession C)

/-- `PanetiereServerSession::new`. -/
def new : ServerSession C := ⟨.empty, .empty, .empty, none, none, none⟩

/-- `rounds.entry(r).or_default()`, and what is done to the bucket. -/
def entry (r : Round) (f : RoundState C → RoundState C × List PanetiereWire) :
    ServerSession C × List PanetiereWire :=
  let out := f ((s.rounds.get? r).getD .default)
  ({ s with rounds := s.rounds.insert r out.1 }, out.2)

/-- `begin_round`. -/
def beginRound (round : Round) : ServerSession C :=
  { s with
    firstRound := s.firstRound.or (some round)
    curRound := some round }

/-- The checks `on_inbound` makes on the round a message is stamped with. -/
def admits (round : Round) : Bool :=
  roundInWindow round s.curRound && !s.firstRound.any (fun f => decide (round < f))

/-- `on_inbound` for a `ClientSet`: a follower keeps the leader's first announcement
of a round. -/
def adopt (sender : PeerId) (round : Round) (clients : List U32) : ServerSession C :=
  if cfg.adopts sender clients then
    { s with clientSetByRound := s.clientSetByRound.orInsert round clients }
  else s

/-- `on_inbound`. -/
def onInbound (sender : PeerId) (payload : Bytes) : ServerSession C × List PanetiereWire :=
  match PanetiereWire.deserialize payload with
  | none => (s, [])
  | some msg =>
      if s.admits msg.round then
        match msg with
        | .clientSet round clients _ => (s.adopt cfg sender round clients, [])
        | msg =>
            match cfg.file sender payload msg with
            | some f => s.entry msg.round f
            | none => (s, [])
      else (s, [])

/-! ## Checkpoints -/

/-- `publish_batch`.  The parked bulletins are taken before the set is looked up. -/
def publishBatch (round : Round) : ServerSession C × List PanetiereWire :=
  match s.rounds.get? round with
  | none => (s, [])
  | some b =>
      let posted := b.pendingBulletins
      let b := { b with pendingBulletins := [] }
      match b.set with
      | none => ({ s with rounds := s.rounds.insert round b }, [])
      | some set =>
          let set := posted.foldl (fun set p => set.noteBulletin p.1 p.2) set
          let batch := set.batch (cfg.sid round)
          let r := set.originate (cfg.sid round)
          ({ s with rounds := s.rounds.insert round { b with set := some r.1 } },
            .setBatch round batch.pack :: relayWire round r.2)

/-- `absorb_relays`.  The buffer is taken before the set is looked up. -/
def absorbRelays (round : Round) (dsRound : Nat) : ServerSession C × List PanetiereWire :=
  match s.rounds.get? round with
  | none => (s, [])
  | some b =>
      let batch := b.relayBuf
      let b := { b with relayBuf := [] }
      match b.set with
      | none => ({ s with rounds := s.rounds.insert round b }, [])
      | some set =>
          let r := set.absorb (cfg.sid round) dsRound batch
          ({ s with rounds := s.rounds.insert round { b with set := some r.1 } },
            relayWire round r.2)

/-- `checkpoint`. -/
def checkpoint (round : Round) (k : U8) : ServerSession C × List PanetiereWire :=
  if !cfg.consensus || s.misbehavior == some .withhold then (s, [])
  else if k.val = kBatch then s.publishBatch cfg round
  else if kRepair < k.val then s.absorbRelays cfg round (k.val - kRepair)
  else (s, [])

/-! ## The canonical set -/

/-- What `announce_settled` announces for one bucket: the set and the demand. -/
def announceOne (round r : Round) (b : RoundState C) : Option (List ClientId × U32) :=
  if round < r || s.firstRound.any (fun f => decide (r < f)) || s.announcedRounds.contains r ||
      b.inboxItems.isEmpty then none
  else
    let canonical := sortDedup (b.servable.take cfg.clientSetMax.val)
    let demand := max (b.owners.size + b.rejected.size) canonical.length
    if canonical.isEmpty then none else some (canonical, Fin.ofNat _ demand)

/-- The announcements of `announce_settled`, oldest round first. -/
def announcements (round : Round) : List (Round × List ClientId × U32) :=
  s.rounds.entries.filterMap (fun e => (s.announceOne cfg round e.1 e.2).map (fun a => (e.1, a)))

/-- `announce_settled`. -/
def announceSettled (round : Round) : ServerSession C × List PanetiereWire :=
  let announce := s.announcements cfg round
  ({ s with
      clientSetByRound := s.clientSetByRound.insertAll (announce.map (fun a => (a.1, a.2.1)))
      announcedRounds := s.announcedRounds.insertAll (announce.map (fun a => (a.1, ()))) },
    announce.map (fun a => .clientSet a.1 a.2.1 a.2.2))

end ServerSession

namespace ServerConfig
variable (cfg : ServerConfig C)

/-- The set `fix_consensus_sets` finalizes for one bucket, if it is its turn. -/
def fixedRound (round r : Round) (b : RoundState C) : Option (SetRound C.toSetCrate) :=
  if round < r || b.finalized then none
  else b.set.map (fun set => set.finalize cfg.pp (C.pke cfg.identity) (cfg.sid r))

/-- What `fix_consensus_sets` does to one bucket. -/
def fixOne (round r : Round) (b : RoundState C) : RoundState C :=
  match cfg.fixedRound round r b with
  | none => b
  | some fixed =>
      if fixed.set.isEmpty then { b with finalized := true }
      else { b with finalized := true, inboxItems := fixed.inbox, laneItems := fixed.laneInbox }

/-- The set it fixes, when it is not empty. -/
def fixedSet (round r : Round) (b : RoundState C) : Option (List ClientId) :=
  match cfg.fixedRound round r b with
  | none => none
  | some fixed => if fixed.set.isEmpty then none else some fixed.set

/-- The set a share of round `r` is made over: the relay's own, or the round's. -/
def canonical (sets : OrdMap Round (List ClientId)) (r : Round) (b : RoundState C) :
    Option (List ClientId) :=
  if cfg.mode = .selfDerived then some (sortDedup b.servable) else sets.get? r

/-- Whether the bucket holds a member's opening, lane slice and public.  A
self-derived set is made of openings, so the source looks only at the others. -/
def holds (b : RoundState C) (c : ClientId) : Bool :=
  (cfg.mode = .selfDerived || b.inboxItems.any (fun i => i.1 == c)) &&
    b.laneItems.any (fun i => i.1 == c) && b.publics.contains c

/-- `agg_share.first_mut()` with its low bit flipped. -/
def flipFirst : Bytes → Bytes
  | [] => []
  | x :: xs => Fin.ofNat 256 (x.val ^^^ 1) :: xs

/-- The lane half of a share, over the set of `sp`: the lane's sum and its packed
opening. -/
def laneShare (b : RoundState C) (sp : C.ServerEntry) : Option (C.NodeEntry × Bytes) := do
  let roots := sp.clients.filterMap (fun c => (b.publics.get? c).map (fun e => (c, e.shareRoot)))
  let lane ← C.runRsNodeRound cfg.scp cfg.serverId b.laneItems sp.clients roots
  let laneOpen ← C.shareOpeningToBytes cfg.scp lane.aggOpen
  some (lane, laneOpen)

/-- The signed share of round `r`. -/
def shareWire (corrupt : Bool) (r : Round) (sp : C.ServerEntry) (lane : C.NodeEntry)
    (laneOpen : Bytes) : PanetiereWire :=
  let tamper := fun bytes : Bytes => if corrupt then flipFirst bytes else bytes
  let aggOpen := C.packAggOpen sp.clients.length sp.aggOpen
  let aggShare := tamper (C.packAggShare sp.aggShare)
  let shareSum := tamper (C.packShare lane.shareSum)
  .serverPublic r sp.serverId sp.clients aggOpen aggShare shareSum laneOpen
    (C.idSign cfg.identity (serverPublicSigningBytes r sp.serverId sp.clients aggOpen aggShare
      shareSum laneOpen))

/-- What `emit_server_publics` does to one bucket: the share, when the round is
settled and every member of its set is held.  The openings are consumed by the
attempt, and the slices once the key half is made. -/
def emitOne (sets : OrdMap Round (List ClientId)) (corrupt : Bool) (round r : Round)
    (b : RoundState C) : RoundState C × Option PanetiereWire :=
  if round < r || b.emittedMyPublic || b.inboxItems.isEmpty then (b, none)
  else match cfg.canonical sets r b with
    | none => (b, none)
    | some canonical =>
        if canonical.isEmpty || !canonical.all (cfg.holds b) then (b, none)
        else match C.runServerRound cfg.serverId b.inboxItems canonical with
          | none => ({ b with inboxItems := [] }, none)
          | some sp => match cfg.laneShare b sp with
              | none => ({ b with inboxItems := [], laneItems := [] }, none)
              | some (lane, laneOpen) =>
                  ({ b with
                      inboxItems := []
                      laneItems := []
                      peerLaneSums := b.peerLaneSums.insert cfg.serverId (lane, [])
                      peerServerPublics := b.peerServerPublics.insert sp.serverId sp
                      emittedMyPublic := true },
                    some (cfg.shareWire corrupt r sp lane laneOpen))

/-! ## Decoding -/

/-- The retry loop of `recover_rs`, with a bound on its passes: a failed opening
takes at least one server or lane out, so `servers.length + lanes.length + 1` are
enough. -/
def recoverLoop (sid : SessionId) (set : List ClientId) (entries : List (ClientId × C.ClientEntry)) :
    Nat → List C.ServerEntry → List C.NodeEntry → List NodeId → Option (List C.KahePoly) × List NodeId
  | 0, _, _, culprits => (none, culprits)
  | fuel + 1, servers, lanes, culprits =>
      if servers.length < cfg.pp.shamirT || lanes.length < cfg.pp.rs.k then (none, culprits)
      else match C.aggregateAndDecryptRs cfg.pp sid set entries servers lanes with
        | .ok plain => (some plain, culprits)
        | .error (.invalidServerOpening i) | .error (.shareOpeningMismatch i) =>
            recoverLoop sid set entries fuel (servers.eraseIdx i) lanes culprits
        | .error (.laneOpeningFailed ids) =>
            recoverLoop sid set entries fuel servers (lanes.filter (fun l => !ids.contains l.nodeId))
              (culprits ++ ids)
        | .error .rejected => (none, culprits)

/-- `recover_rs`: one decode attempt over `set`, with the lanes found lying. -/
def recoverRs (r : Round) (b : RoundState C) (set : List ClientId) :
    Option (List C.KahePoly) × List NodeId :=
  let servers := b.peerServerPublics.values.filter (fun sp => sp.clients == set)
  let lanes := (b.peerLaneSums.values.map Prod.fst).filter (fun l => l.clients == set)
  let entries := set.filterMap (fun c => (b.publics.get? c).map (fun e => (c, e)))
  if entries.length ≠ set.length then (none, [])
  else cfg.recoverLoop (cfg.sid r) set entries (servers.length + lanes.length + 1) servers lanes []

/-- `candidate_sets`: every distinct set the shares cover, largest first. -/
def candidateSets (outputs : List C.ServerEntry) : List (List ClientId) :=
  ((outputs.map (fun sp => sortDedup sp.clients)).mergeSort
    (fun a b => decide (b.length < a.length) || (a.length == b.length && decide (a ≤ b)))).dedup

/-- The candidate loop of `decode_settled`: the first set that decodes. -/
def tryDecode (r : Round) (b : RoundState C) :
    List (List ClientId) → Option (List C.KahePoly) × List NodeId
  | [] => (none, [])
  | set :: sets =>
      if cfg.clientSetMax.val < set.length then tryDecode r b sets
      else
        let attempt := cfg.recoverRs r b set
        match attempt.1 with
        | some plain => (some plain, attempt.2)
        | none =>
            let rest := tryDecode r b sets
            (rest.1, attempt.2 ++ rest.2)

/-- The decode of one bucket that is not decoded yet. -/
def decodeRound (sets : OrdMap Round (List ClientId)) (r : Round) (b : RoundState C) :
    Option (List C.KahePoly) × List NodeId :=
  let anchor := if cfg.mode = .selfDerived then none else sets.get? r
  match anchor with
  | some set => cfg.tryDecode r b [set]
  | none => cfg.tryDecode r b (candidateSets b.collectOutputs)

/-- A lane that failed its own opening is named from the wire it signed. -/
def laneFaults (b : RoundState C) (culprits : List NodeId) : List Fault :=
  culprits.filterMap (fun id => do
    let (_, evidence) ← b.peerLaneSums.get? id
    let pk ← cfg.serverPubkeys.get? id
    some ⟨.integrity, .peers [pk], evidence⟩)

/-- What `decode_settled` gets from one bucket. -/
def decodeOne (sets : OrdMap Round (List ClientId)) (r : Round) (b : RoundState C) :
    Option (List C.KahePoly) × List Fault :=
  if b.decoded then (none, [])
  else
    let d := cfg.decodeRound sets r b
    (d.1, cfg.laneFaults b d.2)

/-- The bucket after it: a decoded one keeps its mark and frees the rest. -/
def afterDecode (sets : OrdMap Round (List ClientId)) (r : Round) (b : RoundState C) :
    RoundState C :=
  if (cfg.decodeOne sets r b).1.isSome then
    { b with
      decoded := true
      publics := .empty
      inboxItems := []
      laneItems := []
      peerServerPublics := .empty
      peerLaneSums := .empty }
  else b

end ServerConfig

namespace ServerSession
variable (cfg : ServerConfig C) (s : ServerSession C)

/-- The sets `fix_consensus_sets` fixes, oldest round first. -/
def fixedSets (round : Round) : List (Round × List ClientId) :=
  s.rounds.entries.filterMap (fun e => (cfg.fixedSet round e.1 e.2).map (fun set => (e.1, set)))

/-- `fix_consensus_sets`. -/
def fixConsensusSets (round : Round) : ServerSession C :=
  { s with
    rounds := s.rounds.mapVals (cfg.fixOne round)
    clientSetByRound := s.clientSetByRound.insertAll (s.fixedSets cfg round) }

/-- `emit_server_publics`. -/
def emitServerPublics (round : Round) : ServerSession C × List PanetiereWire :=
  if s.misbehavior = some .withhold then (s, [])
  else
    let emit := cfg.emitOne s.clientSetByRound (s.misbehavior = some .corruptShare) round
    ({ s with rounds := s.rounds.mapVals (fun r b => (emit r b).1) },
      s.rounds.entries.filterMap (fun e => (emit e.1 e.2).2))

/-- The rounds `decode_settled` returns, with their plaintexts. -/
def settledRounds : List (Round × List C.KahePoly) :=
  s.rounds.entries.filterMap (fun e =>
    (cfg.decodeOne s.clientSetByRound e.1 e.2).1.map (fun plain => (e.1, plain)))

/-- `decode_settled`. -/
def decodeSettled : ServerSession C × List (Round × List C.KahePoly) × List Fault :=
  ({ s with rounds := s.rounds.mapVals (cfg.afterDecode s.clientSetByRound) },
    s.settledRounds cfg,
    s.rounds.entries.flatMap (fun e => (cfg.decodeOne s.clientSetByRound e.1 e.2).2))

/-- `gc`. -/
def gc (round : Round) : ServerSession C :=
  let cutoff := round.saturatingSub panetiereRoundRetention
  { s with
    rounds := s.rounds.retain (fun r _ => decide (cutoff ≤ r))
    clientSetByRound := s.clientSetByRound.retain (fun r _ => decide (cutoff ≤ r))
    announcedRounds := s.announcedRounds.retain (fun r _ => decide (cutoff ≤ r)) }

/-- The set half of `end_round`: a leader announces, a consensus relay fixes. -/
def settle (round : Round) : ServerSession C × List PanetiereWire :=
  let announced :=
    if cfg.mode = .leader ∧ s.misbehavior ≠ some .withhold then s.announceSettled cfg round
    else (s, [])
  (if cfg.consensus then announced.1.fixConsensusSets cfg round else announced.1, announced.2)

/-- The messages of a decoded plaintext; a cover-only round has none. -/
def peel (plain : List C.KahePoly) : List Bytes :=
  ((C.decodeMessages cfg.mse plain).getD []).filter (fun b => b.any (fun x => x ≠ 0))

/-- The publisher broadcasts each decoded round for the watchers. -/
def publishDecoded (messages : List (Round × List Bytes)) : List PanetiereWire :=
  if cfg.publishes then messages.map (fun d => .decoded d.1 d.2) else []

/-- `RoundOutcome`. -/
structure RoundOutcome where
  outbound : List PanetiereWire
  decoded : List Bytes
  faults : List Fault

/-- `end_round`. -/
def endRound (round : Round) : ServerSession C × RoundOutcome :=
  let settled := s.settle cfg round
  let emitted := settled.1.emitServerPublics cfg round
  let decode := emitted.1.decodeSettled cfg
  let messages := (decode.2.1.map (fun d => (d.1, peel cfg d.2))).filter (fun d => !d.2.isEmpty)
  (decode.1.gc round,
    { outbound := settled.2 ++ emitted.2 ++
        publishDecoded cfg messages
      decoded := messages.flatMap Prod.snd
      faults := decode.2.2 })

/-- `set_misbehavior`. -/
def setMisbehavior (mode : Option Misbehavior) : ServerSession C := { s with misbehavior := mode }

end ServerSession
end Anymone
