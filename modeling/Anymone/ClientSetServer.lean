import Anymone.ClientSetItems

/-! # The client-set server

`SetServer` is one lane's state in a round of client-set selection: the bundles
it took from clients, the receipt batches and fragments it accepted, and the boot
keys it read off signed bulletins.  The operations are the ones of the source, as
functions from a state to the next state and the relays to send out.

The second half of the file says what each operation can do to the parts of the
state the agreement argument is about: which hashes enter `accepted`, which
batches and fragments are stored, and that nothing accepted is ever dropped.
-/

namespace Anymone
variable {C : SetCrate}

/-- `MAX_BUNDLES`: bundles kept per client. -/
def maxBundles : Nat := 4

/-- `SetServer`. -/
structure SetServer (C : SetCrate) where
  serverId : ServerId
  nLanes : Nat
  k : Nat
  signer : C.SigningKey
  serverPks : List C.VerifyingKey
  /-- Client-direct input closes when the relay opens. -/
  relaying : Bool
  /-- Item hashes accepted. -/
  accepted : OrdSet Digest
  /-- This lane's own bundles, keyed by the hash its receipt binds. -/
  held : OrdMap ClientId (OrdMap Digest (Bundle C))
  /-- The matrix: one batch per lane that published one. -/
  batches : OrdMap ServerId (ReceiptBatch C)
  fragments : OrdMap ClientId (OrdMap Nat (Fragment C))
  /-- Boot keys seen in signed bulletins; more than one is a reboot. -/
  bulletins : OrdMap ClientId (OrdSet C.Pk)

namespace SetServer

/-- `SetServer::new`. -/
def new (pp : ProtocolParams) (serverId : ServerId) (signer : C.SigningKey)
    (serverPks : List C.VerifyingKey) : SetServer C where
  serverId := serverId
  nLanes := pp.rs.n
  k := pp.rs.k
  signer := signer
  serverPks := serverPks
  relaying := false
  accepted := .empty
  held := .empty
  batches := .empty
  fragments := .empty
  bulletins := .empty

/-- `SetServer::receive`: take a bundle and record a receipt for it. -/
def receive (s : SetServer C) (sid : SessionId) (b : Bundle C) : SetServer C × Bool :=
  if s.relaying || b.lane != s.serverId.val || !b.verify sid s.nLanes then (s, false)
  else
    let held := (s.held.get? b.clientId).getD .empty
    if maxBundles ≤ held.size && !held.contains b.hash then
      ({ s with held := s.held.orInsert b.clientId .empty }, false)
    else ({ s with held := s.held.insert b.clientId (held.insert b.hash b) }, true)

/-- The receipts of `SetServer::batch`: per client, the bundle with the least
hash. -/
def receipts (s : SetServer C) : List (Receipt C) :=
  s.held.entries.filterMap (fun e =>
    match e.2.entries.head? with
    | none => none
    | some (hash, b) => some ⟨e.1, b.pubkey, hash⟩)

/-- `SetServer::batch`: this lane's record of the round, signed. -/
def batch (s : SetServer C) (sid : SessionId) : ReceiptBatch C :=
  ⟨s.serverId, s.receipts, C.sign s.signer (batchSigningBytes sid s.serverId s.receipts)⟩

/-- `SetServer::reported_key`: the boot key `cid` posted, when it posted exactly
one. -/
def reportedKey (s : SetServer C) (cid : ClientId) : Option C.Pk :=
  match s.bulletins.get? cid with
  | none => none
  | some posted => if posted.size = 1 then posted.keys.head? else none

/-- `SetServer::note_bulletin`. -/
def noteBulletin (s : SetServer C) (cid : ClientId) (pk : C.Pk) : SetServer C :=
  { s with
    bulletins := s.bulletins.insert cid (((s.bulletins.get? cid).getD .empty : OrdSet C.Pk).add pk) }

/-- `SetServer::accept_batch`: one batch per lane, the first one wins. -/
def acceptBatch (s : SetServer C) (sid : SessionId) (b : ReceiptBatch C) : SetServer C × Bool :=
  if b.verify sid s.serverPks then ({ s with batches := s.batches.orInsert b.serverId b }, true)
  else (s, false)

/-- The fragment stored for `cid` at `idx`. -/
def fragment? (s : SetServer C) (cid : ClientId) (idx : Nat) : Option (Fragment C) :=
  (s.fragments.get? cid).bind (fun held => held.get? idx)

/-- The checks `accept_fragments` makes before it stores anything: the index
names a lane and is free, and the signature is by the one key the client
posted. -/
def fragmentOk (s : SetServer C) (sid : SessionId) (f : Fragment C) : Bool :=
  decide (f.idx < s.nLanes) && (s.fragment? f.clientId f.idx).isNone &&
    match (s.reportedKey f.clientId).bind C.fromSec1Bytes with
    | none => false
    | some vk => C.verify vk (fragmentSigningBytes sid f.clientId f.idx f.data) f.sig

/-- One store of the final loop of `accept_fragments`: the fragment takes its
index, and is fresh when the index was free and its hash new. -/
def storeFragment (sid : SessionId) (acc : SetServer C × List (Fragment C)) (f : Fragment C) :
    SetServer C × List (Fragment C) :=
  let s := acc.1
  let hash := (RelayItem.fragment f).hash sid
  let held := (s.fragments.get? f.clientId).getD .empty
  let s' := { s with fragments := s.fragments.insert f.clientId (held.insert f.idx f) }
  if (held.get? f.idx).isNone then
    ({ s' with accepted := s'.accepted.add hash },
      if s.accepted.contains hash then acc.2 else acc.2 ++ [f])
  else (s', acc.2)

/-- `SetServer::accept_fragments`: check all, then store; returns the fresh
ones. -/
def acceptFragments (s : SetServer C) (sid : SessionId) (fragments : List (Fragment C)) :
    SetServer C × List (Fragment C) :=
  (fragments.filter (s.fragmentOk sid)).foldl (storeFragment sid) (s, [])

/-- A relay of one item under this server's own first link. -/
def firstLink (s : SetServer C) (sid : SessionId) (item : RelayItem C) : Relay C :=
  ⟨item, [(s.serverId, C.sign s.signer (relaySigningBytes sid (item.hash sid)))]⟩

/-- `SetServer::submit`: fragments straight from the client. -/
def submit (s : SetServer C) (sid : SessionId) (fragments : List (Fragment C)) :
    SetServer C × List (Relay C) :=
  let r := s.acceptFragments sid fragments
  (r.1, r.2.map (fun f => r.1.firstLink sid (.fragment f)))

/-- Every fragment stored, client by client and index by index. -/
def storedFragments (s : SetServer C) : List (Fragment C) :=
  s.fragments.values.flatMap OrdMap.values

/-- `SetServer::originate`: close the client window and send out the lane's own
batch and every stored fragment. -/
def originate (s : SetServer C) (sid : SessionId) : SetServer C × List (Relay C) :=
  let own := s.batch sid
  let items := RelayItem.batch own :: s.storedFragments.map RelayItem.fragment
  ({ s with
      relaying := true
      batches := s.batches.insert s.serverId own
      accepted := items.foldl (fun acc item => acc.add (item.hash sid)) s.accepted },
    items.map (s.firstLink sid))

/-- One entry of `chain_len`'s loop: a lane counts once, with a valid
signature. -/
def chainStep (s : SetServer C) (msg : Bytes) (seen : List Nat) (link : ServerId × C.Sig) :
    List Nat :=
  match s.serverPks[link.1.val]? with
  | none => seen
  | some vk =>
      if link.1.val ∉ seen ∧ C.verify vk msg link.2 = true then link.1.val :: seen else seen

/-- The lanes `chain_len` counts. -/
def chainSeen (s : SetServer C) (sid : SessionId) (itemHash : Digest)
    (chain : List (ServerId × C.Sig)) : List Nat :=
  chain.foldl (s.chainStep (relaySigningBytes sid itemHash)) []

/-- `SetServer::chain_len`: distinct lanes with a valid chain signature. -/
def chainLen (s : SetServer C) (sid : SessionId) (itemHash : Digest)
    (chain : List (ServerId × C.Sig)) : Nat :=
  (s.chainSeen sid itemHash chain).length

/-- The relay `absorb` sends on: own links dropped, a fresh own link appended. -/
def extend (s : SetServer C) (sid : SessionId) (r : Relay C) : Relay C :=
  ⟨r.item, r.chain.filter (fun link => link.1 ≠ s.serverId) ++
    [(s.serverId, C.sign s.signer (relaySigningBytes sid (r.item.hash sid)))]⟩

/-- What `absorb` does with one item that is new and carries enough links. -/
def acceptItem (s : SetServer C) (sid : SessionId) (item : RelayItem C) : SetServer C :=
  match item with
  | .batch b =>
      let r := s.acceptBatch sid b
      if r.2 then { r.1 with accepted := r.1.accepted.add (item.hash sid) } else r.1
  | .fragment f => (s.acceptFragments sid [f]).1

/-- One relay of `absorb`'s loop. -/
def absorbOne (sid : SessionId) (round : Nat) (acc : SetServer C × List (Relay C)) (r : Relay C) :
    SetServer C × List (Relay C) :=
  let hash := r.item.hash sid
  if acc.1.accepted.contains hash || decide (acc.1.chainLen sid hash r.chain < round) then acc
  else
    let s := acc.1.acceptItem sid r.item
    (s, if s.accepted.contains hash then acc.2 ++ [s.extend sid r] else acc.2)

/-- `SetServer::absorb`: one Dolev–Strong round, batches ahead of fragments. -/
def absorb (s : SetServer C) (sid : SessionId) (round : Nat) (incoming : List (Relay C)) :
    SetServer C × List (Relay C) :=
  (incoming.filter (fun r => r.item.isBatch) ++ incoming.filter (fun r => !r.item.isBatch)).foldl
    (absorbOne sid round) (s, [])

/-! ## Frames: what an operation leaves alone -/

section Frames
variable (s : SetServer C) (sid : SessionId)

theorem storeFragment_frame (acc : SetServer C × List (Fragment C)) (f : Fragment C) :
    (storeFragment sid acc f).1 =
      { acc.1 with
        fragments := (storeFragment sid acc f).1.fragments
        accepted := (storeFragment sid acc f).1.accepted } := by
  unfold storeFragment
  dsimp only
  split <;> rfl

theorem foldl_storeFragment_frame (fs : List (Fragment C))
    (acc : SetServer C × List (Fragment C)) :
    (fs.foldl (storeFragment sid) acc).1 =
      { acc.1 with
        fragments := (fs.foldl (storeFragment sid) acc).1.fragments
        accepted := (fs.foldl (storeFragment sid) acc).1.accepted } := by
  induction fs generalizing acc with
  | nil => rfl
  | cons f fs ih =>
    rw [List.foldl_cons, ih]
    dsimp only
    rw [storeFragment_frame]

theorem acceptFragments_frame (fs : List (Fragment C)) :
    (s.acceptFragments sid fs).1 =
      { s with
        fragments := (s.acceptFragments sid fs).1.fragments
        accepted := (s.acceptFragments sid fs).1.accepted } :=
  foldl_storeFragment_frame sid _ (s, [])

theorem acceptItem_frame (item : RelayItem C) :
    s.acceptItem sid item =
      { s with
        batches := (s.acceptItem sid item).batches
        fragments := (s.acceptItem sid item).fragments
        accepted := (s.acceptItem sid item).accepted } := by
  cases item with
  | batch b =>
    unfold acceptItem acceptBatch
    dsimp only
    split <;> rfl
  | fragment f =>
    have hb : (s.acceptItem sid (.fragment f)).batches = s.batches := by
      show (s.acceptFragments sid [f]).1.batches = s.batches
      rw [acceptFragments_frame]
    rw [hb]
    exact acceptFragments_frame s sid [f]

theorem absorbOne_frame (round : Nat) (acc : SetServer C × List (Relay C)) (r : Relay C) :
    (absorbOne sid round acc r).1 =
      { acc.1 with
        batches := (absorbOne sid round acc r).1.batches
        fragments := (absorbOne sid round acc r).1.fragments
        accepted := (absorbOne sid round acc r).1.accepted } := by
  unfold absorbOne
  dsimp only
  split
  · rfl
  · exact acceptItem_frame acc.1 sid r.item

theorem foldl_absorbOne_frame (round : Nat) (rs : List (Relay C))
    (acc : SetServer C × List (Relay C)) :
    (rs.foldl (absorbOne sid round) acc).1 =
      { acc.1 with
        batches := (rs.foldl (absorbOne sid round) acc).1.batches
        fragments := (rs.foldl (absorbOne sid round) acc).1.fragments
        accepted := (rs.foldl (absorbOne sid round) acc).1.accepted } := by
  induction rs generalizing acc with
  | nil => rfl
  | cons r rs ih =>
    rw [List.foldl_cons, ih]
    dsimp only
    rw [absorbOne_frame]

theorem absorb_frame (round : Nat) (incoming : List (Relay C)) :
    (s.absorb sid round incoming).1 =
      { s with
        batches := (s.absorb sid round incoming).1.batches
        fragments := (s.absorb sid round incoming).1.fragments
        accepted := (s.absorb sid round incoming).1.accepted } :=
  foldl_absorbOne_frame sid round _ (s, [])

theorem originate_frame :
    (s.originate sid).1 =
      { s with
        relaying := true
        batches := (s.originate sid).1.batches
        accepted := (s.originate sid).1.accepted } := rfl

theorem receive_frame (b : Bundle C) :
    (s.receive sid b).1 = { s with held := (s.receive sid b).1.held } := by
  unfold receive
  dsimp only
  split
  · rfl
  · split <;> rfl

end Frames

/-- What `receive` does to the bundles: nothing, an empty place for the client, or
the bundle under its hash. -/
theorem held_receive (s : SetServer C) (sid : SessionId) (b : Bundle C) :
    ((s.receive sid b).2 = false ∧ (s.receive sid b).1.held = s.held) ∨
    ((s.receive sid b).2 = false ∧
      (s.receive sid b).1.held = s.held.orInsert b.clientId .empty) ∨
    ((s.receive sid b).2 = true ∧ (s.receive sid b).1.held =
      s.held.insert b.clientId (((s.held.get? b.clientId).getD .empty).insert b.hash b)) := by
  unfold receive
  dsimp only
  split_ifs
  · exact Or.inl ⟨rfl, rfl⟩
  · exact Or.inr (Or.inl ⟨rfl, rfl⟩)
  · exact Or.inr (Or.inr ⟨rfl, rfl⟩)

end SetServer
end Anymone
