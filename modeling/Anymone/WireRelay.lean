import Anymone.PanetiereBucket
import Anymone.ScheduledServer
import Anymone.WireLength

/-! # What a relay sends while a set is formed

A relay's batch is as long as the clients it holds bundles of are many, and what it relays is as
long as what it was brought: a fragment its client cut, a batch another lane signed, and the
links the item has gathered.  `WireRoom` counts what fits a given size, `Roomy` says that a call
brings no more than that, and what the session then sends fits (`within_apply`).
-/

namespace Anymone

/-- What messages of a size can hold: the receipts of a batch, the polynomials of a relayed
fragment and of one a client sends, and the links of a chain. -/
structure WireRoom where
  receipts : Nat
  relayed : Nat
  repair : Nat
  links : Nat

/-- The room messages of at most `size` bytes leave in a subnet of `n` lanes, where a relayed
item may gather a link of every lane. -/
def wireRoom (C : SetCrate) (size n : Nat) : WireRoom where
  receipts := (size - (37 + C.sigLen + n * (4 + C.sigLen))) / Receipt.packedLen C
  relayed := (size - (41 + C.sigLen + n * (4 + C.sigLen))) / C.rsPolyPackedLen
  repair := (size - (144 + C.sigLen)) / C.rsPolyPackedLen
  links := n

/-- As many as the room is divided into, beside what is there anyway. -/
theorem add_mul_le_of_le_div {k size used w : Nat} (h : k ≤ (size - used) / w)
    (hused : used ≤ size) : used + k * w ≤ size := by
  have hmul : k * w ≤ size - used :=
    (Nat.mul_le_mul_right w h).trans (Nat.div_mul_le_self _ _)
  omega

/-- The packed length of a share is a polynomial's times their number. -/
def SetCrate.SharesExact (C : SetCrate) : Prop :=
  ∀ share : C.Share, (C.packShare share).length = share.length * C.rsPolyPackedLen

section Item
variable {C : SetCrate} {room : WireRoom} {size n : Nat}

/-- The item is within the room. -/
def RelayItem.Within (room : WireRoom) : RelayItem C → Prop
  | .batch b => b.receipts.length ≤ room.receipts
  | .fragment f => f.data.length ≤ room.relayed

/-- **A relayed item within the room fits**, under a chain of at most a link a lane. -/
theorem length_setRelay_le (hshares : C.SharesExact)
    (hsize : 41 + C.sigLen + n * (4 + C.sigLen) ≤ size) {r : Relay C}
    (hitem : r.item.Within (wireRoom C size n)) (hchain : r.chain.length ≤ n) (round : Round) :
    (PanetiereWire.setRelay round r.pack).serialize.length ≤ size := by
  have hlinks : r.chain.length * (4 + C.sigLen) ≤ n * (4 + C.sigLen) :=
    Nat.mul_le_mul_right _ hchain
  rw [PanetiereWire.length_setRelay, Relay.length_pack]
  cases hr : r.item with
  | batch b =>
    rw [hr] at hitem
    have hfits := add_mul_le_of_le_div (w := Receipt.packedLen C) hitem (by omega)
    unfold RelayItem.packedLen
    dsimp only
    rw [ReceiptBatch.length_pack]
    omega
  | fragment f =>
    rw [hr] at hitem
    have hfits := add_mul_le_of_le_div (w := C.rsPolyPackedLen) hitem (by omega)
    unfold RelayItem.packedLen
    dsimp only
    rw [Fragment.length_pack, hshares]
    omega

/-- A batch within the room fits. -/
theorem length_setBatch_le (hsize : 41 + C.sigLen + n * (4 + C.sigLen) ≤ size)
    {b : ReceiptBatch C} (hitem : (RelayItem.batch b).Within (wireRoom C size n)) (round : Round) :
    (PanetiereWire.setBatch round b.pack).serialize.length ≤ size := by
  have hfits := add_mul_le_of_le_div (w := Receipt.packedLen C) hitem (by omega)
  rw [PanetiereWire.length_setBatch, ReceiptBatch.length_pack]
  omega

end Item

/-! ## The client-set server -/

namespace SetServer
variable {C : SetCrate} {room : WireRoom} {s : SetServer C} {sid : SessionId}

/-- Every fragment stored is within the room. -/
def Within (room : WireRoom) (s : SetServer C) : Prop :=
  ∀ cid idx f, s.fragment? cid idx = some f → f.data.length ≤ room.relayed

/-- `absorb` may take the relay: its item is not accepted yet and signed, and its chain long
enough. -/
def Eligible (s : SetServer C) (sid : SessionId) (round : Nat) (r : Relay C) : Prop :=
  s.accepted.contains (r.item.hash sid) = false ∧
    round ≤ s.chainLen sid (r.item.hash sid) r.chain ∧ s.Signed sid r.item

/-- The links of the other lanes. -/
def others (s : SetServer C) (r : Relay C) : List (ServerId × C.Sig) :=
  r.chain.filter (fun link => link.1 ≠ s.serverId)

theorem within_new (pp : ProtocolParams) (i : ServerId) (signer : C.SigningKey)
    (pks : List C.VerifyingKey) : (SetServer.new pp i signer pks).Within room := by
  intro cid idx f hf
  simp [SetServer.new, fragment?] at hf

theorem Within.congr {s' : SetServer C} (h : s.Within room) (hfr : s'.fragments = s.fragments) :
    s'.Within room := by
  intro cid idx f hf
  unfold fragment? at hf
  rw [hfr] at hf
  exact h cid idx f hf

theorem Within.foldl_storeFragment {fs : List (Fragment C)}
    (hfs : ∀ f ∈ fs, f.data.length ≤ room.relayed) :
    ∀ {acc : SetServer C × List (Fragment C)}, acc.1.Within room →
      (fs.foldl (storeFragment sid) acc).1.Within room := by
  induction fs with
  | nil => exact fun h => h
  | cons f fs ih =>
    intro acc h
    refine ih (fun g hg => hfs g (List.mem_cons_of_mem _ hg)) (fun cid idx g hg => ?_)
    rw [fragment?_storeFragment] at hg
    split_ifs at hg
    · cases hg
      exact hfs f List.mem_cons_self
    · exact h cid idx g hg

/-- Accepting fragments keeps the store within the room when those that are signed are. -/
theorem Within.acceptFragments (h : s.Within room) {fs : List (Fragment C)}
    (hfs : ∀ f ∈ fs, s.SignedByPosted sid f → f.data.length ≤ room.relayed) :
    (s.acceptFragments sid fs).1.Within room := by
  refine Within.foldl_storeFragment (fun f hf => ?_) h
  obtain ⟨hmem, hok⟩ := List.mem_filter.mp hf
  exact hfs f hmem (signedByPosted_of_fragmentOk hok)

theorem Within.acceptItem (h : s.Within room) {x : RelayItem C}
    (hx : s.Signed sid x → x.Within room) : (s.acceptItem sid x).Within room := by
  cases x with
  | batch b =>
    rw [acceptItem_batch]
    split_ifs
    · exact h.congr rfl
    · exact h
  | fragment f =>
    refine h.acceptFragments (fun g hg hsigned => ?_)
    obtain rfl := List.mem_singleton.mp hg
    exact hx hsigned

/-- A relay that may be taken after another one could be taken before it. -/
theorem Eligible.of_absorbOne {round : Nat} {acc : SetServer C × List (Relay C)} {q r : Relay C}
    (h : (absorbOne sid round acc q).1.Eligible sid round r) : acc.1.Eligible sid round r := by
  obtain ⟨hnew, hlen, hsigned⟩ := h
  refine ⟨?_, ?_, ?_⟩
  · by_contra hc
    rw [Bool.not_eq_false] at hc
    rw [(le_absorbOne round acc q).accepted _ hc] at hnew
    cases hnew
  · unfold chainLen at hlen ⊢
    rwa [chainSeen_congr (by rw [absorbOne_frame]) (s := acc.1)] at hlen
  · exact (signed_congr (by rw [absorbOne_frame]) (by rw [absorbOne_frame])
      (by rw [absorbOne_frame]) r.item).mp hsigned

theorem Within.foldl_absorbOne {round : Nat} {rs : List (Relay C)} :
    ∀ {acc : SetServer C × List (Relay C)}, acc.1.Within room →
      (∀ r ∈ rs, acc.1.Eligible sid round r → r.item.Within room) →
      (rs.foldl (absorbOne sid round) acc).1.Within room := by
  induction rs with
  | nil => exact fun h _ => h
  | cons q rs ih =>
    intro acc h hrs
    refine ih ?_ (fun r hr he => hrs r (List.mem_cons_of_mem _ hr) he.of_absorbOne)
    rcases absorbOne_cases sid round acc q with ⟨-, heq⟩ | ⟨hnew, hlen, heq⟩
    · rw [heq]
      exact h
    · rw [heq]
      exact h.acceptItem (fun hsigned => hrs q List.mem_cons_self ⟨hnew, hlen, hsigned⟩)

/-- **`absorb` keeps the store within the room** when the relays it may take are. -/
theorem Within.absorb (h : s.Within room) {round : Nat} {incoming : List (Relay C)}
    (hin : ∀ r ∈ incoming, s.Eligible sid round r → r.item.Within room) :
    (s.absorb sid round incoming).1.Within room :=
  Within.foldl_absorbOne h (fun r hr => hin r (mem_absorb_order.mp hr))

/-- What `absorb` sends on is a relay it may take, under the links of the other lanes and its
own. -/
theorem mem_absorb {round : Nat} {incoming : List (Relay C)} {rel : Relay C}
    (h : rel ∈ (s.absorb sid round incoming).2) : ∃ r ∈ incoming, s.Eligible sid round r ∧
      rel.item = r.item ∧ rel.chain.length = (s.others r).length + 1 := by
  rcases mem_foldl_absorbOne h with h | ⟨r, hr, rfl, hnew, hlen, hsigned, -⟩
  · cases h
  · exact ⟨r, mem_absorb_order.mp hr, ⟨hnew, hlen, hsigned⟩, rfl, List.length_append⟩

/-- What `originate` sends is the lane's batch or a fragment it stores, under its own link. -/
theorem mem_originate {rel : Relay C} (h : rel ∈ (s.originate sid).2) :
    (rel.item = .batch (s.batch sid) ∨ ∃ cid idx f, s.fragment? cid idx = some f ∧
      rel.item = .fragment f) ∧ rel.chain.length = 1 := by
  obtain ⟨x, hx, rfl⟩ := List.mem_map.mp h
  refine ⟨?_, rfl⟩
  rcases List.mem_cons.mp hx with rfl | hx
  · exact Or.inl rfl
  · obtain ⟨f, hf, rfl⟩ := List.mem_map.mp hx
    obtain ⟨cid, idx, hf⟩ := mem_storedFragments.mp hf
    exact Or.inr ⟨cid, idx, f, hf, rfl⟩

/-- Bulletins do not change the row, nor what is stored. -/
theorem foldl_noteBulletin (posted : List (ClientId × C.Pk)) (s : SetServer C) :
    (posted.foldl (fun set p => set.noteBulletin p.1 p.2) s).held = s.held ∧
      (posted.foldl (fun set p => set.noteBulletin p.1 p.2) s).fragments = s.fragments := by
  induction posted generalizing s with
  | nil => exact ⟨rfl, rfl⟩
  | cons p posted ih => exact ih (s.noteBulletin p.1 p.2)

end SetServer

/-! ## The session -/

/-- The messages that form a set fit. -/
def FitWire (size : Nat) (ws : List PanetiereWire) : Prop :=
  ∀ w ∈ ws, w.formsSet = true → w.serialize.length ≤ size

theorem FitWire.nil {size : Nat} : FitWire size [] := fun _ hw => absurd hw List.not_mem_nil

theorem FitWire.append {size : Nat} {ws ws' : List PanetiereWire} (h : FitWire size ws)
    (h' : FitWire size ws') : FitWire size (ws ++ ws') := by
  intro w hw
  rcases List.mem_append.mp hw with hw | hw
  · exact h w hw
  · exact h' w hw

/-- Messages of another kind are not counted. -/
theorem FitWire.of_others {size : Nat} {ws : List PanetiereWire}
    (h : ∀ w ∈ ws, w.formsSet = false) : FitWire size ws := by
  intro w hw hforms
  rw [h w hw] at hforms
  cases hforms

section Session
variable {C : SessionCrate} {cfg : ServerConfig C} {room : WireRoom} {size n : Nat}

/-- What the bucket stores is within the room. -/
def RoundState.Within (room : WireRoom) (b : RoundState C) : Prop :=
  ∀ set, b.set = some set → set.Within room

theorem RoundState.set_claim (b : RoundState C) (cid : ClientId) (signer : Pubkey) (max : U64) :
    (b.claim cid signer max).1.set = b.set := by
  unfold RoundState.claim
  split <;> rfl

/-- A client's message brings what it stores, to a bucket with the same set. -/
theorem within_claimed {b : RoundState C} {cid : ClientId} {signer : Pubkey} {max : U64}
    {store : RoundState C → RoundState C × List PanetiereWire} (hb : b.Within room)
    (hstore : ∀ b', b'.set = b.set → (store b').1.Within room ∧ FitWire size (store b').2) :
    (b.claimed cid signer max store).1.Within room ∧
      FitWire size (b.claimed cid signer max store).2 := by
  have hset := b.set_claim cid signer max
  rcases b.claimed_cases cid signer max store with he | he
  · rw [he]
    exact ⟨fun set h => hb set (hset ▸ h), .nil⟩
  · rw [he]
    exact hstore _ hset

/-- The set a message finds in its bucket is the bucket's, or a new one. -/
theorem setServer_cases (cfg : ServerConfig C) (b : RoundState C) (signerKey : C.SigningKey)
    (pks : List C.VerifyingKey) : b.set = some (cfg.setServer signerKey pks b) ∨
      (b.set = none ∧ cfg.setServer signerKey pks b = .new cfg.pp cfg.serverId signerKey pks) := by
  unfold ServerConfig.setServer
  cases b.set with
  | none => exact Or.inr ⟨rfl, rfl⟩
  | some set => exact Or.inl rfl

theorem within_setServer (cfg : ServerConfig C) {b : RoundState C} (hb : b.Within room)
    (signerKey : C.SigningKey) (pks : List C.VerifyingKey) :
    (cfg.setServer signerKey pks b).Within room := by
  rcases setServer_cases cfg b signerKey pks with hset | ⟨-, hnew⟩
  · exact hb _ hset
  · rw [hnew]
    exact SetServer.within_new cfg.pp cfg.serverId signerKey pks

/-- A fragment that a client submits is relayed under the lane's own link. -/
theorem fitWire_submit (hshares : C.SharesExact)
    (hsize : 41 + C.sigLen + n * (4 + C.sigLen) ≤ size) (hn : 1 ≤ n)
    {set : SetServer C.toSetCrate} {sid : SessionId} {f : Fragment C.toSetCrate}
    (hf : set.SignedByPosted sid f → f.data.length ≤ (wireRoom C.toSetCrate size n).relayed)
    (round : Round) : FitWire size (relayWire (C := C) round (set.submit sid [f]).2) := by
  intro w hw _
  obtain ⟨rel, hrel, rfl⟩ := List.mem_map.mp hw
  obtain ⟨g, hg, hok, rfl, -⟩ := SetServer.mem_submit hrel
  obtain rfl := List.mem_singleton.mp hg
  have hitem : (set.firstLink sid (.fragment g)).item.Within (wireRoom C.toSetCrate size n) :=
    hf (SetServer.signedByPosted_of_fragmentOk hok)
  exact length_setRelay_le hshares hsize hitem hn round

/-- **What a message does to its bucket.**  One case per message of the wire. -/
theorem within_file (hshares : C.SharesExact)
    (hsize : 41 + C.sigLen + n * (4 + C.sigLen) ≤ size) (hn : 1 ≤ n) {sender : PeerId}
    {payload : Bytes} {msg : PanetiereWire}
    {f : RoundState C → RoundState C × List PanetiereWire}
    (hf : cfg.file sender payload msg = some f) {b : RoundState C}
    (hb : b.Within (wireRoom C.toSetCrate size n))
    (hroomy : ∀ round cid target data signer signature fragment set,
      msg = .setFragment round cid target data signer signature →
      Fragment.unpack (C := C.toSetCrate) data = some fragment → b.set = some set →
      set.SignedByPosted (cfg.sid round) fragment →
      fragment.data.length ≤ (wireRoom C.toSetCrate size n).relayed) :
    (f b).1.Within (wireRoom C.toSetCrate size n) ∧ FitWire size (f b).2 := by
  have same : ∀ {b' : RoundState C}, b'.set = b.set → b'.Within (wireRoom C.toSetCrate size n) :=
    fun h set hset => hb set (h ▸ hset)
  cases msg with
  | clientPublic round cid entry signer signature =>
    simp only [ServerConfig.file] at hf
    split at hf
    · cases hf
      refine within_claimed hb (fun b' hset => ⟨?_, .nil⟩)
      intro set h
      unfold ServerConfig.filePublic at h
      split at h
      · exact same hset set h
      · split at h
        · obtain ⟨set₀, hset₀, rfl⟩ := Option.map_eq_some_iff.mp h
          exact (same hset set₀ hset₀).congr rfl
        · exact same hset set h
    · cases hf
  | opening round cid target sealed signer signature =>
    simp only [ServerConfig.file] at hf
    split at hf
    · cases hf
      refine within_claimed hb (fun b' hset => ⟨same ?_, .nil⟩)
      rw [← hset]
      unfold ServerConfig.fileOpening
      split
      · rfl
      · split <;> rfl
    · cases hf
  | clientSlice round cid lane share path signer signature =>
    simp only [ServerConfig.file] at hf
    split at hf
    · cases hf
      refine within_claimed hb (fun b' hset => ⟨same ?_, .nil⟩)
      rw [← hset]
      unfold ServerConfig.fileSlice
      split
      · rfl
      · split <;> rfl
    · cases hf
  | serverPublic round sid clients aggOpen aggShare shareSum laneOpen signature =>
    obtain ⟨expected, -, hf⟩ := Option.bind_eq_some_iff.mp hf
    split at hf
    · obtain ⟨entries, -, hf⟩ := Option.bind_eq_some_iff.mp hf
      cases hf
      exact ⟨same rfl, .nil⟩
    · cases hf
  | bundle round cid lane data signer signature =>
    obtain ⟨⟨signerKey, pks⟩, -, hf⟩ := Option.bind_eq_some_iff.mp hf
    dsimp only at hf
    split at hf
    · obtain ⟨⟨unpacked, used⟩, -, hf⟩ := Option.bind_eq_some_iff.mp hf
      dsimp only at hf
      split at hf
      · cases hf
        refine within_claimed hb (fun b' hset => ⟨fun set h => ?_, .nil⟩)
        cases h
        refine (within_setServer cfg (same hset) signerKey pks).congr ?_
        rw [SetServer.receive_frame]
      · cases hf
    · cases hf
  | setFragment round cid target data signer signature =>
    obtain ⟨⟨signerKey, pks⟩, -, hf⟩ := Option.bind_eq_some_iff.mp hf
    dsimp only at hf
    split at hf
    · obtain ⟨fragment, hfragment, hf⟩ := Option.bind_eq_some_iff.mp hf
      split at hf
      · cases hf
        refine within_claimed hb (fun b' hset => ?_)
        -- A new set has read no bulletin, so it takes no fragment.
        have hsigned : (cfg.setServer signerKey pks b').SignedByPosted (cfg.sid round) fragment →
            fragment.data.length ≤ (wireRoom C.toSetCrate size n).relayed := by
          intro h
          rcases setServer_cases cfg b' signerKey pks with hcur | ⟨-, hnew⟩
          · exact hroomy round cid target data signer signature fragment _ rfl hfragment
              (hset ▸ hcur) h
          · rw [hnew] at h
            obtain ⟨-, pk, vk, ⟨posted, hposted, -⟩, -⟩ := h
            cases hposted
        refine ⟨fun set h => ?_, fitWire_submit hshares hsize hn hsigned round⟩
        cases h
        refine (within_setServer cfg (same hset) signerKey pks).acceptFragments (fun g hg => ?_)
        obtain rfl := List.mem_singleton.mp hg
        exact hsigned
      · cases hf
    · cases hf
  | setRelay round data =>
    simp only [ServerConfig.file] at hf
    split at hf
    · obtain ⟨relay, -, rfl⟩ := Option.map_eq_some_iff.mp hf
      refine ⟨same ?_, .nil⟩
      dsimp only
      unfold ServerConfig.fileRelay
      split <;> rfl
    · cases hf
  | setBatch => cases hf
  | decoded => cases hf
  | reservations => cases hf
  | clientSet => cases hf

namespace ServerSession
variable {s s' : ServerSession C}

/-- What every bucket stores is within the room. -/
def Within (room : WireRoom) (s : ServerSession C) : Prop :=
  ∀ r b, s.rounds.get? r = some b → b.Within room

/-- A call brings no more than the room: a client's fragment, when it is signed; the clients the
lane holds bundles of, when it publishes its batch; and the relays that it may take, each with
the links of the other lanes. -/
def Roomy (room : WireRoom) (cfg : ServerConfig C) (s : ServerSession C) : SessionOp → Prop
  | .inbound _ payload =>
      ∀ round cid target data signer signature fragment b set,
        PanetiereWire.deserialize payload =
          some (.setFragment round cid target data signer signature) →
        Fragment.unpack (C := C.toSetCrate) data = some fragment →
        s.rounds.get? round = some b → b.set = some set →
        set.SignedByPosted (cfg.sid round) fragment → fragment.data.length ≤ room.relayed
  | .checkpoint round k =>
      ∀ b set, s.rounds.get? round = some b → b.set = some set →
        (k.val = kBatch → set.receipts.length ≤ room.receipts) ∧
        (kRepair < k.val → ∀ r ∈ b.relayBuf,
          set.Eligible (cfg.sid round) (k.val - kRepair) r →
            r.item.Within room ∧ (set.others r).length < room.links)
  | _ => True

theorem within_new : (new : ServerSession C).Within room := by
  intro r b hb
  cases hb

theorem Within.getD (h : s.Within room) (r : Round) :
    ((s.rounds.get? r).getD .default).Within room := by
  cases hb : s.rounds.get? r with
  | none =>
    intro set hset
    cases hset
  | some b => exact h r b hb

theorem Within.insert (h : s.Within room) {r : Round} {b : RoundState C} (hb : b.Within room) :
    { s with rounds := s.rounds.insert r b }.Within room := by
  intro r' b' hb'
  rw [OrdMap.get?_insert] at hb'
  split at hb'
  · cases hb'
    exact hb
  · exact h r' b' hb'

theorem within_onInbound (hshares : C.SharesExact)
    (hsize : 41 + C.sigLen + n * (4 + C.sigLen) ≤ size) (hn : 1 ≤ n) {sender : PeerId}
    {payload : Bytes} (h : s.Within (wireRoom C.toSetCrate size n))
    (hroomy : s.Roomy (wireRoom C.toSetCrate size n) cfg (.inbound sender payload)) :
    (s.onInbound cfg sender payload).1.Within (wireRoom C.toSetCrate size n) ∧
      FitWire size (s.onInbound cfg sender payload).2 := by
  rcases s.onInbound_cases cfg sender payload with he | ⟨round, clients, _, -, -, he⟩ |
    ⟨msg, f, hmsg, -, hf, he⟩
  · rw [he]
    exact ⟨h, .nil⟩
  · rw [he]
    refine ⟨fun r b hb => h r b ?_, .nil⟩
    rwa [(s.adopt_rounds cfg sender round clients).1] at hb
  · rw [he]
    have hfile := within_file hshares hsize hn hf (h.getD msg.round) (by
      rintro round cid target data signer signature fragment set rfl hfragment hset hsigned
      cases hb : s.rounds.get? round with
      | none =>
        rw [show (PanetiereWire.setFragment round cid target data signer signature).round = round
          from rfl, hb] at hset
        cases hset
      | some b =>
        rw [show (PanetiereWire.setFragment round cid target data signer signature).round = round
          from rfl, hb] at hset
        exact hroomy round cid target data signer signature fragment b set hmsg hfragment hb hset
          hsigned)
    exact ⟨h.insert hfile.1, hfile.2⟩

/-- **The batch and what is relayed with it.** -/
theorem within_publishBatch (hshares : C.SharesExact)
    (hsize : 41 + C.sigLen + n * (4 + C.sigLen) ≤ size) (hn : 1 ≤ n) {round : Round}
    (h : s.Within (wireRoom C.toSetCrate size n))
    (hroomy : ∀ b set, s.rounds.get? round = some b → b.set = some set →
      set.receipts.length ≤ (wireRoom C.toSetCrate size n).receipts) :
    (s.publishBatch cfg round).1.Within (wireRoom C.toSetCrate size n) ∧
      FitWire size (s.publishBatch cfg round).2 := by
  unfold publishBatch
  split
  · exact ⟨h, .nil⟩
  · rename_i b hb
    dsimp only
    split
    · rename_i hset
      exact ⟨h.insert (fun set hset' => by rw [hset] at hset'; cases hset'), .nil⟩
    · rename_i set hset
      dsimp only
      obtain ⟨hheld, hstored⟩ := SetServer.foldl_noteBulletin b.pendingBulletins set
      generalize b.pendingBulletins.foldl (fun set p => set.noteBulletin p.1 p.2) set = noted
        at hheld hstored
      have hnoted : noted.Within (wireRoom C.toSetCrate size n) :=
        (h round b hb set hset).congr hstored
      have hbatch : (RelayItem.batch (noted.batch (cfg.sid round))).Within
          (wireRoom C.toSetCrate size n) := by
        have hrow : noted.receipts = set.receipts := by
          unfold SetServer.receipts
          rw [hheld]
        show noted.receipts.length ≤ _
        rw [hrow]
        exact hroomy b set hb hset
      refine ⟨h.insert (fun set' hset' => ?_), fun w hw hforms => ?_⟩
      · cases hset'
        exact hnoted.congr rfl
      · rcases List.mem_cons.mp hw with rfl | hw
        · exact length_setBatch_le hsize hbatch round
        · obtain ⟨rel, hrel, rfl⟩ := List.mem_map.mp hw
          obtain ⟨hitem, hlink⟩ := SetServer.mem_originate hrel
          refine length_setRelay_le hshares hsize ?_ (hlink ▸ hn) round
          rcases hitem with hitem | ⟨cid, idx, f, hf, hitem⟩
          · rw [hitem]
            exact hbatch
          · rw [hitem]
            exact hnoted cid idx f hf

/-- **What a lane relays on.** -/
theorem within_absorbRelays (hshares : C.SharesExact)
    (hsize : 41 + C.sigLen + n * (4 + C.sigLen) ≤ size) {round : Round} {dsRound : Nat}
    (h : s.Within (wireRoom C.toSetCrate size n))
    (hroomy : ∀ b set, s.rounds.get? round = some b → b.set = some set → ∀ r ∈ b.relayBuf,
      set.Eligible (cfg.sid round) dsRound r →
        r.item.Within (wireRoom C.toSetCrate size n) ∧ (set.others r).length < n) :
    (s.absorbRelays cfg round dsRound).1.Within (wireRoom C.toSetCrate size n) ∧
      FitWire size (s.absorbRelays cfg round dsRound).2 := by
  unfold absorbRelays
  split
  · exact ⟨h, .nil⟩
  · rename_i b hb
    dsimp only
    split
    · rename_i hset
      exact ⟨h.insert (fun set hset' => by rw [hset] at hset'; cases hset'), .nil⟩
    · rename_i set hset
      refine ⟨h.insert (fun set' hset' => ?_), fun w hw hforms => ?_⟩
      · cases hset'
        exact (h round b hb set hset).absorb (fun r hr he => (hroomy b set hb hset r hr he).1)
      · obtain ⟨rel, hrel, rfl⟩ := List.mem_map.mp hw
        obtain ⟨r, hr, he, hitem, hlinks⟩ := SetServer.mem_absorb hrel
        obtain ⟨hwithin, hothers⟩ := hroomy b set hb hset r hr he
        exact length_setRelay_le hshares hsize (hitem ▸ hwithin) (by omega) round

theorem within_checkpoint (hshares : C.SharesExact)
    (hsize : 41 + C.sigLen + n * (4 + C.sigLen) ≤ size) (hn : 1 ≤ n) {round : Round} {k : U8}
    (h : s.Within (wireRoom C.toSetCrate size n))
    (hroomy : s.Roomy (wireRoom C.toSetCrate size n) cfg (.checkpoint round k)) :
    (s.checkpoint cfg round k).1.Within (wireRoom C.toSetCrate size n) ∧
      FitWire size (s.checkpoint cfg round k).2 := by
  unfold checkpoint
  split_ifs with hquiet hbatch hrepair
  · exact ⟨h, .nil⟩
  · exact within_publishBatch hshares hsize hn h
      (fun b set hb hset => (hroomy b set hb hset).1 hbatch)
  · exact within_absorbRelays hshares hsize h
      (fun b set hb hset => (hroomy b set hb hset).2 hrepair)
  · exact ⟨h, .nil⟩

/-! ### The end of a round -/

/-- The buckets of `s'` are some of the buckets of `s`, with the same sets. -/
def SameSets (s s' : ServerSession C) : Prop :=
  ∀ r b', s'.rounds.get? r = some b' → ∃ b, s.rounds.get? r = some b ∧ b'.set = b.set

theorem Within.sameSets (h : s.Within room) (hsame : s.SameSets s') : s'.Within room := by
  intro r b' hb' set hset
  obtain ⟨b, hb, heq⟩ := hsame r b' hb'
  exact h r b hb set (heq ▸ hset)

theorem SameSets.refl (s : ServerSession C) : s.SameSets s := fun _ b hb => ⟨b, hb, rfl⟩

theorem SameSets.trans {s'' : ServerSession C} (h : s.SameSets s') (h' : s'.SameSets s'') :
    s.SameSets s'' := by
  intro r b'' hb''
  obtain ⟨b', hb', he'⟩ := h' r b'' hb''
  obtain ⟨b, hb, he⟩ := h r b' hb'
  exact ⟨b, hb, he'.trans he⟩

/-- A change of every bucket that leaves its set alone. -/
theorem sameSets_mapVals {f : Round → RoundState C → RoundState C}
    (hf : ∀ r b, (f r b).set = b.set) (h : s'.rounds = s.rounds.mapVals f) : s.SameSets s' := by
  intro r b' hb'
  rw [h, OrdMap.get?_mapVals, Option.map_eq_some_iff] at hb'
  obtain ⟨b, hb, rfl⟩ := hb'
  exact ⟨b, hb, hf r b⟩

theorem sameSets_fixConsensusSets (cfg : ServerConfig C) (s : ServerSession C) (round : Round) :
    s.SameSets (s.fixConsensusSets cfg round) := by
  refine sameSets_mapVals (fun r b => ?_) rfl
  unfold ServerConfig.fixOne
  split
  · rfl
  · split <;> rfl

theorem sameSets_settle (cfg : ServerConfig C) (s : ServerSession C) (round : Round) :
    s.SameSets (s.settle cfg round).1 := by
  have hrounds := s.settle_rounds cfg round
  split_ifs at hrounds with hcons
  · intro r b' hb'
    rw [hrounds] at hb'
    exact sameSets_fixConsensusSets cfg s round r b' hb'
  · intro r b' hb'
    rw [hrounds] at hb'
    exact ⟨b', hb', rfl⟩

theorem sameSets_emit (cfg : ServerConfig C) (s : ServerSession C) (round : Round) :
    s.SameSets (s.emitServerPublics cfg round).1 := by
  unfold emitServerPublics
  split
  · exact .refl s
  · refine sameSets_mapVals (f := fun r b => (cfg.emitOne s.clientSetByRound
      (s.misbehavior = some .corruptShare) round r b).1) (fun r b => ?_) rfl
    unfold ServerConfig.emitOne
    repeat' split
    all_goals rfl

theorem sameSets_decode (cfg : ServerConfig C) (s : ServerSession C) :
    s.SameSets (s.decodeSettled cfg).1 := by
  refine sameSets_mapVals (fun r b => ?_) rfl
  unfold ServerConfig.afterDecode
  split <;> rfl

theorem sameSets_gc (s : ServerSession C) (round : Round) : s.SameSets (s.gc round) := by
  intro r b' hb'
  have hget : (s.rounds.retain
      (fun r _ => decide (round.saturatingSub panetiereRoundRetention ≤ r))).get? r = some b' := hb'
  rw [OrdMap.get?_retain, Option.filter_eq_some_iff] at hget
  exact ⟨b', hget.1, rfl⟩

theorem fitWire_settle (cfg : ServerConfig C) (s : ServerSession C) (round : Round) :
    FitWire size (s.settle cfg round).2 := by
  refine .of_others (fun w hw => ?_)
  unfold settle at hw
  dsimp only at hw
  split at hw
  · obtain ⟨a, -, rfl⟩ := List.mem_map.mp hw
    rfl
  · cases hw

theorem fitWire_emit (cfg : ServerConfig C) (s : ServerSession C) (round : Round) :
    FitWire size (s.emitServerPublics cfg round).2 := by
  refine .of_others (fun w hw => ?_)
  unfold emitServerPublics at hw
  split at hw
  · cases hw
  · obtain ⟨e, -, hw⟩ := List.mem_filterMap.mp hw
    rcases emitOne_cases cfg s.clientSetByRound (s.misbehavior = some .corruptShare) round e.1 e.2
      with ⟨-, hnone⟩ | ⟨_, _, _, _, -, -, -, -, hsome⟩
    · rw [hnone] at hw
      cases hw
    · rw [hsome] at hw
      cases hw
      rfl

theorem fitWire_publishDecoded (cfg : ServerConfig C) (messages : List (Round × List Bytes)) :
    FitWire size (publishDecoded cfg messages) := by
  refine .of_others (fun w hw => ?_)
  unfold publishDecoded at hw
  split at hw
  · obtain ⟨d, -, rfl⟩ := List.mem_map.mp hw
    rfl
  · cases hw

/-- **One call.**  A call that brings no more than the room keeps the store within it, and what it
sends fits. -/
theorem within_apply (hshares : C.SharesExact)
    (hsize : 41 + C.sigLen + n * (4 + C.sigLen) ≤ size) (hn : 1 ≤ n) {op : SessionOp}
    (h : s.Within (wireRoom C.toSetCrate size n))
    (hroomy : s.Roomy (wireRoom C.toSetCrate size n) cfg op) :
    (s.apply cfg op).Within (wireRoom C.toSetCrate size n) ∧ FitWire size (s.sent cfg op) := by
  cases op with
  | beginRound round => exact ⟨h, .nil⟩
  | inbound sender payload => exact within_onInbound hshares hsize hn h hroomy
  | checkpoint round k => exact within_checkpoint hshares hsize hn h hroomy
  | endRound round =>
    refine ⟨h.sameSets ((sameSets_settle cfg s round).trans ((sameSets_emit cfg _ round).trans
      ((sameSets_decode cfg _).trans (sameSets_gc _ round)))), ?_⟩
    exact ((fitWire_settle cfg s round).append (fitWire_emit cfg _ round)).append
      (fitWire_publishDecoded cfg _)
  | setMisbehavior mode => exact ⟨h, .nil⟩

end ServerSession
end Session

/-! ## The scheduled session -/

namespace ScheduledServerSession
variable {C : ScheduledCrate} {cfg : ScheduledServerConfig C} {s : ScheduledServerSession C}
  {size n : Nat}

/-- What a call sends. -/
def sent (cfg : ScheduledServerConfig C) (s : ScheduledServerSession C) :
    RelayOp → List PanetiereWire
  | .inbound sender payload => (s.onInbound cfg sender payload).2
  | .checkpoint round k => (s.checkpoint cfg round k).2
  | .endRound round => (s.endRound cfg round).2.outbound
  | _ => []

/-- The call the inner session gets. -/
def innerOp : RelayOp → Option SessionOp
  | .inbound sender payload => some (.inbound sender payload)
  | .checkpoint round k => some (.checkpoint round k)
  | _ => none

/-- A call brings no more than the room. -/
def Roomy (room : WireRoom) (cfg : ScheduledServerConfig C) (s : ScheduledServerSession C)
    (op : RelayOp) : Prop :=
  ∀ op', innerOp op = some op' → s.inner.Roomy room cfg.inner op'

/-- **One call of the scheduled session.** -/
theorem within_apply (hshares : C.SharesExact)
    (hsize : 41 + C.sigLen + n * (4 + C.sigLen) ≤ size) (hn : 1 ≤ n) {op : RelayOp}
    (h : s.inner.Within (wireRoom C.toSetCrate size n))
    (hroomy : s.Roomy (wireRoom C.toSetCrate size n) cfg op) :
    (s.apply cfg op).inner.Within (wireRoom C.toSetCrate size n) ∧
      FitWire size (s.sent cfg op) := by
  cases op with
  | beginRound round => exact ⟨h, .nil⟩
  | inbound sender payload =>
    have hpass : ∀ t : ScheduledServerSession C, t.inner = s.inner →
        (t.passOn cfg sender payload).1.inner.Within (wireRoom C.toSetCrate size n) ∧
          FitWire size (t.passOn cfg sender payload).2 := by
      intro t ht
      unfold passOn
      rw [ht]
      exact ServerSession.within_onInbound hshares hsize hn h (hroomy _ rfl)
    show (s.onInbound cfg sender payload).1.inner.Within _ ∧ FitWire size (s.onInbound cfg sender
      payload).2
    unfold onInbound
    split
    · split
      · split
        · refine hpass _ ?_
          unfold noteReservations
          split <;> rfl
        · exact ⟨h, .nil⟩
      · exact hpass s rfl
    · exact hpass s rfl
  | checkpoint round k =>
    show (s.checkpoint cfg round k).1.inner.Within _ ∧ FitWire size (s.checkpoint cfg round k).2
    unfold checkpoint
    split_ifs
    · exact ServerSession.within_checkpoint hshares hsize hn h (hroomy _ rfl)
    · refine ⟨h.sameSets (.refl _), .of_others (fun w hw => ?_)⟩
      obtain ⟨a, -, rfl⟩ := List.mem_map.mp hw
      rfl
    · exact ⟨h, .nil⟩
  | endRound round =>
    have hshared : s.inner.SameSets (s.shared cfg round).1 := by
      unfold shared
      split_ifs
      · exact (ServerSession.sameSets_fixConsensusSets cfg.inner s.inner round).trans
          (ServerSession.sameSets_emit cfg.inner _ round)
      · exact ServerSession.sameSets_emit cfg.inner _ round
    refine ⟨h.sameSets (hshared.trans ((ServerSession.sameSets_decode cfg.inner _).trans
      (ServerSession.sameSets_gc _ round))), ?_⟩
    refine ((ServerSession.fitWire_emit cfg.inner _ round).append ?_).append
      (ServerSession.fitWire_publishDecoded cfg.inner _)
    split_ifs
    · refine .of_others (fun w hw => ?_)
      obtain ⟨d, -, rfl⟩ := List.mem_map.mp hw
      rfl
    · exact .nil
  | setMisbehavior mode => exact ⟨h, .nil⟩
  | share entries => exact ⟨h, .nil⟩

end ScheduledServerSession
end Anymone
