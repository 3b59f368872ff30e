import Anymone.PanetiereBucket
import Anymone.PanetiereToy

/-! # Client-slot ownership

Five kinds of client messages reach a bucket, each through its own copy of the admission
code.  A client id is four bytes of a key, so that any signer can find one that collides:
what keeps a slot apart is the owner recorded for it.

`Filed` reads what a bucket holds under a client id, `SignedItem` says where in the run it
came from.  `Owned` is what admission keeps, whatever the messages and their order
(`owned_file`), and so does a call that only sheds (`Owned.refile`).
-/

namespace Anymone
variable {C : SessionCrate}

/-- What a client brings to one relay for one round. -/
inductive ClientItem (C : SessionCrate) where
  | post (entry : C.ClientEntry)
  | opening (opening : C.Opening)
  | slice (share : C.Share) (path : SharePath C.HVCPoly)
  | bundle (bundle : Bundle C.toSetCrate)

/-- What a bucket has filed under a client id: in `publics`, `inbox_items`, `lane_items`,
or held by its client set. -/
def RoundState.Filed (b : RoundState C) (cid : ClientId) : ClientItem C → Prop
  | .post entry => b.publics.get? cid = some entry
  | .opening opening => (cid, opening) ∈ b.inboxItems
  | .slice share path => (cid, share, path) ∈ b.laneItems
  | .bundle bundle => ∃ set kept hash, b.set = some set ∧ set.held.get? cid = some kept ∧
      kept.get? hash = some bundle

/-- A bundle is unpacked for the client it is read under. -/
theorem Bundle.clientId_unpack {C : SetCrate} {scp : ShareCommitmentParams} {cid : ClientId}
    {data : Bytes} {bundle : Bundle C} {used : Nat}
    (h : Bundle.unpack scp cid data = some (bundle, used)) : bundle.clientId = cid := by
  unfold Bundle.unpack at h
  simp only [Option.bind_eq_bind, Option.bind_eq_some_iff] at h
  obtain ⟨_, -, _, -, _, -, _, -, _, -, _, -, _, -, _, -, _, -, _, -, _, -, h⟩ := h
  cases h
  rfl

/-- What a server holds for a client in the map it starts from an empty one. -/
theorem SetServer.held_getD {C : SetCrate} {held : OrdMap ClientId (OrdMap Digest (Bundle C))}
    {cid : ClientId} {hash : Digest} {x : Bundle C}
    (h : ((held.get? cid).getD .empty).get? hash = some x) :
    ∃ kept, held.get? cid = some kept ∧ kept.get? hash = some x := by
  cases hkept : held.get? cid with
  | none =>
    rw [hkept] at h
    cases h
  | some kept =>
    rw [hkept] at h
    exact ⟨kept, rfl, h⟩

/-- What a server holds after a bundle came: what it held, or the bundle, under its client. -/
theorem SetServer.bundle_receive {C : SetCrate} {s : SetServer C} {sid : SessionId}
    {b x : Bundle C} {cid : ClientId} {kept : OrdMap Digest (Bundle C)} {hash : Digest}
    (h : (s.receive sid b).1.held.get? cid = some kept) (hx : kept.get? hash = some x) :
    (∃ kept', s.held.get? cid = some kept' ∧ kept'.get? hash = some x) ∨
      (cid = b.clientId ∧ x = b) := by
  rcases s.held_receive sid b with ⟨-, hheld⟩ | ⟨-, hheld⟩ | ⟨-, hheld⟩
  · rw [hheld] at h
    exact Or.inl ⟨kept, h, hx⟩
  · rw [hheld, OrdMap.get?_orInsert] at h
    split at h
    · rename_i hcid
      cases h
      rw [hcid]
      exact Or.inl (held_getD hx)
    · exact Or.inl ⟨kept, h, hx⟩
  · rw [hheld, OrdMap.get?_insert] at h
    split at h
    · rename_i hcid
      cases h
      rw [OrdMap.get?_insert] at hx
      split at hx
      · cases hx
        exact Or.inr ⟨hcid, rfl⟩
      · rw [hcid]
        exact Or.inl (held_getD hx)
    · exact Or.inl ⟨kept, h, hx⟩

namespace ServerSession
variable (cfg : ServerConfig C) (ops : List SessionOp) (r : Round)

/-- A payload of the run is the message `msg`. -/
def Heard (msg : PanetiereWire) : Prop :=
  ∃ sender payload, SessionOp.inbound sender payload ∈ ops ∧
    PanetiereWire.deserialize payload = some msg

/-- The run has a message for round `r` and client `cid` that `signer` signed, and it reads
as the item. -/
def SignedItem (cid : ClientId) (signer : Pubkey) : ClientItem C → Prop
  | .post parsed => ∃ entry signature,
      Heard ops (.clientPublic r cid entry signer signature) ∧
      C.pubkeyVerify signer (clientPublicSigningBytes r cid entry) signature = true ∧
      C.bulletinFromBytes entry = some parsed
  | .opening opening => ∃ sealed signature,
      Heard ops (.opening r cid cfg.serverId sealed signer signature) ∧
      C.pubkeyVerify signer (clientOpeningSigningBytes r cid cfg.serverId sealed) signature = true ∧
      C.unsealOpening (C.pke cfg.identity) (cfg.sid r) cid cfg.serverId sealed = some opening
  | .slice share path => ∃ shareBytes pathBytes signature,
      Heard ops (.clientSlice r cid cfg.serverId shareBytes pathBytes signer signature) ∧
      C.pubkeyVerify signer (clientSliceSigningBytes r cid cfg.serverId shareBytes pathBytes)
        signature = true ∧
      C.unpackShare shareBytes cfg.scp.blockLen = some share ∧
      C.pathFromBytes cfg.scp cfg.serverId.val pathBytes = some path
  | .bundle bundle => ∃ data signature,
      Heard ops (.bundle r cid cfg.serverId data signer signature) ∧
      C.pubkeyVerify signer (clientBundleSigningBytes r cid cfg.serverId data) signature = true ∧
      Bundle.unpack cfg.scp cid data = some (bundle, data.length)

/-- **The slots of a bucket.**  An owner's key derives its id, the ids are at most twice the
set bound, what is filed under an id was signed by its owner, and an id has at most one
opening and one slice. -/
structure Owned (b : RoundState C) : Prop where
  derived : ∀ cid owner, b.owners.get? cid = some owner → clientIdFromPubkey owner = cid
  capped : b.owners.size ≤ cfg.admitMax.val
  signed : ∀ cid item, b.Filed cid item →
    ∃ owner, b.owners.get? cid = some owner ∧ SignedItem cfg ops r cid owner item
  one_opening : (b.inboxItems.map Prod.fst).Nodup
  one_slice : (b.laneItems.map Prod.fst).Nodup

variable {cfg ops r} {s : ServerSession C} {op : SessionOp} {b b' : RoundState C} {cid : ClientId} {signer : Pubkey}

theorem Heard.mono {msg : PanetiereWire} (h : Heard ops msg) : Heard (ops ++ [op]) msg := by
  obtain ⟨sender, payload, hmem, hmsg⟩ := h
  exact ⟨sender, payload, List.mem_append_left _ hmem, hmsg⟩

theorem SignedItem.mono {item : ClientItem C} (h : SignedItem cfg ops r cid signer item) :
    SignedItem cfg (ops ++ [op]) r cid signer item := by
  cases item with
  | post parsed =>
    obtain ⟨entry, signature, hheard, h⟩ := h
    exact ⟨entry, signature, hheard.mono, h⟩
  | opening opening =>
    obtain ⟨sealed, signature, hheard, h⟩ := h
    exact ⟨sealed, signature, hheard.mono, h⟩
  | slice share path =>
    obtain ⟨shareBytes, pathBytes, signature, hheard, h⟩ := h
    exact ⟨shareBytes, pathBytes, signature, hheard.mono, h⟩
  | bundle bundle =>
    obtain ⟨data, signature, hheard, h⟩ := h
    exact ⟨data, signature, hheard.mono, h⟩

namespace Owned

theorem mono (h : Owned cfg ops r b) : Owned cfg (ops ++ [op]) r b := by
  refine ⟨h.derived, h.capped, fun cid item hfiled => ?_, h.one_opening, h.one_slice⟩
  obtain ⟨owner, howner, hsigned⟩ := h.signed cid item hfiled
  exact ⟨owner, howner, hsigned.mono⟩

/-- A fresh bucket has no slots. -/
theorem default (cfg : ServerConfig C) (ops : List SessionOp) (r : Round) :
    Owned cfg ops r RoundState.default := by
  refine ⟨fun _ _ h => (nomatch h), Nat.zero_le _, fun cid item hfiled => ?_, .nil, .nil⟩
  cases item with
  | post => cases hfiled
  | opening => cases hfiled
  | slice => cases hfiled
  | bundle =>
    obtain ⟨_, _, _, hset, -⟩ := hfiled
    cases hset

/-- Slots stay as they are when the owners do and each item now filed was filed before, or
its owner signed it. -/
theorem refile (h : Owned cfg ops r b) (howners : b'.owners = b.owners)
    (hfiled : ∀ cid item, b'.Filed cid item → b.Filed cid item ∨
      ∃ owner, b.owners.get? cid = some owner ∧ SignedItem cfg ops r cid owner item)
    (hopenings : (b'.inboxItems.map Prod.fst).Nodup)
    (hslices : (b'.laneItems.map Prod.fst).Nodup) : Owned cfg ops r b' := by
  refine ⟨?_, ?_, fun cid item hitem => ?_, hopenings, hslices⟩
  · rw [howners]
    exact h.derived
  · rw [howners]
    exact h.capped
  · rw [howners]
    rcases hfiled cid item hitem with hold | hnew
    · exact h.signed cid item hold
    · exact hnew

/-- So they do when nothing is filed anew. -/
theorem shed (h : Owned cfg ops r b) (howners : b'.owners = b.owners)
    (hposts : ∀ cid entry, b'.publics.get? cid = some entry → b.publics.get? cid = some entry)
    (hopenings : b'.inboxItems.Sublist b.inboxItems) (hslices : b'.laneItems.Sublist b.laneItems)
    (hheld : b'.set.map SetServer.held = b.set.map SetServer.held) : Owned cfg ops r b' := by
  refine h.refile howners (fun cid item hitem => Or.inl ?_)
    (h.one_opening.sublist (hopenings.map _)) (h.one_slice.sublist (hslices.map _))
  cases item with
  | post entry => exact hposts cid entry hitem
  | opening opening => exact hopenings.subset hitem
  | slice share path => exact hslices.subset hitem
  | bundle bundle =>
    obtain ⟨set, kept, hash, hset, hkept, hbundle⟩ := hitem
    rw [hset] at hheld
    obtain ⟨set', hset', heq⟩ := Option.map_eq_some_iff.mp hheld.symm
    exact ⟨set', kept, hash, hset', by rw [heq, hkept], hbundle⟩

end Owned

/-! ## Admission -/

/-- A client message that is accepted was signed by its signer. -/
theorem verified_of_acceptClient {signature bytes : Bytes}
    (h : cfg.acceptClient signer signature bytes = true) :
    C.pubkeyVerify signer bytes signature = true :=
  (Bool.and_eq_true_iff.mp h).1

/-- What admission does to the owners: the signer comes to own the slot, or already does, or
is turned away and the owners stay.  A signer of its own id is turned away from another's
slot, or when all are taken. -/
theorem admitClient_cases (owners : OrdMap ClientId Pubkey) (cid : ClientId) (signer : Pubkey)
    (max : Nat) :
    (admitClient owners cid signer max = (owners, .admitted) ∧ owners.get? cid = some signer) ∨
    (admitClient owners cid signer max = (owners.insert cid signer, .admitted) ∧
      clientIdFromPubkey signer = cid ∧ owners.get? cid = none ∧ owners.size < max) ∨
    ∃ turned, admitClient owners cid signer max = (owners, turned) ∧ turned ≠ .admitted ∧
      (clientIdFromPubkey signer = cid → (∃ owner, owners.get? cid = some owner ∧ owner ≠ signer) ∨
        (owners.get? cid = none ∧ max ≤ owners.size)) := by
  unfold admitClient
  by_cases hid : clientIdFromPubkey signer = cid
  · rw [if_neg (not_not.mpr hid)]
    cases howner : owners.get? cid with
    | some owner =>
      dsimp only
      by_cases heq : owner = signer
      · rw [if_pos heq, heq]
        exact Or.inl ⟨rfl, rfl⟩
      · rw [if_neg heq]
        exact Or.inr (Or.inr ⟨_, rfl, nofun, fun _ => Or.inl ⟨owner, rfl, heq⟩⟩)
    | none =>
      dsimp only
      by_cases hfull : max ≤ owners.size
      · rw [if_pos hfull]
        exact Or.inr (Or.inr ⟨_, rfl, nofun, fun _ => Or.inr ⟨rfl, hfull⟩⟩)
      · rw [if_neg hfull]
        exact Or.inr (Or.inl ⟨rfl, hid, rfl, Nat.lt_of_not_le hfull⟩)
  · rw [if_pos hid]
    exact Or.inr (Or.inr ⟨_, rfl, nofun, fun h => absurd h hid⟩)

/-- What a claim does to a bucket. -/
theorem claim_cases (b : RoundState C) (cid : ClientId) (signer : Pubkey) (max : U64) :
    (b.claim cid signer max = (b, true) ∧ b.owners.get? cid = some signer) ∨
    (b.claim cid signer max = ({ b with owners := b.owners.insert cid signer }, true) ∧
      clientIdFromPubkey signer = cid ∧ b.owners.get? cid = none ∧ b.owners.size < max.val) ∨
    ∃ rejected, b.claim cid signer max = ({ b with rejected := rejected }, false) ∧
      (clientIdFromPubkey signer = cid →
        (∃ owner, b.owners.get? cid = some owner ∧ owner ≠ signer) ∨
          (b.owners.get? cid = none ∧ max.val ≤ b.owners.size)) := by
  unfold RoundState.claim
  rcases admitClient_cases b.owners cid signer max.val with
    ⟨he, howner⟩ | ⟨he, h⟩ | ⟨turned, he, hne, hwhy⟩
  · rw [he]
    exact Or.inl ⟨rfl, howner⟩
  · rw [he]
    exact Or.inr (Or.inl ⟨rfl, h⟩)
  · rw [he]
    cases turned with
    | admitted => exact absurd rfl hne
    | atCapacity => exact Or.inr (Or.inr ⟨_, rfl, hwhy⟩)
    | notOwner => exact Or.inr (Or.inr ⟨b.rejected, rfl, hwhy⟩)

/-- **Admission.**  A client's message keeps the slots when what it stores does, in a bucket
where its signer owns the slot. -/
theorem owned_claimed {store : RoundState C → RoundState C × List PanetiereWire}
    (h : Owned cfg ops r b)
    (hstore : ∀ b, Owned cfg ops r b → b.owners.get? cid = some signer →
      Owned cfg ops r (store b).1) :
    Owned cfg ops r (b.claimed cid signer cfg.admitMax store).1 := by
  unfold RoundState.claimed
  rcases claim_cases b cid signer cfg.admitMax with
    ⟨hclaim, howner⟩ | ⟨hclaim, hid, hfree, hroom⟩ | ⟨rejected, hclaim, -⟩
  · rw [hclaim]
    exact hstore b h howner
  · -- The slot was free, so that nothing is filed under it yet.
    rw [hclaim]
    refine hstore _ ⟨fun c owner hc => ?_, ?_, fun c item hitem => ?_, h.one_opening, h.one_slice⟩
      (by rw [OrdMap.get?_insert, if_pos rfl])
    · rw [OrdMap.get?_insert] at hc
      split at hc
      · rename_i heq
        cases hc
        rw [heq, hid]
      · exact h.derived c owner hc
    · have hsize := (OrdMap.entries_perm_insert (v := signer) hfree).length_eq
      rw [List.length_cons] at hsize
      exact (Nat.le_of_eq hsize).trans hroom
    · obtain ⟨owner, howner, hsigned⟩ := h.signed c item hitem
      refine ⟨owner, ?_, hsigned⟩
      rw [OrdMap.get?_insert, if_neg (fun heq => ?_), howner]
      rw [heq, hfree] at howner
      cases howner
  · rw [hclaim]
    exact h.shed rfl (fun _ _ => id) (.refl _) (.refl _) rfl

/-! ## What a message files -/

/-- The first element under a key keeps a list apart by its keys. -/
theorem nodup_append_first {α β : Type} [DecidableEq α] {l : List (α × β)} {k : α} {v : β}
    (hn : (l.map Prod.fst).Nodup) (hk : ¬l.any (fun i => i.1 == k) = true) :
    ((l ++ [(k, v)]).map Prod.fst).Nodup := by
  rw [List.map_append, List.nodup_append]
  refine ⟨hn, List.nodup_singleton _, fun a ha k' hk' heq => hk ?_⟩
  rw [List.map_singleton, List.mem_singleton] at hk'
  obtain ⟨i, hi, rfl⟩ := List.mem_map.mp ha
  exact List.any_eq_true.mpr ⟨i, hi, by rw [heq, hk']; exact beq_self_eq_true _⟩

theorem owned_filePublic {entry signature : Bytes} (h : Owned cfg ops r b)
    (howner : b.owners.get? cid = some signer)
    (hheard : Heard ops (.clientPublic r cid entry signer signature))
    (hsig : C.pubkeyVerify signer (clientPublicSigningBytes r cid entry) signature = true) :
    Owned cfg ops r (cfg.filePublic r cid entry b) := by
  unfold ServerConfig.filePublic
  split
  · exact h
  · rename_i parsed hparsed
    split
    · refine h.refile rfl (fun c item hitem => ?_) h.one_opening h.one_slice
      cases item with
      | post e =>
        have hget : (b.publics.insert cid parsed).get? c = some e := hitem
        rw [OrdMap.get?_insert] at hget
        split at hget
        · rename_i heq
          cases hget
          subst heq
          exact Or.inr ⟨signer, howner, entry, signature, hheard, hsig, hparsed⟩
        · exact Or.inl hget
      | opening => exact Or.inl hitem
      | slice => exact Or.inl hitem
      | bundle bundle =>
        obtain ⟨set, kept, hash, hset, hkept, hbundle⟩ := hitem
        obtain ⟨set', hset', rfl⟩ := Option.map_eq_some_iff.mp hset
        exact Or.inl ⟨set', kept, hash, hset', hkept, hbundle⟩
    · exact h

theorem owned_fileOpening {sealed signature : Bytes} (h : Owned cfg ops r b)
    (howner : b.owners.get? cid = some signer)
    (hheard : Heard ops (.opening r cid cfg.serverId sealed signer signature))
    (hsig : C.pubkeyVerify signer (clientOpeningSigningBytes r cid cfg.serverId sealed)
      signature = true) :
    Owned cfg ops r (cfg.fileOpening r cid sealed b) := by
  unfold ServerConfig.fileOpening
  split
  · exact h
  · rename_i opening hopening
    split
    · exact h
    · rename_i hfirst
      refine h.refile rfl (fun c item hitem => ?_) (nodup_append_first h.one_opening hfirst)
        h.one_slice
      cases item with
      | opening o =>
        rcases List.mem_append.mp hitem with hold | hnew
        · exact Or.inl hold
        · cases List.mem_singleton.mp hnew
          exact Or.inr ⟨signer, howner, sealed, signature, hheard, hsig, hopening⟩
      | post => exact Or.inl hitem
      | slice => exact Or.inl hitem
      | bundle => exact Or.inl hitem

theorem owned_fileSlice {share path signature : Bytes} (h : Owned cfg ops r b)
    (howner : b.owners.get? cid = some signer)
    (hheard : Heard ops (.clientSlice r cid cfg.serverId share path signer signature))
    (hsig : C.pubkeyVerify signer (clientSliceSigningBytes r cid cfg.serverId share path)
      signature = true) :
    Owned cfg ops r (cfg.fileSlice cid cfg.serverId share path b) := by
  unfold ServerConfig.fileSlice
  split
  · exact h
  · rename_i hfirst
    split
    · rename_i unpacked read hunpacked hread
      refine h.refile rfl (fun c item hitem => ?_) h.one_opening
        (nodup_append_first h.one_slice hfirst)
      cases item with
      | slice s p =>
        rcases List.mem_append.mp hitem with hold | hnew
        · exact Or.inl hold
        · cases List.mem_singleton.mp hnew
          exact Or.inr ⟨signer, howner, share, path, signature, hheard, hsig, hunpacked, hread⟩
      | post => exact Or.inl hitem
      | opening => exact Or.inl hitem
      | bundle => exact Or.inl hitem
    · exact h

theorem owned_receive {set : SetServer C.toSetCrate} {bundle : Bundle C.toSetCrate}
    {data signature : Bytes} (h : Owned cfg ops r b) (howner : b.owners.get? cid = some signer)
    (hset : ∀ c kept, set.held.get? c = some kept →
      ∃ set₀, b.set = some set₀ ∧ set₀.held.get? c = some kept)
    (hheard : Heard ops (.bundle r cid cfg.serverId data signer signature))
    (hsig : C.pubkeyVerify signer (clientBundleSigningBytes r cid cfg.serverId data) signature = true)
    (hunpacks : Bundle.unpack cfg.scp cid data = some (bundle, data.length)) :
    Owned cfg ops r { b with set := some (set.receive (cfg.sid r) bundle).1 } := by
  refine h.refile rfl (fun c item hitem => ?_) h.one_opening h.one_slice
  cases item with
  | bundle x =>
    obtain ⟨set', kept, hash, hset', hkept, hx⟩ := hitem
    cases hset'
    rcases SetServer.bundle_receive hkept hx with ⟨kept', hkept', hx'⟩ | ⟨rfl, rfl⟩
    · obtain ⟨set₀, hset₀, hheld⟩ := hset c kept' hkept'
      exact Or.inl ⟨set₀, kept', hash, hset₀, hheld, hx'⟩
    · rw [Bundle.clientId_unpack hunpacks]
      exact Or.inr ⟨signer, howner, data, signature, hheard, hsig, hunpacks⟩
  | post => exact Or.inl hitem
  | opening => exact Or.inl hitem
  | slice => exact Or.inl hitem

/-- The client set a message finds in its bucket holds what the bucket's does. -/
theorem held_setServer {signerKey : C.SigningKey} {pks : List C.VerifyingKey} {c : ClientId}
    {kept : OrdMap Digest (Bundle C.toSetCrate)}
    (h : (cfg.setServer signerKey pks b).held.get? c = some kept) :
    ∃ set, b.set = some set ∧ set.held.get? c = some kept := by
  unfold ServerConfig.setServer at h
  cases hset : b.set with
  | none =>
    rw [hset] at h
    cases h
  | some set =>
    rw [hset] at h
    exact ⟨set, rfl, h⟩

theorem owned_submit {signerKey : C.SigningKey} {pks : List C.VerifyingKey}
    {fragments : List (Fragment C.toSetCrate)} (h : Owned cfg ops r b) :
    Owned cfg ops r
      { b with set := some ((cfg.setServer signerKey pks b).submit (cfg.sid r) fragments).1 } := by
  refine h.refile rfl (fun c item hitem => ?_) h.one_opening h.one_slice
  cases item with
  | bundle x =>
    obtain ⟨set', kept, hash, hset', hkept, hx⟩ := hitem
    cases hset'
    unfold SetServer.submit at hkept
    rw [SetServer.acceptFragments_frame] at hkept
    obtain ⟨set, hset, hheld⟩ := held_setServer hkept
    exact Or.inl ⟨set, kept, hash, hset, hheld, hx⟩
  | post => exact Or.inl hitem
  | opening => exact Or.inl hitem
  | slice => exact Or.inl hitem

/-- **Every message keeps the slots of its bucket.**  One case per message of the wire. -/
theorem owned_file {sender : PeerId} {payload : Bytes} {msg : PanetiereWire}
    {f : RoundState C → RoundState C × List PanetiereWire} (hheard : Heard ops msg)
    (hf : cfg.file sender payload msg = some f) (h : Owned cfg ops msg.round b) :
    Owned cfg ops msg.round (f b).1 := by
  cases msg with
  | clientPublic round cid entry signer signature =>
    simp only [ServerConfig.file] at hf
    split at hf
    · rename_i hok
      cases hf
      exact owned_claimed h (fun b h howner => owned_filePublic h howner hheard
        (verified_of_acceptClient hok.2))
    · cases hf
  | opening round cid target sealed signer signature =>
    simp only [ServerConfig.file] at hf
    split at hf
    · rename_i hok
      cases hf
      obtain ⟨rfl, hsig⟩ := hok
      exact owned_claimed h (fun b h howner => owned_fileOpening h howner hheard
        (verified_of_acceptClient hsig))
    · cases hf
  | clientSlice round cid lane share path signer signature =>
    simp only [ServerConfig.file] at hf
    split at hf
    · rename_i hok
      cases hf
      obtain ⟨rfl, hsig, -⟩ := hok
      exact owned_claimed h (fun b h howner => owned_fileSlice h howner hheard
        (verified_of_acceptClient hsig))
    · cases hf
  -- a message of a relay fills no slot of a client
  | serverPublic round sid clients aggOpen aggShare shareSum laneOpen signature =>
    obtain ⟨expected, -, hf⟩ := Option.bind_eq_some_iff.mp hf
    split at hf
    · obtain ⟨entries, -, hf⟩ := Option.bind_eq_some_iff.mp hf
      cases hf
      exact h.shed rfl (fun _ _ => id) (.refl _) (.refl _) rfl
    · cases hf
  | bundle round cid lane data signer signature =>
    obtain ⟨⟨signerKey, pks⟩, -, hf⟩ := Option.bind_eq_some_iff.mp hf
    dsimp only at hf
    split at hf
    · rename_i hok
      obtain ⟨⟨unpacked, used⟩, hunpacks, hf⟩ := Option.bind_eq_some_iff.mp hf
      dsimp only at hf
      split at hf
      · rename_i hused
        cases hf
        obtain ⟨rfl, -, hsig⟩ := hok
        rw [hused] at hunpacks
        exact owned_claimed h (fun b h howner => owned_receive h howner
          (fun _ _ => held_setServer) hheard (verified_of_acceptClient hsig) hunpacks)
      · cases hf
    · cases hf
  | setFragment round cid target data signer signature =>
    obtain ⟨⟨signerKey, pks⟩, -, hf⟩ := Option.bind_eq_some_iff.mp hf
    dsimp only at hf
    split at hf
    · obtain ⟨fragment, -, hf⟩ := Option.bind_eq_some_iff.mp hf
      split at hf
      · cases hf
        exact owned_claimed h (fun b h _ => owned_submit h)
      · cases hf
    · cases hf
  | setRelay round data =>
    simp only [ServerConfig.file] at hf
    split at hf
    · obtain ⟨relay, -, rfl⟩ := Option.map_eq_some_iff.mp hf
      dsimp only
      unfold ServerConfig.fileRelay
      split
      · exact h.shed rfl (fun _ _ => id) (.refl _) (.refl _) rfl
      · exact h
    · cases hf
  | setBatch => cases hf
  | decoded => cases hf
  | reservations => cases hf
  | clientSet => cases hf

/-! ## What else a worker calls -/

theorem held_foldl_noteBulletin {C : SetCrate} (posted : List (ClientId × C.Pk)) :
    ∀ set : SetServer C,
      (posted.foldl (fun set p => set.noteBulletin p.1 p.2) set).held = set.held := by
  induction posted with
  | nil => exact fun _ => rfl
  | cons p posted ih =>
    intro set
    rw [List.foldl_cons, ih]
    rfl

/-- A checkpoint works on the client set of its round, and holds no bundle anew. -/
theorem owned_checkpoint {round : Round} {k : U8}
    (hown : ∀ b, s.rounds.get? r = some b → Owned cfg ops r b)
    (h : (s.checkpoint cfg round k).1.rounds.get? r = some b') : Owned cfg ops r b' := by
  -- A checkpoint writes the bucket of its own round and leaves what clients posted.
  have write : ∀ {b : RoundState C} {set posted buf}, s.rounds.get? round = some b →
      (set : Option (SetServer C.toSetCrate)).map SetServer.held = b.set.map SetServer.held →
      (s.rounds.insert round
        { b with set := set, pendingBulletins := posted, relayBuf := buf }).get? r = some b' →
      Owned cfg ops r b' := by
    intro b set posted buf hb hheld hget
    rw [OrdMap.get?_insert] at hget
    split at hget
    · rename_i hr
      cases hget
      refine (hown b (by rw [hr, hb])).shed rfl (fun _ _ => id) (.refl _) (.refl _) hheld
    · exact hown b' hget
  unfold checkpoint at h
  split at h
  · exact hown b' h
  · split at h
    · unfold publishBatch at h
      split at h
      · exact hown b' h
      · rename_i b hb
        dsimp only at h
        split at h
        · rename_i hset
          exact write hb (by rw [hset]) h
        · rename_i set hset
          refine write hb ?_ h
          rw [hset, Option.map_some, Option.map_some, SetServer.originate_frame]
          exact congrArg some (held_foldl_noteBulletin b.pendingBulletins set)
    · split at h
      · unfold absorbRelays at h
        split at h
        · exact hown b' h
        · rename_i b hb
          dsimp only at h
          split at h
          · rename_i hset
            exact write hb (by rw [hset]) h
          · rename_i set hset
            refine write hb ?_ h
            rw [hset, Option.map_some, Option.map_some, SetServer.absorb_frame]
      · exact hown b' h

/-- Emission consumes openings and slices. -/
theorem owned_emitOne {sets : OrdMap Round (List ClientId)} {corrupt : Bool} {round : Round}
    (h : Owned cfg ops r b) : Owned cfg ops r (cfg.emitOne sets corrupt round r b).1 := by
  unfold ServerConfig.emitOne
  split
  · exact h
  · split
    · exact h
    · split
      · exact h
      · split
        · exact h.shed rfl (fun _ _ => id) (List.nil_sublist _) (.refl _) rfl
        · split
          · exact h.shed rfl (fun _ _ => id) (List.nil_sublist _) (List.nil_sublist _) rfl
          · exact h.shed rfl (fun _ _ => id) (List.nil_sublist _) (List.nil_sublist _) rfl

theorem owned_afterDecode {sets : OrdMap Round (List ClientId)} (h : Owned cfg ops r b) :
    Owned cfg ops r (cfg.afterDecode sets r b) := by
  unfold ServerConfig.afterDecode
  split
  · exact h.shed rfl (fun _ _ hget => (nomatch hget)) (List.nil_sublist _) (List.nil_sublist _) rfl
  · exact h

/-- A round's end that fixes no client set keeps the slots. -/
theorem owned_endRound {round : Round} (hset : cfg.consensus = false)
    (hown : ∀ b, s.rounds.get? r = some b → Owned cfg ops r b)
    (h : (s.endRound cfg round).1.rounds.get? r = some b') : Owned cfg ops r b' := by
  have settled : ∀ b, (s.settle cfg round).1.rounds.get? r = some b → Owned cfg ops r b := by
    intro b hb
    rw [settle_rounds, hset, if_neg Bool.false_ne_true] at hb
    exact hown b hb
  have emitted : ∀ b, ((s.settle cfg round).1.emitServerPublics cfg round).1.rounds.get? r = some b →
      Owned cfg ops r b := by
    intro b hb
    unfold emitServerPublics at hb
    split at hb
    · exact settled b hb
    · dsimp only at hb
      rw [OrdMap.get?_mapVals, Option.map_eq_some_iff] at hb
      obtain ⟨b₀, hb₀, rfl⟩ := hb
      exact owned_emitOne (settled b₀ hb₀)
  have hret : ((((s.settle cfg round).1.emitServerPublics cfg round).1.decodeSettled
      cfg).1.rounds.retain
        (fun r _ => decide (round.saturatingSub panetiereRoundRetention ≤ r))).get? r = some b' := h
  rw [OrdMap.get?_retain, Option.filter_eq_some_iff] at hret
  have hget := hret.1
  unfold decodeSettled at hget
  dsimp only at hget
  rw [OrdMap.get?_mapVals, Option.map_eq_some_iff] at hget
  obtain ⟨b, hb, rfl⟩ := hget
  exact owned_afterDecode (emitted b hb)

/-- **One call keeps the slots** of every bucket. -/
theorem owned_apply (hop : cfg.consensus = true → isEndRound op = false)
    (hown : ∀ r b, s.rounds.get? r = some b → Owned cfg ops r b)
    (h : (s.apply cfg op).rounds.get? r = some b') : Owned cfg (ops ++ [op]) r b' := by
  have hnext : ∀ r b, s.rounds.get? r = some b → Owned cfg (ops ++ [op]) r b :=
    fun r b hb => (hown r b hb).mono
  cases op with
  | beginRound round => exact hnext r b' h
  | inbound sender payload =>
    change (s.onInbound cfg sender payload).1.rounds.get? r = some b' at h
    rcases s.onInbound_cases cfg sender payload with he | ⟨round, clients, _, -, -, he⟩ |
      ⟨msg, f, hmsg, -, hf, he⟩
    · rw [he] at h
      exact hnext r b' h
    · rw [he, (s.adopt_rounds cfg sender round clients).1] at h
      exact hnext r b' h
    · rw [he] at h
      unfold entry at h
      dsimp only at h
      rw [OrdMap.get?_insert] at h
      split at h
      · rename_i hr
        cases h
        rw [hr]
        refine owned_file ⟨sender, payload, List.mem_append_right _ (List.mem_singleton_self _), hmsg⟩
          hf ?_
        cases hb : s.rounds.get? msg.round with
        | none => exact .default cfg _ _
        | some b => exact hnext _ b hb
      · exact hnext r b' h
  | checkpoint round k => exact owned_checkpoint (hnext r) h
  | endRound round =>
    have hset : cfg.consensus = false := by
      cases hc : cfg.consensus with
      | false => rfl
      | true => cases hop hc
    exact owned_endRound hset (hnext r) h
  | setMisbehavior mode => exact hnext r b' h

/-- **Every run keeps the slots** of every bucket. -/
theorem owned_after (ops : List SessionOp)
    (hops : cfg.consensus = true → ∀ op ∈ ops, isEndRound op = false) :
    ∀ r b, (after cfg ops).rounds.get? r = some b → Owned cfg ops r b := by
  induction ops using List.reverseRecOn with
  | nil =>
    intro r b h
    cases h
  | append_singleton ops op ih =>
    intro r b h
    rw [after_concat] at h
    exact owned_apply
      (fun hc => hops hc op (List.mem_append_right _ (List.mem_singleton_self _)))
      (ih (fun hc op hop => hops hc op (List.mem_append_left _ hop))) h

/-- **Client-slot ownership.**  Whatever messages arrive, from whomever and in whatever
order, every bucket keeps its slots: one owner for an id, which derives it, at most twice
the set bound of them, everything filed under an id signed by its owner in a message of the
run, and at most one opening and one slice each.  Rounds begin, checkpoints fire and rounds
end in between; only a consensus relay's end of a round files what no client sent it. -/
theorem slots_owned (cfg : ServerConfig C) (ops : List SessionOp)
    (hops : cfg.consensus = true → ∀ op ∈ ops, isEndRound op = false) {r : Round}
    {b : RoundState C} (h : (after cfg ops).rounds.get? r = some b) :
    (∀ cid owner, b.owners.get? cid = some owner → clientIdFromPubkey owner = cid) ∧
    (∀ cid item, b.Filed cid item →
      ∃ owner, b.owners.get? cid = some owner ∧ SignedItem cfg ops r cid owner item) ∧
    (b.inboxItems.map Prod.fst).Nodup ∧ (b.laneItems.map Prod.fst).Nodup ∧
    b.owners.size ≤ 2 * cfg.clientSetMax.val := by
  have howned := owned_after ops hops r b h
  refine ⟨howned.derived, howned.signed, howned.one_opening, howned.one_slice, ?_⟩
  have hcap := howned.capped
  unfold ServerConfig.admitMax U64.saturatingMul at hcap
  dsimp only at hcap
  omega

/-- A key whose first four bytes are client 7's, and that is not client 7's. -/
def collidingKey : Pubkey := ⟨[0, 0, 0, 7] ++ List.replicate 28 1, rfl⟩

/-- A consensus relay's round: client 7's public, an opening under its id by the colliding
key, client 7's opening and slice. -/
def collidingRun : List SessionOp :=
  [.beginRound 5, .from 7 (.toyPublic 5 7 1),
    .from 9 (.opening 5 7 0 [] collidingKey
      (toySign collidingKey (clientOpeningSigningBytes 5 7 0 []))),
    .from 7 (.toyOpening 5 7 0), .from 7 (.toySlice 5 7 0 [1])]

/-- The bucket it leaves. -/
def collidingBucket : RoundState toySession :=
  ((after (toyConfig 0 (.consensus (toyNode 100))) collidingRun).rounds.get? 5).getD .default

/-- The slot stays client 7's, and holds what it sent. -/
theorem slots_owned_colliding :
    clientIdFromPubkey collidingKey = 7 ∧ (∀ op ∈ collidingRun, isEndRound op = false) ∧
    collidingBucket.owners.get? 7 = some (toyNode 7) ∧
    collidingBucket.inboxItems.map Prod.fst = [7] ∧
    (collidingBucket.laneItems.map Prod.fst).Nodup ∧ collidingBucket.owners.size ≤ 2 * 8 := by
  have hops : ∀ op ∈ collidingRun, isEndRound op = false := by decide +kernel
  have hsome : ((after (toyConfig 0 (.consensus (toyNode 100))) collidingRun).rounds.get? 5).isSome =
      true := by decide +kernel
  have hb : (after (toyConfig 0 (.consensus (toyNode 100))) collidingRun).rounds.get? 5 =
      some collidingBucket := by
    obtain ⟨b, hb⟩ := Option.isSome_iff_exists.mp hsome
    unfold collidingBucket
    rw [hb]
    rfl
  obtain ⟨-, -, -, hslices, hsize⟩ := slots_owned _ collidingRun (fun _ => hops) hb
  exact ⟨by decide +kernel, hops, by decide +kernel, by decide +kernel, hslices, hsize⟩

end ServerSession
end Anymone
