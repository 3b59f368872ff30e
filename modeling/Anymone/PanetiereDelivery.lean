import Anymone.FirstCome
import Anymone.PanetiereOwners

/-! # A round's contributions, delivered

A client's contribution to a round is one public for everyone, and one opening and one
slice for every relay.  A delivery to a relay is a list of such parts in any order.

Admission of a delivery is first come, first admitted (`FirstCome`), over whatever part of
a contribution comes first.  `Gathered` reads a bucket off the delivery: its owners are the
slots, and it has filed every part of the contributions that have theirs (`gathered_deliver`).
-/

namespace Anymone
open FirstCome
variable {C : SessionCrate}

/-- The parts of a contribution. -/
inductive Part where
  | post
  | opening
  | slice
  deriving DecidableEq

/-- One client's contribution to a round, to every relay. -/
structure Contribution where
  clientId : ClientId
  signer : Pubkey
  entry : Bytes
  postSignature : Bytes
  sealed : ServerId → Bytes
  openingSignature : ServerId → Bytes
  share : ServerId → Bytes
  path : ServerId → Bytes
  sliceSignature : ServerId → Bytes

namespace Contribution
variable (k : Contribution) (r : Round) (i : ServerId)

/-- What relay `i` is sent of it. -/
def wire : Part → PanetiereWire
  | .post => .clientPublic r k.clientId k.entry k.signer k.postSignature
  | .opening => .opening r k.clientId i (k.sealed i) k.signer (k.openingSignature i)
  | .slice => .clientSlice r k.clientId i (k.share i) (k.path i) k.signer (k.sliceSignature i)

/-- What its signer signs. -/
def signingBytes : Part → Bytes
  | .post => clientPublicSigningBytes r k.clientId k.entry
  | .opening => clientOpeningSigningBytes r k.clientId i (k.sealed i)
  | .slice => clientSliceSigningBytes r k.clientId i (k.share i) (k.path i)

def signature : Part → Bytes
  | .post => k.postSignature
  | .opening => k.openingSignature i
  | .slice => k.sliceSignature i

/-- A contribution that a relay takes: its id is its signer's, its parts fit the wire, are
signed, and read as a public, an opening and a slice. -/
structure Valid (cfg : ServerConfig C) : Prop where
  derived : clientIdFromPubkey k.signer = k.clientId
  fits : ∀ part, PanetiereWire.format.Fits (k.wire r cfg.serverId part)
  signed : ∀ part, cfg.acceptClient k.signer (k.signature cfg.serverId part)
    (k.signingBytes r cfg.serverId part) = true
  postLen : k.entry.length = C.bulletinPackedLen
  sliceLens : ((k.share cfg.serverId).length, (k.path cfg.serverId).length) = cfg.sliceWireLens
  posted : ∃ parsed, C.bulletinFromBytes k.entry = some parsed ∧
    cfg.postOk r k.clientId parsed = true
  opened : ∃ opening, C.unsealOpening (C.pke cfg.identity) (cfg.sid r) k.clientId cfg.serverId
    (k.sealed cfg.serverId) = some opening
  sliced : ∃ share path, C.unpackShare (k.share cfg.serverId) cfg.scp.blockLen = some share ∧
    C.pathFromBytes cfg.scp cfg.serverId.val (k.path cfg.serverId) = some path

/-- The slot it asks for. -/
def arrival : ClientId × Pubkey := (k.clientId, k.signer)

end Contribution

/-- One part arriving, from whichever peer. -/
structure Delivery where
  sender : PeerId
  part : Part
  contribution : Contribution

/-- The slots of a delivery, at a relay. -/
def ServerConfig.slots (cfg : ServerConfig C) (ds : List Delivery) : List (ClientId × Pubkey) :=
  FirstCome.slots cfg.admitMax.val (ds.map (fun d => d.contribution.arrival))

/-- The clients whose part of a kind came, in the order it came, of those with a slot. -/
def ServerConfig.kept (cfg : ServerConfig C) (ds : List Delivery) (part : Part) : List ClientId :=
  (ds.filter (fun d => d.part = part ∧ d.contribution.arrival ∈ cfg.slots ds)).map
    (fun d => d.contribution.clientId)

/-- Every part of every contribution, once. -/
def Complete (K : List Contribution) (ds : List Delivery) : Prop :=
  (ds.map (fun d => (d.part, d.contribution))).Perm
    (K.flatMap (fun k => [(.post, k), (.opening, k), (.slice, k)]))

namespace ServerSession

/-- The session after a delivery. -/
def deliver (cfg : ServerConfig C) (r : Round) (ds : List Delivery) (s : ServerSession C) :
    ServerSession C :=
  ds.foldl (fun s d =>
    (s.onInbound cfg d.sender (d.contribution.wire r cfg.serverId d.part).serialize).1) s

/-- A session that round `r` has nothing in yet. -/
structure Awaits (s : ServerSession C) (r : Round) : Prop where
  admits : s.admits r = true
  fresh : s.rounds.get? r = none
  unset : s.clientSetByRound.get? r = none
  unannounced : s.announcedRounds.contains r = false
  honest : s.misbehavior = none

/-- A new session awaits the round it begins with. -/
theorem awaits_beginRound (r : Round) : Awaits ((new : ServerSession C).beginRound r) r := by
  refine ⟨?_, rfl, rfl, rfl, rfl⟩
  unfold admits beginRound new roundInWindow
  have hle : r ≤ r.saturatingAdd panetiereRoundWindow := by
    rw [Fin.le_def, U64.val_saturatingAdd]
    omega
  simp [hle]

end ServerSession

/-! ## What a bucket gathers -/

variable {cfg : ServerConfig C} {r : Round} {ds : List Delivery} {d : Delivery}
  {b : RoundState C} {part : Part}

namespace ServerConfig

theorem slots_concat : cfg.slots (ds ++ [d]) =
    arrive cfg.admitMax.val (cfg.slots ds) d.contribution.arrival := by
  unfold slots
  rw [List.map_append]
  exact FirstCome.slots_concat _ _

/-- Whether a contribution has a slot is settled when a part of it first comes. -/
theorem mem_slots_concat {d' : Delivery} (h : d' ∈ ds) :
    d'.contribution.arrival ∈ cfg.slots (ds ++ [d]) ↔ d'.contribution.arrival ∈ cfg.slots ds := by
  unfold slots
  rw [List.map_append]
  exact FirstCome.mem_slots_concat (List.mem_map_of_mem h) _

theorem kept_concat : cfg.kept (ds ++ [d]) part = cfg.kept ds part ++
    if d.part = part ∧ d.contribution.arrival ∈ cfg.slots (ds ++ [d])
    then [d.contribution.clientId] else [] := by
  unfold kept
  rw [List.filter_append, List.map_append]
  congr 1
  · refine congrArg _ (List.filter_congr (fun d' hd' => ?_))
    simp only [mem_slots_concat hd']
  · by_cases h : d.part = part ∧ d.contribution.arrival ∈ cfg.slots (ds ++ [d])
    · rw [if_pos h, List.filter_singleton, decide_eq_true h]
      rfl
    · rw [if_neg h, List.filter_singleton, decide_eq_false h]
      rfl

theorem kept_concat_of_ne (h : d.part ≠ part) : cfg.kept (ds ++ [d]) part = cfg.kept ds part := by
  rw [kept_concat, if_neg (fun hd => h hd.1), List.append_nil]

theorem kept_concat_of_slot (h : d.part = part)
    (hslot : d.contribution.arrival ∈ cfg.slots (ds ++ [d])) :
    cfg.kept (ds ++ [d]) part = cfg.kept ds part ++ [d.contribution.clientId] := by
  rw [kept_concat, if_pos ⟨h, hslot⟩]

theorem kept_concat_of_none (hslot : d.contribution.arrival ∉ cfg.slots (ds ++ [d])) :
    cfg.kept (ds ++ [d]) part = cfg.kept ds part := by
  rw [kept_concat, if_neg (fun hd => hslot hd.2), List.append_nil]

theorem mem_kept {c : ClientId} : c ∈ cfg.kept ds part ↔
    ∃ d ∈ ds, d.part = part ∧ d.contribution.arrival ∈ cfg.slots ds ∧
      d.contribution.clientId = c := by
  unfold kept
  simp only [List.mem_map, List.mem_filter, decide_eq_true_eq, and_assoc]

end ServerConfig

/-- The part of a contribution of the delivery that has the slot of `c`. -/
def Holder (cfg : ServerConfig C) (ds : List Delivery) (part : Part) (c : ClientId)
    (k : Contribution) : Prop :=
  (∃ d ∈ ds, d.part = part ∧ d.contribution = k) ∧ k.clientId = c ∧ k.arrival ∈ cfg.slots ds

/-- What a bucket has after a delivery: its owners are the slots, it has filed what was kept,
and each item is the one of the slot's holder. -/
structure Gathered (cfg : ServerConfig C) (r : Round) (ds : List Delivery) (b : RoundState C) :
    Prop where
  owners : ∀ c signer, b.owners.get? c = some signer ↔ (c, signer) ∈ cfg.slots ds
  size : b.owners.size = (cfg.slots ds).length
  posts : ∀ c, b.publics.contains c = true ↔ c ∈ cfg.kept ds .post
  openings : b.inboxItems.map Prod.fst = cfg.kept ds .opening
  slices : b.laneItems.map Prod.fst = cfg.kept ds .slice
  post : ∀ c e, b.publics.get? c = some e →
    ∃ k, Holder cfg ds .post c k ∧ C.bulletinFromBytes k.entry = some e
  opening : ∀ i ∈ b.inboxItems, ∃ k, Holder cfg ds .opening i.1 k ∧
    C.unsealOpening (C.pke cfg.identity) (cfg.sid r) k.clientId cfg.serverId
      (k.sealed cfg.serverId) = some i.2
  slice : ∀ i ∈ b.laneItems, ∃ k, Holder cfg ds .slice i.1 k ∧
    C.unpackShare (k.share cfg.serverId) cfg.scp.blockLen = some i.2.1 ∧
    C.pathFromBytes cfg.scp cfg.serverId.val (k.path cfg.serverId) = some i.2.2
  quiet : b.emittedMyPublic = false

theorem Holder.concat {c : ClientId} {k : Contribution} (h : Holder cfg ds part c k) :
    Holder cfg (ds ++ [d]) part c k := by
  obtain ⟨⟨d', hd', hpart, rfl⟩, hc, hslot⟩ := h
  exact ⟨⟨d', List.mem_append_left _ hd', hpart, rfl⟩, hc,
    (ServerConfig.mem_slots_concat hd').mpr hslot⟩

/-- The part that just came, of a contribution with a slot, is its holder's. -/
theorem Holder.last (hslot : d.contribution.arrival ∈ cfg.slots (ds ++ [d])) :
    Holder cfg (ds ++ [d]) d.part d.contribution.clientId d.contribution :=
  ⟨⟨d, List.mem_append_right _ (List.mem_singleton_self _), rfl, rfl⟩, rfl, hslot⟩

/-- What a claim makes of the slots. -/
theorem claim_slots (h : Gathered cfg r ds b)
    (hid : clientIdFromPubkey d.contribution.signer = d.contribution.clientId) :
    (d.contribution.arrival ∈ cfg.slots (ds ++ [d]) ∧
      ∃ owners, b.claim d.contribution.clientId d.contribution.signer cfg.admitMax =
        ({ b with owners := owners }, true) ∧
      (∀ c signer, owners.get? c = some signer ↔ (c, signer) ∈ cfg.slots (ds ++ [d])) ∧
      owners.size = (cfg.slots (ds ++ [d])).length) ∨
    (d.contribution.arrival ∉ cfg.slots (ds ++ [d]) ∧ cfg.slots (ds ++ [d]) = cfg.slots ds ∧
      ∃ rejected, b.claim d.contribution.clientId d.contribution.signer cfg.admitMax =
        ({ b with rejected := rejected }, false)) := by
  have key : ∀ {c signer}, b.owners.get? c = some signer → c ∈ (cfg.slots ds).map Prod.fst :=
    fun hget => List.mem_map_of_mem ((h.owners _ _).mp hget)
  rcases ServerSession.claim_cases b d.contribution.clientId d.contribution.signer cfg.admitMax with
    ⟨hclaim, howner⟩ | ⟨hclaim, -, hfree, hroom⟩ | ⟨rejected, hclaim, hwhy⟩
  -- the client holds its slot already
  · have hsame : cfg.slots (ds ++ [d]) = cfg.slots ds := by
      rw [ServerConfig.slots_concat, arrive_of_key (x := d.contribution.arrival) (key howner)]
    refine Or.inl ⟨?_, b.owners, hclaim, ?_, ?_⟩
    · rw [hsame]
      exact (h.owners _ _).mp howner
    · rw [hsame]
      exact h.owners
    · rw [hsame]
      exact h.size
  -- the client is new and there is room
  · have hnew : d.contribution.clientId ∉ (cfg.slots ds).map Prod.fst := by
      intro hmem
      obtain ⟨⟨c, signer⟩, hslot, rfl⟩ := List.mem_map.mp hmem
      rw [← h.owners] at hslot
      rw [hfree] at hslot
      cases hslot
    have hgrown : cfg.slots (ds ++ [d]) = cfg.slots ds ++ [d.contribution.arrival] := by
      rw [ServerConfig.slots_concat]
      exact arrive_of_room hnew (by rw [← h.size]; exact hroom)
    refine Or.inl ⟨?_, _, hclaim, fun c signer => ?_, ?_⟩
    · rw [hgrown]
      exact List.mem_append_right _ (List.mem_singleton_self _)
    · rw [hgrown, OrdMap.get?_insert, List.mem_append, List.mem_singleton]
      split
      · rename_i hc
        subst hc
        unfold Contribution.arrival
        constructor
        · intro hs
          exact Or.inr (by rw [Option.some.inj hs])
        · rintro (hold | hnow)
          · exact absurd (List.mem_map_of_mem hold) hnew
          · rw [(Prod.mk.inj hnow).2]
      · rename_i hc
        rw [h.owners]
        constructor
        · exact Or.inl
        · rintro (hold | hnow)
          · exact hold
          · exact absurd (Prod.mk.inj hnow).1 hc
    · rw [hgrown, List.length_append, List.length_singleton, ← h.size]
      exact (OrdMap.entries_perm_insert hfree).length_eq
  · have hsame : cfg.slots (ds ++ [d]) = cfg.slots ds := by
      rw [ServerConfig.slots_concat]
      -- another signer holds the slot, or every slot is held
      rcases hwhy hid with ⟨owner, howner, -⟩ | ⟨-, hfull⟩
      · exact arrive_of_key (x := d.contribution.arrival) (key howner)
      · exact arrive_of_full _ (by rw [← h.size]; exact hfull)
    refine Or.inr ⟨?_, hsame, rejected, hclaim⟩
    rw [hsame]
    unfold Contribution.arrival
    rw [← h.owners]
    intro howner
    rcases hwhy hid with ⟨owner, hother, hne⟩ | ⟨hfree, -⟩
    · rw [howner] at hother
      exact hne (Option.some.inj hother).symm
    · rw [howner] at hfree
      cases hfree

/-- A key that `any` finds is a key of the list. -/
theorem mem_of_any_fst {α β : Type} [DecidableEq α] {l : List (α × β)} {k : α}
    (h : l.any (fun i => i.1 == k) = true) : k ∈ l.map Prod.fst := by
  obtain ⟨i, hi, hk⟩ := List.any_eq_true.mp h
  rw [← beq_iff_eq.mp hk]
  exact List.mem_map_of_mem hi

namespace Gathered

theorem default (cfg : ServerConfig C) (r : Round) : Gathered cfg r [] RoundState.default := by
  refine ⟨fun c signer => ⟨fun h => (nomatch h), fun h => (nomatch h)⟩, rfl,
    fun c => ⟨fun h => (nomatch h), fun h => (nomatch h)⟩, rfl, rfl, fun c e h => (nomatch h),
    fun i h => (nomatch h), fun i h => (nomatch h), rfl⟩

/-! An item stays its holder's when another part comes. -/

theorem post_concat (h : Gathered cfg r ds b) {c : ClientId} {e : C.ClientEntry}
    (hget : b.publics.get? c = some e) :
    ∃ k, Holder cfg (ds ++ [d]) .post c k ∧ C.bulletinFromBytes k.entry = some e := by
  obtain ⟨k, hk, hread⟩ := h.post c e hget
  exact ⟨k, hk.concat, hread⟩

theorem opening_concat (h : Gathered cfg r ds b) {i : ClientId × C.Opening}
    (hi : i ∈ b.inboxItems) :
    ∃ k, Holder cfg (ds ++ [d]) .opening i.1 k ∧
      C.unsealOpening (C.pke cfg.identity) (cfg.sid r) k.clientId cfg.serverId
        (k.sealed cfg.serverId) = some i.2 := by
  obtain ⟨k, hk, hread⟩ := h.opening i hi
  exact ⟨k, hk.concat, hread⟩

theorem slice_concat (h : Gathered cfg r ds b) {i : ClientId × C.Share × SharePath C.HVCPoly}
    (hi : i ∈ b.laneItems) :
    ∃ k, Holder cfg (ds ++ [d]) .slice i.1 k ∧
      C.unpackShare (k.share cfg.serverId) cfg.scp.blockLen = some i.2.1 ∧
      C.pathFromBytes cfg.scp cfg.serverId.val (k.path cfg.serverId) = some i.2.2 := by
  obtain ⟨k, hk, hread⟩ := h.slice i hi
  exact ⟨k, hk.concat, hread⟩

/-- A part without a slot changes nothing that is gathered. -/
theorem turned (h : Gathered cfg r ds b) {rejected : OrdSet ClientId}
    (hslot : d.contribution.arrival ∉ cfg.slots (ds ++ [d]))
    (hsame : cfg.slots (ds ++ [d]) = cfg.slots ds) :
    Gathered cfg r (ds ++ [d]) { b with rejected := rejected } := by
  have hkept : ∀ part, cfg.kept (ds ++ [d]) part = cfg.kept ds part :=
    fun part => ServerConfig.kept_concat_of_none hslot
  refine ⟨?_, ?_, ?_, ?_, ?_, fun c e => h.post_concat, fun i => h.opening_concat,
    fun i => h.slice_concat, h.quiet⟩
  · rw [hsame]
    exact h.owners
  · rw [hsame]
    exact h.size
  · rw [hkept]
    exact h.posts
  · rw [hkept]
    exact h.openings
  · rw [hkept]
    exact h.slices

/-- No earlier part of this kind has the slot of a part that comes now, when no signer sends
a kind twice. -/
theorem not_kept (hfresh : ∀ d' ∈ ds, d'.part = d.part →
      d'.contribution.signer ≠ d.contribution.signer)
    (hslot : d.contribution.arrival ∈ cfg.slots (ds ++ [d])) :
    d.contribution.clientId ∉ cfg.kept ds d.part := by
  intro hmem
  obtain ⟨d', hd', hpart, hslot', hc⟩ := ServerConfig.mem_kept.mp hmem
  have hslot'' := (ServerConfig.mem_slots_concat (d := d) hd').mpr hslot'
  have heq := eq_of_mem_slots hslot'' hslot hc
  exact hfresh d' hd' hpart (Prod.mk.inj heq).2

section Took
variable {owners : OrdMap ClientId Pubkey} (h : Gathered cfg r ds b)
  (hslot : d.contribution.arrival ∈ cfg.slots (ds ++ [d]))
  (howners : ∀ c signer, owners.get? c = some signer ↔ (c, signer) ∈ cfg.slots (ds ++ [d]))
  (hsize : owners.size = (cfg.slots (ds ++ [d])).length)
include h hslot howners hsize

theorem took_post (hpart : d.part = .post) (hv : d.contribution.Valid r cfg) :
    Gathered cfg r (ds ++ [d])
      (cfg.filePublic r d.contribution.clientId d.contribution.entry
        { b with owners := owners }) := by
  obtain ⟨parsed, hparsed, hok⟩ := hv.posted
  unfold ServerConfig.filePublic
  rw [hparsed]
  dsimp only
  rw [if_pos hok]
  refine ⟨howners, hsize, fun c => ?_, ?_, ?_, fun c e hget => ?_, fun i hi => ?_, fun i hi => ?_,
    h.quiet⟩
  · rw [ServerConfig.kept_concat_of_slot hpart hslot, List.mem_append, List.mem_singleton, ← h.posts,
      OrdMap.contains_insert_iff]
    exact or_comm
  · rw [ServerConfig.kept_concat_of_ne (by rw [hpart]; exact nofun)]
    exact h.openings
  · rw [ServerConfig.kept_concat_of_ne (by rw [hpart]; exact nofun)]
    exact h.slices
  · dsimp only at hget
    rw [OrdMap.get?_insert] at hget
    split at hget
    · rename_i hc
      cases hget
      rw [hc, ← hpart]
      exact ⟨_, .last hslot, hparsed⟩
    · exact h.post_concat hget
  · exact h.opening_concat hi
  · exact h.slice_concat hi

theorem took_opening (hpart : d.part = .opening) (hv : d.contribution.Valid r cfg)
    (hfresh : ∀ d' ∈ ds, d'.part = d.part →
      d'.contribution.signer ≠ d.contribution.signer) :
    Gathered cfg r (ds ++ [d])
      (cfg.fileOpening r d.contribution.clientId (d.contribution.sealed cfg.serverId)
        { b with owners := owners }) := by
  obtain ⟨opening, hopens⟩ := hv.opened
  have hfirst := not_kept hfresh hslot
  rw [hpart, ← h.openings] at hfirst
  unfold ServerConfig.fileOpening
  rw [hopens]
  dsimp only
  rw [if_neg (fun hany => hfirst (mem_of_any_fst hany))]
  refine ⟨howners, hsize, fun c => ?_, ?_, ?_, fun c e hget => ?_, fun i hi => ?_, fun i hi => ?_,
    h.quiet⟩
  · rw [ServerConfig.kept_concat_of_ne (by rw [hpart]; exact nofun)]
    exact h.posts c
  · rw [ServerConfig.kept_concat_of_slot hpart hslot, List.map_append, h.openings]
    rfl
  · rw [ServerConfig.kept_concat_of_ne (by rw [hpart]; exact nofun)]
    exact h.slices
  · exact h.post_concat hget
  · rcases List.mem_append.mp hi with hold | hnew
    · exact h.opening_concat hold
    · rw [List.mem_singleton.mp hnew, ← hpart]
      exact ⟨_, .last hslot, hopens⟩
  · exact h.slice_concat hi

theorem took_slice (hpart : d.part = .slice) (hv : d.contribution.Valid r cfg)
    (hfresh : ∀ d' ∈ ds, d'.part = d.part →
      d'.contribution.signer ≠ d.contribution.signer) :
    Gathered cfg r (ds ++ [d])
      (cfg.fileSlice d.contribution.clientId cfg.serverId (d.contribution.share cfg.serverId)
        (d.contribution.path cfg.serverId) { b with owners := owners }) := by
  obtain ⟨share, path, hshare, hpath⟩ := hv.sliced
  have hfirst := not_kept hfresh hslot
  rw [hpart, ← h.slices] at hfirst
  unfold ServerConfig.fileSlice
  dsimp only
  rw [if_neg (fun hany => hfirst (mem_of_any_fst hany)), hshare, hpath]
  refine ⟨howners, hsize, fun c => ?_, ?_, ?_, fun c e hget => ?_, fun i hi => ?_, fun i hi => ?_,
    h.quiet⟩
  · rw [ServerConfig.kept_concat_of_ne (by rw [hpart]; exact nofun)]
    exact h.posts c
  · rw [ServerConfig.kept_concat_of_ne (by rw [hpart]; exact nofun)]
    exact h.openings
  · rw [ServerConfig.kept_concat_of_slot hpart hslot, List.map_append, h.slices]
    rfl
  · exact h.post_concat hget
  · exact h.opening_concat hi
  · rcases List.mem_append.mp hi with hold | hnew
    · exact h.slice_concat hold
    · rw [List.mem_singleton.mp hnew, ← hpart]
      exact ⟨_, .last hslot, hshare, hpath⟩

end Took

end Gathered

/-! ## A delivery -/

/-- What a part stores, once it has its slot. -/
def Contribution.store (cfg : ServerConfig C) (r : Round) (k : Contribution) (part : Part)
    (b : RoundState C) : RoundState C :=
  match part with
  | .post => cfg.filePublic r k.clientId k.entry b
  | .opening => cfg.fileOpening r k.clientId (k.sealed cfg.serverId) b
  | .slice => cfg.fileSlice k.clientId cfg.serverId (k.share cfg.serverId) (k.path cfg.serverId) b

/-- A valid part is filed: it claims its slot and is stored. -/
theorem file_wire {k : Contribution} (hv : k.Valid r cfg) (sender : PeerId) (payload : Bytes)
    (part : Part) : cfg.file sender payload (k.wire r cfg.serverId part) =
      some (fun b => b.claimed k.clientId k.signer cfg.admitMax
        (fun b => (k.store cfg r part b, []))) := by
  cases part with
  | post => exact if_pos ⟨hv.postLen, hv.signed .post⟩
  | opening => exact if_pos ⟨rfl, hv.signed .opening⟩
  | slice => exact if_pos ⟨rfl, hv.signed .slice, hv.sliceLens⟩

/-- No signer sends a kind of part twice. -/
def Distinct (ds : List Delivery) : Prop :=
  (ds.map (fun d => (d.part, d.contribution.signer))).Nodup

theorem Distinct.fresh {late : List Delivery} (h : Distinct (ds ++ d :: late)) :
    ∀ d' ∈ ds, d'.part = d.part → d'.contribution.signer ≠ d.contribution.signer := by
  intro d' hd' hpart hsigner
  unfold Distinct at h
  rw [List.map_append, List.nodup_append] at h
  exact h.2.2 _ (List.mem_map_of_mem hd') _ (List.mem_map_of_mem (List.mem_cons_self ..))
    (Prod.ext hpart hsigner)

/-- No client is kept twice. -/
theorem Distinct.kept_nodup (h : Distinct ds) (part : Part) : (cfg.kept ds part).Nodup := by
  refine ((h.of_map _).filter _).map_on (fun d hd d' hd' heq => ?_)
  obtain ⟨hmem, hd⟩ := List.mem_filter.mp hd
  obtain ⟨hmem', hd'⟩ := List.mem_filter.mp hd'
  obtain ⟨hpart, hslot⟩ := of_decide_eq_true hd
  obtain ⟨hpart', hslot'⟩ := of_decide_eq_true hd'
  have harrival := eq_of_mem_slots hslot hslot' heq
  exact List.inj_on_of_nodup_map h hmem hmem'
    (Prod.ext (hpart.trans hpart'.symm) (Prod.mk.inj harrival).2)

/-- Complete deliveries are distinct when the contributions have different signers. -/
theorem Complete.distinct {K : List Contribution} (h : Complete K ds)
    (hK : (K.map Contribution.signer).Nodup) : Distinct ds := by
  have hperm := h.map (fun p : Part × Contribution => (p.1, p.2.signer))
  rw [List.map_map, List.map_flatMap] at hperm
  refine hperm.nodup_iff.mpr ?_
  clear h hperm
  induction K with
  | nil => exact List.nodup_nil
  | cons k K ih =>
    rw [List.map_cons, List.nodup_cons] at hK
    rw [List.flatMap_cons, List.nodup_append]
    refine ⟨by simp, ih hK.2, fun x hx y hy heq => hK.1 ?_⟩
    obtain ⟨k', hk', hy⟩ := List.mem_flatMap.mp hy
    have hsigner : x.2 = k.signer := by
      simp at hx
      rcases hx with rfl | rfl | rfl <;> rfl
    have hsigner' : y.2 = k'.signer := by
      simp at hy
      rcases hy with rfl | rfl | rfl <;> rfl
    rw [← hsigner, heq, hsigner']
    exact List.mem_map_of_mem hk'

/-- What is delivered is of the contributions, and all of each is. -/
theorem Complete.mem {K : List Contribution} (h : Complete K ds) (hd : d ∈ ds) :
    d.contribution ∈ K := by
  have hmem := h.subset (List.mem_map_of_mem hd)
  obtain ⟨k, hk, hpart⟩ := List.mem_flatMap.mp hmem
  have heq : d.contribution = k := by
    simp at hpart
    rcases hpart with h | h | h <;> exact h.2
  rw [heq]
  exact hk

theorem Complete.all {K : List Contribution} (h : Complete K ds) {k : Contribution} (hk : k ∈ K)
    (part : Part) : ∃ d ∈ ds, d.part = part ∧ d.contribution = k := by
  have hmem : (part, k) ∈ K.flatMap (fun k => [(Part.post, k), (.opening, k), (.slice, k)]) := by
    refine List.mem_flatMap.mpr ⟨k, hk, ?_⟩
    cases part <;> simp
  obtain ⟨d, hd, heq⟩ := List.mem_map.mp (h.symm.subset hmem)
  cases heq
  exact ⟨d, hd, rfl, rfl⟩

namespace ServerSession
variable {s : ServerSession C}

/-- The bucket of a round, or the fresh one. -/
def bucket (s : ServerSession C) (r : Round) : RoundState C := (s.rounds.get? r).getD .default

/-- A valid part reaches the bucket of its round and nothing else. -/
theorem onInbound_part {k : Contribution} (hadm : s.admits r = true) (hv : k.Valid r cfg)
    (sender : PeerId) (part : Part) :
    (s.onInbound cfg sender (k.wire r cfg.serverId part).serialize).1 =
      { s with
        rounds := s.rounds.insert r
          ((s.bucket r).claimed k.clientId k.signer cfg.admitMax
            (fun b => (k.store cfg r part b, []))).1 } := by
  unfold onInbound
  rw [PanetiereWire.deserialize_serialize (hv.fits part)]
  have hround : (k.wire r cfg.serverId part).round = r := by cases part <;> rfl
  have hfile := file_wire hv sender (k.wire r cfg.serverId part).serialize part
  dsimp only
  rw [hround, if_pos hadm]
  cases part <;>
  · dsimp only [Contribution.wire] at hfile ⊢
    rw [hfile]
    rfl

/-- **One valid part is gathered.** -/
theorem gathered_part (h : Gathered cfg r ds (s.bucket r)) (hadm : s.admits r = true)
    (hv : d.contribution.Valid r cfg)
    (hfresh : ∀ d' ∈ ds, d'.part = d.part →
      d'.contribution.signer ≠ d.contribution.signer) :
    Gathered cfg r (ds ++ [d]) ((s.onInbound cfg d.sender
      (d.contribution.wire r cfg.serverId d.part).serialize).1.bucket r) := by
  rw [onInbound_part hadm hv]
  unfold bucket
  dsimp only
  rw [OrdMap.get?_insert, if_pos rfl, Option.getD_some]
  unfold RoundState.claimed
  rcases claim_slots h hv.derived with
    ⟨hslot, owners, hclaim, howners, hsize⟩ | ⟨hslot, hsame, rejected, hclaim⟩
  · rw [show (s.rounds.get? r).getD RoundState.default = s.bucket r from rfl, hclaim]
    dsimp only
    rw [if_pos rfl]
    unfold Contribution.store
    cases hpart : d.part with
    | post => exact h.took_post hslot howners hsize hpart hv
    | opening => exact h.took_opening hslot howners hsize hpart hv hfresh
    | slice => exact h.took_slice hslot howners hsize hpart hv hfresh
  · rw [show (s.rounds.get? r).getD RoundState.default = s.bucket r from rfl, hclaim]
    exact h.turned hslot hsame

/-- A delivery touches the buckets only. -/
theorem deliver_frame (ds : List Delivery) : ∀ {s : ServerSession C}, s.admits r = true →
    (∀ d ∈ ds, d.contribution.Valid r cfg) →
    deliver cfg r ds s = { s with rounds := (deliver cfg r ds s).rounds } := by
  induction ds with
  | nil => exact fun _ _ => rfl
  | cons d ds ih =>
    intro s hadm hv
    have hone := onInbound_part hadm (hv d (List.mem_cons_self ..)) d.sender d.part
    have hrest := ih (s := (s.onInbound cfg d.sender
      (d.contribution.wire r cfg.serverId d.part).serialize).1)
      (by rw [hone]; exact hadm) (fun d' hd' => hv d' (List.mem_cons_of_mem _ hd'))
    rw [show deliver cfg r (d :: ds) s = deliver cfg r ds (s.onInbound cfg d.sender
      (d.contribution.wire r cfg.serverId d.part).serialize).1 from rfl, hrest, hone]

/-- **A delivery is gathered.** -/
theorem gathered_deliver (late : List Delivery) : ∀ {ds : List Delivery} {s : ServerSession C},
    Gathered cfg r ds (s.bucket r) → s.admits r = true →
    (∀ d ∈ late, d.contribution.Valid r cfg) → Distinct (ds ++ late) →
    Gathered cfg r (ds ++ late) ((deliver cfg r late s).bucket r) := by
  induction late with
  | nil =>
    intro ds s h _ _ _
    rw [List.append_nil]
    exact h
  | cons d late ih =>
    intro ds s h hadm hv hdist
    have hd := hv d (List.mem_cons_self ..)
    have hnext := gathered_part h hadm hd hdist.fresh
    have happ : ds ++ d :: late = ds ++ [d] ++ late := by simp
    rw [happ] at hdist ⊢
    have hadm' : (s.onInbound cfg d.sender
        (d.contribution.wire r cfg.serverId d.part).serialize).1.admits r = true := by
      rw [onInbound_part hadm hd]
      exact hadm
    exact ih hnext hadm' (fun d' hd' => hv d' (List.mem_cons_of_mem _ hd')) hdist

end ServerSession
end Anymone
