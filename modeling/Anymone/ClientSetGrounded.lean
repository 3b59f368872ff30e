import Anymone.ClientSetServer

/-! # What a server holds, and why

A hash in `accepted` stands for an item the server was shown, and the item's
place is filled: the lane of a batch has a batch, the index of a fragment has a
fragment.  A stored batch verifies under its lane's key and its hash is
accepted; a stored fragment is signed by a key its client posted.  `Grounded`
states this relative to the items shown so far, and every operation keeps it,
with the operation's own inputs added to what was shown (`Grounded.apply`).

The operations come together as `SetOp`, the calls a lane makes on its server.
-/

namespace Anymone
variable {C : SetCrate}

/-- The calls made on a server. -/
inductive SetOp (C : SetCrate) where
  | receive (b : Bundle C)
  | noteBulletin (cid : ClientId) (pk : C.Pk)
  | submit (fragments : List (Fragment C))
  | originate
  | absorb (round : Nat) (incoming : List (Relay C))

namespace SetServer

/-- The state and the relays sent out after one call. -/
def apply (s : SetServer C) (sid : SessionId) : SetOp C → SetServer C × List (Relay C)
  | .receive b => ((s.receive sid b).1, [])
  | .noteBulletin cid pk => (s.noteBulletin cid pk, [])
  | .submit fragments => s.submit sid fragments
  | .originate => s.originate sid
  | .absorb round incoming => s.absorb sid round incoming

/-- The items a call shows the server: its inputs, and its own batch when it
originates. -/
def shown (s : SetServer C) (sid : SessionId) : SetOp C → List (RelayItem C)
  | .receive _ => []
  | .noteBulletin _ _ => []
  | .submit fragments => fragments.map .fragment
  | .originate => [.batch (s.batch sid)]
  | .absorb _ incoming => incoming.map Relay.item

/-- The item's place is filled: its lane has a batch, its index a fragment. -/
def Holds (s : SetServer C) : RelayItem C → Prop
  | .batch b => ∃ b', s.batches.get? b.serverId = some b'
  | .fragment f => f.idx < s.nLanes ∧ ∃ f', s.fragment? f.clientId f.idx = some f'

/-- `cid` posted `pk`. -/
def Posted (s : SetServer C) (cid : ClientId) (pk : C.Pk) : Prop :=
  ∃ posted, s.bulletins.get? cid = some posted ∧ posted.contains pk = true

/-- The fragment is for a lane and signed by a key its client posted. -/
def SignedByPosted (s : SetServer C) (sid : SessionId) (f : Fragment C) : Prop :=
  f.idx < s.nLanes ∧ ∃ pk vk, s.Posted f.clientId pk ∧ C.fromSec1Bytes pk = some vk ∧
    C.verify vk (fragmentSigningBytes sid f.clientId f.idx f.data) f.sig = true

theorem reportedKey_eq_some {s : SetServer C} {cid : ClientId} {pk : C.Pk}
    (h : s.reportedKey cid = some pk) :
    ∃ posted, s.bulletins.get? cid = some posted ∧ posted.keys = [pk] := by
  unfold reportedKey at h
  cases hb : s.bulletins.get? cid with
  | none => simp [hb] at h
  | some posted =>
    rw [hb] at h
    dsimp only at h
    split_ifs at h with hsize
    have hlen : posted.keys.length = 1 := by rw [← hsize]; exact List.length_map ..
    obtain ⟨pk', hpk'⟩ := List.length_eq_one_iff.mp hlen
    rw [hpk'] at h
    exact ⟨posted, rfl, by rw [hpk']; simpa using h⟩

theorem posted_of_reportedKey {s : SetServer C} {cid : ClientId} {pk : C.Pk}
    (h : s.reportedKey cid = some pk) : s.Posted cid pk := by
  obtain ⟨posted, hp, hk⟩ := reportedKey_eq_some h
  refine ⟨posted, hp, OrdMap.contains_iff.mpr (OrdMap.mem_keys.mp ?_)⟩
  rw [hk]
  exact List.mem_singleton_self pk

/-- A client with one reported key posted no other. -/
theorem eq_of_reportedKey_of_posted {s : SetServer C} {cid : ClientId} {pk pk' : C.Pk}
    (h : s.reportedKey cid = some pk) (h' : s.Posted cid pk') : pk' = pk := by
  obtain ⟨posted, hp, hk⟩ := reportedKey_eq_some h
  obtain ⟨posted', hp', hc⟩ := h'
  rw [hp] at hp'
  cases hp'
  have := OrdMap.mem_keys.mpr (OrdMap.contains_iff.mp hc)
  rw [hk] at this
  exact List.mem_singleton.mp this

theorem fragmentOk_iff {s : SetServer C} {sid : SessionId} {f : Fragment C} :
    s.fragmentOk sid f = true ↔ f.idx < s.nLanes ∧ s.fragment? f.clientId f.idx = none ∧
      ∃ pk vk, s.reportedKey f.clientId = some pk ∧ C.fromSec1Bytes pk = some vk ∧
        C.verify vk (fragmentSigningBytes sid f.clientId f.idx f.data) f.sig = true := by
  unfold fragmentOk
  cases hk : s.reportedKey f.clientId with
  | none => simp
  | some pk =>
    cases hv : C.fromSec1Bytes pk with
    | none => simp [hv]
    | some vk => simp [hv, and_assoc]

theorem signedByPosted_of_fragmentOk {s : SetServer C} {sid : SessionId} {f : Fragment C}
    (h : s.fragmentOk sid f = true) : s.SignedByPosted sid f := by
  obtain ⟨hidx, -, pk, vk, hpk, hvk, hv⟩ := fragmentOk_iff.mp h
  exact ⟨hidx, pk, vk, posted_of_reportedKey hpk, hvk, hv⟩

/-! ## Storing fragments -/

theorem fragment?_storeFragment (sid : SessionId) (acc : SetServer C × List (Fragment C))
    (f : Fragment C) (cid : ClientId) (idx : Nat) :
    (storeFragment sid acc f).1.fragment? cid idx =
      if cid = f.clientId ∧ idx = f.idx then some f else acc.1.fragment? cid idx := by
  have hfrag : (storeFragment sid acc f).1.fragments = acc.1.fragments.insert f.clientId
      (((acc.1.fragments.get? f.clientId).getD .empty).insert f.idx f) := by
    unfold storeFragment
    dsimp only
    split <;> rfl
  unfold fragment?
  rw [hfrag, OrdMap.get?_insert]
  by_cases hc : cid = f.clientId
  · subst hc
    rw [if_pos rfl, Option.bind_some, OrdMap.get?_insert]
    by_cases hi : idx = f.idx
    · rw [if_pos hi, if_pos ⟨rfl, hi⟩]
    · rw [if_neg hi, if_neg (fun h => hi h.2)]
      cases acc.1.fragments.get? f.clientId <;> rfl
  · rw [if_neg hc, if_neg (fun h => hc h.1)]

theorem isNone_slot (s : SetServer C) (f : Fragment C) :
    (((s.fragments.get? f.clientId).getD .empty).get? f.idx).isNone = true ↔
      s.fragment? f.clientId f.idx = none := by
  unfold fragment?
  cases s.fragments.get? f.clientId <;> simp

theorem accepted_storeFragment (sid : SessionId) (acc : SetServer C × List (Fragment C))
    (f : Fragment C) (h : Digest) :
    (storeFragment sid acc f).1.accepted.contains h = true ↔
      acc.1.accepted.contains h = true ∨
        (acc.1.fragment? f.clientId f.idx = none ∧ h = (RelayItem.fragment f).hash sid) := by
  rw [← isNone_slot, storeFragment]
  dsimp only
  by_cases hn : (((acc.1.fragments.get? f.clientId).getD .empty).get? f.idx).isNone = true
  · rw [if_pos hn]
    simp [hn, or_comm]
  · rw [if_neg hn]
    simp [hn]

/-- A fragment leaves the loop as fresh exactly when its index was free and its
hash new. -/
theorem mem_fresh_storeFragment {sid : SessionId} {acc : SetServer C × List (Fragment C)}
    {f g : Fragment C} : g ∈ (storeFragment sid acc f).2 ↔ g ∈ acc.2 ∨
      (g = f ∧ acc.1.fragment? f.clientId f.idx = none ∧
        acc.1.accepted.contains ((RelayItem.fragment f).hash sid) = false) := by
  rw [← isNone_slot, storeFragment]
  dsimp only
  by_cases hn : (((acc.1.fragments.get? f.clientId).getD .empty).get? f.idx).isNone = true
  · rw [if_pos hn]
    dsimp only
    by_cases hc : acc.1.accepted.contains ((RelayItem.fragment f).hash sid) = true
    · rw [if_pos hc]
      simp [hc]
    · rw [if_neg hc]
      simp [hn, hc]
  · rw [if_neg hn]
    simp [hn]

/-! ## Grounded states -/

/-- Everything the server accepted or stored comes from the items it was shown,
and what it stored is signed. -/
structure Grounded (sid : SessionId) (seen : List (RelayItem C)) (s : SetServer C) : Prop where
  accepted : ∀ h, s.accepted.contains h = true → ∃ x ∈ seen, x.hash sid = h ∧ s.Holds x
  batch : ∀ l b, s.batches.get? l = some b → b.serverId = l ∧ .batch b ∈ seen ∧
    b.verify sid s.serverPks = true ∧ s.accepted.contains ((RelayItem.batch b).hash sid) = true
  fragment : ∀ cid idx f, s.fragment? cid idx = some f → f.clientId = cid ∧ f.idx = idx ∧
    .fragment f ∈ seen ∧ s.SignedByPosted sid f

section Grounding
variable {sid : SessionId} {seen : List (RelayItem C)} {s : SetServer C}

theorem Grounded.mono {seen' : List (RelayItem C)} (h : Grounded sid seen s) (hs : seen ⊆ seen') :
    Grounded sid seen' s where
  accepted d hd := by
    obtain ⟨x, hx, heq, hh⟩ := h.accepted d hd
    exact ⟨x, hs hx, heq, hh⟩
  batch l b hb := by
    obtain ⟨hl, hx, hv⟩ := h.batch l b hb
    exact ⟨hl, hs hx, hv⟩
  fragment cid idx f hf := by
    obtain ⟨hc, hi, hx, hp⟩ := h.fragment cid idx f hf
    exact ⟨hc, hi, hs hx, hp⟩

theorem grounded_new (pp : ProtocolParams) (i : ServerId) (signer : C.SigningKey)
    (pks : List C.VerifyingKey) : Grounded sid [] (SetServer.new pp i signer pks) where
  accepted d hd := by simp [SetServer.new] at hd
  batch l b hb := by simp [SetServer.new] at hb
  fragment cid idx f hf := by simp [SetServer.new, fragment?] at hf

theorem Grounded.receive (h : Grounded sid seen s) (b : Bundle C) :
    Grounded sid seen (s.receive sid b).1 := by
  rw [receive_frame]
  exact ⟨h.accepted, h.batch, h.fragment⟩

theorem posted_noteBulletin {cid c : ClientId} {pk p : C.Pk} (h : s.Posted c p) :
    (s.noteBulletin cid pk).Posted c p := by
  obtain ⟨posted, hp, hc⟩ := h
  unfold Posted noteBulletin
  dsimp only
  rw [OrdMap.get?_insert]
  by_cases he : c = cid
  · subst he
    refine ⟨_, if_pos rfl, OrdSet.contains_add_of_contains ?_⟩
    rw [hp]
    exact hc
  · exact ⟨posted, (if_neg he).trans hp, hc⟩

theorem Grounded.noteBulletin (h : Grounded sid seen s) (cid : ClientId) (pk : C.Pk) :
    Grounded sid seen (s.noteBulletin cid pk) where
  accepted := h.accepted
  batch := h.batch
  fragment c idx f hf := by
    obtain ⟨hc, hi, hx, hlt, p, vk, hp, hv⟩ := h.fragment c idx f hf
    exact ⟨hc, hi, hx, hlt, p, vk, posted_noteBulletin hp, hv⟩

/-- A filled place stays filled while fragments are stored. -/
theorem holds_storeFragment {acc : SetServer C × List (Fragment C)} (f : Fragment C)
    {x : RelayItem C} (h : acc.1.Holds x) : (storeFragment sid acc f).1.Holds x := by
  cases x with
  | batch b =>
    rw [storeFragment_frame]
    exact h
  | fragment g =>
    obtain ⟨hlt, g', hg⟩ := h
    refine ⟨by rw [storeFragment_frame]; exact hlt, ?_⟩
    rw [fragment?_storeFragment]
    split_ifs with he
    · exact ⟨f, rfl⟩
    · exact ⟨g', hg⟩

theorem Grounded.storeFragment {acc : SetServer C × List (Fragment C)} {f : Fragment C}
    (h : Grounded sid seen acc.1) (hf : RelayItem.fragment f ∈ seen)
    (hsig : acc.1.SignedByPosted sid f) : Grounded sid seen (storeFragment sid acc f).1 where
  accepted d hd := by
    rcases (accepted_storeFragment sid acc f d).mp hd with hd | ⟨-, rfl⟩
    · obtain ⟨x, hx, heq, hh⟩ := h.accepted d hd
      exact ⟨x, hx, heq, holds_storeFragment f hh⟩
    · refine ⟨.fragment f, hf, rfl, by rw [storeFragment_frame]; exact hsig.1, f, ?_⟩
      rw [fragment?_storeFragment, if_pos ⟨rfl, rfl⟩]
  batch l b hb := by
    have hacc := (accepted_storeFragment sid acc f ((RelayItem.batch b).hash sid)).mpr
    rw [storeFragment_frame] at hb ⊢
    obtain ⟨hl, hx, hv, ha⟩ := h.batch l b hb
    exact ⟨hl, hx, hv, hacc (Or.inl ha)⟩
  fragment c idx g hg := by
    rw [fragment?_storeFragment] at hg
    rw [storeFragment_frame]
    split_ifs at hg with he
    · cases hg
      exact ⟨he.1.symm, he.2.symm, hf, hsig⟩
    · exact h.fragment c idx g hg

theorem Grounded.foldl_storeFragment {fs : List (Fragment C)} :
    ∀ {acc : SetServer C × List (Fragment C)}, Grounded sid seen acc.1 →
      (∀ f ∈ fs, RelayItem.fragment f ∈ seen ∧ acc.1.SignedByPosted sid f) →
      Grounded sid seen (fs.foldl (SetServer.storeFragment sid) acc).1 := by
  induction fs with
  | nil => exact fun h _ => h
  | cons f fs ih =>
    intro acc h hfs
    obtain ⟨hf, hsig⟩ := hfs f (List.mem_cons_self ..)
    refine ih (h.storeFragment hf hsig) (fun g hg => ?_)
    obtain ⟨hgs, hgsig⟩ := hfs g (List.mem_cons_of_mem _ hg)
    rw [storeFragment_frame]
    exact ⟨hgs, hgsig⟩

theorem Grounded.acceptFragments (h : Grounded sid seen s) {fs : List (Fragment C)}
    (hfs : ∀ f ∈ fs, RelayItem.fragment f ∈ seen) :
    Grounded sid seen (s.acceptFragments sid fs).1 := by
  refine Grounded.foldl_storeFragment h (fun f hf => ?_)
  obtain ⟨hf, hok⟩ := List.mem_filter.mp hf
  exact ⟨hfs f hf, signedByPosted_of_fragmentOk hok⟩

theorem acceptItem_batch (b : ReceiptBatch C) : s.acceptItem sid (.batch b) =
    if b.verify sid s.serverPks = true then
      { s with
        batches := s.batches.orInsert b.serverId b
        accepted := s.accepted.add ((RelayItem.batch b).hash sid) }
    else s := by
  unfold SetServer.acceptItem SetServer.acceptBatch
  dsimp only
  split <;> rfl

theorem holds_orInsert {b : ReceiptBatch C} {d : Digest} {x : RelayItem C} (h : s.Holds x) :
    { s with batches := s.batches.orInsert b.serverId b, accepted := s.accepted.add d }.Holds x := by
  cases x with
  | batch b' =>
    obtain ⟨b'', hb⟩ := h
    refine ⟨if b'.serverId = b.serverId then (s.batches.get? b.serverId).getD b else b'', ?_⟩
    rw [OrdMap.get?_orInsert]
    split_ifs
    · rfl
    · exact hb
  | fragment f => exact h

/-- A batch that verifies is the first of its lane or leaves the lane alone; in
both cases its hash is accepted next. -/
theorem Grounded.acceptItem_batch (h : Grounded sid seen s) {b : ReceiptBatch C}
    (hb : RelayItem.batch b ∈ seen) : Grounded sid seen (s.acceptItem sid (.batch b)) := by
  rw [SetServer.acceptItem_batch]
  by_cases hv : b.verify sid s.serverPks = true
  · rw [if_pos hv]
    refine ⟨fun d hd => ?_, fun l b' hb' => ?_, h.fragment⟩
    · rcases OrdSet.contains_add_iff.mp hd with rfl | hd
      · refine ⟨_, hb, rfl, (s.batches.get? b.serverId).getD b, ?_⟩
        rw [OrdMap.get?_orInsert, if_pos rfl]
      · obtain ⟨x, hx, heq, hh⟩ := h.accepted d hd
        exact ⟨x, hx, heq, holds_orInsert hh⟩
    · have old : ∀ b', s.batches.get? l = some b' → b'.serverId = l ∧ .batch b' ∈ seen ∧
          b'.verify sid s.serverPks = true ∧ (s.accepted.add ((RelayItem.batch b).hash sid)).contains
            ((RelayItem.batch b').hash sid) = true := by
        intro b' hb'
        obtain ⟨hl, hx, hv', ha⟩ := h.batch l b' hb'
        exact ⟨hl, hx, hv', OrdSet.contains_add_of_contains ha⟩
      dsimp only at hb'
      rw [OrdMap.get?_orInsert] at hb'
      split_ifs at hb' with hl
      · subst hl
        cases hold : s.batches.get? b.serverId with
        | none =>
          rw [hold] at hb'
          cases hb'
          exact ⟨rfl, hb, hv, OrdSet.contains_add_self _ _⟩
        | some b'' =>
          rw [hold] at hb'
          cases hb'
          exact old _ hold
      · exact old b' hb'
  · rw [if_neg hv]
    exact h

theorem Grounded.acceptItem (h : Grounded sid seen s) {x : RelayItem C} (hx : x ∈ seen) :
    Grounded sid seen (s.acceptItem sid x) := by
  cases x with
  | batch b => exact h.acceptItem_batch hx
  | fragment f =>
    refine h.acceptFragments (fun g hg => ?_)
    rw [List.mem_singleton.mp hg]
    exact hx

theorem Grounded.foldl_absorbOne {round : Nat} {rs : List (Relay C)} :
    ∀ {acc : SetServer C × List (Relay C)}, Grounded sid seen acc.1 →
      (∀ r ∈ rs, r.item ∈ seen) →
      Grounded sid seen (rs.foldl (absorbOne sid round) acc).1 := by
  induction rs with
  | nil => exact fun h _ => h
  | cons r rs ih =>
    intro acc h hrs
    refine ih ?_ (fun q hq => hrs q (List.mem_cons_of_mem _ hq))
    unfold absorbOne
    dsimp only
    split
    · exact h
    · exact h.acceptItem (hrs r (List.mem_cons_self ..))

theorem mem_absorb_order {incoming : List (Relay C)} {r : Relay C} :
    r ∈ incoming.filter (fun r => r.item.isBatch) ++ incoming.filter (fun r => !r.item.isBatch) ↔
      r ∈ incoming := by
  simp only [List.mem_append, List.mem_filter, Bool.not_eq_true']
  cases r.item.isBatch <;> simp

theorem Grounded.absorb (h : Grounded sid seen s) {round : Nat} {incoming : List (Relay C)}
    (hin : ∀ r ∈ incoming, r.item ∈ seen) : Grounded sid seen (s.absorb sid round incoming).1 :=
  Grounded.foldl_absorbOne h (fun r hr => hin r (mem_absorb_order.mp hr))

/-- The lane's own key is the one its signer signs under. -/
def OwnKey (s : SetServer C) : Prop :=
  s.serverPks[s.serverId.val]? = some (C.verifyingKey s.signer)

theorem batch_verify (hk : s.OwnKey) : (s.batch sid).verify sid s.serverPks = true := by
  unfold ReceiptBatch.verify
  rw [show (s.batch sid).serverId = s.serverId from rfl, hk]
  exact C.verify_sign _ _

theorem contains_foldl_add {α : Type} (f : α → Digest) (d : Digest) :
    ∀ (l : List α) (acc : OrdSet Digest),
      (l.foldl (fun acc x => acc.add (f x)) acc).contains d = true ↔
        acc.contains d = true ∨ ∃ x ∈ l, f x = d
  | [], acc => by simp
  | x :: l, acc => by
      rw [List.foldl_cons, contains_foldl_add f d l, OrdSet.contains_add_iff, List.exists_mem_cons_iff,
        or_comm (a := d = f x), or_assoc, eq_comm (a := d)]

theorem mem_storedFragments {f : Fragment C} :
    f ∈ s.storedFragments ↔ ∃ cid idx, s.fragment? cid idx = some f := by
  unfold storedFragments fragment?
  rw [List.mem_flatMap]
  constructor
  · rintro ⟨held, hheld, hf⟩
    obtain ⟨cid, hcid⟩ := OrdMap.mem_values.mp hheld
    obtain ⟨idx, hidx⟩ := OrdMap.mem_values.mp hf
    exact ⟨cid, idx, by rw [hcid]; exact hidx⟩
  · rintro ⟨cid, idx, hf⟩
    obtain ⟨held, hheld, hidx⟩ := Option.bind_eq_some_iff.mp hf
    exact ⟨held, OrdMap.mem_values.mpr ⟨cid, hheld⟩, OrdMap.mem_values.mpr ⟨idx, hidx⟩⟩

/-- The items `originate` sends out. -/
def originated (s : SetServer C) (sid : SessionId) : List (RelayItem C) :=
  .batch (s.batch sid) :: s.storedFragments.map .fragment

theorem originate_eq : s.originate sid =
    ({ s with
        relaying := true
        batches := s.batches.insert s.serverId (s.batch sid)
        accepted := (s.originated sid).foldl (fun acc x => acc.add (x.hash sid)) s.accepted },
      (s.originated sid).map (s.firstLink sid)) := rfl

theorem accepted_originate {d : Digest} : (s.originate sid).1.accepted.contains d = true ↔
    s.accepted.contains d = true ∨ ∃ x ∈ s.originated sid, x.hash sid = d :=
  contains_foldl_add (fun x : RelayItem C => x.hash sid) d (s.originated sid) s.accepted

theorem holds_originate {x : RelayItem C} (h : s.Holds x) : (s.originate sid).1.Holds x := by
  cases x with
  | batch b =>
    obtain ⟨b', hb⟩ := h
    refine ⟨if b.serverId = s.serverId then s.batch sid else b', ?_⟩
    rw [originate_eq, OrdMap.get?_insert]
    split_ifs
    · rfl
    · exact hb
  | fragment f => exact h

theorem holds_originated (h : Grounded sid seen s) {x : RelayItem C}
    (hx : x ∈ s.originated sid) : (s.originate sid).1.Holds x := by
  rcases List.mem_cons.mp hx with rfl | hx
  · exact ⟨s.batch sid, by rw [originate_eq, OrdMap.get?_insert]; exact if_pos rfl⟩
  · obtain ⟨f, hf, rfl⟩ := List.mem_map.mp hx
    obtain ⟨cid, idx, hf⟩ := mem_storedFragments.mp hf
    obtain ⟨rfl, rfl, -, hsig⟩ := h.fragment cid idx f hf
    exact ⟨hsig.1, f, hf⟩

theorem Grounded.originate (h : Grounded sid seen s) (hk : s.OwnKey)
    (hown : RelayItem.batch (s.batch sid) ∈ seen) : Grounded sid seen (s.originate sid).1 where
  accepted d hd := by
    rcases accepted_originate.mp hd with hd | ⟨x, hx, rfl⟩
    · obtain ⟨x, hx, heq, hh⟩ := h.accepted d hd
      exact ⟨x, hx, heq, holds_originate hh⟩
    · refine ⟨x, ?_, rfl, holds_originated h hx⟩
      rcases List.mem_cons.mp hx with rfl | hx
      · exact hown
      · obtain ⟨f, hf, rfl⟩ := List.mem_map.mp hx
        obtain ⟨cid, idx, hf⟩ := mem_storedFragments.mp hf
        exact (h.fragment cid idx f hf).2.2.1
  batch l b hb := by
    rw [originate_eq, OrdMap.get?_insert] at hb
    split_ifs at hb with hl
    · cases hb
      exact ⟨hl.symm, hown, batch_verify hk,
        accepted_originate.mpr (Or.inr ⟨_, List.mem_cons_self .., rfl⟩)⟩
    · obtain ⟨hl, hx, hv, ha⟩ := h.batch l b hb
      exact ⟨hl, hx, hv, accepted_originate.mpr (Or.inl ha)⟩
  fragment := h.fragment

/-- **Every call keeps a server grounded**, in what it was shown before and what
the call shows it. -/
theorem Grounded.apply (h : Grounded sid seen s) (hk : s.OwnKey) (op : SetOp C) :
    Grounded sid (seen ++ s.shown sid op) (s.apply sid op).1 := by
  have h' := h.mono (List.subset_append_left seen (s.shown sid op))
  have hmem : ∀ x ∈ s.shown sid op, x ∈ seen ++ s.shown sid op :=
    fun x hx => List.mem_append_right seen hx
  cases op with
  | receive b => exact h'.receive b
  | noteBulletin cid pk => exact h'.noteBulletin cid pk
  | submit fs => exact h'.acceptFragments (fun f hf => hmem _ (List.mem_map_of_mem hf))
  | originate => exact h'.originate hk (hmem _ (List.mem_singleton_self _))
  | absorb round incoming => exact h'.absorb (fun r hr => hmem _ (List.mem_map_of_mem hr))

end Grounding

end SetServer
end Anymone
