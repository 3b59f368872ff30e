import Anymone.ClientSetGrounded
import Mathlib.Data.List.Nodup

/-! # What a call sends out

The relay half of a server.  A call only ever adds to what the server has
(`SetServer.Le`), every relay it sends is one of three shapes (`Sent`), and the
two directions of the flood are:

* whatever a call newly takes, it sends out (`sent_of_newly_accepted`,
  `sent_of_newly_taken`);
* an item that comes in under enough links is taken (`absorb_accepts_batch`,
  `absorb_takes_fragment`).

A fragment counts as taken when its index is, whichever fragment sits there: the
index is what the server refuses to fill twice.
-/

namespace Anymone
variable {C : SetCrate}

namespace SetServer

/-! ## Chains -/

section Chains
variable (s : SetServer C)

/-- The link is signed by the lane it names. -/
def ValidLink (msg : Bytes) (j : Nat) (link : ServerId × C.Sig) : Prop :=
  link.1.val = j ∧ ∃ vk, s.serverPks[j]? = some vk ∧ C.verify vk msg link.2 = true

theorem mem_chainStep {msg : Bytes} {seen : List Nat} {link : ServerId × C.Sig} {j : Nat} :
    j ∈ s.chainStep msg seen link ↔ j ∈ seen ∨ s.ValidLink msg j link := by
  unfold chainStep ValidLink
  cases hvk : s.serverPks[link.1.val]? with
  | none =>
    refine ⟨Or.inl, fun h => h.resolve_right ?_⟩
    rintro ⟨rfl, vk, hvk', -⟩
    rw [hvk] at hvk'
    cases hvk'
  | some vk =>
    dsimp only
    split_ifs with h
    · rw [List.mem_cons]
      constructor
      · rintro (rfl | hj)
        · exact Or.inr ⟨rfl, vk, hvk, h.2⟩
        · exact Or.inl hj
      · rintro (hj | ⟨rfl, -⟩)
        · exact Or.inr hj
        · exact Or.inl rfl
    · refine ⟨Or.inl, fun hj => hj.elim id ?_⟩
      rintro ⟨rfl, vk', hvk', hv⟩
      rw [hvk] at hvk'
      cases hvk'
      exact by_contra fun hn => h ⟨hn, hv⟩

theorem chainStep_nodup {msg : Bytes} {seen : List Nat} (link : ServerId × C.Sig)
    (h : seen.Nodup) : (s.chainStep msg seen link).Nodup := by
  unfold chainStep
  cases s.serverPks[link.1.val]? with
  | none => exact h
  | some vk =>
    dsimp only
    split_ifs with hc
    · exact List.nodup_cons.mpr ⟨hc.1, h⟩
    · exact h

theorem mem_foldl_chainStep {msg : Bytes} {j : Nat} (chain : List (ServerId × C.Sig)) :
    ∀ {seen : List Nat}, j ∈ chain.foldl (s.chainStep msg) seen ↔
      j ∈ seen ∨ ∃ link ∈ chain, s.ValidLink msg j link := by
  induction chain with
  | nil => simp
  | cons link chain ih =>
    intro seen
    rw [List.foldl_cons, ih, mem_chainStep, List.exists_mem_cons_iff, or_assoc]

theorem foldl_chainStep_nodup {msg : Bytes} (chain : List (ServerId × C.Sig)) :
    ∀ {seen : List Nat}, seen.Nodup → (chain.foldl (s.chainStep msg) seen).Nodup := by
  induction chain with
  | nil => exact id
  | cons link chain ih => exact fun h => ih (s.chainStep_nodup link h)

/-- **The lanes a chain counts are the ones with a valid link in it.** -/
theorem mem_chainSeen {sid : SessionId} {d : Digest} {chain : List (ServerId × C.Sig)} {j : Nat} :
    j ∈ s.chainSeen sid d chain ↔ ∃ link ∈ chain, s.ValidLink (relaySigningBytes sid d) j link := by
  unfold chainSeen
  rw [mem_foldl_chainStep]
  simp

theorem chainSeen_nodup (sid : SessionId) (d : Digest) (chain : List (ServerId × C.Sig)) :
    (s.chainSeen sid d chain).Nodup :=
  s.foldl_chainStep_nodup chain List.nodup_nil

theorem chainSeen_congr {s s' : SetServer C} (h : s'.serverPks = s.serverPks) (sid : SessionId)
    (d : Digest) (chain : List (ServerId × C.Sig)) :
    s'.chainSeen sid d chain = s.chainSeen sid d chain := by
  unfold chainSeen
  congr 1
  funext seen link
  unfold chainStep
  rw [h]

theorem own_mem_chainSeen (hk : s.OwnKey) (sid : SessionId) (d : Digest)
    {chain : List (ServerId × C.Sig)}
    (h : (s.serverId, C.sign s.signer (relaySigningBytes sid d)) ∈ chain) :
    s.serverId.val ∈ s.chainSeen sid d chain :=
  s.mem_chainSeen.mpr ⟨_, h, rfl, _, hk, C.verify_sign _ _⟩

theorem own_mem_extend (hk : s.OwnKey) (sid : SessionId) (r : Relay C) :
    s.serverId.val ∈ s.chainSeen sid (r.item.hash sid) (s.extend sid r).chain :=
  s.own_mem_chainSeen hk sid _ (List.mem_append_right _ (List.mem_singleton_self _))

/-- **An extended chain counts one lane more**, when the extending lane was not
counted before.  Its own stale links are dropped, so only others' links have to
survive. -/
theorem chainLen_extend (hk : s.OwnKey) {sid : SessionId} {r : Relay C}
    (hown : s.serverId.val ∉ s.chainSeen sid (r.item.hash sid) r.chain) :
    s.chainLen sid (r.item.hash sid) r.chain + 1 ≤
      s.chainLen sid (r.item.hash sid) (s.extend sid r).chain := by
  have hnd : (s.serverId.val :: s.chainSeen sid (r.item.hash sid) r.chain).Nodup :=
    List.nodup_cons.mpr ⟨hown, s.chainSeen_nodup _ _ _⟩
  have hsub : s.serverId.val :: s.chainSeen sid (r.item.hash sid) r.chain ⊆
      s.chainSeen sid (r.item.hash sid) (s.extend sid r).chain := by
    intro j hj
    rcases List.mem_cons.mp hj with rfl | hj
    · exact s.own_mem_extend hk sid r
    · obtain ⟨link, hlink, hv⟩ := s.mem_chainSeen.mp hj
      refine s.mem_chainSeen.mpr ⟨link, List.mem_append_left _ (List.mem_filter.mpr ⟨hlink, ?_⟩), hv⟩
      refine decide_eq_true fun he => hown ?_
      rw [← he, hv.1]
      exact hj
  exact (List.subperm_of_subset hnd hsub).length_le

theorem chainLen_firstLink (hk : s.OwnKey) (sid : SessionId) (x : RelayItem C) :
    1 ≤ s.chainLen sid (x.hash sid) (s.firstLink sid x).chain :=
  List.length_pos_of_mem (s.own_mem_chainSeen hk sid (x.hash sid) (List.mem_singleton_self _))

end Chains

/-! ## Calls only add -/

/-- `s'` has everything `s` has. -/
structure Le (s s' : SetServer C) : Prop where
  accepted : ∀ d, s.accepted.contains d = true → s'.accepted.contains d = true
  holds : ∀ x, s.Holds x → s'.Holds x

section Adding
variable {sid : SessionId} {s : SetServer C}

theorem Le.refl (s : SetServer C) : s.Le s := ⟨fun _ h => h, fun _ h => h⟩

theorem Le.trans {s s' s'' : SetServer C} (h : s.Le s') (h' : s'.Le s'') : s.Le s'' :=
  ⟨fun d hd => h'.accepted d (h.accepted d hd), fun x hx => h'.holds x (h.holds x hx)⟩

theorem le_storeFragment (acc : SetServer C × List (Fragment C)) (f : Fragment C) :
    acc.1.Le (storeFragment sid acc f).1 :=
  ⟨fun d hd => (accepted_storeFragment sid acc f d).mpr (Or.inl hd),
    fun _ hx => holds_storeFragment f hx⟩

theorem le_foldl_storeFragment (fs : List (Fragment C)) :
    ∀ acc : SetServer C × List (Fragment C), acc.1.Le (fs.foldl (storeFragment sid) acc).1 := by
  induction fs with
  | nil => exact fun acc => Le.refl acc.1
  | cons f fs ih => exact fun acc => (le_storeFragment acc f).trans (ih _)

theorem le_acceptFragments (fs : List (Fragment C)) : s.Le (s.acceptFragments sid fs).1 :=
  le_foldl_storeFragment _ (s, [])

theorem le_acceptItem (x : RelayItem C) : s.Le (s.acceptItem sid x) := by
  cases x with
  | batch b =>
    rw [acceptItem_batch]
    split
    · exact ⟨fun _ hd => OrdSet.contains_add_of_contains hd, fun _ hx => holds_orInsert hx⟩
    · exact Le.refl s
  | fragment f => exact le_acceptFragments [f]

theorem le_absorbOne (round : Nat) (acc : SetServer C × List (Relay C)) (r : Relay C) :
    acc.1.Le (absorbOne sid round acc r).1 := by
  unfold absorbOne
  dsimp only
  split
  · exact Le.refl acc.1
  · exact le_acceptItem r.item

theorem le_foldl_absorbOne (sid : SessionId) (round : Nat) (rs : List (Relay C)) :
    ∀ acc : SetServer C × List (Relay C), acc.1.Le (rs.foldl (absorbOne sid round) acc).1 := by
  induction rs with
  | nil => exact fun acc => Le.refl acc.1
  | cons r rs ih => exact fun acc => (le_absorbOne round acc r).trans (ih _)

theorem le_originate : s.Le (s.originate sid).1 :=
  ⟨fun _ hd => accepted_originate.mpr (Or.inl hd), fun _ hx => holds_originate hx⟩

/-- **Nothing accepted or stored is ever dropped.** -/
theorem le_apply (op : SetOp C) : s.Le (s.apply sid op).1 := by
  cases op with
  | receive b =>
    show s.Le (s.receive sid b).1
    rw [receive_frame]
    exact ⟨fun _ h => h, fun x h => by cases x <;> exact h⟩
  | noteBulletin cid pk => exact ⟨fun _ h => h, fun x h => by cases x <;> exact h⟩
  | submit fs => exact le_acceptFragments fs
  | originate => exact le_originate
  | absorb round incoming => exact le_foldl_absorbOne sid round _ (s, [])

/-- The parts of a server no call changes. -/
structure SameLane (s s' : SetServer C) : Prop where
  serverId : s'.serverId = s.serverId
  nLanes : s'.nLanes = s.nLanes
  k : s'.k = s.k
  signer : s'.signer = s.signer
  serverPks : s'.serverPks = s.serverPks

theorem sameLane_apply (s : SetServer C) (sid : SessionId) (op : SetOp C) : s.SameLane (s.apply sid op).1 := by
  cases op with
  | receive b =>
    show s.SameLane (s.receive sid b).1
    rw [receive_frame]
    exact ⟨rfl, rfl, rfl, rfl, rfl⟩
  | noteBulletin cid pk => exact ⟨rfl, rfl, rfl, rfl, rfl⟩
  | submit fs =>
    show s.SameLane (s.acceptFragments sid fs).1
    rw [acceptFragments_frame]
    exact ⟨rfl, rfl, rfl, rfl, rfl⟩
  | originate => exact ⟨rfl, rfl, rfl, rfl, rfl⟩
  | absorb round incoming =>
    show s.SameLane (s.absorb sid round incoming).1
    rw [absorb_frame]
    exact ⟨rfl, rfl, rfl, rfl, rfl⟩

end Adding

/-! ## What is sent -/

/-- The item carries its own signature: a batch its lane's, a fragment its
client's. -/
def Signed (s : SetServer C) (sid : SessionId) : RelayItem C → Prop
  | .batch b => b.verify sid s.serverPks = true
  | .fragment f => s.SignedByPosted sid f

/-- The relays a call on `s` can send. -/
inductive Sent (s : SetServer C) (sid : SessionId) : SetOp C → Relay C → Prop
  | submit {fs : List (Fragment C)} {f : Fragment C} (hf : f ∈ fs) :
      Sent s sid (.submit fs) (s.firstLink sid (.fragment f))
  | originate {x : RelayItem C} (hx : x ∈ s.originated sid) :
      Sent s sid .originate (s.firstLink sid x)
  | absorb {round : Nat} {incoming : List (Relay C)} {r : Relay C} (hr : r ∈ incoming)
      (hnew : s.accepted.contains (r.item.hash sid) = false)
      (hlen : round ≤ s.chainLen sid (r.item.hash sid) r.chain) :
      Sent s sid (.absorb round incoming) (s.extend sid r)

section Sending
variable {sid : SessionId} {seen : List (RelayItem C)} {s : SetServer C}

theorem fresh_foldl_storeFragment {fs : List (Fragment C)} {g : Fragment C} :
    ∀ {acc : SetServer C × List (Fragment C)}, g ∈ (fs.foldl (storeFragment sid) acc).2 →
      g ∈ acc.2 ∨ (g ∈ fs ∧
        (fs.foldl (storeFragment sid) acc).1.accepted.contains ((RelayItem.fragment g).hash sid) =
          true) := by
  induction fs with
  | nil => exact Or.inl
  | cons f fs ih =>
    intro acc hg
    rcases ih hg with hg | ⟨hg, ha⟩
    · rcases mem_fresh_storeFragment.mp hg with hg | ⟨rfl, hfree, -⟩
      · exact Or.inl hg
      · refine Or.inr ⟨List.mem_cons_self .., (le_foldl_storeFragment fs _).accepted _ ?_⟩
        exact (accepted_storeFragment sid acc g _).mpr (Or.inr ⟨hfree, rfl⟩)
    · exact Or.inr ⟨List.mem_cons_of_mem _ hg, ha⟩

theorem mem_submit {fs : List (Fragment C)} {rel : Relay C} (h : rel ∈ (s.submit sid fs).2) :
    ∃ f ∈ fs, s.fragmentOk sid f = true ∧ rel = s.firstLink sid (.fragment f) ∧
      (s.submit sid fs).1.accepted.contains ((RelayItem.fragment f).hash sid) = true := by
  obtain ⟨f, hf, rfl⟩ := List.mem_map.mp h
  rcases fresh_foldl_storeFragment hf with hf' | ⟨hf', ha⟩
  · cases hf'
  · obtain ⟨hfs, hok⟩ := List.mem_filter.mp hf'
    refine ⟨f, hfs, hok, ?_, ha⟩
    rw [acceptFragments_frame]
    rfl

/-- A relay of `absorb`'s loop is skipped, because its hash is accepted already or
its chain too short, or its item is tried. -/
theorem absorbOne_cases (sid : SessionId) (round : Nat) (acc : SetServer C × List (Relay C))
    (r : Relay C) :
    ((acc.1.accepted.contains (r.item.hash sid) = true ∨
        acc.1.chainLen sid (r.item.hash sid) r.chain < round) ∧
      absorbOne sid round acc r = acc) ∨
    (acc.1.accepted.contains (r.item.hash sid) = false ∧
      round ≤ acc.1.chainLen sid (r.item.hash sid) r.chain ∧
      absorbOne sid round acc r = (acc.1.acceptItem sid r.item,
        if (acc.1.acceptItem sid r.item).accepted.contains (r.item.hash sid)
        then acc.2 ++ [acc.1.extend sid r] else acc.2)) := by
  have hext : (acc.1.acceptItem sid r.item).extend sid r = acc.1.extend sid r := by
    rw [acceptItem_frame]
    rfl
  unfold absorbOne
  dsimp only
  rw [hext]
  by_cases hskip : (acc.1.accepted.contains (r.item.hash sid) ||
      decide (acc.1.chainLen sid (r.item.hash sid) r.chain < round)) = true
  · rw [if_pos hskip]
    rw [Bool.or_eq_true, decide_eq_true_eq] at hskip
    exact Or.inl ⟨hskip, rfl⟩
  · rw [if_neg hskip]
    rw [Bool.or_eq_true, decide_eq_true_eq, not_or, not_lt, Bool.not_eq_true] at hskip
    exact Or.inr ⟨hskip.1, hskip.2, rfl⟩

/-- What one relay of the loop adds to its output. -/
theorem mem_absorbOne {round : Nat} {acc : SetServer C × List (Relay C)} {r rel : Relay C}
    (h : rel ∈ (absorbOne sid round acc r).2) : rel ∈ acc.2 ∨
      (rel = acc.1.extend sid r ∧ acc.1.accepted.contains (r.item.hash sid) = false ∧
        round ≤ acc.1.chainLen sid (r.item.hash sid) r.chain ∧
        (absorbOne sid round acc r).1.accepted.contains (r.item.hash sid) = true ∧
        (absorbOne sid round acc r).1 = acc.1.acceptItem sid r.item) := by
  rcases absorbOne_cases sid round acc r with ⟨-, heq⟩ | ⟨hnew, hlen, heq⟩
  · rw [heq] at h
    exact Or.inl h
  · rw [heq] at h ⊢
    dsimp only at h ⊢
    split_ifs at h with ha
    · rcases List.mem_append.mp h with h | h
      · exact Or.inl h
      · exact Or.inr ⟨List.mem_singleton.mp h, hnew, hlen, ha, rfl⟩
    · exact Or.inl h

theorem acceptFragments_singleton (f : Fragment C) : s.acceptFragments sid [f] =
    if s.fragmentOk sid f = true then storeFragment sid (s, []) f else (s, []) := by
  unfold acceptFragments
  rw [List.filter_singleton]
  cases s.fragmentOk sid f <;> rfl

/-- What one item of `absorb` newly accepts is that item, and it is signed. -/
theorem newly_acceptItem {x : RelayItem C} {d : Digest} (hnew : s.accepted.contains d = false)
    (h : (s.acceptItem sid x).accepted.contains d = true) : x.hash sid = d ∧ s.Signed sid x := by
  cases x with
  | batch b =>
    rw [acceptItem_batch] at h
    split_ifs at h with hv
    · rcases OrdSet.contains_add_iff.mp h with rfl | h
      · exact ⟨rfl, hv⟩
      · rw [hnew] at h
        cases h
    · rw [hnew] at h
      cases h
  | fragment f =>
    unfold acceptItem at h
    dsimp only at h
    rw [acceptFragments_singleton] at h
    split_ifs at h with hok
    · rcases (accepted_storeFragment sid (s, []) f d).mp h with h | ⟨-, rfl⟩
      · rw [hnew] at h
        cases h
      · exact ⟨rfl, signedByPosted_of_fragmentOk hok⟩
    · rw [hnew] at h
      cases h

theorem signed_congr {s s' : SetServer C} (hn : s'.nLanes = s.nLanes)
    (hk : s'.serverPks = s.serverPks) (hb : s'.bulletins = s.bulletins) (x : RelayItem C) :
    s'.Signed sid x ↔ s.Signed sid x := by
  cases x with
  | batch b =>
    unfold Signed
    rw [hk]
  | fragment f =>
    unfold Signed SignedByPosted Posted
    rw [hn, hb]

/-- The relays of the loop, all read at the state the loop started in. -/
theorem mem_foldl_absorbOne {round : Nat} {rs : List (Relay C)} {rel : Relay C} :
    ∀ {acc : SetServer C × List (Relay C)}, rel ∈ (rs.foldl (absorbOne sid round) acc).2 →
      rel ∈ acc.2 ∨ ∃ r ∈ rs, rel = acc.1.extend sid r ∧
        acc.1.accepted.contains (r.item.hash sid) = false ∧
        round ≤ acc.1.chainLen sid (r.item.hash sid) r.chain ∧ acc.1.Signed sid r.item ∧
        (rs.foldl (absorbOne sid round) acc).1.accepted.contains (r.item.hash sid) = true := by
  induction rs with
  | nil => exact Or.inl
  | cons q rs ih =>
    intro acc h
    have hle := le_foldl_absorbOne sid round rs (absorbOne sid round acc q)
    rcases ih h with h | ⟨r, hr, hrel, hnew, hlen, hsig, ha⟩
    · rcases mem_absorbOne h with h | ⟨hrel, hnew, hlen, ha, heq⟩
      · exact Or.inl h
      · refine Or.inr ⟨q, List.mem_cons_self .., hrel, hnew, hlen, ?_, hle.accepted _ ha⟩
        rw [heq] at ha
        exact (newly_acceptItem hnew ha).2
    · refine Or.inr ⟨r, List.mem_cons_of_mem _ hr, ?_, ?_, ?_, ?_, ha⟩
      · rw [hrel, absorbOne_frame]
        rfl
      · by_contra hc
        rw [Bool.not_eq_false] at hc
        rw [(le_absorbOne round acc q).accepted _ hc] at hnew
        cases hnew
      · unfold chainLen at hlen ⊢
        rwa [chainSeen_congr (by rw [absorbOne_frame]) (s := acc.1)] at hlen
      · exact (signed_congr (by rw [absorbOne_frame]) (by rw [absorbOne_frame])
          (by rw [absorbOne_frame]) r.item).mp hsig

/-- **Whatever a call sends is signed and accepted**, and has one of the three
shapes. -/
theorem sent_of_mem (hg : Grounded sid seen s) (hk : s.OwnKey) {op : SetOp C} {rel : Relay C}
    (h : rel ∈ (s.apply sid op).2) : Sent s sid op rel ∧ s.Signed sid rel.item ∧
      (s.apply sid op).1.accepted.contains (rel.item.hash sid) = true := by
  cases op with
  | receive b => cases h
  | noteBulletin cid pk => cases h
  | submit fs =>
    obtain ⟨f, hf, hok, rfl, ha⟩ := mem_submit h
    exact ⟨.submit hf, signedByPosted_of_fragmentOk hok, ha⟩
  | originate =>
    obtain ⟨x, hx, rfl⟩ := List.mem_map.mp h
    refine ⟨.originate hx, ?_, accepted_originate.mpr (Or.inr ⟨x, hx, rfl⟩)⟩
    rcases List.mem_cons.mp hx with rfl | hx
    · exact batch_verify hk
    · obtain ⟨f, hf, rfl⟩ := List.mem_map.mp hx
      obtain ⟨cid, idx, hf⟩ := mem_storedFragments.mp hf
      exact (hg.fragment cid idx f hf).2.2.2
  | absorb round incoming =>
    rcases mem_foldl_absorbOne h with h | ⟨r, hr, rfl, hnew, hlen, hsig, ha⟩
    · cases h
    · exact ⟨.absorb (mem_absorb_order.mp hr) hnew hlen, hsig, ha⟩

theorem subset_foldl_storeFragment (fs : List (Fragment C)) :
    ∀ acc : SetServer C × List (Fragment C), acc.2 ⊆ (fs.foldl (storeFragment sid) acc).2 := by
  induction fs with
  | nil => exact fun _ _ h => h
  | cons f fs ih => exact fun acc g hg => ih _ (mem_fresh_storeFragment.mpr (Or.inl hg))

theorem subset_foldl_absorbOne (round : Nat) (rs : List (Relay C)) :
    ∀ acc : SetServer C × List (Relay C), acc.2 ⊆ (rs.foldl (absorbOne sid round) acc).2 := by
  induction rs with
  | nil => exact fun _ _ h => h
  | cons r rs ih =>
    intro acc g hg
    refine ih _ ?_
    rcases absorbOne_cases sid round acc r with ⟨-, heq⟩ | ⟨-, -, heq⟩
    · rw [heq]
      exact hg
    · rw [heq]
      dsimp only
      split_ifs
      · exact List.mem_append_left _ hg
      · exact hg

theorem fresh_of_newly_accepted {d : Digest} (fs : List (Fragment C)) :
    ∀ acc : SetServer C × List (Fragment C), acc.1.accepted.contains d = false →
      (fs.foldl (storeFragment sid) acc).1.accepted.contains d = true →
      ∃ f ∈ (fs.foldl (storeFragment sid) acc).2, (RelayItem.fragment f).hash sid = d := by
  induction fs with
  | nil =>
    intro acc hnew h
    rw [List.foldl_nil, hnew] at h
    cases h
  | cons f fs ih =>
    intro acc hnew h
    by_cases hstep : (storeFragment sid acc f).1.accepted.contains d = true
    · rcases (accepted_storeFragment sid acc f d).mp hstep with h' | ⟨hfree, rfl⟩
      · rw [hnew] at h'
        cases h'
      · exact ⟨f, subset_foldl_storeFragment fs _
          (mem_fresh_storeFragment.mpr (Or.inr ⟨rfl, hfree, hnew⟩)), rfl⟩
    · exact ih _ (Bool.not_eq_true _ ▸ hstep) h

theorem sent_of_newly_absorbed {d : Digest} {round : Nat} (rs : List (Relay C)) :
    ∀ acc : SetServer C × List (Relay C), acc.1.accepted.contains d = false →
      (rs.foldl (absorbOne sid round) acc).1.accepted.contains d = true →
      ∃ rel ∈ (rs.foldl (absorbOne sid round) acc).2, rel.item.hash sid = d := by
  induction rs with
  | nil =>
    intro acc hnew h
    rw [List.foldl_nil, hnew] at h
    cases h
  | cons r rs ih =>
    intro acc hnew h
    by_cases hstep : (absorbOne sid round acc r).1.accepted.contains d = true
    · rcases absorbOne_cases sid round acc r with ⟨-, heq⟩ | ⟨-, -, heq⟩
      · rw [heq, hnew] at hstep
        cases hstep
      · rw [heq] at hstep
        obtain ⟨rfl, -⟩ := newly_acceptItem hnew hstep
        refine ⟨acc.1.extend sid r, subset_foldl_absorbOne round rs _ ?_, rfl⟩
        rw [heq]
        dsimp only
        rw [if_pos hstep]
        exact List.mem_append_right _ (List.mem_singleton_self _)
    · exact ih _ (Bool.not_eq_true _ ▸ hstep) h

/-- **Whatever a call newly accepts, it sends out.** -/
theorem sent_of_newly_accepted {op : SetOp C} {d : Digest} (hnew : s.accepted.contains d = false)
    (h : (s.apply sid op).1.accepted.contains d = true) :
    ∃ rel ∈ (s.apply sid op).2, rel.item.hash sid = d := by
  have hold : ∀ s' : SetServer C, s'.accepted = s.accepted → s'.accepted.contains d ≠ true := by
    intro s' he
    rw [he, hnew]
    exact Bool.false_ne_true
  cases op with
  | receive b =>
    refine absurd h (hold _ ?_)
    show (s.receive sid b).1.accepted = _
    rw [receive_frame]
  | noteBulletin cid pk => exact absurd h (hold _ rfl)
  | submit fs =>
    obtain ⟨f, hf, hd⟩ := fresh_of_newly_accepted _ (s, []) hnew h
    exact ⟨_, List.mem_map_of_mem hf, hd⟩
  | originate =>
    rcases accepted_originate.mp h with h | ⟨x, hx, hd⟩
    · exact absurd h (hold s rfl)
    · exact ⟨_, List.mem_map_of_mem hx, hd⟩
  | absorb round incoming => exact sent_of_newly_absorbed _ (s, []) hnew h

/-! ## Indices

A fragment's hash stands for its index: with no two shown items of one hash, an
accepted fragment hash means the index is taken. -/

/-- No two of the items collide. -/
def CollisionFree (sid : SessionId) (seen : List (RelayItem C)) : Prop :=
  ∀ x ∈ seen, ∀ y ∈ seen, x.hash sid = y.hash sid → x.preimage sid = y.preimage sid

instance (seen : List (RelayItem C)) : Decidable (CollisionFree sid seen) :=
  inferInstanceAs (Decidable (∀ x ∈ seen, ∀ y ∈ seen, _ → _))

/-- The index of `cid` is taken. -/
def Taken (s : SetServer C) (cid : ClientId) (idx : Nat) : Prop :=
  ∃ f, s.fragment? cid idx = some f

theorem taken_of_accepted (hg : Grounded sid seen s) (hc : CollisionFree sid seen)
    (hn : s.nLanes ≤ 4294967296) {f : Fragment C} (hf : RelayItem.fragment f ∈ seen)
    (hidx : f.idx < s.nLanes)
    (ha : s.accepted.contains ((RelayItem.fragment f).hash sid) = true) :
    s.Taken f.clientId f.idx := by
  obtain ⟨x, hx, hhash, hh⟩ := hg.accepted _ ha
  have hpre := hc x hx _ hf hhash
  cases x with
  | batch b => exact absurd hpre RelayItem.preimage_batch_ne_fragment
  | fragment g =>
    obtain ⟨hlt, hg⟩ := hh
    obtain ⟨hcid, hi, -⟩ := RelayItem.preimage_fragment_inj hpre
    have hidx : g.idx = f.idx := leBytes_inj (w := 4) (by omega) (by omega) hi
    rw [← hcid, ← hidx]
    exact hg

/-- A lane whose batch hash is accepted has a batch. -/
theorem batch_of_accepted (hg : Grounded sid seen s) (hc : CollisionFree sid seen)
    {b : ReceiptBatch C} (hb : RelayItem.batch b ∈ seen)
    (ha : s.accepted.contains ((RelayItem.batch b).hash sid) = true) :
    ∃ b', s.batches.get? b.serverId = some b' := by
  obtain ⟨x, hx, hhash, hh⟩ := hg.accepted _ ha
  have hpre := hc x hx _ hb hhash
  cases x with
  | fragment g => exact absurd hpre.symm RelayItem.preimage_batch_ne_fragment
  | batch b' =>
    obtain ⟨hid, -⟩ := RelayItem.preimage_batch_inj hpre
    rw [← hid]
    exact hh

theorem taken_storeFragment {acc : SetServer C × List (Fragment C)} {f : Fragment C}
    {cid : ClientId} {idx : Nat} (h : (storeFragment sid acc f).1.Taken cid idx)
    (hold : ¬acc.1.Taken cid idx) : cid = f.clientId ∧ idx = f.idx := by
  obtain ⟨g, hg⟩ := h
  rw [fragment?_storeFragment] at hg
  split_ifs at hg with he
  · exact he
  · exact absurd ⟨g, hg⟩ hold

theorem free_of_not_taken {cid : ClientId} {idx : Nat} (h : ¬s.Taken cid idx) :
    s.fragment? cid idx = none :=
  Option.eq_none_iff_forall_ne_some.mpr (fun f hf => h ⟨f, hf⟩)

/-- The loop of `accept_fragments` reports every index it fills.  The hash of a
fragment whose index is free is new, or the index would be taken. -/
theorem fresh_of_newly_taken (hc : CollisionFree sid seen) {cid : ClientId} {idx : Nat}
    (fs : List (Fragment C)) :
    ∀ acc : SetServer C × List (Fragment C), Grounded sid seen acc.1 →
      acc.1.nLanes ≤ 4294967296 →
      (∀ f ∈ fs, RelayItem.fragment f ∈ seen ∧ acc.1.SignedByPosted sid f) →
      ¬acc.1.Taken cid idx → (fs.foldl (storeFragment sid) acc).1.Taken cid idx →
      ∃ f ∈ (fs.foldl (storeFragment sid) acc).2, f.clientId = cid ∧ f.idx = idx := by
  induction fs with
  | nil => exact fun _ _ _ _ hold h => absurd h hold
  | cons f fs ih =>
    intro acc hg hn hfs hold h
    obtain ⟨hf, hsig⟩ := hfs f (List.mem_cons_self ..)
    by_cases hstep : (storeFragment sid acc f).1.Taken cid idx
    · obtain ⟨rfl, rfl⟩ := taken_storeFragment hstep hold
      refine ⟨f, subset_foldl_storeFragment fs _ (mem_fresh_storeFragment.mpr
        (Or.inr ⟨rfl, free_of_not_taken hold, ?_⟩)), rfl, rfl⟩
      by_contra ha
      exact hold (taken_of_accepted hg hc hn hf hsig.1 (Bool.not_eq_false _ ▸ ha))
    · refine ih _ (hg.storeFragment hf hsig) ?_ (fun g hgm => ?_) hstep h
      · rw [storeFragment_frame]
        exact hn
      · rw [storeFragment_frame]
        exact hfs g (List.mem_cons_of_mem _ hgm)

theorem taken_acceptItem {x : RelayItem C} {cid : ClientId} {idx : Nat} (hold : ¬s.Taken cid idx)
    (h : (s.acceptItem sid x).Taken cid idx) :
    ∃ f, x = .fragment f ∧ f.clientId = cid ∧ f.idx = idx ∧
      (s.acceptItem sid x).accepted.contains (x.hash sid) = true := by
  cases x with
  | batch b =>
    rw [acceptItem_batch] at h
    split_ifs at h
    · exact absurd h hold
    · exact absurd h hold
  | fragment f =>
    unfold acceptItem at h ⊢
    dsimp only at h ⊢
    rw [acceptFragments_singleton] at h ⊢
    split_ifs at h ⊢ with hok
    · obtain ⟨rfl, rfl⟩ := taken_storeFragment h hold
      exact ⟨f, rfl, rfl, rfl, (accepted_storeFragment sid (s, []) f _).mpr
        (Or.inr ⟨free_of_not_taken hold, rfl⟩)⟩
    · exact absurd h hold

theorem sent_of_newly_taken_absorb {cid : ClientId} {idx : Nat} {round : Nat}
    (rs : List (Relay C)) :
    ∀ acc : SetServer C × List (Relay C), ¬acc.1.Taken cid idx →
      (rs.foldl (absorbOne sid round) acc).1.Taken cid idx →
      ∃ rel ∈ (rs.foldl (absorbOne sid round) acc).2, ∃ f, rel.item = .fragment f ∧
        f.clientId = cid ∧ f.idx = idx := by
  induction rs with
  | nil => exact fun _ hold h => absurd h hold
  | cons r rs ih =>
    intro acc hold h
    by_cases hstep : (absorbOne sid round acc r).1.Taken cid idx
    · rcases absorbOne_cases sid round acc r with ⟨-, heq⟩ | ⟨hnew, -, heq⟩
      · rw [heq] at hstep
        exact absurd hstep hold
      · rw [heq] at hstep
        obtain ⟨f, hf, hcid, hidx, ha⟩ := taken_acceptItem hold hstep
        refine ⟨acc.1.extend sid r, subset_foldl_absorbOne round rs _ ?_, f, hf, hcid, hidx⟩
        rw [heq]
        dsimp only
        rw [if_pos ha]
        exact List.mem_append_right _ (List.mem_singleton_self _)
    · exact ih _ hstep h

/-- **Whatever index a call newly fills, it sends out a fragment for.** -/
theorem sent_of_newly_taken {op : SetOp C} (hg : Grounded sid seen s)
    (hc : CollisionFree sid (seen ++ s.shown sid op)) (hn : s.nLanes ≤ 4294967296)
    {cid : ClientId} {idx : Nat} (hold : ¬s.Taken cid idx)
    (h : (s.apply sid op).1.Taken cid idx) :
    ∃ rel ∈ (s.apply sid op).2, ∃ f, rel.item = .fragment f ∧ f.clientId = cid ∧ f.idx = idx := by
  cases op with
  | receive b =>
    have hf : (s.receive sid b).1.fragments = s.fragments := by rw [receive_frame]
    unfold apply Taken fragment? at h
    rw [hf] at h
    exact absurd h hold
  | noteBulletin c pk => exact absurd h hold
  | submit fs =>
    have hfs : ∀ f ∈ fs.filter (s.fragmentOk sid),
        RelayItem.fragment f ∈ seen ++ s.shown sid (.submit fs) ∧ s.SignedByPosted sid f := by
      intro f hf
      obtain ⟨hf, hok⟩ := List.mem_filter.mp hf
      exact ⟨List.mem_append_right _ (List.mem_map_of_mem hf), signedByPosted_of_fragmentOk hok⟩
    obtain ⟨f, hf, hcid, hidx⟩ := fresh_of_newly_taken hc _ (s, [])
      (hg.mono (List.subset_append_left _ _)) hn hfs hold h
    exact ⟨_, List.mem_map_of_mem hf, f, rfl, hcid, hidx⟩
  | originate => exact absurd h hold
  | absorb round incoming => exact sent_of_newly_taken_absorb _ (s, []) hold h

/-! ## What comes in under enough links is taken -/

/-- The state in which `absorb` comes to a relay of its input, and what follows
from there. -/
theorem absorb_reaches {round : Nat} {incoming : List (Relay C)} {r : Relay C}
    (hr : r ∈ incoming) (hlen : round ≤ s.chainLen sid (r.item.hash sid) r.chain) :
    ∃ s', (∀ seen, Grounded sid seen s → (∀ q ∈ incoming, q.item ∈ seen) → Grounded sid seen s') ∧
      s'.bulletins = s.bulletins ∧ s'.nLanes = s.nLanes ∧ s'.serverPks = s.serverPks ∧
      ((s'.accepted.contains (r.item.hash sid) = true ∧ s'.Le (s.absorb sid round incoming).1) ∨
        (s'.acceptItem sid r.item).Le (s.absorb sid round incoming).1) := by
  obtain ⟨before, after, hsplit⟩ := List.append_of_mem (mem_absorb_order.mpr hr)
  have hmem : ∀ q ∈ before, q ∈ incoming := by
    intro q hq
    refine mem_absorb_order.mp ?_
    rw [hsplit]
    exact List.mem_append_left _ hq
  have hend : (s.absorb sid round incoming).1 = (after.foldl (absorbOne sid round)
      (absorbOne sid round (before.foldl (absorbOne sid round) (s, [])) r)).1 := by
    unfold absorb
    rw [hsplit, List.foldl_append, List.foldl_cons]
  have hframe := foldl_absorbOne_frame sid round before (s, [])
  refine ⟨(before.foldl (absorbOne sid round) (s, [])).1,
    fun seen hg hin => Grounded.foldl_absorbOne hg (fun q hq => hin q (hmem q hq)),
    by rw [hframe], by rw [hframe], by rw [hframe], ?_⟩
  have hle := le_foldl_absorbOne sid round after
    (absorbOne sid round (before.foldl (absorbOne sid round) (s, [])) r)
  rw [← hend] at hle
  rcases absorbOne_cases sid round (before.foldl (absorbOne sid round) (s, [])) r with
    ⟨hskip, heq⟩ | ⟨-, -, heq⟩
  · rw [heq] at hle
    refine Or.inl ⟨hskip.resolve_right ?_, hle⟩
    unfold chainLen at hlen ⊢
    rw [chainSeen_congr (by rw [hframe]) (s := s), not_lt]
    exact hlen
  · rw [heq] at hle
    exact Or.inr hle

/-- **A valid batch under enough links is accepted.** -/
theorem absorb_accepts_batch {round : Nat} {incoming : List (Relay C)} {r : Relay C}
    (hr : r ∈ incoming) (hlen : round ≤ s.chainLen sid (r.item.hash sid) r.chain)
    {b : ReceiptBatch C} (hb : r.item = .batch b) (hv : b.verify sid s.serverPks = true) :
    (s.absorb sid round incoming).1.accepted.contains (r.item.hash sid) = true := by
  obtain ⟨s', -, -, -, hpks, ⟨ha, hle⟩ | hle⟩ := absorb_reaches hr hlen
  · exact hle.accepted _ ha
  · refine hle.accepted _ ?_
    rw [hb, acceptItem_batch, hpks, if_pos hv]
    exact OrdSet.contains_add_self _ _

/-- **A fragment under enough links has its index taken**, when it is signed by
the one key its client posted. -/
theorem absorb_takes_fragment {round : Nat} {incoming : List (Relay C)} {r : Relay C}
    (hr : r ∈ incoming) (hlen : round ≤ s.chainLen sid (r.item.hash sid) r.chain)
    (hg : Grounded sid seen s) (hin : ∀ q ∈ incoming, q.item ∈ seen)
    (hc : CollisionFree sid seen) (hn : s.nLanes ≤ 4294967296)
    {f : Fragment C} (hf : r.item = .fragment f) (hidx : f.idx < s.nLanes)
    {pk : C.Pk} {vk : C.VerifyingKey} (hpk : s.reportedKey f.clientId = some pk)
    (hvk : C.fromSec1Bytes pk = some vk)
    (hv : C.verify vk (fragmentSigningBytes sid f.clientId f.idx f.data) f.sig = true) :
    (s.absorb sid round incoming).1.Taken f.clientId f.idx := by
  obtain ⟨s', hg', hbul, hlanes, -, hcase⟩ := absorb_reaches hr hlen
  have hg' := hg' seen hg hin
  have hseen := hin r hr
  rw [hf] at hseen hcase
  have hholds : s'.Taken f.clientId f.idx → s'.Holds (.fragment f) :=
    fun h => ⟨hlanes ▸ hidx, h⟩
  rcases hcase with ⟨ha, hle⟩ | hle
  · exact (hle.holds (.fragment f) (hholds
      (taken_of_accepted hg' hc (hlanes ▸ hn) hseen (hlanes ▸ hidx) ha))).2
  · by_cases htaken : s'.Taken f.clientId f.idx
    · exact (hle.holds (.fragment f) ((le_acceptItem _).holds _ (hholds htaken))).2
    · refine (hle.holds (.fragment f) ?_).2
      have hkey : s'.reportedKey f.clientId = some pk := by
        rw [← hpk]
        unfold reportedKey
        rw [hbul]
      have hok : s'.fragmentOk sid f = true := fragmentOk_iff.mpr
        ⟨hlanes ▸ hidx, free_of_not_taken htaken, pk, vk, hkey, hvk, hv⟩
      unfold acceptItem
      dsimp only
      rw [acceptFragments_singleton, if_pos hok]
      refine ⟨?_, f, ?_⟩
      · rw [storeFragment_frame]
        exact hlanes ▸ hidx
      · rw [fragment?_storeFragment, if_pos ⟨rfl, rfl⟩]

end Sending

end SetServer
end Anymone
