import Anymone.ClientSetRelay
import Anymone.Trace
import Mathlib.Data.Finset.Card
import Mathlib.Data.Finset.Max

/-! # Runs of client-set selection

The honest servers of one selection, and the trace of the calls made on them.
Byzantine lanes and clients have no state here: they are whoever chooses the
inputs of the calls.  What binds them is `Unforgeable`: a signature presented
under an honest lane's key is over bytes that lane signed before.

`flood_step` is the Dolev–Strong step: a relay an honest server sends is put
before every other server that runs its rounds, under as many links as the round
asks for, unless some honest server had the item already.
-/

namespace Anymone
variable {C : SetCrate}

/-- The lanes of one selection, the keys they sign under, and which of them
follow the protocol. -/
structure SetSystem (C : SetCrate) where
  pp : ProtocolParams
  sid : SessionId
  serverPks : List C.VerifyingKey
  signer : ServerId → C.SigningKey
  honest : Finset ServerId
  /-- The assertion of `SetServer::new`. -/
  keys_length : serverPks.length = pp.rs.n
  /-- Every lane has a `u32` id. -/
  lanes_named : pp.rs.n ≤ 4294967296
  k_pos : 1 ≤ pp.rs.k
  k_le : pp.rs.k ≤ pp.rs.n
  honest_key : ∀ i ∈ honest, serverPks[i.val]? = some (C.verifyingKey (signer i))
  /-- At most `n − k` lanes misbehave. -/
  enough_honest : pp.rs.k ≤ honest.card

/-- A call on an honest server. -/
abbrev SetEvent (C : SetCrate) := ServerId × SetOp C

/-- The round of the flood a call belongs to. -/
def SetOp.stage : SetOp C → Nat
  | .absorb round _ => round
  | _ => 0

/-- Whether the call is `originate`. -/
def SetOp.isOriginate : SetOp C → Bool
  | .originate => true
  | _ => false

/-- Whether the call is the `absorb` of that round. -/
def SetOp.isAbsorbOf (round : Nat) : SetOp C → Bool
  | .absorb r _ => r == round
  | _ => false

/-- A lane, the bytes it is said to have signed, and the signature. -/
abbrev SignedBytes (C : SetCrate) := ServerId × Bytes × C.Sig

/-- The lane signatures a relay shows its receiver. -/
def Relay.presented (sid : SessionId) (r : Relay C) : List (SignedBytes C) :=
  r.chain.map (fun link => (link.1, relaySigningBytes sid (r.item.hash sid), link.2)) ++
    match r.item with
    | .batch b => [(b.serverId, batchSigningBytes sid b.serverId b.receipts, b.sig)]
    | .fragment _ => []

/-- The lane signatures a call shows the server. -/
def SetOp.presented (sid : SessionId) : SetOp C → List (SignedBytes C)
  | .absorb _ incoming => incoming.flatMap (Relay.presented sid)
  | _ => []

/-- The bytes a server signs in a call: its batch when it originates, and a link
for every relay it sends. -/
def SetServer.signs (s : SetServer C) (sid : SessionId) (op : SetOp C) : List Bytes :=
  (match op with
    | .originate => [batchSigningBytes sid s.serverId s.receipts]
    | _ => []) ++
  (s.apply sid op).2.map (fun r => relaySigningBytes sid (r.item.hash sid))

namespace SetSystem
open Trace
variable (S : SetSystem C) (evs : List (SetEvent C))

/-- `SetServer::new` for lane `i`. -/
def start (i : ServerId) : SetServer C := .new S.pp i (S.signer i) S.serverPks

/-- The state of server `i` after the calls of `evs`. -/
def state (i : ServerId) : SetServer C :=
  localState S.start (fun s op => (s.apply S.sid op).1) evs i

/-- The relays sent in a step. -/
def sends (σ : List (SetEvent C) × SetEvent C) : List (Relay C) :=
  ((S.state σ.1 σ.2.1).apply S.sid σ.2.2).2

/-- The items shown to honest servers. -/
def shownIn : List (RelayItem C) :=
  (steps evs).flatMap (fun σ => (S.state σ.1 σ.2.1).shown S.sid σ.2.2)

/-- The bytes lane `j` signed. -/
def signedBy (j : ServerId) : List Bytes :=
  (steps evs).flatMap (fun σ =>
    if σ.2.1 = j then (S.state σ.1 σ.2.1).signs S.sid σ.2.2 else [])

/-- **No forgery**: a valid signature under an honest lane's key is over bytes the
lane signed before. -/
def Unforgeable : Prop :=
  ∀ σ ∈ steps evs, ∀ p ∈ σ.2.2.presented S.sid, p.1 ∈ S.honest →
    C.verify (C.verifyingKey (S.signer p.1)) p.2.1 p.2.2 = true → p.2.1 ∈ S.signedBy σ.1 p.1

/-- The relay is among the inputs, if the call is the `absorb` round after
`stage`. -/
def Delivers (rel : Relay C) (stage : Nat) : SetOp C → Prop
  | .absorb round incoming => round = stage + 1 → rel ∈ incoming
  | _ => True

instance [DecidableEq C.RsNTTPoly] (rel : Relay C) (stage : Nat) : DecidablePred (Delivers rel stage)
  | .absorb round incoming => inferInstanceAs (Decidable (round = stage + 1 → rel ∈ incoming))
  | .receive _ => isTrue trivial
  | .noteBulletin _ _ => isTrue trivial
  | .submit _ => isTrue trivial
  | .originate => isTrue trivial

/-- **Synchrony**: what a server sends from `originate` or `submit` is among every
other server's inputs to `absorb(1)`, and from `absorb(r)` to `absorb(r + 1)`. -/
def Synchronous : Prop :=
  ∀ σ ∈ steps evs, ∀ rel ∈ S.sends σ, ∀ e ∈ evs, e.1 ≠ σ.2.1 → Delivers rel σ.2.2.stage e.2

/-- What the runs below have in common. -/
structure Fair : Prop where
  honest_only : ∀ e ∈ evs, e.1 ∈ S.honest
  unforgeable : S.Unforgeable evs
  synchronous : S.Synchronous evs
  collision_free : SetServer.CollisionFree S.sid (S.shownIn evs)

instance : Decidable (S.Unforgeable evs) :=
  inferInstanceAs (Decidable (∀ σ ∈ steps evs, ∀ p ∈ σ.2.2.presented S.sid, _ → _ → _))

instance [DecidableEq C.RsNTTPoly] : Decidable (S.Synchronous evs) :=
  inferInstanceAs (Decidable (∀ σ ∈ steps evs, ∀ rel ∈ S.sends σ, ∀ e ∈ evs, _ → _))

instance [DecidableEq C.RsNTTPoly] : Decidable (S.Fair evs) :=
  decidable_of_iff ((∀ e ∈ evs, e.1 ∈ S.honest) ∧ S.Unforgeable evs ∧ S.Synchronous evs ∧
    SetServer.CollisionFree S.sid (S.shownIn evs))
    ⟨fun ⟨h1, h2, h3, h4⟩ => ⟨h1, h2, h3, h4⟩, fun ⟨h1, h2, h3, h4⟩ => ⟨h1, h2, h3, h4⟩⟩

/-- Server `j` ran `originate` and every `absorb` round. -/
def Ran (j : ServerId) : Prop :=
  (j, SetOp.originate) ∈ evs ∧ ∀ round, 1 ≤ round → round ≤ relayRounds S.pp →
    ∃ incoming, (j, SetOp.absorb round incoming) ∈ evs

theorem ran_iff (j : ServerId) : S.Ran evs j ↔
    (∃ e ∈ evs, e.1 = j ∧ e.2.isOriginate = true) ∧
      ∀ r ∈ List.range (relayRounds S.pp), ∃ e ∈ evs, e.1 = j ∧ e.2.isAbsorbOf (r + 1) = true := by
  refine and_congr ⟨fun h => ⟨_, h, rfl, rfl⟩, ?_⟩ ⟨fun h r hr => ?_, fun h round h1 h2 => ?_⟩
  · rintro ⟨⟨i, op⟩, he, rfl, hop⟩
    cases op with
    | originate => exact he
    | _ => cases hop
  · obtain ⟨incoming, hin⟩ := h (r + 1) (by omega) (by have := List.mem_range.mp hr; omega)
    exact ⟨_, hin, rfl, beq_self_eq_true (r + 1)⟩
  · obtain ⟨⟨i, op⟩, he, rfl, hop⟩ := h (round - 1) (List.mem_range.mpr (by omega))
    cases op with
    | absorb r incoming =>
      have hr : r = round := by
        have := beq_iff_eq.mp hop
        omega
      subst hr
      exact ⟨incoming, he⟩
    | _ => cases hop

instance (j : ServerId) : Decidable (S.Ran evs j) := decidable_of_iff _ (S.ran_iff evs j).symm

section States
variable {S evs}

@[simp] theorem state_nil (i : ServerId) : S.state [] i = S.start i := rfl

theorem state_concat (l : List (SetEvent C)) (e : SetEvent C) (i : ServerId) :
    S.state (l ++ [e]) i = if e.1 = i then ((S.state l i).apply S.sid e.2).1 else S.state l i :=
  localState_concat _ _ l e i

theorem state_concat_self (l : List (SetEvent C)) (e : SetEvent C) :
    S.state (l ++ [e]) e.1 = ((S.state l e.1).apply S.sid e.2).1 := by
  rw [state_concat, if_pos rfl]

theorem shownIn_concat (l : List (SetEvent C)) (e : SetEvent C) :
    S.shownIn (l ++ [e]) = S.shownIn l ++ (S.state l e.1).shown S.sid e.2 := by
  unfold shownIn
  rw [steps_concat, List.flatMap_append]
  simp

theorem shownIn_subset {l : List (SetEvent C)} (h : l <+: evs) : S.shownIn l ⊆ S.shownIn evs := by
  intro x hx
  obtain ⟨σ, hσ, hx⟩ := List.mem_flatMap.mp hx
  exact List.mem_flatMap.mpr ⟨σ, mem_steps_mono h hσ, hx⟩

theorem shown_subset {σ : List (SetEvent C) × SetEvent C} (h : σ ∈ steps evs) :
    S.shownIn σ.1 ++ (S.state σ.1 σ.2.1).shown S.sid σ.2.2 ⊆ S.shownIn evs := by
  rw [← shownIn_concat]
  exact shownIn_subset (prefix_of_mem_steps h)

theorem sameLane_state (l : List (SetEvent C)) (i : ServerId) :
    (S.start i).SameLane (S.state l i) :=
  localState_invariant _ _ ⟨rfl, rfl, rfl, rfl, rfl⟩ (fun s op h =>
    have h' := s.sameLane_apply S.sid op
    ⟨h'.serverId.trans h.serverId, h'.nLanes.trans h.nLanes, h'.k.trans h.k,
      h'.signer.trans h.signer, h'.serverPks.trans h.serverPks⟩) l

theorem ownKey_state {i : ServerId} (hi : i ∈ S.honest) (l : List (SetEvent C)) :
    (S.state l i).OwnKey := by
  have h := sameLane_state (S := S) l i
  unfold SetServer.OwnKey
  rw [h.serverPks, h.serverId, h.signer]
  exact S.honest_key i hi

theorem nLanes_state (l : List (SetEvent C)) (i : ServerId) :
    (S.state l i).nLanes = S.pp.rs.n := (sameLane_state l i).nLanes

theorem serverPks_state (l : List (SetEvent C)) (i : ServerId) :
    (S.state l i).serverPks = S.serverPks := (sameLane_state l i).serverPks

theorem serverId_state (l : List (SetEvent C)) (i : ServerId) :
    (S.state l i).serverId = i := (sameLane_state l i).serverId

theorem le_state {l l' : List (SetEvent C)} (h : l <+: l') (i : ServerId) :
    (S.state l i).Le (S.state l' i) :=
  localState_mono _ _ SetServer.Le.refl SetServer.Le.trans (fun _ op => SetServer.le_apply op) h i

/-- **Every honest server is grounded in what the run showed.** -/
theorem grounded_state {i : ServerId} (hi : i ∈ S.honest) (l : List (SetEvent C)) :
    SetServer.Grounded S.sid (S.shownIn l) (S.state l i) := by
  induction l using List.reverseRecOn with
  | nil => exact SetServer.grounded_new _ _ _ _
  | append_singleton l e ih =>
    rw [shownIn_concat, state_concat]
    split_ifs with he
    · subst he
      exact ih.apply (ownKey_state hi l) e.2
    · exact ih.mono (List.subset_append_left _ _)

theorem mem_signedBy_concat {l : List (SetEvent C)} {e : SetEvent C} {j : ServerId} {m : Bytes} :
    m ∈ S.signedBy (l ++ [e]) j ↔
      m ∈ S.signedBy l j ∨ (e.1 = j ∧ m ∈ (S.state l e.1).signs S.sid e.2) := by
  unfold signedBy
  rw [steps_concat, List.flatMap_append, List.mem_append]
  refine or_congr_right ?_
  rw [List.flatMap_singleton]
  by_cases he : e.1 = j
  · simp [he]
  · simp [he]

/-- A lane links only items it has accepted. -/
theorem accepted_of_signed {j : ServerId} (hj : j ∈ S.honest) {d : Digest} :
    ∀ l : List (SetEvent C), relaySigningBytes S.sid d ∈ S.signedBy l j →
      (S.state l j).accepted.contains d = true := by
  intro l
  induction l using List.reverseRecOn with
  | nil => exact fun h => by cases h
  | append_singleton l e ih =>
    intro h
    have hle := le_state (S := S) (List.prefix_append l [e]) j
    rcases mem_signedBy_concat.mp h with hs | ⟨rfl, hs⟩
    · exact hle.accepted d (ih hs)
    · unfold SetServer.signs at hs
      rcases List.mem_append.mp hs with hs | hs
      · -- The tag of a batch is not the tag of a link.
        split at hs
        · exact absurd (List.mem_singleton.mp hs) relaySigningBytes_ne_batch
        · cases hs
      · obtain ⟨rel, hrel, heq⟩ := List.mem_map.mp hs
        rw [state_concat_self, ← relaySigningBytes_inj heq]
        exact (SetServer.sent_of_mem (grounded_state hj l) (ownKey_state hj l) hrel).2.2

end States

/-! ## The flood -/

section Flood
variable {S evs}

/-- A valid link by an honest lane means that the lane accepted the item
before. -/
theorem accepted_of_link (hun : S.Unforgeable evs) {l : List (SetEvent C)} {i : ServerId}
    {round : Nat} {incoming : List (Relay C)}
    (hσ : (l, (i, SetOp.absorb round incoming)) ∈ steps evs) {r : Relay C} (hr : r ∈ incoming)
    {j : ServerId} (hj : j ∈ S.honest)
    (hseen : j.val ∈ (S.state l i).chainSeen S.sid (r.item.hash S.sid) r.chain) :
    (S.state l j).accepted.contains (r.item.hash S.sid) = true := by
  obtain ⟨link, hlink, hid, vk, hvk, hv⟩ := (SetServer.mem_chainSeen _).mp hseen
  have hlane : link.1 = j := Fin.ext hid
  rw [serverPks_state, S.honest_key j hj] at hvk
  cases hvk
  refine accepted_of_signed hj l ?_
  have := hun _ hσ (link.1, relaySigningBytes S.sid (r.item.hash S.sid), link.2)
    (List.mem_flatMap.mpr ⟨r, hr, List.mem_append_left _ (List.mem_map_of_mem hlink)⟩)
  rw [hlane] at this
  exact this hj hv

/-- **More than `n − k` lanes include an honest one.** -/
theorem exists_honest {lanes : List Nat} (hnd : lanes.Nodup) (hlt : ∀ j ∈ lanes, j < S.pp.rs.n)
    (hlen : S.pp.rs.n - S.pp.rs.k < lanes.length) : ∃ i ∈ S.honest, i.val ∈ lanes := by
  by_contra hno
  have hhon : ∀ i ∈ S.honest, i.val < S.pp.rs.n := by
    intro i hi
    rw [← S.keys_length]
    exact (List.getElem?_eq_some_iff.mp (S.honest_key i hi)).1
  have hdisj : Disjoint (S.honest.image Fin.val) lanes.toFinset := by
    rw [Finset.disjoint_left]
    intro j hj hl
    obtain ⟨i, hi, rfl⟩ := Finset.mem_image.mp hj
    exact hno ⟨i, hi, List.mem_toFinset.mp hl⟩
  have hsub : S.honest.image Fin.val ∪ lanes.toFinset ⊆ Finset.range S.pp.rs.n := by
    intro j hj
    rw [Finset.mem_range]
    rcases Finset.mem_union.mp hj with hj | hj
    · obtain ⟨i, hi, rfl⟩ := Finset.mem_image.mp hj
      exact hhon i hi
    · exact hlt j (List.mem_toFinset.mp hj)
  have hcard := Finset.card_le_card hsub
  rw [Finset.card_union_of_disjoint hdisj, Finset.card_image_of_injective _ Fin.val_injective,
    List.toFinset_card_of_nodup hnd, Finset.card_range] at hcard
  have := S.enough_honest
  have := S.k_le
  omega

theorem chainSeen_lt {l : List (SetEvent C)} {i : ServerId} {d : Digest}
    {chain : List (ServerId × C.Sig)} {j : Nat} (h : j ∈ (S.state l i).chainSeen S.sid d chain) :
    j < S.pp.rs.n := by
  obtain ⟨link, -, -, vk, hvk, -⟩ := (SetServer.mem_chainSeen _).mp h
  rw [serverPks_state] at hvk
  rw [← S.keys_length]
  exact (List.getElem?_eq_some_iff.mp hvk).1

/-- **A relay sent by an honest `absorb(r)` carries `r + 1` valid links**, the
sender's own among them. -/
theorem chainLen_sends (hf : S.Fair evs) {l : List (SetEvent C)} {i : ServerId} {round : Nat}
    {incoming : List (Relay C)} (hσ : (l, (i, SetOp.absorb round incoming)) ∈ steps evs)
    {rel : Relay C} (hrel : rel ∈ S.sends (l, (i, SetOp.absorb round incoming))) :
    round + 1 ≤ (S.state l i).chainLen S.sid (rel.item.hash S.sid) rel.chain ∧
      i.val ∈ (S.state l i).chainSeen S.sid (rel.item.hash S.sid) rel.chain := by
  have hi := hf.honest_only _ (mem_of_mem_steps hσ)
  have hk := ownKey_state hi l
  have hsent := (SetServer.sent_of_mem (grounded_state hi l) hk hrel).1
  cases hsent with
  | absorb hr hnew hlen =>
    rename_i r
    have hown : (S.state l i).serverId.val ∉
        (S.state l i).chainSeen S.sid (r.item.hash S.sid) r.chain := by
      rw [serverId_state]
      intro hseen
      rw [accepted_of_link hf.unforgeable hσ hr hi hseen] at hnew
      cases hnew
    have hext := (S.state l i).chainLen_extend hk hown
    have hmem := (S.state l i).own_mem_extend hk S.sid r
    rw [serverId_state] at hmem
    exact ⟨Nat.le_trans (Nat.succ_le_succ hlen) hext, hmem⟩

/-- **The Dolev–Strong step.**  An item an honest server sends was accepted by an
honest server before, or comes before every other server under enough links in
one of its rounds.  The first case is the last round's: its chain is longer than
the number of misbehaving lanes, so one of its links is honest. -/
theorem flood_step (hf : S.Fair evs) {σ : List (SetEvent C) × SetEvent C} (hσ : σ ∈ steps evs)
    {rel : Relay C} (hrel : rel ∈ S.sends σ) {j : ServerId} (hne : j ≠ σ.2.1)
    (hran : S.Ran evs j) :
    (∃ i ∈ S.honest, (S.state σ.1 i).accepted.contains (rel.item.hash S.sid) = true) ∨
    ∃ l round incoming, (l, (j, SetOp.absorb round incoming)) ∈ steps evs ∧ rel ∈ incoming ∧
      round ≤ (S.state l j).chainLen S.sid (rel.item.hash S.sid) rel.chain := by
  obtain ⟨l, i, op⟩ := σ
  have hi : i ∈ S.honest := hf.honest_only _ (mem_of_mem_steps hσ)
  have hk := ownKey_state hi l
  -- Delivery into the next round, when there is one.
  have deliver : op.stage < relayRounds S.pp →
      op.stage + 1 ≤ (S.state l i).chainLen S.sid (rel.item.hash S.sid) rel.chain →
      ∃ l round incoming, (l, (j, SetOp.absorb round incoming)) ∈ steps evs ∧ rel ∈ incoming ∧
        round ≤ (S.state l j).chainLen S.sid (rel.item.hash S.sid) rel.chain := by
    intro hstage hlen
    obtain ⟨incoming, hin⟩ := hran.2 (op.stage + 1) (by omega) hstage
    obtain ⟨l', hl'⟩ := exists_step_of_mem hin
    refine ⟨l', op.stage + 1, incoming, hl', hf.synchronous _ hσ rel hrel _ hin hne rfl, ?_⟩
    unfold SetServer.chainLen at hlen ⊢
    rwa [SetServer.chainSeen_congr (s := S.state l i) (by rw [serverPks_state, serverPks_state])]
  have hrounds : 0 < relayRounds S.pp := Nat.succ_pos _
  have hsent := (SetServer.sent_of_mem (grounded_state hi l) hk hrel).1
  cases hsent with
  | submit hfr => exact Or.inr (deliver hrounds ((S.state l i).chainLen_firstLink hk _ _))
  | originate hx => exact Or.inr (deliver hrounds ((S.state l i).chainLen_firstLink hk _ _))
  | absorb hr hnew hlen =>
    rename_i round incoming r
    by_cases hlast : round < relayRounds S.pp
    · exact Or.inr (deliver hlast (chainLen_sends hf hσ hrel).1)
    · left
      have hmany : S.pp.rs.n - S.pp.rs.k <
          ((S.state l i).chainSeen S.sid (r.item.hash S.sid) r.chain).length := by
        unfold relayRounds at hlast
        unfold SetServer.chainLen at hlen
        omega
      obtain ⟨i', hi', hseen⟩ := exists_honest ((S.state l i).chainSeen_nodup _ _ _)
        (fun _ hj => chainSeen_lt hj) hmany
      exact ⟨i', hi', accepted_of_link hf.unforgeable hσ hr hi' hseen⟩

/-- **Flooding.**  What some honest server has, and every server newly having it
sends out, reaches everyone: `has` is what a server has at a moment, `goal` what
is to be reached. -/
theorem flood (has : List (SetEvent C) → ServerId → Prop) {goal : Prop}
    (h0 : ∀ i ∈ S.honest, ¬has [] i)
    (hother : ∀ l e i, e.1 ≠ i → has (l ++ [e]) i → has l i)
    (hstep : ∀ σ ∈ steps evs, has (σ.1 ++ [σ.2]) σ.2.1 → ¬has σ.1 σ.2.1 →
      (∃ i ∈ S.honest, has σ.1 i) ∨ goal) :
    ∀ l, l <+: evs → ∀ i ∈ S.honest, has l i → goal := by
  refine prefix_induction (fun i hi h => absurd h (h0 i hi)) (fun σ hσ ih i hi h => ?_)
  by_cases he : σ.2.1 = i
  · subst he
    by_cases hold : has σ.1 σ.2.1
    · exact ih _ hi hold
    · rcases hstep σ hσ h hold with ⟨i', hi', h'⟩ | hgoal
      · exact ih i' hi' h'
      · exact hgoal
  · exact ih i hi (hother _ _ _ he h)

end Flood

end SetSystem
end Anymone
