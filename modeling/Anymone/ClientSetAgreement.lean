import Anymone.ClientSetRun
import Anymone.ClientSetFinalize
import Anymone.ClientSetToy

/-! # Agreement on the pool

After its rounds, an honest server has every batch any honest server accepted
(`accepted_batch_spreads`) and, once the same bulletins are noted everywhere, a
fragment at every index any honest server filled (`taken_index_spreads`).  Both
are the flood of `ClientSetRun` run over what a server has: a batch's hash, or a
client's index.
-/

namespace Anymone
variable {C : SetCrate}

/-- Whether the call is one of the protocol's rounds. -/
def SetOp.isRound : SetOp C → Bool
  | .originate => true
  | .absorb _ _ => true
  | _ => false

/-- Whether the call is an `absorb` round. -/
def SetOp.isAbsorb : SetOp C → Bool
  | .absorb _ _ => true
  | _ => false

/-- Whether the call can change the pool of batches and fragments. -/
def SetOp.isPool : SetOp C → Bool
  | .submit _ => true
  | .originate => true
  | .absorb _ _ => true
  | _ => false

namespace SetSystem
open Trace
variable {S : SetSystem C} {evs : List (SetEvent C)}

/-- By `l` server `j` has run `originate` and every `absorb` round, and it runs
none after. -/
def RoundsOver (S : SetSystem C) (evs l : List (SetEvent C)) (j : ServerId) : Prop :=
  S.Ran l j ∧ ∃ post, evs = l ++ post ∧ ∀ e ∈ post, e.1 = j → e.2.isRound = false

theorem Ran.mono {l l' : List (SetEvent C)} {j : ServerId} (h : S.Ran l j) (hl : l ⊆ l') :
    S.Ran l' j :=
  ⟨hl h.1, fun round h1 h2 => (h.2 round h1 h2).imp (fun _ hin => hl hin)⟩

theorem RoundsOver.isPrefix {l : List (SetEvent C)} {j : ServerId} (h : S.RoundsOver evs l j) :
    l <+: evs := by
  obtain ⟨-, post, rfl, -⟩ := h
  exact List.prefix_append l post

/-! ## Batches -/

theorem mem_shownIn_of_sends (hf : S.Fair evs) {σ : List (SetEvent C) × SetEvent C}
    (hσ : σ ∈ steps evs) {rel : Relay C} (hrel : rel ∈ S.sends σ) : rel.item ∈ S.shownIn evs := by
  have hi := hf.honest_only _ (mem_of_mem_steps hσ)
  have hg := grounded_state hi σ.1
  refine shown_subset hσ ?_
  obtain ⟨l, i, op⟩ := σ
  cases (SetServer.sent_of_mem hg (ownKey_state hi l) hrel).1 with
  | submit hfr => exact List.mem_append_right _ (List.mem_map_of_mem hfr)
  | originate hx =>
    rcases List.mem_cons.mp hx with rfl | hx
    · exact List.mem_append_right _ (List.mem_singleton_self _)
    · obtain ⟨f, hf, rfl⟩ := List.mem_map.mp hx
      obtain ⟨cid, idx, hf⟩ := SetServer.mem_storedFragments.mp hf
      exact List.mem_append_left _ (hg.fragment cid idx f hf).2.2.1
  | absorb hr hnew hlen => exact List.mem_append_right _ (List.mem_map.mpr ⟨_, hr, rfl⟩)

/-- An item with a batch's hash is that batch, up to its signature. -/
theorem batch_of_hash (hf : S.Fair evs) {x : RelayItem C} {b : ReceiptBatch C}
    (hx : x ∈ S.shownIn evs) (hb : RelayItem.batch b ∈ S.shownIn evs)
    (hh : x.hash S.sid = (RelayItem.batch b).hash S.sid) :
    ∃ b', x = .batch b' ∧ b'.serverId = b.serverId ∧ b'.receipts = b.receipts := by
  have hpre := hf.collision_free x hx _ hb hh
  cases x with
  | batch b' => exact ⟨b', rfl, RelayItem.preimage_batch_inj hpre⟩
  | fragment f => exact absurd hpre.symm RelayItem.preimage_batch_ne_fragment

theorem accepted_batch_spreads (hf : S.Fair evs) {b : ReceiptBatch C}
    (hb : RelayItem.batch b ∈ S.shownIn evs) {j : ServerId} (hran : S.Ran evs j)
    {l : List (SetEvent C)} (hl : l <+: evs) {i : ServerId} (hi : i ∈ S.honest)
    (h : (S.state l i).accepted.contains ((RelayItem.batch b).hash S.sid) = true) :
    (S.state evs j).accepted.contains ((RelayItem.batch b).hash S.sid) = true := by
  refine flood (S := S)
    (fun l i => (S.state l i).accepted.contains ((RelayItem.batch b).hash S.sid) = true)
    (fun i _ h0 => ?_) (fun l e i he h' => ?_) (fun σ hσ h' hold => ?_) l hl i hi h
  · rw [state_nil] at h0
    cases h0
  · rwa [state_concat, if_neg he] at h'
  · rw [state_concat_self] at h'
    obtain ⟨rel, hrel, hhash⟩ :=
      SetServer.sent_of_newly_accepted (Bool.not_eq_true _ ▸ hold) h'
    by_cases hne : j = σ.2.1
    · right
      rw [hne, ← state_concat_self] at *
      exact (le_state (prefix_of_mem_steps hσ) _).accepted _ h'
    · rcases flood_step hf hσ hrel hne hran with ⟨i', hi', ha⟩ | ⟨l', round, incoming, hl', hin, hlen⟩
      · rw [hhash] at ha
        exact Or.inl ⟨i', hi', ha⟩
      · right
        have hi' := hf.honest_only _ (mem_of_mem_steps hσ)
        have hsig := (SetServer.sent_of_mem (grounded_state hi' σ.1) (ownKey_state hi' σ.1) hrel).2.1
        obtain ⟨b', hb', -⟩ := batch_of_hash hf (mem_shownIn_of_sends hf hσ hrel) hb hhash
        rw [hb'] at hsig
        have hacc := SetServer.absorb_accepts_batch (s := S.state l' j) hin hlen hb'
          (by rw [serverPks_state, ← serverPks_state σ.1 σ.2.1]; exact hsig)
        have hst := state_concat_self (S := S) l' (j, .absorb round incoming)
        rw [hhash] at hacc
        refine (le_state (prefix_of_mem_steps hl') j).accepted _ ?_
        rw [hst]
        exact hacc

/-- A server accepts no batch outside its rounds. -/
theorem accepted_batch_of_roundsOver (hf : S.Fair evs) {b : ReceiptBatch C}
    (hb : RelayItem.batch b ∈ S.shownIn evs) {l : List (SetEvent C)} {j : ServerId}
    (hover : S.RoundsOver evs l j)
    (h : (S.state evs j).accepted.contains ((RelayItem.batch b).hash S.sid) = true) :
    (S.state l j).accepted.contains ((RelayItem.batch b).hash S.sid) = true := by
  obtain ⟨-, post, rfl, hpost⟩ := hover
  have key : ∀ l', l' <+: post →
      (S.state (l ++ l') j).accepted.contains ((RelayItem.batch b).hash S.sid) = true →
      (S.state l j).accepted.contains ((RelayItem.batch b).hash S.sid) = true := by
    refine prefix_induction (fun h => by rwa [List.append_nil] at h) (fun σ hσ ih h => ?_)
    rw [← List.append_assoc, state_concat] at h
    split_ifs at h with he
    · by_cases hold : (S.state (l ++ σ.1) j).accepted.contains ((RelayItem.batch b).hash S.sid) = true
      · exact ih hold
      · obtain ⟨rel, hrel, hhash⟩ :=
          SetServer.sent_of_newly_accepted (Bool.not_eq_true _ ▸ hold) h
        have hσ' : (l ++ σ.1, σ.2) ∈ steps (l ++ post) := by
          obtain ⟨rest, hrest⟩ := mem_steps.mp hσ
          exact mem_steps.mpr ⟨rest, by rw [hrest, List.append_assoc]⟩
        have hj := hf.honest_only _ (mem_of_mem_steps hσ')
        rw [← he] at hrel
        obtain ⟨b', hb', -⟩ := batch_of_hash hf (mem_shownIn_of_sends hf hσ' hrel) hb hhash
        have hround := hpost σ.2 (mem_of_mem_steps hσ) he
        cases hop : σ.2.2 with
        | receive _ => rw [hop] at hrel; cases hrel
        | noteBulletin _ _ => rw [hop] at hrel; cases hrel
        | submit fs =>
          rw [hop] at hrel
          obtain ⟨f, -, -, rfl, -⟩ := SetServer.mem_submit hrel
          cases hb'
        | originate => rw [hop] at hround; cases hround
        | absorb _ _ => rw [hop] at hround; cases hround
    · exact ih h
  exact key post (List.prefix_refl post) h

/-- **The relay lemma for receipt batches.**  A batch any honest server has
accepted, at any moment, is accepted by every honest server once its rounds are
over; and a relay sent by an honest `absorb(r)` holds valid links of `r + 1`
distinct lanes, the sender's among them. -/
theorem dolev_strong_batches (S : SetSystem C) (evs : List (SetEvent C)) (hf : S.Fair evs) :
    (∀ b, RelayItem.batch b ∈ S.shownIn evs → ∀ i ∈ S.honest, ∀ l, l <+: evs →
      (S.state l i).accepted.contains ((RelayItem.batch b).hash S.sid) = true →
      ∀ j ∈ S.honest, ∀ l', S.RoundsOver evs l' j →
        (S.state l' j).accepted.contains ((RelayItem.batch b).hash S.sid) = true) ∧
    (∀ l i round incoming, (l, (i, SetOp.absorb round incoming)) ∈ steps evs →
      ∀ rel ∈ S.sends (l, (i, SetOp.absorb round incoming)),
        ∃ lanes : List Nat, lanes.Nodup ∧ round + 1 ≤ lanes.length ∧ i.val ∈ lanes ∧
          ∀ j ∈ lanes, ∃ link ∈ rel.chain, link.1.val = j ∧ ∃ vk, S.serverPks[j]? = some vk ∧
            C.verify vk (relaySigningBytes S.sid (rel.item.hash S.sid)) link.2 = true) := by
  refine ⟨fun b hb i hi l hl ha j hj l' hover => ?_, fun l i round incoming hσ rel hrel => ?_⟩
  · have hran : S.Ran evs j := hover.1.mono hover.isPrefix.subset
    exact accepted_batch_of_roundsOver hf hb hover (accepted_batch_spreads hf hb hran hl hi ha)
  · obtain ⟨hlen, hown⟩ := chainLen_sends hf hσ hrel
    refine ⟨_, (S.state l i).chainSeen_nodup S.sid (rel.item.hash S.sid) rel.chain, hlen, hown, ?_⟩
    intro j hj
    have hlink := (SetServer.mem_chainSeen _).mp hj
    unfold SetServer.ValidLink at hlink
    rwa [serverPks_state] at hlink

/-- Client 5 sends its bundle to lane 0 only.  Lane 2 reports it to server 0 and
reports nothing to server 1. -/
def equivocation : List (SetEvent toyCrate) :=
  let start : List (SetEvent toyCrate) :=
    [(0, .noteBulletin 5 (toyPk 77)), (1, .noteBulletin 5 (toyPk 77)),
      (0, .receive (toyBundle 5 77 0)), (0, .originate), (1, .originate)]
  let one := twoHonest.lockstep [0, 1] start 1
    (fun i => [toyBatchRelay 2 (if i = 0 then [toyReceipt 5 77 2] else [])])
  twoHonest.lockstep [0, 1] one 2 (fun _ => [])

theorem equivocation_fair : twoHonest.Fair equivocation := by decide +kernel

/-- Server 1 ends with both of lane 2's batches accepted, the one it was shown
second too. -/
theorem dolev_strong_equivocation :
    twoHonest.Fair equivocation ∧
      (twoHonest.state equivocation 1).accepted.contains
        ((toyBatchRelay 2 [toyReceipt 5 77 2]).item.hash toySid) = true := by
  refine ⟨equivocation_fair, ?_⟩
  refine (dolev_strong_batches twoHonest equivocation equivocation_fair).1 _ ?_ 0 ?_ equivocation
    (List.prefix_refl _) ?_ 1 ?_ equivocation ⟨?_, [], (List.append_nil _).symm, fun e he => ?_⟩
  · decide +kernel
  · decide +kernel
  · decide +kernel
  · decide +kernel
  · decide +kernel
  · cases he

/-! ## Honest lanes sign one batch

`originate` closes the client window, so a lane that originates again reports
the same receipts. -/

theorem held_of_relaying (s : SetServer C) (sid : SessionId) (op : SetOp C)
    (h : s.relaying = true) :
    (s.apply sid op).1.relaying = true ∧ (s.apply sid op).1.held = s.held := by
  cases op with
  | receive b =>
    show (s.receive sid b).1.relaying = true ∧ (s.receive sid b).1.held = s.held
    unfold SetServer.receive
    rw [if_pos (by rw [h]; rfl)]
    exact ⟨h, rfl⟩
  | noteBulletin cid pk => exact ⟨h, rfl⟩
  | submit fs =>
    show (s.acceptFragments sid fs).1.relaying = true ∧ (s.acceptFragments sid fs).1.held = s.held
    rw [SetServer.acceptFragments_frame]
    exact ⟨h, rfl⟩
  | originate => exact ⟨rfl, rfl⟩
  | absorb round incoming =>
    show (s.absorb sid round incoming).1.relaying = true ∧
      (s.absorb sid round incoming).1.held = s.held
    rw [SetServer.absorb_frame]
    exact ⟨h, rfl⟩

/-- Once a lane has originated, its receipts are what they were. -/
theorem receipts_of_originated (l : List (SetEvent C)) (i : ServerId) :
    ∀ l', l ++ [(i, SetOp.originate)] <+: l' → (S.state l' i).receipts = (S.state l i).receipts := by
  rintro l' ⟨post, rfl⟩
  have key : ∀ l', l' <+: post →
      (S.state (l ++ [(i, SetOp.originate)] ++ l') i).relaying = true ∧
      (S.state (l ++ [(i, SetOp.originate)] ++ l') i).held = (S.state l i).held := by
    refine prefix_induction ?_ (fun σ _ ih => ?_)
    · rw [List.append_nil, state_concat_self l (i, SetOp.originate)]
      exact ⟨rfl, rfl⟩
    · rw [← List.append_assoc, state_concat]
      split_ifs
      · obtain ⟨hr, hh⟩ := held_of_relaying _ S.sid σ.2.2 ih.1
        exact ⟨hr, hh.trans ih.2⟩
      · exact ih
  unfold SetServer.receipts
  rw [(key post (List.prefix_refl post)).2]

theorem receipts_of_originate_twice {l l' : List (SetEvent C)} {i : ServerId}
    (h : (l, (i, SetOp.originate)) ∈ steps evs) (h' : (l', (i, SetOp.originate)) ∈ steps evs) :
    (S.state l i).receipts = (S.state l' i).receipts := by
  have hp := prefix_of_mem_steps h
  have hp' := prefix_of_mem_steps h'
  rcases List.prefix_or_prefix_of_prefix hp hp' with hle | hle
  · have h1 := receipts_of_originated (S := S) l i _ hle
    have h2 := receipts_of_originated (S := S) l' i _ (List.prefix_refl _)
    exact h1.symm.trans h2
  · have h1 := receipts_of_originated (S := S) l' i _ hle
    have h2 := receipts_of_originated (S := S) l i _ (List.prefix_refl _)
    exact h2.symm.trans h1

/-- The bytes of a batch are signed only in `originate`. -/
theorem originate_of_signed_batch {i : ServerId} {rs : List (Receipt C)} {l : List (SetEvent C)}
    (h : batchSigningBytes S.sid i rs ∈ S.signedBy l i) :
    ∃ l0, (l0, (i, SetOp.originate)) ∈ steps l ∧ (S.state l0 i).receipts = rs := by
  obtain ⟨⟨l0, i', op⟩, hσ, h⟩ := List.mem_flatMap.mp h
  split_ifs at h with he
  · dsimp only at he
    subst he
    unfold SetServer.signs at h
    rcases List.mem_append.mp h with h | h
    · cases op with
      | originate =>
        refine ⟨l0, hσ, ?_⟩
        exact (batchSigningBytes_inj (List.mem_singleton.mp h)).2.symm
      | _ => cases h
    · obtain ⟨rel, -, heq⟩ := List.mem_map.mp h
      exact absurd heq relaySigningBytes_ne_batch
  · cases h

/-- **A valid batch of an honest lane is the one the lane originated.** -/
theorem originate_of_shown (hf : S.Fair evs) {b : ReceiptBatch C} (hi : b.serverId ∈ S.honest)
    (hb : RelayItem.batch b ∈ S.shownIn evs) (hv : b.verify S.sid S.serverPks = true) :
    ∃ l, (l, (b.serverId, SetOp.originate)) ∈ steps evs ∧
      (S.state l b.serverId).receipts = b.receipts := by
  obtain ⟨⟨l, i, op⟩, hσ, hb⟩ := List.mem_flatMap.mp hb
  cases op with
  | receive _ => cases hb
  | noteBulletin _ _ => cases hb
  | submit fs =>
    obtain ⟨f, -, hf⟩ := List.mem_map.mp hb
    cases hf
  | originate =>
    have heq : b = (S.state l i).batch S.sid := by simpa [SetServer.shown] using hb
    have hid : b.serverId = i := by rw [heq]; exact serverId_state l i
    refine ⟨l, by rw [hid]; exact hσ, ?_⟩
    rw [hid, heq]
    rfl
  | absorb round incoming =>
    obtain ⟨r, hr, hitem⟩ := List.mem_map.mp hb
    have hsigned := hf.unforgeable _ hσ
      (b.serverId, batchSigningBytes S.sid b.serverId b.receipts, b.sig)
      (List.mem_flatMap.mpr ⟨r, hr, List.mem_append_right _ (by rw [hitem]; simp)⟩) hi
    unfold ReceiptBatch.verify at hv
    rw [S.honest_key _ hi] at hv
    obtain ⟨l0, hl0, hrs⟩ := originate_of_signed_batch (hsigned hv)
    have hpre : l <+: evs := (List.prefix_append _ _).trans (prefix_of_mem_steps hσ)
    exact ⟨l0, mem_steps_mono hpre hl0, hrs⟩

theorem receipts_of_honest_lane (hf : S.Fair evs) {b b' : ReceiptBatch C}
    (hi : b.serverId ∈ S.honest) (hb : RelayItem.batch b ∈ S.shownIn evs)
    (hb' : RelayItem.batch b' ∈ S.shownIn evs) (hv : b.verify S.sid S.serverPks = true)
    (hv' : b'.verify S.sid S.serverPks = true) (hid : b.serverId = b'.serverId) :
    b.receipts = b'.receipts := by
  obtain ⟨l, hl, hrs⟩ := originate_of_shown hf hi hb hv
  obtain ⟨l', hl', hrs'⟩ := originate_of_shown hf (hid ▸ hi) hb' hv'
  rw [← hid] at hl' hrs'
  rw [← hrs, ← hrs']
  exact receipts_of_originate_twice hl hl'

/-! ## Fragments -/

/-- `cid` posted `pk`, in a map of bulletins. -/
def PostedIn (B : OrdMap ClientId (OrdSet C.Pk)) (cid : ClientId) (pk : C.Pk) : Prop :=
  ∃ posted, B.get? cid = some posted ∧ posted.contains pk = true

/-- A bulletin the call notes is in `B`. -/
def NotesOnly (B : OrdMap ClientId (OrdSet C.Pk)) : SetOp C → Prop
  | .noteBulletin cid pk => PostedIn B cid pk
  | _ => True

/-- **The same bulletins everywhere**: only bulletins of `B` are noted, and a
server has noted all of them when it runs an `absorb` round. -/
structure SameBulletins (S : SetSystem C) (evs : List (SetEvent C))
    (B : OrdMap ClientId (OrdSet C.Pk)) : Prop where
  only : ∀ e ∈ evs, NotesOnly B e.2
  noted : ∀ σ ∈ steps evs, σ.2.2.isAbsorb = true → (S.state σ.1 σ.2.1).bulletins = B

instance (B : OrdMap ClientId (OrdSet C.Pk)) (cid : ClientId) (pk : C.Pk) :
    Decidable (PostedIn B cid pk) :=
  match h : B.get? cid with
  | none => isFalse (fun ⟨_, hp, _⟩ => by rw [h] at hp; cases hp)
  | some posted => decidable_of_iff (posted.contains pk = true)
      ⟨fun hc => ⟨posted, h, hc⟩, fun ⟨_, hp, hc⟩ => by rw [h] at hp; cases hp; exact hc⟩

instance (B : OrdMap ClientId (OrdSet C.Pk)) : DecidablePred (NotesOnly B)
  | .noteBulletin cid pk => inferInstanceAs (Decidable (PostedIn B cid pk))
  | .receive _ => isTrue trivial
  | .submit _ => isTrue trivial
  | .originate => isTrue trivial
  | .absorb _ _ => isTrue trivial

instance (B : OrdMap ClientId (OrdSet C.Pk)) : Decidable (S.SameBulletins evs B) :=
  decidable_of_iff ((∀ e ∈ evs, NotesOnly B e.2) ∧ ∀ σ ∈ steps evs, σ.2.2.isAbsorb = true →
    (S.state σ.1 σ.2.1).bulletins = B) ⟨fun ⟨h1, h2⟩ => ⟨h1, h2⟩, fun ⟨h1, h2⟩ => ⟨h1, h2⟩⟩

section Bulletins
variable {B : OrdMap ClientId (OrdSet C.Pk)}

theorem bulletins_apply (s : SetServer C) (sid : SessionId) (op : SetOp C) :
    (s.apply sid op).1.bulletins = s.bulletins ∨
      ∃ cid pk, op = .noteBulletin cid pk ∧ (s.apply sid op).1 = s.noteBulletin cid pk := by
  cases op with
  | receive b => left; show (s.receive sid b).1.bulletins = _; rw [SetServer.receive_frame]
  | noteBulletin cid pk => exact Or.inr ⟨cid, pk, rfl, rfl⟩
  | submit fs =>
    left; show (s.acceptFragments sid fs).1.bulletins = _; rw [SetServer.acceptFragments_frame]
  | originate => exact Or.inl rfl
  | absorb round incoming =>
    left; show (s.absorb sid round incoming).1.bulletins = _; rw [SetServer.absorb_frame]

theorem posted_of_noteBulletin {s : SetServer C} {cid c : ClientId} {pk p : C.Pk}
    (h : (s.noteBulletin cid pk).Posted c p) : s.Posted c p ∨ (c = cid ∧ p = pk) := by
  obtain ⟨posted, hp, hc⟩ := h
  unfold SetServer.noteBulletin at hp
  dsimp only at hp
  rw [OrdMap.get?_insert] at hp
  split_ifs at hp with he
  · cases hp
    subst he
    rcases OrdSet.contains_add_iff.mp hc with rfl | hc
    · exact Or.inr ⟨rfl, rfl⟩
    · cases hold : s.bulletins.get? c with
      | none =>
        rw [hold] at hc
        cases hc
      | some posted =>
        rw [hold] at hc
        exact Or.inl ⟨posted, hold, hc⟩
  · exact Or.inl ⟨posted, hp, hc⟩

/-- Whatever an honest server has noted is in `B`. -/
theorem posted_state (hB : S.SameBulletins evs B) {cid : ClientId} {pk : C.Pk} {i : ServerId} :
    ∀ l, l <+: evs → (S.state l i).Posted cid pk → PostedIn B cid pk := by
  refine prefix_induction (fun h => ?_) (fun σ hσ ih h => ?_)
  · obtain ⟨posted, hp, -⟩ := h
    cases hp
  · rw [state_concat] at h
    split_ifs at h with he
    · rcases bulletins_apply (S.state σ.1 i) S.sid σ.2.2 with hb | ⟨c, p, hop, hst⟩
      · unfold SetServer.Posted at h
        rw [hb] at h
        exact ih h
      · rw [hst] at h
        rcases posted_of_noteBulletin h with h | ⟨rfl, rfl⟩
        · exact ih h
        · have hnotes := hB.only σ.2 (mem_of_mem_steps hσ)
          rw [hop] at hnotes
          exact hnotes
    · exact ih h

theorem noteBulletin_of_posted {s : SetServer C} {cid : ClientId} {pk : C.Pk}
    (h : s.Posted cid pk) : (s.noteBulletin cid pk).bulletins = s.bulletins := by
  obtain ⟨posted, hp, hc⟩ := h
  have hadd : OrdSet.add posted pk = posted := by
    refine OrdMap.ext_get? (fun p => ?_)
    unfold OrdSet.add
    rw [OrdMap.get?_insert]
    split_ifs with he
    · subst he
      obtain ⟨u, hu⟩ := OrdMap.contains_iff.mp hc
      exact hu.symm
    · rfl
  refine OrdMap.ext_get? (fun c => ?_)
  unfold SetServer.noteBulletin
  dsimp only
  rw [OrdMap.get?_insert]
  split_ifs with he
  · subst he
    rw [hp, Option.getD_some, hadd]
  · rfl

/-- A server that has run its rounds has noted exactly `B`. -/
theorem bulletins_of_ran (hB : S.SameBulletins evs B) {l : List (SetEvent C)} (hl : l <+: evs)
    {j : ServerId} (hran : S.Ran l j) : (S.state l j).bulletins = B := by
  obtain ⟨incoming, hin⟩ := hran.2 1 le_rfl (Nat.succ_le_succ (Nat.zero_le _))
  obtain ⟨l0, hl0⟩ := exists_step_of_mem hin
  have h0 := hB.noted _ (mem_steps_mono hl hl0) rfl
  obtain ⟨post, rfl⟩ := mem_steps.mp hl0
  have key : ∀ l', l' <+: (j, SetOp.absorb 1 incoming) :: post →
      (S.state (l0 ++ l') j).bulletins = B := by
    refine prefix_induction (by rw [List.append_nil]; exact h0) (fun σ hσ ih => ?_)
    rw [← List.append_assoc, state_concat]
    split_ifs with he
    · rcases bulletins_apply (S.state (l0 ++ σ.1) j) S.sid σ.2.2 with hb | ⟨c, p, hop, hst⟩
      · rw [hb, ih]
      · rw [hst]
        refine (noteBulletin_of_posted ?_).trans ih
        have hnotes := hB.only σ.2 (hl.subset (List.mem_append_right _ (mem_of_mem_steps hσ)))
        rw [hop] at hnotes
        unfold SetServer.Posted
        rw [ih]
        exact hnotes
    · exact ih
  exact key _ (List.prefix_refl _)

/-- **A filled index spreads.**  An index of a client with one key that any honest
server has filled, at any moment, is filled at every honest server that ran its
rounds. -/
theorem taken_index_spreads (hf : S.Fair evs) (hB : S.SameBulletins evs B) {t : SetServer C}
    (ht : t.bulletins = B) {cid : ClientId} {pk : C.Pk} (hk : t.reportedKey cid = some pk)
    {idx : Nat} {j : ServerId} (hj : j ∈ S.honest) (hran : S.Ran evs j)
    {l : List (SetEvent C)} (hl : l <+: evs) {i : ServerId} (hi : i ∈ S.honest)
    (h : (S.state l i).Taken cid idx) : (S.state evs j).Taken cid idx := by
  have hg : ∀ i ∈ S.honest, ∀ l, l <+: evs →
      SetServer.Grounded S.sid (S.shownIn evs) (S.state l i) :=
    fun i hi l hl => (grounded_state hi l).mono (shownIn_subset hl)
  have hn : ∀ l i, (S.state l i).nLanes ≤ 4294967296 := by
    intro l i
    rw [nLanes_state]
    exact S.lanes_named
  have hmono : ∀ l', l' <+: evs → idx < S.pp.rs.n → (S.state l' j).Taken cid idx →
      (S.state evs j).Taken cid idx := by
    intro l' hl' hidx ⟨f, hfr⟩
    obtain ⟨rfl, rfl, -⟩ := (hg j hj l' hl').fragment cid idx f hfr
    exact ((le_state hl' j).holds (.fragment f) ⟨by rw [nLanes_state]; exact hidx, f, hfr⟩).2
  -- `flood`: it is enough to follow the first server that takes the index on to the next.
  refine flood (S := S) (fun l i => (S.state l i).Taken cid idx)
    (fun i _ h0 => ?_) (fun l e i he h' => ?_) (fun σ hσ h' hold => ?_) l hl i hi h
  · obtain ⟨f, hf0⟩ := h0
    cases hf0
  · rwa [state_concat, if_neg he] at h'
  · have hpre : σ.1 <+: evs := (List.prefix_append _ _).trans (prefix_of_mem_steps hσ)
    have hi := hf.honest_only _ (mem_of_mem_steps hσ)
    have htaken := h'
    rw [state_concat_self] at h'
    obtain ⟨rel, hrel, f, hitem, rfl, rfl⟩ := SetServer.sent_of_newly_taken (grounded_state hi σ.1)
      (fun x hx y hy => hf.collision_free x (shown_subset hσ hx) y (shown_subset hσ hy))
      (hn _ _) hold h'
    have hsig := (SetServer.sent_of_mem (grounded_state hi σ.1) (ownKey_state hi σ.1) hrel).2.1
    have hshown := mem_shownIn_of_sends hf hσ hrel
    rw [hitem] at hsig hshown
    obtain ⟨hidx, pk', vk, hposted, hvk, hv⟩ := hsig
    rw [nLanes_state] at hidx
    -- the server that took it is the one asked for, or it sends the fragment on
    by_cases hne : j = σ.2.1
    · right
      refine hmono _ (prefix_of_mem_steps hσ) hidx ?_
      rw [hne]
      exact htaken
    · rcases flood_step hf hσ hrel hne hran with ⟨i', hi', ha⟩ | ⟨l', round, incoming, hl', hin, hlen⟩
      · left
        rw [hitem] at ha
        exact ⟨i', hi', SetServer.taken_of_accepted (hg i' hi' _ hpre) hf.collision_free (hn _ _)
          hshown (by rw [nLanes_state]; exact hidx) ha⟩
      · right
        have hpre' : l' <+: evs := (List.prefix_append _ _).trans (prefix_of_mem_steps hl')
        have hbul := hB.noted _ hl' rfl
        have hkey : (S.state l' j).reportedKey f.clientId = some pk := by
          rw [SetServer.reportedKey_congr (hbul.trans ht.symm), hk]
        -- both posted keys are keys of the client, and it has one
        have hpk : pk' = pk := by
          refine SetServer.eq_of_reportedKey_of_posted hk ?_
          unfold SetServer.Posted
          rw [ht]
          exact posted_state hB σ.1 hpre hposted
        subst hpk
        have htake := SetServer.absorb_takes_fragment hin hlen (hg j hj l' hpre')
          (fun q hq => shown_subset hl' (List.mem_append_right _ (List.mem_map_of_mem hq)))
          hf.collision_free (hn _ _) hitem (by rw [nLanes_state]; exact hidx) hkey hvk hv
        refine hmono _ (prefix_of_mem_steps hl') hidx ?_
        rw [state_concat_self l' (j, SetOp.absorb round incoming)]
        exact htake

end Bulletins

/-! ## The set -/

/-- By `l` server `j` has run `originate` and every `absorb` round, and its pool is
what it finalizes over: nothing changes it after. -/
def PoolClosed (S : SetSystem C) (evs l : List (SetEvent C)) (j : ServerId) : Prop :=
  S.Ran l j ∧ ∃ post, evs = l ++ post ∧ ∀ e ∈ post, e.1 = j → e.2.isPool = false

theorem poolClosed_self {j : ServerId} (h : S.Ran evs j) : S.PoolClosed evs evs j :=
  ⟨h, [], (List.append_nil evs).symm, fun _ he => by cases he⟩

theorem PoolClosed.isPrefix {l : List (SetEvent C)} {j : ServerId} (h : S.PoolClosed evs l j) :
    l <+: evs := by
  obtain ⟨-, post, rfl, -⟩ := h
  exact List.prefix_append l post

theorem pool_apply (s : SetServer C) (sid : SessionId) {op : SetOp C} (h : op.isPool = false) :
    (s.apply sid op).1.batches = s.batches ∧ (s.apply sid op).1.fragments = s.fragments := by
  cases op with
  | receive b =>
    show (s.receive sid b).1.batches = _ ∧ (s.receive sid b).1.fragments = _
    rw [SetServer.receive_frame]
    exact ⟨rfl, rfl⟩
  | noteBulletin cid pk => exact ⟨rfl, rfl⟩
  | submit _ => cases h
  | originate => cases h
  | absorb _ _ => cases h

theorem PoolClosed.pool_eq {l : List (SetEvent C)} {j : ServerId} (h : S.PoolClosed evs l j) :
    (S.state evs j).batches = (S.state l j).batches ∧
      (S.state evs j).fragments = (S.state l j).fragments := by
  obtain ⟨-, post, rfl, hpost⟩ := h
  have key : ∀ l', l' <+: post → (S.state (l ++ l') j).batches = (S.state l j).batches ∧
      (S.state (l ++ l') j).fragments = (S.state l j).fragments := by
    refine prefix_induction (by rw [List.append_nil]; exact ⟨rfl, rfl⟩) (fun σ hσ ih => ?_)
    rw [← List.append_assoc, state_concat]
    split_ifs with he
    · obtain ⟨hb, hfr⟩ := pool_apply (S.state (l ++ σ.1) j) S.sid
        (hpost σ.2 (mem_of_mem_steps hσ) he)
      exact ⟨hb.trans ih.1, hfr.trans ih.2⟩
    · exact ih
  exact key post (List.prefix_refl post)

/-- The fragment is signed by a key its client posted in `B`. -/
def SignedIn (B : OrdMap ClientId (OrdSet C.Pk)) (sid : SessionId) (f : Fragment C) : Prop :=
  ∃ pk vk, PostedIn B f.clientId pk ∧ C.fromSec1Bytes pk = some vk ∧
    C.verify vk (fragmentSigningBytes sid f.clientId f.idx f.data) f.sig = true

/-- No lane shows two receipt lists: any two valid batches of one lane that come
before honest servers agree. -/
def OneBatchPerLane (S : SetSystem C) (evs : List (SetEvent C)) : Prop :=
  ∀ b b', RelayItem.batch b ∈ S.shownIn evs → RelayItem.batch b' ∈ S.shownIn evs →
    b.verify S.sid S.serverPks = true → b'.verify S.sid S.serverPks = true →
    b.serverId = b'.serverId → b.receipts = b'.receipts

/-- No client signs two different fragments for one index, of those that come
before honest servers. -/
def OneFragmentPerIndex (S : SetSystem C) (evs : List (SetEvent C))
    (B : OrdMap ClientId (OrdSet C.Pk)) : Prop :=
  ∀ f f', RelayItem.fragment f ∈ S.shownIn evs → RelayItem.fragment f' ∈ S.shownIn evs →
    SignedIn B S.sid f → SignedIn B S.sid f' → f.clientId = f'.clientId → f.idx = f'.idx →
    f.data = f'.data

/-- A sufficient check: the shown batches of a lane carry one receipt list. -/
theorem oneBatchPerLane_of_forall
    (h : ∀ x ∈ S.shownIn evs, ∀ y ∈ S.shownIn evs, ∀ b ∈ x.batch?, ∀ b' ∈ y.batch?,
      b.serverId = b'.serverId → b.receipts = b'.receipts) : S.OneBatchPerLane evs :=
  fun b b' hb hb' _ _ hid => h _ hb _ hb' b rfl b' rfl hid

/-- A sufficient check: the shown fragments of an index carry one share. -/
theorem oneFragmentPerIndex_of_forall {B : OrdMap ClientId (OrdSet C.Pk)}
    (h : ∀ x ∈ S.shownIn evs, ∀ y ∈ S.shownIn evs, ∀ f ∈ x.fragment?, ∀ f' ∈ y.fragment?,
      f.clientId = f'.clientId → f.idx = f'.idx → f.data = f'.data) :
    S.OneFragmentPerIndex evs B :=
  fun f f' hf hf' _ _ hcid hidx => h _ hf _ hf' f rfl f' rfl hcid hidx

section Sets
variable {B : OrdMap ClientId (OrdSet C.Pk)} {i j : ServerId} {l l' : List (SetEvent C)}

theorem receipts_le (hf : S.Fair evs) (hone : S.OneBatchPerLane evs) (hi : i ∈ S.honest)
    (hj : j ∈ S.honest) (hran : S.Ran evs j) {lane : ServerId} {b : ReceiptBatch C}
    (hb : (S.state evs i).batches.get? lane = some b) :
    ((S.state evs j).batches.get? lane).map ReceiptBatch.receipts = some b.receipts := by
  have hgi := grounded_state hi evs
  have hgj := grounded_state hj evs
  obtain ⟨rfl, hshown, hv, ha⟩ := hgi.batch lane b hb
  have haj := accepted_batch_spreads hf hshown hran (List.prefix_refl evs) hi ha
  obtain ⟨b', hb'⟩ := SetServer.batch_of_accepted hgj hf.collision_free hshown haj
  obtain ⟨hid, hshown', hv', -⟩ := hgj.batch _ b' hb'
  rw [serverPks_state] at hv hv'
  rw [hb', Option.map_some, hone b' b hshown' hshown hv' hv hid]

theorem data_le (hf : S.Fair evs) (hB : S.SameBulletins evs B)
    (hone : S.OneFragmentPerIndex evs B) (hi : i ∈ S.honest) (hj : j ∈ S.honest)
    (hran : S.Ran evs j) {t : SetServer C} (ht : t.bulletins = B) {cid : ClientId} {pk : C.Pk}
    (hk : t.reportedKey cid = some pk) {idx : Nat} {f : Fragment C}
    (hfr : (S.state evs i).fragment? cid idx = some f) :
    ((S.state evs j).fragment? cid idx).map Fragment.data = some f.data := by
  have signed : ∀ {i} (_ : i ∈ S.honest) {f : Fragment C},
      (S.state evs i).SignedByPosted S.sid f → SignedIn B S.sid f := by
    rintro i hi f ⟨-, pk, vk, hp, hvk, hv⟩
    exact ⟨pk, vk, posted_state hB evs (List.prefix_refl evs) hp, hvk, hv⟩
  obtain ⟨f', hf'⟩ := taken_index_spreads hf hB ht hk hj hran (List.prefix_refl evs) hi ⟨f, hfr⟩
  obtain ⟨rfl, rfl, hshown, hsig⟩ := (grounded_state hi evs).fragment cid idx f hfr
  obtain ⟨hcid, hidx, hshown', hsig'⟩ := (grounded_state hj evs).fragment _ _ f' hf'
  rw [hf', Option.map_some, hone f' f hshown' hshown (signed hj hsig') (signed hi hsig) hcid hidx]

theorem option_map_eq_of_le {α β : Type} {f : α → β} {o o' : Option α}
    (h : ∀ a, o = some a → o'.map f = some (f a)) (h' : ∀ a, o' = some a → o.map f = some (f a)) :
    o'.map f = o.map f := by
  cases o with
  | some a => exact h a rfl
  | none =>
    cases o' with
    | none => rfl
    | some a => cases h' a rfl

/-- Two servers whose pools are closed agree on everything the set depends on. -/
theorem sameMatrix_of_closed (hf : S.Fair evs) (hB : S.SameBulletins evs B)
    (hb1 : S.OneBatchPerLane evs) (hf1 : S.OneFragmentPerIndex evs B)
    (hi : i ∈ S.honest) (hj : j ∈ S.honest) (hci : S.PoolClosed evs l i)
    (hcj : S.PoolClosed evs l' j) : (S.state l i).SameMatrix (S.state l' j) := by
  have hri : S.Ran evs i := hci.1.mono hci.isPrefix.subset
  have hrj : S.Ran evs j := hcj.1.mono hcj.isPrefix.subset
  have hbi := bulletins_of_ran hB hci.isPrefix hci.1
  have hbj := bulletins_of_ran hB hcj.isPrefix hcj.1
  refine ⟨by rw [nLanes_state, nLanes_state],
    ((sameLane_state l' j).k.trans (sameLane_state l i).k.symm :), by rw [hbi, hbj], ?_, ?_⟩
  · refine SetServer.matrix_congr (fun lane => ?_)
    rw [← hci.pool_eq.1, ← hcj.pool_eq.1]
    exact option_map_eq_of_le (fun b hb => receipts_le hf hb1 hi hj hrj hb)
      (fun b hb => receipts_le hf hb1 hj hi hri hb)
  · intro cid pk hk
    refine SetServer.samples_congr (grounded_state hi l) (grounded_state hj l') (fun idx => ?_)
    have hfi : (S.state l i).fragment? cid idx = (S.state evs i).fragment? cid idx := by
      unfold SetServer.fragment?
      rw [hci.pool_eq.2]
    have hfj : (S.state l' j).fragment? cid idx = (S.state evs j).fragment? cid idx := by
      unfold SetServer.fragment?
      rw [hcj.pool_eq.2]
    rw [hfi, hfj]
    exact option_map_eq_of_le (fun f hfr => data_le hf hB hf1 hi hj hrj hbi hk hfr)
      (fun f hfr => data_le hf hB hf1 hj hi hri hbi hk hfr)

end Sets

/-- **Client-set agreement.**  In a run with the same bulletins noted everywhere,
where no lane shows two receipt lists and no client two fragments for one index,
any two honest servers that ran their rounds obtain the same set, in the same
order, whenever each finalizes. -/
theorem finalize_agrees (S : SetSystem C) (evs : List (SetEvent C))
    (B : OrdMap ClientId (OrdSet C.Pk)) (hf : S.Fair evs) (hB : S.SameBulletins evs B)
    (hb1 : S.OneBatchPerLane evs) (hf1 : S.OneFragmentPerIndex evs B)
    (i : ServerId) (hi : i ∈ S.honest) (j : ServerId) (hj : j ∈ S.honest)
    (l l' : List (SetEvent C)) (hci : S.PoolClosed evs l i) (hcj : S.PoolClosed evs l' j)
    (key key' : C.PrivateKey) :
    ((S.state l i).finalize S.pp key S.sid).set = ((S.state l' j).finalize S.pp key' S.sid).set :=
  (SetServer.finalize_set_congr (sameMatrix_of_closed hf hB hb1 hf1 hi hj hci hcj)
    (grounded_state hi l) (grounded_state hj l') S.pp key key').symm

/-- The one boot key of client 5. -/
def oneBoot : OrdMap ClientId (OrdSet toyCrate.Pk) :=
  OrdMap.empty.insert 5 (OrdSet.add .empty (toyPk 77))

/-- **A lane that shows two receipt lists splits the set.**  Both servers ran every
round on the same bulletins; each keeps the batch it was shown first. -/
theorem equivocating_lane_splits_the_set :
    twoHonest.Fair equivocation ∧ twoHonest.SameBulletins equivocation oneBoot ∧
      (0 : ServerId) ∈ twoHonest.honest ∧ (1 : ServerId) ∈ twoHonest.honest ∧
      twoHonest.PoolClosed equivocation equivocation 0 ∧
      twoHonest.PoolClosed equivocation equivocation 1 ∧
      ((twoHonest.state equivocation 0).finalize twoHonest.pp () twoHonest.sid).set = [5] ∧
      ((twoHonest.state equivocation 1).finalize twoHonest.pp () twoHonest.sid).set = [] := by
  refine ⟨equivocation_fair, by decide +kernel, by decide +kernel, by decide +kernel,
    poolClosed_self ?_, poolClosed_self ?_, ?_, ?_⟩ <;> decide +kernel

/-- As `equivocation`, with lane 2 reporting client 5 to both servers, and a
fragment of the client at server 0. -/
def oneFace : List (SetEvent toyCrate) :=
  let data : List Nat := [9]
  let fragment : Fragment toyCrate :=
    ⟨5, 1, data, toyCrate.sign (77 : U8) (fragmentSigningBytes (C := toyCrate) toySid 5 1 data)⟩
  let start : List (SetEvent toyCrate) :=
    [(0, .noteBulletin 5 (toyPk 77)), (1, .noteBulletin 5 (toyPk 77)),
      (0, .receive (toyBundle 5 77 0)), (0, .originate), (1, .originate), (0, .submit [fragment])]
  let one := twoHonest.lockstep [0, 1] start 1 (fun _ => [toyBatchRelay 2 [toyReceipt 5 77 2]])
  twoHonest.lockstep [0, 1] one 2 (fun _ => [])

theorem finalize_agrees_oneFace :
    twoHonest.OneBatchPerLane oneFace ∧ twoHonest.OneFragmentPerIndex oneFace oneBoot ∧
      ((twoHonest.state oneFace 0).finalize twoHonest.pp () twoHonest.sid).set =
        ((twoHonest.state oneFace 1).finalize twoHonest.pp () twoHonest.sid).set := by
  have hb1 : twoHonest.OneBatchPerLane oneFace := oneBatchPerLane_of_forall (by decide +kernel)
  have hf1 : twoHonest.OneFragmentPerIndex oneFace oneBoot :=
    oneFragmentPerIndex_of_forall (by decide +kernel)
  refine ⟨hb1, hf1, ?_⟩
  exact finalize_agrees twoHonest oneFace oneBoot (by decide +kernel) (by decide +kernel) hb1 hf1
    0 (by decide +kernel) 1 (by decide +kernel) oneFace oneFace
    (poolClosed_self (by decide +kernel)) (poolClosed_self (by decide +kernel)) () ()

/-- A lane with a valid batch has a key, so where every lane is honest no lane
shows two receipt lists. -/
theorem oneBatchPerLane_of_all_honest (hf : S.Fair evs)
    (hall : ∀ i : ServerId, i.val < S.pp.rs.n → i ∈ S.honest) : S.OneBatchPerLane evs := by
  intro b b' hb hb' hv hv' hid
  refine receipts_of_honest_lane hf (hall _ ?_) hb hb' hv hv' hid
  unfold ReceiptBatch.verify at hv
  cases hk : S.serverPks[b.serverId.val]? with
  | none =>
    rw [hk] at hv
    cases hv
  | some vk =>
    rw [← S.keys_length]
    exact (List.getElem?_eq_some_iff.mp hk).1

/-- **Honest servers are not split by a rebooting client.**  With every lane
honest, the same bulletins noted by the first `absorb` round and one fragment
signed per index, every client is in the set everywhere or nowhere. -/
theorem reboot_cannot_split (S : SetSystem C) (evs : List (SetEvent C))
    (B : OrdMap ClientId (OrdSet C.Pk)) (hf : S.Fair evs)
    (hall : ∀ i : ServerId, i.val < S.pp.rs.n → i ∈ S.honest) (hB : S.SameBulletins evs B)
    (hf1 : S.OneFragmentPerIndex evs B) (cid : ClientId)
    (i : ServerId) (hi : i.val < S.pp.rs.n) (j : ServerId) (hj : j.val < S.pp.rs.n)
    (l l' : List (SetEvent C)) (hci : S.PoolClosed evs l i) (hcj : S.PoolClosed evs l' j)
    (key key' : C.PrivateKey) :
    cid ∈ ((S.state l i).finalize S.pp key S.sid).set ↔
      cid ∈ ((S.state l' j).finalize S.pp key' S.sid).set := by
  have hm := sameMatrix_of_closed hf hB (oneBatchPerLane_of_all_honest hf hall) hf1
    (hall i hi) (hall j hj) hci hcj
  rw [SetServer.finalize_set_congr hm (grounded_state (hall i hi) l)
    (grounded_state (hall j hj) l') S.pp key key']

/-- Client 5 sends all three lanes the bundle of its first boot.  What it posts of a
second one is noted before the rounds (`early`) or after them (`late`). -/
def reboot (early late : List (SetEvent toyCrate)) : List (SetEvent toyCrate) :=
  let start : List (SetEvent toyCrate) :=
    [(0, .noteBulletin 5 (toyPk 77)), (1, .noteBulletin 5 (toyPk 77)),
      (2, .noteBulletin 5 (toyPk 77)), (0, .receive (toyBundle 5 77 0)),
      (1, .receive (toyBundle 5 77 1)), (2, .receive (toyBundle 5 77 2))] ++ early ++
    [(0, .originate), (1, .originate), (2, .originate)]
  let one := allHonest.lockstep [0, 1, 2] start 1 (fun _ => [])
  allHonest.lockstep [0, 1, 2] one 2 (fun _ => []) ++ late

/-- **A second bulletin that reaches one server late splits honest servers.** -/
theorem late_bulletin_splits_honest_servers :
    let evs := reboot [] [(0, .noteBulletin 5 (toyPk 78))]
    allHonest.Fair evs ∧ (∀ i : ServerId, i.val < allHonest.pp.rs.n → i ∈ allHonest.honest) ∧
      allHonest.PoolClosed evs evs 0 ∧ allHonest.PoolClosed evs evs 1 ∧
      5 ∉ ((allHonest.state evs 0).finalize allHonest.pp () allHonest.sid).set ∧
      5 ∈ ((allHonest.state evs 1).finalize allHonest.pp () allHonest.sid).set := by
  refine ⟨by decide +kernel, allHonest_all, poolClosed_self ?_, poolClosed_self ?_, ?_, ?_⟩ <;>
    decide +kernel

/-- The bulletins of both boots. -/
def twoBoots : OrdMap ClientId (OrdSet toyCrate.Pk) :=
  OrdMap.empty.insert 5 (OrdSet.add (OrdSet.add .empty (toyPk 77)) (toyPk 78))

/-- The second bulletin noted at every server in time keeps the client out
everywhere. -/
theorem reboot_cannot_split_early :
    let evs := reboot [(0, .noteBulletin 5 (toyPk 78)), (1, .noteBulletin 5 (toyPk 78)),
      (2, .noteBulletin 5 (toyPk 78))] []
    5 ∈ ((allHonest.state evs 0).finalize allHonest.pp () allHonest.sid).set ↔
      5 ∈ ((allHonest.state evs 1).finalize allHonest.pp () allHonest.sid).set := by
  intro evs
  exact reboot_cannot_split allHonest evs twoBoots (by decide +kernel) allHonest_all
    (by decide +kernel) (oneFragmentPerIndex_of_forall (by decide +kernel)) 5
    0 (by decide +kernel) 1 (by decide +kernel) evs evs
    (poolClosed_self (by decide +kernel)) (poolClosed_self (by decide +kernel)) () ()

end SetSystem
end Anymone
