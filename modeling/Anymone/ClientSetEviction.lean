import Anymone.ClientSetAgreement
import Anymone.ClientSetClient

/-! # Who can be evicted

The round may let `n − k` lanes abstain, and the membership loop spends that
budget on clients in id order.  `spend` is the budget on its own: gaps are sets
of lanes, and a gap is paid for when the lanes spent so far and it stay within
the budget.  A client is in the set exactly when its gap can be paid for after
the clients of smaller id (`mem_set_iff`).

For a client whose bundle every honest lane took, the gap lies in the lanes that
misbehave.  It is paid for whenever the gaps before it do too, and it is not when
another client has spent the budget on an honest lane
(`lower_id_client_evicts`).
-/

namespace Anymone
variable {C : SetCrate}

/-! ## Spending a budget in order -/

section Spending
variable {α : Type} [DecidableEq α]

/-- The elements spent after the gaps have been paid for in order, each only if
the budget allows. -/
def spend (budget : Nat) : List (Finset α) → Finset α → Finset α
  | [], spent => spent
  | gap :: gaps, spent =>
      spend budget gaps (if (spent ∪ gap).card ≤ budget then spent ∪ gap else spent)

theorem spend_append (budget : Nat) (gaps gaps' : List (Finset α)) :
    ∀ spent, spend budget (gaps ++ gaps') spent = spend budget gaps' (spend budget gaps spent) := by
  induction gaps with
  | nil => exact fun _ => rfl
  | cons gap gaps ih => exact fun _ => ih _

/-- Gaps inside `t` are paid for with elements of `t`. -/
theorem spend_subset {budget : Nat} {t : Finset α} (gaps : List (Finset α)) :
    ∀ spent, spent ⊆ t → (∀ gap ∈ gaps, gap ⊆ t) → spend budget gaps spent ⊆ t := by
  induction gaps with
  | nil => exact fun _ hs _ => hs
  | cons gap gaps ih =>
    intro spent hs hg
    refine ih _ ?_ (fun g hgm => hg g (List.mem_cons_of_mem _ hgm))
    split_ifs
    · exact Finset.union_subset hs (hg gap (List.mem_cons_self ..))
    · exact hs

end Spending

/-- The bundle a call hands the server. -/
def SetOp.bundle? : SetOp C → Option (Bundle C)
  | .receive b => some b
  | _ => none

namespace SetServer
variable (s : SetServer C) (pp : ProtocolParams) (sid : SessionId)

/-- Whether the call hands the server a bundle of `cid` under `pk` that it
takes. -/
def takes (cid : ClientId) (pk : C.Pk) (op : SetOp C) : Bool :=
  op.bundle?.any (fun b => b.clientId == cid && b.pubkey == pk && (s.receive sid b).2)

/-- The lanes that have to sit the round out if `cid` is in: none when every lane
reported it or its fragments rebuild.  A client without one posted key has no
place in the set. -/
def gap (cid : ClientId) : Option (List Nat) :=
  (s.reportedKey cid).map (fun pkC =>
    let covered := s.covered cid pkC
    let missing := s.missing covered
    if missing.isEmpty || (s.rebuild pp sid cid pkC covered missing).isSome then [] else missing)

/-- Whether `cid` can be served once `spent` is spent. -/
def Affordable (spent : Finset Nat) (cid : ClientId) : Prop :=
  ∃ g, s.gap pp sid cid = some g ∧ (g = [] ∨ (spent ∪ g.toFinset).card ≤ s.nLanes - s.k)

/-- What the clients in `cids` spend, in order. -/
def spentBy (cids : List ClientId) (spent : Finset Nat) : Finset Nat :=
  spend (s.nLanes - s.k) ((cids.filterMap (s.gap pp sid)).map List.toFinset) spent

/-- What the clients of smaller id than `cid` spend. -/
def spentBelow (cid : ClientId) : Finset Nat :=
  s.spentBy pp sid (s.clients.filter (fun c => c < cid)) ∅

theorem gap_eq {cid : ClientId} {pkC : C.Pk} (hk : s.reportedKey cid = some pkC) :
    s.gap pp sid cid = some (if (s.missing (s.covered cid pkC)).isEmpty ||
      (s.rebuild pp sid cid pkC (s.covered cid pkC) (s.missing (s.covered cid pkC))).isSome
      then [] else s.missing (s.covered cid pkC)) := by
  unfold gap
  rw [hk]
  rfl

/-- **One client of the membership loop**: it has no place, costs nothing, is paid
for, or is not. -/
theorem admitOne_cases (acc : Budget C) (cid : ClientId) :
    let acc' := s.admitOne pp sid acc cid
    (s.gap pp sid cid = none ∧ acc'.admitted = acc.admitted ∧ acc'.abstaining = acc.abstaining) ∨
    (s.gap pp sid cid = some [] ∧ acc'.admitted = acc.admitted ++ [(cid, [])] ∧
      acc'.abstaining = acc.abstaining) ∨
    ∃ g, s.gap pp sid cid = some g ∧ g ≠ [] ∧
      ((acc.abstaining.toFinset ∪ g.toFinset).card ≤ s.nLanes - s.k ∧
          acc'.admitted = acc.admitted ++ [(cid, g)] ∧
          acc'.abstaining.toFinset = acc.abstaining.toFinset ∪ g.toFinset ∨
        ¬(acc.abstaining.toFinset ∪ g.toFinset).card ≤ s.nLanes - s.k ∧
          acc'.admitted = acc.admitted ∧ acc'.abstaining = acc.abstaining) := by
  intro acc'
  cases hk : s.reportedKey cid with
  | none =>
    have hacc : acc'.admitted = acc.admitted ∧ acc'.abstaining = acc.abstaining := by
      unfold acc' admitOne
      rw [hk]
      exact ⟨rfl, rfl⟩
    refine Or.inl ⟨?_, hacc⟩
    unfold gap
    rw [hk]
    rfl
  | some pkC =>
    right
    rw [s.gap_eq pp sid hk]
    have hstep : acc' = s.admitOne pp sid acc cid := rfl
    unfold admitOne at hstep
    rw [hk] at hstep
    dsimp only at hstep
    -- what every lane holds, or can rebuild, leaves no gap
    by_cases hempty : (s.missing (s.covered cid pkC)).isEmpty = true
    · left
      rw [if_pos hempty] at hstep
      rw [hstep, hempty]
      exact ⟨rfl, rfl, rfl⟩
    · rw [if_neg hempty] at hstep
      cases hr : s.rebuild pp sid cid pkC (s.covered cid pkC) (s.missing (s.covered cid pkC)) with
      | some bundles =>
        left
        rw [hr] at hstep
        rw [hstep, Option.isSome_some, Bool.or_true]
        exact ⟨rfl, rfl, rfl⟩
      | none =>
        right
        rw [hr] at hstep
        dsimp only at hstep
        rw [← OrdSet.card_toFinset, OrdSet.toFinset_foldl_add] at hstep
        refine ⟨s.missing (s.covered cid pkC), ?_, fun h => hempty (by rw [h]; rfl), ?_⟩
        · rw [if_neg]
          simpa using hempty
        · split_ifs at hstep with hcost
          · refine Or.inl ⟨hcost, by rw [hstep], ?_⟩
            rw [hstep]
            exact OrdSet.toFinset_foldl_add _ _
          · exact Or.inr ⟨hcost, by rw [hstep], by rw [hstep]⟩

theorem spentBy_admitOne (acc : Budget C) (cid : ClientId) :
    (s.admitOne pp sid acc cid).abstaining.toFinset =
      s.spentBy pp sid [cid] acc.abstaining.toFinset := by
  unfold spentBy
  rcases s.admitOne_cases pp sid acc cid with ⟨hg, -, ha⟩ | ⟨hg, -, ha⟩ | ⟨g, hg, -, hc⟩
  · simp [hg, ha, spend]
  · simp [hg, ha, spend]
  · rcases hc with ⟨hle, -, ha⟩ | ⟨hgt, -, ha⟩
    · simp [hg, ha, spend, hle]
    · simp [hg, ha, spend, hgt]

/-- The loop spends what its clients' gaps spend. -/
theorem spentBy_foldl (cids : List ClientId) : ∀ acc : Budget C,
    (cids.foldl (s.admitOne pp sid) acc).abstaining.toFinset =
      s.spentBy pp sid cids acc.abstaining.toFinset := by
  induction cids with
  | nil => exact fun _ => rfl
  | cons cid cids ih =>
    intro acc
    rw [List.foldl_cons, ih, spentBy_admitOne]
    unfold spentBy
    rw [← spend_append, ← List.map_append, ← List.filterMap_append]
    rfl

theorem mem_admitOne (acc : Budget C) (cid c : ClientId) :
    c ∈ (s.admitOne pp sid acc cid).admitted.map Prod.fst ↔
      c ∈ acc.admitted.map Prod.fst ∨
        (c = cid ∧ s.Affordable pp sid acc.abstaining.toFinset cid) := by
  unfold Affordable
  rcases s.admitOne_cases pp sid acc cid with ⟨hg, ha, -⟩ | ⟨hg, ha, -⟩ | ⟨g, hg, hne, hc⟩
  · simp [hg, ha]
  · simp [hg, ha]
  · rcases hc with ⟨hle, ha, -⟩ | ⟨hgt, ha, -⟩
    · simp [hg, ha, hle]
    · simp [hg, ha, hgt, hne]

theorem mem_foldl_admitOne {c : ClientId} (cids : List ClientId) (hc : c ∉ cids) :
    ∀ acc : Budget C, c ∈ (cids.foldl (s.admitOne pp sid) acc).admitted.map Prod.fst ↔
      c ∈ acc.admitted.map Prod.fst := by
  induction cids with
  | nil => exact fun _ => Iff.rfl
  | cons cid cids ih =>
    intro acc
    rw [List.foldl_cons, ih (fun h => hc (List.mem_cons_of_mem _ h)), mem_admitOne]
    refine or_iff_left (fun h => hc ?_)
    rw [h.1]
    exact List.mem_cons_self ..

theorem clients_sorted : s.clients.Pairwise (· < ·) := OrdMap.keys_sorted _

/-- The loop admits a client exactly when some lane reported it and its gap can be
paid for after the clients of smaller id. -/
theorem mem_admitted_iff (cid : ClientId) :
    cid ∈ (s.admission pp sid).admitted.map Prod.fst ↔
      cid ∈ s.clients ∧ s.Affordable pp sid (s.spentBelow pp sid cid) cid := by
  unfold admission
  by_cases hmem : cid ∈ s.clients
  · obtain ⟨before, after, hsplit⟩ := List.append_of_mem hmem
    have hsorted := s.clients_sorted
    rw [hsplit] at hsorted
    obtain ⟨-, hafter, hbefore⟩ := List.pairwise_append.mp hsorted
    obtain ⟨hafter, -⟩ := List.pairwise_cons.mp hafter
    -- Sorted, so the clients of smaller id are the ones before it.
    have hbelow : s.clients.filter (fun c => c < cid) = before := by
      rw [hsplit, List.filter_append, List.filter_cons_of_neg (by simp),
        List.filter_eq_self.mpr (fun c hc => decide_eq_true (hbefore c hc cid (List.mem_cons_self ..))),
        List.filter_eq_nil_iff.mpr (fun c hc => by simpa using (hafter c hc).le), List.append_nil]
    have hna : cid ∉ after := fun h => (hafter cid h).ne rfl
    have hnb : cid ∉ before := fun h => (hbefore cid h cid (List.mem_cons_self ..)).ne rfl
    rw [hsplit, List.foldl_append, List.foldl_cons, mem_foldl_admitOne _ _ _ _ hna, mem_admitOne,
      mem_foldl_admitOne _ _ _ _ hnb, spentBy_foldl]
    unfold spentBelow
    rw [hbelow]
    simp [OrdSet.toFinset, OrdMap.keys, OrdMap.empty]
  · rw [mem_foldl_admitOne _ _ _ _ hmem]
    simp [hmem]

/-- **A client is in the set exactly when some lane reported it and its gap can be
paid for after the clients of smaller id.** -/
theorem mem_set_iff (key : C.PrivateKey) (cid : ClientId) :
    cid ∈ (s.finalize pp key sid).set ↔
      cid ∈ s.clients ∧ s.Affordable pp sid (s.spentBelow pp sid cid) cid := by
  rw [finalize_set]
  exact s.mem_admitted_iff pp sid cid

/-! ## What a lane took -/

/-- The lane holds a bundle of `cid`. -/
def HasBundle (cid : ClientId) : Prop :=
  ∃ held e, s.held.get? cid = some held ∧ e ∈ held.entries

/-- Every bundle the lane holds of `cid` is signed under `pk`. -/
def HeldUnder (cid : ClientId) (pk : C.Pk) : Prop :=
  ∀ held, s.held.get? cid = some held → ∀ e ∈ held.entries, e.2.pubkey = pk

section Holding
variable {s sid} {cid : ClientId} {pk : C.Pk}

theorem held_apply (s : SetServer C) (sid : SessionId) (op : SetOp C) : (s.apply sid op).1.held = s.held ∨
    ∃ b, op = .receive b ∧ (s.apply sid op).1 = (s.receive sid b).1 := by
  cases op with
  | receive b => exact Or.inr ⟨b, rfl, rfl⟩
  | noteBulletin _ _ => exact Or.inl rfl
  | submit fs =>
    left
    show (s.acceptFragments sid fs).1.held = _
    rw [acceptFragments_frame]
  | originate => exact Or.inl rfl
  | absorb round incoming =>
    left
    show (s.absorb sid round incoming).1.held = _
    rw [absorb_frame]

theorem hasBundle_receive {b : Bundle C} (h : (s.receive sid b).2 = true) :
    (s.receive sid b).1.HasBundle b.clientId := by
  rcases s.held_receive sid b with ⟨hf, -⟩ | ⟨hf, -⟩ | ⟨-, hheld⟩
  · rw [h] at hf
    cases hf
  · rw [h] at hf
    cases hf
  · unfold HasBundle
    rw [hheld, OrdMap.get?_insert, if_pos rfl]
    refine ⟨_, (b.hash, b), rfl, OrdMap.get?_eq_some_iff.mp ?_⟩
    rw [OrdMap.get?_insert, if_pos rfl]

theorem HasBundle.apply (h : s.HasBundle cid) (op : SetOp C) :
    (s.apply sid op).1.HasBundle cid := by
  obtain ⟨held, e, hget, he⟩ := h
  rcases s.held_apply sid op with hh | ⟨b, -, hst⟩
  · unfold HasBundle
    rw [hh]
    exact ⟨held, e, hget, he⟩
  · rw [hst]
    unfold HasBundle
    rcases s.held_receive sid b with ⟨-, hh⟩ | ⟨-, hh⟩ | ⟨-, hh⟩
    · rw [hh]
      exact ⟨held, e, hget, he⟩
    · rw [hh, OrdMap.get?_orInsert]
      split_ifs with hc
      · subst hc
        rw [hget]
        exact ⟨held, e, rfl, he⟩
      · exact ⟨held, e, hget, he⟩
    · rw [hh, OrdMap.get?_insert]
      split_ifs with hc
      · subst hc
        refine ⟨_, (b.hash, b), rfl, OrdMap.get?_eq_some_iff.mp ?_⟩
        rw [OrdMap.get?_insert, if_pos rfl]
      · exact ⟨held, e, hget, he⟩

theorem HeldUnder.apply (h : s.HeldUnder cid pk) {op : SetOp C}
    (hop : ∀ b, op = .receive b → b.clientId = cid → b.pubkey = pk) :
    (s.apply sid op).1.HeldUnder cid pk := by
  rcases s.held_apply sid op with hh | ⟨b, hb, hst⟩
  · unfold HeldUnder
    rw [hh]
    exact h
  · rw [hst]
    unfold HeldUnder
    rcases s.held_receive sid b with ⟨-, hh⟩ | ⟨-, hh⟩ | ⟨-, hh⟩
    · rw [hh]
      exact h
    · rw [hh]
      intro held hget e he
      rw [OrdMap.get?_orInsert] at hget
      split_ifs at hget with hc
      · cases hold : s.held.get? b.clientId with
        | none =>
          rw [hold] at hget
          cases hget
          cases he
        | some held' =>
          rw [hold] at hget
          cases hget
          exact h held' (hc ▸ hold) e he
      · exact h held hget e he
    · rw [hh]
      intro held hget e he
      rw [OrdMap.get?_insert] at hget
      split_ifs at hget with hc
      · cases hget
        have he := OrdMap.get?_eq_some_iff.mpr he
        rw [OrdMap.get?_insert] at he
        split_ifs at he with heq
        · rw [← Option.some.inj he]
          exact hop b hb hc.symm
        · cases hold : s.held.get? b.clientId with
          | none =>
            rw [hold] at he
            cases he
          | some held' =>
            rw [hold] at he
            exact h held' (hc ▸ hold) e (OrdMap.get?_eq_some_iff.mp he)
      · exact h held hget e he

/-- A lane reports every client it holds a bundle of. -/
theorem receipt_of_hasBundle (pk : C.Pk) (h : s.HasBundle cid) :
    ∃ r ∈ s.receipts, r.clientId = cid ∧ (s.HeldUnder cid pk → r.pkC = pk) := by
  obtain ⟨held, e, hget, he⟩ := h
  cases hhead : held.entries with
  | nil =>
    rw [hhead] at he
    cases he
  | cons first rest =>
    refine ⟨⟨cid, first.2.pubkey, first.1⟩, List.mem_filterMap.mpr ⟨(cid, held), ?_, ?_⟩, rfl, ?_⟩
    · exact OrdMap.get?_eq_some_iff.mp hget
    · dsimp only
      rw [hhead]
      rfl
    · intro hunder
      exact hunder held hget first (by rw [hhead]; exact List.mem_cons_self ..)

end Holding

theorem mem_clients {cid : ClientId} : cid ∈ s.clients ↔
    ∃ lane b, s.batches.get? lane = some b ∧ ∃ r ∈ b.receipts, r.clientId = cid := by
  unfold clients
  rw [mem_sortDedup, List.mem_flatMap]
  constructor
  · rintro ⟨b, hb, hr⟩
    obtain ⟨lane, hlane⟩ := OrdMap.mem_values.mp hb
    exact ⟨lane, b, hlane, List.mem_map.mp hr⟩
  · rintro ⟨lane, b, hlane, hr⟩
    exact ⟨b, OrdMap.mem_values.mpr ⟨lane, hlane⟩, List.mem_map.mpr hr⟩

theorem mem_covered {cid : ClientId} {pkC : C.Pk} {lane : ServerId} {b : ReceiptBatch C}
    (hb : s.batches.get? lane = some b) (hid : b.serverId = lane)
    (hr : ∃ r ∈ b.receipts, r.clientId = cid ∧ r.pkC = pkC) : lane.val ∈ s.covered cid pkC := by
  unfold covered
  rw [List.mem_insertionSort, List.mem_map]
  refine ⟨b, List.mem_filter.mpr ⟨OrdMap.mem_values.mpr ⟨lane, hb⟩, ?_⟩, by rw [hid]⟩
  obtain ⟨r, hr, hcid, hpk⟩ := hr
  exact List.any_eq_true.mpr ⟨r, hr, by simp [hcid, hpk]⟩

theorem gap_subset {cid : ClientId} {g : List Nat} (h : s.gap pp sid cid = some g) {lane : Nat}
    (hl : lane ∈ g) : lane < s.nLanes ∧ ∃ pkC, s.reportedKey cid = some pkC ∧
      lane ∉ s.covered cid pkC := by
  obtain ⟨pkC, hk, rfl⟩ := Option.map_eq_some_iff.mp h
  dsimp only at hl
  split_ifs at hl
  · cases hl
  · obtain ⟨hlt, hn⟩ := List.mem_filter.mp hl
    exact ⟨List.mem_range.mp hlt, pkC, hk, by simpa using hn⟩

end SetServer

namespace SetSystem
open Trace
variable {S : SetSystem C} {evs : List (SetEvent C)}

/-- Lane `i` took a bundle of `cid` signed under `pk`. -/
def Took (S : SetSystem C) (evs : List (SetEvent C)) (cid : ClientId) (pk : C.Pk) (i : ServerId) :
    Prop :=
  ∃ σ ∈ steps evs, σ.2.1 = i ∧ (S.state σ.1 i).takes S.sid cid pk σ.2.2 = true

instance (i : ServerId) (cid : ClientId) (pk : C.Pk) : Decidable (S.Took evs cid pk i) :=
  inferInstanceAs (Decidable (∃ σ ∈ steps evs, _ ∧ _))

/-- No bundle that names `cid` reaches an honest lane under another key. -/
def NamedOnlyBy (S : SetSystem C) (evs : List (SetEvent C)) (cid : ClientId) (pk : C.Pk) : Prop :=
  ∀ e ∈ evs, e.1 ∈ S.honest → ∀ b ∈ e.2.bundle?, b.clientId = cid → b.pubkey = pk

instance (cid : ClientId) (pk : C.Pk) : Decidable (S.NamedOnlyBy evs cid pk) :=
  inferInstanceAs (Decidable (∀ e ∈ evs, _ → ∀ b ∈ e.2.bundle?, _ → _))

/-- The lanes that misbehave. -/
def byzantine (S : SetSystem C) : Finset Nat :=
  Finset.range S.pp.rs.n \ S.honest.image Fin.val

section Eviction
variable {cid : ClientId} {pk : C.Pk} {i j : ServerId}

theorem card_byzantine : S.byzantine.card ≤ S.pp.rs.n - S.pp.rs.k := by
  have hsub : S.honest.image Fin.val ⊆ Finset.range S.pp.rs.n := by
    intro lane hl
    obtain ⟨i, hi, rfl⟩ := Finset.mem_image.mp hl
    rw [Finset.mem_range, ← S.keys_length]
    exact (List.getElem?_eq_some_iff.mp (S.honest_key i hi)).1
  unfold byzantine
  rw [Finset.card_sdiff_of_subset hsub, Finset.card_range,
    Finset.card_image_of_injective _ Fin.val_injective]
  have := S.enough_honest
  omega

theorem hasBundle_of_took (h : S.Took evs cid pk i) : (S.state evs i).HasBundle cid := by
  obtain ⟨⟨l, i, op⟩, hσ, rfl, htakes⟩ := h
  obtain ⟨b, rfl, hcid, htrue⟩ : ∃ b, op = .receive b ∧ b.clientId = cid ∧
      ((S.state l i).receive S.sid b).2 = true := by
    cases op with
    | receive b =>
      have h : ((b.clientId == cid && b.pubkey == pk) &&
        ((S.state l i).receive S.sid b).2) = true := htakes
      rw [Bool.and_eq_true, Bool.and_eq_true] at h
      exact ⟨b, rfl, beq_iff_eq.mp h.1.1, h.2⟩
    | _ => cases htakes
  subst hcid
  have hstep : (S.state (l ++ [(i, SetOp.receive b)]) i).HasBundle b.clientId := by
    rw [state_concat_self l (i, SetOp.receive b)]
    exact SetServer.hasBundle_receive htrue
  exact localState_mono S.start (fun s op => (s.apply S.sid op).1)
    (R := fun s s' => s.HasBundle b.clientId → s'.HasBundle b.clientId)
    (fun _ h => h) (fun h h' hb => h' (h hb)) (fun _ op h => h.apply op)
    (prefix_of_mem_steps hσ) i hstep

theorem heldUnder_state (hi : i ∈ S.honest) (h : S.NamedOnlyBy evs cid pk) :
    ∀ l, l <+: evs → (S.state l i).HeldUnder cid pk := by
  refine prefix_induction ?_ (fun σ hσ ih => ?_)
  · intro held hget
    cases hget
  · rw [state_concat]
    split_ifs with he
    · exact ih.apply (fun b hb hcid =>
        h σ.2 (mem_of_mem_steps hσ) (he ▸ hi) b (by rw [hb]; rfl) hcid)
    · exact ih

/-- **Every server that ran its rounds has the batch an honest lane originated**,
and it lists what the lane holds. -/
theorem batch_of_honest_lane (hf : S.Fair evs) (hi : i ∈ S.honest)
    (hori : (i, SetOp.originate) ∈ evs) (hj : j ∈ S.honest) (hran : S.Ran evs j) :
    ∃ b, (S.state evs j).batches.get? i = some b ∧ b.serverId = i ∧
      b.receipts = (S.state evs i).receipts := by
  obtain ⟨l, hσ⟩ := exists_step_of_mem hori
  have hpre := prefix_of_mem_steps hσ
  let own := (S.state l i).batch S.sid
  have hown : own.serverId = i := serverId_state l i
  have hshown : RelayItem.batch own ∈ S.shownIn evs :=
    shown_subset hσ (List.mem_append_right _ (List.mem_singleton_self _))
  have hv : own.verify S.sid S.serverPks = true := by
    rw [← serverPks_state l i]
    exact SetServer.batch_verify (ownKey_state hi l)
  have ha : (S.state (l ++ [(i, SetOp.originate)]) i).accepted.contains
      ((RelayItem.batch own).hash S.sid) = true := by
    rw [state_concat_self l (i, SetOp.originate)]
    exact SetServer.accepted_originate.mpr (Or.inr ⟨_, List.mem_cons_self .., rfl⟩)
  have haj := accepted_batch_spreads hf hshown hran hpre hi ha
  have hgj := grounded_state hj evs
  obtain ⟨b, hb⟩ := SetServer.batch_of_accepted hgj hf.collision_free hshown haj
  rw [hown] at hb
  obtain ⟨hid, hbshown, hbv, -⟩ := hgj.batch i b hb
  rw [serverPks_state] at hbv
  refine ⟨b, hb, hid, ?_⟩
  rw [receipts_of_honest_lane hf (hid ▸ hi) hbshown hshown hbv hv (hid.trans hown.symm),
    receipts_of_originated l i evs hpre]
  rfl

end Eviction

/-- **When an honest client is kept.**  A client with one noted boot key whose
bundle every honest lane took is in the set exactly when the lanes short of it,
after what the clients of smaller id have spent, fit the budget.  They do when no
honest lane is asked to report it under another key and the clients of smaller id
are short only at lanes that misbehave. -/
theorem honest_client_kept_iff (S : SetSystem C) (evs : List (SetEvent C)) (hf : S.Fair evs)
    (hran : ∀ i ∈ S.honest, S.Ran evs i) (cid : ClientId) (pk : C.Pk)
    (htook : ∀ i ∈ S.honest, S.Took evs cid pk i) (j : ServerId) (hj : j ∈ S.honest)
    (l : List (SetEvent C)) (hclosed : S.PoolClosed evs l j)
    (hkey : (S.state l j).reportedKey cid = some pk) (key : C.PrivateKey) :
    (cid ∈ ((S.state l j).finalize S.pp key S.sid).set ↔
      (S.state l j).Affordable S.pp S.sid ((S.state l j).spentBelow S.pp S.sid cid) cid) ∧
    (S.NamedOnlyBy evs cid pk →
      (∀ c < cid, ∀ g, (S.state l j).gap S.pp S.sid c = some g →
        ∀ lane ∈ g, ∀ i ∈ S.honest, lane ≠ i.val) →
      cid ∈ ((S.state l j).finalize S.pp key S.sid).set) := by
  have hbatch : ∀ i ∈ S.honest, ∃ b, (S.state l j).batches.get? i = some b ∧ b.serverId = i ∧
      b.receipts = (S.state evs i).receipts := by
    intro i hi
    rw [← hclosed.pool_eq.1]
    exact batch_of_honest_lane hf hi (hran i hi).1 hj (hran j hj)
  have hmem : cid ∈ (S.state l j).clients := by
    obtain ⟨b, hb, -, hrs⟩ := hbatch j hj
    obtain ⟨r, hr, hcid, -⟩ := SetServer.receipt_of_hasBundle pk (hasBundle_of_took (htook j hj))
    exact (S.state l j).mem_clients.mpr ⟨j, b, hb, r, hrs ▸ hr, hcid⟩
  have hiff : cid ∈ ((S.state l j).finalize S.pp key S.sid).set ↔
      (S.state l j).Affordable S.pp S.sid ((S.state l j).spentBelow S.pp S.sid cid) cid := by
    rw [SetServer.mem_set_iff]
    exact and_iff_right hmem
  refine ⟨hiff, fun hnamed hbelow => hiff.mpr ?_⟩
  obtain ⟨g, hg⟩ : ∃ g, (S.state l j).gap S.pp S.sid cid = some g :=
    ⟨_, (S.state l j).gap_eq S.pp S.sid hkey⟩
  refine ⟨g, hg, Or.inr ?_⟩
  -- An honest lane reports the client under its key, so its gap avoids honest lanes.
  have hgap : g.toFinset ⊆ S.byzantine := by
    intro lane hl
    obtain ⟨hlt, pk', hk, hn⟩ := (S.state l j).gap_subset S.pp S.sid hg (List.mem_toFinset.mp hl)
    rw [nLanes_state] at hlt
    rw [hkey] at hk
    cases hk
    refine Finset.mem_sdiff.mpr ⟨Finset.mem_range.mpr hlt, fun hhon => hn ?_⟩
    obtain ⟨i, hi, rfl⟩ := Finset.mem_image.mp hhon
    obtain ⟨b, hb, hid, hrs⟩ := hbatch i hi
    obtain ⟨r, hr, hcid, hpk⟩ := SetServer.receipt_of_hasBundle pk (hasBundle_of_took (htook i hi))
    exact (S.state l j).mem_covered hb hid
      ⟨r, hrs ▸ hr, hcid, hpk (heldUnder_state hi hnamed evs (List.prefix_refl evs))⟩
  have hspent : (S.state l j).spentBelow S.pp S.sid cid ⊆ S.byzantine := by
    refine spend_subset _ _ (Finset.empty_subset _) (fun gs hgs => ?_)
    obtain ⟨g', hg', rfl⟩ := List.mem_map.mp hgs
    obtain ⟨c, hc, hgc⟩ := List.mem_filterMap.mp hg'
    have hlt : c < cid := by simpa using (List.mem_filter.mp hc).2
    intro lane hl
    have hl := List.mem_toFinset.mp hl
    have hlane := ((S.state l j).gap_subset S.pp S.sid hgc hl).1
    rw [nLanes_state] at hlane
    refine Finset.mem_sdiff.mpr ⟨Finset.mem_range.mpr hlane, fun hhon => ?_⟩
    obtain ⟨i, hi, he⟩ := Finset.mem_image.mp hhon
    exact hbelow c hlt g' hgc lane hl i hi he.symm
  have hcard := Finset.card_le_card (Finset.union_subset hspent hgap)
  rw [nLanes_state, (sameLane_state l j).k]
  exact hcard.trans card_byzantine

/-- Client 7 sends every lane its bundle; client 5 sends its own everywhere but to
the lanes in `short`.  Lane 2 reports client 5 and withholds client 7. -/
def shortAt (short : List ServerId) : List (SetEvent toyCrate) :=
  let start : List (SetEvent toyCrate) :=
    [(0, .noteBulletin 5 (toyPk 77)), (1, .noteBulletin 5 (toyPk 77)),
      (0, .noteBulletin 7 (toyPk 80)), (1, .noteBulletin 7 (toyPk 80)),
      (0, .receive (toyBundle 7 80 0)), (1, .receive (toyBundle 7 80 1))] ++
    ([0, 1].filter (fun i => i ∉ short)).map (fun i => (i, .receive (toyBundle 5 77 i.val))) ++
    [(0, .originate), (1, .originate)]
  let one := twoHonest.lockstep [0, 1] start 1 (fun _ => [toyBatchRelay 2 [toyReceipt 5 77 2]])
  twoHonest.lockstep [0, 1] one 2 (fun _ => [])

/-- What client 7 makes of the batches the three lanes publish. -/
def client7 (evs : List (SetEvent toyCrate)) : ClientSetState toyCrate :=
  [(twoHonest.state evs 0).batch toySid, (twoHonest.state evs 1).batch toySid,
    ⟨2, [toyReceipt 5 77 2], toyHash []⟩].foldl (fun st b => st.noteBatch b 7)
      (.new ⟨7, (List.range 3).map (toyBundle 7 80)⟩)

/-- **A client of smaller id evicts an honest one.**  Both honest lanes took client
7's bundle and its own rule is silent, one lane being short of it.  Client 5 leaves
lane 0 short of itself and spends the budget of one lane first. -/
theorem lower_id_client_evicts :
    let evs := shortAt [0]
    twoHonest.pp.rs.n / 2 + 1 ≤ twoHonest.pp.rs.k ∧ twoHonest.Fair evs ∧
      (∀ i ∈ twoHonest.honest, twoHonest.Ran evs i ∧ twoHonest.Took evs 7 (toyPk 80) i) ∧
      (∀ i ∈ twoHonest.honest, (twoHonest.state evs i).reportedKey 7 = some (toyPk 80)) ∧
      ((client7 evs).fragmentWire twoHonest.pp twoHonest.sid (80 : U8)).2 = some [] ∧
      ∀ i ∈ twoHonest.honest, twoHonest.PoolClosed evs evs i ∧
        7 ∉ ((twoHonest.state evs i).finalize twoHonest.pp () twoHonest.sid).set := by
  have hran : ∀ i ∈ twoHonest.honest, twoHonest.Ran (shortAt [0]) i :=
    forall_twoHonest (by decide +kernel) (by decide +kernel)
  have htook : ∀ i ∈ twoHonest.honest, twoHonest.Took (shortAt [0]) 7 (toyPk 80) i :=
    forall_twoHonest (by decide +kernel) (by decide +kernel)
  refine ⟨by decide +kernel, by decide +kernel, fun i hi => ⟨hran i hi, htook i hi⟩,
    forall_twoHonest (by decide +kernel) (by decide +kernel), by decide +kernel, ?_⟩
  intro i hi
  refine ⟨poolClosed_self (hran i hi), ?_⟩
  revert i
  exact forall_twoHonest (by decide +kernel) (by decide +kernel)

/-- With client 5 at both honest lanes, client 7 is kept. -/
theorem honest_client_kept_toy :
    7 ∈ ((twoHonest.state (shortAt []) 0).finalize twoHonest.pp () twoHonest.sid).set := by
  refine (honest_client_kept_iff twoHonest (shortAt []) (by decide +kernel)
    (forall_twoHonest (by decide +kernel) (by decide +kernel)) 7 (toyPk 80)
    (forall_twoHonest (by decide +kernel) (by decide +kernel)) 0 (by decide +kernel) (shortAt [])
    (poolClosed_self (by decide +kernel)) (by decide +kernel) ()).2 (by decide +kernel) ?_
  intro c hc g hg lane hl
  -- Only clients 5 and 7 posted a bulletin, and client 5 is short nowhere.
  obtain ⟨pkC, hk, -⟩ := Option.map_eq_some_iff.mp hg
  obtain ⟨posted, hp, -⟩ := SetServer.reportedKey_eq_some hk
  have hkeys : (twoHonest.state (shortAt []) 0).bulletins.keys = [5, 7] := by decide +kernel
  have hc5 : c ∈ [5, 7] := hkeys ▸ OrdMap.mem_keys.mpr ⟨posted, hp⟩
  rcases List.mem_cons.mp hc5 with rfl | hc7
  · have hgap : (twoHonest.state (shortAt []) 0).gap twoHonest.pp twoHonest.sid 5 = some [] := by
      decide +kernel
    rw [hgap] at hg
    cases hg
    cases hl
  · rw [List.mem_singleton.mp hc7] at hc
    exact absurd hc (lt_irrefl 7)

end SetSystem
end Anymone
