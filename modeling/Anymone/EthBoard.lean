import Anymone.EthFeed
import Anymone.OrdMap
import Anymone.Trace

/-! # The response board

Services post packets to a board while their epoch is open; readers fetch the batch of an
epoch once it is closed.  A row of the table is a packet under its epoch and locator, and
keeps who posted it.  Every transaction is one step, and one that fails leaves the board as
it was.

What the board holds of an epoch fits into one batch (`ResponseBoard.Sound`), so that a batch
it serves is one the reader accepts (`validate_of_epoch`).
-/

namespace Anymone.Eth
variable {K : EthCrypto}

/-- The packets of one epoch, by locator, with the service that posted each. -/
abbrev EpochRows (K : EthCrypto) := OrdMap K.Locator (String × ReplyPacket K)

/-- `ResponseBoard`. -/
structure ResponseBoard (K : EthCrypto) where
  descriptor : FeedDescriptor
  responses : OrdMap U64 (EpochRows K)

namespace ResponseBoard

/-- `open`, on a new database. -/
def new (descriptor : FeedDescriptor) : ResponseBoard K := ⟨descriptor, .empty⟩

/-- The rows of an epoch. -/
def rows (b : ResponseBoard K) (epoch : U64) : EpochRows K := (b.responses.get? epoch).getD .empty

/-- `SUM(length(packet))`. -/
def bytesOf (rows : List (String × ReplyPacket K)) : Nat := (rows.map (fun r => r.2.size)).sum

/-- `DELETE FROM responses WHERE epoch<?`. -/
def prune (b : ResponseBoard K) (oldest : U64) : ResponseBoard K :=
  { b with responses := b.responses.retain (fun epoch _ => decide (oldest ≤ epoch)) }

/-- `INSERT INTO responses`. -/
def post (b : ResponseBoard K) (service : String) (epoch : U64) (packet : ReplyPacket K) :
    ResponseBoard K :=
  let rows := (b.rows epoch).insert packet.binding.locator (service, packet)
  { b with responses := b.responses.insert epoch rows }

/-- `enqueue`. -/
def enqueue (b : ResponseBoard K) (service : String) (quotaBytes : U32) (epoch : U64)
    (packet : ReplyPacket K) (now : U64) : Except String (ResponseBoard K) :=
  if packet.binding.feed ≠ b.descriptor.feed ∨ packet.binding.epoch ≠ epoch then
    .error "invalid response binding"
  else do
    let current ← orText (b.descriptor.epoch now)
    if epoch ≠ current then .error "publication slot is not open"
    else
      let pruned := b.prune (epoch.saturatingSub b.descriptor.retainedEpochs.val)
      let rows := pruned.rows epoch
      match rows.get? packet.binding.locator with
      | some (owner, existing) =>
          if owner = service ∧ existing = packet then .ok b
          else .error "conflicting publication retry"
      | none =>
          let total := bytesOf rows.values
          let owned := bytesOf (rows.values.filter (fun r => r.1 = service))
          if b.descriptor.maxEpochBytes.val < total + packet.size + framing ∨
              quotaBytes.val < owned + packet.size then
            .error "publication capacity exhausted"
          else .ok (pruned.post service epoch packet)

/-- `epoch`: the rows of a closed epoch, by locator. -/
def epoch (b : ResponseBoard K) (epoch now : U64) :
    Except String (ResponseBoard K × EpochBatch K) := do
  let current ← orText (b.descriptor.epoch now)
  if ¬ b.descriptor.Retained epoch current then .error "epoch outside retention"
  else
    let pruned := b.prune (current.saturatingSub b.descriptor.retainedEpochs.val)
    .ok (pruned, ⟨b.descriptor.feed, epoch, (pruned.rows epoch).values.map Prod.snd⟩)

/-! ## What a call does -/

variable {b b' : ResponseBoard K}

theorem saturatingSub_le (a : U64) (n : Nat) : a.saturatingSub n ≤ a := by
  rw [Fin.le_def, U64.val_saturatingSub]
  omega

theorem rows_prune (oldest epoch : U64) :
    (b.prune oldest).rows epoch = if oldest ≤ epoch then b.rows epoch else .empty := by
  unfold rows prune
  rw [OrdMap.get?_retain]
  by_cases h : oldest ≤ epoch
  · cases b.responses.get? epoch <;> simp [h, Option.filter]
  · cases b.responses.get? epoch <;> simp [h]

theorem rows_post {service : String} {e e' : U64} {packet : ReplyPacket K} :
    (b.post service e packet).rows e' =
      if e' = e then (b.rows e).insert packet.binding.locator (service, packet) else b.rows e' := by
  unfold post
  rw [rows, OrdMap.get?_insert]
  split_ifs <;> rfl

/-- **An accepted packet is new, in the open epoch, and fits.** -/
theorem enqueue_eq_ok {service : String} {quota : U32} {e : U64} {packet : ReplyPacket K}
    {now : U64} (h : b.enqueue service quota e packet now = .ok b') :
    packet.binding.feed = b.descriptor.feed ∧ packet.binding.epoch = e ∧
      b.descriptor.epoch now = .ok e ∧
      ((b' = b ∧ (b.rows e).get? packet.binding.locator = some (service, packet)) ∨
        ((b.rows e).get? packet.binding.locator = none ∧
          bytesOf (b.rows e).values + packet.size + framing ≤ b.descriptor.maxEpochBytes.val ∧
          bytesOf ((b.rows e).values.filter (fun r => r.1 = service)) + packet.size ≤ quota.val ∧
          b' = (b.prune (e.saturatingSub b.descriptor.retainedEpochs.val)).post service e packet)) := by
  unfold enqueue at h
  split_ifs at h with hbind
  obtain ⟨hfeed, hepoch⟩ := not_or.mp hbind
  rw [ne_eq, not_not] at hfeed hepoch
  cases hcur : b.descriptor.epoch now with
  | error err => simp [hcur, orText, bind, Except.bind] at h
  | ok current =>
    simp only [hcur, orText, bind, Except.bind] at h
    by_cases hopen : e = current
    · subst hopen
      rw [if_neg (not_not.mpr rfl)] at h
      have hrows : (b.prune (e.saturatingSub b.descriptor.retainedEpochs.val)).rows e = b.rows e := by
        rw [rows_prune, if_pos (saturatingSub_le e _)]
      rw [hrows] at h
      refine ⟨hfeed, hepoch, rfl, ?_⟩
      cases hget : (b.rows e).get? packet.binding.locator with
      | some row =>
        obtain ⟨owner, existing⟩ := row
        simp only [hget] at h
        split_ifs at h with hsame
        cases h
        exact Or.inl ⟨rfl, by rw [hsame.1, hsame.2]⟩
      | none =>
        simp only [hget] at h
        split_ifs at h with hfull
        cases h
        obtain ⟨htotal, howned⟩ := not_or.mp hfull
        exact Or.inr ⟨rfl, not_lt.mp htotal, not_lt.mp howned, rfl⟩
    · rw [if_pos hopen] at h
      cases h

/-- A batch served is what the board holds of a retained epoch. -/
theorem epoch_eq_ok {e now : U64} {batch : EpochBatch K} (h : b.epoch e now = .ok (b', batch)) :
    ∃ current, b.descriptor.epoch now = .ok current ∧ b.descriptor.Retained e current ∧
      b' = b.prune (current.saturatingSub b.descriptor.retainedEpochs.val) ∧
      batch = ⟨b.descriptor.feed, e, (b.rows e).values.map Prod.snd⟩ := by
  unfold epoch at h
  cases hcur : b.descriptor.epoch now with
  | error err => simp [hcur, orText, bind, Except.bind] at h
  | ok current =>
    simp only [hcur, orText, bind, Except.bind] at h
    split_ifs at h with hret
    cases h
    refine ⟨current, rfl, hret, rfl, ?_⟩
    rw [rows_prune, if_pos]
    rw [Fin.le_def, U64.val_saturatingSub]
    have := hret.2
    omega

/-! ## What the board holds -/

/-- The rows of an epoch are under their own locators, bound to the feed and the epoch, and
fit into one batch. -/
structure Sound (b : ResponseBoard K) : Prop where
  bound : ∀ e l service packet, (b.rows e).get? l = some (service, packet) →
    packet.binding.locator = l ∧ packet.binding.feed = b.descriptor.feed ∧ packet.binding.epoch = e
  fits : ∀ e, (b.rows e).size ≠ 0 →
    bytesOf (OrdMap.values (b.rows e)) + framing ≤ b.descriptor.maxEpochBytes.val

theorem sound_new (d : FeedDescriptor) : (new d : ResponseBoard K).Sound := by
  refine ⟨?_, ?_⟩
  · intro e l service packet h
    simp [new, rows] at h
  · intro e h
    exact absurd rfl h

theorem Sound.prune (h : b.Sound) (oldest : U64) : (b.prune oldest).Sound := by
  refine ⟨?_, ?_⟩
  · intro e l service packet hget
    rw [rows_prune] at hget
    split_ifs at hget
    · exact h.bound e l service packet hget
    · simp at hget
  · intro e hne
    rw [rows_prune] at hne ⊢
    split_ifs with hle
    · rw [if_pos hle] at hne
      exact h.fits e hne
    · rw [if_neg hle] at hne
      simp [OrdMap.size, OrdMap.empty] at hne

theorem bytesOf_insert {rows : EpochRows K} {l : K.Locator} {service : String}
    {packet : ReplyPacket K} (h : rows.get? l = none) :
    bytesOf (rows.insert l (service, packet)).values = bytesOf rows.values + packet.size := by
  have hperm : (rows.insert l (service, packet)).values.Perm ((service, packet) :: rows.values) :=
    (OrdMap.entries_perm_insert h).map Prod.snd
  unfold bytesOf
  rw [(hperm.map (fun r => r.2.size)).sum_eq, List.map_cons, List.sum_cons, Nat.add_comm]

/-- **Accepting a packet keeps the board sound.** -/
theorem Sound.enqueue (h : b.Sound) {service : String} {quota : U32} {e : U64}
    {packet : ReplyPacket K} {now : U64} (hb : b.enqueue service quota e packet now = .ok b') :
    b'.Sound := by
  obtain ⟨hfeed, hepoch, -, ⟨rfl, -⟩ | ⟨hnew, hfits, -, rfl⟩⟩ := enqueue_eq_ok hb
  · exact h
  · have hpruned := h.prune (e.saturatingSub b.descriptor.retainedEpochs.val)
    have hopen : (b.prune (e.saturatingSub b.descriptor.retainedEpochs.val)).rows e = b.rows e := by
      rw [rows_prune, if_pos (saturatingSub_le e _)]
    refine ⟨?_, ?_⟩
    · intro e' l service' packet' hget
      rw [rows_post, hopen] at hget
      split_ifs at hget with he
      · rw [OrdMap.get?_insert] at hget
        split_ifs at hget with hl
        · cases hget
          exact ⟨hl.symm, hfeed, hepoch.trans he.symm⟩
        · exact he ▸ h.bound e l service' packet' hget
      · exact hpruned.bound e' l service' packet' hget
    · intro e' hne
      rw [rows_post, hopen] at hne ⊢
      split_ifs with he
      · rw [bytesOf_insert hnew]
        exact hfits
      · rw [if_neg he] at hne
        exact hpruned.fits e' hne

/-! ## Runs -/

end ResponseBoard

/-- A call on a board. -/
inductive BoardOp (K : EthCrypto) where
  | enqueue (service : String) (quotaBytes : U32) (epoch : U64) (packet : ReplyPacket K) (now : U64)
  | epoch (epoch now : U64)

namespace ResponseBoard
variable {b b' : ResponseBoard K}

/-- The board after a call; one that fails leaves it as it was. -/
def apply (b : ResponseBoard K) : BoardOp K → ResponseBoard K
  | .enqueue service quota e packet now =>
      match b.enqueue service quota e packet now with
      | .ok b' => b'
      | .error _ => b
  | .epoch e now =>
      match b.epoch e now with
      | .ok (b', _) => b'
      | .error _ => b

/-- The board after a list of calls. -/
def after (d : FeedDescriptor) (ops : List (BoardOp K)) : ResponseBoard K :=
  Trace.run (new d) apply ops

@[simp] theorem after_concat (d : FeedDescriptor) (ops : List (BoardOp K)) (op : BoardOp K) :
    after d (ops ++ [op]) = (after d ops).apply op :=
  Trace.run_concat ..

theorem descriptor_apply (op : BoardOp K) : (b.apply op).descriptor = b.descriptor := by
  cases op with
  | enqueue service quota e packet now =>
    unfold apply
    dsimp only
    split
    · rename_i b' hb
      obtain ⟨-, -, -, ⟨rfl, -⟩ | ⟨-, -, -, rfl⟩⟩ := enqueue_eq_ok hb <;> rfl
    · rfl
  | epoch e now =>
    unfold apply
    dsimp only
    split
    · rename_i b' batch hb
      obtain ⟨current, -, -, rfl, -⟩ := epoch_eq_ok hb
      rfl
    · rfl

theorem Sound.apply (h : b.Sound) (op : BoardOp K) : (b.apply op).Sound := by
  cases op with
  | enqueue service quota e packet now =>
    unfold ResponseBoard.apply
    dsimp only
    split
    · rename_i b' hb
      exact h.enqueue hb
    · exact h
  | epoch e now =>
    unfold ResponseBoard.apply
    dsimp only
    split
    · rename_i b' batch hb
      obtain ⟨current, -, -, rfl, -⟩ := epoch_eq_ok hb
      exact h.prune _
    · exact h

/-- **A board is sound after any calls.** -/
theorem sound_after (d : FeedDescriptor) (ops : List (BoardOp K)) :
    (after d ops : ResponseBoard K).Sound ∧ (after d ops : ResponseBoard K).descriptor = d := by
  induction ops using List.reverseRecOn with
  | nil => exact ⟨sound_new d, rfl⟩
  | append_singleton ops op ih =>
    rw [after_concat]
    exact ⟨ih.1.apply op, (descriptor_apply op).trans ih.2⟩

theorem mem_values {rows : EpochRows K} {packet : ReplyPacket K}
    (h : packet ∈ rows.values.map Prod.snd) : ∃ l service, rows.get? l = some (service, packet) := by
  obtain ⟨⟨service, p⟩, hmem, rfl⟩ := List.mem_map.mp h
  obtain ⟨l, hl⟩ := OrdMap.mem_values.mp hmem
  exact ⟨l, service, hl⟩

/-- **A batch that a sound board serves is one a reader accepts**, whenever the epoch is
retained. -/
theorem validate_of_epoch (h : b.Sound) {e now later current : U64} {batch : EpochBatch K}
    (hb : b.epoch e now = .ok (b', batch)) (hcur : b.descriptor.epoch later = .ok current)
    (hret : b.descriptor.Retained e current) :
    batch.validate b.descriptor e later = .ok () := by
  obtain ⟨-, -, -, -, rfl⟩ := epoch_eq_ok hb
  refine EpochBatch.validate_eq_ok.mpr ⟨rfl, rfl, ⟨current, hcur, hret⟩, ?_, ?_, ?_⟩
  · show framing + _ ≤ _
    have hbytes : ((((b.rows e).values.map Prod.snd)).map ReplyPacket.size).sum =
        bytesOf (b.rows e).values := by
      unfold bytesOf
      rw [List.map_map]
      rfl
    rw [hbytes]
    by_cases hzero : (b.rows e).size = 0
    · have hnil : (b.rows e).values = [] := by
        unfold OrdMap.values
        rw [List.length_eq_zero_iff.mp hzero, List.map_nil]
      have hmin : 1024 ≤ b.descriptor.maxEpochBytes.val := by
        have hv := (FeedDescriptor.epoch_eq_ok.mp hcur).1
        unfold FeedDescriptor.validate at hv
        simp only [Bool.and_eq_true, decide_eq_true_eq] at hv
        exact hv.1.1.1.2
      rw [hnil]
      simp only [bytesOf, framing, List.map_nil, List.sum_nil]
      omega
    · have := h.fits e hzero
      omega
  · intro p hp
    obtain ⟨l, service, hl⟩ := mem_values hp
    obtain ⟨-, hfeed, hepoch⟩ := h.bound e l service p hl
    exact ⟨hfeed, hepoch⟩
  · -- the rows are in the order of their locators
    have hloc : ((b.rows e).values.map Prod.snd).map (fun r => r.binding.locator) =
        (b.rows e).keys := by
      unfold OrdMap.values OrdMap.keys
      rw [List.map_map, List.map_map]
      refine List.map_congr_left ?_
      rintro ⟨l, service, p⟩ hp
      exact (h.bound e l service p (OrdMap.get?_eq_some_iff.mpr hp)).1
    dsimp only
    rw [hloc]
    exact (b.rows e).keys_sorted.imp (fun hlt => ne_of_lt hlt)

end ResponseBoard
end Anymone.Eth
