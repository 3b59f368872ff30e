import Anymone.EthBoard

/-! # Served epochs are final

A packet is accepted only while its epoch is open, and an epoch is served only once it is
closed and before it is deleted.  `filed` is the board that deletes nothing: what was accepted
for each epoch.  The real board agrees with it on every epoch the clock has not left behind
(`rows_eq_filed`), and no call after the close changes it (`filed_of_closed`), so every batch
served for an epoch is the one of all packets accepted for it (`batch_eq_filed`).
-/

namespace Anymone.Eth
variable {K : EthCrypto}

/-- The clock of a call. -/
def BoardOp.now : BoardOp K → U64
  | .enqueue _ _ _ _ now => now
  | .epoch _ now => now

namespace ResponseBoard
variable {b b' : ResponseBoard K} {d : FeedDescriptor} {ops : List (BoardOp K)}

/-- The clock of the calls does not go back. -/
def Ordered (ops : List (BoardOp K)) : Prop := (ops.map BoardOp.now).Pairwise (· ≤ ·)

theorem Ordered.concat {op : BoardOp K} (h : Ordered (ops ++ [op])) :
    Ordered ops ∧ ∀ o ∈ ops, o.now ≤ op.now := by
  unfold Ordered at h
  rw [List.map_append, List.pairwise_append] at h
  exact ⟨h.1, fun o ho => h.2.2 _ (List.mem_map_of_mem ho) _ (by simp)⟩

/-- What comes after a call has no earlier clock. -/
theorem Ordered.split {pre post : List (BoardOp K)} {op : BoardOp K}
    (h : Ordered (pre ++ op :: post)) :
    Ordered pre ∧ (∀ o ∈ pre, o.now ≤ op.now) ∧ ∀ o ∈ op :: post, op.now ≤ o.now := by
  unfold Ordered at h
  rw [List.map_append, List.pairwise_append] at h
  obtain ⟨hpre, htail, hcross⟩ := h
  refine ⟨hpre, fun o ho => hcross _ (List.mem_map_of_mem ho) _ (by simp), fun o ho => ?_⟩
  rcases List.mem_cons.mp ho with rfl | ho
  · exact le_rfl
  · exact List.rel_of_pairwise_cons htail (List.mem_map_of_mem ho)

/-- The board accepted `packet` from `service` for epoch `e` in the run. -/
def Accepted (d : FeedDescriptor) (ops : List (BoardOp K)) (service : String) (e : U64)
    (packet : ReplyPacket K) : Prop :=
  ∃ pre quota now, (pre, .enqueue service quota e packet now) ∈ Trace.steps ops ∧
    ∃ b', (after d pre).enqueue service quota e packet now = .ok b'

/-- `batch` was returned for epoch `e` at `now` in the run. -/
def Served (d : FeedDescriptor) (ops : List (BoardOp K)) (e now : U64) (batch : EpochBatch K) :
    Prop :=
  ∃ pre b', (pre, .epoch e now) ∈ Trace.steps ops ∧ (after d pre).epoch e now = .ok (b', batch)

theorem accepted_concat {op : BoardOp K} {service : String} {e : U64} {packet : ReplyPacket K} :
    Accepted d (ops ++ [op]) service e packet ↔ Accepted d ops service e packet ∨
      ∃ quota now, op = .enqueue service quota e packet now ∧
        ∃ b', (after d ops).enqueue service quota e packet now = .ok b' := by
  unfold Accepted
  rw [Trace.steps_concat]
  constructor
  · rintro ⟨pre, quota, now, hstep, hok⟩
    rcases List.mem_append.mp hstep with hstep | hstep
    · exact Or.inl ⟨pre, quota, now, hstep, hok⟩
    · obtain ⟨rfl, rfl⟩ := Prod.mk.inj (List.mem_singleton.mp hstep)
      exact Or.inr ⟨quota, now, rfl, hok⟩
  · rintro (⟨pre, quota, now, hstep, hok⟩ | ⟨quota, now, rfl, hok⟩)
    · exact ⟨pre, quota, now, List.mem_append_left _ hstep, hok⟩
    · exact ⟨ops, quota, now, List.mem_append_right _ (List.mem_singleton.mpr rfl), hok⟩

/-! ## The board that deletes nothing -/

/-- What one call files for epoch `e`. -/
def file (b : ResponseBoard K) (e : U64) (rows : EpochRows K) : BoardOp K → EpochRows K
  | .enqueue service quota e' packet now =>
      if e' = e ∧ (b.enqueue service quota e' packet now).isOk then
        rows.insert packet.binding.locator (service, packet)
      else rows
  | .epoch _ _ => rows

/-- Everything accepted for epoch `e`, by locator. -/
def filed (d : FeedDescriptor) (ops : List (BoardOp K)) (e : U64) : EpochRows K :=
  (Trace.steps ops).foldl (fun rows σ => (after d σ.1).file e rows σ.2) .empty

theorem filed_concat (op : BoardOp K) (e : U64) :
    filed d (ops ++ [op]) e = (after d ops).file e (filed d ops e) op := by
  unfold filed
  rw [Trace.steps_concat, List.foldl_concat]

theorem file_of_error {e e' : U64} {rows : EpochRows K} {service : String} {quota : U32}
    {packet : ReplyPacket K} {now : U64} {err : String}
    (h : b.enqueue service quota e' packet now = .error err) :
    b.file e rows (.enqueue service quota e' packet now) = rows := by
  unfold file
  dsimp only
  rw [h]
  exact if_neg (fun hand => absurd hand.2 (by simp [Except.isOk, Except.toBool]))

theorem file_of_ok {e e' : U64} {rows : EpochRows K} {service : String} {quota : U32}
    {packet : ReplyPacket K} {now : U64}
    (h : b.enqueue service quota e' packet now = .ok b') :
    b.file e rows (.enqueue service quota e' packet now) =
      if e' = e then rows.insert packet.binding.locator (service, packet) else rows := by
  unfold file
  dsimp only
  rw [h]
  simp [Except.isOk, Except.toBool]

/-- The clock has not left the epoch behind: it is open, or closed and retained. -/
def Kept (d : FeedDescriptor) (t e : U64) : Prop :=
  ∀ cur, d.epoch t = .ok cur → cur.val ≤ e.val + d.retainedEpochs.val

theorem Kept.earlier {t t' e : U64} (h : Kept d t' e) (hle : t ≤ t') : Kept d t e := by
  intro cur hcur
  obtain ⟨cur', hcur'⟩ := FeedDescriptor.exists_epoch_of_le hle hcur
  have hmono : cur.val ≤ cur'.val := FeedDescriptor.epoch_mono hle hcur hcur'
  exact hmono.trans (h cur' hcur')

theorem insert_of_get? {rows : EpochRows K} {l : K.Locator} {row : String × ReplyPacket K}
    (h : rows.get? l = some row) : rows.insert l row = rows := by
  refine OrdMap.ext_get? (fun k => ?_)
  rw [OrdMap.get?_insert]
  split_ifs with hk
  · rw [hk, h]
  · rfl

/-- **The board holds all that was accepted** for an epoch the clock has not left behind. -/
theorem rows_eq_filed (hord : Ordered ops) {t e : U64} (ht : ∀ op ∈ ops, op.now ≤ t)
    (hkept : Kept d t e) : (after d ops : ResponseBoard K).rows e = filed d ops e := by
  induction ops using List.reverseRecOn generalizing t with
  | nil => rfl
  | append_singleton ops op ih =>
    obtain ⟨hord', hle⟩ := hord.concat
    have hnow : Kept d op.now e := hkept.earlier (ht op (by simp))
    have hprev := ih hord' hle hnow
    have hdesc := (sound_after (K := K) d ops).2
    -- A delete leaves the epoch alone.
    have hprune : ∀ cur, d.epoch op.now = .ok cur →
        ((after d ops).prune (cur.saturatingSub d.retainedEpochs.val)).rows e = filed d ops e := by
      intro cur hcur
      have hbound := hnow cur hcur
      rw [rows_prune, if_pos, hprev]
      rw [Fin.le_def, U64.val_saturatingSub]
      omega
    rw [after_concat, filed_concat]
    cases op with
    | enqueue service quota e' packet now =>
      unfold ResponseBoard.apply
      dsimp only
      cases hres : (after d ops).enqueue service quota e' packet now with
      | error err => rw [file_of_error hres]; exact hprev
      | ok b' =>
        rw [file_of_ok hres]
        obtain ⟨-, -, hcur, ⟨rfl, hheld⟩ | ⟨-, -, -, rfl⟩⟩ := enqueue_eq_ok hres
        · split_ifs with he
          · rw [← hprev, insert_of_get? (he ▸ hheld)]
          · exact hprev
        · rw [hdesc] at hcur ⊢
          rw [rows_post]
          split_ifs with he he' he'
          · rw [← he, hprune _ (he ▸ hcur)]
          · exact absurd he.symm he'
          · exact absurd he'.symm he
          · exact hprune _ hcur
    | epoch e' now =>
      unfold ResponseBoard.apply
      dsimp only
      cases hres : (after d ops).epoch e' now with
      | error err => exact hprev
      | ok r =>
        obtain ⟨b', batch⟩ := r
        obtain ⟨cur, hcur, -, rfl, -⟩ := epoch_eq_ok hres
        rw [hdesc] at hcur ⊢
        exact hprune cur hcur

/-- What is filed is what was accepted. -/
theorem get?_filed (hord : Ordered ops) {e : U64} {l : K.Locator} {service : String}
    {packet : ReplyPacket K} : (filed d ops e).get? l = some (service, packet) ↔
      packet.binding.locator = l ∧ Accepted d ops service e packet := by
  induction ops using List.reverseRecOn with
  | nil => simp [filed, Trace.steps, Accepted]
  | append_singleton ops op ih =>
    obtain ⟨hord', hle⟩ := hord.concat
    have ih := ih hord'
    rw [filed_concat, accepted_concat]
    cases op with
    | epoch e' now => simpa [file] using ih
    | enqueue service' quota e' packet' now =>
      cases hres : (after d ops).enqueue service' quota e' packet' now with
      | error err =>
        rw [file_of_error hres, ih]
        refine and_congr_right (fun _ => ⟨Or.inl, ?_⟩)
        rintro (h | ⟨quota, now, heq, b', hok⟩)
        · exact h
        · cases heq
          rw [hres] at hok
          cases hok
      | ok b' =>
        obtain ⟨-, -, hcur, hrow⟩ := enqueue_eq_ok hres
        rw [(sound_after (K := K) d ops).2] at hcur
        rw [file_of_ok hres]
        split_ifs with he
        · subst he
          -- A locator that is taken is taken by this very packet.
          have hsame : ∀ row, (filed d ops e').get? packet'.binding.locator = some row →
              row = (service', packet') := by
            intro row hget
            have hopen : Kept d now e' := by
              intro cur hcur'
              cases hcur.symm.trans hcur'
              exact Nat.le_add_right _ _
            rw [← rows_eq_filed hord' hle hopen] at hget
            rcases hrow with ⟨-, hheld⟩ | ⟨hnone, -⟩
            · exact Option.some.inj (hget.symm.trans hheld)
            · rw [hnone] at hget
              cases hget
          rw [OrdMap.get?_insert]
          split_ifs with hl
          · constructor
            · intro h
              cases h
              exact ⟨hl.symm, Or.inr ⟨quota, now, rfl, b', hres⟩⟩
            · rintro ⟨hlocator, h | ⟨quota, now, heq, -⟩⟩
              · have hget := ih.mpr ⟨hlocator, h⟩
                rw [hl] at hget
                exact congrArg some (hsame _ hget).symm
              · cases heq
                rfl
          · rw [ih]
            refine and_congr_right (fun hlocator => ⟨Or.inl, ?_⟩)
            rintro (h | ⟨quota, now, heq, -⟩)
            · exact h
            · cases heq
              exact absurd hlocator.symm hl
        · rw [ih]
          refine and_congr_right (fun _ => ⟨Or.inl, ?_⟩)
          rintro (h | ⟨quota, now, heq, -⟩)
          · exact h
          · cases heq
            exact absurd rfl he

/-- **No call after the close files anything.** -/
theorem filed_of_closed {pre : List (BoardOp K)} {e : U64} : ∀ {rest : List (BoardOp K)},
    (∀ op ∈ rest, ∀ cur, d.epoch op.now = .ok cur → e < cur) →
      filed d (pre ++ rest) e = filed d pre e := by
  intro rest
  induction rest using List.reverseRecOn with
  | nil => intro _; rw [List.append_nil]
  | append_singleton rest op ih =>
    intro hclosed
    rw [← List.append_assoc, filed_concat, ih (fun o ho => hclosed o (by simp [ho]))]
    cases op with
    | epoch e' now => rfl
    | enqueue service quota e' packet now =>
      cases hres : (after d (pre ++ rest)).enqueue service quota e' packet now with
      | error err => exact file_of_error hres
      | ok b' =>
        rw [file_of_ok hres]
        refine if_neg (fun he => ?_)
        obtain ⟨-, -, hcur, -⟩ := enqueue_eq_ok hres
        rw [(sound_after (K := K) d (pre ++ rest)).2, he] at hcur
        exact lt_irrefl _
          (hclosed (.enqueue service quota e' packet now) (List.mem_append_right _ (by simp)) e hcur)

/-- **A served batch is all that was accepted**, before it or after. -/
theorem batch_eq_filed (hord : Ordered ops) {e now : U64} {batch : EpochBatch K}
    (h : Served d ops e now batch) :
    batch = ⟨d.feed, e, (filed d ops e).values.map Prod.snd⟩ := by
  obtain ⟨pre, b', hstep, hok⟩ := h
  obtain ⟨post, rfl⟩ := Trace.mem_steps.mp hstep
  obtain ⟨hpre, hle, hge⟩ := hord.split
  obtain ⟨cur, hcur, hret, -, rfl⟩ := epoch_eq_ok hok
  rw [(sound_after (K := K) d pre).2] at hcur hret ⊢
  have hrows : (after d pre : ResponseBoard K).rows e = filed d pre e := by
    refine rows_eq_filed hpre hle (fun cur' hcur' => ?_)
    cases hcur.symm.trans hcur'
    have := hret.2
    omega
  rw [hrows, filed_of_closed (fun op hop cur' hcur' => ?_)]
  exact hret.1.trans_le (FeedDescriptor.epoch_mono (hge op hop) hcur hcur')

/-! ## Single calls -/

/-- An accepted packet is held, until its epoch is left behind. -/
theorem Accepted.held (hord : Ordered ops) {service : String} {e t : U64} {packet : ReplyPacket K}
    (h : Accepted d ops service e packet) (ht : ∀ op ∈ ops, op.now ≤ t) (hkept : Kept d t e) :
    ((after d ops : ResponseBoard K).rows e).get? packet.binding.locator = some (service, packet) := by
  rw [rows_eq_filed hord ht hkept]
  exact (get?_filed hord).mpr ⟨rfl, h⟩

/-- A packet the board holds may be posted again, to no effect. -/
theorem enqueue_of_held {service : String} {quota : U32} {e now : U64} {packet : ReplyPacket K}
    (hfeed : packet.binding.feed = b.descriptor.feed) (hepoch : packet.binding.epoch = e)
    (hcur : b.descriptor.epoch now = .ok e)
    (hheld : (b.rows e).get? packet.binding.locator = some (service, packet)) :
    b.enqueue service quota e packet now = .ok b := by
  unfold enqueue
  rw [if_neg (by simp [hfeed, hepoch])]
  have hrows : (b.prune (e.saturatingSub b.descriptor.retainedEpochs.val)).rows e = b.rows e := by
    rw [rows_prune, if_pos (saturatingSub_le e _)]
  simp [hcur, orText, bind, Except.bind, hrows, hheld]

/-- **A new packet leaves its service within the quota.** -/
theorem quota_of_new {service : String} {quota : U32} {e now : U64} {packet : ReplyPacket K}
    (hok : b.enqueue service quota e packet now = .ok b')
    (hnew : (b.rows e).get? packet.binding.locator = none) :
    bytesOf ((b'.rows e).values.filter (fun r => r.1 = service)) ≤ quota.val := by
  obtain ⟨-, -, -, ⟨-, hheld⟩ | ⟨-, -, howned, rfl⟩⟩ := enqueue_eq_ok hok
  · rw [hnew] at hheld
    cases hheld
  · have hrows : (b.prune (e.saturatingSub b.descriptor.retainedEpochs.val)).rows e = b.rows e := by
      rw [rows_prune, if_pos (saturatingSub_le e _)]
    rw [rows_post, if_pos rfl, hrows]
    have hperm : ((b.rows e).insert packet.binding.locator (service, packet)).values.Perm
        ((service, packet) :: (b.rows e).values) := (OrdMap.entries_perm_insert hnew).map Prod.snd
    have hsum := ((hperm.filter (fun r => decide (r.1 = service))).map (fun r => r.2.size)).sum_eq
    unfold bytesOf at howned ⊢
    rw [hsum, List.filter_cons_of_pos (by simp), List.map_cons, List.sum_cons]
    dsimp only
    omega

/-- **Served epochs are final and valid.**  In any run whose clock does not go back: what is
served for an epoch is one batch, which holds each packet accepted for the epoch once and passes
the reader's check when it is returned; a packet newly accepted leaves its service within the
quota given; the same post again, while the epoch is open, succeeds and changes nothing; and a post
that is refused changes nothing. -/
theorem served_final (hord : Ordered ops) :
    (∀ e now now' batch batch', Served d ops e now batch → Served d ops e now' batch' →
      batch' = batch) ∧
    (∀ e now batch, Served d ops e now batch → batch.responses.Nodup ∧
      (∀ packet, packet ∈ batch.responses ↔ ∃ service, Accepted d ops service e packet) ∧
      batch.validate d e now = .ok ()) ∧
    ∀ pre service quota e packet now,
      (pre, .enqueue service quota e packet now) ∈ Trace.steps ops →
      (((after d pre).rows e).get? packet.binding.locator = none →
        ∀ b', (after d pre).enqueue service quota e packet now = .ok b' →
          bytesOf ((b'.rows e).values.filter (fun r => r.1 = service)) ≤ quota.val) ∧
      (Accepted d pre service e packet → d.epoch now = .ok e →
        (after d pre).enqueue service quota e packet now = .ok (after d pre)) ∧
      (∀ err, (after d pre).enqueue service quota e packet now = .error err →
        after d (pre ++ [.enqueue service quota e packet now]) = after d pre) := by
  refine ⟨fun e now now' batch batch' h h' => ?_, fun e now batch h => ?_,
    fun pre service quota e packet now hstep => ⟨fun hnew b' hok => quota_of_new hok hnew, ?_, ?_⟩⟩
  · rw [batch_eq_filed hord h, batch_eq_filed hord h']
  · have hvalid : batch.validate d e now = .ok () := by
      obtain ⟨pre, b', -, hok⟩ := h
      obtain ⟨hsound, hdesc⟩ := sound_after (K := K) d pre
      obtain ⟨cur, hcur, hret, -⟩ := epoch_eq_ok hok
      have := validate_of_epoch hsound hok hcur hret
      rwa [hdesc] at this
    obtain ⟨-, -, -, -, -, hlocators⟩ := EpochBatch.validate_eq_ok.mp hvalid
    refine ⟨List.Nodup.of_map _ hlocators, fun packet => ?_, hvalid⟩
    rw [batch_eq_filed hord h]
    constructor
    · intro hmem
      obtain ⟨l, service, hl⟩ := mem_values hmem
      exact ⟨service, ((get?_filed hord).mp hl).2⟩
    · rintro ⟨service, hacc⟩
      -- the board still has under its locator what was accepted
      have hget := (get?_filed hord).mpr ⟨rfl, hacc⟩
      exact List.mem_map.mpr ⟨_, OrdMap.mem_values.mpr ⟨_, hget⟩, rfl⟩
  · intro hacc hcur
    -- an accepted packet is still held while its epoch runs, so the retry finds it
    obtain ⟨post, rfl⟩ := Trace.mem_steps.mp hstep
    obtain ⟨hpre, hle, -⟩ := hord.split
    have hdesc := (sound_after (K := K) d pre).2
    obtain ⟨p, q, t, hposted, b', hok⟩ := id hacc
    obtain ⟨hfeed, hepoch, -⟩ := enqueue_eq_ok hok
    rw [(sound_after (K := K) d p).2] at hfeed
    refine enqueue_of_held (hfeed.trans (by rw [hdesc])) hepoch (by rw [hdesc]; exact hcur) ?_
    refine hacc.held hpre hle (fun cur hcur' => ?_)
    cases hcur.symm.trans hcur'
    exact Nat.le_add_right _ _
  · intro err herr
    rw [after_concat]
    unfold ResponseBoard.apply
    dsimp only
    rw [herr]

end ResponseBoard

namespace EpochsToy
open ResponseBoard

/-- Primitives of which a board sees only the length of a ciphertext. -/
def crypto : EthCrypto where
  Key := Unit
  Locator := Nat
  Ciphertext := Nat
  SigningKey := Unit
  locatorOrd := inferInstance
  ciphertextEq := inferInstance
  payloadDigest := fun _ _ => .filled 32 0
  requestDigest := fun _ => .filled 32 0
  submissionDigest := fun _ _ _ _ => .filled 32 0
  deriveKey := fun _ _ _ => ()
  mac := fun _ _ _ => (0 : Nat)
  encrypt := fun _ _ _ signed => signed.content.length
  decrypt := fun _ _ _ _ => none
  ciphertextLen := id
  verifyingKey := fun _ => .filled 32 0
  sign := fun _ _ => .filled 64 0
  verifyStrict := fun _ _ _ => true

/-- Epochs of ten seconds. -/
def descriptor : FeedDescriptor := ⟨.filled 32 1, 0, 10, 1024, 3⟩

/-- A packet of `204` bytes for epoch 100. -/
def packet (locator : Nat) : ReplyPacket crypto :=
  ⟨⟨.filled 32 1, 100, locator⟩, ⟨.filled 24 0, (100 : Nat)⟩⟩

/-- A post for epoch 100 at `now`, under a quota of two packets. -/
def post (service : String) (locator : Nat) (now : U64) : BoardOp crypto :=
  .enqueue service 408 100 (packet locator) now

/-- Two services post, one of them twice, and the epoch is read twice. -/
def run : List (BoardOp crypto) :=
  [post "provider" 9 1001, post "provider" 9 1002, post "indexer" 4 1003, .epoch 100 1010,
    .epoch 100 1012]

/-- What is served of it. -/
def batch : EpochBatch crypto := ⟨.filled 32 1, 100, [packet 4, packet 9]⟩

theorem ordered_run : Ordered run := by
  unfold Ordered
  decide

theorem accepted_first : Accepted descriptor (run.take 1) "provider" 100 (packet 9) :=
  ⟨[], 408, 1001, by simp [run, post, Trace.steps], _, rfl⟩

theorem accepted_run : Accepted descriptor run "provider" 100 (packet 9) :=
  ⟨[], 408, 1001, by simp [run, post, Trace.steps], _, rfl⟩

theorem served_run : Served descriptor run 100 1010 batch :=
  ⟨run.take 3, _, by simp [run, Trace.steps], rfl⟩

theorem served_again : Served descriptor run 100 1012 batch :=
  ⟨run.take 4, _, by simp [run, Trace.steps], rfl⟩

/-- Both reads return the two packets that were posted, the retry changed nothing, and what a
read returns is what was accepted. -/
theorem served_final_run :
    Served descriptor run 100 1010 batch ∧ Served descriptor run 100 1012 batch ∧
      (∀ now batch', Served descriptor run 100 now batch' → batch' = batch) ∧
      (∀ packet, packet ∈ batch.responses ↔ ∃ service, Accepted descriptor run service 100 packet) ∧
      batch.responses.Nodup ∧ batch.validate descriptor 100 1010 = .ok () ∧
      (after descriptor (run.take 1)).enqueue "provider" 408 100 (packet 9) 1002 =
        .ok (after descriptor (run.take 1)) := by
  obtain ⟨hsame, hserved, hposts⟩ := served_final ordered_run
  obtain ⟨hnodup, hexact, hvalid⟩ := hserved _ _ _ served_run
  have hstep : (run.take 1, .enqueue "provider" 408 100 (packet 9) 1002) ∈ Trace.steps run := by
    simp [run, post, Trace.steps]
  exact ⟨served_run, served_again, fun _ _ h => hsame _ _ _ _ _ served_run h, hexact, hnodup, hvalid,
    (hposts _ _ _ _ _ _ hstep).2.1 accepted_first rfl⟩

/-- The same post again is refused once its epoch is closed.  While it is open, it succeeds
under a quota its packet does not fit. -/
theorem retry_refused_and_over_quota :
    Accepted descriptor run "provider" 100 (packet 9) ∧
      (after descriptor run).enqueue "provider" 408 100 (packet 9) 1012 =
        .error "publication slot is not open" ∧
      ∃ b', (after descriptor (run.take 1)).enqueue "provider" 1 100 (packet 9) 1005 = .ok b' ∧
        1 < bytesOf ((b'.rows 100).values.filter (fun r => r.1 = "provider")) := by
  refine ⟨accepted_run, rfl, _, rfl, ?_⟩
  decide +kernel

end EpochsToy
end Anymone.Eth
