import Anymone.EthCapability

/-! # The response feed

A feed divides time into epochs and publishes a batch of packets for each closed epoch.
What a service announces (`ServiceDescriptor`), what it accepts (`RequestEnvelope.validate`)
and what a reader takes for a batch (`EpochBatch.validate`) all rest on one clock
arithmetic: an epoch is the floor of the time since the genesis, and closes when the next
one begins (`val_closesAt`).
-/

namespace Anymone.Eth

/-- A checked result: none when it does not fit. -/
def checked (n : Nat) : Option U64 :=
  if h : n < 18446744073709551616 then some ⟨n, h⟩ else none

theorem checked_eq_some {n : Nat} {a : U64} : checked n = some a ↔ a.val = n := by
  unfold checked
  split_ifs with h
  · simp [Fin.ext_iff, eq_comm]
  · simp only [false_iff]
    have := a.isLt
    omega

/-- `FeedDescriptor`. -/
structure FeedDescriptor where
  feed : ByteArr 32
  genesisTime : U64
  epochSeconds : U64
  maxEpochBytes : U32
  retainedEpochs : U32
  deriving DecidableEq

namespace FeedDescriptor
variable (d : FeedDescriptor)

/-- `validate`; its only error is `Error::Context`. -/
def validate : Bool :=
  decide (d.epochSeconds ≠ 0) && decide (1024 ≤ d.maxEpochBytes.val) &&
    decide (d.maxEpochBytes.val ≤ 256 * 1024 * 1024) && decide (d.retainedEpochs ≠ 0) &&
    decide (d.retainedEpochs.val ≤ 65536)

/-- `epoch`. -/
def epoch (now : U64) : Except Error U64 :=
  if !d.validate then .error .context
  else if now < d.genesisTime then .error .context
  else .ok ⟨(now.val - d.genesisTime.val) / d.epochSeconds.val,
    lt_of_le_of_lt (Nat.div_le_self _ _) (by omega)⟩

/-- `closes_at`. -/
def closesAt (epoch : U64) : Except Error U64 :=
  match (checked (epoch.val + 1)).bind (fun e =>
      (checked (e.val * d.epochSeconds.val)).bind (fun t => checked (d.genesisTime.val + t.val))) with
  | some t => .ok t
  | none => .error .limit

variable {d}

theorem epoch_eq_ok {now e : U64} :
    d.epoch now = .ok e ↔ d.validate = true ∧ d.genesisTime ≤ now ∧
      e.val = (now.val - d.genesisTime.val) / d.epochSeconds.val := by
  unfold epoch
  cases hv : d.validate with
  | false => simp
  | true =>
    by_cases hg : now < d.genesisTime
    · simp [hg]
    · simp [hg, not_lt.mp hg, Fin.ext_iff, eq_comm]

theorem val_closesAt {e t : U64} (h : d.closesAt e = .ok t) :
    t.val = d.genesisTime.val + (e.val + 1) * d.epochSeconds.val := by
  unfold closesAt at h
  split at h
  · rename_i t' hsome
    cases h
    obtain ⟨e', he', hrest⟩ := Option.bind_eq_some_iff.mp hsome
    obtain ⟨m, hm, ht⟩ := Option.bind_eq_some_iff.mp hrest
    rw [checked_eq_some.mp ht, checked_eq_some.mp hm, checked_eq_some.mp he']
  · cases h

theorem epochSeconds_pos (h : d.validate = true) : 0 < d.epochSeconds.val := by
  unfold validate at h
  simp only [Bool.and_eq_true, decide_eq_true_eq, ne_eq] at h
  exact Nat.pos_of_ne_zero (fun hz => h.1.1.1.1 (Fin.ext hz))

/-- Epochs follow the clock. -/
theorem epoch_mono {now later cur cur' : U64} (h : now ≤ later) (hcur : d.epoch now = .ok cur)
    (hcur' : d.epoch later = .ok cur') : cur ≤ cur' := by
  obtain ⟨-, -, hc⟩ := epoch_eq_ok.mp hcur
  obtain ⟨-, -, hc'⟩ := epoch_eq_ok.mp hcur'
  rw [Fin.le_def, hc, hc']
  exact Nat.div_le_div_right (Nat.sub_le_sub_right h _)

/-- A later clock has an epoch too. -/
theorem exists_epoch_of_le {now later cur : U64} (h : now ≤ later) (hcur : d.epoch now = .ok cur) :
    ∃ cur', d.epoch later = .ok cur' := by
  obtain ⟨hv, hg, -⟩ := epoch_eq_ok.mp hcur
  exact ⟨⟨(later.val - d.genesisTime.val) / d.epochSeconds.val,
    lt_of_le_of_lt (Nat.div_le_self _ _) (by omega)⟩, epoch_eq_ok.mpr ⟨hv, hg.trans h, rfl⟩⟩

/-- The epoch is closed and still retained. -/
def Retained (d : FeedDescriptor) (epoch current : U64) : Prop :=
  epoch < current ∧ current.val - epoch.val ≤ d.retainedEpochs.val

instance (epoch current : U64) : Decidable (d.Retained epoch current) :=
  inferInstanceAs (Decidable (_ ∧ _))

end FeedDescriptor

/-! ## Services and requests -/

/-- `ServiceLimits`. -/
structure ServiceLimits where
  maxRequestBytes : U32
  maxResponseBytes : U32
  maxBatch : U32
  maxLogBlocks : U64
  maxLifetimeSeconds : U64
  deriving DecidableEq

/-- `ServiceDescriptor`. -/
structure ServiceDescriptor where
  version : U16
  network : ByteArr 32
  chain : U64
  serviceIdentity : ByteArr 32
  signingKey : ByteArr 32
  requestKey : ByteArr 32
  tag : String
  backendRoutes : List String
  limits : ServiceLimits
  feed : FeedDescriptor
  feedMirrors : List String
  expiresAt : U64
  deriving DecidableEq

/-- `ServiceDescriptor::validate`; its only error is `Error::Context`. -/
def ServiceDescriptor.validate (d : ServiceDescriptor) (now : U64) : Bool :=
  decide (d.version = Eth.version) && decide (now < d.expiresAt) && !d.backendRoutes.isEmpty &&
    decide (0 < d.tag.utf8ByteSize) && decide (d.tag.utf8ByteSize ≤ 128) &&
    decide (0 < d.limits.maxRequestBytes.val) &&
    decide (d.limits.maxRequestBytes.val ≤ 1024 * 1024) &&
    decide (0 < d.limits.maxResponseBytes.val) &&
    decide (d.limits.maxResponseBytes.val ≤ 1024 * 1024) &&
    decide (0 < d.limits.maxBatch.val) && decide (d.limits.maxBatch.val ≤ 128) &&
    decide (0 < d.limits.maxLifetimeSeconds.val) &&
    decide (d.limits.maxLifetimeSeconds.val ≤ 86400) &&
    decide (d.limits.maxResponseBytes.val + 512 ≤ d.feed.maxEpochBytes.val) && d.feed.validate

namespace RequestEnvelope
variable (K : EthCrypto)

/-- `payload_digest`. -/
def payloadDigest (backendRoute : String) (payload : Bytes) : Except Error (ByteArr 32) :=
  if maxMessageBytes < 8 + backendRoute.utf8ByteSize + (8 + payload.length) then .error .binary
  else .ok (K.payloadDigest backendRoute payload)

/-- What `validate` asks of the context, the route and the payload, but for the digest. -/
def contextOk (r : RequestEnvelope) (d : ServiceDescriptor) (operation : ByteArr 32) (now : U64) :
    Bool :=
  let context := r.capability.context
  decide (context.version = Eth.version) && decide (context.network = d.network) &&
    decide (context.chain = d.chain) && decide (context.service = d.signingKey) &&
    decide (context.operation = operation) && decide (now < context.expiresAt) &&
    decide (context.expiresAt ≤ d.expiresAt) &&
    decide (context.expiresAt.val - now.val ≤ d.limits.maxLifetimeSeconds.val) &&
    d.backendRoutes.contains r.backendRoute &&
    decide (r.payload.length ≤ d.limits.maxRequestBytes.val)

/-- What `validate` asks of the delivery, but for the current epoch. -/
def deliveryOk (r : RequestEnvelope) (feed : FeedDescriptor) : Bool :=
  let delivery := r.capability.delivery
  decide (delivery.feed = feed.feed) && decide (delivery.firstEpoch ≤ delivery.lastEpoch) &&
    decide (delivery.lastEpoch.val - delivery.firstEpoch.val < feed.retainedEpochs.val)

/-- `RequestEnvelope::validate`. -/
def validate (r : RequestEnvelope) (d : ServiceDescriptor) (operation : ByteArr 32) (now : U64) :
    Except Error Unit :=
  if !d.validate now then .error .context
  else if !r.contextOk d operation now then .error .context
  else do
    let digest ← payloadDigest K r.backendRoute r.payload
    if r.capability.context.requestDigest ≠ digest then .error .context
    else if !r.deliveryOk d.feed then .error .context
    else do
      let current ← d.feed.epoch now
      if r.capability.delivery.lastEpoch < current then .error .context else .ok ()

/-- The length of `to_bytes`. -/
def encodedSize (r : RequestEnvelope) : Nat :=
  32 + 146 + 48 + (8 + r.backendRoute.utf8ByteSize) + (8 + r.payload.length)

/-- `digest(&request.to_bytes()?)`. -/
def digest (r : RequestEnvelope) : Except Error (ByteArr 32) :=
  if maxMessageBytes < r.encodedSize then .error .binary else .ok (K.requestDigest r)

variable {K} {r : RequestEnvelope} {d : ServiceDescriptor} {operation : ByteArr 32} {now : U64}

theorem validate_eq_ok : r.validate K d operation now = .ok () ↔
    d.validate now = true ∧ r.contextOk d operation now = true ∧
      payloadDigest K r.backendRoute r.payload = .ok r.capability.context.requestDigest ∧
      r.deliveryOk d.feed = true ∧
      ∃ current, d.feed.epoch now = .ok current ∧ current ≤ r.capability.delivery.lastEpoch := by
  unfold validate
  cases hd : d.validate now with
  | false => simp
  | true =>
    cases hc : r.contextOk d operation now with
    | false => simp
    | true =>
      cases hp : payloadDigest K r.backendRoute r.payload with
      | error e => simp [bind, Except.bind]
      | ok digest =>
        cases ho : r.deliveryOk d.feed with
        | false => simp [bind, Except.bind]
        | true =>
          cases he : d.feed.epoch now with
          | error e =>
            simp only [bind, Except.bind]
            split_ifs <;> simp
          | ok current =>
            simp only [bind, Except.bind, Bool.not_true, Bool.false_eq_true, if_false, true_and,
              Except.ok.injEq, exists_eq_left']
            by_cases hdig : r.capability.context.requestDigest = digest
            · by_cases hlast : r.capability.delivery.lastEpoch < current
              · simp [hdig, hlast]
              · simp [hdig, hlast, not_lt.mp hlast]
            · simp [hdig, Ne.symm hdig]

theorem lt_expiresAt (h : r.validate K d operation now = .ok ()) :
    now < r.capability.context.expiresAt ∧ r.capability.context.operation = operation := by
  have hc := (validate_eq_ok.mp h).2.1
  unfold contextOk at hc
  simp only [Bool.and_eq_true, decide_eq_true_eq] at hc
  exact ⟨hc.1.1.1.1.2, hc.1.1.1.1.1.2⟩

end RequestEnvelope

/-! ## Batches -/

/-- `EpochBatch`. -/
structure EpochBatch (K : EthCrypto) where
  feed : ByteArr 32
  epoch : U64
  responses : List (ReplyPacket K)
  deriving DecidableEq

variable {K : EthCrypto}

/-- `serialized_size` of the batch of no packets. -/
def framing : Nat := 32 + 8 + 8

/-- `serialized_size` of a batch. -/
def EpochBatch.size (b : EpochBatch K) : Nat := framing + (b.responses.map ReplyPacket.size).sum

/-- `EpochBatch::validate`. -/
def EpochBatch.validate (b : EpochBatch K) (d : FeedDescriptor) (epoch now : U64) :
    Except Error Unit := do
  let current ← d.epoch now
  if b.feed ≠ d.feed ∨ b.epoch ≠ epoch ∨ ¬ d.Retained epoch current ∨ d.maxEpochBytes.val < b.size ∨
      b.responses.any (fun r => r.binding.feed ≠ b.feed || r.binding.epoch ≠ epoch) then
    .error .context
  else if (b.responses.map (fun r => r.binding.locator)).Nodup then .ok ()
  else .error .context

theorem EpochBatch.validate_eq_ok {b : EpochBatch K} {d : FeedDescriptor} {epoch now : U64} :
    b.validate d epoch now = .ok () ↔
      b.feed = d.feed ∧ b.epoch = epoch ∧
        (∃ current, d.epoch now = .ok current ∧ d.Retained epoch current) ∧
        b.size ≤ d.maxEpochBytes.val ∧
        (∀ r ∈ b.responses, r.binding.feed = d.feed ∧ r.binding.epoch = epoch) ∧
        (b.responses.map (fun r => r.binding.locator)).Nodup := by
  unfold EpochBatch.validate
  cases hcur : d.epoch now with
  | error e => simp [bind, Except.bind]
  | ok current =>
    simp only [bind, Except.bind, Except.ok.injEq, exists_eq_left']
    split_ifs with hbad hdup
    · simp only [false_iff]
      rintro ⟨hfeed, hepoch, hret, hsize, hall, -⟩
      rcases hbad with h | h | h | h | h
      · exact h hfeed
      · exact h hepoch
      · exact h hret
      · omega
      · obtain ⟨r, hr, hne⟩ := List.any_eq_true.mp h
        obtain ⟨hf, he⟩ := hall r hr
        simp [hf, he, hfeed] at hne
    · simp only [not_or, not_not, not_lt, Bool.not_eq_true] at hbad
      obtain ⟨hfeed, hepoch, hret, hsize, hall⟩ := hbad
      refine iff_of_true rfl ⟨hfeed, hepoch, hret, hsize, ?_, hdup⟩
      intro r hr
      have := List.any_eq_false.mp hall r hr
      simpa [hfeed] using this
    · simp only [false_iff]
      exact fun h => hdup h.2.2.2.2.2

end Anymone.Eth
