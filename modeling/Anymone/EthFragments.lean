import Anymone.EthJson
import Anymone.OrdMapTotal
import Anymone.Trace

/-! # Uploads in fragments

A request too long for a carrier is cut into fragments, each sealed on its own with a header that
names the operation, the digest of the whole, its index and how many there are.  One `Reassembler`
takes the fragments of all operations in any order, within limits on the operations and the bytes
it holds; whatever arrives, its accounts are right (`Valid.receive`), and a call changes the entry
of its own operation only (`get?_receive`).
-/

/-- The big-endian bytes of a number. -/
def beBytes (w n : Nat) : Bytes := (leBytes w n).reverse

/-- The number a big-endian byte string spells. -/
def beVal (bs : Bytes) : Nat := leVal bs.reverse

@[simp] theorem beBytes_length (w n : Nat) : (beBytes w n).length = w := by simp [beBytes]

theorem beVal_beBytes {w n : Nat} (h : n < 256 ^ w) : beVal (beBytes w n) = n := by
  rw [beVal, beBytes, List.reverse_reverse, leVal_leBytes, Nat.mod_eq_of_lt h]

namespace Anymone.Eth

/-- `HEADER`. -/
def fragmentHeader : Nat := 76

/-- `HPKE_OVERHEAD`. -/
def hpkeOverhead : Nat := 48

/-- `MAX_FRAGMENTS`. -/
def maxFragments : Nat := 4096

/-- HPKE in base mode under the request domain, and `digest`. -/
structure Hpke where
  Seed : Type
  publicKey : ByteArr 32 → ByteArr 32
  /-- The encapsulated key and the ciphertext. -/
  sealTo : ByteArr 32 → Seed → Bytes → Option (ByteArr 32 × Bytes)
  openWith : ByteArr 32 → ByteArr 32 → Bytes → Option Bytes
  digest : Bytes → ByteArr 32

/-- What is sealed to a key opens with it, and is longer by the tag. -/
structure Hpke.Ideal (H : Hpke) : Prop where
  openWith_sealTo : ∀ {private_ seed m enc ct},
    H.sealTo (H.publicKey private_) seed m = some (enc, ct) → H.openWith private_ enc ct = some m
  length_sealTo : ∀ {public_ seed m enc ct}, H.sealTo public_ seed m = some (enc, ct) →
    ct.length = m.length + 16

section Seal
variable (H : Hpke)

/-- `seal_request`. -/
def sealRequest (publicKey : ByteArr 32) (seed : H.Seed) (plaintext : Bytes) :
    Except Error Bytes :=
  if maxMessageBytes < plaintext.length then .error .limit
  else ((H.sealTo publicKey seed plaintext).map (fun wire => wire.1.val ++ wire.2)).elim
    (.error .authentication) .ok

/-- `open_request`. -/
def openRequest (privateKey : ByteArr 32) (wire : Bytes) : Except Error Bytes :=
  if wire.length < 48 ∨ maxMessageBytes + 48 < wire.length then .error .limit
  else ((toArr? 32 (wire.take 32)).bind
    (fun enc => H.openWith privateKey enc (wire.drop 32))).elim (.error .authentication) .ok

/-- A fragment before it is sealed. -/
structure Fragment where
  operation : ByteArr 32
  digest : ByteArr 32
  expiresAt : U64
  index : Nat
  count : Nat
  content : Bytes

/-- The plaintext of a fragment. -/
def Fragment.plaintext (f : Fragment) : Bytes :=
  f.operation.val ++ f.digest.val ++ beBytes 8 f.expiresAt.val ++ beBytes 2 f.index ++
    beBytes 2 f.count ++ f.content

/-- What `receive` reads out of a plaintext. -/
def Fragment.parse (plaintext : Bytes) : Option Fragment :=
  let slice := fun (a b : Nat) => (plaintext.drop a).take (b - a)
  if plaintext.length ≤ fragmentHeader then none
  else do
    let operation ← toArr? 32 (slice 0 32)
    let digest ← toArr? 32 (slice 32 64)
    some ⟨operation, digest, Fin.ofNat _ (beVal (slice 64 72)), beVal (slice 72 74),
      beVal (slice 74 76), plaintext.drop fragmentHeader⟩

/-- A piece of `chunks`. -/
def chunk (capacity : Nat) (message : Bytes) (index : Nat) : Bytes :=
  (message.drop (index * capacity)).take capacity

/-- The number of `chunks`, by `div_ceil`. -/
def chunkCount (capacity : Nat) (message : Bytes) : Nat :=
  (message.length + (capacity - 1)) / capacity

/-- The fragment of an index. -/
def fragmentOf (operation : ByteArr 32) (expiresAt : U64) (message : Bytes) (capacity index : Nat) :
    Fragment :=
  ⟨operation, H.digest message, expiresAt, index, chunkCount capacity message,
    chunk capacity message index⟩

/-- `seal_fragments`. -/
def sealFragments (publicKey : ByteArr 32) (seeds : Nat → H.Seed) (operation : ByteArr 32)
    (expiresAt : U64) (message : Bytes) (carrierBytes : Nat) : Except Error (List Bytes) :=
  let capacity := carrierBytes - (fragmentHeader + hpkeOverhead)
  if capacity = 0 then .error .limit
  else if message.isEmpty || decide (maxMessageBytes < message.length) then .error .limit
  else if maxFragments < chunkCount capacity message then .error .limit
  else (List.range (chunkCount capacity message)).mapM (fun index =>
    sealRequest H publicKey (seeds index)
      (fragmentOf H operation expiresAt message capacity index).plaintext)

end Seal

/-- `Pending`. -/
structure Pending where
  digest : ByteArr 32
  expiresAt : U64
  bytes : Nat
  parts : List (Option Bytes)

/-- `Reassembler`. -/
structure Reassembler where
  pending : OrdMap (ByteArr 32) Pending
  maxPending : Nat
  maxTotalBytes : Nat
  maxLifetime : U64

namespace Reassembler
variable (H : Hpke) (s : Reassembler)

/-- `Reassembler::new`. -/
def new (maxPending maxTotalBytes : Nat) (maxLifetime : U64) : Reassembler :=
  ⟨.empty, maxPending, maxTotalBytes, maxLifetime⟩

/-- What has expired is dropped. -/
def prune (now : U64) : Reassembler :=
  { s with pending := s.pending.retain (fun _ p => decide (now < p.expiresAt)) }

/-- The checks of `receive`: whether the fragment is a duplicate. -/
def check (f : Fragment) (now : U64) : Except Error Bool :=
  if f.expiresAt ≤ now ∨ s.maxLifetime.val < f.expiresAt.val - now.val ∨ f.count = 0 ∨
      maxFragments < f.count ∨ f.count ≤ f.index then .error .context
  else
    (s.pending.get? f.operation).elim
      (if s.maxPending ≤ s.pending.size then .error .limit else .ok false)
      (fun p =>
        if p.digest ≠ f.digest ∨ p.expiresAt ≠ f.expiresAt ∨ p.parts.length ≠ f.count then
          .error .context
        else (p.parts[f.index]?.join).elim
          (if maxMessageBytes < p.bytes + f.content.length then .error .limit else .ok false)
          (fun existing => if existing = f.content then .ok true else .error .context))

/-- The entry with the fragment's content. -/
def filed (f : Fragment) : Pending :=
  let p := (s.pending.get? f.operation).getD
    ⟨f.digest, f.expiresAt, 0, List.replicate f.count none⟩
  { p with bytes := p.bytes + f.content.length, parts := p.parts.set f.index (some f.content) }

/-- The end of `receive`: the content is filed, and a complete message handed out. -/
def file (f : Fragment) : Reassembler × Except Error (Option (ByteArr 32 × Bytes)) :=
  if s.maxTotalBytes < s.pending.total Pending.bytes + f.content.length then (s, .error .limit)
  else
    let p := s.filed f
    if p.parts.any Option.isNone then
      ({ s with pending := s.pending.insert f.operation p }, .ok none)
    else
      let message := (p.parts.map (fun part => part.getD [])).flatten
      ({ s with pending := s.pending.erase f.operation },
        if H.digest message ≠ f.digest then .error .authentication
        else .ok (some (f.operation, message)))

/-- `receive`, of a fragment that has been opened. -/
def take (f : Fragment) (now : U64) :
    Reassembler × Except Error (Option (ByteArr 32 × Bytes)) :=
  match s.check f now with
  | .error e => (s, .error e)
  | .ok true => (s, .ok none)
  | .ok false => s.file H f

/-- `receive`. -/
def receive (privateKey : ByteArr 32) (wire : Bytes) (now : U64) :
    Reassembler × Except Error (Option (ByteArr 32 × Bytes)) :=
  let s := s.prune now
  match openRequest H privateKey wire with
  | .error e => (s, .error e)
  | .ok plaintext => (Fragment.parse plaintext).elim (s, .error .context) (s.take H · now)

/-! ## What is held -/

/-- The bytes of the held parts. -/
def heldBytes (parts : List (Option Bytes)) : Nat :=
  (parts.map (fun part => (part.map List.length).getD 0)).sum

/-- The accounts agree with what is held, and are within the limits. -/
structure Valid : Prop where
  bytes : ∀ op p, s.pending.get? op = some p → p.bytes = heldBytes p.parts
  total : s.pending.total Pending.bytes ≤ s.maxTotalBytes
  size : s.pending.size ≤ s.maxPending

variable {H s}

/-- Filling an empty place adds the content's length. -/
theorem heldBytes_set {content : Bytes} : ∀ {parts : List (Option Bytes)} {i : Nat},
    i < parts.length → parts[i]?.join = none →
      heldBytes (parts.set i (some content)) = heldBytes parts + content.length
  | [], i, hlt, _ => absurd hlt (Nat.not_lt_zero _)
  | part :: parts, 0, _, h => by
      obtain rfl : part = none := by simpa using h
      simp [heldBytes, Nat.add_comm]
  | part :: parts, i + 1, hlt, h => by
      have ih : heldBytes (parts.set i (some content)) = heldBytes parts + content.length :=
        heldBytes_set (Nat.lt_of_succ_lt_succ hlt) h
      unfold heldBytes at ih ⊢
      rw [List.set_cons_succ, List.map_cons, List.sum_cons, ih, List.map_cons, List.sum_cons,
        Nat.add_assoc]

theorem heldBytes_replicate (n : Nat) : heldBytes (List.replicate n none) = 0 := by
  simp [heldBytes]

theorem Valid.prune (h : s.Valid) (now : U64) : (s.prune now).Valid := by
  refine ⟨fun op p hget => ?_, (s.pending.total_retain_le ..).trans h.total,
    (s.pending.size_retain_le _).trans h.size⟩
  exact h.bytes op p (Option.filter_eq_some_iff.mp ((OrdMap.get?_retain ..).symm.trans hget)).1

/-- What a fragment that is to be filed has passed. -/
theorem room_of_check {f : Fragment} {now : U64} (h : s.check f now = .ok false) :
    f.index < f.count ∧
      ((s.pending.get? f.operation = none ∧ s.pending.size < s.maxPending) ∨
        ∃ p, s.pending.get? f.operation = some p ∧ p.parts.length = f.count ∧
          p.parts[f.index]?.join = none) := by
  unfold check at h
  split at h
  · cases h
  rename_i hwindow
  have hindex : f.index < f.count := by
    rw [not_or, not_or, not_or, not_or] at hwindow
    exact Nat.lt_of_not_le hwindow.2.2.2.2
  refine ⟨hindex, ?_⟩
  rcases Option.eq_none_or_eq_some (s.pending.get? f.operation) with hget | ⟨p, hget⟩
  · rw [hget, Option.elim_none] at h
    split at h
    · cases h
    · exact Or.inl ⟨hget, Nat.lt_of_not_le ‹_›⟩
  · rw [hget, Option.elim_some] at h
    split at h
    · cases h
    rename_i hsame
    rw [not_or, not_or, not_not, not_not, not_not] at hsame
    refine Or.inr ⟨p, hget, hsame.2.2, ?_⟩
    rcases Option.eq_none_or_eq_some p.parts[f.index]?.join with hpart | ⟨existing, hpart⟩
    · exact hpart
    · rw [hpart, Option.elim_some] at h
      split at h <;> cases h

section Check
variable {f : Fragment} {now : U64}
  (hwindow : ¬ (f.expiresAt ≤ now ∨ s.maxLifetime.val < f.expiresAt.val - now.val ∨ f.count = 0 ∨
    maxFragments < f.count ∨ f.count ≤ f.index))
include hwindow

theorem check_of_none (hget : s.pending.get? f.operation = none)
    (hroom : s.pending.size < s.maxPending) : s.check f now = .ok false := by
  unfold check
  rw [if_neg hwindow, hget, Option.elim_none, if_neg (Nat.not_le.mpr hroom)]

variable {p : Pending} (hget : s.pending.get? f.operation = some p)
  (hsame : p.digest = f.digest ∧ p.expiresAt = f.expiresAt ∧ p.parts.length = f.count)
include hget hsame

theorem check_of_held (hpart : p.parts[f.index]?.join = some f.content) :
    s.check f now = .ok true := by
  unfold check
  rw [if_neg hwindow, hget, Option.elim_some, if_neg (by simp [hsame]), hpart, Option.elim_some,
    if_pos rfl]

theorem check_of_missing (hpart : p.parts[f.index]?.join = none)
    (hfits : p.bytes + f.content.length ≤ maxMessageBytes) : s.check f now = .ok false := by
  unfold check
  rw [if_neg hwindow, hget, Option.elim_some, if_neg (by simp [hsame]), hpart, Option.elim_none,
    if_neg (Nat.not_lt.mpr hfits)]

end Check

/-- The bytes of the operation's entry before. -/
theorem filed_bytes {f : Fragment} {now : U64} (h : s.Valid) (hcheck : s.check f now = .ok false) :
    (s.filed f).bytes = heldBytes (s.filed f).parts ∧
      s.pending.total Pending.bytes + f.content.length =
        (s.pending.erase f.operation).total Pending.bytes + (s.filed f).bytes := by
  obtain ⟨hindex, ⟨hget, -⟩ | ⟨p, hget, hlength, hpart⟩⟩ := room_of_check hcheck
  · have hfiled : s.filed f = ⟨f.digest, f.expiresAt, 0 + f.content.length,
        (List.replicate f.count none).set f.index (some f.content)⟩ := by
      unfold filed
      rw [hget]
      rfl
    rw [hfiled, OrdMap.erase_of_new hget]
    refine ⟨?_, by rw [Nat.zero_add]⟩
    rw [heldBytes_set (by rw [List.length_replicate]; exact hindex) (by simp [hindex]),
      heldBytes_replicate]
  · have hfiled : s.filed f = { p with
        bytes := p.bytes + f.content.length, parts := p.parts.set f.index (some f.content) } := by
      unfold filed
      rw [hget]
      rfl
    rw [hfiled, heldBytes_set (hlength ▸ hindex) hpart, ← h.bytes _ _ hget,
      OrdMap.total_erase hget, Nat.add_assoc]
    exact ⟨rfl, rfl⟩

theorem Valid.file {f : Fragment} {now : U64} (h : s.Valid)
    (hcheck : s.check f now = .ok false) : (s.file H f).1.Valid := by
  obtain ⟨hbytes, htotal⟩ := filed_bytes h hcheck
  unfold Reassembler.file
  split
  · exact h
  rename_i hroom
  have hroom := Nat.le_of_not_lt hroom
  have herase : ∀ op p, (s.pending.erase f.operation).get? op = some p →
      s.pending.get? op = some p := by
    intro op p hget
    rw [OrdMap.get?_erase] at hget
    split at hget
    · cases hget
    · exact hget
  dsimp only
  split
  · refine ⟨fun op p hget => ?_, ?_, ?_⟩
    · dsimp only at hget
      rw [OrdMap.get?_insert] at hget
      split at hget
      · obtain rfl := Option.some.inj hget
        exact hbytes
      · exact h.bytes op p hget
    · dsimp only
      rw [OrdMap.total_insert, ← htotal]
      exact hroom
    · dsimp only
      obtain ⟨-, ⟨hget, hsize⟩ | ⟨p, hget, -⟩⟩ := room_of_check hcheck
      · rw [OrdMap.size_insert_of_new hget]
        exact hsize
      · rw [OrdMap.size_insert_of_old hget]
        exact h.size
  · refine ⟨fun op p hget => h.bytes op p (herase op p hget), ?_, ?_⟩
    · exact (s.pending.total_retain_le ..).trans h.total
    · exact (s.pending.size_retain_le _).trans h.size

theorem Valid.take {f : Fragment} {now : U64} (h : s.Valid) : (s.take H f now).1.Valid := by
  unfold Reassembler.take
  split
  · exact h
  · exact h
  · exact h.file ‹_›

/-- **Whatever arrives, the accounts stay right.** -/
theorem Valid.receive (h : s.Valid) (privateKey : ByteArr 32) (wire : Bytes) (now : U64) :
    (s.receive H privateKey wire now).1.Valid := by
  unfold Reassembler.receive
  dsimp only
  split
  · exact h.prune now
  · rename_i plaintext _
    cases Fragment.parse plaintext with
    | none => exact h.prune now
    | some f => exact (h.prune now).take

/-- **A call changes the entry of its own operation only**, what has expired apart; and when it ends
in an error, it leaves all other operations as they were. -/
theorem get?_receive (privateKey : ByteArr 32) (wire : Bytes) (now : U64) (op : ByteArr 32)
    (hop : ∀ plaintext f, openRequest H privateKey wire = .ok plaintext →
      Fragment.parse plaintext = some f → f.operation ≠ op) :
    (s.receive H privateKey wire now).1.pending.get? op =
      (s.pending.get? op).filter (fun p => decide (now < p.expiresAt)) := by
  have hprune : (s.prune now).pending.get? op =
      (s.pending.get? op).filter (fun p => decide (now < p.expiresAt)) := OrdMap.get?_retain ..
  unfold Reassembler.receive
  dsimp only
  split
  · exact hprune
  · rename_i plaintext hopen
    cases hparse : Fragment.parse plaintext with
    | none => exact hprune
    | some f =>
      have hne := hop plaintext f hopen hparse
      rw [Option.elim_some]
      unfold Reassembler.take
      split
      · exact hprune
      · exact hprune
      · unfold Reassembler.file
        split
        · exact hprune
        · dsimp only
          split
          · rw [OrdMap.get?_insert, if_neg hne.symm]
            exact hprune
          · rw [OrdMap.get?_erase, if_neg hne.symm]
            exact hprune

end Reassembler

end Anymone.Eth
