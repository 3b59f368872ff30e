import Anymone.EthFragments
import Mathlib.Data.Finset.Basic

/-! # Reassembly is exact

What a reassembler is for: `heard` is the set of indices of an operation received since it was last
complete.  As long as the fragments of a set of uploads are fed before these expire and within the
limits (`Feeds`), the entry of each operation is what is heard of it, and `receive` answers the
message that was cut when the last index missing is supplied, and nothing at every other call
(`receive_exact`).
-/

namespace Anymone.Eth

/-! ## Fragments survive the carrier -/

/-- A message to upload, when it expires, and what the carrier takes. -/
structure Upload where
  message : Bytes
  expiresAt : U64
  carrierBytes : Nat

namespace Upload
variable (u : Upload)

/-- What a fragment carries of the message. -/
def capacity : Nat := u.carrierBytes - (fragmentHeader + hpkeOverhead)

/-- How many fragments there are. -/
def count : Nat := chunkCount u.capacity u.message

/-- What a fragment carries. -/
def part (index : Nat) : Bytes := chunk u.capacity u.message index

/-- The wire is one that `seal_fragments` made of the upload, at the index. -/
def Carries (H : Hpke) (publicKey operation : ByteArr 32) (index : Nat) (wire : Bytes) : Prop :=
  ∃ seeds wires, sealFragments H publicKey seeds operation u.expiresAt u.message u.carrierBytes =
    .ok wires ∧ wires[index]? = some wire

end Upload

/-- The first so many chunks are the message's beginning. -/
theorem chunks_eq_take (capacity : Nat) (message : Bytes) (n : Nat) :
    ((List.range n).map (chunk capacity message)).flatten = message.take (n * capacity) := by
  induction n with
  | zero => simp
  | succ n ih =>
    rw [List.range_succ, List.map_append, List.flatten_append, ih, Nat.succ_mul, List.take_add]
    simp [chunk]

theorem length_le_chunks {capacity : Nat} (h : 0 < capacity) (message : Bytes) :
    message.length ≤ chunkCount capacity message * capacity := by
  unfold chunkCount
  have hmod := Nat.mod_lt (message.length + (capacity - 1)) h
  have hdiv := Nat.div_add_mod' (message.length + (capacity - 1)) capacity
  omega

/-- A chunk that counts is not empty. -/
theorem chunk_ne_nil {capacity : Nat} {message : Bytes} {index : Nat}
    (h : index < chunkCount capacity message) : chunk capacity message index ≠ [] := by
  have hpos : 0 < capacity := by
    rcases Nat.eq_zero_or_pos capacity with rfl | hpos
    · simp [chunkCount] at h
    · exact hpos
  have hlt : index * capacity < message.length := by
    have hle : (index + 1) * capacity ≤ message.length + (capacity - 1) :=
      (Nat.mul_le_mul_right _ h).trans (Nat.div_mul_le_self ..)
    rw [Nat.succ_mul] at hle
    omega
  intro hnil
  have hlen := congrArg List.length hnil
  unfold chunk at hlen
  rw [List.length_take, List.length_drop, List.length_nil] at hlen
  omega

/-- A slice of a concatenation. -/
theorem slice_append (pre mid post : Bytes) {a n : Nat} (ha : pre.length = a)
    (hn : mid.length = n) : ((pre ++ mid ++ post).drop a).take n = mid := by
  rw [List.append_assoc, ← ha, List.drop_left, ← hn, List.take_left]

/-- **The header is read as it was written.** -/
theorem Fragment.parse_plaintext {f : Fragment} (hindex : f.index < 65536)
    (hcount : f.count < 65536) (hcontent : f.content ≠ []) :
    Fragment.parse f.plaintext = some f := by
  obtain ⟨operation, digest, expiresAt, index, count, content⟩ := f
  dsimp only at hindex hcount hcontent
  have hop : operation.val.length = 32 := operation.property
  have hdigest : digest.val.length = 32 := digest.property
  have hpos := List.length_pos_iff.mpr hcontent
  have hexpires : Fin.ofNat 18446744073709551616 (beVal (beBytes 8 expiresAt.val)) = expiresAt := by
    rw [beVal_beBytes (by exact expiresAt.isLt)]
    exact Fin.ofNat_val_eq_self _
  -- The five fields of the header, each between what precedes it and what follows.
  have h1 := slice_append [] operation.val
    (digest.val ++ (beBytes 8 expiresAt.val ++ (beBytes 2 index ++ (beBytes 2 count ++ content))))
    (a := 0) rfl hop
  have h2 := slice_append operation.val digest.val
    (beBytes 8 expiresAt.val ++ (beBytes 2 index ++ (beBytes 2 count ++ content))) hop hdigest
  have h3 := slice_append (operation.val ++ digest.val) (beBytes 8 expiresAt.val)
    (beBytes 2 index ++ (beBytes 2 count ++ content)) (a := 64) (by simp [hop, hdigest])
    (beBytes_length ..)
  have h4 := slice_append (operation.val ++ digest.val ++ beBytes 8 expiresAt.val)
    (beBytes 2 index) (beBytes 2 count ++ content) (a := 72) (by simp [hop, hdigest])
    (beBytes_length ..)
  have h5 := slice_append
    (operation.val ++ digest.val ++ beBytes 8 expiresAt.val ++ beBytes 2 index)
    (beBytes 2 count) content (a := 74) (by simp [hop, hdigest]) (beBytes_length ..)
  have h6 : (operation.val ++ digest.val ++ beBytes 8 expiresAt.val ++ beBytes 2 index ++
      beBytes 2 count ++ content).drop 76 = content :=
    List.drop_left' (by simp [hop, hdigest])
  have hlen : ¬ (operation.val ++ digest.val ++ beBytes 8 expiresAt.val ++ beBytes 2 index ++
      beBytes 2 count ++ content).length ≤ 76 := by
    simp only [List.length_append, hop, hdigest, beBytes_length]
    omega
  have harr : ∀ b : ByteArr 32, toArr? 32 b.val = some b := fun b => by
    rw [toArr?, dif_pos b.property]
  simp only [List.append_assoc, List.nil_append] at h1 h2 h3 h4 h5 h6 hlen
  unfold Fragment.parse Fragment.plaintext fragmentHeader
  simp only [List.append_assoc, hlen, if_false, Nat.reduceSub, h1, h2, h3, h4, h5, h6, harr,
    hexpires, beVal_beBytes (w := 2) hindex, beVal_beBytes (w := 2) hcount, Option.bind_eq_bind,
    Option.bind_some]

namespace Upload
variable {H : Hpke} {u : Upload} {publicKey operation : ByteArr 32} {index : Nat} {wire : Bytes}

/-- The fragment of an index. -/
def fragment (H : Hpke) (u : Upload) (operation : ByteArr 32) (index : Nat) : Fragment :=
  fragmentOf H operation u.expiresAt u.message u.capacity index

theorem fragment_eq : u.fragment H operation index =
    ⟨operation, H.digest u.message, u.expiresAt, index, u.count, u.part index⟩ := rfl

/-- The results of a loop that has not failed. -/
theorem getElem?_of_mapM {α β ε : Type} {f : α → Except ε β} : ∀ {l : List α} {bs : List β},
    l.mapM f = .ok bs → ∀ {i : Nat} {b : β}, bs[i]? = some b →
      ∃ a, l[i]? = some a ∧ f a = .ok b
  | [], bs, h, i, b, hb => by
      obtain rfl : [] = bs := Except.ok.inj h
      cases hb
  | a :: l, bs, h, i, b, hb => by
      rw [List.mapM_cons] at h
      cases hfa : f a with
      | error e => simp [hfa, bind, Except.bind] at h
      | ok b₀ =>
        cases hrest : l.mapM f with
        | error e => simp [hfa, hrest, bind, Except.bind] at h
        | ok rest =>
          obtain rfl : b₀ :: rest = bs := by
            simpa [hfa, hrest, bind, Except.bind, pure, Except.pure] using h
          cases i with
          | zero =>
            obtain rfl : b₀ = b := by simpa using hb
            exact ⟨a, rfl, hfa⟩
          | succ i => exact getElem?_of_mapM hrest hb

/-- What `seal_fragments` has checked, and one of its wires. -/
theorem Carries.facts (h : u.Carries H publicKey operation index wire) :
    0 < u.capacity ∧ u.message.length ≤ maxMessageBytes ∧ u.count ≤ maxFragments ∧
      index < u.count ∧ ∃ seed,
        sealRequest H publicKey seed (u.fragment H operation index).plaintext = .ok wire := by
  obtain ⟨seeds, wires, hsealed, hwire⟩ := h
  unfold sealFragments at hsealed
  dsimp only at hsealed
  split at hsealed
  · cases hsealed
  rename_i hcapacity
  split at hsealed
  · cases hsealed
  rename_i hmessage
  split at hsealed
  · cases hsealed
  rename_i hcount
  obtain ⟨i, hi, hwire⟩ := getElem?_of_mapM hsealed hwire
  obtain ⟨hlt, hval⟩ := List.getElem?_eq_some_iff.mp hi
  rw [List.getElem_range] at hval
  subst hval
  rw [List.length_range] at hlt
  rw [Bool.or_eq_true, decide_eq_true_eq, not_or] at hmessage
  exact ⟨Nat.pos_of_ne_zero hcapacity, Nat.le_of_not_lt hmessage.2, Nat.le_of_not_lt hcount, hlt,
    seeds index, hwire⟩

/-- What is sealed is opened. -/
theorem openRequest_of_sealRequest (hideal : H.Ideal) {privateKey : ByteArr 32} {seed : H.Seed}
    {plaintext wire : Bytes}
    (h : sealRequest H (H.publicKey privateKey) seed plaintext = .ok wire) :
    openRequest H privateKey wire = .ok plaintext := by
  unfold sealRequest at h
  split at h
  · cases h
  rename_i hlimit
  rcases Option.eq_none_or_eq_some (H.sealTo (H.publicKey privateKey) seed plaintext) with
    hseal | ⟨⟨enc, ct⟩, hseal⟩
  · rw [hseal] at h
    cases h
  rw [hseal] at h
  obtain rfl : enc.val ++ ct = wire := Except.ok.inj h
  have henc : enc.val.length = 32 := enc.property
  have hct := hideal.length_sealTo hseal
  unfold openRequest
  rw [if_neg (by simp only [List.length_append, henc, hct]; omega), List.take_left' henc,
    List.drop_left' henc, toArr?, dif_pos henc, Option.bind_some, hideal.openWith_sealTo hseal]
  rfl

end Upload

/-- What a plaintext and the sealing add. -/
theorem length_of_sealRequest {H : Hpke} (hideal : H.Ideal) {publicKey : ByteArr 32} {seed : H.Seed}
    {plaintext wire : Bytes} (h : sealRequest H publicKey seed plaintext = .ok wire) :
    wire.length = plaintext.length + hpkeOverhead := by
  unfold sealRequest at h
  split at h
  · cases h
  rcases Option.eq_none_or_eq_some (H.sealTo publicKey seed plaintext) with
    hseal | ⟨⟨enc, ct⟩, hseal⟩
  · rw [hseal] at h
    cases h
  rw [hseal] at h
  obtain rfl : enc.val ++ ct = wire := Except.ok.inj h
  have henc : enc.val.length = 32 := enc.property
  rw [List.length_append, henc, hideal.length_sealTo hseal]
  unfold hpkeOverhead
  omega

theorem Fragment.length_plaintext (f : Fragment) :
    f.plaintext.length = fragmentHeader + f.content.length := by
  have hop : f.operation.val.length = 32 := f.operation.property
  have hdigest : f.digest.val.length = 32 := f.digest.property
  unfold plaintext fragmentHeader
  simp only [List.length_append, hop, hdigest, beBytes_length]

/-- **No fragment is longer than the carrier takes.** -/
theorem length_le_carrier {H : Hpke} (hideal : H.Ideal) {publicKey : ByteArr 32}
    {seeds : Nat → H.Seed} {operation : ByteArr 32} {expiresAt : U64} {message : Bytes}
    {carrierBytes : Nat} {wires : List Bytes}
    (h : sealFragments H publicKey seeds operation expiresAt message carrierBytes = .ok wires) :
    ∀ wire ∈ wires, wire.length ≤ carrierBytes := by
  intro wire hwire
  obtain ⟨index, hindex⟩ := List.mem_iff_getElem?.mp hwire
  obtain ⟨hcapacity, -, -, -, seed, hsealed⟩ :=
    Upload.Carries.facts (u := ⟨message, expiresAt, carrierBytes⟩) ⟨seeds, wires, h, hindex⟩
  have hchunk : (chunk (carrierBytes - (fragmentHeader + hpkeOverhead)) message index).length ≤
      carrierBytes - (fragmentHeader + hpkeOverhead) := List.length_take_le ..
  unfold Upload.capacity at hcapacity
  dsimp only at hcapacity
  rw [length_of_sealRequest hideal hsealed, Fragment.length_plaintext]
  unfold Upload.fragment fragmentOf Upload.capacity
  dsimp only
  omega

/-! ## What is heard of an operation -/

/-- A call of `receive`, with a fragment of an upload. -/
structure FragmentCall where
  operation : ByteArr 32
  index : Nat
  wire : Bytes
  now : U64

section Heard
variable (uploads : ByteArr 32 → Upload)

/-- The indices received of an operation since it was complete, and now. -/
def received (held : ByteArr 32 → Finset Nat) (c : FragmentCall) : Finset Nat :=
  insert c.index (held c.operation)

/-- The fragment is the last one missing. -/
def completes (held : ByteArr 32 → Finset Nat) (c : FragmentCall) : Bool :=
  decide (received held c = Finset.range (uploads c.operation).count)

/-- The indices received of each operation since it was complete. -/
def heard (calls : List FragmentCall) : ByteArr 32 → Finset Nat :=
  Trace.run (fun _ => ∅) (fun held c =>
    Function.update held c.operation (if completes uploads held c then ∅ else received held c))
    calls

@[simp] theorem heard_concat (calls : List FragmentCall) (c : FragmentCall) :
    heard uploads (calls ++ [c]) = Function.update (heard uploads calls) c.operation
      (if completes uploads (heard uploads calls) c then ∅
        else received (heard uploads calls) c) :=
  Trace.run_concat ..

/-- What a call is to answer. -/
def answer (held : ByteArr 32 → Finset Nat) (c : FragmentCall) : Option (ByteArr 32 × Bytes) :=
  if completes uploads held c then some (c.operation, (uploads c.operation).message) else none

/-- The bytes received of an operation since it was complete. -/
def bytesOf (u : Upload) (held : Finset Nat) : Nat := ∑ j ∈ held, (u.part j).length

end Heard

/-- The entry of an operation of which so much is held. -/
def entryOf (H : Hpke) (u : Upload) (held : Finset Nat) : Pending :=
  ⟨H.digest u.message, u.expiresAt, bytesOf u held,
    (List.range u.count).map (fun j => if j ∈ held then some (u.part j) else none)⟩

section Entry
variable {H : Hpke} {u : Upload} {held : Finset Nat}

theorem entryOf_empty : entryOf H u ∅ =
    ⟨H.digest u.message, u.expiresAt, 0, List.replicate u.count none⟩ := by
  unfold entryOf bytesOf
  simp [List.map_const']

/-- All parts are the message. -/
theorem sum_parts (u : Upload) (n : Nat) :
    ∑ j ∈ Finset.range n, (u.part j).length = (u.message.take (n * u.capacity)).length := by
  induction n with
  | zero => simp
  | succ n ih =>
    rw [Finset.sum_range_succ, ih, Nat.succ_mul, List.take_add, List.length_append]
    rfl

theorem bytesOf_le (hsub : held ⊆ Finset.range u.count) : bytesOf u held ≤ u.message.length := by
  refine (Finset.sum_le_sum_of_subset hsub).trans ?_
  rw [sum_parts]
  exact List.length_take_le' ..

theorem bytesOf_insert {j : Nat} (hj : j ∉ held) :
    bytesOf u (insert j held) = bytesOf u held + (u.part j).length := by
  unfold bytesOf
  rw [Finset.sum_insert hj, Nat.add_comm]

theorem parts_set {j : Nat} : ((entryOf H u held).parts.set j (some (u.part j))) =
    (entryOf H u (insert j held)).parts := by
  unfold entryOf
  dsimp only
  refine List.ext_getElem (by simp) (fun i h1 h2 => ?_)
  rw [List.getElem_set, List.getElem_map, List.getElem_map, List.getElem_range]
  by_cases hij : j = i
  · subst hij
    simp
  · simp [hij, Ne.symm hij]

/-- A part is missing as long as not all are held. -/
theorem any_isNone (hsub : held ⊆ Finset.range u.count) :
    (entryOf H u held).parts.any Option.isNone = !decide (held = Finset.range u.count) := by
  unfold entryOf
  dsimp only
  rw [Bool.eq_iff_iff, List.any_map, List.any_eq_true]
  simp only [Bool.not_eq_true', decide_eq_false_iff_not, List.mem_range, Function.comp]
  constructor
  · rintro ⟨j, hj, hnone⟩ heq
    rw [heq, if_pos (Finset.mem_range.mpr hj)] at hnone
    cases hnone
  · intro hne
    obtain ⟨j, hj, hnot⟩ := Finset.exists_of_ssubset (hsub.ssubset_of_ne hne)
    exact ⟨j, Finset.mem_range.mp hj, by rw [if_neg hnot]; rfl⟩

/-- All parts held are the message. -/
theorem flatten_parts (hcapacity : 0 < u.capacity) :
    ((entryOf H u (Finset.range u.count)).parts.map (fun part => part.getD [])).flatten =
      u.message := by
  have hparts : (entryOf H u (Finset.range u.count)).parts.map (fun part => part.getD []) =
      (List.range u.count).map (chunk u.capacity u.message) := by
    unfold entryOf
    dsimp only
    rw [List.map_map]
    refine List.map_congr_left (fun j hj => ?_)
    simp only [Function.comp, Finset.mem_range, List.mem_range.mp hj, if_true, Option.getD_some]
    rfl
  rw [hparts, chunks_eq_take]
  exact List.take_of_length_le (length_le_chunks hcapacity _)

end Entry

/-! ## Runs -/

section Run
variable (H : Hpke) (privateKey : ByteArr 32) (maxPending maxTotalBytes : Nat) (maxLifetime : U64)

/-- The reassembler after the calls. -/
def reassembled (calls : List FragmentCall) : Reassembler :=
  Trace.run (Reassembler.new maxPending maxTotalBytes maxLifetime)
    (fun s c => (s.receive H privateKey c.wire c.now).1) calls

@[simp] theorem reassembled_concat (calls : List FragmentCall) (c : FragmentCall) :
    reassembled H privateKey maxPending maxTotalBytes maxLifetime (calls ++ [c]) =
      ((reassembled H privateKey maxPending maxTotalBytes maxLifetime calls).receive H privateKey
        c.wire c.now).1 :=
  Trace.run_concat ..

variable (ids : Finset (ByteArr 32)) (uploads : ByteArr 32 → Upload)

/-- The operations that have not expired. -/
def live (now : U64) : Finset (ByteArr 32) :=
  ids.filter (fun op => now < (uploads op).expiresAt)

/-- The calls are fed fragments of the uploads, before these expire and within the limits, for
which what has expired no longer counts. -/
structure Feeds (calls : List FragmentCall) : Prop where
  carries : ∀ c ∈ calls, c.operation ∈ ids ∧
    (uploads c.operation).Carries H (H.publicKey privateKey) c.operation c.index c.wire
  unexpired : ∀ σ ∈ Trace.steps calls, ∀ c ∈ σ.1 ++ [σ.2],
    c.now < (uploads σ.2.operation).expiresAt
  lifetime : ∀ c ∈ calls, (uploads c.operation).expiresAt.val - c.now.val ≤ maxLifetime.val
  room : ∀ σ ∈ Trace.steps calls, heard uploads σ.1 σ.2.operation = ∅ →
    ((live ids uploads σ.2.now).filter (fun op => (heard uploads σ.1 op).Nonempty)).card <
      maxPending
  bytes : ∀ σ ∈ Trace.steps calls, σ.2.index ∉ heard uploads σ.1 σ.2.operation →
    ∑ op ∈ live ids uploads σ.2.now, bytesOf (uploads op) (heard uploads σ.1 op) +
      ((uploads σ.2.operation).part σ.2.index).length ≤ maxTotalBytes

/-- The entry of an operation is what is heard of it, or none when nothing is or when it has
expired. -/
def Mirrors (s : Reassembler) (held : ByteArr 32 → Finset Nat) (calls : List FragmentCall)
    (op : ByteArr 32) : Prop :=
  (op ∈ ids ∧ (held op).Nonempty ∧
      s.pending.get? op = some (entryOf H (uploads op) (held op))) ∨
    (s.pending.get? op = none ∧ (held op = ∅ ∨ ∃ c ∈ calls, (uploads op).expiresAt ≤ c.now))

end Run

section Step
variable {H : Hpke} {ids : Finset (ByteArr 32)} {uploads : ByteArr 32 → Upload} {s : Reassembler}
  {held : ByteArr 32 → Finset Nat} {calls : List FragmentCall} {c : FragmentCall}

theorem Mirrors.prune {op : ByteArr 32} (h : Mirrors H ids uploads s held calls op) :
    Mirrors H ids uploads (s.prune c.now) held (calls ++ [c]) op := by
  have hprune : (s.prune c.now).pending.get? op =
      (s.pending.get? op).filter (fun p => decide (c.now < p.expiresAt)) := OrdMap.get?_retain ..
  rcases h with ⟨hin, hheld, hget⟩ | ⟨hget, hor⟩
  · by_cases hlive : c.now < (uploads op).expiresAt
    · refine Or.inl ⟨hin, hheld, ?_⟩
      rw [hprune, hget]
      exact Option.filter_some_pos (decide_eq_true hlive)
    · refine Or.inr ⟨?_, Or.inr ⟨c, by simp, Fin.not_lt.mp hlive⟩⟩
      rw [hprune, hget]
      exact Option.filter_some_neg (by simp [entryOf, hlive])
  · refine Or.inr ⟨by rw [hprune, hget]; rfl, hor.imp id ?_⟩
    rintro ⟨c', hc', hle⟩
    exact ⟨c', List.mem_append_left _ hc', hle⟩

/-- While it has not expired, an operation's entry is what is heard of it. -/
theorem Mirrors.live {op : ByteArr 32} (h : Mirrors H ids uploads s held calls op)
    (hlive : ∀ c ∈ calls, c.now < (uploads op).expiresAt) :
    s.pending.get? op = some (entryOf H (uploads op) (held op)) ∨
      (s.pending.get? op = none ∧ held op = ∅) := by
  rcases h with ⟨-, -, hget⟩ | ⟨hget, hempty | ⟨c, hc, hle⟩⟩
  · exact Or.inl hget
  · exact Or.inr ⟨hget, hempty⟩
  · exact absurd (hlive c hc) (Fin.not_lt.mpr hle)

/-- What is held after a prune has not expired and is what is heard of it. -/
theorem get?_prune_of_mirrors {now : U64} {op : ByteArr 32} {p : Pending}
    (h : Mirrors H ids uploads (s.prune now) held calls op)
    (hget : (s.prune now).pending.get? op = some p) :
    op ∈ live ids uploads now ∧ (held op).Nonempty ∧
      p = entryOf H (uploads op) (held op) := by
  have hprune : (s.prune now).pending.get? op =
      (s.pending.get? op).filter (fun p => decide (now < p.expiresAt)) := OrdMap.get?_retain ..
  have hlive : now < p.expiresAt := by
    rw [hprune, Option.filter_eq_some_iff] at hget
    exact of_decide_eq_true hget.2
  rcases h with ⟨hin, hheld, hentry⟩ | ⟨hnone, -⟩
  · rw [hget, Option.some_inj] at hentry
    rw [hentry] at hlive
    exact ⟨Finset.mem_filter.mpr ⟨hin, hlive⟩, hheld, hentry⟩
  · rw [hnone] at hget
    cases hget

theorem total_prune_le {now : U64}
    (h : ∀ op, Mirrors H ids uploads (s.prune now) held calls op) :
    (s.prune now).pending.total Pending.bytes ≤
      ∑ op ∈ live ids uploads now, bytesOf (uploads op) (held op) := by
  refine OrdMap.total_le_sum (fun op p hget => ?_)
  obtain ⟨hin, -, hentry⟩ := get?_prune_of_mirrors (h op) hget
  rw [hentry]
  exact ⟨hin, le_rfl⟩

theorem size_prune_le {now : U64}
    (h : ∀ op, Mirrors H ids uploads (s.prune now) held calls op) :
    (s.prune now).pending.size ≤
      ((live ids uploads now).filter (fun op => (held op).Nonempty)).card := by
  refine OrdMap.size_le_card (fun op p hget => ?_)
  obtain ⟨hin, hheld, -⟩ := get?_prune_of_mirrors (h op) hget
  exact Finset.mem_filter.mpr ⟨hin, hheld⟩

/-- What a call's fragment meets in a reassembler that mirrors what is heard. -/
structure Meets (H : Hpke) (u : Upload) (s : Reassembler) (held : Finset Nat) (c : FragmentCall) :
    Prop where
  capacity : 0 < u.capacity
  size : u.message.length ≤ maxMessageBytes
  count : u.count ≤ maxFragments
  index : c.index < u.count
  unexpired : c.now < u.expiresAt
  lifetime : u.expiresAt.val - c.now.val ≤ s.maxLifetime.val
  proper : held ⊆ Finset.range u.count ∧ held ≠ Finset.range u.count
  entry : s.pending.get? c.operation = some (entryOf H u held) ∨
    (s.pending.get? c.operation = none ∧ held = ∅)
  room : held = ∅ → s.pending.size < s.maxPending
  bytes : c.index ∉ held → s.pending.total Pending.bytes + (u.part c.index).length ≤ s.maxTotalBytes

namespace Meets
variable {u : Upload} {K : Finset Nat}

/-- A fragment is a duplicate exactly when its index is held. -/
theorem check (h : Meets H u s K c) :
    s.check (u.fragment H c.operation c.index) c.now = .ok (decide (c.index ∈ K)) := by
  -- The fragment's fields, so that no limit is unfolded to compare them.
  obtain ⟨f, hf⟩ : ∃ f, f = u.fragment H c.operation c.index := ⟨_, rfl⟩
  have hop : f.operation = c.operation := by rw [hf, Upload.fragment_eq]
  have hdigest : f.digest = H.digest u.message := by rw [hf, Upload.fragment_eq]
  have hexpires : f.expiresAt = u.expiresAt := by rw [hf, Upload.fragment_eq]
  have hindex : f.index = c.index := by rw [hf, Upload.fragment_eq]
  have hcount : f.count = u.count := by rw [hf, Upload.fragment_eq]
  have hcontent : f.content = u.part c.index := by rw [hf, Upload.fragment_eq]
  rw [← hf]
  clear hf
  have hwindow : ¬ (f.expiresAt ≤ c.now ∨ s.maxLifetime.val < f.expiresAt.val - c.now.val ∨
      f.count = 0 ∨ maxFragments < f.count ∨ f.count ≤ f.index) := by
    rw [hexpires, hcount, hindex]
    have hlt := h.index
    rintro (hle | hlong | hzero | hmany | hout)
    · exact absurd h.unexpired (Fin.not_lt.mpr hle)
    · exact absurd h.lifetime (Nat.not_le.mpr hlong)
    · omega
    · exact absurd h.count (Nat.not_le.mpr hmany)
    · omega
  rcases h.entry with hget | ⟨hget, hempty⟩
  · rw [← hop] at hget
    have hpart : ((entryOf H u K).parts[f.index]?).join =
        if c.index ∈ K then some f.content else none := by
      rw [hindex, hcontent]
      unfold entryOf
      simp [h.index]
    have hsame : (entryOf H u K).digest = f.digest ∧ (entryOf H u K).expiresAt = f.expiresAt ∧
        (entryOf H u K).parts.length = f.count := by
      rw [hdigest, hexpires, hcount]
      simp [entryOf]
    by_cases hheld : c.index ∈ K
    · rw [if_pos hheld] at hpart
      rw [decide_eq_true hheld]
      exact Reassembler.check_of_held hwindow hget hsame hpart
    · rw [if_neg hheld] at hpart
      rw [decide_eq_false hheld]
      refine Reassembler.check_of_missing hwindow hget hsame hpart ?_
      have hbytes := bytesOf_le (u := u) (Finset.insert_subset (Finset.mem_range.mpr h.index)
        h.proper.1)
      rw [bytesOf_insert hheld, ← hcontent] at hbytes
      exact hbytes.trans h.size
  · rw [← hop] at hget
    rw [Reassembler.check_of_none hwindow hget (h.room hempty), hempty]
    simp

/-- A new fragment is filed beside what is held. -/
theorem filed (h : Meets H u s K c) (hnew : c.index ∉ K) :
    s.filed (u.fragment H c.operation c.index) = entryOf H u (insert c.index K) := by
  have hentry : (s.pending.get? c.operation).getD
      ⟨H.digest u.message, u.expiresAt, 0, List.replicate u.count none⟩ = entryOf H u K := by
    rcases h.entry with hget | ⟨hget, rfl⟩
    · rw [hget, Option.getD_some]
    · rw [hget, Option.getD_none, entryOf_empty]
  rw [Upload.fragment_eq]
  unfold Reassembler.filed
  dsimp only
  rw [hentry, parts_set]
  simp only [entryOf, bytesOf_insert hnew]

/-- **What a call answers, and what is held of its operation afterwards.** -/
theorem take (h : Meets H u s K c) :
    (s.take H (u.fragment H c.operation c.index) c.now).2 =
        .ok (if insert c.index K = Finset.range u.count then some (c.operation, u.message)
          else none) ∧
      (s.take H (u.fragment H c.operation c.index) c.now).1.pending.get? c.operation =
        if insert c.index K = Finset.range u.count then none
        else some (entryOf H u (insert c.index K)) := by
  have hcheck := h.check
  unfold Reassembler.take
  by_cases hheld : c.index ∈ K
  · -- A duplicate changes nothing, and nothing is missing less.
    rw [decide_eq_true hheld] at hcheck
    rw [hcheck, Finset.insert_eq_of_mem hheld, if_neg h.proper.2, if_neg h.proper.2]
    rcases h.entry with hget | ⟨-, rfl⟩
    · exact ⟨rfl, hget⟩
    · exact absurd hheld (Finset.notMem_empty _)
  · rw [decide_eq_false hheld] at hcheck
    rw [hcheck]
    have hsub : insert c.index K ⊆ Finset.range u.count :=
      Finset.insert_subset (Finset.mem_range.mpr h.index) h.proper.1
    dsimp only
    unfold Reassembler.file
    rw [h.filed hheld, Upload.fragment_eq]
    dsimp only
    have hfits := Nat.not_lt.mpr (h.bytes hheld)
    rw [if_neg hfits, any_isNone hsub]
    by_cases hall : insert c.index K = Finset.range u.count
    · rw [if_pos hall, if_pos hall, hall, decide_eq_true rfl, flatten_parts h.capacity]
      simp
    · rw [if_neg hall, if_neg hall, decide_eq_false hall]
      simp

end Meets
/-- A call with a wire of an upload files the upload's fragment. -/
theorem receive_of_carries (hideal : H.Ideal) {privateKey : ByteArr 32} {u : Upload}
    (hcarries : u.Carries H (H.publicKey privateKey) c.operation c.index c.wire) :
    s.receive H privateKey c.wire c.now =
      (s.prune c.now).take H (u.fragment H c.operation c.index) c.now := by
  obtain ⟨hcapacity, -, hcount, hindex, seed, hsealed⟩ := hcarries.facts
  unfold maxFragments at hcount
  have hindex' : (u.fragment H c.operation c.index).index ≤ c.index := le_of_eq rfl
  have hcount' : (u.fragment H c.operation c.index).count ≤ u.count := le_of_eq rfl
  have hcontent : u.part c.index ≠ [] :=
    @chunk_ne_nil u.capacity u.message c.index hindex
  have hparse : Fragment.parse (u.fragment H c.operation c.index).plaintext =
      some (u.fragment H c.operation c.index) :=
    Fragment.parse_plaintext (by omega) (by omega)
      (by simpa only [Upload.fragment_eq] using hcontent)
  unfold Reassembler.receive
  rw [Upload.openRequest_of_sealRequest hideal hsealed]
  dsimp only
  rw [hparse, Option.elim_some]

/-- What a call leaves of the other operations' entries. -/
theorem Mirrors.congr {s' : Reassembler} {held' : ByteArr 32 → Finset Nat} {op : ByteArr 32}
    (h : Mirrors H ids uploads s held calls op)
    (hget : s'.pending.get? op = s.pending.get? op) (hheld : held' op = held op) :
    Mirrors H ids uploads s' held' calls op := by
  unfold Mirrors
  rw [hget, hheld]
  exact h

theorem get?_take_of_ne {f : Fragment} {now : U64} {op : ByteArr 32} (hne : op ≠ f.operation) :
    (s.take H f now).1.pending.get? op = s.pending.get? op := by
  unfold Reassembler.take
  split
  · rfl
  · rfl
  · unfold Reassembler.file
    split
    · rfl
    · dsimp only
      split
      · rw [OrdMap.get?_insert, if_neg hne]
      · rw [OrdMap.get?_erase, if_neg hne]

theorem limits_receive (s : Reassembler) (privateKey : ByteArr 32) (wire : Bytes) (now : U64) :
    (s.receive H privateKey wire now).1.maxPending = s.maxPending ∧
      (s.receive H privateKey wire now).1.maxTotalBytes = s.maxTotalBytes ∧
      (s.receive H privateKey wire now).1.maxLifetime = s.maxLifetime := by
  unfold Reassembler.receive
  dsimp only
  split
  · exact ⟨rfl, rfl, rfl⟩
  · rename_i plaintext _
    cases Fragment.parse plaintext with
    | none => exact ⟨rfl, rfl, rfl⟩
    | some f =>
      rw [Option.elim_some]
      unfold Reassembler.take
      split
      · exact ⟨rfl, rfl, rfl⟩
      · exact ⟨rfl, rfl, rfl⟩
      · unfold Reassembler.file
        split
        · exact ⟨rfl, rfl, rfl⟩
        · dsimp only
          split <;> exact ⟨rfl, rfl, rfl⟩

end Step

section Run
variable {H : Hpke} {privateKey : ByteArr 32} {maxPending maxTotalBytes : Nat} {maxLifetime : U64}
  {ids : Finset (ByteArr 32)} {uploads : ByteArr 32 → Upload} {calls : List FragmentCall}

/-- **What holds of a run of fragments.** -/
structure Follows (H : Hpke) (privateKey : ByteArr 32) (maxPending maxTotalBytes : Nat)
    (maxLifetime : U64) (ids : Finset (ByteArr 32)) (uploads : ByteArr 32 → Upload)
    (calls : List FragmentCall) : Prop where
  pending : (reassembled H privateKey maxPending maxTotalBytes maxLifetime calls).maxPending =
    maxPending
  total : (reassembled H privateKey maxPending maxTotalBytes maxLifetime calls).maxTotalBytes =
    maxTotalBytes
  lifetime : (reassembled H privateKey maxPending maxTotalBytes maxLifetime calls).maxLifetime =
    maxLifetime
  proper : ∀ op, heard uploads calls op = ∅ ∨ (heard uploads calls op ⊆
    Finset.range (uploads op).count ∧ heard uploads calls op ≠ Finset.range (uploads op).count)
  mirrors : ∀ op, Mirrors H ids uploads
    (reassembled H privateKey maxPending maxTotalBytes maxLifetime calls) (heard uploads calls)
    calls op

theorem Follows.meets {pre : List FragmentCall} {c : FragmentCall}
    (h : Follows H privateKey maxPending maxTotalBytes maxLifetime ids uploads pre)
    (hfeeds : Feeds H privateKey maxPending maxTotalBytes maxLifetime ids uploads calls)
    (hmem : (pre, c) ∈ Trace.steps calls) :
    Meets H (uploads c.operation)
      ((reassembled H privateKey maxPending maxTotalBytes maxLifetime pre).prune c.now)
      (heard uploads pre c.operation) c := by
  have hc := Trace.mem_of_mem_steps hmem
  obtain ⟨hcapacity, hsize, hcount, hindex, -⟩ := (hfeeds.carries c hc).2.facts
  have hunexpired := hfeeds.unexpired _ hmem
  have hmirrors := fun op => (h.mirrors op).prune (c := c)
  refine ⟨hcapacity, hsize, hcount, hindex, hunexpired c (by simp), ?_, ?_,
    (hmirrors c.operation).live hunexpired, ?_, ?_⟩
  · exact (hfeeds.lifetime c hc).trans (Fin.le_def.mp h.lifetime.ge)
  · rcases h.proper c.operation with hempty | hproper
    · rw [hempty]
      refine ⟨Finset.empty_subset _, fun heq => ?_⟩
      have hrange := Finset.mem_range.mpr hindex
      rw [← heq] at hrange
      exact absurd hrange (Finset.notMem_empty _)
    · exact hproper
  · intro hempty
    refine (size_prune_le hmirrors).trans_lt ?_
    exact (hfeeds.room _ hmem hempty).trans_le h.pending.ge
  · intro hnew
    refine (Nat.add_le_add_right (total_prune_le hmirrors) _).trans ?_
    exact (hfeeds.bytes _ hmem hnew).trans h.total.ge

theorem Follows.concat {pre : List FragmentCall} {c : FragmentCall} (hideal : H.Ideal)
    (h : Follows H privateKey maxPending maxTotalBytes maxLifetime ids uploads pre)
    (hfeeds : Feeds H privateKey maxPending maxTotalBytes maxLifetime ids uploads calls)
    (hmem : (pre, c) ∈ Trace.steps calls) :
    Follows H privateKey maxPending maxTotalBytes maxLifetime ids uploads (pre ++ [c]) := by
  have hmeets := h.meets hfeeds hmem
  have hcarries := (hfeeds.carries c (Trace.mem_of_mem_steps hmem))
  have hreceive := receive_of_carries
    (s := reassembled H privateKey maxPending maxTotalBytes maxLifetime pre) hideal hcarries.2
  obtain ⟨hpending, htotal, hlifetime⟩ := limits_receive (H := H)
    (reassembled H privateKey maxPending maxTotalBytes maxLifetime pre) privateKey c.wire c.now
  refine ⟨?_, ?_, ?_, ?_, ?_⟩
  · rw [reassembled_concat, hpending, h.pending]
  · rw [reassembled_concat, htotal, h.total]
  · rw [reassembled_concat, hlifetime, h.lifetime]
  -- every other operation keeps its fragments, unless it has expired
  · intro op
    rw [heard_concat]
    by_cases hop : op = c.operation
    · subst hop
      rw [Function.update_self]
      cases hall : completes uploads (heard uploads pre) c with
      | true => exact Or.inl rfl
      | false =>
        rw [completes, decide_eq_false_iff_not] at hall
        have hindex := Finset.mem_range.mpr hmeets.index
        exact Or.inr ⟨Finset.insert_subset hindex hmeets.proper.1, hall⟩
    · rw [Function.update_of_ne hop]
      exact h.proper op
  · intro op
    rw [heard_concat, reassembled_concat, hreceive]
    by_cases hop : op = c.operation
    · subst hop
      have hget := hmeets.take.2
      unfold Mirrors
      rw [Function.update_self, hget]
      cases hall : completes uploads (heard uploads pre) c with
      | true =>
        rw [completes, decide_eq_true_eq] at hall
        unfold received at hall
        exact Or.inr ⟨if_pos hall, Or.inl rfl⟩
      | false =>
        rw [completes, decide_eq_false_iff_not] at hall
        unfold received at hall
        exact Or.inl ⟨hcarries.1, Finset.insert_nonempty .., if_neg hall⟩
    · exact ((h.mirrors op).prune (c := c)).congr (get?_take_of_ne hop)
        (Function.update_of_ne hop ..)

/-- **Reassembly is exact.** -/
theorem receive_exact (hideal : H.Ideal)
    (hfeeds : Feeds H privateKey maxPending maxTotalBytes maxLifetime ids uploads calls) :
    ∀ σ ∈ Trace.steps calls,
      ((reassembled H privateKey maxPending maxTotalBytes maxLifetime σ.1).receive H privateKey
        σ.2.wire σ.2.now).2 = .ok (answer uploads (heard uploads σ.1) σ.2) := by
  have hrun : ∀ l, l <+: calls →
      Follows H privateKey maxPending maxTotalBytes maxLifetime ids uploads l := by
    refine Trace.prefix_induction (P := fun l =>
      Follows H privateKey maxPending maxTotalBytes maxLifetime ids uploads l) ?_ ?_
    · exact ⟨rfl, rfl, rfl, fun op => Or.inl rfl, fun op => Or.inr ⟨rfl, Or.inl rfl⟩⟩
    · exact fun σ hσ h => h.concat hideal hfeeds hσ
  intro σ hσ
  have hfollows := hrun σ.1 ((List.prefix_append ..).trans (Trace.prefix_of_mem_steps hσ))
  have hcarries := (hfeeds.carries σ.2 (Trace.mem_of_mem_steps hσ)).2
  rw [receive_of_carries hideal hcarries, (hfollows.meets hfeeds hσ).take.1]
  unfold answer completes received
  simp only [decide_eq_true_eq]

end Run

/-! ## The whole -/

/-- Anything that arrives at a reassembler, whoever made it. -/
structure Arrival where
  privateKey : ByteArr 32
  wire : Bytes
  now : U64

/-- The reassembler after the arrivals. -/
def arrived (H : Hpke) (maxPending maxTotalBytes : Nat) (maxLifetime : U64)
    (arrivals : List Arrival) : Reassembler :=
  Trace.run (Reassembler.new maxPending maxTotalBytes maxLifetime)
    (fun s a => (s.receive H a.privateKey a.wire a.now).1) arrivals

/-- What a reassembler is to keep whatever arrives. -/
structure Accounts (s : Reassembler) (maxPending maxTotalBytes : Nat) : Prop where
  bytes : ∀ op p, s.pending.get? op = some p → p.bytes = Reassembler.heldBytes p.parts
  total : s.pending.total Pending.bytes ≤ maxTotalBytes
  size : s.pending.size ≤ maxPending

theorem accounts_arrived (H : Hpke) (maxPending maxTotalBytes : Nat) (maxLifetime : U64)
    (arrivals : List Arrival) : Accounts (arrived H maxPending maxTotalBytes maxLifetime arrivals)
      maxPending maxTotalBytes := by
  have hvalid : (arrived H maxPending maxTotalBytes maxLifetime arrivals).Valid ∧
      (arrived H maxPending maxTotalBytes maxLifetime arrivals).maxPending = maxPending ∧
      (arrived H maxPending maxTotalBytes maxLifetime arrivals).maxTotalBytes = maxTotalBytes := by
    induction arrivals using List.reverseRecOn with
    | nil =>
      refine ⟨⟨fun op p hget => ?_, Nat.zero_le _, Nat.zero_le _⟩, rfl, rfl⟩
      cases hget
    | append_singleton arrivals a ih =>
      obtain ⟨hvalid, hpending, htotal⟩ := ih
      obtain ⟨hpending', htotal', -⟩ := limits_receive (H := H)
        (arrived H maxPending maxTotalBytes maxLifetime arrivals) a.privateKey a.wire a.now
      unfold arrived at hvalid hpending htotal hpending' htotal' ⊢
      rw [Trace.run_concat]
      exact ⟨hvalid.receive .., hpending'.trans hpending, htotal'.trans htotal⟩
  obtain ⟨hvalid, hpending, htotal⟩ := hvalid
  exact ⟨hvalid.bytes, hvalid.total.trans htotal.le, hvalid.size.trans hpending.le⟩

/-- **Fragments are reassembled exactly, in any order.**  No fragment is longer than its carrier
takes; a call answers the message when it supplies the last index missing and nothing else; and
whatever arrives, the accounts are right, and a call that fails leaves the other operations. -/
theorem reassembly_exact (H : Hpke) (hideal : H.Ideal) :
    (∀ publicKey seeds operation expiresAt message carrierBytes wires,
      sealFragments H publicKey seeds operation expiresAt message carrierBytes = .ok wires →
        ∀ wire ∈ wires, wire.length ≤ carrierBytes) ∧
    (∀ privateKey maxPending maxTotalBytes maxLifetime ids uploads calls,
      Feeds H privateKey maxPending maxTotalBytes maxLifetime ids uploads calls →
        ∀ σ ∈ Trace.steps calls,
          ((reassembled H privateKey maxPending maxTotalBytes maxLifetime σ.1).receive H privateKey
            σ.2.wire σ.2.now).2 = .ok (answer uploads (heard uploads σ.1) σ.2)) ∧
    (∀ maxPending maxTotalBytes maxLifetime arrivals,
      Accounts (arrived H maxPending maxTotalBytes maxLifetime arrivals) maxPending maxTotalBytes ∧
        ∀ (a : Arrival) op e,
          ((arrived H maxPending maxTotalBytes maxLifetime arrivals).receive H a.privateKey a.wire
            a.now).2 = .error e →
          (∀ plaintext f, openRequest H a.privateKey a.wire = .ok plaintext →
            Fragment.parse plaintext = some f → f.operation ≠ op) →
          ((arrived H maxPending maxTotalBytes maxLifetime arrivals).receive H a.privateKey a.wire
              a.now).1.pending.get? op =
            ((arrived H maxPending maxTotalBytes maxLifetime arrivals).pending.get? op).filter
              (fun p => decide (a.now < p.expiresAt))) :=
  ⟨fun _ _ _ _ _ _ _ h => length_le_carrier hideal h,
    fun _ _ _ _ _ _ _ hfeeds => receive_exact hideal hfeeds,
    fun _ _ _ _ => ⟨accounts_arrived .., fun a op _ _ hop =>
      Reassembler.get?_receive a.privateKey a.wire a.now op hop⟩⟩

namespace FragmentsToy

/-- HPKE that appends a tag, and a digest of the length. -/
def hpke : Hpke where
  Seed := Unit
  publicKey privateKey := privateKey
  sealTo publicKey _ plaintext := some (publicKey, plaintext ++ List.replicate 16 0)
  openWith privateKey enc ct :=
    if privateKey = enc then some (ct.take (ct.length - 16)) else none
  digest message := .filled 32 (Fin.ofNat 256 message.length)

theorem ideal : hpke.Ideal := by
  refine ⟨?_, ?_⟩
  · intro privateKey seed m enc ct h
    obtain ⟨rfl, rfl⟩ := Prod.mk.injEq .. ▸ Option.some.inj h
    simp [hpke]
  · intro publicKey seed m enc ct h
    obtain ⟨rfl, rfl⟩ := Prod.mk.injEq .. ▸ Option.some.inj h
    simp

def first : ByteArr 32 := .filled 32 1

def second : ByteArr 32 := .filled 32 2

def third : ByteArr 32 := .filled 32 3

/-- Three bytes in two fragments, one byte in one, and three that expire early. -/
def uploads (op : ByteArr 32) : Upload :=
  if op = first then ⟨[7, 8, 9], 10, 126⟩
  else if op = second then ⟨[5], 10, 126⟩
  else ⟨[1, 2, 3], 2, 126⟩

/-- The wires of an operation. -/
def wires (op : ByteArr 32) : List Bytes :=
  ((sealFragments hpke first (fun _ => ()) op (uploads op).expiresAt (uploads op).message
    126).toOption).getD []

def call (op : ByteArr 32) (index : Nat) (now : U64) : FragmentCall :=
  ⟨op, index, (wires op)[index]?.getD [], now⟩

/-- One operation stays incomplete.  Of another the last fragment comes first, and twice, with a
third one's between: there is room for two, since the incomplete one has expired. -/
def calls : List FragmentCall :=
  [call third 0 1, call first 1 1, call second 0 2, call first 1 3, call first 0 4]

theorem carries (op : ByteArr 32) (index : Nat)
    (now : U64) (hsealed : sealFragments hpke first (fun _ => ()) op (uploads op).expiresAt
      (uploads op).message 126 = .ok (wires op))
    (hu : uploads op = ⟨(uploads op).message, (uploads op).expiresAt, 126⟩)
    (hindex : index < (wires op).length) :
    (uploads op).Carries hpke first op index (call op index now).wire := by
  refine ⟨fun _ => (), wires op, ?_, ?_⟩
  · rw [hu]
    exact hsealed
  · unfold call
    dsimp only
    rw [List.getElem?_eq_getElem hindex, Option.getD_some]

theorem feeds : Feeds hpke first 2 100 20 {first, second, third} uploads calls := by
  have hfirst : sealFragments hpke first (fun _ => ()) first 10 (uploads first).message 126 =
      .ok (wires first) := by rfl
  have hsecond : sealFragments hpke first (fun _ => ()) second 10 (uploads second).message 126 =
      .ok (wires second) := by rfl
  have hthird : sealFragments hpke first (fun _ => ()) third 2 (uploads third).message 126 =
      .ok (wires third) := by rfl
  refine ⟨?_, by decide +kernel, by decide +kernel, by decide +kernel, by decide +kernel⟩
  intro c hc
  simp only [calls, List.mem_cons, List.not_mem_nil, or_false] at hc
  rcases hc with rfl | rfl | rfl | rfl | rfl
  · exact ⟨by decide, carries third 0 1 hthird rfl (by decide +kernel)⟩
  · exact ⟨by decide, carries first 1 1 hfirst rfl (by decide +kernel)⟩
  · exact ⟨by decide, carries second 0 2 hsecond rfl (by decide +kernel)⟩
  · exact ⟨by decide, carries first 1 3 hfirst rfl (by decide +kernel)⟩
  · exact ⟨by decide, carries first 0 4 hfirst rfl (by decide +kernel)⟩

end FragmentsToy

open FragmentsToy in
theorem reassembly_exact_toy :
    (∀ wire ∈ wires first, wire.length ≤ 126) ∧
    (∀ σ ∈ Trace.steps calls,
      ((reassembled hpke first 2 100 20 σ.1).receive hpke first σ.2.wire σ.2.now).2 =
        .ok (answer uploads (heard uploads σ.1) σ.2)) ∧
    (((arrived hpke 2 100 20 [⟨first, (call first 1 1).wire, 1⟩]).receive hpke first []
        2).1.pending.get? first =
      ((arrived hpke 2 100 20 [⟨first, (call first 1 1).wire, 1⟩]).pending.get? first).filter
        (fun p => decide (2 < p.expiresAt))) :=
  ⟨(reassembly_exact hpke ideal).1 first (fun _ => ()) first 10 (uploads first).message 126
      (wires first) (by rfl),
    (reassembly_exact hpke ideal).2.1 first 2 100 20 {first, second, third} uploads calls feeds,
    ((reassembly_exact hpke ideal).2.2 2 100 20 [⟨first, (call first 1 1).wire, 1⟩]).2 ⟨first, [], 2⟩
      first .limit (by rfl) (fun _ _ hopen => by cases hopen)⟩

end Anymone.Eth
