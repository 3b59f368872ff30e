import Anymone.Bincode

/-! # Canonical formats

A format is canonical when a byte string reads as a value only if it is what the value is
written as.  What is keyed by the bytes received and what is keyed by the value written
again are then the same keys.  Every combinator keeps it; an enumeration needs its variants
to read under their own numbers.
-/

namespace Bincode
variable {α β : Type} {o : ByteOrder}

/-- What is read was written so. -/
def Canonical (f : Bincode α) : Prop :=
  ∀ bs a rest, f.read bs = some (a, rest) → bs = f.write a ++ rest

theorem of_split {n : Nat} {bs front rest : Bytes} (h : split n bs = some (front, rest)) :
    bs = front ++ rest ∧ front.length = n := by
  unfold split at h
  split at h
  · rename_i hle
    cases h
    exact ⟨(List.take_append_drop n bs).symm, List.length_take_of_le hle⟩
  · cases h

/-- So many bytes are the word of their value. -/
theorem leBytes_leVal : ∀ {w : Nat} {l : Bytes}, l.length = w → leBytes w (leVal l) = l
  | 0, l, h => (List.length_eq_zero_iff.mp h).symm
  | w + 1, [], h => nomatch h
  | w + 1, b :: l, h => by
      have hl : l.length = w := Nat.succ.inj h
      have hmod : (b.val + 256 * leVal l) % 256 = b.val := by omega
      have hdiv : (b.val + 256 * leVal l) / 256 = leVal l := by omega
      show Fin.ofNat 256 (b.val + 256 * leVal l) :: leBytes w ((b.val + 256 * leVal l) / 256) = b :: l
      rw [hdiv, leBytes_leVal hl]
      exact congrArg (· :: l) (Fin.ext hmod)

theorem canonical_uint {w n : Nat} (h : n ≤ 256 ^ w) : (uint o w n h).Canonical := by
  intro bs a rest hread
  obtain ⟨⟨word, rest'⟩, hsplit, hval⟩ := Option.bind_eq_some_iff.mp hread
  obtain ⟨hbs, hlen⟩ := of_split hsplit
  rw [hbs]
  change (if hv : leVal (o.arrange word) < n then some ((⟨_, hv⟩ : Fin n), rest') else none) =
    some (a, rest) at hval
  by_cases hv : leVal (o.arrange word) < n
  · rw [dif_pos hv] at hval
    cases hval
    have hword : o.arrange (leBytes w (leVal (o.arrange word))) = word := by
      rw [leBytes_leVal (by simp [hlen]), ByteOrder.arrange_arrange]
    exact congrArg (· ++ _) hword.symm
  · rw [dif_neg hv] at hval
    cases hval

theorem canonical_array {n : Nat} : (array n).Canonical := by
  intro bs a rest hread
  obtain ⟨⟨front, rest'⟩, hsplit, hmap⟩ := Option.bind_eq_some_iff.mp hread
  obtain ⟨hbs, hlen⟩ := of_split hsplit
  rw [hbs]
  obtain ⟨x, hx, heq⟩ := Option.map_eq_some_iff.mp hmap
  cases heq
  unfold toArr? at hx
  rw [dif_pos hlen] at hx
  cases hx
  rfl

theorem Canonical.pair {f : Bincode α} {g : Bincode β} (hf : f.Canonical) (hg : g.Canonical) :
    (f.pair g).Canonical := by
  intro bs p rest hread
  obtain ⟨⟨a, mid⟩, ha, hread⟩ := Option.bind_eq_some_iff.mp hread
  obtain ⟨⟨b, rest'⟩, hb, hread⟩ := Option.bind_eq_some_iff.mp hread
  cases hread
  show bs = f.write a ++ g.write b ++ rest
  rw [hf _ _ _ ha, hg _ _ _ hb, List.append_assoc]

theorem Canonical.readN {f : Bincode α} (hf : f.Canonical) (n : Nat) :
    ∀ {bs as rest}, f.readN n bs = some (as, rest) → bs = as.flatMap f.write ++ rest ∧
      as.length = n := by
  induction n with
  | zero =>
    intro bs as rest h
    cases h
    exact ⟨rfl, rfl⟩
  | succ n ih =>
    intro bs as rest h
    obtain ⟨⟨a, mid⟩, ha, h⟩ := Option.bind_eq_some_iff.mp h
    obtain ⟨⟨as', rest'⟩, has, h⟩ := Option.bind_eq_some_iff.mp h
    cases h
    obtain ⟨hmid, hlen⟩ := ih has
    refine ⟨?_, by rw [List.length_cons, hlen]⟩
    rw [hf _ _ _ ha, hmid, List.flatMap_cons, List.append_assoc]

theorem of_readLen {bs rest : Bytes} {n : Nat} (h : readLen o bs = some (n, rest)) :
    bs = writeLen o n ++ rest := by
  obtain ⟨⟨a, rest'⟩, ha, heq⟩ := Option.map_eq_some_iff.mp h
  cases heq
  exact canonical_uint _ _ _ _ ha

theorem Canonical.list {f : Bincode α} (hf : f.Canonical) : (list o f).Canonical := by
  intro bs as rest hread
  obtain ⟨⟨n, mid⟩, hn, hread⟩ := Option.bind_eq_some_iff.mp hread
  obtain ⟨hmid, hlen⟩ := hf.readN n hread
  show bs = writeLen o as.length ++ as.flatMap f.write ++ rest
  rw [of_readLen hn, hmid, hlen, List.append_assoc]

theorem canonical_bytes : (bytes o).Canonical := by
  intro bs a rest hread
  obtain ⟨⟨n, mid⟩, hn, hread⟩ := Option.bind_eq_some_iff.mp hread
  obtain ⟨hmid, hlen⟩ := of_split hread
  show bs = writeLen o a.length ++ a ++ rest
  rw [of_readLen hn, hmid, hlen, List.append_assoc]

theorem canonical_bool : bool.Canonical := by
  intro bs b rest hread
  cases bs with
  | nil => cases hread
  | cons x bs =>
    change (if x = 0 then some (false, bs) else if x = 1 then some (true, bs) else none) =
      some (b, rest) at hread
    split at hread
    · rename_i hx
      cases hread
      rw [hx]
      rfl
    · split at hread
      · rename_i hx
        cases hread
        rw [hx]
        rfl
      · cases hread

theorem Canonical.option {f : Bincode α} (hf : f.Canonical) : (option f).Canonical := by
  intro bs a rest hread
  cases bs with
  | nil => cases hread
  | cons x bs =>
    change (if x = 0 then some (none, bs) else if x = 1 then
      (f.read bs).map (fun p => (some p.1, p.2)) else none) = some (a, rest) at hread
    split at hread
    · rename_i hx
      cases hread
      rw [hx]
      rfl
    · split at hread
      · rename_i hx
        obtain ⟨⟨a', rest'⟩, ha, heq⟩ := Option.map_eq_some_iff.mp hread
        cases heq
        rw [hx]
        exact congrArg (List.cons 1) (hf _ _ _ ha)
      · cases hread

/-- A format that reads and writes through another: a variant, by its fields. -/
theorem Canonical.through {f : Bincode β} {g : Bincode α} (hf : f.Canonical) (mk : β → α)
    (hread : ∀ bs, g.read bs = (f.read bs).map (fun p => (mk p.1, p.2)))
    (hwrite : ∀ b, g.write (mk b) = f.write b) : g.Canonical := by
  intro bs a rest h
  rw [hread] at h
  obtain ⟨⟨b, rest'⟩, hb, heq⟩ := Option.map_eq_some_iff.mp h
  cases heq
  rw [hwrite]
  exact hf _ _ _ hb

theorem Canonical.iso {f : Bincode α} {mk : α → β} {get : β → α} {h : ∀ b, mk (get b) = b}
    (hf : f.Canonical) (hinv : ∀ a, get (mk a) = a) : (f.iso mk get h).Canonical :=
  hf.through mk (fun _ => rfl) (fun a => congrArg f.write (hinv a))

/-- An enumeration is canonical when each variant is, and reads as a value of its number. -/
theorem canonical_tagged {tag : α → U32} {variants : U32 → Option (Bincode α)}
    (hf : ∀ t f, variants t = some f → f.Canonical)
    (htag : ∀ t f, variants t = some f → ∀ bs a rest, f.read bs = some (a, rest) → tag a = t) :
    (tagged o tag variants).Canonical := by
  intro bs a rest hread
  obtain ⟨⟨t, mid⟩, ht, hread⟩ := Option.bind_eq_some_iff.mp hread
  obtain ⟨f, hvar, hread⟩ := Option.bind_eq_some_iff.mp hread
  have hnum := htag t f hvar _ _ _ hread
  have hwrite : (tagged o tag variants).write a = (u32 o).write t ++ f.write a := by
    unfold tagged
    simp only [hnum, hvar]
  rw [hwrite, canonical_uint _ _ _ _ ht, hf t f hvar _ _ _ hread, List.append_assoc]
  rfl

end Bincode
