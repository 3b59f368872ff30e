import Anymone.Bytes

/-! # Readers that keep a log

A reader of a byte string, with the slices it was handed and the room it reserved.
The result is the reader's own (`result_bind` and the lemmas beside it push through a
`do` block), and the log stays within a length when each step's does (`within_bind`).
-/

/-- What a reader does to its bytes. -/
inductive Access where
  /-- It was handed the slice from `a` to `b`. -/
  | read (a b : Nat)
  /-- It reserved room for `entries` entries of `width` bytes, the first of them at `a`. -/
  | reserve (a entries width : Nat)

namespace Access

/-- The slice, or the entries there is room for, lie in the first `len` bytes. -/
def Within (len : Nat) : Access → Prop
  | .read a b => a ≤ b ∧ b ≤ len
  | .reserve a entries width => a + entries * width ≤ len

/-- The access as seen from `k` bytes before. -/
def shift (k : Nat) : Access → Access
  | .read a b => .read (k + a) (k + b)
  | .reserve a entries width => .reserve (k + a) entries width

theorem Within.shift {k n len : Nat} {x : Access} (h : x.Within n) (hk : k + n ≤ len) :
    (x.shift k).Within len := by
  cases x with
  | read a b =>
    obtain ⟨hab, hb⟩ := h
    exact ⟨by omega, by omega⟩
  | reserve a entries width =>
    have h : a + entries * width ≤ n := h
    show k + a + entries * width ≤ len
    omega

end Access

/-- A reader's result and its log. -/
structure Traced (α : Type) where
  result : Option α
  log : List Access

namespace Traced
variable {α β : Type} {len : Nat}

instance : Monad Traced where
  pure a := ⟨some a, []⟩
  bind x f := ⟨x.result.bind (fun a => (f a).result),
    x.log ++ x.result.elim [] (fun a => (f a).log)⟩

/-- A reader that gives up. -/
def fail : Traced α := ⟨none, []⟩

/-- A computation that reads nothing. -/
def lift (x : Option α) : Traced α := ⟨x, []⟩

/-- `bytes.get(a..b)`. -/
def slice (bytes : Bytes) (a b : Nat) : Traced Bytes :=
  ⟨slice? bytes a b, if a ≤ b ∧ b ≤ bytes.length then [.read a b] else []⟩

/-- `Vec::with_capacity(entries)`. -/
def reserve (a entries width : Nat) : Traced Unit := ⟨some (), [.reserve a entries width]⟩

/-- A reader of the bytes from `k` on. -/
def shift (k : Nat) (x : Traced α) : Traced α := ⟨x.result, x.log.map (.shift k)⟩

/-- Every access lies in the first `len` bytes. -/
def Within (len : Nat) (x : Traced α) : Prop := ∀ access ∈ x.log, access.Within len

@[simp] theorem result_pure (a : α) : (pure a : Traced α).result = some a := rfl

@[simp] theorem result_bind (x : Traced α) (f : α → Traced β) :
    (x >>= f).result = x.result.bind (fun a => (f a).result) := rfl

@[simp] theorem result_fail : (fail : Traced α).result = none := rfl

@[simp] theorem result_lift (x : Option α) : (lift x).result = x := rfl

@[simp] theorem result_slice (bytes : Bytes) (a b : Nat) :
    (slice bytes a b).result = slice? bytes a b := rfl

@[simp] theorem result_reserve (a entries width : Nat) :
    (reserve a entries width).result = some () := rfl

@[simp] theorem result_shift (k : Nat) (x : Traced α) : (x.shift k).result = x.result := rfl

@[simp] theorem result_ite (p : Prop) [Decidable p] (x y : Traced α) :
    (if p then x else y).result = if p then x.result else y.result := apply_ite ..

theorem within_pure (a : α) : (pure a : Traced α).Within len := fun _ h => nomatch h

theorem within_fail : (fail : Traced α).Within len := fun _ h => nomatch h

theorem within_lift (x : Option α) : (lift x).Within len := fun _ h => nomatch h

theorem within_reserve {a entries width : Nat} (h : a + entries * width ≤ len) :
    (reserve a entries width).Within len := by
  intro access hmem
  obtain rfl := List.mem_singleton.mp hmem
  exact h

/-- A slice is handed out only where there are bytes. -/
theorem within_slice (bytes : Bytes) (a b : Nat) : (slice bytes a b).Within bytes.length := by
  intro access hmem
  unfold slice at hmem
  split at hmem
  · obtain rfl := List.mem_singleton.mp hmem
    assumption
  · cases hmem

/-- **Step by step**, with what the steps before have read at hand. -/
theorem within_bind {x : Traced α} {f : α → Traced β} (hx : x.Within len)
    (hf : ∀ a, x.result = some a → (f a).Within len) : (x >>= f).Within len := by
  intro access hmem
  rcases List.mem_append.mp hmem with h | h
  · exact hx access h
  · cases hr : x.result with
    | none =>
      rw [hr] at h
      cases h
    | some a =>
      rw [hr] at h
      exact hf a hr access h

theorem within_shift {x : Traced α} {k n : Nat} (h : x.Within n) (hk : k + n ≤ len) :
    (x.shift k).Within len := by
  intro access hmem
  obtain ⟨inner, hin, rfl⟩ := List.mem_map.mp hmem
  exact (h inner hin).shift hk

end Traced

/-- **A canonical form.**  What fits is read back from its packing, nothing else is read as
anything, and the reader neither reads nor reserves past the bytes present. -/
structure CanonicalForm {α : Type} (pack : α → Bytes) (unpack : Bytes → Option α)
    (scan : Bytes → Traced α) (Short : α → Prop) : Prop where
  unpack_pack : ∀ a, Short a → unpack (pack a) = some a
  pack_unpack : ∀ bytes a, unpack bytes = some a → pack a = bytes
  bounded : ∀ bytes, (scan bytes).result = unpack bytes ∧ (scan bytes).Within bytes.length
