import Anymone.ScheduledClient
import Anymone.PanetiereToy

/-! # A scheduled session to run the model on

On top of the toy crate of a session: an allocation that packs the slots one after
another and grants the first entry of a rand only, a codec with one byte to a
polynomial, and a multiset encoding that counts each pair in a digit of one number.
-/

namespace Anymone

instance : LawfulBEq U16 := inferInstance

/-- The toy allocation, over the rands already granted and the end of the last slot. -/
def packFrom (cap : Nat) : List U16 → Nat → List (U16 × Nat) → List (Option Nat)
  | _, _, [] => []
  | seen, next, e :: rest =>
      if e.1 ∈ seen ∨ cap < next + e.2 then none :: packFrom cap seen next rest
      else some next :: packFrom cap (e.1 :: seen) (next + e.2) rest

/-- The toy crate of a scheduled session. -/
def toyScheduled : ScheduledCrate where
  toSessionCrate := toySession
  Rng := Nat
  fromSeed seed := (seed.1.headD 0).val
  ServerKey := Unit
  RsClientRound := ClientId
  newClientRound _ _ _ cid _ := cid
  finalizeRound cid pp _ plaintext _ :=
    { clientId := cid
      bulletin := ⟨(), (0 : Nat), ⟨[0], rfl⟩, toyHash []⟩
      rsShares := List.replicate pp.rs.n plaintext
      sharePaths := (List.range pp.rs.n).map (fun lane => ⟨lane, []⟩)
      sealedOpenings := (List.range pp.rs.n).map (fun i => (Fin.ofNat _ i, [])) }
  generateKey _ := (0 : U8)
  bulletinToBytes entry := entry.pubkey.1 ++ entry.sig.1
  messagePolys _ := 9
  kaheZero := (0 : Nat)
  genBool rng := (rng % 2 == 0, rng + 1)
  genU16 rng := (Fin.ofNat _ rng, rng + 1)
  genBelow rng _ := (false, rng)
  Beacon := Unit
  beacon _ := ()
  allocate entries _ cap := packFrom cap [] 0 entries
  bytesPerPoly := 1
  encodeRaw bytes := (bytes.map Fin.val : List Nat)
  decodeRanges polys ranges :=
    some (ranges.map (fun r => (SlotVector.read (polys : List Nat) r.1 r.2).map (Fin.ofNat 256)))
  MseParams := Unit
  MseEncoding := Nat
  mseOf _ := some ()
  nPolys _ := 1
  kaheAdd := Nat.add
  mseNew _ := (0 : Nat)
  mseInsert sched rng symbols :=
    (Nat.add sched (16 ^ ((symbols.getD 0 0).toNat * 8 + (symbols.getD 1 0).toNat)), rng)
  msePack sched := [sched]
  mseUnpack _ polys := polys.headD (0 : Nat)
  mseDecode sched := some ((List.range 64).flatMap (fun i =>
    List.replicate ((show Nat from sched) / 16 ^ i % 16) [(i / 8 : Nat), (i % 8 : Nat)]))

theorem length_packFrom (cap : Nat) (seen : List U16) (next : Nat) (l : List (U16 × Nat)) :
    (packFrom cap seen next l).length = l.length := by
  induction l generalizing seen next with
  | nil => rfl
  | cons e rest ih =>
    unfold packFrom
    split <;> simp [ih]

/-- The slots are packed between the start and the cap. -/
theorem packFrom_bounds {cap : Nat} {seen : List U16} {next : Nat} {l : List (U16 × Nat)} {i : Nat}
    {e : U16 × Nat} {o : Nat} (he : l[i]? = some e)
    (ho : (packFrom cap seen next l)[i]? = some (some o)) : next ≤ o ∧ o + e.2 ≤ cap := by
  induction l generalizing seen next i with
  | nil => simp at he
  | cons d rest ih =>
    unfold packFrom at ho
    split at ho
    · cases i with
      | zero => simp at ho
      | succ i => exact ih he ho
    · rename_i hfree
      cases i with
      | zero =>
        cases he
        cases ho
        omega
      | succ i =>
        have := ih he ho
        omega

/-- Each slot starts after the end of every one before it. -/
theorem packFrom_apart {cap : Nat} {seen : List U16} {next : Nat} {l : List (U16 × Nat)}
    {i j : Nat} (hij : i < j) {ei ej : U16 × Nat} {oi oj : Nat} (hi : l[i]? = some ei)
    (hj : l[j]? = some ej) (hoi : (packFrom cap seen next l)[i]? = some (some oi))
    (hoj : (packFrom cap seen next l)[j]? = some (some oj)) : oi + ei.2 ≤ oj := by
  induction l generalizing seen next i j with
  | nil => simp at hi
  | cons d rest ih =>
    obtain ⟨j, rfl⟩ : ∃ k, j = k + 1 := ⟨j - 1, by omega⟩
    unfold packFrom at hoi hoj
    split at hoi
    · rename_i hskip
      rw [if_pos hskip] at hoj
      cases i with
      | zero => simp at hoi
      | succ i => exact ih (by omega) hi hj hoi hoj
    · rename_i hfree
      rw [if_neg hfree] at hoj
      cases i with
      | zero =>
        cases hi
        cases hoi
        exact (packFrom_bounds (l := rest) (i := j) hj hoj).1
      | succ i => exact ih (by omega) hi hj hoi hoj

theorem toyScheduled_allocates : AllocatesApart toyScheduled where
  aligned entries _ cap := length_packFrom cap [] 0 entries
  apart entries _ cap i j hij ei ej oi oj hi hj hoi hoj := by
    rcases Nat.lt_or_gt_of_ne hij with h | h
    · exact Or.inr (Or.inr (Or.inl (packFrom_apart h hi hj hoi hoj)))
    · exact Or.inr (Or.inr (Or.inr (packFrom_apart h hj hi hoj hoi)))
  capped entries _ cap i e o he ho := (packFrom_bounds he ho).2

/-- `codec::allocate` grants at most one entry of a rand. -/
def OnePerRand (C : ScheduledCrate) : Prop :=
  ∀ entries b cap, ∀ i j : Nat, ∀ ei ej : U16 × Nat, ∀ oi oj, entries[i]? = some ei →
    entries[j]? = some ej → (C.allocate entries b cap)[i]? = some (some oi) →
    (C.allocate entries b cap)[j]? = some (some oj) → ei.1 = ej.1 → i = j

/-- A rand that was granted already is not granted again. -/
theorem packFrom_rand {cap : Nat} {seen : List U16} {next : Nat} {l : List (U16 × Nat)} {i : Nat}
    {e : U16 × Nat} {o : Nat} (he : l[i]? = some e)
    (ho : (packFrom cap seen next l)[i]? = some (some o)) : e.1 ∉ seen := by
  induction l generalizing seen next i with
  | nil => simp at he
  | cons d rest ih =>
    unfold packFrom at ho
    split at ho
    · cases i with
      | zero => simp at ho
      | succ i => exact ih he ho
    · rename_i hfree
      cases i with
      | zero =>
        cases he
        exact fun hmem => hfree (Or.inl hmem)
      | succ i => exact fun hmem => ih he ho (List.mem_cons_of_mem _ hmem)

theorem packFrom_rand_ne {cap : Nat} {seen : List U16} {next : Nat} {l : List (U16 × Nat)}
    {i j : Nat} (hij : i < j) {ei ej : U16 × Nat} {oi oj : Nat} (hi : l[i]? = some ei)
    (hj : l[j]? = some ej) (hoi : (packFrom cap seen next l)[i]? = some (some oi))
    (hoj : (packFrom cap seen next l)[j]? = some (some oj)) : ei.1 ≠ ej.1 := by
  induction l generalizing seen next i j with
  | nil => simp at hi
  | cons d rest ih =>
    obtain ⟨j, rfl⟩ : ∃ k, j = k + 1 := ⟨j - 1, by omega⟩
    unfold packFrom at hoi hoj
    split at hoi
    · rename_i hskip
      rw [if_pos hskip] at hoj
      cases i with
      | zero => simp at hoi
      | succ i => exact ih (by omega) hi hj hoi hoj
    · rename_i hfree
      rw [if_neg hfree] at hoj
      cases i with
      | zero =>
        cases hi
        have hnot := packFrom_rand (l := rest) (i := j) hj hoj
        exact fun he => hnot (he ▸ List.mem_cons_self ..)
      | succ i => exact ih (by omega) hi hj hoi hoj

theorem toyScheduled_onePerRand : OnePerRand toyScheduled := by
  intro entries _ cap i j ei ej oi oj hi hj hoi hoj he
  rcases Nat.lt_trichotomy i j with h | h | h
  · exact absurd he (packFrom_rand_ne h hi hj hoi hoj)
  · exact h
  · exact absurd he.symm (packFrom_rand_ne h hj hi hoj hoi)

/-- Client `id` of a toy subnet of three relays, its rands drawn from `rand` on. -/
def toyClient (id : U8) (rand : U8) : ScheduledClientConfig toyScheduled where
  pp := toyParams
  identity := toyNode id
  servers := [(0, ()), (1, ()), (2, ())]
  rngSeed := ⟨Fin.ofNat 256 (rand.val ^^^ 0x91) :: List.replicate 31 0, rfl⟩
  setupSeed := toySid
  setPks := none
  schedMse := ()
  mse := ()
  peeling := rfl
  vectorBytes := 8
  leaderPk := toyNode 100
  coverRate := 0

/-- The leader's signed reservations arrive. -/
def ClientOp.toyAccept (round : Round) (entries : List Entry) : ClientOp :=
  .accept round entries (toySign (toyNode 100) (reservationSigningBytes toySid round entries))

namespace ScheduledClientSession

/-- A payload is reserved at round 5, granted, and sent at round 7. -/
def toySend : List ClientOp :=
  [.advance 5, .reserve [1, 2, 3], .finalize 5 10, .toyAccept 5 [(1, 3)], .advance 6,
    .finalize 6 10, .advance 7, .finalize 7 10]

/-- The leader signs two lists for round 5: the first one reaches the client before it
reserves, and stays in the entry map. -/
def toyEquivocation : List ClientOp :=
  [.advance 5, .toyAccept 5 [], .reserve [1, 2, 3], .finalize 5 10, .toyAccept 5 [(1, 3)],
    .advance 6, .finalize 6 10, .advance 7, .finalize 7 10]

end ScheduledClientSession
end Anymone
