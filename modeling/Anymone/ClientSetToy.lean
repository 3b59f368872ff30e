import Anymone.ClientSetRun

/-! # A crate to run the model on

A `SetCrate` whose hashes and signatures are small enough to evaluate: a digest
is a polynomial in the bytes modulo a 256-bit prime, a signature is the digest of
the key and the message, and every fragment carries all of the data it helps
rebuild.  Three lanes tolerate one that misbehaves.

`lockstep` plays the relay rounds: each server's inputs are what the others sent
in the round before, and whatever the adversary adds for it.
-/

namespace Anymone

/-- The digest of the toy crate. -/
def toyHash (bytes : Bytes) : Digest :=
  ⟨leBytes 32 (bytes.foldl (fun h b => (h * 257 + b.val + 1) % (2 ^ 256 - 189)) 7),
    leBytes_length _ _⟩

/-- Keys are single bytes, and a key signs for itself. -/
def toyCrate : SetCrate where
  RsNTTPoly := Nat
  HVCPoly := Nat
  SigningKey := U8
  VerifyingKey := U8
  PrivateKey := Unit
  Opening := Unit
  pubkeyLen := 1
  sigLen := 32
  verifyingKey key := key
  toSec1Bytes key := ⟨[key], rfl⟩
  fromSec1Bytes bytes := bytes.1.head?
  sign key m := toyHash (key :: m)
  verify key m sig := decide (sig = toyHash (key :: m))
  verify_sign _ _ := decide_eq_true rfl
  sha256 := toyHash
  rsPolyPackedLen := 1
  packShare share := share.map (Fin.ofNat 256)
  unpackShare bytes n := if bytes.length = n then some (bytes.map Fin.val) else none
  coeffBytes p := [Fin.ofNat 256 p]
  pathToBytes _ := some []
  pathFromBytes _ lane _ := some ⟨lane, []⟩
  freshPathPackedLen _ := 0
  polyN := 1
  fromNttSlots slots := slots.headD 0
  nttSlots p := [p]
  rsEncode params polys := List.replicate params.n polys
  rsReconstruct _ _ samples := samples.head?.map Prod.snd
  unsealOpening _ _ _ _ _ := some ()

instance : DecidableEq toyCrate.RsNTTPoly := inferInstanceAs (DecidableEq Nat)

/-- Three lanes, any two of which rebuild. -/
def toyParams : ProtocolParams := ⟨3, ⟨2, 3⟩, some ⟨1, 3⟩, 2, rfl⟩

def toySid : SessionId := ⟨List.replicate 32 0, rfl⟩

/-- Lane `i`'s key. -/
def toyKey (i : ServerId) : U8 := Fin.ofNat 256 (10 + i.val)

/-- The lanes' keys, in lane order. -/
def toyPks : List U8 := (List.range 3).map (fun i => Fin.ofNat 256 (10 + i))

theorem toyPks_get {i : ServerId} (h : i.val < 3) : toyPks[i.val]? = some (toyKey i) := by
  unfold toyPks
  rw [List.getElem?_map, List.getElem?_range h]
  rfl

/-- The toy lanes, with the ones in `honest` following the protocol. -/
def toySystem (honest : Finset ServerId) (hlt : ∀ i ∈ honest, i.val < 3) (hcard : 2 ≤ honest.card) :
    SetSystem toyCrate where
  pp := toyParams
  sid := toySid
  serverPks := toyPks
  signer := toyKey
  honest := honest
  keys_length := rfl
  lanes_named := by decide
  k_pos := by decide
  k_le := by decide
  honest_key i hi := toyPks_get (hlt i hi)
  enough_honest := hcard

/-- A client's boot key, posted as its public key. -/
def toyPk (key : U8) : toyCrate.Pk := ⟨[key], rfl⟩

/-- The bundle of client `cid` for `lane`, signed under `key`. -/
def toyBundle (cid : ClientId) (key : U8) (lane : Nat) : Bundle toyCrate where
  clientId := cid
  lane := lane
  share := ([1] : List Nat)
  path := ⟨lane, []⟩
  envelope := []
  pubkey := toyPk key
  sig := toyCrate.sign key
    (bundleSigningBytes (C := toyCrate) toySid cid lane ([1] : List Nat) ⟨lane, []⟩ [])

/-- The receipt a lane gives for `toyBundle`. -/
def toyReceipt (cid : ClientId) (key : U8) (lane : Nat) : Receipt toyCrate :=
  ⟨cid, toyPk key, (toyBundle cid key lane).hash⟩

/-- Lane `i` reports `receipts`, and links its own batch. -/
def toyBatchRelay (i : ServerId) (receipts : List (Receipt toyCrate)) : Relay toyCrate :=
  let b : ReceiptBatch toyCrate :=
    ⟨i, receipts, toyCrate.sign (toyKey i) (batchSigningBytes toySid i receipts)⟩
  ⟨.batch b, [(i, toyCrate.sign (toyKey i)
    (relaySigningBytes toySid ((RelayItem.batch b).hash toySid)))]⟩

/-- Lanes 0 and 1 are honest, lane 2 is not. -/
def twoHonest : SetSystem toyCrate := toySystem {0, 1} (by simp) (by simp)

theorem forall_twoHonest {P : ServerId → Prop} (h0 : P 0) (h1 : P 1) :
    ∀ i ∈ twoHonest.honest, P i := by
  intro i hi
  have hi : i ∈ ({0, 1} : Finset ServerId) := hi
  rw [Finset.mem_insert, Finset.mem_singleton] at hi
  rcases hi with rfl | rfl
  · exact h0
  · exact h1

/-- All three lanes are honest. -/
def allHonest : SetSystem toyCrate := toySystem {0, 1, 2} (by simp) (by simp)

theorem allHonest_all (i : ServerId) (hi : i.val < allHonest.pp.rs.n) : i ∈ allHonest.honest := by
  have hlt : i.val < 3 := hi
  have hcases : i.val = 0 ∨ i.val = 1 ∨ i.val = 2 := by omega
  show i ∈ ({0, 1, 2} : Finset ServerId)
  simp only [Finset.mem_insert, Finset.mem_singleton, Fin.ext_iff]
  exact hcases

namespace SetSystem
open Trace
variable {C : SetCrate} (S : SetSystem C)

/-- What servers other than `i` sent in `stage`. -/
def sentTo (evs : List (SetEvent C)) (stage : Nat) (i : ServerId) : List (Relay C) :=
  (steps evs).flatMap (fun σ =>
    if σ.2.1 ≠ i ∧ σ.2.2.stage = stage then S.sends σ else [])

/-- One more `absorb` round at each of `servers`, on what the others sent and what
`extra` adds. -/
def lockstep (servers : List ServerId) (evs : List (SetEvent C)) (round : Nat)
    (extra : ServerId → List (Relay C)) : List (SetEvent C) :=
  evs ++ servers.map (fun i => (i, SetOp.absorb round (S.sentTo evs (round - 1) i ++ extra i)))

end SetSystem
end Anymone
