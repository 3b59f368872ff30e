import Anymone.ConfigBounds
import Anymone.ScheduledClient
import Anymone.WireClient

/-! # The wire estimate of consensus set formation

`consensus_wire_estimate` is the larger of a bundle and a batch, and a link of every lane.  Taken
without the wrap of a `usize` it is `ConsensusShape.estimate`, and the estimate is that number
as long as it is below `2⁶⁴`.  `subnet_max_wire` is at least as much.
-/

namespace Anymone

/-- What the estimate, the relays and the clients of both Panetière kinds take from the crates. -/
structure WireCrate extends SchedulerCrate, ChannelCrate, ScheduledCrate

/-! ## The estimate -/

/-- What the estimate reads of a configuration with consensus set formation. -/
structure ConsensusShape where
  nPolys : U64
  clientSetMax : U32
  threshold : U32

/-- The shape of a configuration, where it forms its sets by consensus. -/
def ProtocolConfig.consensus (C : SchedulerCrate) : ProtocolConfig → Option ConsensusShape
  | .panetiere c =>
      if c.setFormation = .consensus then
        some ⟨C.channelPolys c.estimatedMessages c.messageSize c.encoding, c.clientSetMax,
          c.threshold⟩
      else none
  | .scheduledPanetiere c =>
      if c.setFormation = .consensus then
        some ⟨C.schedChannelPolys c.estimatedMessages + msgPolys C c.vectorBytes, c.clientSetMax,
          c.threshold⟩
      else none
  | _ => none

namespace ConsensusShape
variable (C : SchedulerCrate) (x : ConsensusShape) (n : Nat)

/-- The opening a bundle seals, as the estimate bounds it. -/
def sealedBound : Nat := (C.serverEntryLen n x.nPolys (max x.clientSetMax 1)).val + 1600

/-- The bundle of the estimate. -/
def bundleBound : Nat :=
  (C.blockLen ⟨x.threshold.val, n⟩ x.nPolys).val * C.rsPolyPackedLen + C.freshPathPackedLen n +
    x.sealedBound C n + 512

/-- The batch of the estimate. -/
def batchBound : Nat := receiptBatchPackedLen C (max x.clientSetMax 1).val + 512

/-- `consensus_wire_estimate`, were its sums not to wrap. -/
def estimate : Nat :=
  max (x.bundleBound C n) (x.batchBound C) + n * (4 + C.sigLen) + 512

end ConsensusShape

/-- A sum that does not wrap. -/
theorem val_add_of_lt {a b : U64} (h : a.val + b.val < 2 ^ 64) : (a + b).val = a.val + b.val := by
  rw [Fin.val_add]
  exact Nat.mod_eq_of_lt h

theorem val_mul_of_lt {a b : U64} (h : a.val * b.val < 2 ^ 64) : (a * b).val = a.val * b.val := by
  rw [Fin.val_mul]
  exact Nat.mod_eq_of_lt h

theorem val_ofNat_of_lt {a : Nat} (h : a < 2 ^ 64) : (Fin.ofNat _ a : U64).val = a :=
  Nat.mod_eq_of_lt h

section Estimate
variable {C : SchedulerCrate} {x : ConsensusShape} {n : Nat}

/-- **The estimate is the sum** when that does not wrap. -/
theorem consensusWireEstimate_val (hn : 1 ≤ n) (h : x.estimate C n < 2 ^ 64) :
    (consensusWireEstimate C x.nPolys x.clientSetMax n x.threshold .consensus).val =
      x.estimate C n := by
  unfold ConsensusShape.estimate ConsensusShape.bundleBound ConsensusShape.batchBound
    ConsensusShape.sealedBound at h ⊢
  unfold consensusWireEstimate
  rw [if_neg (by simp), max_eq_left hn]
  dsimp only
  generalize C.blockLen ⟨x.threshold.val, n⟩ x.nPolys = block at h ⊢
  generalize C.serverEntryLen n x.nPolys (max x.clientSetMax 1) = entry at h ⊢
  generalize receiptBatchPackedLen C (max x.clientSetMax 1).val = receipts at h ⊢
  generalize C.freshPathPackedLen n = path at h ⊢
  generalize n * (4 + C.sigLen) = links at h ⊢
  -- a block of no polynomials gives 0 whatever the length of one wraps to
  have hpoly : (Fin.ofNat _ C.rsPolyPackedLen : U64).val = C.rsPolyPackedLen ∨ block.val = 0 := by
    by_cases hblock : block.val = 0
    · exact Or.inr hblock
    · have hle := Nat.le_mul_of_pos_left C.rsPolyPackedLen (Nat.pos_of_ne_zero hblock)
      exact Or.inl (val_ofNat_of_lt (by omega))
  have hslice : (block * Fin.ofNat _ C.rsPolyPackedLen : U64).val =
      block.val * C.rsPolyPackedLen := by
    rcases hpoly with hpoly | hblock
    · rw [val_mul_of_lt (by rw [hpoly]; omega), hpoly]
    · rw [Fin.val_mul, hblock]
      simp
  generalize block.val * C.rsPolyPackedLen = share at h hslice
  generalize (block * Fin.ofNat _ C.rsPolyPackedLen : U64) = slice at hslice ⊢
  have hpath : (Fin.ofNat _ path : U64).val = path := val_ofNat_of_lt (by omega)
  have hlinks : (Fin.ofNat _ links : U64).val = links := val_ofNat_of_lt (by omega)
  have hreceipts : (Fin.ofNat _ receipts : U64).val = receipts := val_ofNat_of_lt (by omega)
  have hentry : (entry + 1600 : U64).val = entry.val + 1600 := val_add_of_lt (by
    show entry.val + 1600 < _
    omega)
  -- from here on each sum is below `2 ^ 64`, so no addition wraps
  have hopened : (slice + Fin.ofNat _ path : U64).val = share + path := by
    rw [val_add_of_lt (by omega), hslice, hpath]
  have hsealed : (slice + Fin.ofNat _ path + (entry + 1600) : U64).val =
      share + path + (entry.val + 1600) := by
    rw [val_add_of_lt (by omega), hopened, hentry]
  have hbundle : (slice + Fin.ofNat _ path + (entry + 1600) + 512 : U64).val =
      share + path + (entry.val + 1600) + 512 := by
    rw [val_add_of_lt (by show _ + 512 < _; omega), hsealed]
    rfl
  have hbatch : (Fin.ofNat _ receipts + 512 : U64).val = receipts + 512 := by
    rw [val_add_of_lt (by show _ + 512 < _; omega), hreceipts]
    rfl
  generalize (slice + Fin.ofNat _ path + (entry + 1600) + 512 : U64) = bundle at hbundle ⊢
  generalize (Fin.ofNat _ receipts + 512 : U64) = batch at hbatch ⊢
  have hitem : (max bundle batch).val = max bundle.val batch.val := Fin.coe_max ..
  have hlinked : (max bundle batch + Fin.ofNat _ links : U64).val =
      max bundle.val batch.val + links := by
    rw [val_add_of_lt (by omega), hitem, hlinks]
  have hrelay : (max bundle batch + Fin.ofNat _ links + 512 : U64).val =
      max bundle.val batch.val + links + 512 := by
    rw [val_add_of_lt (by show _ + 512 < _; omega), hlinked]
    rfl
  rw [Fin.coe_max, hitem, hrelay, hbundle, hbatch]
  omega

/-- **A message within the unwrapped sum is within `subnet_max_wire`.** -/
theorem estimate_le_subnetMaxWire {protocol : ProtocolConfig}
    (hx : protocol.consensus C = some x) (hn : 1 ≤ n) (h : x.estimate C n < 2 ^ 64) :
    x.estimate C n ≤ (subnetMaxWire C n protocol).val := by
  rw [← consensusWireEstimate_val hn h]
  unfold ProtocolConfig.consensus at hx
  split at hx
  · rename_i c
    split_ifs at hx with hform
    cases hx
    unfold subnetMaxWire panetiereMaxWireEstimate
    dsimp only
    rw [hform, Fin.coe_max]
    exact le_max_right ..
  · rename_i c
    split_ifs at hx with hform
    cases hx
    unfold subnetMaxWire scheduledPanetiereMaxWireEstimate
    dsimp only
    rw [hform, Fin.coe_max]
    exact le_max_right ..
  · cases hx

end Estimate
end Anymone
