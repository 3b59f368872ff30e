import Anymone.ClientSetFinalize
import Mathlib.Data.Finset.Card

/-! # The client's side

A client reads its row out of the batches the lanes publish and repairs when the
lanes that do not show its bundle are more than the round can let abstain
(`fragmentWire`).  A client that is shown the batches of `k` lanes that took its
bundle never repairs (`fragmentWire_silent`): the rule counts only the client's
own gap.
-/

namespace Anymone
variable {C : SetCrate}

/-- `ClientSetRound`; the bulletin entry is not read here. -/
structure ClientSetRound (C : SetCrate) where
  clientId : ClientId
  bundles : List (Bundle C)

/-- `blob_to_polys`: five bytes a slot, `N` slots a polynomial, zero padded. -/
def blobToPolys (blob : Bytes) : List C.RsNTTPoly :=
  let coeffs := max ((blob.length + bytesPerCoeff - 1) / bytesPerCoeff) 1
  (List.range ((coeffs + C.polyN - 1) / C.polyN)).map (fun p =>
    C.fromNttSlots ((List.range C.polyN).map (fun i =>
      leVal ((blob.drop ((p * C.polyN + i) * bytesPerCoeff)).take bytesPerCoeff))))

/-- `build_fragments`: code the lanes not covered, one fragment per lane.  `none`
is the panic on a missing bundle, path or commitment geometry. -/
def buildFragments (pp : ProtocolParams) (sid : SessionId) (round : ClientSetRound C)
    (covered : List Nat) (signingKey : C.SigningKey) : Option (List (Fragment C)) :=
  let missing := (List.range pp.rs.n).filter (fun l => !covered.contains l)
  if missing.isEmpty || decide (covered.length < pp.rs.n - pp.rs.k) then some []
  else do
    let _ ← pp.shareComm
    let packed ← missing.mapM (fun l => (round.bundles[l]?).bind Bundle.pack)
    some ((C.rsEncode (fragmentParams pp) (blobToPolys packed.flatten)).zipIdx.map (fun e =>
      ⟨round.clientId, e.2, e.1,
        C.sign signingKey (fragmentSigningBytes sid round.clientId e.2 e.1)⟩))

/-- `ClientSetState`. -/
structure ClientSetState (C : SetCrate) where
  roundOut : ClientSetRound C
  covered : OrdSet Nat
  repaired : Bool

namespace ClientSetState

/-- `ClientSetState::new`. -/
def new (roundOut : ClientSetRound C) : ClientSetState C := ⟨roundOut, .empty, false⟩

/-- `ClientSetState::note_batch`: the lane is covered when its batch shows this
client's own bundle for it. -/
def noteBatch (st : ClientSetState C) (batch : ReceiptBatch C) (clientId : ClientId) :
    ClientSetState C :=
  let cid := st.roundOut.clientId
  if cid ≠ clientId then st
  else match st.roundOut.bundles.find? (fun b => b.lane == batch.serverId.val) with
    | none => st
    | some b =>
        if batch.receipts.any (fun r =>
            r.clientId == cid && r.bundleHash == b.hash && r.pkC == b.pubkey)
        then { st with covered := st.covered.add batch.serverId.val } else st

/-- `fragment_wire`: the fragments to send, each with the lane it goes to.  The
wire message around each is the session's. -/
def fragmentWire (pp : ProtocolParams) (sid : SessionId) (st : ClientSetState C)
    (postKey : C.SigningKey) : ClientSetState C × Option (List (Nat × Fragment C)) :=
  let covered := st.covered.keys
  let missing := pp.rs.n - covered.length
  if st.repaired || decide (missing = 0) || decide (missing ≤ pp.rs.n - pp.rs.k) ||
      decide (covered.length < pp.rs.n - pp.rs.k) then (st, some [])
  else
    ({ st with repaired := true },
      (buildFragments pp sid st.roundOut covered postKey).map (fun fragments =>
        covered.filterMap (fun lane => (fragments[lane]?).map (fun f => (lane, f)))))

/-- **A client whose bundle `k` lanes show sends nothing**, whatever the other
lanes report of it. -/
theorem fragmentWire_silent (pp : ProtocolParams) (sid : SessionId) (st : ClientSetState C)
    (postKey : C.SigningKey) (h : pp.rs.k ≤ st.covered.size) :
    st.fragmentWire pp sid postKey = (st, some []) := by
  have hlen : st.covered.keys.length = st.covered.size := by
    unfold OrdMap.keys OrdMap.size
    exact List.length_map ..
  have hgap : pp.rs.n - st.covered.keys.length ≤ pp.rs.n - pp.rs.k := by omega
  unfold fragmentWire
  dsimp only
  rw [if_pos]
  simp [hgap]

end ClientSetState
end Anymone
