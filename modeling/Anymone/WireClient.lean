import Anymone.PanetiereClient
import Anymone.WireRelay

/-! # What a client sends while a set is formed

A client's bundle is as long as the geometry of its subnet makes it.  Its fragments are as long as
the bundles of the lanes that did not take one are together, coded in five bytes a coefficient and
cut for the `n − k` lanes that must be enough to rebuild them.
-/

namespace Anymone

/-- What `blob_to_polys` makes of so many bytes. -/
def blobPolys (C : SetCrate) (len : Nat) : Nat :=
  (max ((len + bytesPerCoeff - 1) / bytesPerCoeff) 1 + C.polyN - 1) / C.polyN

/-- The polynomials of a fragment that codes so many bytes, under `fragment_params`. -/
def fragmentPolys (C : SetCrate) (pp : ProtocolParams) (len : Nat) : Nat :=
  (blobPolys C len + (pp.rs.n - pp.rs.k) - 1) / (pp.rs.n - pp.rs.k)

/-- A share of some polynomials under dimension `k` has a `k`-th of them, rounded up. -/
def SetCrate.SplitsExact (C : SetCrate) : Prop :=
  ∀ (params : RsParams) (polys : List C.RsNTTPoly), 0 < params.k →
    ∀ share ∈ C.rsEncode params polys, share.length = (polys.length + params.k - 1) / params.k

section Repair
variable {C : SetCrate} {scp : ShareCommitmentParams} {pp : ProtocolParams} {sid : SessionId}

theorem length_blobToPolys (blob : Bytes) :
    (blobToPolys (C := C) blob).length = blobPolys C blob.length := by
  unfold blobToPolys
  rw [List.length_map, List.length_range]
  rfl

/-- What packs to known lengths packs to their sum. -/
theorem length_flatten_of_mapM {α : Type} {f : α → Option Bytes} {g : α → Nat}
    (hg : ∀ x y, f x = some y → y.length = g x) : ∀ {l : List α} {ys : List Bytes},
      l.mapM f = some ys → ys.flatten.length = (l.map g).sum
  | [], ys, h => by
      cases h
      rfl
  | x :: l, ys, h => by
      rw [List.mapM_cons] at h
      obtain ⟨y, hy, h⟩ := Option.bind_eq_some_iff.mp h
      obtain ⟨ys', hys, h⟩ := Option.bind_eq_some_iff.mp h
      cases h
      rw [List.flatten_cons, List.length_append, hg x y hy, length_flatten_of_mapM hg hys,
        List.map_cons, List.sum_cons]

/-- Every bundle of the round has its packed length. -/
def ClientSetRound.Exact (scp : ShareCommitmentParams) (round : ClientSetRound C) : Prop :=
  ∀ b ∈ round.bundles, b.Exact scp

namespace ClientSetState
variable {st : ClientSetState C} {postKey : C.SigningKey}

/-- Whether `fragment_wire` repairs: for the first time, past the abstention budget, and with
lanes enough to send to. -/
def repairs (pp : ProtocolParams) (st : ClientSetState C) : Bool :=
  let missing := pp.rs.n - st.covered.keys.length
  !(st.repaired || decide (missing = 0) || decide (missing ≤ pp.rs.n - pp.rs.k) ||
    decide (st.covered.keys.length < pp.rs.n - pp.rs.k))

/-- The packed bundles of the lanes that do not show them, together. -/
def withheld (pp : ProtocolParams) (scp : ShareCommitmentParams) (st : ClientSetState C) : Nat :=
  ((uncovered pp.rs.n st.covered.keys).map (fun l => ((st.roundOut.bundles[l]?).map
    (fun b => Bundle.packedLen C scp b.envelope.length)).getD 0)).sum

theorem roundOut_fragmentWire : (st.fragmentWire pp sid postKey).1.roundOut = st.roundOut := by
  unfold fragmentWire
  dsimp only
  split <;> rfl

/-- A client that does not repair sends nothing. -/
theorem fragmentWire_of_not_repairs (h : st.repairs pp = false) :
    (st.fragmentWire pp sid postKey).2 = some [] := by
  unfold fragmentWire
  dsimp only
  rw [if_pos]
  unfold repairs at h
  simpa only [Bool.not_eq_false', Bool.not_eq_false] using h

/-- **How long a repair's fragments are**: each has its part of all the bundles withheld. -/
theorem length_data_of_repairs (hsplits : C.SplitsExact) (hround : st.roundOut.Exact scp)
    (hkn : pp.rs.k < pp.rs.n) (h : st.repairs pp = true) {fragments : List (Nat × Fragment C)}
    (hf : (st.fragmentWire pp sid postKey).2 = some fragments) :
    ∀ e ∈ fragments, e.2.data.length = fragmentPolys C pp (st.withheld pp scp) := by
  intro e he
  have hguard : (st.repaired || decide (pp.rs.n - st.covered.keys.length = 0) ||
      decide (pp.rs.n - st.covered.keys.length ≤ pp.rs.n - pp.rs.k) ||
      decide (st.covered.keys.length < pp.rs.n - pp.rs.k)) = false := by
    unfold repairs at h
    simpa only [Bool.not_eq_true', Bool.not_eq_true] using h
  unfold fragmentWire at hf
  dsimp only at hf
  rw [if_neg (by rw [hguard]; exact Bool.false_ne_true)] at hf
  obtain ⟨built, hbuilt, rfl⟩ := Option.map_eq_some_iff.mp hf
  simp only [Bool.or_eq_false_iff, decide_eq_false_iff_not, not_le, not_lt] at hguard
  obtain ⟨packed, hpacked, hdata⟩ := fragment_of_build hbuilt hguard.2 (by omega)
  obtain ⟨lane, -, he⟩ := List.mem_filterMap.mp he
  obtain ⟨f, hlane, rfl⟩ := Option.map_eq_some_iff.mp he
  have hshare := hsplits (fragmentParams pp) (blobToPolys packed.flatten) (Nat.sub_pos_of_lt hkn)
    f.data (List.mem_of_getElem? (hdata lane f hlane).2)
  have hlen : packed.flatten.length = st.withheld pp scp := by
    refine length_flatten_of_mapM (fun l bytes hl => ?_) hpacked
    obtain ⟨b, hb, hpack⟩ := Option.bind_eq_some_iff.mp hl
    rw [hb, (hround b (List.mem_of_getElem? hb)).length_pack hpack]
    rfl
  rw [length_blobToPolys, hlen] at hshare
  exact hshare

end ClientSetState
end Repair

/-! ## A post and a repair -/

/-- What the client rounds of a session make has the lengths their parameters fix: of a share of
a plaintext at full width, of a path, and at most `sealed` bytes of an opening. -/
structure PostCrate.Measured (C : PostCrate) (pp : ProtocolParams) (scp : ShareCommitmentParams)
    (sealed : Nat) : Prop where
  share : ∀ round sid plaintext key, plaintext.length = C.messagePolys pp →
    ∀ share ∈ (C.finalizeRound round pp sid plaintext key).rsShares, share.length = scp.blockLen
  path : ∀ round sid plaintext key,
    ∀ path ∈ (C.finalizeRound round pp sid plaintext key).sharePaths,
      ∀ bytes, C.pathToBytes path = some bytes → bytes.length = C.freshPathPackedLen scp.nLanes
  opening : ∀ round sid plaintext key,
    ∀ e ∈ (C.finalizeRound round pp sid plaintext key).sealedOpenings, e.2.length ≤ sealed

/-- Every round a session keeps has bundles of their packed length. -/
def PostState.Exact {C : PostCrate} (scp : ShareCommitmentParams) (st : PostState C) : Prop :=
  ∀ r state, st.setRounds.get? r = some state → state.roundOut.Exact scp

/-- A repair of the round fits the room: it is coded for some lanes at all, and what is withheld
is not more than a fragment may code. -/
def PostState.Roomy {C : PostCrate} (room : WireRoom) (pp : ProtocolParams)
    (scp : ShareCommitmentParams) (st : PostState C) (round : Round) : Prop :=
  ∀ state, st.setRounds.get? round = some state → state.repairs pp = true →
    pp.rs.k < pp.rs.n ∧ fragmentPolys C.toSetCrate pp (state.withheld pp scp) ≤ room.repair

namespace ClientConfig
variable {C : PostCrate} {cfg : ClientConfig C} {st : PostState C} {scp : ShareCommitmentParams}
  {size sealed n : Nat} {round : Round} {plaintext : List C.KahePoly}

/-- A bundle of the round is made of its output. -/
theorem bundle_of_clientSetRoundFromRs {sid : SessionId}
    {out : RsClientRoundOutput C.toSessionCrate} {key : C.SigningKey} {setRound : ClientSetRound C.toSetCrate × C.ClientEntry}
    (h : clientSetRoundFromRs cfg.pp sid out key = some setRound) : ∀ b ∈ setRound.1.bundles,
      b.share ∈ out.rsShares ∧ b.path ∈ out.sharePaths ∧
        ∃ e ∈ out.sealedOpenings, b.envelope = e.2 := by
  unfold clientSetRoundFromRs at h
  split at h
  · cases h
  · dsimp only at h
    obtain ⟨bundles, hbundles, h⟩ := Option.bind_eq_some_iff.mp h
    cases h
    intro b hb
    obtain ⟨lane, -, hlane⟩ := exists_of_mem_mapM hbundles b hb
    obtain ⟨share, hshare, hlane⟩ := Option.bind_eq_some_iff.mp hlane
    obtain ⟨path, hpath, hlane⟩ := Option.bind_eq_some_iff.mp hlane
    obtain ⟨envelope, henvelope, hlane⟩ := Option.bind_eq_some_iff.mp hlane
    obtain ⟨e, he, rfl⟩ := Option.map_eq_some_iff.mp henvelope
    cases hlane
    exact ⟨List.mem_of_getElem? hshare, List.mem_of_getElem? hpath, e, List.mem_of_getElem? he, rfl⟩

/-- **A post's messages fit**: every bundle has its packed length, around a sealed opening of at
most `sealed` bytes. -/
theorem exact_post (hmeasured : C.Measured cfg.pp scp sealed) (hshares : C.SharesExact)
    (hsign : ∀ id m, (C.idSign id m).length ≤ 64)
    (hsize : 132 + Bundle.packedLen C.toSetCrate scp sealed ≤ size)
    (hwidth : plaintext.length = C.messagePolys cfg.pp) (h : st.Exact scp)
    {posted : PostState C × List PanetiereWire}
    (hpost : cfg.post st round plaintext = some posted) :
    posted.1.Exact scp ∧ FitWire size posted.2 := by
  unfold post at hpost
  extract_lets ahead at hpost
  clear_value ahead
  split at hpost
  -- direct: slices and envelopes, none of which is a set wire
  · obtain ⟨wires, hwires, rfl⟩ := Option.map_eq_some_iff.mp hpost
    refine ⟨h, .of_others (fun w hw => ?_)⟩
    obtain ⟨slices, hslices, hdirect⟩ := Option.bind_eq_some_iff.mp hwires
    cases hdirect
    rcases List.mem_append.mp hw with hw | hw
    · rcases List.mem_cons.mp hw with rfl | hw
      · rfl
      · obtain ⟨e, -, hslice⟩ := exists_of_mem_mapM hslices w hw
        obtain ⟨path, -, hslice⟩ := Option.bind_eq_some_iff.mp hslice
        cases hslice
        rfl
    · obtain ⟨e, -, rfl⟩ := List.mem_map.mp hw
      rfl
  -- consensus: a bundle for each lane, kept for the repair
  · obtain ⟨setRound, hset, hpost⟩ := Option.bind_eq_some_iff.mp hpost
    obtain ⟨wires, hwires, hpost⟩ := Option.bind_eq_some_iff.mp hpost
    cases hpost
    have hbundles := bundle_of_clientSetRoundFromRs hset
    have hround : setRound.1.Exact scp := by
      intro b hb
      obtain ⟨hshare, hpath, -⟩ := hbundles b hb
      refine ⟨?_, hmeasured.path _ _ _ _ b.path hpath⟩
      rw [hshares, hmeasured.share _ _ _ _ hwidth b.share hshare]
    refine ⟨fun r state hstate => ?_, fun w hw hforms => ?_⟩
    · rw [OrdMap.get?_retain, Option.filter_eq_some_iff, OrdMap.get?_insert] at hstate
      obtain ⟨hstate, -⟩ := hstate
      split at hstate
      · cases hstate
        exact hround
      · exact h r state hstate
    · obtain ⟨bundles, hpacked, hwires⟩ := Option.bind_eq_some_iff.mp hwires
      cases hwires
      rcases List.mem_cons.mp hw with rfl | hw
      · cases hforms
      · obtain ⟨b, hb, hbundle⟩ := exists_of_mem_mapM hpacked w hw
        obtain ⟨data, hdata, hbundle⟩ := Option.bind_eq_some_iff.mp hbundle
        cases hbundle
        obtain ⟨-, -, e, he, henvelope⟩ := hbundles b hb
        -- the parts of a bundle are as long as the estimate measures them
        have hopening := hmeasured.opening _ _ _ _ e he
        have hsig := hsign cfg.identity
          (clientBundleSigningBytes round setRound.1.clientId (Fin.ofNat _ b.lane) data)
        rw [PanetiereWire.length_bundle, (hround b hb).length_pack hdata, henvelope]
        unfold Bundle.packedLen at hsize ⊢
        omega

/-- **How long a repair's messages are.** -/
theorem length_of_repairs (hsplits : C.SplitsExact) (hshares : C.SharesExact)
    {state : ClientSetState C.toSetCrate} (hround : state.roundOut.Exact scp)
    (hkn : cfg.pp.rs.k < cfg.pp.rs.n) (hrepairs : state.repairs cfg.pp = true)
    {fragments : List (Nat × Fragment C.toSetCrate)}
    (hf : (state.fragmentWire cfg.pp (cfg.sid round) cfg.postKey).2 = some fragments) :
    ∀ w ∈ fragments.map (cfg.fragmentMessage round state.roundOut.clientId),
      w.formsSet = true ∧ ∃ m, w.serialize.length = 80 + C.sigLen +
        fragmentPolys C.toSetCrate cfg.pp (state.withheld cfg.pp scp) * C.rsPolyPackedLen +
          (C.idSign cfg.identity m).length := by
  intro w hw
  obtain ⟨e, he, rfl⟩ := List.mem_map.mp hw
  refine ⟨rfl, clientFragmentSigningBytes round state.roundOut.clientId (Fin.ofNat _ e.1)
    e.2.pack, ?_⟩
  unfold fragmentMessage
  dsimp only
  rw [PanetiereWire.length_setFragment, Fragment.length_pack, hshares,
    ClientSetState.length_data_of_repairs hsplits hround hkn hrepairs hf e he]
  omega

/-- **A repair's messages fit** when there is room for what is withheld. -/
theorem exact_buildRepair (hsplits : C.SplitsExact) (hshares : C.SharesExact)
    (hsign : ∀ id m, (C.idSign id m).length ≤ 64) (hsize : 144 + C.sigLen ≤ size)
    (h : st.Exact scp) (hroomy : st.Roomy (wireRoom C.toSetCrate size n) cfg.pp scp round)
    {out : PostState C × List PanetiereWire} (hout : cfg.buildRepair st round = some out) :
    out.1.Exact scp ∧ FitWire size out.2 := by
  unfold buildRepair at hout
  split at hout
  · cases hout
    exact ⟨h, .nil⟩
  · rename_i state hstate
    dsimp only at hout
    obtain ⟨fragments, hfragments, hout⟩ := Option.bind_eq_some_iff.mp hout
    cases hout
    refine ⟨fun r state' hstate' => ?_, fun w hw hforms => ?_⟩
    · rw [OrdMap.get?_insert] at hstate'
      split at hstate'
      · cases hstate'
        rw [ClientSetState.roundOut_fragmentWire]
        exact h round state hstate
      · exact h r state' hstate'
    · cases hrepairs : state.repairs cfg.pp with
      | false =>
        rw [ClientSetState.fragmentWire_of_not_repairs hrepairs] at hfragments
        cases hfragments
        cases hw
      | true =>
        obtain ⟨hkn, hroom⟩ := hroomy state hstate hrepairs
        obtain ⟨-, m, hlen⟩ := length_of_repairs hsplits hshares (h round state hstate) hkn
          hrepairs hfragments w hw
        have hfits := add_mul_le_of_le_div (w := C.rsPolyPackedLen) hroom hsize
        have hsig := hsign cfg.identity m
        omega

theorem exact_acceptReceiptBatch (h : st.Exact scp) {data : Bytes} {st' : PostState C}
    (hout : cfg.acceptReceiptBatch st round data = .ok st') : st'.Exact scp := by
  unfold acceptReceiptBatch at hout
  split at hout
  · cases hout
  · split at hout
    · cases hout
    · split at hout
      · cases hout
      · rename_i batch _ _ state hstate
        cases hout
        intro r state' hstate'
        rw [OrdMap.get?_insert] at hstate'
        split at hstate'
        · cases hstate'
          have hkeeps : (state.noteBatch batch cfg.clientId).roundOut = state.roundOut := by
            unfold ClientSetState.noteBatch
            dsimp only
            split_ifs
            · rfl
            · split
              · rfl
              · split_ifs <;> rfl
          rw [hkeeps]
          exact h round state hstate
        · exact h r state' hstate'

theorem exact_prepareRound (h : st.Exact scp) : (cfg.prepareRound st round).Exact scp := by
  unfold prepareRound
  split_ifs
  · exact h
  · exact h

end ClientConfig

/-! ## The client session -/

/-- A call of the client session. -/
inductive ChannelOp where
  | stage (payload : Bytes)
  | coverRate (rate : U32)
  | beginRound (round : Round)
  | finalize (round : Round) (payload : Option Bytes)
  | call (c : ClientCall)

namespace PanetiereClientSession
variable {C : ChannelCrate} (s : PanetiereClientSession C)

/-- The session after a call. -/
def apply : ChannelOp → PanetiereClientSession C
  | .stage payload => s.stage payload
  | .coverRate rate => { s with coverRate := rate }
  | .beginRound round => s.beginRound round
  | .finalize round payload => (s.finalizeRound round payload).1
  | .call c => s.call c

/-- What a call sends. -/
def sent : ChannelOp → List PanetiereWire
  | .beginRound round => ((s.finalizeStaged round).map Prod.snd).getD []
  | .finalize round payload => (s.finalizeRound round payload).2.getD []
  | .call (.repair round) => ((s.cfg.buildRepair s.toPostState round).map Prod.snd).getD []
  | _ => []

/-- A call repairs no more than the room. -/
def Roomy (room : WireRoom) (scp : ShareCommitmentParams) : ChannelOp → Prop
  | .call (.repair round) => s.toPostState.Roomy room s.cfg.pp scp round
  | _ => True

/-- What the calls keep: rounds of their packed length, and a message at full width. -/
structure Exact (cfg : PanetiereClientConfig C) (scp : ShareCommitmentParams)
    (s : PanetiereClientSession C) : Prop where
  config : s.cfg = cfg
  rounds : s.toPostState.Exact scp
  width : ∀ msg, s.pending = some msg → msg.length = C.messagePolys s.cfg.pp

variable {s} {cfg : PanetiereClientConfig C} {scp : ShareCommitmentParams} {size sealed n : Nat}

theorem exact_new (cfg : PanetiereClientConfig C) : (new cfg).Exact cfg scp :=
  ⟨rfl, nofun, nofun⟩

theorem length_pad (cfg : PanetiereClientConfig C) (polys : List C.KahePoly) :
    (cfg.pad polys).length = C.messagePolys cfg.pp := SlotVector.length_resize ..

theorem exact_stage (h : s.Exact cfg scp) (payload : Bytes) : (s.stage payload).Exact cfg scp := by
  obtain ⟨hcfg, hstate⟩ := s.stage_keeps payload
  refine ⟨hcfg.trans h.config, hstate ▸ h.rounds, fun msg hmsg => ?_⟩
  rw [hcfg]
  unfold stage at hmsg
  split_ifs at hmsg
  · exact h.width msg hmsg
  · dsimp only at hmsg
    split at hmsg
    · exact h.width msg hmsg
    · cases hmsg
      exact length_pad ..

/-- A round's message is at full width. -/
theorem Exact.length_message (h : s.Exact cfg scp) {msg : List C.KahePoly}
    (hmsg : s.message.1 = some msg) : msg.length = C.messagePolys s.cfg.pp := by
  unfold message at hmsg
  split at hmsg
  · rename_i staged hstaged
    cases hmsg
    exact h.width _ hstaged
  · dsimp only at hmsg
    split_ifs at hmsg
    cases hmsg
    exact length_pad ..

theorem exact_finalizeStaged (hmeasured : C.Measured cfg.pp scp sealed) (hshares : C.SharesExact)
    (hsign : ∀ id m, (C.idSign id m).length ≤ 64)
    (hsize : 132 + Bundle.packedLen C.toSetCrate scp sealed ≤ size) (h : s.Exact cfg scp)
    {round : Round} {out : PanetiereClientSession C × List PanetiereWire}
    (hout : s.finalizeStaged round = some out) : out.1.Exact cfg scp ∧ FitWire size out.2 := by
  unfold finalizeStaged at hout
  split at hout
  · cases hout
    exact ⟨h, .nil⟩
  · dsimp only at hout
    split at hout
    · cases hout
      exact ⟨⟨h.config, h.rounds, nofun⟩, .nil⟩
    · rename_i msg hmsg
      obtain ⟨posted, hposted, rfl⟩ := Option.map_eq_some_iff.mp hout
      obtain ⟨hrounds, hfits⟩ := s.cfg.exact_post (h.config ▸ hmeasured) hshares hsign hsize
        (h.length_message hmsg) h.rounds hposted
      exact ⟨⟨h.config, hrounds, nofun⟩, hfits⟩

theorem exact_finalizeRound (hmeasured : C.Measured cfg.pp scp sealed) (hshares : C.SharesExact)
    (hsign : ∀ id m, (C.idSign id m).length ≤ 64)
    (hsize : 132 + Bundle.packedLen C.toSetCrate scp sealed ≤ size) (h : s.Exact cfg scp)
    (round : Round) (payload : Option Bytes) : (s.finalizeRound round payload).1.Exact cfg scp ∧
      FitWire size ((s.finalizeRound round payload).2.getD []) := by
  unfold finalizeRound
  dsimp only
  split
  · exact ⟨⟨h.config, h.rounds, h.width⟩, .nil⟩
  · rename_i message hmessage
    have hstaged : ({ s with
        rRng := (s.encoded payload).2
        pending := some (s.cfg.pad message) } : PanetiereClientSession C).Exact cfg scp := by
      refine ⟨h.config, h.rounds, fun msg hmsg => ?_⟩
      cases hmsg
      exact length_pad ..
    split
    · exact ⟨h, .nil⟩
    · rename_i posted hposted
      exact exact_finalizeStaged hmeasured hshares hsign hsize hstaged hposted

/-- What a repair sends. -/
theorem sent_repair {round : Round} {state : ClientSetState C.toSetCrate}
    (hstate : s.setRounds.get? round = some state) {fragments : List (Nat × Fragment C.toSetCrate)}
    (hf : (state.fragmentWire s.cfg.pp (s.cfg.sid round) s.cfg.postKey).2 = some fragments) :
    s.sent (.call (.repair round)) =
      fragments.map (s.cfg.fragmentMessage round state.roundOut.clientId) := by
  show ((s.cfg.buildRepair s.toPostState round).map Prod.snd).getD [] = _
  unfold ClientConfig.buildRepair
  rw [hstate]
  dsimp only
  rw [hf]
  rfl

/-- **One call of a client session.** -/
theorem exact_apply (hmeasured : C.Measured cfg.pp scp sealed) (hsplits : C.SplitsExact)
    (hshares : C.SharesExact) (hsign : ∀ id m, (C.idSign id m).length ≤ 64)
    (hsize : 132 + Bundle.packedLen C.toSetCrate scp sealed ≤ size)
    (hrepair : 144 + C.sigLen ≤ size)
    {op : ChannelOp} (h : s.Exact cfg scp)
    (hroomy : s.Roomy (wireRoom C.toSetCrate size n) scp op) :
    (s.apply op).Exact cfg scp ∧ FitWire size (s.sent op) := by
  cases op with
  | stage payload => exact ⟨exact_stage h payload, .nil⟩
  | coverRate rate => exact ⟨⟨h.config, h.rounds, h.width⟩, .nil⟩
  | beginRound round =>
    unfold apply sent beginRound
    dsimp only
    cases hout : s.finalizeStaged round with
    | none => exact ⟨h, .nil⟩
    | some out => exact exact_finalizeStaged hmeasured hshares hsign hsize h hout
  | finalize round payload =>
    exact exact_finalizeRound hmeasured hshares hsign hsize h round payload
  | call c =>
    cases c with
    | prepare round =>
      exact ⟨⟨h.config, ClientConfig.exact_prepareRound h.rounds, h.width⟩, .nil⟩
    | batch round data =>
      refine ⟨⟨h.config, ?_, h.width⟩, .nil⟩
      show ((s.cfg.acceptReceiptBatch s.toPostState round data).toOption.getD s.toPostState).Exact _
      cases hout : s.cfg.acceptReceiptBatch s.toPostState round data with
      | error e => exact h.rounds
      | ok st => exact ClientConfig.exact_acceptReceiptBatch h.rounds hout
    | repair round =>
      unfold apply sent call
      dsimp only
      cases hout : s.cfg.buildRepair s.toPostState round with
      | none => exact ⟨⟨h.config, h.rounds, h.width⟩, .nil⟩
      | some out =>
        obtain ⟨hrounds, hfits⟩ := s.cfg.exact_buildRepair hsplits hshares hsign hrepair h.rounds
          hroomy hout
        exact ⟨⟨h.config, hrounds, h.width⟩, hfits⟩

end PanetiereClientSession

/-! ## The scheduled client session -/

namespace ScheduledClientSession
variable {C : ScheduledCrate} (cfg : ScheduledClientConfig C) (s : ScheduledClientSession C)

/-- What a call sends. -/
def sent : ClientOp → List PanetiereWire
  | .repair round => ((cfg.buildRepair s.toPostState round).map Prod.snd).getD []
  | .finalize round spins => ((s.finalizeRound cfg round spins).map Prod.snd).getD []
  | _ => []

/-- A call repairs no more than the room. -/
def Roomy (room : WireRoom) (scp : ShareCommitmentParams) : ClientOp → Prop
  | .repair round => s.toPostState.Roomy room cfg.pp scp round
  | _ => True

variable {cfg s} {scp : ShareCommitmentParams} {size sealed n : Nat}

theorem exact_finalizeRound (hmeasured : C.Measured cfg.pp scp sealed) (hshares : C.SharesExact)
    (hsign : ∀ id m, (C.idSign id m).length ≤ 64)
    (hsize : 132 + Bundle.packedLen C.toSetCrate scp sealed ≤ size)
    (h : s.toPostState.Exact scp) {round : Round} {spins : Nat}
    {out : ScheduledClientSession C × List PanetiereWire}
    (hout : s.finalizeRound cfg round spins = some out) :
    out.1.toPostState.Exact scp ∧ FitWire size out.2 := by
  unfold finalizeRound at hout
  split at hout
  · cases hout
    exact ⟨h, .nil⟩
  · obtain ⟨drawn, hdrawn, hout⟩ := Option.bind_eq_some_iff.mp hout
    have hkeeps : drawn.session.toPostState = s.toPostState := by
      obtain ⟨_, -, hdrawn⟩ := Option.bind_eq_some_iff.mp hdrawn
      cases hdrawn
      rfl
    split at hout
    · cases hout
      exact ⟨hkeeps ▸ h, .nil⟩
    · obtain ⟨posted, hposted, hout⟩ := Option.bind_eq_some_iff.mp hout
      cases hout
      rw [hkeeps] at hposted
      exact cfg.exact_post hmeasured hshares hsign hsize (SlotVector.length_resize ..) h hposted

/-- **One call of a scheduled client session.** -/
theorem exact_apply (hmeasured : C.Measured cfg.pp scp sealed) (hsplits : C.SplitsExact)
    (hshares : C.SharesExact) (hsign : ∀ id m, (C.idSign id m).length ≤ 64)
    (hsize : 132 + Bundle.packedLen C.toSetCrate scp sealed ≤ size)
    (hrepair : 144 + C.sigLen ≤ size)
    {op : ClientOp} (h : s.toPostState.Exact scp)
    (hroomy : s.Roomy cfg (wireRoom C.toSetCrate size n) scp op) :
    (s.apply cfg op).toPostState.Exact scp ∧ FitWire size (s.sent cfg op) := by
  cases op with
  | reserve payload =>
    refine ⟨?_, .nil⟩
    unfold apply reserveMessage
    dsimp only
    split_ifs
    · exact h
    · exact h
  | advance round => exact ⟨h, .nil⟩
  | accept round entries signature =>
    refine ⟨?_, .nil⟩
    unfold apply acceptReservations
    dsimp only
    split_ifs
    · exact h
    · exact h
    · split
      · exact h
      · exact h
  | batch round data =>
    refine ⟨?_, .nil⟩
    show ((cfg.acceptReceiptBatch s.toPostState round data).toOption.getD s.toPostState).Exact _
    cases hout : cfg.acceptReceiptBatch s.toPostState round data with
    | error e => exact h
    | ok st => exact ClientConfig.exact_acceptReceiptBatch h hout
  | prepare round => exact ⟨ClientConfig.exact_prepareRound h, .nil⟩
  | repair round =>
    unfold apply sent
    dsimp only
    cases hout : cfg.buildRepair s.toPostState round with
    | none => exact ⟨h, .nil⟩
    | some out => exact cfg.exact_buildRepair hsplits hshares hsign hrepair h hroomy hout
  | finalize round spins =>
    unfold apply sent
    dsimp only
    cases hout : s.finalizeRound cfg round spins with
    | none => exact ⟨h, .nil⟩
    | some out => exact exact_finalizeRound hmeasured hshares hsign hsize h hout
  | share entries => exact ⟨h, .nil⟩

end ScheduledClientSession
end Anymone
