import Anymone.SchedulerToy
import Anymone.Trace
import Anymone.WireEstimate

/-! # Every message of a subnet's parties against its wire estimate

A relay or a client of either Panetière kind is a `WireParty`: its calls, what each sends, and
what a call must not bring more of than there is room for.  What one call keeps, a whole run keeps
(`sent_fits`), so that the parties of a subnet whose estimate does not wrap send nothing longer
than `subnet_max_wire` as long as every call stays within the room it leaves.

The room is what the estimate provides for, and it is less than what honest parties meet: a lane
receipts up to twice the clients that the estimate counts, and a client's fragment carries the
bundles of all the lanes that miss it, in five bytes a coefficient.
-/

namespace Anymone

/-- A relay or a client, as what it sends. -/
structure WireParty where
  State : Type
  Op : Type
  start : State
  apply : State → Op → State
  /-- What a call sends. -/
  sent : State → Op → List PanetiereWire
  /-- The call brings no more than the room. -/
  Roomy : WireRoom → State → Op → Prop

namespace WireParty
variable (P : WireParty)

/-- The party after a run. -/
def after (ops : List P.Op) : P.State := Trace.run P.start P.apply ops

/-- Every call of the run stays within the room. -/
def Kept (room : WireRoom) (ops : List P.Op) : Prop :=
  ∀ σ ∈ Trace.steps ops, P.Roomy room (P.after σ.1) σ.2

variable {P} {room : WireRoom} {size : Nat} {Inv : P.State → Prop} {ops : List P.Op}

/-- **What every call within the room keeps, a run within the room keeps.** -/
theorem inv_after (h0 : Inv P.start) (hstep : ∀ s op, Inv s → P.Roomy room s op →
      Inv (P.apply s op) ∧ FitWire size (P.sent s op)) (hkept : P.Kept room ops) :
    ∀ l, l <+: ops → Inv (P.after l) := by
  refine Trace.prefix_induction h0 (fun σ hσ hinv => ?_)
  unfold after
  rw [Trace.run_concat]
  exact (hstep _ _ hinv (hkept σ hσ)).1

/-- **A run within the room sends only what fits.** -/
theorem sent_fits (h0 : Inv P.start) (hstep : ∀ s op, Inv s → P.Roomy room s op →
      Inv (P.apply s op) ∧ FitWire size (P.sent s op)) (hkept : P.Kept room ops) :
    ∀ σ ∈ Trace.steps ops, FitWire size (P.sent (P.after σ.1) σ.2) := by
  intro σ hσ
  have hinv := inv_after h0 hstep hkept σ.1 ((List.prefix_append ..).trans
    (Trace.prefix_of_mem_steps hσ))
  exact (hstep _ _ hinv (hkept σ hσ)).2

end WireParty

/-! ## The parties of a subnet -/

section Parties
variable {W : WireCrate}

/-- A relay of a Panetière subnet. -/
def relayParty (cfg : ServerConfig W.toSessionCrate) : WireParty where
  State := ServerSession W.toSessionCrate
  Op := SessionOp
  start := .new
  apply s op := s.apply cfg op
  sent s op := s.sent cfg op
  Roomy room s op := s.Roomy room cfg op

/-- A relay of a scheduled subnet, over the entry map its node holds. -/
def scheduledRelayParty (cfg : ScheduledServerConfig W.toScheduledCrate) (entries : EntryMap) :
    WireParty where
  State := ScheduledServerSession W.toScheduledCrate
  Op := RelayOp
  start := .new entries
  apply s op := s.apply cfg op
  sent s op := s.sent cfg op
  Roomy room s op := s.Roomy room cfg op

/-- A client of a Panetière subnet. -/
def clientParty (cfg : PanetiereClientConfig W.toChannelCrate) (scp : ShareCommitmentParams) :
    WireParty where
  State := PanetiereClientSession W.toChannelCrate
  Op := ChannelOp
  start := .new cfg
  apply s op := s.apply op
  sent s op := s.sent op
  Roomy room s op := s.Roomy room scp op

/-- A client of a scheduled subnet, over the entry map its node holds. -/
def scheduledClientParty (cfg : ScheduledClientConfig W.toScheduledCrate)
    (scp : ShareCommitmentParams) (entries : EntryMap) : WireParty where
  State := ScheduledClientSession W.toScheduledCrate
  Op := ClientOp
  start := .new cfg entries
  apply s op := s.apply cfg op
  sent s op := s.sent cfg op
  Roomy room s op := s.Roomy cfg room scp op

/-- The parameters `params_for` sets up for the subnet's shape over `n` lanes. -/
structure ConsensusShape.SetUp (W : WireCrate) (x : ConsensusShape) (n : Nat) (pp : ProtocolParams)
    (scp : ShareCommitmentParams) : Prop where
  rs : pp.rs = ⟨x.threshold.val, n⟩
  share_comm : pp.shareComm = some scp
  block : scp.blockLen = (W.blockLen pp.rs x.nPolys).val
  lanes : scp.nLanes = n
  width : W.messagePolys pp = x.nPolys.val

/-- The relays and clients that run a protocol with parameters of its own. -/
inductive WireParty.Runs (W : WireCrate) (pp : ProtocolParams) (scp : ShareCommitmentParams) :
    ProtocolConfig → WireParty → Prop
  | relay {c : PanetiereConfig} {cfg : ServerConfig W.toSessionCrate} (hpp : cfg.pp = pp) :
      Runs W pp scp (.panetiere c) (relayParty cfg)
  | client {c : PanetiereConfig} {cfg : PanetiereClientConfig W.toChannelCrate}
      (hpp : cfg.pp = pp) : Runs W pp scp (.panetiere c) (clientParty cfg scp)
  | scheduledRelay {c : ScheduledPanetiereConfig}
      {cfg : ScheduledServerConfig W.toScheduledCrate} (hpp : cfg.inner.pp = pp)
      (entries : EntryMap) :
      Runs W pp scp (.scheduledPanetiere c) (scheduledRelayParty cfg entries)
  | scheduledClient {c : ScheduledPanetiereConfig}
      {cfg : ScheduledClientConfig W.toScheduledCrate} (hpp : cfg.pp = pp) (entries : EntryMap) :
      Runs W pp scp (.scheduledPanetiere c) (scheduledClientParty cfg scp entries)

/-- **The lengths the crates document**: a key and a signature are not longer than SEC1 and ECDSA
have them, shares pack polynomial by polynomial and split by the dimension, and what a client
round makes under `params_for` has its packed lengths, with an opening no longer than
`round_wire_sizes` bounds it. -/
structure WireCrate.Lengths (W : WireCrate) : Prop where
  pubkey : W.pubkeyLen ≤ 65
  sig : W.sigLen ≤ 64
  sign : ∀ id m, (W.idSign id m).length ≤ 64
  shares : W.SharesExact
  splits : W.SplitsExact
  rounds : ∀ {x : ConsensusShape} {n : Nat} {pp : ProtocolParams} {scp : ShareCommitmentParams},
    x.SetUp W n pp scp → 0 < pp.rs.k → W.Measured pp scp (x.sealedBound W.toSchedulerCrate n)

/-- The room of a subnet: what its `subnet_max_wire` leaves. -/
def Subnet.room (W : WireCrate) (s : Subnet) : WireRoom :=
  wireRoom W.toSetCrate (subnetMaxWire W.toSchedulerCrate s.relays.length s.protocol).val
    s.relays.length

variable {s : Subnet} {x : ConsensusShape} {pp : ProtocolParams} {scp : ShareCommitmentParams}
  {P : WireParty}

/-- A subnet that passes has a relay. -/
theorem one_le_relays (hok : subnetStructureOk W.toSchedulerCrate s = true) :
    1 ≤ s.relays.length := by
  unfold subnetStructureOk at hok
  simp only [Bool.and_eq_true, Bool.not_eq_true', List.isEmpty_eq_false_iff] at hok
  exact List.length_pos_iff.mpr hok.1.1.1.1.1.1

/-- Its threshold is more than half of them. -/
theorem threshold_pos (hok : subnetStructureOk W.toSchedulerCrate s = true)
    (hx : s.protocol.consensus W.toSchedulerCrate = some x) : 0 < x.threshold.val := by
  unfold subnetStructureOk at hok
  simp only [Bool.and_eq_true] at hok
  have hbounds := hok.1.2
  unfold ProtocolConfig.consensus at hx
  split at hx
  · rename_i c hc
    split_ifs at hx
    cases hx
    rw [hc] at hbounds
    simp only [protocolBoundsOk, thresholdOk, Bool.and_eq_true, decide_eq_true_eq] at hbounds
    exact (Nat.succ_pos _).trans_le hbounds.1.2.1
  · rename_i c hc
    split_ifs at hx
    cases hx
    rw [hc] at hbounds
    simp only [protocolBoundsOk, thresholdOk, Bool.and_eq_true, decide_eq_true_eq] at hbounds
    exact (Nat.succ_pos _).trans_le hbounds.1.1.1.2.1
  · cases hx

/-- What a subnet's estimate leaves of its size: every fixed part of a message, with a link of
every lane or with the largest bundle, is within it. -/
theorem room_of_estimate (hW : W.Lengths) (hsetup : x.SetUp W s.relays.length pp scp) {size : Nat}
    (hsize : x.estimate W.toSchedulerCrate s.relays.length ≤ size) :
    41 + W.sigLen + s.relays.length * (4 + W.sigLen) ≤ size ∧ 144 + W.sigLen ≤ size ∧
      132 + Bundle.packedLen W.toSetCrate scp (x.sealedBound W.toSchedulerCrate s.relays.length) ≤
        size := by
  have hpubkey := hW.pubkey
  have hsig := hW.sig
  have hblock := hsetup.block
  rw [hsetup.rs] at hblock
  unfold ConsensusShape.estimate at hsize
  have hbundle : x.bundleBound W.toSchedulerCrate s.relays.length ≤ size := by omega
  unfold ConsensusShape.bundleBound at hbundle
  refine ⟨by omega, by omega, ?_⟩
  unfold Bundle.packedLen
  rw [hblock, hsetup.lanes]
  omega

/-- **One call of any party of the subnet.** -/
theorem WireParty.Runs.step (hW : W.Lengths)
    (hok : subnetStructureOk W.toSchedulerCrate s = true)
    (hx : s.protocol.consensus W.toSchedulerCrate = some x)
    (hsum : x.estimate W.toSchedulerCrate s.relays.length < 2 ^ 64)
    (hsetup : x.SetUp W s.relays.length pp scp) (hruns : P.Runs W pp scp s.protocol) :
    ∃ Inv : P.State → Prop, Inv P.start ∧ ∀ st op, Inv st → P.Roomy (s.room W) st op →
      Inv (P.apply st op) ∧
        FitWire (subnetMaxWire W.toSchedulerCrate s.relays.length s.protocol).val
          (P.sent st op) := by
  have hn := one_le_relays hok
  have hmeasured := hW.rounds hsetup (by
    rw [hsetup.rs]
    exact threshold_pos hok hx)
  obtain ⟨hrelay, hrepair, hbundle⟩ :=
    room_of_estimate hW hsetup (estimate_le_subnetMaxWire hx hn hsum)
  unfold Subnet.room
  generalize (subnetMaxWire W.toSchedulerCrate s.relays.length s.protocol).val = size at *
  generalize s.protocol = protocol at hruns
  cases hruns with
  | @relay c cfg hpp =>
    exact ⟨fun st => ServerSession.Within _ st, ServerSession.within_new, fun st op h hroomy =>
      ServerSession.within_apply hW.shares hrelay hn h hroomy⟩
  | @client c cfg hpp =>
    subst hpp
    refine ⟨fun st => PanetiereClientSession.Exact cfg scp st,
      PanetiereClientSession.exact_new cfg, fun st op h hroomy => ?_⟩
    exact PanetiereClientSession.exact_apply (C := W.toChannelCrate) hmeasured hW.splits hW.shares
      hW.sign hbundle hrepair h hroomy
  | @scheduledRelay c cfg hpp entries =>
    exact ⟨fun st => ServerSession.Within _ (ScheduledServerSession.inner st),
      ServerSession.within_new, fun st op h hroomy =>
        ScheduledServerSession.within_apply hW.shares hrelay hn h hroomy⟩
  | @scheduledClient c cfg hpp entries =>
    subst hpp
    refine ⟨fun st => PostState.Exact scp (ScheduledClientSession.toPostState st), nofun,
      fun st op h hroomy => ?_⟩
    exact ScheduledClientSession.exact_apply (C := W.toScheduledCrate) hmeasured hW.splits hW.shares
      hW.sign hbundle hrepair h hroomy

/-- The room of a subnet holds a receipt for every client the estimate counts. -/
theorem clientSetMax_le_receipts (hok : subnetStructureOk W.toSchedulerCrate s = true)
    (hx : s.protocol.consensus W.toSchedulerCrate = some x)
    (hsum : x.estimate W.toSchedulerCrate s.relays.length < 2 ^ 64) :
    (max x.clientSetMax 1).val ≤ (s.room W).receipts := by
  have hle := estimate_le_subnetMaxWire hx (one_le_relays hok) hsum
  unfold ConsensusShape.estimate ConsensusShape.batchBound receiptBatchPackedLen at hle
  have hpos : 0 < Receipt.packedLen W.toSetCrate := by
    unfold Receipt.packedLen
    omega
  show _ ≤ _ / _
  rw [Nat.le_div_iff_mul_le hpos]
  omega

/-- **What a subnet's parties send is within its estimate**, in every run whose calls stay within
the room the estimate leaves, if its sums do not wrap. -/
theorem sent_within_estimate (hW : W.Lengths)
    (hok : subnetStructureOk W.toSchedulerCrate s = true)
    (hx : s.protocol.consensus W.toSchedulerCrate = some x)
    (hsum : x.estimate W.toSchedulerCrate s.relays.length < 2 ^ 64)
    (hsetup : x.SetUp W s.relays.length pp scp) (hruns : P.Runs W pp scp s.protocol)
    {ops : List P.Op} (hkept : P.Kept (s.room W) ops) :
    ∀ σ ∈ Trace.steps ops,
      FitWire (subnetMaxWire W.toSchedulerCrate s.relays.length s.protocol).val
        (P.sent (P.after σ.1) σ.2) := by
  obtain ⟨Inv, h0, hstep⟩ := hruns.step hW hok hx hsum hsetup
  exact WireParty.sent_fits h0 hstep hkept

end Parties

/-! ## A repair that is too long -/

/-- Coefficients of eight bytes, side by side. -/
def fromWords (words : List Nat) : Nat := words.foldr (fun c acc => c + 2 ^ 64 * acc) 0

/-- The toy session over polynomials of 32 coefficients, each in eight bytes. -/
def wireSession : SessionCrate :=
  { toySession with
    rsPolyPackedLen := 256
    packShare := fun share : List Nat => share.flatMap (leBytes 256)
    polyN := 32
    fromNttSlots := fromWords
    rsEncode := fun params polys =>
      List.replicate params.n (polys.take ((polys.length + params.k - 1) / params.k)) }

/-- It sizes a subnet as the toy scheduler does. -/
def wireScheduler : SchedulerCrate :=
  { toyScheduler with
    toSessionCrate := wireSession
    sharesOpen := fun _ _ => true }

/-- A crate of the documented lengths: a channel of ten polynomials, whose shares have a `k`-th of
them. -/
def toyWire : WireCrate :=
  { toSchedulerCrate := wireScheduler
    Rng := Nat
    fromSeed := fun seed => (seed.1.headD 0).val
    ServerKey := Unit
    RsClientRound := ClientId × Nat
    newClientRound := fun _ _ _ cid servers => (cid, servers.length)
    finalizeRound := fun round pp _ plaintext _ =>
      { clientId := round.1
        bulletin := ⟨(), (0 : Nat), .filled 1 0, toyHash []⟩
        rsShares := List.replicate pp.rs.n (SlotVector.resize (0 : Nat)
          (wireScheduler.blockLen pp.rs (Fin.ofNat _ plaintext.length)).val plaintext)
        sharePaths := (List.range pp.rs.n).map (fun lane => ⟨lane, []⟩)
        sealedOpenings := (List.range round.2).map (fun i => (Fin.ofNat _ i, [])) }
    generateKey := fun _ => (0 : U8)
    bulletinToBytes := fun entry => entry.pubkey.1 ++ entry.sig.1
    messagePolys := fun _ => 10
    kaheZero := (0 : Nat)
    genBelow := fun rng _ => (false, rng)
    maxPayloadBytes := fun _ => 4
    nPolys := fun _ => 10
    encodeMessage := fun rng _ payload =>
      (some (SlotVector.resize (0 : Nat) 10 (payload.map Fin.val)), rng)
    cover := fun _ => List.replicate 10 (0 : Nat)
    length_encodeMessage := by
      rintro rng ch payload polys ⟨⟩
      exact SlotVector.length_resize 10 _
    length_sealedOpenings := fun _ _ _ _ _ _ _ => (List.length_map _).trans List.length_range
    length_lanes := fun _ _ _ _ _ =>
      ⟨List.length_replicate, (List.length_map _).trans List.length_range⟩
    packs_path := fun _ _ _ _ _ _ _ => rfl
    genBool := fun rng => (rng % 2 == 0, rng + 1)
    genU16 := fun rng => (Fin.ofNat _ rng, rng + 1)
    Beacon := Unit
    beacon := fun _ => ()
    allocate := fun entries _ _ => entries.map (fun _ => none)
    encodeRaw := fun bytes => (bytes.map Fin.val : List Nat)
    decodeRanges := fun _ _ => none
    MseParams := Unit
    MseEncoding := Nat
    mseOf := fun _ => some ()
    kaheAdd := Nat.add
    mseNew := fun _ => (0 : Nat)
    mseInsert := fun sched rng _ => (sched, rng)
    msePack := fun sched => [sched]
    mseUnpack := fun _ polys => polys.headD (0 : Nat)
    mseDecode := fun _ => none }

theorem length_flatMap_leBytes (words : List Nat) :
    (words.flatMap (leBytes 256)).length = words.length * 256 := by
  rw [List.length_flatMap, List.map_congr_left (fun _ _ => leBytes_length 256 _), List.map_const',
    List.sum_replicate_nat]

/-- **The toy crate has the documented lengths.** -/
theorem lengths_toyWire : toyWire.Lengths where
  pubkey := by decide
  sig := by decide
  sign _ _ := (toyHash _).2.le.trans (by decide)
  shares share := length_flatMap_leBytes share
  splits params polys hk share hshare := by
    have hshare : share = polys.take ((polys.length + params.k - 1) / params.k) :=
      List.eq_of_mem_replicate hshare
    have hle : (polys.length + params.k - 1) / params.k ≤ polys.length := by
      have hmul := Nat.le_mul_of_pos_left polys.length hk
      rw [Nat.div_le_iff_le_mul hk, Nat.mul_comm]
      omega
    rw [hshare, List.length_take, min_eq_left hle]
  rounds := by
    intro x n pp scp hsetup hk
    refine ⟨fun round sid plaintext key hwidth share hshare => ?_, ?_, ?_⟩
    · rw [List.eq_of_mem_replicate hshare]
      refine (SlotVector.length_resize ..).trans ?_
      rw [hsetup.block]
      show (wireScheduler.blockLen pp.rs (Fin.ofNat _ plaintext.length)).val = _
      have hcount : (Fin.ofNat _ plaintext.length : U64) = x.nPolys := by
        rw [hwidth.trans hsetup.width, Fin.ofNat_val_eq_self]
      exact congrArg (fun m => (toyWire.blockLen pp.rs m).val) hcount
    · rintro round sid plaintext key path - bytes ⟨⟩
      rfl
    · intro round sid plaintext key e he
      obtain ⟨i, -, rfl⟩ := List.mem_map.mp he
      exact Nat.zero_le _

/-- What the session sends, its party sends. -/
theorem mem_sent_clientParty {W : WireCrate} {cfg : PanetiereClientConfig W.toChannelCrate}
    {scp : ShareCommitmentParams} (ops : List ChannelOp)
    {s : PanetiereClientSession W.toChannelCrate} (hs : (clientParty cfg scp).after ops = s)
    {w : PanetiereWire} {op : ChannelOp} (hw : w ∈ s.sent op) :
    w ∈ (clientParty cfg scp).sent ((clientParty cfg scp).after ops) op := by
  rw [hs]
  exact hw

namespace WireToy

/-- A subnet of three relays, any two of whose lanes rebuild. -/
def subnet : Subnet where
  id := 0
  relays := [toyNode 100, toyNode 101, toyNode 102]
  protocol := .panetiere ⟨1000, 8, 10, 1, 8, 2, toySid, .prony, .consensus⟩
  coverRate := 0x3f800000
  attested := false

def scp : ShareCommitmentParams := ⟨5, 3⟩

def pp : ProtocolParams := ⟨3, ⟨2, 3⟩, some scp, 2, toyParams.one_lane_per_server⟩

def shape : ConsensusShape := ⟨10, 8, 2⟩

/-- Its estimate. -/
theorem maxWire_subnet : (subnetMaxWire toyWire.toSchedulerCrate subnet.relays.length
    subnet.protocol).val = 4092 := by
  decide +kernel

theorem subnet_ok : subnetStructureOk toyWire.toSchedulerCrate subnet = true := by decide +kernel

theorem consensus_subnet : subnet.protocol.consensus toyWire.toSchedulerCrate = some shape := rfl

theorem setUp_shape : shape.SetUp toyWire subnet.relays.length pp scp :=
  ⟨rfl, rfl, by decide +kernel, rfl, rfl⟩

/-- A client with every relay's key. -/
def client : PanetiereClientConfig toyWire.toChannelCrate where
  pp := pp
  identity := toyNode 7
  servers := (List.range 3).map (fun i => (Fin.ofNat _ i, ()))
  rngSeed := toySid
  setupSeed := toySid
  setPks := some toyPks
  mse := ()
  sized := by decide

/-- The client posts a payload in round 5. -/
def post : ChannelOp := .finalize 5 (some [1, 2, 3])

/-- Lane 0's batch of that round, which shows the client's bundle. -/
def batch : Bytes :=
  match (((PanetiereClientSession.new client).apply post).setRounds.get? 5) with
  | none => []
  | some state =>
      let receipts := (state.roundOut.bundles.take 1).map (fun b => ⟨b.clientId, b.pubkey, b.hash⟩)
      (⟨0, receipts, toyWire.sign (toyKey 0) (batchSigningBytes (client.sid 5) 0 receipts)⟩ :
        ReceiptBatch toyWire.toSetCrate).pack

/-- The run up to the repair: the other two lanes did not take a bundle. -/
def missed : List ChannelOp := [post, .call (.batch 5 batch)]

/-- No call of the run repairs. -/
theorem kept_missed (room : WireRoom) : (clientParty client scp).Kept room missed := by
  intro σ hσ
  rcases List.mem_cons.mp (Trace.mem_of_mem_steps hσ) with hop | hop
  · rw [hop]
    exact trivial
  · rw [List.mem_singleton.mp hop]
    exact trivial

/-- The client after it. -/
def held : PanetiereClientSession toyWire.toChannelCrate := (clientParty client scp).after missed

theorem exact_held : held.Exact client scp := by
  have hmeasured : toyWire.Measured client.pp scp (shape.sealedBound toyWire.toSchedulerCrate 3) :=
    lengths_toyWire.rounds setUp_shape (by decide)
  have hstep : ∀ (s : PanetiereClientSession toyWire.toChannelCrate) (op : ChannelOp),
      s.Exact client scp → s.Roomy (wireRoom toyWire.toSetCrate 4092 3) scp op →
        (s.apply op).Exact client scp ∧ FitWire 4092 (s.sent op) := fun s op h hroomy =>
    PanetiereClientSession.exact_apply (C := toyWire.toChannelCrate) hmeasured
      lengths_toyWire.splits lengths_toyWire.shares lengths_toyWire.sign (by decide +kernel)
      (by decide) h hroomy
  have hnew : (PanetiereClientSession.new client).Exact client scp :=
    PanetiereClientSession.exact_new client
  exact WireParty.inv_after (P := clientParty client scp) hnew hstep (kept_missed _) missed
    (List.prefix_refl _)

theorem repairs_held : (held.setRounds.get? 5).map (fun st => (st.repairs pp,
    fragmentPolys toyWire.toSetCrate pp (st.withheld pp scp),
    (st.fragmentWire pp (client.sid 5) client.postKey).2.map List.length)) =
      some (true, 17, some 1) := by
  decide +kernel

/-- **A repair that the estimate does not hold**: two lanes missed the bundle of an honest client,
so that its one fragment carries both, 2642 bytes coded into 17 polynomials, where the estimate of
4092 bytes holds 15. -/
theorem repair_exceeds_estimate :
    toyWire.Lengths ∧ subnetStructureOk toyWire.toSchedulerCrate subnet = true ∧
      subnet.protocol.consensus toyWire.toSchedulerCrate = some shape ∧
      shape.estimate toyWire.toSchedulerCrate subnet.relays.length < 2 ^ 64 ∧
      shape.SetUp toyWire subnet.relays.length pp scp ∧
      (clientParty client scp).Runs toyWire pp scp subnet.protocol ∧
      ∃ w ∈ (clientParty client scp).sent ((clientParty client scp).after missed)
        (.call (.repair 5)), w.formsSet = true ∧
          (subnetMaxWire toyWire.toSchedulerCrate subnet.relays.length subnet.protocol).val <
            w.serialize.length := by
  refine ⟨lengths_toyWire, subnet_ok, consensus_subnet, by decide +kernel, setUp_shape,
    .client rfl, ?_⟩
  obtain ⟨state, hstate, hrepairs⟩ := Option.map_eq_some_iff.mp repairs_held
  simp only [Prod.mk.injEq] at hrepairs
  obtain ⟨hrepairs, hpolys, hfragments⟩ := hrepairs
  obtain ⟨fragments, hbuilt, hone⟩ := Option.map_eq_some_iff.mp hfragments
  have hlengths := client.length_of_repairs lengths_toyWire.splits lengths_toyWire.shares
    (exact_held.rounds 5 state hstate) (by decide) hrepairs hbuilt
  obtain ⟨e, rest, rfl⟩ := List.exists_cons_of_length_eq_add_one hone
  have hsent : held.sent (.call (.repair 5)) =
      (e :: rest).map (client.fragmentMessage 5 state.roundOut.clientId) :=
    PanetiereClientSession.sent_repair hstate hbuilt
  obtain ⟨hforms, m, hlen⟩ := hlengths (client.fragmentMessage 5 state.roundOut.clientId e)
    List.mem_cons_self
  have hmem : client.fragmentMessage 5 state.roundOut.clientId e ∈
      held.sent (.call (.repair 5)) := by
    rw [hsent]
    exact List.mem_cons_self
  refine ⟨client.fragmentMessage 5 state.roundOut.clientId e, ?_, hforms, ?_⟩
  · exact mem_sent_clientParty missed rfl hmem
  rw [maxWire_subnet, hlen]
  have hpolys : fragmentPolys toyWire.toChannelCrate.toSetCrate client.pp
    (ClientSetState.withheld client.pp scp state) = 17 := hpolys
  rw [hpolys]
  exact Nat.lt_add_right _ (by decide)

/-- The bundles of the same client are within the estimate. -/
theorem sent_within_estimate_toy :
    FitWire (subnetMaxWire toyWire.toSchedulerCrate subnet.relays.length subnet.protocol).val
      ((clientParty client scp).sent ((clientParty client scp).after []) post) :=
  sent_within_estimate (P := clientParty client scp) lengths_toyWire subnet_ok consensus_subnet
    (by decide +kernel) setUp_shape (.client rfl) (kept_missed _) ([], post)
    (Trace.mem_steps.mpr ⟨[.call (.batch 5 batch)], rfl⟩)

end WireToy
end Anymone
