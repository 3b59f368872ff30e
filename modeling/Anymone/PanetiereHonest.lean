import Mathlib.Data.Fintype.Basic
import Anymone.PanetiereBlame
import Anymone.PanetiereOnce
import Anymone.SchedulerFaults

/-! # Blame and honest relays

Sessions of one subnet that follow the protocol, among clients and relays that need not.
A payload is arbitrary but cannot carry a share under an honest relay's key that no
session of that key sent (`Genuine`).  Every share an honest session sends has a
consistent key half, so no committee and no observer ever blames it; another relay's
decode does so exactly by way of a client whose post it holds with another share root
than the relay summed (`honest_relay_not_blamed`).
-/

namespace Anymone
variable {C : SchedulerCrate}

/-- What a share says, without its signature. -/
structure SignedShare where
  round : Round
  serverId : U32
  clients : List U32
  aggOpen : Bytes
  aggShare : Bytes
  shareSum : Bytes
  laneOpen : Bytes
  deriving DecidableEq

/-- The bytes its relay signs. -/
def SignedShare.signingBytes (s : SignedShare) : Bytes :=
  serverPublicSigningBytes s.round s.serverId s.clients s.aggOpen s.aggShare s.shareSum s.laneOpen

/-- The share in a wire message, and the signature it carries. -/
def PanetiereWire.signedShare? : PanetiereWire → Option (SignedShare × Bytes)
  | .serverPublic round serverId clients aggOpen aggShare shareSum laneOpen signature =>
      some (⟨round, serverId, clients, aggOpen, aggShare, shareSum, laneOpen⟩, signature)
  | _ => none

/-- What is relied on from the crate for an honest share: a lane sum that is made opens
against the roots it was made with, and packs and unpacks; openings that unseal sum to
an aggregate that packs and unpacks, whose share is the aggregate opening's. -/
structure ShareCheck (C : SchedulerCrate) extends LaneCheck C.toSessionCrate where
  opens : ∀ {scp node items clients roots lane},
    C.runRsNodeRound scp node items clients roots = some lane → laneOpens scp lane roots = true
  lanePacks : ∀ {scp node items clients roots lane bytes},
    C.runRsNodeRound scp node items clients roots = some lane →
      C.shareOpeningToBytes scp lane.aggOpen = some bytes →
      C.unpackShare (C.packShare lane.shareSum) scp.blockLen = some lane.shareSum ∧
        C.shareOpeningFromBytes scp node.val bytes = some lane.aggOpen
  sums : ∀ {server : ServerId} {items : List (ClientId × C.Opening)} {clients sp},
    (∀ i ∈ items, ∃ key sid server sealed, C.unsealOpening key sid i.1 server sealed = some i.2) →
      C.runServerRound server items clients = some sp →
      ∃ packed, C.packedOpeningFromBytes (C.packAggOpen clients.length sp.aggOpen) = some packed ∧
        C.openingFromPacked packed = some sp.aggOpen ∧
        C.unpackCsShares (C.packAggShare sp.aggShare) (C.muCs packed) = some [sp.aggShare] ∧
        C.sharesOpen [sp.aggShare] sp.aggOpen = true

/-- Whether a call leaves the session following the protocol. -/
def SessionOp.honest : SessionOp → Bool
  | .setMisbehavior (some _) => false
  | _ => true

/-- The payload of a call. -/
def SessionOp.payload? : SessionOp → Option Bytes
  | .inbound _ payload => some payload
  | _ => none

namespace ServerSession
open RoundState Trace
variable {cfg : ServerConfig C.toSessionCrate} {s : ServerSession C.toSessionCrate}

/-! ## What an honest session sends -/

/-- No call makes the session misbehave. -/
def HonestCalls (ops : List SessionOp) : Prop := ∀ op ∈ ops, op.honest = true

theorem misbehavior_apply {op : SessionOp} (hop : op.honest = true)
    (h : s.misbehavior = none) : (s.apply cfg op).misbehavior = none := by
  cases op with
  | beginRound round => exact h
  | inbound sender payload =>
    rcases s.onInbound_cases cfg sender payload with he | ⟨round, clients, _, -, -, he⟩ |
      ⟨msg, f, -, -, -, he⟩
    · simp only [apply, he, h]
    · simp only [apply, he]
      unfold adopt
      split <;> exact h
    · simp only [apply, he]
      exact h
  | checkpoint round k =>
    rcases s.checkpoint_cases cfg round k with he | ⟨b, b', -, he, -, -⟩
    · simp only [apply, he, h]
    · simp only [apply, he]
      exact h
  | endRound round =>
    show ((s.settle cfg round).1.emitServerPublics cfg round).1.misbehavior = none
    rw [emit_frame]
    exact (s.settle_frame cfg round).2.trans h
  | setMisbehavior mode =>
    cases mode with
    | none => rfl
    | some mode => cases hop

theorem misbehavior_after {ops : List SessionOp} (h : HonestCalls ops) :
    (after cfg ops).misbehavior = none := by
  induction ops using List.reverseRecOn with
  | nil => rfl
  | append_singleton ops op ih =>
    rw [after_concat]
    exact misbehavior_apply (h op (by simp))
      (ih (fun op hop => h op (List.mem_append_left _ hop)))

/-- Every opening held was unsealed with the relay's key. -/
def Unsealed (cfg : ServerConfig C.toSessionCrate) (r : Round) (b : RoundState C.toSessionCrate) :
    Prop :=
  ∀ i ∈ b.inboxItems, ∃ server sealed,
    C.unsealOpening (C.pke cfg.identity) (cfg.sid r) i.1 server sealed = some i.2

theorem unsealed_kept {op : SessionOp} {r : Round} {b b' : RoundState C.toSessionCrate}
    (h : Change cfg s op r b b') (hb : Unsealed cfg r b) : Unsealed cfg r b' := by
  -- A bucket is emptied by an emission or a decoding.
  have cleared : ∀ {b' : RoundState C.toSessionCrate}, b'.inboxItems = [] → Unsealed cfg r b' := by
    intro b' hnil i hi
    rw [hnil] at hi
    exact absurd hi (List.not_mem_nil)
  cases h with
  | claim cid signer max =>
    unfold claim
    split <;> exact hb
  | post cid entry =>
    unfold ServerConfig.filePublic
    split
    · exact hb
    · split <;> exact hb
  | opening cid sealed =>
    unfold ServerConfig.fileOpening
    cases hopen : C.unsealOpening (C.pke cfg.identity) (cfg.sid r) cid cfg.serverId sealed with
    | none => exact hb
    | some opening =>
      dsimp only
      split
      · exact hb
      · intro i hi
        rcases List.mem_append.mp hi with hi | hi
        · exact hb i hi
        · obtain rfl := List.mem_singleton.mp hi
          exact ⟨cfg.serverId, sealed, hopen⟩
  | slice cid lane share path =>
    unfold ServerConfig.fileSlice
    split
    · exact hb
    · split <;> exact hb
  | peer posted => exact hb
  | clientSet set posted buf => exact hb
  | fix round =>
    unfold ServerConfig.fixOne
    split
    · exact hb
    · rename_i fixed hfixed
      split
      · exact hb
      · -- The openings of a fixed set are the ones the client set served.
        unfold ServerConfig.fixedRound at hfixed
        split at hfixed
        · cases hfixed
        · obtain ⟨set, -, rfl⟩ := Option.map_eq_some_iff.mp hfixed
          intro i hi
          obtain ⟨sealed, hopen⟩ := set.unsealed_finalize cfg.pp (C.pke cfg.identity) (cfg.sid r) i hi
          exact ⟨set.serverId, sealed, hopen⟩
  | emit sets round =>
    unfold ServerConfig.emitOne
    repeat' split
    all_goals first | exact hb | exact cleared rfl
  | decode sets =>
    unfold ServerConfig.afterDecode
    split
    · exact cleared rfl
    · exact hb

theorem unsealed_after (ops : List SessionOp) {r : Round} {b : RoundState C.toSessionCrate}
    (h : (after cfg ops).rounds.get? r = some b) : Unsealed cfg r b := by
  refine bucket_invariant (P := fun _ r b => Unsealed cfg r b) ?_ ?_ ?_ ops h
  · intro _ _ i hi
    exact absurd hi (List.not_mem_nil)
  · intro _ _ _ _ hb
    exact hb
  · intro _ _ _ _ _ hchg hb
    exact unsealed_kept hchg hb

/-- A call makes share `share` of round `r` from lane `lane`, which opens against the posts
the session held before the call. -/
structure Made (K : ShareCheck C) (cfg : ServerConfig C.toSessionCrate)
    (s : ServerSession C.toSessionCrate) (op : SessionOp) (r : Round) (lane : C.NodeEntry)
    (share : SignedShare) : Prop where
  sent : ∃ w ∈ s.sent cfg op, w.signedShare?.map Prod.fst = some share
  slot : share.round = r ∧ share.serverId = cfg.serverId ∧ share.clients = lane.clients ∧
    lane.nodeId = cfg.serverId
  sum : C.unpackShare share.shareSum cfg.scp.blockLen = some lane.shareSum
  opening : C.shareOpeningFromBytes cfg.scp cfg.serverId.val share.laneOpen = some lane.aggOpen
  consistent : serverPublicConsistent C share.aggOpen share.aggShare = true
  posts : ∃ b, s.rounds.get? r = some b ∧ (∀ c ∈ lane.clients, b.publics.contains c = true) ∧
    K.laneOpens cfg.scp lane (b.roots lane.clients) = true

/-- **An honest share is consistent and its lane opens**: the aggregate is of openings that
unsealed, and the lane was summed against the roots of the posts held. -/
theorem made_of_ownShare (K : ShareCheck C) {op : SessionOp} {r : Round}
    {b : RoundState C.toSessionCrate} {lane : C.NodeEntry} {w : PanetiereWire}
    (hmis : s.misbehavior = none) (hun : Unsealed cfg r b) (h : OwnShare cfg s op r b lane w) :
    ∃ share signature, w.signedShare? = some (share, signature) ∧ Made K cfg s op r lane share := by
  obtain ⟨hsent, b₀, clients, sp, laneOpen, hb, hposts, hsp, hheld, hlane, rfl⟩ := h
  rw [hmis] at hsent ⊢
  refine ⟨⟨r, sp.serverId, sp.clients, C.packAggOpen sp.clients.length sp.aggOpen,
    C.packAggShare sp.aggShare, C.packShare lane.shareSum, laneOpen⟩, _, rfl, ?_⟩
  obtain ⟨hid, hclients⟩ := C.runServerRound_over hsp
  have hover := nodeId_laneShare K.toLaneCheck hlane
  obtain ⟨made, hmade, hpack⟩ := Option.bind_eq_some_iff.mp hlane
  obtain ⟨bytes, hbytes, hpack⟩ := Option.bind_eq_some_iff.mp hpack
  cases hpack
  obtain ⟨hsum, hopening⟩ := K.lanePacks hmade hbytes
  obtain ⟨packed, hpacked, hfrom, hunpack, hopen⟩ := K.sums
    (fun i hi => ⟨_, _, hun i hi⟩) hsp
  refine ⟨⟨_, hsent, rfl⟩, ⟨rfl, hid, hover.2.symm, hover.1⟩, hsum, hopening, ?_, b₀, hb, ?_, ?_⟩
  · unfold serverPublicConsistent
    rw [hclients, hpacked]
    dsimp only
    rw [hfrom]
    dsimp only
    rw [hunpack]
    exact hopen
  · intro c hc
    rw [hover.2, hclients] at hc
    have hholds := hheld c hc
    unfold ServerConfig.holds at hholds
    rw [← hposts]
    exact (Bool.and_eq_true_iff.mp hholds).2
  · rw [hover.2, ← roots_congr hposts]
    exact K.opens hmade

/-- A share that an honest session sends is made in that call. -/
theorem made_of_sent (K : ShareCheck C) {ops : List SessionOp} (hops : HonestCalls ops)
    {op : SessionOp} {w : PanetiereWire} {share : SignedShare} {signature : Bytes}
    (hw : w ∈ (after cfg ops).sent cfg op) (hshare : w.signedShare? = some (share, signature)) :
    ∃ lane, Made K cfg (after cfg ops) op share.round lane share := by
  have hpublic : w.isServerPublic share.round = true := by
    cases w <;> cases hshare
    exact beq_self_eq_true _
  obtain ⟨round, rfl, hemit⟩ := endRound_of_sent hpublic hw
  have hmis : (after cfg ops).misbehavior = none := misbehavior_after hops
  unfold emitServerPublics at hemit
  rw [((after cfg ops).settle_frame cfg round).2, hmis, if_neg (by simp)] at hemit
  obtain ⟨⟨r, b₁⟩, hmem, hone⟩ := List.mem_filterMap.mp hemit
  obtain ⟨b, hb, hsettled⟩ := settled_bucket (OrdMap.get?_eq_some_iff.mpr hmem)
  have hposts : b₁.publics = b.publics := by
    rcases hsettled with rfl | rfl
    · rfl
    · exact (publics_fixOne cfg round r b).1
  have hun : Unsealed cfg r b₁ := by
    rcases hsettled with rfl | rfl
    · exact unsealed_after ops hb
    · have hfix : Change cfg (after cfg ops) (.endRound round) r b (cfg.fixOne round r b) :=
        .fix round
      exact unsealed_kept hfix (unsealed_after ops hb)
  rcases emitOne_cases cfg ((after cfg ops).settle cfg round).1.clientSetByRound
    (decide (none = some Misbehavior.corruptShare)) round r b₁ with
    ⟨-, hnone⟩ | ⟨clients, sp, lane, laneOpen, hsp, hheld, hlane, -, hsome⟩
  · rw [hnone] at hone
    cases hone
  · rw [hsome] at hone
    cases hone
    obtain ⟨share', signature', hshare', hmade⟩ := made_of_ownShare K hmis hun
      ⟨hw, b, clients, sp, laneOpen, hb, hposts, hsp, hheld, hlane, by rw [hmis]⟩
    rw [hshare] at hshare'
    cases hshare'
    rw [hmade.slot.1]
    exact ⟨lane, hmade⟩

/-- Every lane held without a payload is the relay's own, and was made in one of its
calls. -/
def OwnLanes (K : ShareCheck C) (cfg : ServerConfig C.toSessionCrate) (ops : List SessionOp)
    (r : Round) (b : RoundState C.toSessionCrate) : Prop :=
  ∀ id lane, b.peerLaneSums.get? id = some (lane, []) → ∃ σ ∈ steps ops, ∃ share,
    Made K cfg (after cfg σ.1) σ.2 r lane share

theorem ownLanes_kept (K : ShareCheck C) {ops : List SessionOp} (hops : HonestCalls ops)
    {op : SessionOp} {r : Round} {b b' : RoundState C.toSessionCrate}
    (h : Change cfg (after cfg ops) op r b b')
    (hb : Unsealed cfg r b ∧ OwnLanes K cfg (ops ++ [op]) r b) :
    Unsealed cfg r b' ∧ OwnLanes K cfg (ops ++ [op]) r b' := by
  refine ⟨unsealed_kept h hb.1, ?_⟩
  intro id lane hget
  rcases lanes_change h hget with hold | ⟨server, posted, -⟩ | ⟨-, -, w, hown⟩
  · exact hb.2 id lane hold
  · exact absurd rfl posted.payload_ne_nil
  · obtain ⟨share, _, -, hmade⟩ := made_of_ownShare K (misbehavior_after hops) hb.1 hown
    refine ⟨(ops, op), ?_, share, hmade⟩
    rw [steps_concat]
    exact List.mem_append_right _ (List.mem_singleton.mpr rfl)

theorem ownLanes_mono (K : ShareCheck C) {ops : List SessionOp} {op : SessionOp} {r : Round}
    {b : RoundState C.toSessionCrate} (h : OwnLanes K cfg ops r b) :
    OwnLanes K cfg (ops ++ [op]) r b := by
  intro id lane hget
  obtain ⟨σ, hσ, hmade⟩ := h id lane hget
  exact ⟨σ, mem_steps_mono (List.prefix_append ops [op]) hσ, hmade⟩

theorem ownLanes_after (K : ShareCheck C) {ops : List SessionOp} (hops : HonestCalls ops)
    {r : Round} {b : RoundState C.toSessionCrate} (h : (after cfg ops).rounds.get? r = some b) :
    Unsealed cfg r b ∧ OwnLanes K cfg ops r b := by
  have hinv := bucket_invariant
    (P := fun ops r b => HonestCalls ops → Unsealed cfg r b ∧ OwnLanes K cfg ops r b) ?_ ?_ ?_ ops h
  · exact hinv hops
  · intro _ _ _
    refine ⟨fun i hi => absurd hi (List.not_mem_nil), ?_⟩
    intro _ _ hnone
    cases hnone
  · intro ops op _ _ hb hops
    obtain ⟨hun, hown⟩ := hb (fun op hop => hops op (List.mem_append_left _ hop))
    exact ⟨hun, ownLanes_mono K hown⟩
  · intro ops op _ _ _ hchg hb hops
    exact ownLanes_kept K (fun op hop => hops op (List.mem_append_left _ hop)) hchg (hb hops)

/-! ## Sessions of one subnet -/

section Subnet
variable {I : Type} [DecidableEq I] (cfg : I → ServerConfig C.toSessionCrate)

/-- The session of relay `i` after its own calls. -/
def sessionOf (evs : List (I × SessionOp)) (i : I) : ServerSession C.toSessionCrate :=
  after (cfg i) (eventsAt evs i)

/-- The key of relay `i`. -/
def relayKey (i : I) : Pubkey := C.pubkey (cfg i).identity

/-- Every session follows the protocol. -/
def Honest (evs : List (I × SessionOp)) : Prop := ∀ e ∈ evs, e.2.honest = true

/-- A payload does not forge: a share in it under an honest relay's key was sent, under
that key, in the run. -/
def Genuine (evs : List (I × SessionOp)) (payload : Bytes) : Prop :=
  ∀ m ∈ (PanetiereWire.deserialize payload).bind PanetiereWire.signedShare?, ∀ h : I,
    C.pubkeyVerify (relayKey cfg h) m.1.signingBytes m.2 = true →
      ∃ i : I, relayKey cfg i = relayKey cfg h ∧
        ∃ w ∈ emissions (cfg i) (eventsAt evs i), w.signedShare?.map Prod.fst = some m.1

/-- No payload that arrives forges. -/
def Authentic (evs : List (I × SessionOp)) : Prop :=
  ∀ σ ∈ steps evs, ∀ payload ∈ σ.2.2.payload?, Genuine cfg σ.1 payload

/-- Where two buckets both hold a client's post, the posts have one share root. -/
def SameRoots (b b' : RoundState C.toSessionCrate) (clients : List ClientId) : Prop :=
  ∀ c ∈ clients, ∀ e ∈ b.publics.get? c, ∀ e' ∈ b'.publics.get? c, e.shareRoot = e'.shareRoot

/-- No client comes between the relays: when a round is ended, a lane held for decoding
was summed by its relay against the share roots of the posts now held. -/
def Aligned (evs : List (I × SessionOp)) : Prop :=
  ∀ σ ∈ steps evs, isEndRound σ.2.2 = true →
    ∀ e ∈ (sessionOf cfg σ.1 σ.2.1).rounds.entries, e.2.decoded = false →
      ∀ l ∈ e.2.peerLaneSums.entries, ∀ τ ∈ steps σ.1,
        ∀ w ∈ (sessionOf cfg τ.1 τ.2.1).sent (cfg τ.2.1) τ.2.2,
          ∀ share ∈ w.signedShare?.map Prod.fst, share.round = e.1 → share.serverId = l.1 →
            share.clients = l.2.1.clients →
            ∀ b ∈ (sessionOf cfg τ.1 τ.2.1).rounds.get? e.1, SameRoots b e.2 share.clients

instance (evs : List (I × SessionOp)) : Decidable (Honest evs) :=
  inferInstanceAs (Decidable (∀ e ∈ evs, e.2.honest = true))

instance decidableGenuine [Fintype I] (evs : List (I × SessionOp)) (payload : Bytes) :
    Decidable (Genuine cfg evs payload) :=
  inferInstanceAs (Decidable (∀ m ∈ (PanetiereWire.deserialize payload).bind
    PanetiereWire.signedShare?, ∀ h : I,
      C.pubkeyVerify (relayKey cfg h) m.1.signingBytes m.2 = true →
        ∃ i : I, relayKey cfg i = relayKey cfg h ∧
          ∃ w ∈ emissions (cfg i) (eventsAt evs i), w.signedShare?.map Prod.fst = some m.1))

instance decidableAuthentic [Fintype I] (evs : List (I × SessionOp)) :
    Decidable (Authentic cfg evs) :=
  inferInstanceAs (Decidable (∀ σ ∈ steps evs, ∀ payload ∈ σ.2.2.payload?,
    Genuine cfg σ.1 payload))

instance [DecidableEq C.HVCPoly] (b b' : RoundState C.toSessionCrate) (clients : List ClientId) :
    Decidable (SameRoots b b' clients) :=
  -- Over the list, not over all 2^32 client ids.
  have : DecidablePred (fun c : ClientId => ∀ e ∈ b.publics.get? c,
      ∀ e' ∈ b'.publics.get? c, e.shareRoot = e'.shareRoot) := fun _ => inferInstance
  List.decidableBAll _ clients

instance [DecidableEq C.HVCPoly] (evs : List (I × SessionOp)) : Decidable (Aligned cfg evs) :=
  inferInstanceAs (Decidable (∀ σ ∈ steps evs, isEndRound σ.2.2 = true →
    ∀ e ∈ (sessionOf cfg σ.1 σ.2.1).rounds.entries, e.2.decoded = false →
      ∀ l ∈ e.2.peerLaneSums.entries, ∀ τ ∈ steps σ.1,
        ∀ w ∈ (sessionOf cfg τ.1 τ.2.1).sent (cfg τ.2.1) τ.2.2,
          ∀ share ∈ w.signedShare?.map Prod.fst, share.round = e.1 → share.serverId = l.1 →
            share.clients = l.2.1.clients →
            ∀ b ∈ (sessionOf cfg τ.1 τ.2.1).rounds.get? e.1, SameRoots b e.2 share.clients))

variable {cfg} {evs : List (I × SessionOp)}

omit [DecidableEq I] in
theorem Honest.isPrefix {pre : List (I × SessionOp)} (h : Honest evs) (hpre : pre <+: evs) :
    Honest pre :=
  fun e he => h e (hpre.subset he)

theorem Honest.calls (h : Honest evs) (i : I) : HonestCalls (eventsAt evs i) := by
  intro op hop
  obtain ⟨e, he, hsome⟩ := List.mem_filterMap.mp hop
  split at hsome
  · cases hsome
    exact h e he
  · cases hsome

/-- What an honest session sent in the run was made in one of its steps. -/
theorem made_of_emission (K : ShareCheck C) (hhonest : Honest evs) {i : I} {w : PanetiereWire}
    {share : SignedShare} (hw : w ∈ emissions (cfg i) (eventsAt evs i))
    (hshare : w.signedShare?.map Prod.fst = some share) :
    ∃ τ ∈ steps evs, τ.2.1 = i ∧ ∃ lane,
      Made K (cfg i) (sessionOf cfg τ.1 i) τ.2.2 share.round lane share := by
  obtain ⟨⟨l, op⟩, hσ, hw⟩ := List.mem_flatMap.mp hw
  obtain ⟨pre, hpre, rfl⟩ := mem_steps_eventsAt hσ
  obtain ⟨⟨share', signature⟩, hsigned, rfl⟩ := Option.map_eq_some_iff.mp hshare
  have hpre' : pre <+: evs := (List.prefix_append pre _).trans (prefix_of_mem_steps hpre)
  obtain ⟨lane, hmade⟩ := made_of_sent K ((hhonest.isPrefix hpre').calls i) hw hsigned
  exact ⟨(pre, (i, op)), hpre, rfl, lane, hmade⟩

/-- A share under an honest relay's key, in a payload that does not forge, was made. -/
theorem made_of_genuine (K : ShareCheck C) (hhonest : Honest evs) {payload : Bytes}
    (hgen : Genuine cfg evs payload) {msg : PanetiereWire} {share : SignedShare} {signature : Bytes}
    (hmsg : PanetiereWire.deserialize payload = some msg)
    (hshare : msg.signedShare? = some (share, signature)) {h : I}
    (hverify : C.pubkeyVerify (relayKey cfg h) share.signingBytes signature = true) :
    ∃ τ ∈ steps evs, ∃ lane,
      Made K (cfg τ.2.1) (sessionOf cfg τ.1 τ.2.1) τ.2.2 share.round lane share := by
  have hmem : (share, signature) ∈ (PanetiereWire.deserialize payload).bind
      PanetiereWire.signedShare? := by
    rw [hmsg]
    exact hshare
  obtain ⟨i, -, w, hw, hsame⟩ := hgen (share, signature) hmem h hverify
  obtain ⟨τ, hτ, rfl, lane, hmade⟩ := made_of_emission K hhonest hw hsame
  exact ⟨τ, hτ, lane, hmade⟩

/-- **The committee finds nothing against an honest relay**, in whatever evidence and under
whatever roster. -/
theorem culprit_ne_honest (K : ShareCheck C) (hhonest : Honest evs) {evidence : Bytes}
    (hgen : Genuine cfg evs evidence) (roster : List Pubkey) (h : I) :
    integrityCulpritFromEvidence C evidence roster ≠ some (relayKey cfg h) := by
  intro hculprit
  unfold integrityCulpritFromEvidence at hculprit
  split at hculprit
  · rename_i round id clients aggOpen aggShare shareSum laneOpen signature hmsg
    obtain ⟨culprit, -, hculprit⟩ := Option.bind_eq_some_iff.mp hculprit
    split at hculprit
    · cases hculprit
    · rename_i hverify
      split at hculprit
      · rename_i hbad
        cases hculprit
        have hverify : C.pubkeyVerify (relayKey cfg h) (serverPublicSigningBytes round id clients
            aggOpen aggShare shareSum laneOpen) signature = true := by simpa using hverify
        obtain ⟨τ, -, lane, hmade⟩ := made_of_genuine K hhonest hgen hmsg rfl hverify
        rw [hmade.consistent] at hbad
        cases hbad
      · cases hculprit
  · cases hculprit

/-- **A lane held of an honest relay opens**, when the posts are aligned: it was summed
against the roots of the posts that are held now. -/
theorem opens_of_made (K : ShareCheck C) (hscp : ∀ i j, (cfg i).scp = (cfg j).scp)
    {pre : List (I × SessionOp)} {d : I} {op : SessionOp} {r : Round}
    {b : RoundState C.toSessionCrate} {id : NodeId} {lane : C.NodeEntry} {payload : Bytes}
    (haligned : Aligned cfg evs) (hstep : (pre, (d, op)) ∈ steps evs) (hop : isEndRound op = true)
    (hb : (sessionOf cfg pre d).rounds.get? r = some b) (hdec : b.decoded = false)
    (hget : b.peerLaneSums.get? id = some (lane, payload)) (hid : lane.nodeId = id)
    (hposts : ∀ c ∈ lane.clients, b.publics.contains c = true) {τ : List (I × SessionOp) × I × SessionOp}
    (hτ : τ ∈ steps pre) {share : SignedShare}
    (hmade : Made K (cfg τ.2.1) (sessionOf cfg τ.1 τ.2.1) τ.2.2 r lane share) :
    K.laneOpens (cfg d).scp lane (b.roots lane.clients) = true := by
  obtain ⟨hround, hserver, hclients, hnode⟩ := hmade.slot
  obtain ⟨b₀, hb₀, hheld, hopens⟩ := hmade.posts
  obtain ⟨w, hw, hshare⟩ := hmade.sent
  have hsame : SameRoots b₀ b share.clients :=
    haligned (pre, (d, op)) hstep hop (r, b) (OrdMap.get?_eq_some_iff.mp hb) hdec
      (id, lane, payload) (OrdMap.get?_eq_some_iff.mp hget) τ hτ w hw share hshare hround
      (hserver.trans (hnode.symm.trans hid)) hclients b₀ hb₀
  rw [hclients] at hsame
  have hroots : b₀.roots lane.clients = b.roots lane.clients :=
    roots_eq_of_agree (fun c hc => ⟨hheld c hc, hposts c hc⟩)
      (fun c hc e e' he he' => hsame c hc e he e' he')
  rw [← hroots, hscp d τ.2.1]
  exact hopens

omit [DecidableEq I] in
/-- The lane read from a posted share is the lane that the share was made from. -/
theorem lane_of_posted {K : ShareCheck C} (hscp : ∀ i j, (cfg i).scp = (cfg j).scp) {d i : I}
    {r : Round} {id : U32} {payload : Bytes} {server : C.ServerEntry} {lane lane' : C.NodeEntry}
    (posted : PostedShare (cfg d) r id payload (server, lane))
    {s : ServerSession C.toSessionCrate} {op : SessionOp}
    (hmade : Made K (cfg i) s op r lane' ⟨r, id, posted.clients, posted.aggOpen, posted.aggShare,
      posted.shareSum, posted.laneOpen⟩) : lane' = lane := by
  obtain ⟨-, hserver, hclients, hnode⟩ := hmade.slot
  obtain ⟨_, _, _, laneShareSum, laneOpening, -, -, -, hsum, hopening, he⟩ := posted.unpacked
  have hid : (cfg i).serverId = id := hserver.symm
  have hsum' := hmade.sum
  have hopening' := hmade.opening
  rw [hscp i d] at hsum' hopening'
  rw [hid] at hopening' hnode
  have hs : lane'.shareSum = laneShareSum := Option.some.inj (hsum'.symm.trans hsum)
  have ho : lane'.aggOpen = laneOpening := Option.some.inj (hopening'.symm.trans hopening)
  rw [(Prod.mk.inj he).2]
  obtain ⟨nodeId, clients, shareSum, aggOpen⟩ := lane'
  simp only at hs ho hnode hclients
  rw [hs, ho, hnode, ← hclients]

/-- An aligned run's decodes name no honest relay: every lane such a relay posted, and the
decoder's own, opens. -/
theorem not_named_of_aligned (K : ShareCheck C) (hscp : ∀ i j, (cfg i).scp = (cfg j).scp)
    (hhonest : Honest evs) (hauth : Authentic cfg evs) (haligned : Aligned cfg evs) (h d : I)
    {f : Fault} (hf : f ∈ faults (cfg d) (eventsAt evs d)) : ¬ f.Names (relayKey cfg h) := by
  intro hname
  -- The fault comes of one call, and of a lane that was held when its round was decoded.
  obtain ⟨⟨l, op⟩, hσ, hf⟩ := List.mem_flatMap.mp hf
  obtain ⟨pre, hstep, rfl⟩ := mem_steps_eventsAt hσ
  have hpre : pre <+: evs := (List.prefix_append pre [(d, op)]).trans (prefix_of_mem_steps hstep)
  have hcalls : HonestCalls (eventsAt pre d) := (hhonest.isPrefix hpre).calls d
  obtain ⟨round, r, b, b', id, lane, payload, pk, rfl, hb, hdec, hcar, hchg, -, hget, hpk, rfl,
    hposts, hopen⟩ := fault_of_faultsBy K.toLaneCheck hf
  obtain rfl : relayKey cfg h = pk := List.mem_singleton.mp hname
  have hlanes := lanes_after K.toLaneCheck (eventsAt pre d) hb
  have hown := ownLanes_after K hcalls hb
  rcases lanes_changes hchg hget with hold | ⟨server, posted, hop⟩ | ⟨-, -, b₁, w, hchg₁, hmine⟩
  · have hid := hlanes.1 id lane payload hold
    by_cases hnil : payload = []
    · -- The decoder's own lane, of an earlier call.
      subst hnil
      obtain ⟨σ, hσ, share, hmade⟩ := hown.2 id lane hold
      obtain ⟨τ, hτ, hτl⟩ := mem_steps_eventsAt (show (σ.1, σ.2) ∈ _ from hσ)
      have hmade : Made K (cfg d) (sessionOf cfg τ d) σ.2 r lane share := by
        unfold sessionOf
        rw [hτl]
        exact hmade
      rw [opens_of_made K hscp haligned hstep rfl hb hdec hold hid hposts hτ hmade] at hopen
      cases hopen
    · -- A lane that its owner posted, in a payload that does not forge.
      obtain ⟨server, posted, hmem⟩ := hlanes.2 id lane payload hold hnil
      obtain ⟨l', hl'⟩ := exists_step_of_mem hmem
      obtain ⟨pre', hpre', -⟩ := mem_steps_eventsAt hl'
      have hgen : Genuine cfg pre' payload :=
        hauth _ (mem_steps_mono hpre hpre') payload rfl
      have howner : posted.owner = relayKey cfg h :=
        Option.some.inj (posted.slot.symm.trans hpk)
      have hverify := posted.verified
      rw [howner] at hverify
      have hpre'' : pre' <+: pre :=
        (List.prefix_append pre' _).trans (prefix_of_mem_steps hpre')
      obtain ⟨τ, hτ, lane', hmade⟩ := made_of_genuine K
        (hhonest.isPrefix (hpre''.trans hpre)) hgen posted.message rfl hverify
      obtain rfl := lane_of_posted hscp posted hmade
      rw [opens_of_made K hscp haligned hstep rfl hb hdec hold hid hposts
        (mem_steps_mono hpre'' hτ) hmade] at hopen
      cases hopen
  · cases hop
  · -- The decoder's own lane, of this call.
    have hun : Unsealed (cfg d) r b₁ :=
      hchg₁.keep (fun _ _ hstep => unsealed_kept hstep) hown.1
    obtain ⟨share, _, -, hmade⟩ := made_of_ownShare K (misbehavior_after hcalls) hun hmine
    obtain ⟨b₀, hb₀, -, hopens⟩ := hmade.posts
    rw [hb] at hb₀
    cases hb₀
    rw [hopens] at hopen
    cases hopen

/-- **Honest relays and integrity faults.**  Among clients and relays that do as they like,
every share an honest session sends has a consistent key half; no report with evidence
that does not forge changes what a committee member says of the relay, and no observer's
fault names it.  In a run whose posts are aligned, no relay's decode names it either. -/
theorem honest_relay_not_blamed (K : ShareCheck C) (hscp : ∀ i j, (cfg i).scp = (cfg j).scp)
    (hhonest : Honest evs) (hauth : Authentic cfg evs) (h : I) :
    (∀ w ∈ emissions (cfg h) (eventsAt evs h), ∀ share ∈ w.signedShare?.map Prod.fst,
      serverPublicConsistent C share.aggOpen share.aggShare = true) ∧
    (∀ (O : ObserverSessions) (member : SchedulerConfig C) (core : SchedulerCore O)
      (sender : Pubkey) (report : FaultReport) (now : U64),
      Genuine cfg evs report.fault.evidence →
        Roster.SameAt (relayKey cfg h) core.roster
          (core.onFaultReport member sender report now).roster) ∧
    (∀ roster leader threshold ops,
      (∀ sender payload, ObserverOp.inbound sender payload ∈ ops → Genuine cfg evs payload) →
        ∀ f ∈ PanetiereObserverSession.faults C roster leader threshold ops,
          f.kind = .integrity → ¬ f.Names (relayKey cfg h)) ∧
    (Aligned cfg evs → ∀ d, ∀ f ∈ faults (cfg d) (eventsAt evs d), f.kind = .integrity →
      ¬ f.Names (relayKey cfg h)) := by
  refine ⟨?_, ?_, ?_, ?_⟩
  · intro w hw share hshare
    obtain ⟨τ, -, -, lane, hmade⟩ := made_of_emission K hhonest hw hshare
    exact hmade.consistent
  · intro O member core sender report now hgen
    refine SchedulerCore.sameAt_onFaultReport member now ?_
    intro hculprit
    obtain ⟨-, roster, hev⟩ := SchedulerCore.evidence_of_reportCulprit hculprit
    exact culprit_ne_honest K hhonest hgen roster h hev
  · intro roster leader threshold ops hops f hf hkind hname
    obtain ⟨hgen, hculprit⟩ :=
      PanetiereObserverSession.reverified_of_observed hops hf hkind hname
    exact culprit_ne_honest K hhonest hgen roster h hculprit
  · intro haligned d f hf _
    exact not_named_of_aligned K hscp hhonest hauth haligned h d hf

end Subnet

/-! ## A client with two posts -/

theorem unpackShare_toySum {n : Nat} (h : n < 256) :
    toyLanes.unpackShare (toyLanes.packShare ([n] : List Nat)) 1 = some ([n] : List Nat) := by
  show some [n % 256] = some [n]
  rw [Nat.mod_eq_of_lt h]

/-- The toy crate's shares are as a relay relies on. -/
def toyShareCheck : ShareCheck toyLanes where
  toLaneCheck := toyLaneCheck
  opens := by
    intro scp node items clients roots lane h
    simp only [toyLanes, toyLaneSession] at h
    split at h
    · cases h
      exact decide_eq_true rfl
    · cases h
  lanePacks := by
    intro scp node items clients roots lane bytes h _
    simp only [toyLanes, toyLaneSession] at h
    split at h
    · rename_i hfits
      cases h
      obtain ⟨hblock, hsmall⟩ := hfits
      rw [hblock]
      exact ⟨unpackShare_toySum hsmall, rfl⟩
    · cases h
  sums := by
    intro server items clients sp _ h
    simp only [toyLanes, toyLaneSession] at h
    split at h
    · rename_i hfits
      cases h
      have hsmall : clients.length < 255 := of_decide_eq_true (Bool.and_eq_true_iff.mp hfits).2
      have hmod : clients.length % 256 = clients.length := by omega
      refine ⟨(), rfl, rfl, ?_, ?_⟩
      · show some [clients.length % 256] = some [clients.length]
        rw [hmod]
      · have hne : [clients.length] ≠ [255] := by
          intro he
          have := List.head_eq_of_cons_eq he
          omega
        show decide ([clients.length] ≠ [255]) = true
        exact decide_eq_true hne
    · cases h

/-- The relays of the toy subnet that follow the protocol: the leader and relay 1. -/
def toyPair (i : Fin 2) : ServerConfig toyLanes.toSessionCrate :=
  if i = 0 then toyRelay 0 .leader else toyRelay 1 (.follower (toyNode 100))

/-- One round of the two with client 7, which posts under `key` to relay 1 and under key 1
to the leader; `laneSum` is what relay 1 sums. -/
def pairRun (key laneSum : U8) : List (Fin 2 × SessionOp) :=
  [(0, .beginRound 5), (1, .beginRound 5),
    (0, .from 7 (.toyPublic 5 7 1)), (0, .from 7 (.toyOpening 5 7 0)),
    (0, .from 7 (.toySlice 5 7 0 [1])),
    (1, .from 7 (.toyPublic 5 7 key)), (1, .from 7 (.toyOpening 5 7 1)),
    (1, .from 7 (.toySlice 5 7 1 [1])),
    (0, .endRound 5), (1, .from 100 (.clientSet 5 [7] 1)), (1, .endRound 5),
    (0, .beginRound 6), (0, .from 101 (.toyPosted 5 1 [7] 1 laneSum)), (0, .endRound 6)]

/-- **A client frames an honest relay.**  Client 7 posts under another key to relay 1 than to
the leader; both follow the protocol, and the leader names relay 1. -/
theorem equivocating_client_frames_relay :
    Honest (pairRun 2 2) ∧ Authentic toyPair (pairRun 2 2) ∧
      ∃ f ∈ faults (toyPair 0) (eventsAt (pairRun 2 2) 0), f.kind = .integrity ∧
        f.Names (relayKey toyPair 1) := by
  refine ⟨by decide +kernel, by decide +kernel, ⟨.integrity, .peers [toyNode 101],
    (PanetiereWire.toyPosted 5 1 [7] 1 2).serialize⟩, by decide +kernel, rfl, ?_⟩
  exact List.mem_singleton.mpr rfl

instance : DecidableEq toyLanes.HVCPoly := inferInstanceAs (DecidableEq Nat)

theorem scp_toyPair (i : Fin 2) : (toyPair i).scp = ⟨1, 3⟩ := by
  unfold toyPair
  split <;> rfl

/-- With one post for both relays, the leader decodes the round and names nobody honest. -/
theorem honest_relay_not_blamed_toy :
    decodings (toyPair 0) (eventsAt (pairRun 1 1) 0) ≠ [] ∧
      ∀ d, ∀ f ∈ faults (toyPair d) (eventsAt (pairRun 1 1) d), f.kind = .integrity →
        ¬ f.Names (relayKey toyPair 1) := by
  have hscp : ∀ i j, (toyPair i).scp = (toyPair j).scp := by
    intro i j
    rw [scp_toyPair, scp_toyPair]
  refine ⟨by decide +kernel, ?_⟩
  exact (honest_relay_not_blamed toyShareCheck hscp (by decide +kernel) (by decide +kernel) 1).2.2.2
    (by decide +kernel)

end ServerSession
end Anymone
