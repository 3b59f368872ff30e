import Mathlib.Data.List.Sort
import Anymone.ClientSetEviction
import Anymone.PanetiereOnce
import Anymone.PanetiereToy

/-! # A crowd in the consensus set

A leader cuts the set it announces to `client_set_max`, and a follower takes no longer one.
A consensus relay fixes what the membership loop admits, and a row of the matrix holds up to
twice the cap: the set is the `crowd` of the agreed rows, however many they are
(`finalize_set_eq_crowd`).  So the sets of a run are within the cap exactly when no round is
settled on a larger crowd (`sets_within_cap_iff`), and a round that is has its decode skipped
for good.
-/

namespace Anymone

/-! ## The crowd of a matrix -/

namespace SetServer
variable {C : SetCrate} (s : SetServer C) (pp : ProtocolParams) (sid : SessionId)

instance (spent : Finset Nat) (cid : ClientId) : Decidable (s.Affordable pp sid spent cid) :=
  match h : s.gap pp sid cid with
  | none => isFalse (by
      rintro ⟨g, hg, -⟩
      rw [h] at hg
      cases hg)
  | some g =>
      decidable_of_iff (g = [] ∨ (spent ∪ g.toFinset).card ≤ s.nLanes - s.k)
        ⟨fun hg => ⟨g, h, hg⟩, fun ⟨g', hg', hc⟩ => by
          rw [h] at hg'
          cases hg'
          exact hc⟩

/-- The clients that a row reports, with one posted key, and that every row reports, or whose
fragments rebuild, or whose gap the budget stretches to. -/
def crowd : List ClientId :=
  s.clients.filter (fun cid => decide (s.Affordable pp sid (s.spentBelow pp sid cid) cid))

theorem foldl_admitOne_sublist (cids : List ClientId) : ∀ acc : Budget C, ∃ kept, kept.Sublist cids ∧
    (cids.foldl (s.admitOne pp sid) acc).admitted.map Prod.fst =
      acc.admitted.map Prod.fst ++ kept := by
  induction cids with
  | nil => exact fun acc => ⟨[], List.Sublist.refl [], (List.append_nil _).symm⟩
  | cons cid cids ih =>
    intro acc
    obtain ⟨kept, hsub, hkept⟩ := ih (s.admitOne pp sid acc cid)
    have hstep : (s.admitOne pp sid acc cid).admitted = acc.admitted ∨
        ∃ g, (s.admitOne pp sid acc cid).admitted = acc.admitted ++ [(cid, g)] := by
      rcases s.admitOne_cases pp sid acc cid with ⟨-, ha, -⟩ | ⟨-, ha, -⟩ |
        ⟨g, -, -, ⟨-, ha, -⟩ | ⟨-, ha, -⟩⟩
      · exact Or.inl ha
      · exact Or.inr ⟨[], ha⟩
      · exact Or.inr ⟨g, ha⟩
      · exact Or.inl ha
    rw [List.foldl_cons, hkept]
    rcases hstep with ha | ⟨g, ha⟩
    · exact ⟨kept, hsub.cons cid, by rw [ha]⟩
    · refine ⟨cid :: kept, hsub.cons_cons cid, ?_⟩
      rw [ha, List.map_append, List.append_assoc]
      rfl

/-- **The set is the crowd of the agreed rows.** -/
theorem finalize_set_eq_crowd (key : C.PrivateKey) :
    (s.finalize pp key sid).set = s.crowd pp sid := by
  obtain ⟨kept, hsub, hkept⟩ :=
    s.foldl_admitOne_sublist pp sid s.clients ⟨.empty, .empty, [], [], []⟩
  have hset : (s.finalize pp key sid).set = kept := (s.finalize_set pp key sid).trans hkept
  have hsorted := s.clients_sorted
  refine (hset ▸ hsorted.sublist hsub : (s.finalize pp key sid).set.Pairwise (· < ·)).eq_of_mem_iff
    (hsorted.sublist List.filter_sublist) (fun cid => ?_)
  unfold crowd
  rw [s.mem_set_iff pp sid key cid, List.mem_filter, decide_eq_true_eq]

end SetServer

variable {C : SessionCrate}

namespace ServerConfig
variable {cfg : ServerConfig C}

/-- A set that is fixed is the crowd of an unfinalized bucket's rows. -/
theorem fixedSet_eq_some {round r : Round} {b : RoundState C} {set : List ClientId} :
    cfg.fixedSet round r b = some set ↔ r ≤ round ∧ b.finalized = false ∧
      ∃ server, b.set = some server ∧ set = server.crowd cfg.pp (cfg.sid r) ∧ set ≠ [] := by
  unfold fixedSet fixedRound
  by_cases hdue : round < r ∨ b.finalized = true
  · rw [if_pos (by simpa using hdue)]
    refine ⟨nofun, ?_⟩
    rintro ⟨hle, hopen, -⟩
    rcases hdue with hlt | hdone
    · exact absurd hlt (not_lt.mpr hle)
    · rw [hdone] at hopen
      cases hopen
  · rw [if_neg (by simpa using hdue)]
    rw [not_or, not_lt, Bool.not_eq_true] at hdue
    cases hb : b.set with
    | none => simp
    | some server =>
      simp only [Option.map_some, server.finalize_set_eq_crowd cfg.pp, Option.some.injEq,
        exists_eq_left', hdue, true_and]
      by_cases hnil : server.crowd cfg.pp (cfg.sid r) = []
      · simp [hnil]
      · rw [if_neg (by simpa using hnil)]
        simp only [Option.some.injEq]
        exact ⟨fun h => h ▸ ⟨rfl, hnil⟩, fun h => h.1.symm⟩

/-- The decode of an anchored round is attempted over the anchor, when that is within the cap. -/
theorem decodeRound_of_le {sets : OrdMap Round (List ClientId)} {r : Round} {b : RoundState C}
    {set : List ClientId} (hmode : cfg.mode ≠ .selfDerived) (h : sets.get? r = some set)
    (hle : set.length ≤ cfg.clientSetMax.val) : cfg.decodeRound sets r b = cfg.recoverRs r b set := by
  unfold decodeRound
  rw [if_neg hmode, h]
  simp only [tryDecode]
  rw [if_neg (not_lt.mpr hle)]
  cases hplain : (cfg.recoverRs r b set).1 with
  | some plain => exact Prod.ext hplain.symm rfl
  | none => exact Prod.ext hplain.symm (List.append_nil _)

/-- It is skipped otherwise, whatever the bucket holds. -/
theorem decodeRound_of_lt {sets : OrdMap Round (List ClientId)} {r : Round} (b : RoundState C)
    {set : List ClientId} (hmode : cfg.mode ≠ .selfDerived) (h : sets.get? r = some set)
    (hlt : cfg.clientSetMax.val < set.length) : cfg.decodeRound sets r b = (none, []) := by
  unfold decodeRound
  rw [if_neg hmode, h]
  simp only [tryDecode]
  rw [if_pos hlt]

end ServerConfig

namespace ServerSession
open Trace
variable {cfg : ServerConfig C} {s : ServerSession C}

/-- A call settles no round on more than `client_set_max` clients. -/
def Uncrowded (cfg : ServerConfig C) (s : ServerSession C) (op : SessionOp) : Prop :=
  ∀ round, op = .endRound round → cfg.consensus = true → ∀ e ∈ s.rounds.entries, e.1 ≤ round →
    e.2.finalized = false → ∀ server ∈ e.2.set,
      (server.crowd cfg.pp (cfg.sid e.1)).length ≤ cfg.clientSetMax.val

theorem length_sortDedup_le {K : Type} [LinearOrder K] (l : List K) :
    (sortDedup l).length ≤ l.length := by
  have hcard := List.toFinset_card_of_nodup (nodup_sortDedup l)
  have hsame : (sortDedup l).toFinset = l.toFinset := by
    ext k
    rw [List.mem_toFinset, List.mem_toFinset, mem_sortDedup]
  rw [hsame] at hcard
  exact hcard ▸ List.toFinset_card_le l

/-- **A leader cuts the set it announces to the cap.** -/
theorem length_announceOne {round r : Round} {b : RoundState C} {set : List ClientId} {demand : U32}
    (h : s.announceOne cfg round r b = some (set, demand)) :
    set.length ≤ cfg.clientSetMax.val := by
  unfold announceOne at h
  split at h
  · cases h
  · dsimp only at h
    split at h
    · cases h
    · cases h
      exact (length_sortDedup_le _).trans (List.length_take_le _ _)

/-- The sets of one call are within the cap exactly when it settles no round on a crowd. -/
theorem fixedBy_within_cap_iff (cfg : ServerConfig C) (s : ServerSession C) (op : SessionOp) :
    (∀ d ∈ fixedBy cfg s op, d.2.length ≤ cfg.clientSetMax.val) ↔ Uncrowded cfg s op := by
  constructor
  · intro h round hop hcons e he hle hopen server hserver
    by_contra hlong
    subst hop
    have hne : server.crowd cfg.pp (cfg.sid e.1) ≠ [] := by
      intro hnil
      rw [hnil] at hlong
      exact hlong (Nat.zero_le _)
    have hfixed : cfg.fixedSet round e.1 e.2 = some (server.crowd cfg.pp (cfg.sid e.1)) :=
      ServerConfig.fixedSet_eq_some.mpr ⟨hle, hopen, server, hserver, rfl, hne⟩
    refine hlong (h (e.1, server.crowd cfg.pp (cfg.sid e.1)) ?_)
    refine List.mem_append_right _ ?_
    rw [if_pos hcons]
    exact mem_fixedSets.mpr ⟨e.2, OrdMap.get?_eq_some_iff.mpr he, hfixed⟩
  · rintro h ⟨r, set⟩ hd
    cases op with
    | endRound round =>
      rcases mem_fixedBy_endRound hd with ⟨-, -, b, demand, -, hann⟩ | ⟨hcons, b, hb, hfix⟩
      · exact length_announceOne hann
      · obtain ⟨hle, hopen, server, hserver, rfl, -⟩ := ServerConfig.fixedSet_eq_some.mp hfix
        exact h round rfl hcons (r, b) (OrdMap.get?_eq_some_iff.mp hb) hle hopen server hserver
    | inbound sender payload =>
      have hadopts := (mem_fixedBy_inbound hd).2.1
      unfold ServerConfig.adopts at hadopts
      split at hadopts
      · exact of_decide_eq_true (Bool.and_eq_true_iff.mp hadopts).2
      · cases hadopts
    | beginRound => cases hd
    | checkpoint => cases hd
    | setMisbehavior => cases hd

/-- **Sets within the cap.**  In every run of a session, in whichever set mode, every set fixed
has at most `client_set_max` members exactly when no call settles a round on a larger crowd; and
then no round with a set is skipped for its size: its decode is attempted over the set. -/
theorem sets_within_cap_iff (cfg : ServerConfig C) (ops : List SessionOp) :
    ((∀ d ∈ setsFixed cfg ops, d.2.length ≤ cfg.clientSetMax.val) ↔
      ∀ σ ∈ steps ops, Uncrowded cfg (after cfg σ.1) σ.2) ∧
    ((∀ σ ∈ steps ops, Uncrowded cfg (after cfg σ.1) σ.2) → cfg.mode ≠ .selfDerived →
      ∀ r set, (after cfg ops).clientSetByRound.get? r = some set → ∀ b,
        cfg.decodeRound (after cfg ops).clientSetByRound r b = cfg.recoverRs r b set) := by
  have hiff : (∀ d ∈ setsFixed cfg ops, d.2.length ≤ cfg.clientSetMax.val) ↔
      ∀ σ ∈ steps ops, Uncrowded cfg (after cfg σ.1) σ.2 := by
    constructor
    · intro h σ hσ
      refine (fixedBy_within_cap_iff cfg (after cfg σ.1) σ.2).mp (fun d hd => h d ?_)
      exact List.mem_flatMap.mpr ⟨σ, hσ, hd⟩
    · intro h d hd
      obtain ⟨σ, hσ, hd⟩ := List.mem_flatMap.mp hd
      exact (fixedBy_within_cap_iff cfg (after cfg σ.1) σ.2).mpr (h σ hσ) d hd
  refine ⟨hiff, fun hall hmode r set hset b => ?_⟩
  exact ServerConfig.decodeRound_of_le hmode hset
    (hiff.mpr hall (r, set) (mem_setsFixed_of_get? ops hset))

end ServerSession

/-! ## Two clients under a cap of one -/

/-- A relay of a consensus subnet whose sets have at most one client. -/
def toyCapped (i : ServerId) : ServerConfig toySession :=
  { toyConfig i (.consensus (toyNode 100)) with clientSetMax := 1 }

/-- Client `id`'s bundle of a round for lane `lane`, under boot key `id`. -/
def toyRoundBundle (round : Round) (id : U8) (lane : Nat) : Bundle toyCrate :=
  let cid : ClientId := Fin.ofNat _ id.val
  ⟨cid, lane, ([1] : List Nat), ⟨lane, []⟩, [], toyPk id, toyCrate.sign id
    (bundleSigningBytes (C := toyCrate) (sessionId toyCrate toySid round) cid lane ([1] : List Nat)
      ⟨lane, []⟩ [])⟩

/-- Client `id`'s signed bundle to lane 0. -/
def PanetiereWire.toyBundled (round : Round) (id : U8) : PanetiereWire :=
  let cid : U32 := Fin.ofNat _ id.val
  let data := ((toyRoundBundle round id 0).pack).getD []
  .bundle round cid 0 data (toyNode id)
    (toySign (toyNode id) (clientBundleSigningBytes round cid 0 data))

/-- Lane `i`'s row of a round, with the clients' bundles it took, under its link. -/
def PanetiereWire.toyRow (round : Round) (i : ServerId) (ids : List U8) : PanetiereWire :=
  let sid := sessionId toyCrate toySid round
  let receipts : List (Receipt toyCrate) := ids.map (fun id =>
    ⟨Fin.ofNat _ id.val, toyPk id, (toyRoundBundle round id i.val).hash⟩)
  let batch : ReceiptBatch toyCrate :=
    ⟨i, receipts, toyCrate.sign (toyKey i) (batchSigningBytes sid i receipts)⟩
  let relay : Relay toyCrate := ⟨.batch batch, [(i, toyCrate.sign (toyKey i)
    (relaySigningBytes sid ((RelayItem.batch batch).hash sid)))]⟩
  .setRelay round relay.pack

namespace ServerSession

/-- Round 5 at relay 0: clients 7 and 8 post and send their bundles to every lane, the lanes
exchange their rows, and the round ends. -/
def crowdedRun : List SessionOp :=
  [.beginRound 5, .from 7 (.toyPublic 5 7 7), .from 8 (.toyPublic 5 8 8),
    .from 7 (.toyBundled 5 7), .from 8 (.toyBundled 5 8), .checkpoint 5 2,
    .from 101 (.toyRow 5 1 [7, 8]), .from 102 (.toyRow 5 2 [7, 8]), .checkpoint 5 4, .endRound 5]

/-- **A crowd of two stops a subnet with a cap of one.**  Both clients are honest and both land in
every row; the set relay 0 fixes has both, and the round is never decoded, whatever arrives. -/
theorem crowd_exceeds_cap :
    (5, [7, 8]) ∈ setsFixed (toyCapped 0) crowdedRun ∧ (toyCapped 0).clientSetMax.val = 1 ∧
      ∀ b, (toyCapped 0).decodeRound (after (toyCapped 0) crowdedRun).clientSetByRound 5 b =
        (none, []) := by
  have hfixed : (5, [7, 8]) ∈ setsFixed (toyCapped 0) crowdedRun ∧
      (after (toyCapped 0) crowdedRun).clientSetByRound.get? 5 = some [7, 8] := by
    decide +kernel
  refine ⟨hfixed.1, rfl, fun b => ?_⟩
  exact ServerConfig.decodeRound_of_lt b (by decide) hfixed.2 (by decide)

end ServerSession
end Anymone
