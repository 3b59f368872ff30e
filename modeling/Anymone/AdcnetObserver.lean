import Anymone.AdcnetOnce
import Anymone.FaultTracker

/-! # The observer of an ADCNet subnet

`AdcnetObserverSession`: the committee's view of a subnet it takes no part in.  It
counts the shares and outputs that pass by, and judges their rounds by a clock that
`begin_round` and every message it counts lift.

The clock accepts rounds up to a slack ahead of itself and moves to each, so that
messages can carry it as far as they please, one slack after another.  `Slack.lift` is
such a clock on its own; which rounds take it past a bound is said of the rounds alone
(`Slack.foldl_lift_le_iff`).  From it follow what the observer's clock reaches and which
shares it still credits (`blinding_iff`).
-/

namespace Anymone

/-! ## A clock with a slack -/

namespace Slack

/-- The clock after a round: lifted to it, unless it is further ahead than the slack. -/
def lift (slack clock round : Nat) : Nat := if clock + slack < round then clock else max clock round

/-- Some round past `bound` is within the slack of the clock, or of an earlier round
that is not past the bound. -/
def Overruns (slack bound clock : Nat) (rounds : List Nat) : Prop :=
  ∃ earlier round later, rounds = earlier ++ round :: later ∧ bound < round ∧
    ∃ q ∈ clock :: earlier, q ≤ bound ∧ round ≤ q + slack

variable {slack : Nat}

theorem le_lift (clock round : Nat) : clock ≤ lift slack clock round := by
  unfold lift
  split_ifs <;> omega

theorem le_foldl_lift (rounds : List Nat) : ∀ clock, clock ≤ rounds.foldl (lift slack) clock := by
  induction rounds with
  | nil => exact le_refl
  | cons round rounds ih => exact fun clock => (le_lift clock round).trans (ih _)

/-- A round within the bound is one more to be within the slack of. -/
theorem overruns_cons_of_le {bound clock round : Nat} (hle : round ≤ bound) (hc : clock ≤ bound)
    (rounds : List Nat) : Overruns slack bound clock (round :: rounds) ↔
      Overruns slack bound (max clock round) rounds := by
  constructor
  · rintro ⟨earlier, r, later, heq, hr, q, hq, hqb, hrq⟩
    cases earlier with
    | nil =>
      obtain ⟨rfl, -⟩ := List.cons.inj heq
      omega
    | cons first earlier =>
      obtain ⟨rfl, rfl⟩ := List.cons.inj heq
      rcases List.mem_cons.mp hq with rfl | hq
      · exact ⟨earlier, r, later, rfl, hr, _, List.mem_cons_self .., by omega, by omega⟩
      · rcases List.mem_cons.mp hq with rfl | hq
        · exact ⟨earlier, r, later, rfl, hr, _, List.mem_cons_self .., by omega, by omega⟩
        · exact ⟨earlier, r, later, rfl, hr, q, List.mem_cons_of_mem _ hq, hqb, hrq⟩
  · rintro ⟨earlier, r, later, rfl, hr, q, hq, hqb, hrq⟩
    refine ⟨round :: earlier, r, later, rfl, hr, ?_⟩
    rcases List.mem_cons.mp hq with rfl | hq
    · rcases Nat.le_total round clock with h | h
      · exact ⟨clock, by simp, hc, by omega⟩
      · exact ⟨round, by simp, hle, by omega⟩
    · exact ⟨q, by simp [hq], hqb, hrq⟩

/-- A round that is refused changes nothing, and nothing past the bound is an anchor. -/
theorem overruns_cons_of_lt {bound clock round : Nat} (hlt : bound < round)
    (hfar : clock + slack < round) (rounds : List Nat) :
    Overruns slack bound clock (round :: rounds) ↔ Overruns slack bound clock rounds := by
  constructor
  · rintro ⟨earlier, r, later, heq, hr, q, hq, hqb, hrq⟩
    cases earlier with
    | nil =>
      obtain ⟨rfl, -⟩ := List.cons.inj heq
      obtain rfl := List.mem_singleton.mp hq
      omega
    | cons first earlier =>
      obtain ⟨rfl, rfl⟩ := List.cons.inj heq
      rcases List.mem_cons.mp hq with rfl | hq
      · exact ⟨earlier, r, later, rfl, hr, _, List.mem_cons_self .., hqb, hrq⟩
      · rcases List.mem_cons.mp hq with rfl | hq
        · omega
        · exact ⟨earlier, r, later, rfl, hr, q, List.mem_cons_of_mem _ hq, hqb, hrq⟩
  · rintro ⟨earlier, r, later, rfl, hr, q, hq, hqb, hrq⟩
    refine ⟨round :: earlier, r, later, rfl, hr, q, ?_, hqb, hrq⟩
    rcases List.mem_cons.mp hq with rfl | hq
    · exact List.mem_cons_self ..
    · exact List.mem_cons_of_mem _ (List.mem_cons_of_mem _ hq)

/-- **The clock stays within a bound** that its slack reaches, exactly when no round
overruns it. -/
theorem foldl_lift_le_iff {bound : Nat} (rounds : List Nat) : ∀ {clock : Nat}, clock ≤ bound →
    bound ≤ clock + slack →
      (rounds.foldl (lift slack) clock ≤ bound ↔ ¬Overruns slack bound clock rounds) := by
  induction rounds with
  | nil =>
    intro clock hc _
    refine iff_of_true hc ?_
    rintro ⟨earlier, r, later, heq, -⟩
    cases earlier <;> cases heq
  | cons round rounds ih =>
    intro clock hc hb
    rw [List.foldl_cons]
    by_cases hle : round ≤ bound
    · have hlift : lift slack clock round = max clock round := by
        unfold lift
        rw [if_neg (by omega)]
      rw [hlift, overruns_cons_of_le hle hc]
      exact ih (by omega) (by omega)
    · by_cases hfar : clock + slack < round
      · have hlift : lift slack clock round = clock := if_pos hfar
        rw [hlift, overruns_cons_of_lt (by omega) hfar]
        exact ih hc hb
      · -- Taken past the bound, and never back.
        have hlift : lift slack clock round = max clock round := if_neg hfar
        have hgrow : lift slack clock round ≤ rounds.foldl (lift slack) (lift slack clock round) :=
          le_foldl_lift rounds _
        refine iff_of_false (by rw [hlift] at hgrow ⊢; omega) (not_not.mpr ?_)
        exact ⟨[], round, rounds, rfl, by omega, clock, List.mem_cons_self .., hc, by omega⟩

end Slack

/-! ## The observer -/

/-- What the observer uses of the `adcnet` crate and of `bincode`: a scheduled wire's
signed parts are known by what they recover to. -/
structure AdcnetObserverCrate extends AdcnetCrate where
  /-- `Signed<PartialDecryption>`. -/
  SignedPartial : Type
  /-- The signed client set of a scheduled round. -/
  SignedClientSet : Type
  /-- `Signed<RoundBroadcastResult>`. -/
  SignedResult : Type
  /-- The round of the partial's aggregate, and the signer. -/
  recoverPartial : SignedPartial → Option (Int × PublicKey)
  /-- The set's round and the number of its clients, and the signer. -/
  recoverClientSet : SignedClientSet → Option ((Int × Nat) × PublicKey)
  /-- Whether the result is complete and its broadcast's round, and the signer. -/
  recoverResult : SignedResult → Option ((Bool × Int) × PublicKey)
  /-- `bincode::deserialize::<AdcnetWire>`. -/
  deserialize : Bytes → Option (AdcnetWire toAdcnetCrate)
  /-- `bincode::deserialize::<ScheduledAdcnetWire>`, of the messages observed. -/
  deserializeScheduled : Bytes → Option (SignedPartial ⊕ SignedClientSet ⊕ SignedResult)

/-- `AdcnetObserved`. -/
inductive AdcnetObserved where
  | share (round : Round) (signer : PublicKey)
  | output (round : Round)
  | clientSet (size : Nat) (round : Round)
  | other

variable {C : AdcnetObserverCrate}

/-- `observe_adcnet`. -/
def observeAdcnet (C : AdcnetObserverCrate) (bytes : Bytes) : AdcnetObserved :=
  match C.deserialize bytes with
  | some (.server signed) =>
      match C.recoverShare signed with
      | some (s, signer) => .share s.round.toU64 signer
      | none => .other
  | some (.decoded round _) => .output round.toU64
  | some (.clientSet round clients) => .clientSet clients.length round.toU64
  | _ => .other

/-- `wire_round`: a scheduled round counts from one. -/
def wireRound (r : Int) : Option Round :=
  if 0 < r then some (Fin.ofNat _ (r - 1).toNat) else none

/-- `observe_scheduled_adcnet`. -/
def observeScheduledAdcnet (C : AdcnetObserverCrate) (bytes : Bytes) (leader : Pubkey) :
    AdcnetObserved :=
  match C.deserializeScheduled bytes with
  | some (.inl signed) =>
      match (C.recoverPartial signed).bind (fun p => (wireRound p.1).map (fun r => (r, p.2))) with
      | some (round, signer) => .share round signer
      | none => .other
  | some (.inr (.inl signed)) =>
      match C.recoverClientSet signed with
      | some ((r, size), signer) =>
          if signer = leader.1 then (wireRound r).elim .other (.clientSet size) else .other
      | none => .other
  | some (.inr (.inr signed)) =>
      match C.recoverResult signed with
      | some ((completed, r), signer) =>
          if completed = true ∧ signer = leader.1 then (wireRound r).elim .other .output
          else .other
      | none => .other
  | none => .other

/-- `AdcnetObserverSession`. -/
structure AdcnetObserverSession where
  scheduled : Bool
  tracker : OutputFaultTracker
  /-- Sorted; a share is credited to its signer's slot here. -/
  roster : List PeerId
  anonSetByRound : OrdMap Round Nat
  /-- Only this peer's `ClientSet` and `Decoded` are trusted. -/
  leader : PeerId
  curRound : Option U32

namespace AdcnetObserverSession
open Adcnet
variable (o : AdcnetObserverSession)

/-- `ANON_SET_HISTORY`. -/
def anonSetHistory : Nat := 16

/-- `AdcnetObserverSession::for_protocol`. -/
def forProtocol (scheduled : Bool) (roster : List PeerId) (leader : PeerId)
    (faultThreshold : U64) : AdcnetObserverSession :=
  ⟨scheduled, .new roster faultThreshold, roster, .empty, leader, none⟩

/-- `advance_cur_round`. -/
def advanceCurRound (round : Round) : AdcnetObserverSession :=
  { o with curRound := some (o.curRound.elim round.toU32 (max · round.toU32)) }

/-- `begin_round`.  A jump past the slack means that the gap was not observable. -/
def beginRound (round : Round) : AdcnetObserverSession :=
  { o with
    tracker := if o.curRound.any (tooFar round.toU32) then o.tracker.fastForward round
      else o.tracker }.advanceCurRound round

/-- What the payload tells. -/
def observed (C : AdcnetObserverCrate) (payload : Bytes) : AdcnetObserved :=
  if o.scheduled then observeScheduledAdcnet C payload o.leader else observeAdcnet C payload

/-- `future`, of `on_inbound`. -/
def future (round : Round) : Bool := o.curRound.any (tooFar round.toU32)

/-- `on_inbound`. -/
def onInbound (C : AdcnetObserverCrate) (sender : PeerId) (payload : Bytes) :
    AdcnetObserverSession :=
  match o.observed C payload with
  | .share round signer =>
      if o.future round || o.curRound.any (tooOld round.toU32) then o
      else
        let o := o.advanceCurRound round
        match o.roster.findIdx? (fun p => p.val == signer) with
        | some idx => { o with tracker := o.tracker.observeShare round idx }
        | none => o
  | .output round =>
      if sender ≠ o.leader ∨ o.future round then o
      else
        let o := o.advanceCurRound round
        { o with tracker := o.tracker.observeOutput round }
  | .clientSet size round =>
      if sender ≠ o.leader ∨ o.future round then o
      else
        let o := o.advanceCurRound round
        { o with
          anonSetByRound := (o.anonSetByRound.insert round size).keepNewest anonSetHistory }
  | .other => o

/-- `end_round`. -/
def endRound : AdcnetObserverSession × List Fault :=
  ({ o with tracker := o.tracker.evaluate.1 }, o.tracker.evaluate.2)

/-! ## What lifts the clock -/

/-- The round a message is counted for, when it is counted at all: a share by anyone,
the rest by the leader. -/
def counted (C : AdcnetObserverCrate) (sender : PeerId) (payload : Bytes) : Option Round :=
  match o.observed C payload with
  | .share round _ => some round
  | .output round => if sender = o.leader then some round else none
  | .clientSet _ round => if sender = o.leader then some round else none
  | .other => none

/-- The clock after a counted round. -/
def lifted (cur : Option U32) (round : U32) : U32 :=
  cur.elim round (fun c => if tooFar round c then c else max c round)

theorem lifted_val (c round : U32) :
    (lifted (some c) round).val = Slack.lift futureRoundSlack c.val round.val := by
  have hlt := round.isLt
  unfold lifted tooFar Slack.lift futureRoundSlack
  rw [Option.elim_some]
  simp only [decide_eq_true_eq]
  have hsat : c.saturatingAdd 64 < round ↔ c.val + 64 < round.val := by
    show min (c.val + 64) 4294967295 < round.val ↔ _
    omega
  by_cases h : c.val + 64 < round.val
  · rw [if_pos (hsat.mpr h), if_pos h]
  · rw [if_neg (fun h' => h (hsat.mp h')), if_neg h]
    exact Fin.coe_max c round

/-- The part of the observer no message changes. -/
structure SameSubnet (o o' : AdcnetObserverSession) : Prop where
  scheduled : o'.scheduled = o.scheduled
  roster : o'.roster = o.roster
  leader : o'.leader = o.leader
  slots : o'.tracker.roster = o.tracker.roster

variable {o} {sender : PeerId} {payload : Bytes}

theorem observeShare_roster (t : OutputFaultTracker) (round : Round) (idx : Nat) :
    (t.observeShare round idx).roster = t.roster := by
  unfold OutputFaultTracker.observeShare
  split_ifs <;> rfl

theorem observeOutput_roster (t : OutputFaultTracker) (round : Round) :
    (t.observeOutput round).roster = t.roster := by
  unfold OutputFaultTracker.observeOutput
  dsimp only
  split_ifs <;> rfl

theorem sameSubnet_onInbound (o : AdcnetObserverSession) (sender : PeerId) (payload : Bytes) :
    o.SameSubnet (o.onInbound C sender payload) := by
  unfold onInbound
  cases o.observed C payload with
  | share round signer =>
    dsimp only
    split_ifs
    · exact ⟨rfl, rfl, rfl, rfl⟩
    · cases (o.advanceCurRound round).roster.findIdx? (fun p => p.val == signer) with
      | none => exact ⟨rfl, rfl, rfl, rfl⟩
      | some idx => exact ⟨rfl, rfl, rfl, observeShare_roster o.tracker round idx⟩
  | output round =>
    dsimp only
    split_ifs
    · exact ⟨rfl, rfl, rfl, rfl⟩
    · exact ⟨rfl, rfl, rfl, observeOutput_roster o.tracker round⟩
  | clientSet size round =>
    dsimp only
    split_ifs <;> exact ⟨rfl, rfl, rfl, rfl⟩
  | other => exact ⟨rfl, rfl, rfl, rfl⟩

/-- A round outside the window would not lift the clock either. -/
theorem lifted_of_dropped {round : U32} (cur : Option U32)
    (h : cur.any (tooFar round) = true ∨ cur.any (tooOld round) = true) :
    some (lifted cur round) = cur := by
  cases cur with
  | none => simp at h
  | some c =>
    unfold lifted
    rw [Option.elim_some]
    rw [Option.any_some, Option.any_some] at h
    rcases h with h | h
    · rw [if_pos h]
    · have hlt := tooOld_iff.mp h
      have hmax : max c round = c := max_eq_left (by
        show round.val ≤ c.val
        have hval : round.val < c.val - 3 := hlt
        omega)
      rw [hmax, ite_self]

theorem lifted_of_taken {round : U32} {cur : Option U32} (h : cur.any (tooFar round) = false) :
    lifted cur round = cur.elim round (max · round) := by
  unfold lifted
  cases cur with
  | none => rfl
  | some c =>
    rw [Option.any_some] at h
    rw [Option.elim_some, Option.elim_some, h, if_neg (by decide)]

/-- **The clock moves as its slack lets it**, for every message counted. -/
theorem curRound_onInbound (o : AdcnetObserverSession) (sender : PeerId) (payload : Bytes) :
    (o.onInbound C sender payload).curRound =
      (o.counted C sender payload).elim o.curRound (fun r => some (lifted o.curRound r.toU32)) := by
  unfold onInbound counted
  cases o.observed C payload with
  | share round signer =>
    dsimp only
    rw [Option.elim_some]
    split_ifs with hdrop
    · exact (lifted_of_dropped o.curRound (Bool.or_eq_true _ _ ▸ hdrop)).symm
    · have htaken : o.curRound.any (tooFar round.toU32) = false := by
        unfold future at hdrop
        rw [Bool.or_eq_true, not_or] at hdrop
        exact Bool.eq_false_iff.mpr hdrop.1
      rw [lifted_of_taken htaken]
      cases (o.advanceCurRound round).roster.findIdx? (fun p => p.val == signer) <;> rfl
  | output round =>
    dsimp only
    by_cases hs : sender = o.leader
    · rw [if_pos hs, Option.elim_some]
      split_ifs with hdrop
      · exact (lifted_of_dropped o.curRound (Or.inl (hdrop.resolve_left (not_not.mpr hs)))).symm
      · rw [lifted_of_taken (Bool.eq_false_iff.mpr (not_or.mp hdrop).2)]
        rfl
    · rw [if_pos (Or.inl hs), if_neg hs]
      rfl
  | clientSet size round =>
    dsimp only
    by_cases hs : sender = o.leader
    · rw [if_pos hs, Option.elim_some]
      split_ifs with hdrop
      · exact (lifted_of_dropped o.curRound (Or.inl (hdrop.resolve_left (not_not.mpr hs)))).symm
      · rw [lifted_of_taken (Bool.eq_false_iff.mpr (not_or.mp hdrop).2)]
        rfl
    · rw [if_pos (Or.inl hs), if_neg hs]
      rfl
  | other => rfl

/-! ## Between two ticks -/

/-- The observer after `msgs`, each with its sender. -/
def hear (C : AdcnetObserverCrate) (o : AdcnetObserverSession) (msgs : List (PeerId × Bytes)) :
    AdcnetObserverSession :=
  msgs.foldl (fun o m => o.onInbound C m.1 m.2) o

/-- The rounds `msgs` are counted for, as the clock compares them. -/
def heardRounds (C : AdcnetObserverCrate) (o : AdcnetObserverSession)
    (msgs : List (PeerId × Bytes)) : List Nat :=
  msgs.filterMap (fun m => (o.counted C m.1 m.2).map (fun r => r.toU32.val))

theorem counted_congr {o' : AdcnetObserverSession} (h : o.SameSubnet o') (sender : PeerId)
    (payload : Bytes) : o'.counted C sender payload = o.counted C sender payload := by
  unfold counted observed
  rw [h.scheduled, h.leader]

theorem heardRounds_congr {o' : AdcnetObserverSession} (h : o.SameSubnet o')
    (msgs : List (PeerId × Bytes)) : o'.heardRounds C msgs = o.heardRounds C msgs := by
  unfold heardRounds
  refine List.filterMap_congr (fun m _ => ?_)
  rw [counted_congr h]

theorem SameSubnet.trans {o' o'' : AdcnetObserverSession} (h : o.SameSubnet o')
    (h' : o'.SameSubnet o'') : o.SameSubnet o'' :=
  ⟨h'.scheduled.trans h.scheduled, h'.roster.trans h.roster, h'.leader.trans h.leader,
    h'.slots.trans h.slots⟩

theorem sameSubnet_hear (msgs : List (PeerId × Bytes)) : ∀ o : AdcnetObserverSession,
    o.SameSubnet (o.hear C msgs) := by
  induction msgs with
  | nil => exact fun _ => ⟨rfl, rfl, rfl, rfl⟩
  | cons m msgs ih => exact fun o => (sameSubnet_onInbound o m.1 m.2).trans (ih _)

/-- The clock after any messages is the clock of their rounds. -/
theorem curRound_hear (msgs : List (PeerId × Bytes)) : ∀ {o : AdcnetObserverSession} {c : U32},
    o.curRound = some c → ∃ c', (o.hear C msgs).curRound = some c' ∧
      c'.val = (o.heardRounds C msgs).foldl (Slack.lift futureRoundSlack) c.val := by
  induction msgs with
  | nil => exact fun {_ c} hc => ⟨c, hc, rfl⟩
  | cons m msgs ih =>
    intro o c hc
    have hstep := curRound_onInbound (C := C) o m.1 m.2
    have hrest : (o.onInbound C m.1 m.2).heardRounds C msgs = o.heardRounds C msgs :=
      heardRounds_congr (sameSubnet_onInbound o m.1 m.2) msgs
    unfold hear heardRounds
    rw [List.foldl_cons, List.filterMap_cons]
    cases hcount : o.counted C m.1 m.2 with
    | none =>
      rw [hcount, Option.elim_none, hc] at hstep
      obtain ⟨c', hc', hval⟩ := ih hstep
      refine ⟨c', hc', ?_⟩
      rw [hrest] at hval
      exact hval
    | some r =>
      rw [hcount, Option.elim_some, hc] at hstep
      obtain ⟨c', hc', hval⟩ := ih hstep
      refine ⟨c', hc', ?_⟩
      rw [hrest, lifted_val] at hval
      exact hval

/-- A share by someone outside the roster leaves the observer as it is, unless it is in
the window and ahead of the clock. -/
theorem onInbound_outsider {c : U32} (hc : o.curRound = some c) {r : Round} {signer : PublicKey}
    (hobs : o.observed C payload = .share r signer) (hout : ∀ p ∈ o.roster, p.val ≠ signer) :
    o.onInbound C sender payload = o ↔
      tooFar r.toU32 c = true ∨ tooOld r.toU32 c = true ∨ r.toU32 ≤ c := by
  have hnone : (o.advanceCurRound r).roster.findIdx? (fun p => p.val == signer) = none := by
    rw [List.findIdx?_eq_none_iff]
    intro p hp
    simpa using hout p hp
  unfold onInbound future
  rw [hobs, hc]
  dsimp only
  rw [Option.any_some, Option.any_some, hnone]
  by_cases hfar : tooFar r.toU32 c = true
  · simp [hfar]
  · by_cases hold : tooOld r.toU32 c = true
    · simp [hold]
    · rw [if_neg (by simp [hfar, hold])]
      rw [or_iff_right hfar, or_iff_right hold]
      dsimp only
      constructor
      · intro h
        have hcur := congrArg AdcnetObserverSession.curRound h
        rw [hc] at hcur
        unfold advanceCurRound at hcur
        rw [hc] at hcur
        exact max_eq_left_iff.mp (Option.some.inj hcur)
      · intro hle
        unfold advanceCurRound
        rw [hc, Option.elim_some, max_eq_left hle, ← hc]

/-- The relay in slot `idx` is credited with a share of `round`. -/
def Credited (o : AdcnetObserverSession) (round : Round) (idx : Nat) : Prop :=
  ((o.tracker.shares.get? round).getD .empty).contains idx = true

instance (o : AdcnetObserverSession) (round : Round) (idx : Nat) :
    Decidable (o.Credited round idx) := inferInstanceAs (Decidable (_ = true))

/-- A relay's share not seen before is credited while its round is in the window. -/
theorem onInbound_credits {c : U32} (hc : o.curRound = some c) {r : Round} {signer : PublicKey}
    {idx : Nat} (hobs : o.observed C payload = .share r signer)
    (hidx : o.roster.findIdx? (fun p => p.val == signer) = some idx)
    (hslots : o.tracker.roster = o.roster) (hnew : ¬o.Credited r idx) :
    (o.onInbound C sender payload).Credited r idx ↔
      tooFar r.toU32 c = false ∧ c.val ≤ r.toU32.val + roundWindow := by
  have hold : tooOld r.toU32 c = false ↔ c.val ≤ r.toU32.val + roundWindow := by
    rw [Bool.eq_false_iff, ne_eq, tooOld_iff]
    show ¬(r.toU32.val < c.val - roundWindow) ↔ _
    omega
  have hlt : idx < o.tracker.roster.length := by
    rw [hslots]
    exact (List.findIdx?_eq_some_iff_findIdx_eq.mp hidx).1
  rw [← hold]
  unfold onInbound future
  rw [hobs, hc]
  dsimp only
  rw [Option.any_some, Option.any_some]
  have hidx' : (o.advanceCurRound r).roster.findIdx? (fun p => p.val == signer) = some idx := hidx
  rw [hidx']
  cases hfar : tooFar r.toU32 c with
  | true => simpa [hfar] using hnew
  | false =>
    cases holder : tooOld r.toU32 c with
    | true => simpa [holder] using hnew
    | false =>
      refine iff_of_true ?_ ⟨rfl, rfl⟩
      unfold Credited
      have hobserve : o.tracker.observeShare r idx = { o.tracker with
          shares := o.tracker.shares.insert r (((o.tracker.shares.get? r).getD .empty).add idx)
          maxShareRound := some (o.tracker.maxShareRound.elim r (max · r))
          shareAtLastOutput := o.tracker.shareAtLastOutput.or (some r) } := if_pos hlt
      show (((o.tracker.observeShare r idx).shares.get? r).getD .empty).contains idx = true
      rw [hobserve, OrdMap.get?_insert, if_pos rfl]
      exact OrdSet.contains_add_self _ idx

/-! ## A run of the observer -/

end AdcnetObserverSession

/-- The calls made on the observer. -/
inductive AdcnetObserverOp where
  | beginRound (round : Round)
  | inbound (sender : PeerId) (payload : Bytes)
  | endRound

namespace AdcnetObserverSession
open Adcnet
variable {o : AdcnetObserverSession}

/-- The observer after one call. -/
def apply (C : AdcnetObserverCrate) (o : AdcnetObserverSession) :
    AdcnetObserverOp → AdcnetObserverSession
  | .beginRound round => o.beginRound round
  | .inbound sender payload => o.onInbound C sender payload
  | .endRound => o.endRound.1

theorem walk_roster : ∀ (n : Nat) (r : Round) (t : OutputFaultTracker),
    (OutputFaultTracker.walk n r t).1.roster = t.roster
  | 0, _, _ => rfl
  | n + 1, r, t => by
      rw [OutputFaultTracker.walk]
      cases hj : t.judge r with
      | none => rfl
      | some judged =>
        have hone : judged.1.roster = t.roster := by
          unfold OutputFaultTracker.judge at hj
          dsimp only at hj
          split_ifs at hj <;> cases hj <;> rfl
        exact (walk_roster n (r + 1) judged.1).trans hone

theorem sameSubnet_apply (o : AdcnetObserverSession) (op : AdcnetObserverOp) :
    o.SameSubnet (o.apply C op) := by
  cases op with
  | beginRound round =>
    refine ⟨rfl, rfl, rfl, ?_⟩
    show (if o.curRound.any (tooFar round.toU32) then o.tracker.fastForward round
      else o.tracker).roster = _
    split_ifs <;> rfl
  | inbound sender payload => exact sameSubnet_onInbound o sender payload
  | endRound =>
    refine ⟨rfl, rfl, rfl, ?_⟩
    show o.tracker.evaluate.1.roster = _
    unfold OutputFaultTracker.evaluate
    cases o.tracker.maxShareRound with
    | none => rfl
    | some frontier => exact walk_roster _ _ _

/-- The observer a run of calls leads to. -/
def reached (C : AdcnetObserverCrate) (scheduled : Bool) (roster : List PeerId) (leader : PeerId)
    (faultThreshold : U64) (ops : List AdcnetObserverOp) : AdcnetObserverSession :=
  ops.foldl (apply C) (forProtocol scheduled roster leader faultThreshold)

theorem sameSubnet_foldl_apply (ops : List AdcnetObserverOp) : ∀ o : AdcnetObserverSession,
    o.SameSubnet (ops.foldl (apply C) o) := by
  induction ops with
  | nil => exact fun _ => ⟨rfl, rfl, rfl, rfl⟩
  | cons op ops ih => exact fun o => (sameSubnet_apply o op).trans (ih _)

/-- **When the observer can be blinded.**  In every reachable state, between a
`begin_round` and the next one:

* the clock goes past the slack exactly when some counted round overruns it;
* an outsider's share leaves the observer alone exactly when it is out of the window or
  not ahead of the clock;
* a relay's share for a round that `begin_round` reached, not seen before, is credited
  exactly when the clock started inside that round's window and no counted round
  overran it. -/
theorem blinding_iff (C : AdcnetObserverCrate) (scheduled : Bool) (roster : List PeerId)
    (leader : PeerId) (faultThreshold : U64) (ops : List AdcnetObserverOp) (round : Round)
    (msgs : List (PeerId × Bytes)) :
    let o := (reached C scheduled roster leader faultThreshold ops).beginRound round
    let o' := o.hear C msgs
    let rounds := o.heardRounds C msgs
    ∃ clock clock' : U32, o.curRound = some clock ∧ o'.curRound = some clock' ∧
      (clock'.val ≤ max (clock.val + futureRoundSlack) round.toU32.val ↔
        ¬Slack.Overruns futureRoundSlack (max (clock.val + futureRoundSlack) round.toU32.val)
          clock.val rounds) ∧
      (∀ sender payload r signer, o'.observed C payload = .share r signer →
        (∀ p ∈ roster, p.val ≠ signer) →
        (o'.onInbound C sender payload = o' ↔
          tooFar r.toU32 clock' = true ∨ tooOld r.toU32 clock' = true ∨ r.toU32 ≤ clock')) ∧
      ∀ sender payload r signer idx, o'.observed C payload = .share r signer →
        roster.findIdx? (fun p => p.val == signer) = some idx → r.toU32 ≤ round.toU32 →
        ¬o'.Credited r idx →
        ((o'.onInbound C sender payload).Credited r idx ↔
          clock.val ≤ r.toU32.val + roundWindow ∧
            ¬Slack.Overruns futureRoundSlack (r.toU32.val + roundWindow) clock.val rounds) := by
  intro o o' rounds
  have hsame : (forProtocol scheduled roster leader faultThreshold).SameSubnet o' :=
    ((sameSubnet_foldl_apply ops _).trans
      (sameSubnet_apply (C := C) _ (.beginRound round))).trans (sameSubnet_hear msgs o)
  have hroster : o'.roster = roster := hsame.roster
  -- `begin_round` leaves a clock that is not behind its round.
  obtain ⟨clock, hclock, hround⟩ : ∃ clock : U32, o.curRound = some clock ∧
      round.toU32 ≤ clock := by
    refine ⟨_, rfl, ?_⟩
    cases (reached C scheduled roster leader faultThreshold ops).curRound with
    | none => exact le_rfl
    | some c => exact le_max_right _ _
  obtain ⟨clock', hclock', hval⟩ := curRound_hear (C := C) msgs hclock
  have hgrow : clock.val ≤ clock'.val := by
    rw [hval]
    exact Slack.le_foldl_lift rounds clock.val
  have hround' : round.toU32.val ≤ clock.val := hround
  refine ⟨clock, clock', hclock, hclock', ?_, ?_, ?_⟩
  · rw [hval]
    exact Slack.foldl_lift_le_iff rounds (by omega) (by omega)
  · intro sender payload r signer hobs hout
    exact onInbound_outsider hclock' hobs (fun p hp => hout p (hroster ▸ hp))
  · intro sender payload r signer idx hobs hidx hr hnew
    have hr' : r.toU32.val ≤ round.toU32.val := hr
    rw [onInbound_credits hclock' hobs (by rw [hroster]; exact hidx)
      (by rw [hsame.slots, hroster]; rfl) hnew]
    have hnear : tooFar r.toU32 clock' = false := by
      unfold tooFar
      rw [decide_eq_false_iff_not]
      show ¬(min (clock'.val + futureRoundSlack) 4294967295 < r.toU32.val)
      have := r.toU32.isLt
      omega
    rw [eq_true hnear, true_and]
    by_cases hc : clock.val ≤ r.toU32.val + roundWindow
    · rw [eq_true hc, true_and, hval]
      refine Slack.foldl_lift_le_iff rounds hc ?_
      unfold futureRoundSlack roundWindow
      omega
    · exact iff_of_false (by omega) (fun h => hc h.1)

end AdcnetObserverSession

/-! ## An observer to run -/

namespace AdcnetObserverToy
open AdcnetObserverSession

/-- A payload is a share: the signer and a round. -/
def crate : AdcnetObserverCrate where
  toAdcnetCrate := AdcnetToy.crate
  SignedPartial := Unit
  SignedClientSet := Unit
  SignedResult := Unit
  recoverPartial _ := none
  recoverClientSet _ := none
  recoverResult _ := none
  deserialize bytes := some (.server
    (⟨0, Fin.ofNat _ (leVal (bytes.drop 1)), []⟩, (AdcnetToy.identity (bytes.headD 0)).1))
  deserializeScheduled _ := none

/-- The share of relay `signer` for `round`, as it is sent. -/
def share (signer : U8) (round : Nat) : PeerId × Bytes :=
  (AdcnetToy.identity signer, signer :: leBytes 4 round)

/-- Three relays, led by the first. -/
def roster : List PeerId := [1, 2, 3].map AdcnetToy.identity

/-- The committee's observer at round 100. -/
def observer : AdcnetObserverSession :=
  (reached crate false roster (AdcnetToy.identity 1) 2 []).beginRound 100

/-- **The observer blinded three times over.**  At round 100, identity 8 of no relay
moves the clock to 164; relay 3 then moves it to 228, past the slack; and a share of
relay 3 for round 104 alone keeps relay 2's share for round 100 from being credited. -/
theorem observer_blinded :
    observer.curRound = some 100 ∧
      (observer.hear crate [share 8 164]).curRound = some 164 ∧
      (observer.hear crate [share 8 164, share 3 228]).curRound = some 228 ∧
      (observer.hear crate [share 3 104]).curRound = some 104 ∧
      ¬(observer.hear crate [share 3 104, share 2 100]).Credited 100 1 ∧
      (observer.hear crate [share 2 100]).Credited 100 1 := by
  decide +kernel

end AdcnetObserverToy
end Anymone
