import Anymone.AdcnetWire
import Anymone.Trace
import Mathlib.Algebra.Order.Group.Multiset
import Mathlib.Data.Int.Order.Basic
import Mathlib.Tactic.Abel

/-! # A scheduled ADCNet client

`ScheduledAdcnetClientSession`: a payload waits in `pending`, is bid for in one round and
carried in the next, and goes back to `pending` when it lost or its round was missed.

Every payload staged is waiting, in flight, won or taken back, at every moment
(`conserves_payloads`).
-/

/-- `u64 as i64`. -/
def U64.toI64 (n : U64) : Int := if n.val < 2 ^ 63 then n.val else n.val - 2 ^ 64

namespace Anymone

/-- What the session uses of the `adcnet` crate.  `Seed` is what the client draws. -/
structure ScheduledAdcnetCrate where
  Messager : Type
  PrivateKey : Type
  SignedKey : Type
  RoundBroadcast : Type
  AuctionData : Type
  ClientMessage : Type
  SignedMessage : Type
  SignedResult : Type
  Seed : Type
  roundNumber : RoundBroadcast → Int
  /-- `bincode::serialize` of a broadcast. -/
  broadcastBytes : RoundBroadcast → Bytes
  /-- `AuctionData::from_message`. -/
  fromMessage : Bytes → U32 → AuctionData
  /-- `ClientMessager::prepare_message`: the message, and whether the payload was won. -/
  prepareMessage : Messager → Int → RoundBroadcast → Bytes → Option AuctionData → Seed →
    Except String (ClientMessage × Bool)
  sign : PrivateKey → ClientMessage → Except String SignedMessage
  /-- `Signed::recover` of a result: its broadcast and the signer. -/
  recoverResult : SignedResult → Except String (RoundBroadcast × PublicKey)

variable {C : ScheduledAdcnetCrate}

/-- `ScheduledAdcnetWire`; what a client only passes over has no contents. -/
inductive ScheduledAdcnetWire (C : ScheduledAdcnetCrate) where
  | client (message : C.SignedMessage) (key : C.SignedKey)
  | clientSet
  | decryption
  | broadcast (signed : C.SignedResult)

/-- What a `ScheduledAdcnetClientSession` is built with. -/
structure ScheduledAdcnetClientConfig (C : ScheduledAdcnetCrate) where
  messager : C.Messager
  signingKey : C.PrivateKey
  key : C.SignedKey
  leader : Pubkey
  messageLength : Nat
  minMessageSize : Nat

/-- `ScheduledAdcnetClientSession`, its changing part. -/
structure ScheduledAdcnetClientSession (C : ScheduledAdcnetCrate) where
  pending : List (Bytes × U32)
  /-- The payload, its bid and the round it was bid for in. -/
  inflight : Option (Bytes × U32 × Int)
  previous : C.RoundBroadcast
  currentRound : Int
  submittedRound : Option Int

/-- A submission as it is made. -/
structure Submission (C : ScheduledAdcnetCrate) where
  round : Int
  previous : C.RoundBroadcast
  /-- The payload in flight, if any. -/
  carries : Option (Bytes × U32)
  /-- The payload bid for, if any. -/
  bids : Option (Bytes × U32)
  won : Bool
  wire : ScheduledAdcnetWire C

namespace ScheduledAdcnetClientSession
variable (cfg : ScheduledAdcnetClientConfig C) (s : ScheduledAdcnetClientSession C)

/-- `ScheduledAdcnetClientSession::new`. -/
def new (initial : C.RoundBroadcast) (startingRound : Int) : ScheduledAdcnetClientSession C :=
  ⟨[], none, initial, startingRound, none⟩

/-- The payload as it is kept: padded to the least size. -/
def padded (payload : Bytes) : Bytes :=
  payload ++ List.replicate (max payload.length cfg.minMessageSize - payload.length) 0

/-- `stage_message`. -/
def stageMessage (payload : Bytes) (bid : U32) : ScheduledAdcnetClientSession C :=
  { s with pending := s.pending ++ [(padded cfg payload, bid)] }

/-- `schedule_message_for_next_round`. -/
def scheduleMessageForNextRound (payload : Bytes) (bid : U32) :
    Except String (ScheduledAdcnetClientSession C) :=
  if cfg.messageLength < max payload.length cfg.minMessageSize then
    .error "payload exceeds scheduled message capacity"
  else .ok (s.stageMessage cfg payload bid)

/-- `advance_to_round`. -/
def advanceToRound (round : Int) : Except String (ScheduledAdcnetClientSession C) :=
  if round < s.currentRound ∨ round < 1 then .error "scheduled ADCNet round moved backwards"
  else .ok { s with currentRound := round }

/-- `process_round_broadcast`, of a payload as it decodes. -/
def processRoundBroadcast (payload : Except String (ScheduledAdcnetWire C)) :
    Except String (ScheduledAdcnetClientSession C) :=
  match payload with
  | .error e => .error e
  | .ok (.broadcast signed) =>
      match C.recoverResult signed with
      | .error e => .error e
      | .ok (rb, signer) =>
          if signer ≠ cfg.leader.1 ∨ C.roundNumber rb < C.roundNumber s.previous ∨
              s.currentRound < C.roundNumber rb then
            .error "invalid broadcast signer or round"
          else if C.roundNumber rb = C.roundNumber s.previous ∧
              C.broadcastBytes rb ≠ C.broadcastBytes s.previous then
            .error "conflicting broadcast for the same round"
          else .ok { s with previous := rb }
  | .ok _ => .error "expected a scheduled ADCNet broadcast"

/-- The broadcast of the round before is here, and nothing was submitted yet. -/
def due : Bool :=
  decide (C.roundNumber s.previous = s.currentRound - 1) &&
    decide (s.submittedRound ≠ some s.currentRound)

/-- A payload in flight whose round was missed waits again, at the front. -/
def restored : ScheduledAdcnetClientSession C :=
  match s.inflight with
  | some (payload, bid, r) =>
      if r ≠ s.currentRound - 1 then
        { s with inflight := none, pending := (payload, bid) :: s.pending }
      else s
  | none => s

/-- The prepared and signed message, and whether the payload in flight was won. -/
def prepare (seed : C.Seed) : Except String (ScheduledAdcnetWire C × Bool) :=
  match C.prepareMessage cfg.messager s.currentRound s.previous
      ((s.inflight.map Prod.fst).getD []) (s.pending.head?.map (fun p => C.fromMessage p.1 p.2))
      seed with
  | .error e => .error e
  | .ok (message, won) =>
      match C.sign cfg.signingKey message with
      | .error e => .error e
      | .ok signed => .ok (.client signed cfg.key, won)

/-- What a submission leaves: the payload bid for is in flight, a lost one waits again. -/
def submitted (won : Bool) : ScheduledAdcnetClientSession C :=
  { s with
    pending := s.pending.tail ++ (match s.inflight with
      | some (payload, bid, _) => if won then [] else [(payload, bid)]
      | none => [])
    inflight := s.pending.head?.map (fun p => (p.1, p.2, s.currentRound))
    submittedRound := some s.currentRound }

/-- The submission made, if one is.  `quiet` is a cover draw that says no. -/
def submission (quiet : Bool) (seed : C.Seed) : Option (Submission C) :=
  if s.due = true then
    if s.restored.pending.isEmpty && s.restored.inflight.isNone && quiet then none
    else
      match s.restored.prepare cfg seed with
      | .error _ => none
      | .ok (wire, won) =>
          some ⟨s.currentRound, s.previous, s.restored.inflight.map (fun p => (p.1, p.2.1)),
            s.restored.pending.head?, won, wire⟩
  else none

/-- `messages_for_current_round`. -/
def messagesForCurrentRound (quiet : Bool) (seed : C.Seed) :
    ScheduledAdcnetClientSession C × Except String (List (ScheduledAdcnetWire C)) :=
  if s.due = true then
    if s.restored.pending.isEmpty && s.restored.inflight.isNone && quiet then (s.restored, .ok [])
    else
      match s.restored.prepare cfg seed with
      | .error e => (s.restored, .error e)
      | .ok (wire, won) => (s.restored.submitted won, .ok [wire])
  else (s, .ok [])

/-- `take_pending_messages`. -/
def takePendingMessages : ScheduledAdcnetClientSession C × List Bytes :=
  let pending := match s.inflight with
    | some (payload, bid, _) => (payload, bid) :: s.pending
    | none => s.pending
  ({ s with pending := [], inflight := none }, pending.map Prod.fst)

/-- `Drop`: what is left goes back to the front of the node's outbox. -/
def drop (outbox : List Bytes) : List Bytes :=
  s.takePendingMessages.2.reverse.foldl (fun outbox payload => payload :: outbox) outbox

/-- `begin_round`. -/
def beginRound (round : Round) (quiet : Bool) (seed : C.Seed) :
    ScheduledAdcnetClientSession C × List (ScheduledAdcnetWire C) :=
  match s.advanceToRound (round.toI64 + 1) with
  | .error _ => (s, [])
  | .ok s =>
      let m := s.messagesForCurrentRound cfg quiet seed
      (m.1, m.2.toOption.getD [])

/-- `on_inbound`. -/
def onInbound (payload : Except String (ScheduledAdcnetWire C)) (quiet : Bool) (seed : C.Seed) :
    ScheduledAdcnetClientSession C × List (ScheduledAdcnetWire C) :=
  match s.processRoundBroadcast cfg payload with
  | .error _ => (s, [])
  | .ok s =>
      let m := s.messagesForCurrentRound cfg quiet seed
      (m.1, m.2.toOption.getD [])

/-- `pending_message_count`. -/
def pendingMessageCount : Nat := s.pending.length + if s.inflight.isSome then 1 else 0

end ScheduledAdcnetClientSession

/-! ## Runs -/

/-- A call of the session. -/
inductive ScheduledAdcnetClientOp (C : ScheduledAdcnetCrate) where
  | stage (payload : Bytes) (bid : U32)
  | schedule (payload : Bytes) (bid : U32)
  | advance (round : Int)
  | broadcast (payload : Except String (ScheduledAdcnetWire C))
  | messages (quiet : Bool) (seed : C.Seed)
  | take

namespace ScheduledAdcnetClientSession
variable (cfg : ScheduledAdcnetClientConfig C)

/-- One call; a call that fails leaves the session, but for a payload brought back. -/
def apply (s : ScheduledAdcnetClientSession C) :
    ScheduledAdcnetClientOp C → ScheduledAdcnetClientSession C
  | .stage payload bid => s.stageMessage cfg payload bid
  | .schedule payload bid => (s.scheduleMessageForNextRound cfg payload bid).toOption.getD s
  | .advance round => (s.advanceToRound round).toOption.getD s
  | .broadcast payload => (s.processRoundBroadcast cfg payload).toOption.getD s
  | .messages quiet seed => (s.messagesForCurrentRound cfg quiet seed).1
  | .take => s.takePendingMessages.1

/-- The payload a call stages, as it is kept. -/
def stagedBy (s : ScheduledAdcnetClientSession C) : ScheduledAdcnetClientOp C → List Bytes
  | .stage payload _ => [padded cfg payload]
  | .schedule payload bid =>
      if (s.scheduleMessageForNextRound cfg payload bid).toOption.isSome then
        [padded cfg payload]
      else []
  | _ => []

/-- The submission a call makes. -/
def submissionBy (s : ScheduledAdcnetClientSession C) :
    ScheduledAdcnetClientOp C → List (Submission C)
  | .messages quiet seed => (s.submission cfg quiet seed).toList
  | _ => []

/-- The payloads a call takes back. -/
def takenBy (s : ScheduledAdcnetClientSession C) : ScheduledAdcnetClientOp C → List Bytes
  | .take => s.takePendingMessages.2
  | _ => []

/-- The payload a submission reports won. -/
def wonBy (sub : Submission C) : Option Bytes := if sub.won then sub.carries.map Prod.fst else none

variable (initial : C.RoundBroadcast) (startingRound : Int)

/-- The session after the calls. -/
def after (ops : List (ScheduledAdcnetClientOp C)) : ScheduledAdcnetClientSession C :=
  Trace.run (new initial startingRound) (apply cfg) ops

/-- The payloads staged in a run. -/
def staged (ops : List (ScheduledAdcnetClientOp C)) : List Bytes :=
  Trace.observed (new initial startingRound) (apply cfg) (stagedBy cfg) ops

/-- The submissions of a run. -/
def submissions (ops : List (ScheduledAdcnetClientOp C)) : List (Submission C) :=
  Trace.observed (new initial startingRound) (apply cfg) (submissionBy cfg) ops

/-- The payloads won in a run. -/
def won (ops : List (ScheduledAdcnetClientOp C)) : List Bytes :=
  (submissions cfg initial startingRound ops).filterMap wonBy

/-- The payloads taken back in a run. -/
def taken (ops : List (ScheduledAdcnetClientOp C)) : List Bytes :=
  Trace.observed (new initial startingRound) (apply cfg) takenBy ops

/-- The payloads of a session. -/
def held (s : ScheduledAdcnetClientSession C) : Multiset Bytes :=
  (s.pending.map Prod.fst : Multiset Bytes) + ((s.inflight.map Prod.fst).toList : Multiset Bytes)

variable {cfg initial startingRound} {s : ScheduledAdcnetClientSession C}

/-! ## What the calls do -/

@[simp] theorem after_nil : after cfg initial startingRound [] = new initial startingRound := rfl

theorem after_concat (ops : List (ScheduledAdcnetClientOp C)) (op : ScheduledAdcnetClientOp C) :
    after cfg initial startingRound (ops ++ [op]) =
      apply cfg (after cfg initial startingRound ops) op := Trace.run_concat ..

theorem submissions_concat (ops : List (ScheduledAdcnetClientOp C))
    (op : ScheduledAdcnetClientOp C) : submissions cfg initial startingRound (ops ++ [op]) =
      submissions cfg initial startingRound ops ++
        submissionBy cfg (after cfg initial startingRound ops) op := Trace.observed_concat ..

/-- A payload brought back is the one that was in flight, from another round. -/
theorem restored_cases (s : ScheduledAdcnetClientSession C) :
    (s.restored = s ∧ ∀ p b r, s.inflight = some (p, b, r) → r = s.currentRound - 1) ∨
    ∃ p b r, s.inflight = some (p, b, r) ∧
      s.restored = { s with inflight := none, pending := (p, b) :: s.pending } := by
  rw [restored]
  cases h : s.inflight with
  | none => exact Or.inl ⟨rfl, nofun⟩
  | some f =>
    obtain ⟨p, b, r⟩ := f
    dsimp only
    by_cases hr : r ≠ s.currentRound - 1
    · rw [if_pos hr]
      exact Or.inr ⟨p, b, r, rfl, rfl⟩
    · rw [if_neg hr]
      refine Or.inl ⟨rfl, ?_⟩
      rintro p' b' r' ⟨⟩
      exact not_not.mp hr

/-- The restored session has the same payloads, round and broadcast. -/
theorem restored_keeps (s : ScheduledAdcnetClientSession C) :
    s.restored.held = s.held ∧ s.restored.currentRound = s.currentRound ∧
      s.restored.previous = s.previous ∧ s.restored.submittedRound = s.submittedRound := by
  rcases restored_cases s with ⟨h, -⟩ | ⟨p, b, r, hin, h⟩
  · rw [h]
    exact ⟨rfl, rfl, rfl, rfl⟩
  · rw [h]
    refine ⟨?_, rfl, rfl, rfl⟩
    rw [held, held, hin]
    show ((p :: s.pending.map Prod.fst : List Bytes) : Multiset Bytes) + 0 =
      (s.pending.map Prod.fst : Multiset Bytes) + (([p] : List Bytes) : Multiset Bytes)
    rw [add_zero, Multiset.coe_add]
    exact Multiset.coe_eq_coe.mpr (List.perm_append_singleton p _).symm

/-- **What a call for messages does.**  It makes no submission and at most brings back
the payload in flight, or it submits: the round is due, the payload in flight was bid for
in the round before, and the front of the queue is bid for. -/
theorem messages_cases (cfg : ScheduledAdcnetClientConfig C) (s : ScheduledAdcnetClientSession C)
    (quiet : Bool) (seed : C.Seed) :
    (s.submission cfg quiet seed = none ∧
      ((s.messagesForCurrentRound cfg quiet seed).1 = s ∨
        (s.messagesForCurrentRound cfg quiet seed).1 = s.restored) ∧
      ∀ ws, (s.messagesForCurrentRound cfg quiet seed).2 = .ok ws → ws = []) ∨
    ∃ sub, s.submission cfg quiet seed = some sub ∧ s.due = true ∧
      sub.round = s.currentRound ∧ sub.previous = s.previous ∧
      sub.carries = s.restored.inflight.map (fun p => (p.1, p.2.1)) ∧
      sub.bids = s.restored.pending.head? ∧
      s.messagesForCurrentRound cfg quiet seed = (s.restored.submitted sub.won, .ok [sub.wire]) := by
  rw [submission, messagesForCurrentRound]
  by_cases hdue : s.due = true
  · rw [if_pos hdue, if_pos hdue]
    split
    · refine Or.inl ⟨rfl, Or.inr rfl, ?_⟩
      rintro ws ⟨⟩
      rfl
    · cases hp : s.restored.prepare cfg seed with
      | error e => exact Or.inl ⟨rfl, Or.inr rfl, nofun⟩
      | ok r => exact Or.inr ⟨_, rfl, hdue, rfl, rfl, rfl, rfl, rfl⟩
  · rw [if_neg hdue, if_neg hdue]
    refine Or.inl ⟨rfl, Or.inl rfl, ?_⟩
    rintro ws ⟨⟩
    rfl

/-- A submission moves payloads about; the one that is won leaves. -/
theorem held_submitted (s : ScheduledAdcnetClientSession C) (won : Bool) :
    (s.submitted won).held + (((if won then s.inflight.map Prod.fst else none).toList : List Bytes)
      : Multiset Bytes) = s.held := by
  obtain ⟨pending, inflight, previous, round, done⟩ := s
  have hqueue : ((pending.tail.map Prod.fst : List Bytes) : Multiset Bytes) +
      ((pending.head?.map Prod.fst).toList : Multiset Bytes) =
        (pending.map Prod.fst : Multiset Bytes) := by
    cases pending with
    | nil => rfl
    | cons p pending =>
      rw [Multiset.coe_add]
      exact Multiset.coe_eq_coe.mpr (List.perm_append_singleton p.1 _)
  have hfront : ((pending.head?.map (fun p => (p.1, p.2, round))).map Prod.fst) =
      pending.head?.map Prod.fst := by
    rw [Option.map_map]
    rfl
  rw [held, held, submitted]
  dsimp only
  rw [hfront, ← hqueue]
  cases inflight with
  | none =>
    rw [List.append_nil]
    cases won <;> rfl
  | some f =>
    obtain ⟨p, b, r⟩ := f
    cases won with
    | true =>
      show (((pending.tail ++ []).map Prod.fst : List Bytes) : Multiset Bytes) + _ + _ = _
      rw [List.append_nil]
      rfl
    | false =>
      show (((pending.tail ++ [(p, b)]).map Prod.fst : List Bytes) : Multiset Bytes) + _ + 0 = _
      rw [List.map_append, ← Multiset.coe_add, add_zero, add_right_comm]
      rfl

/-- **One call keeps the account.** -/
theorem held_apply (cfg : ScheduledAdcnetClientConfig C) (s : ScheduledAdcnetClientSession C)
    (op : ScheduledAdcnetClientOp C) :
    (s.apply cfg op).held + ((submissionBy cfg s op).filterMap wonBy : Multiset Bytes) +
      (takenBy s op : Multiset Bytes) = s.held + (stagedBy cfg s op : Multiset Bytes) := by
  have hstage : ∀ payload bid, (s.stageMessage cfg payload bid).held =
      s.held + (([padded cfg payload] : List Bytes) : Multiset Bytes) := by
    intro payload bid
    rw [held, held, stageMessage, List.map_append, ← Multiset.coe_add, add_right_comm]
    rfl
  cases op with
  | stage payload bid =>
    show (s.stageMessage cfg payload bid).held + 0 + 0 = _
    rw [add_zero, add_zero, hstage]
    rfl
  | schedule payload bid =>
    show ((s.scheduleMessageForNextRound cfg payload bid).toOption.getD s).held + 0 + 0 =
      s.held + ((if (s.scheduleMessageForNextRound cfg payload bid).toOption.isSome then
        [padded cfg payload] else [] : List Bytes) : Multiset Bytes)
    rw [add_zero, add_zero, scheduleMessageForNextRound]
    split
    · exact (add_zero _).symm
    · exact hstage payload bid
  | advance round =>
    show ((s.advanceToRound round).toOption.getD s).held + 0 + 0 = s.held + 0
    rw [add_zero, add_zero, add_zero, advanceToRound]
    split <;> rfl
  | broadcast payload =>
    show ((s.processRoundBroadcast cfg payload).toOption.getD s).held + 0 + 0 = s.held + 0
    rw [add_zero, add_zero, add_zero, processRoundBroadcast.eq_def]
    split
    · rfl
    · split
      · rfl
      · split
        · rfl
        · split <;> rfl
    · rfl
  | messages quiet seed =>
    show (s.messagesForCurrentRound cfg quiet seed).1.held +
      ((s.submission cfg quiet seed).toList.filterMap wonBy : Multiset Bytes) + 0 = s.held + 0
    rw [add_zero, add_zero]
    -- nothing goes out, or what is in flight does, won or lost
    rcases messages_cases cfg s quiet seed with ⟨hnone, hs | hs, -⟩ |
      ⟨sub, hsub, -, -, -, hcarries, -, hm⟩
    · rw [hnone, hs]
      exact add_zero _
    · rw [hnone, hs, (restored_keeps s).1]
      exact add_zero _
    · rw [hsub, hm, ← (restored_keeps s).1, ← held_submitted s.restored sub.won]
      congr 2
      rw [Option.toList_some, List.filterMap_cons, wonBy, hcarries, Option.map_map]
      cases sub.won with
      | true =>
        rw [if_pos rfl, if_pos rfl]
        cases s.restored.inflight <;> rfl
      | false => rfl
  | take =>
    show s.takePendingMessages.1.held + 0 + (s.takePendingMessages.2 : Multiset Bytes) = s.held + 0
    rw [add_zero, add_zero, held, held, takePendingMessages]
    cases hin : s.inflight with
    | none => exact (zero_add _).trans (add_zero _).symm
    | some f =>
      show 0 + 0 + ((f.1 :: s.pending.map Prod.fst : List Bytes) : Multiset Bytes) =
        (s.pending.map Prod.fst : Multiset Bytes) + (([f.1] : List Bytes) : Multiset Bytes)
      rw [zero_add, zero_add, Multiset.coe_add]
      exact Multiset.coe_eq_coe.mpr (List.perm_append_singleton f.1 _).symm

/-! ## Runs -/

/-- Every payload staged is held, won or taken back. -/
theorem held_after (ops : List (ScheduledAdcnetClientOp C)) :
    (after cfg initial startingRound ops).held + (won cfg initial startingRound ops : Multiset Bytes)
      + (taken cfg initial startingRound ops : Multiset Bytes) =
      (staged cfg initial startingRound ops : Multiset Bytes) := by
  induction ops using List.reverseRecOn with
  | nil => rfl
  | append_singleton ops op ih =>
    have hstep := held_apply cfg (after cfg initial startingRound ops) op
    have hwon : won cfg initial startingRound (ops ++ [op]) = won cfg initial startingRound ops ++
        (submissionBy cfg (after cfg initial startingRound ops) op).filterMap wonBy := by
      rw [won, submissions_concat, List.filterMap_append]
      rfl
    have htaken : taken cfg initial startingRound (ops ++ [op]) =
        taken cfg initial startingRound ops ++
          takenBy (after cfg initial startingRound ops) op := Trace.observed_concat ..
    have hstaged : staged cfg initial startingRound (ops ++ [op]) =
        staged cfg initial startingRound ops ++
          stagedBy cfg (after cfg initial startingRound ops) op := Trace.observed_concat ..
    rw [after_concat, hwon, htaken, hstaged, ← Multiset.coe_add, ← Multiset.coe_add,
      ← Multiset.coe_add, ← ih]
    calc _ = (apply cfg (after cfg initial startingRound ops) op).held +
          ((submissionBy cfg (after cfg initial startingRound ops) op).filterMap wonBy :
            Multiset Bytes) + (takenBy (after cfg initial startingRound ops) op : Multiset Bytes) +
          ((won cfg initial startingRound ops : Multiset Bytes) +
            (taken cfg initial startingRound ops : Multiset Bytes)) := by abel
      _ = _ := by
        rw [hstep]
        abel

/-- What the submissions of a run say of the session. -/
structure Tracks (s : ScheduledAdcnetClientSession C) (subs : List (Submission C)) : Prop where
  rounds : (subs.map Submission.round).Pairwise (· < ·)
  past : ∀ sub ∈ subs, sub.round ≤ s.currentRound ∧
    (sub.round = s.currentRound → s.submittedRound = some s.currentRound)
  inflight : ∀ p b r, s.inflight = some (p, b, r) →
    ∃ sub ∈ subs, sub.round = r ∧ sub.bids = some (p, b)

/-- What the round's submission is against, and where what it carries was bid for. -/
structure Answers (sub : Submission C) (earlier : List (Submission C)) : Prop where
  previous : C.roundNumber sub.previous = sub.round - 1
  carries : ∀ p ∈ sub.carries, ∃ bid ∈ earlier, bid.round = sub.round - 1 ∧ bid.bids = some p

/-- What the round's submission sends: the signed message the crate prepares of what it carries
and bids. -/
def Signs (cfg : ScheduledAdcnetClientConfig C) (seed : C.Seed) (sub : Submission C) : Prop :=
  ∃ message signed,
    C.prepareMessage cfg.messager sub.round sub.previous ((sub.carries.map Prod.fst).getD [])
      (sub.bids.map (fun p => C.fromMessage p.1 p.2)) seed = .ok (message, sub.won) ∧
    C.sign cfg.signingKey message = .ok signed ∧ sub.wire = .client signed cfg.key

theorem signs_submission {quiet : Bool} {seed : C.Seed} {sub : Submission C}
    (hsub : s.submission cfg quiet seed = some sub) : Signs cfg seed sub := by
  obtain ⟨-, hround, hprev, -⟩ := restored_keeps s
  have hcarried : (s.restored.inflight.map (fun p => (p.1, p.2.1))).map Prod.fst =
      s.restored.inflight.map Prod.fst := by
    rw [Option.map_map]
    rfl
  rw [submission] at hsub
  split at hsub
  · split at hsub
    · cases hsub
    · split at hsub
      · cases hsub
      · rename_i wire won hprepare
        cases hsub
        rw [prepare] at hprepare
        split at hprepare
        · cases hprepare
        · rename_i message won' hmessage
          split at hprepare
          · cases hprepare
          · rename_i signed hsigned
            cases hprepare
            refine ⟨message, signed, ?_, hsigned, rfl⟩
            dsimp only
            rw [hcarried, ← hround, ← hprev]
            exact hmessage
  · cases hsub

theorem Tracks.restored {subs : List (Submission C)} (h : Tracks s subs) :
    Tracks s.restored subs := by
  rcases restored_cases s with ⟨heq, -⟩ | ⟨p, b, r, -, heq⟩
  · rw [heq]
    exact h
  · rw [heq]
    exact ⟨h.rounds, h.past, nofun⟩

/-- A submission answers the round before. -/
theorem Tracks.answers {subs : List (Submission C)} (h : Tracks s subs) {quiet : Bool}
    {seed : C.Seed} {sub : Submission C} (hsub : s.submission cfg quiet seed = some sub) :
    Answers sub subs := by
  rcases messages_cases cfg s quiet seed with ⟨hnone, -, -⟩ |
    ⟨sub', hsub', hdue, hround, hprev, hcarries, -, -⟩
  · rw [hnone] at hsub
    cases hsub
  · cases hsub'.symm.trans hsub
    refine ⟨?_, fun p hp => ?_⟩
    · rw [hprev, hround]
      exact of_decide_eq_true (Bool.and_eq_true_iff.mp hdue).1
    · rw [hcarries] at hp
      obtain ⟨f, hf, rfl⟩ := Option.map_eq_some_iff.mp hp
      rcases restored_cases s with ⟨heq, hr⟩ | ⟨p, b, r, -, heq⟩
      · rw [heq] at hf
        obtain ⟨bid, hbid, hbround, hbids⟩ := h.inflight f.1 f.2.1 f.2.2 hf
        refine ⟨bid, hbid, ?_, hbids⟩
        rw [hbround, hround]
        exact hr f.1 f.2.1 f.2.2 hf
      · rw [heq] at hf
        cases hf

/-- One call keeps track of the submissions. -/
theorem Tracks.apply {subs : List (Submission C)} (h : Tracks s subs)
    (op : ScheduledAdcnetClientOp C) : Tracks (s.apply cfg op) (subs ++ submissionBy cfg s op) := by
  cases op with
  | stage payload bid =>
    show Tracks _ (subs ++ [])
    rw [List.append_nil]
    exact ⟨h.rounds, h.past, h.inflight⟩
  | schedule payload bid =>
    show Tracks ((s.scheduleMessageForNextRound cfg payload bid).toOption.getD s) (subs ++ [])
    rw [List.append_nil, scheduleMessageForNextRound]
    split
    · exact h
    · exact ⟨h.rounds, h.past, h.inflight⟩
  | advance round =>
    show Tracks ((s.advanceToRound round).toOption.getD s) (subs ++ [])
    rw [List.append_nil, advanceToRound]
    split
    · exact h
    · rename_i hround
      rw [not_or, not_lt] at hround
      refine ⟨h.rounds, fun sub hsub => ?_, h.inflight⟩
      obtain ⟨hle, hdone⟩ := h.past sub hsub
      refine ⟨le_trans hle hround.1, fun heq => ?_⟩
      -- The round of a submission is reached again only where the round did not move.
      have hsame : s.currentRound = round := by
        show s.currentRound = round
        have : sub.round = round := heq
        omega
      rw [← hsame]
      exact hdone (heq.trans hsame.symm)
  | broadcast payload =>
    show Tracks ((s.processRoundBroadcast cfg payload).toOption.getD s) (subs ++ [])
    rw [List.append_nil, processRoundBroadcast.eq_def]
    split
    · exact h
    · split
      · exact h
      · split
        · exact h
        · split
          · exact h
          · exact ⟨h.rounds, h.past, h.inflight⟩
    · exact h
  | messages quiet seed =>
    show Tracks (s.messagesForCurrentRound cfg quiet seed).1
      (subs ++ (s.submission cfg quiet seed).toList)
    rcases messages_cases cfg s quiet seed with ⟨hnone, hs | hs, -⟩ |
      ⟨sub, hsub, hdue, hround, -, -, hbids, hm⟩
    · rw [hnone, hs]
      exact (List.append_nil subs).symm ▸ h
    · rw [hnone, hs]
      exact (List.append_nil subs).symm ▸ h.restored
    · have hkeeps := restored_keeps s
      have hfree : s.submittedRound ≠ some s.currentRound :=
        of_decide_eq_true (Bool.and_eq_true_iff.mp hdue).2
      rw [hsub, hm, Option.toList_some]
      refine ⟨?_, ?_, ?_⟩
      · rw [List.map_append, List.pairwise_append]
        refine ⟨h.rounds, List.pairwise_singleton _ _, fun r hr r' hr' => ?_⟩
        obtain ⟨old, hold, rfl⟩ := List.mem_map.mp hr
        rw [List.mem_singleton.mp hr', hround]
        obtain ⟨hle, hdone⟩ := h.past old hold
        exact lt_of_le_of_ne hle (fun heq => hfree (hdone heq))
      · intro old hold
        show old.round ≤ s.restored.currentRound ∧ (_ → some s.restored.currentRound = _)
        rw [hkeeps.2.1]
        rcases List.mem_append.mp hold with hold | hold
        · exact ⟨(h.past old hold).1, fun _ => congrArg some hkeeps.2.1.symm⟩
        · rw [List.mem_singleton.mp hold, hround]
          exact ⟨le_refl _, fun _ => congrArg some hkeeps.2.1.symm⟩
      · intro p b r hin
        obtain ⟨front, hfront, hpbr⟩ := Option.map_eq_some_iff.mp hin
        cases hpbr
        refine ⟨sub, List.mem_append_right _ List.mem_cons_self, ?_, hbids.trans hfront⟩
        rw [hround, hkeeps.2.1]
  | take =>
    show Tracks s.takePendingMessages.1 (subs ++ [])
    rw [List.append_nil]
    exact ⟨h.rounds, h.past, nofun⟩

theorem tracks_after (ops : List (ScheduledAdcnetClientOp C)) :
    Tracks (after cfg initial startingRound ops) (submissions cfg initial startingRound ops) := by
  induction ops using List.reverseRecOn with
  | nil => exact ⟨List.Pairwise.nil, nofun, nofun⟩
  | append_singleton ops op ih =>
    rw [after_concat, submissions_concat]
    exact ih.apply op

/-- What is taken back is the payload in flight and those that wait, and none is left. -/
theorem takePendingMessages_eq (s : ScheduledAdcnetClientSession C) :
    s.takePendingMessages.2 = (s.inflight.map Prod.fst).toList ++ s.pending.map Prod.fst ∧
      s.takePendingMessages.1.held = 0 := by
  rw [takePendingMessages]
  cases s.inflight <;> exact ⟨rfl, rfl⟩

/-- A dropped session puts its payloads before those of the node, in order. -/
theorem drop_eq (s : ScheduledAdcnetClientSession C) (outbox : List Bytes) :
    s.drop outbox = s.takePendingMessages.2 ++ outbox := by
  rw [drop, List.foldl_reverse, List.foldr_cons_eq_append, List.map_id']

/-- `begin_round` is a run of the calls above. -/
theorem isRun_beginRound (ops : List (ScheduledAdcnetClientOp C)) (round : Round) (quiet : Bool)
    (seed : C.Seed) : ∃ more,
      ((after cfg initial startingRound ops).beginRound cfg round quiet seed).1 =
        after cfg initial startingRound (ops ++ more) := by
  rw [beginRound]
  cases h : (after cfg initial startingRound ops).advanceToRound (round.toI64 + 1) with
  | error e => exact ⟨[], by rw [List.append_nil]⟩
  | ok s' =>
    refine ⟨[.advance (round.toI64 + 1)] ++ [.messages quiet seed], ?_⟩
    rw [← List.append_assoc, after_concat, after_concat]
    show _ = ((((after cfg initial startingRound ops).advanceToRound
      (round.toI64 + 1)).toOption.getD _).messagesForCurrentRound cfg quiet seed).1
    rw [h]
    rfl

/-- So is `on_inbound`. -/
theorem isRun_onInbound (ops : List (ScheduledAdcnetClientOp C))
    (payload : Except String (ScheduledAdcnetWire C)) (quiet : Bool) (seed : C.Seed) : ∃ more,
      ((after cfg initial startingRound ops).onInbound cfg payload quiet seed).1 =
        after cfg initial startingRound (ops ++ more) := by
  rw [onInbound]
  cases h : (after cfg initial startingRound ops).processRoundBroadcast cfg payload with
  | error e => exact ⟨[], by rw [List.append_nil]⟩
  | ok s' =>
    refine ⟨[.broadcast payload] ++ [.messages quiet seed], ?_⟩
    rw [← List.append_assoc, after_concat, after_concat]
    show _ = ((((after cfg initial startingRound ops).processRoundBroadcast
      cfg payload).toOption.getD _).messagesForCurrentRound cfg quiet seed).1
    rw [h]
    rfl

/-- **Payloads are conserved.**  At every moment of every run what was staged is what
waits, is in flight, was won or was taken back; a round has at most one submission, which
is what the session sends: signed, it answers the broadcast of the round before, carries what
was bid for then and bids for what waits first; and what is taken back is all there is, for the
node's outbox too.  A run of the session's own calls is such a run. -/
theorem conserves_payloads (cfg : ScheduledAdcnetClientConfig C) (initial : C.RoundBroadcast)
    (startingRound : Int) (ops : List (ScheduledAdcnetClientOp C)) :
    let s := after cfg initial startingRound ops
    (s.held + (won cfg initial startingRound ops : Multiset Bytes) +
      (taken cfg initial startingRound ops : Multiset Bytes) =
        (staged cfg initial startingRound ops : Multiset Bytes)) ∧
    ((submissions cfg initial startingRound ops).map Submission.round).Pairwise (· < ·) ∧
    (∀ quiet seed, (∀ sub ∈ s.submission cfg quiet seed,
        Answers sub (submissions cfg initial startingRound ops) ∧
        sub.round = s.currentRound ∧ sub.previous = s.previous ∧
        sub.bids = s.restored.pending.head? ∧ Signs cfg seed sub) ∧
      ∀ ws, (s.messagesForCurrentRound cfg quiet seed).2 = .ok ws →
        ws = (s.submission cfg quiet seed).toList.map Submission.wire) ∧
    (s.takePendingMessages.2 = (s.inflight.map Prod.fst).toList ++ s.pending.map Prod.fst ∧
      s.takePendingMessages.1.held = 0 ∧
      ∀ outbox, s.drop outbox = s.takePendingMessages.2 ++ outbox) ∧
    (∀ round quiet seed, ∃ more,
      (s.beginRound cfg round quiet seed).1 = after cfg initial startingRound (ops ++ more)) ∧
    ∀ payload quiet seed, ∃ more,
      (s.onInbound cfg payload quiet seed).1 = after cfg initial startingRound (ops ++ more) := by
  intro s
  have htracks : Tracks s (submissions cfg initial startingRound ops) := tracks_after ops
  obtain ⟨htaken, hnone⟩ := takePendingMessages_eq s
  refine ⟨held_after ops, htracks.rounds, fun quiet seed => ⟨fun sub hsub => ?_, fun ws hws => ?_⟩,
    ⟨htaken, hnone, drop_eq s⟩, isRun_beginRound ops, isRun_onInbound ops⟩
  · rcases messages_cases cfg s quiet seed with ⟨hno, -⟩ |
      ⟨sub', hsub', -, hround, hprev, -, hbids, -⟩
    · rw [hno] at hsub
      cases hsub
    · cases hsub'.symm.trans hsub
      exact ⟨htracks.answers hsub, hround, hprev, hbids, signs_submission hsub⟩
  · rcases messages_cases cfg s quiet seed with ⟨hno, -, hout⟩ | ⟨sub, hsub, -, -, -, -, -, hm⟩
    · rw [hno]
      exact hout ws hws
    · rw [hm] at hws
      cases hws
      rw [hsub]
      rfl

end ScheduledAdcnetClientSession
end Anymone
