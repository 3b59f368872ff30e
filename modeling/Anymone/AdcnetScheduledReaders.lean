import Anymone.AdcnetScheduledSubnet

/-! # What the readers of a scheduled ADCNet subnet read

The leader publishes one result in a round, whether its clients came or not.  A reader takes a
result that is newer than the last, and reads its messages by the auction of the result before,
which it has to have taken; so what is read in a round is the same for everyone, and no round is
read twice (`watchers_agree`).
-/

namespace Anymone
namespace ScheduledAdcnet
variable {C : ServiceCrate}

/-- The round of a service: its calls keep it, and a result is for it. -/
structure ServiceCrate.KeepsRound (C : ServiceCrate) (round : C.Svc → Int) : Prop where
  advance : ∀ svc t, round (C.advanceToRound svc t) = t
  register : ∀ svc pk xpub, round (C.registerClient svc pk xpub).1 = round svc
  deregister : ∀ svc pk, round (C.deregisterClient svc pk) = round svc
  process : ∀ svc message, round (C.processClientMessage svc message).1 = round svc
  finalize : ∀ svc, round (C.finalizePartial svc).1 = round svc
  combine : ∀ svc signed, round (C.processPartial svc signed).1 = round svc
  result : ∀ svc signed, ∀ b ∈ (C.processPartial svc signed).2, b.roundNumber = round svc

namespace ServerSession
open ServerOp
variable {cfg : ServerConfig C} {s s' : ServerSession C} {round : C.Svc → Int}

/-! ## The results of a leader -/

/-- The service is in the round of the relay, and so is the result that waits. -/
structure Timed (round : C.Svc → Int) (s : ServerSession C) : Prop where
  svc : round s.svc = s.currentRound
  pending : ∀ b ∈ s.pendingBroadcast, b.roundNumber = s.currentRound

/-- A call that publishes nothing and stays in the round. -/
structure Quiet (round : C.Svc → Int) (s s' : ServerSession C) : Prop where
  current : s'.currentRound = s.currentRound
  published : s'.published = s.published
  timed : Timed round s → Timed round s'

theorem Quiet.refl (s : ServerSession C) : Quiet round s s := ⟨rfl, rfl, id⟩

theorem Quiet.trans {s'' : ServerSession C} (h : Quiet round s s') (h' : Quiet round s' s'') :
    Quiet round s s'' :=
  ⟨h'.current.trans h.current, h'.published.trans h.published, fun ht => h'.timed (h.timed ht)⟩

/-- The service moves within its round. -/
theorem quiet_svc (s : ServerSession C) {svc : C.Svc} (h : round svc = round s.svc) :
    Quiet round s { s with svc := svc } :=
  ⟨rfl, rfl, fun ht => ⟨h.trans ht.svc, ht.pending⟩⟩

theorem quiet_onClient (s : ServerSession C) (good : Pubkey → Bool) (client : C.Client) :
    Quiet round s (s.onClient cfg good client) := by
  have hkeeps : ∀ s' : ServerSession C, s'.svc = s.svc → s'.currentRound = s.currentRound →
      s'.pendingBroadcast = s.pendingBroadcast → s'.published = s.published → Quiet round s s' := by
    intro s' hsvc hcurrent hpending hpublished
    refine ⟨hcurrent, hpublished, fun ht => ⟨?_, ?_⟩⟩
    · rw [hsvc, hcurrent]
      exact ht.svc
    · rw [hpending, hcurrent]
      exact ht.pending
  unfold onClient
  dsimp only
  split
  · split
    · split
      · exact .refl s
      · exact hkeeps _ rfl rfl rfl rfl
    · exact .refl s
  · split
    · split
      · exact .refl s
      · exact hkeeps _ rfl rfl rfl rfl
    · exact .refl s

theorem quiet_registerAll (hround : C.KeepsRound round) :
    ∀ (l : List (C.Client × Pubkey × C.ExchangePublicKey)) (s : ServerSession C),
      Quiet round s (registerAll s l).1
  | [], s => .refl s
  | (client, pk, xpub) :: rest, s => by
      have hregister := hround.register s.svc pk.val xpub
      unfold registerAll
      split
      next svc hrefused =>
        rw [hrefused] at hregister
        exact quiet_svc s hregister
      next svc hregistered =>
        rw [hregistered] at hregister
        have hprocess := hround.process svc client.message
        split
        next svc' hrefused =>
          rw [hrefused] at hprocess
          exact ⟨rfl, rfl, fun ht => ⟨(hprocess.trans hregister).trans ht.svc, ht.pending⟩⟩
        next svc' hprocessed =>
          rw [hprocessed] at hprocess
          have hrest := quiet_registerAll hround rest
            { s with svc := svc', registeredClients := s.registeredClients ++ [pk.val] }
          exact ⟨hrest.current, hrest.published, fun ht =>
            hrest.timed ⟨(hprocess.trans hregister).trans ht.svc, ht.pending⟩⟩

/-- A result that is combined waits for its round. -/
theorem quiet_pending (s : ServerSession C) {svc : C.Svc} {b : C.Broadcast}
    (h : round svc = round s.svc) (hb : b.roundNumber = round s.svc) :
    Quiet round s { s with svc := svc, pendingBroadcast := some b } := by
  refine ⟨rfl, rfl, fun ht => ⟨h.trans ht.svc, fun b' hb' => ?_⟩⟩
  cases hb'
  exact hb.trans ht.svc

theorem quiet_disclose (hround : C.KeepsRound round) (s : ServerSession C) (t : Int)
    (clients : List C.Client) : Quiet round s (s.disclose cfg t clients).1 := by
  unfold disclose
  split
  · exact .refl s
  · have hfinal := hround.finalize s.svc
    split
    next svc hnone =>
      rw [hnone] at hfinal
      exact quiet_svc s hfinal
    next svc share hsome =>
      rw [hsome] at hfinal
      dsimp only
      generalize C.signPartial svc
        (if s.misbehavior = some .corruptShare then C.corrupt share else share) = signed
      have hcombine := hround.combine svc signed
      have hresult := hround.result svc signed
      split
      · split
        next svc' hnone =>
          rw [hnone] at hcombine
          exact quiet_svc s (hcombine.trans hfinal)
        next svc' b hsome =>
          rw [hsome] at hcombine hresult
          exact quiet_pending s (hcombine.trans hfinal) ((hresult b rfl).trans hfinal)
      · exact quiet_svc s hfinal

theorem quiet_onClientSet (hround : C.KeepsRound round) (s : ServerSession C)
    (good : Pubkey → Bool) (signed : C.SignedSet) :
    Quiet round s (s.onClientSet cfg good signed).1 := by
  have hselect : Quiet round s { s with selected := true } :=
    ⟨rfl, rfl, fun ht => ⟨ht.svc, ht.pending⟩⟩
  unfold onClientSet
  split
  · exact .refl s
  · split
    · exact .refl s
    next keys hopen =>
      have hreg := quiet_registerAll hround (signed.object.clients.zip keys)
        { s with selected := true }
      split
      next s' hall =>
        rw [hall] at hreg
        exact hselect.trans hreg
      next s' hall =>
        rw [hall] at hreg
        exact (hselect.trans hreg).trans (quiet_disclose hround s' _ _)

theorem quiet_emptied (s : ServerSession C) : Quiet round s (s.emptied cfg) := by
  unfold emptied
  split
  · exact ⟨rfl, rfl, fun ht => ⟨ht.svc, ht.pending⟩⟩
  · exact .refl s

/-- What a call publishes: nothing, or the one result of the round. -/
inductive Publishes (s s' : ServerSession C) : List C.SignedResult → Prop where
  | quiet (hcurrent : s'.currentRound = s.currentRound) (hpublished : s'.published = s.published) :
      Publishes s s' []
  | published (hcurrent : s'.currentRound = s.currentRound) (hfree : s.published = false)
      (hdone : s'.published = true) (result : C.SignedResult)
      (hresult : result.object.broadcast.roundNumber = s.currentRound) :
      Publishes s s' [result]

theorem Publishes.of_quiet {s₀ : ServerSession C} {results : List C.SignedResult}
    (hquiet : Quiet round s₀ s) (h : Publishes s s' results) : Publishes s₀ s' results := by
  cases h with
  | quiet hcurrent hpublished =>
    exact .quiet (hcurrent.trans hquiet.current) (hpublished.trans hquiet.published)
  | published hcurrent hfree hdone result hresult =>
    exact .published (hcurrent.trans hquiet.current) (hquiet.published ▸ hfree) hdone result
      (hresult.trans hquiet.current)

theorem publishes_broadcastResult (hlaws : C.Signs) (ht : Timed round s) :
    Publishes s (s.broadcastResult cfg).1 ((s.broadcastResult cfg).2.filterMap Sent.result?) ∧
      Timed round (s.broadcastResult cfg).1 := by
  unfold broadcastResult
  split
  · exact ⟨.quiet rfl rfl, ht⟩
  next hgo =>
    have hfree : s.published = false := by
      simp only [Bool.or_eq_true, not_or, Bool.not_eq_true] at hgo
      exact hgo.2
    have hround : (C.signResult cfg.signingKey
        ⟨s.pendingBroadcast.getD (emptyBroadcast cfg s.currentRound),
          s.pendingBroadcast.isSome⟩).object.broadcast.roundNumber = s.currentRound := by
      rw [hlaws.result]
      cases hpending : s.pendingBroadcast with
      | none => rfl
      | some b => exact ht.pending b hpending
    generalize hresult : C.signResult cfg.signingKey
        ⟨s.pendingBroadcast.getD (emptyBroadcast cfg s.currentRound),
          s.pendingBroadcast.isSome⟩ = result at hround
    dsimp only
    rw [hresult]
    refine ⟨Publishes.published ?_ hfree ?_ result hround, ht.svc, nofun⟩
    · rfl
    · rfl

/-- **What a call does to the results of a relay.** -/
theorem publishes_call (hlaws : C.Signs) (hround : C.KeepsRound round) (ht : Timed round s)
    {op : ServerOp C} (hop : op.beginning = none) :
    Publishes s (s.call cfg op).1 (s.resultsOf cfg op) ∧ Timed round (s.call cfg op).1 := by
  have hquiet : ∀ s', Quiet round s s' → Publishes s s' [] ∧ Timed round s' := fun s' h =>
    ⟨.quiet h.current h.published, h.timed ht⟩
  cases op with
  | begin r good => cases hop
  | inbound good msg =>
    rcases msg with _ | client | signed | signed | signed
    · exact hquiet s (.refl s)
    · refine hquiet _ ?_
      show Quiet round s (if isLeader cfg then s.onClient cfg good client else s)
      split
      · exact quiet_onClient s good client
      · exact .refl s
    · have hresults : s.resultsOf cfg (.inbound good (some (.clientSet signed))) = [] :=
        results_decryption _
      rw [hresults]
      exact hquiet _ (quiet_onClientSet hround s good signed)
    · unfold resultsOf
      show Publishes s (if isLeader cfg then s.onPartial cfg signed else (s, [])).1
          ((if isLeader cfg then s.onPartial cfg signed else (s, [])).2.filterMap Sent.result?) ∧
        Timed round (if isLeader cfg then s.onPartial cfg signed else (s, [])).1
      split
      · unfold onPartial
        have hcombine := hround.combine s.svc signed
        have hresult := hround.result s.svc signed
        split
        next svc hnone =>
          rw [hnone] at hcombine
          exact hquiet _ (quiet_svc s hcombine)
        next svc b hsome =>
          rw [hsome] at hcombine hresult
          -- the last partial makes a result, which waits until it is sent
          have hwaits := quiet_pending s hcombine (hresult b rfl)
          obtain ⟨hpublishes, htimed⟩ := @publishes_broadcastResult _ cfg _ _ hlaws
            (hwaits.timed ht)
          exact ⟨hpublishes.of_quiet hwaits, htimed⟩
      · exact hquiet s (.refl s)
    · refine hquiet _ ?_
      show Quiet round s (s.onBroadcast cfg signed)
      unfold onBroadcast
      split
      · exact ⟨rfl, rfl, fun ht => ⟨ht.svc, ht.pending⟩⟩
      · exact .refl s
  | checkpoint k good =>
    rcases @checkpoint_eq _ cfg s k good with hnone | ⟨-, -, -, heq⟩
    · unfold resultsOf
      rw [show s.call cfg (.checkpoint k good) = (s, []) from hnone]
      exact hquiet s (.refl s)
    -- a checkpoint of the leader opens its own set and may close the round
    · have hopened : Quiet round s (s.opened cfg good).1 :=
        (quiet_emptied s).trans (quiet_onClientSet hround (s.emptied cfg) good _)
      have hresults : s.resultsOf cfg (.checkpoint k good) =
          ((s.opened cfg good).1.closing cfg).2.filterMap Sent.result? := by
        show (s.checkpoint cfg k good).2.filterMap Sent.result? = _
        rw [heq]
        show ((s.opened cfg good).2.map Sent.decryption ++ _).filterMap Sent.result? = _
        rw [List.filterMap_append, results_decryption, List.nil_append]
      have hsession : (s.call cfg (.checkpoint k good)).1 =
          ((s.opened cfg good).1.closing cfg).1 := by
        show (s.checkpoint cfg k good).1 = _
        rw [heq]
      rw [hresults, hsession]
      unfold closing
      split
      · obtain ⟨hpublishes, htimed⟩ := @publishes_broadcastResult _ cfg _ _ hlaws
          (hopened.timed ht)
        exact ⟨hpublishes.of_quiet hopened, htimed⟩
      · exact hquiet _ hopened
  | finish => exact publishes_broadcastResult hlaws ht
  | setMisbehavior mode => exact hquiet _ ⟨rfl, rfl, fun ht => ⟨ht.svc, ht.pending⟩⟩

/-- The round of a result. -/
def resultRound (signed : C.SignedResult) : Int := signed.object.broadcast.roundNumber

/-- The results a relay signs in a run. -/
def results (cfg : ServerConfig C) (svc : C.Svc) (ops : List (ServerOp C)) :
    List C.SignedResult :=
  Trace.observed (new cfg svc 1) (fun s op => (call cfg s op).1) (resultsOf cfg) ops

/-- What the results of a run keep. -/
structure Published (round : C.Svc → Int) (rounds : List Round) (s : ServerSession C)
    (results : List C.SignedResult) : Prop where
  once : (results.map resultRound).Nodup
  begun : ∀ r ∈ results, resultRound r ∈ rounds.map wireRound
  /-- As long as the round has no result, none has been signed for it. -/
  free : s.published = false → ∀ r ∈ results, resultRound r ≠ s.currentRound
  timed : Timed round s

theorem round_deregister (hround : C.KeepsRound round) (pks : List PublicKey) (svc : C.Svc) :
    round (pks.foldl C.deregisterClient svc) = round svc := by
  induction pks generalizing svc with
  | nil => rfl
  | cons pk pks ih => exact (ih (C.deregisterClient svc pk)).trans (hround.deregister svc pk)

/-- What a call other than a begin publishes. -/
theorem Published.publishes {rounds : List Round} {results new : List C.SignedResult}
    (h : Published round rounds s results) (hcurrent : s.currentRound ∈ rounds.map wireRound)
    (hpublishes : Publishes s s' new) (htimed : Timed round s') :
    Published round rounds s' (results ++ new) := by
  cases hpublishes with
  | quiet hround hpublished =>
    rw [List.append_nil]
    refine ⟨h.once, h.begun, fun hfree => ?_, htimed⟩
    rw [hround]
    exact h.free (hpublished ▸ hfree)
  | published hround hfree hdone result hresult =>
    have hnew := h.free hfree
    refine ⟨?_, ?_, fun hnot => absurd (hdone.symm.trans hnot) nofun, htimed⟩
    · rw [List.map_append, List.map_singleton]
      refine List.Nodup.append h.once (List.nodup_singleton _)
        (List.disjoint_singleton.mpr fun hmem => ?_)
      obtain ⟨other, hother, heq⟩ := List.mem_map.mp hmem
      exact hnew other hother (heq.trans hresult)
    · intro r hr
      rcases List.mem_append.mp hr with hr | hr
      · exact h.begun r hr
      · rw [List.mem_singleton.mp hr, resultRound, hresult]
        exact hcurrent

theorem published_after (hlaws : C.Signs) (hround : C.KeepsRound round) (cfg : ServerConfig C)
    (svc : C.Svc) {ops : List (ServerOp C)} (hdriven : Driven ops) :
    Published round (begun ops) (after cfg svc ops) (results cfg svc ops) := by
  induction ops using List.reverseRecOn with
  | nil => exact ⟨List.nodup_nil, nofun, fun _ => nofun, hround.advance svc 1, nofun⟩
  | append_singleton ops op ih =>
    have ih := ih (hdriven.of_isPrefix (List.prefix_append ops [op]))
    have hcurrent := currentRound_after cfg svc ops
    unfold after at ih hcurrent ⊢
    unfold results at ih ⊢
    rw [Trace.run_concat, Trace.observed_concat, begun_concat]
    generalize Trace.run (new cfg svc 1) (fun s op => (call cfg s op).1) ops = s at ih hcurrent ⊢
    cases hop : op.beginning with
    | some r =>
      cases op with
      | begin r' good =>
        cases hop
        have hresults : resultsOf cfg s (.begin r good) = [] := rfl
        rw [hresults, List.append_nil]
        refine ⟨ih.once, ?_, ?_, ?_, nofun⟩
        · intro result hresult
          rw [List.map_append]
          exact List.mem_append_left _ (ih.begun result hresult)
        · -- The round is new, so none of the results is for it.
          intro _ result hresult heq
          have heq : resultRound result = wireRound r := heq
          exact hdriven.fresh rfl (heq ▸ ih.begun result hresult)
        · exact (round_deregister hround _ _).trans (hround.advance _ _)
      | _ => cases hop
    | none =>
      obtain ⟨r, hlast, hr⟩ := hcurrent (hdriven.begun_ne_nil hop)
      have hmem : s.currentRound ∈ (begun ops).map wireRound :=
        hr ▸ List.mem_map_of_mem (List.mem_of_getLast? hlast)
      rw [show begun ops ++ (none : Option Round).toList = begun ops from List.append_nil _]
      obtain ⟨hpublishes, htimed⟩ := @publishes_call _ cfg _ _ hlaws hround ih.timed _ hop
      exact ih.publishes hmem hpublishes htimed

end ServerSession

/-! ## A reader -/

open ScheduledAdcnet.ServerSession

namespace WatchSession
variable {cfg : ServerConfig C}

/-- The result of a round. -/
def resultOf (results : List C.SignedResult) (t : Int) : Option C.SignedResult :=
  results.find? (fun r => decide (resultRound r = t))

/-- What is read in a round: the messages of its result by the auction of the result before. -/
def payloadsIn (cfg : ServerConfig C) (results : List C.SignedResult) (t : Int) : List Bytes :=
  match resultOf results t, resultOf results (t - 1) with
  | some result, some previous =>
      if result.object.completed then
        extractPayloads cfg result.object.broadcast previous.object.broadcast.auctionVector
      else []
  | _, _ => []

theorem resultOf_eq {results : List C.SignedResult} (honce : (results.map resultRound).Nodup)
    {r : C.SignedResult} (hr : r ∈ results) : resultOf results (resultRound r) = some r := by
  unfold resultOf
  cases hfind : results.find? (fun r' => decide (resultRound r' = resultRound r)) with
  | none =>
    have hnot := List.find?_eq_none.mp hfind r hr
    simp at hnot
  | some r' =>
    have heq : resultRound r' = resultRound r := by simpa using List.find?_some hfind
    rw [List.inj_on_of_nodup_map honce (List.mem_of_find?_eq_some hfind) hr heq]

/-- The results of the leader that come, by their rounds. -/
def cameOf (cfg : ServerConfig C) : WatchOp C → Option Int
  | .inbound (some (.broadcast signed)) =>
      if C.recoverResult signed = some cfg.leader.val then some (resultRound signed) else none
  | _ => none

def came (cfg : ServerConfig C) (ops : List (WatchOp C)) : List Int := ops.filterMap (cameOf cfg)

/-- What comes under the leader's key is a result of the leader. -/
def Genuine (cfg : ServerConfig C) (results : List C.SignedResult) (ops : List (WatchOp C)) :
    Prop :=
  ∀ op ∈ ops, ∀ signed, op = .inbound (some (.broadcast signed)) →
    C.recoverResult signed = some cfg.leader.val → ∃ own ∈ results, own.object = signed.object

/-- A result comes when the results before it have come. -/
def Prompt (cfg : ServerConfig C) (results : List C.SignedResult) (ops : List (WatchOp C)) : Prop :=
  ∀ σ ∈ Trace.steps ops, ∀ t ∈ cameOf cfg σ.2, ∀ r ∈ results, resultRound r < t →
    resultRound r ∈ came cfg σ.1

/-- What a call reads. -/
def reads (cfg : ServerConfig C) (w : WatchSession C) : WatchOp C → List Bytes
  | .inbound (some (.broadcast signed)) =>
      if w.accepts cfg signed then w.payloads cfg signed else []
  | _ => []

theorem read_concat (ops : List (WatchOp C)) (op : WatchOp C) :
    read cfg (ops ++ [op]) = read cfg ops ++ reads cfg (after cfg ops) op := by
  unfold read after
  rw [Trace.observed_concat, Trace.run_concat]
  generalize Trace.run (new : WatchSession C) (fun w op => (call cfg w op).1) ops = w
  rw [List.append_assoc, List.append_assoc]
  congr 1
  cases op with
  | endRound => rfl
  | inbound msg =>
    rcases msg with _ | client | signed | signed | signed
    · exact (List.append_nil _).symm
    · exact (List.append_nil _).symm
    · exact (List.append_nil _).symm
    · exact (List.append_nil _).symm
    · show [] ++ (if w.accepts cfg signed then _ else w : WatchSession C).decoded =
        w.decoded ++ (if w.accepts cfg signed then w.payloads cfg signed else [])
      split
      · rfl
      · exact (List.append_nil _).symm

/-- A reader on its way: `rounds` are those it has read. -/
structure Reading (cfg : ServerConfig C) (results : List C.SignedResult) (prompt : Prop)
    (came : List Int) (w : WatchSession C) (read : List Bytes) (rounds : List Int) : Prop where
  increasing : rounds.Pairwise (· < ·)
  subset : ∀ t ∈ rounds, t ∈ came
  all : prompt → ∀ t ∈ came, t ∈ rounds
  output : read = rounds.flatMap (payloadsIn cfg results)
  upTo : ∀ t ∈ came, ∃ b ∈ w.previous, t ≤ b.roundNumber
  previous : ∀ b ∈ w.previous, ∃ r ∈ results, r.object.broadcast = b ∧ resultRound r ∈ came

theorem payloads_eq {w : WatchSession C} {results : List C.SignedResult}
    (honce : (results.map resultRound).Nodup) {own p signed : C.SignedResult} (hown : own ∈ results)
    (hobject : own.object = signed.object) (hp : p ∈ results)
    (hprevious : w.previous = some p.object.broadcast)
    (hnext : resultRound p + 1 = resultRound signed) :
    w.payloads cfg signed = payloadsIn cfg results (resultRound signed) := by
  have hround : resultRound own = resultRound signed := by rw [resultRound, hobject]; rfl
  have hbefore : resultRound signed - 1 = resultRound p := by omega
  unfold payloads payloadsIn
  rw [hprevious, hbefore, ← hround, resultOf_eq honce hown, resultOf_eq honce hp]
  have hnext : p.object.broadcast.roundNumber + 1 = signed.object.broadcast.roundNumber := hnext
  simp only [hobject, hnext, decide_true, Bool.and_true]

/-- What is read of a result that does not follow on the last: nothing. -/
theorem payloads_eq_nil {w : WatchSession C} {signed : C.SignedResult}
    (h : ∀ b ∈ w.previous, b.roundNumber + 1 ≠ resultRound signed) :
    w.payloads cfg signed = [] := by
  unfold payloads
  cases hprevious : w.previous with
  | none => rfl
  | some b =>
    have hnot : ¬ b.roundNumber + 1 = signed.object.broadcast.roundNumber := h b hprevious
    simp [hnot]

theorem payloadsIn_eq_nil {results : List C.SignedResult} {t : Int}
    (h : ∀ r ∈ results, resultRound r ≠ t - 1) : payloadsIn cfg results t = [] := by
  have hnone : resultOf results (t - 1) = none :=
    List.find?_eq_none.mpr (fun r hr => by simpa using h r hr)
  unfold payloadsIn
  rw [hnone]
  split
  · cases ‹none = some _›
  · rfl

/-- A result that is taken. -/
theorem Reading.take {results : List C.SignedResult} {prompt : Prop} {came : List Int}
    {w : WatchSession C} {read : List Bytes} {rounds : List Int}
    (h : Reading cfg results prompt came w read rounds) (honce : (results.map resultRound).Nodup)
    {own signed : C.SignedResult} (hown : own ∈ results) (hobject : own.object = signed.object)
    (hnewer : ∀ b ∈ w.previous, b.roundNumber < resultRound signed)
    (hprompt : prompt → ∀ r ∈ results, resultRound r < resultRound signed →
      resultRound r ∈ came) :
    ∃ rounds', Reading cfg results prompt (came ++ [resultRound signed])
      ⟨some signed.object.broadcast, w.decoded ++ w.payloads cfg signed⟩
      (read ++ w.payloads cfg signed) rounds' := by
  -- whatever came before is of an earlier round
  have hold : ∀ t ∈ came, t < resultRound signed := by
    intro t ht
    obtain ⟨b, hb, hle⟩ := h.upTo t ht
    exact lt_of_le_of_lt hle (hnewer b hb)
  have hupTo : ∀ t ∈ came ++ [resultRound signed], ∃ b ∈ some signed.object.broadcast,
      t ≤ b.roundNumber := by
    intro t ht
    refine ⟨_, rfl, ?_⟩
    rcases List.mem_append.mp ht with ht | ht
    · exact (hold t ht).le
    · exact le_of_eq (List.mem_singleton.mp ht)
  have hprevious : ∀ b ∈ some signed.object.broadcast, ∃ r ∈ results, r.object.broadcast = b ∧
      resultRound r ∈ came ++ [resultRound signed] := by
    rintro b ⟨⟩
    refine ⟨own, hown, by rw [hobject], List.mem_append_right _ (List.mem_singleton.mpr ?_)⟩
    rw [resultRound, hobject]
    rfl
  by_cases heq : w.payloads cfg signed = payloadsIn cfg results (resultRound signed)
  · refine ⟨rounds ++ [resultRound signed], ?_, ?_, ?_, ?_, hupTo, hprevious⟩
    · refine List.pairwise_append.mpr ⟨h.increasing, List.pairwise_singleton _ _, ?_⟩
      intro t ht t' ht'
      rw [List.mem_singleton.mp ht']
      exact hold t (h.subset t ht)
    · intro t ht
      rcases List.mem_append.mp ht with ht | ht
      · exact List.mem_append_left _ (h.subset t ht)
      · exact List.mem_append_right _ ht
    · intro hp t ht
      rcases List.mem_append.mp ht with ht | ht
      · exact List.mem_append_left _ (h.all hp t ht)
      · exact List.mem_append_right _ ht
    · rw [List.flatMap_append, ← h.output, heq]
      simp
  · -- The result before was missed, which does not happen to a prompt reader.
    have hgap : ∀ b ∈ w.previous, b.roundNumber + 1 ≠ resultRound signed := by
      intro b hb hnext
      obtain ⟨p, hp, rfl, -⟩ := h.previous b hb
      exact heq (payloads_eq honce hown hobject hp hb hnext)
    have hnil := @payloads_eq_nil _ cfg _ _ hgap
    refine ⟨rounds, h.increasing, fun t ht => List.mem_append_left _ (h.subset t ht), ?_, ?_, hupTo,
      hprevious⟩
    · intro hp
      refine absurd ?_ heq
      rw [hnil]
      refine (payloadsIn_eq_nil fun r hr hbefore => ?_).symm
      obtain ⟨b, hb, hle⟩ := h.upTo _ (hprompt hp r hr (by omega))
      have := hnewer b hb
      exact hgap b hb (by omega)
    · rw [hnil, List.append_nil]
      exact h.output

/-- A result that is not newer than the last. -/
theorem Reading.skip {results : List C.SignedResult} {prompt : Prop} {came : List Int}
    {w : WatchSession C} {read : List Bytes} {rounds : List Int}
    (h : Reading cfg results prompt came w read rounds) {t : Int}
    (hold : ∃ b ∈ w.previous, t ≤ b.roundNumber) (hprompt : prompt → t ∈ came) :
    Reading cfg results prompt (came ++ [t]) w read rounds := by
  refine ⟨h.increasing, fun t ht => List.mem_append_left _ (h.subset t ht), ?_, h.output, ?_, ?_⟩
  · intro hp t' ht'
    rcases List.mem_append.mp ht' with ht' | ht'
    · exact h.all hp t' ht'
    · exact List.mem_singleton.mp ht' ▸ h.all hp t (hprompt hp)
  · intro t' ht'
    rcases List.mem_append.mp ht' with ht' | ht'
    · exact h.upTo t' ht'
    · exact List.mem_singleton.mp ht' ▸ hold
  · intro b hb
    obtain ⟨r, hr, heq, hcame⟩ := h.previous b hb
    exact ⟨r, hr, heq, List.mem_append_left _ hcame⟩

theorem came_concat (ops : List (WatchOp C)) (op : WatchOp C) :
    came cfg (ops ++ [op]) = came cfg ops ++ (cameOf cfg op).toList := by
  unfold came
  rw [List.filterMap_append]
  cases h : cameOf cfg op with
  | none => simp [h]
  | some t => simp [h]

theorem Prompt.of_isPrefix {results : List C.SignedResult} {l ops : List (WatchOp C)}
    (h : Prompt cfg results ops) (hl : l <+: ops) : Prompt cfg results l :=
  fun σ hσ => h σ (Trace.mem_steps_mono hl hσ)

/-- Whatever came, the results before it have come. -/
theorem Prompt.below {results : List C.SignedResult} {ops : List (WatchOp C)}
    (h : Prompt cfg results ops) {t : Int} (ht : t ∈ came cfg ops) {r : C.SignedResult}
    (hr : r ∈ results) (hlt : resultRound r < t) : resultRound r ∈ came cfg ops := by
  obtain ⟨op, hop, hcame⟩ := List.mem_filterMap.mp ht
  obtain ⟨pre, hσ⟩ := Trace.exists_step_of_mem hop
  have hbefore := h (pre, op) hσ t hcame r hr hlt
  obtain ⟨post, rfl⟩ := Trace.mem_steps.mp hσ
  unfold came at hbefore ⊢
  rw [List.filterMap_append]
  exact List.mem_append_left _ hbefore

theorem reading_after {results : List C.SignedResult} (honce : (results.map resultRound).Nodup)
    (hpositive : ∀ r ∈ results, 1 ≤ resultRound r) {ops : List (WatchOp C)}
    (hgenuine : Genuine cfg results ops) :
    ∃ rounds, Reading cfg results (Prompt cfg results ops) (came cfg ops) (after cfg ops)
      (read cfg ops) rounds := by
  induction ops using List.reverseRecOn with
  | nil => exact ⟨[], List.Pairwise.nil, nofun, fun _ => nofun, rfl, nofun, nofun⟩
  | append_singleton ops op ih =>
    obtain ⟨rounds, ih⟩ := ih (fun op' hop' => hgenuine op' (List.mem_append_left _ hop'))
    have ih : Reading cfg results (Prompt cfg results (ops ++ [op])) (came cfg ops)
        (after cfg ops) (read cfg ops) rounds :=
      { ih with all := fun hp => ih.all (hp.of_isPrefix (List.prefix_append ops [op])) }
    have hbelow : Prompt cfg results (ops ++ [op]) → ∀ t ∈ cameOf cfg op, ∀ r ∈ results,
        resultRound r < t → resultRound r ∈ came cfg ops := by
      intro hp
      exact hp (ops, op) (by rw [Trace.steps_concat]; simp)
    have hafter : after cfg (ops ++ [op]) = ((after cfg ops).call cfg op).1 := by
      unfold after
      exact Trace.run_concat _ _ _ _
    rw [read_concat, hafter, came_concat]
    -- A call that brings no result of the leader leaves the reading as it is.
    have hidle : cameOf cfg op = none → reads cfg (after cfg ops) op = [] →
        ((after cfg ops).call cfg op).1.previous = (after cfg ops).previous →
        ∃ rounds, Reading cfg results (Prompt cfg results (ops ++ [op]))
          (came cfg ops ++ (cameOf cfg op).toList) ((after cfg ops).call cfg op).1
          (read cfg ops ++ reads cfg (after cfg ops) op) rounds := by
      intro hcame hreads hprevious
      rw [hcame, hreads, List.append_nil]
      refine ⟨rounds, ih.increasing, ?_, ?_, ih.output, ?_, ?_⟩
      · simpa using ih.subset
      · simpa using ih.all
      · simpa [hprevious] using ih.upTo
      · simpa [hprevious] using ih.previous
    cases op with
    | endRound => exact hidle rfl rfl rfl
    | inbound msg =>
      rcases msg with _ | client | signed | signed | signed
      · exact hidle rfl rfl rfl
      · exact hidle rfl rfl rfl
      · exact hidle rfl rfl rfl
      · exact hidle rfl rfl rfl
      · by_cases hleader : C.recoverResult signed = some cfg.leader.val
        · obtain ⟨own, hown, hobject⟩ := hgenuine _ (List.mem_append_right _
            (List.mem_singleton.mpr rfl)) signed rfl hleader
          have hround : resultRound own = resultRound signed := by rw [resultRound, hobject]; rfl
          have hcame : cameOf cfg (.inbound (some (.broadcast signed))) =
              some (resultRound signed) := if_pos hleader
          have hlow : 1 ≤ resultRound signed := hround ▸ hpositive own hown
          rw [hcame] at hbelow ⊢
          show ∃ rounds, Reading cfg results _ (came cfg ops ++ [resultRound signed])
            (if (after cfg ops).accepts cfg signed then _ else after cfg ops)
            (read cfg ops ++ if (after cfg ops).accepts cfg signed then _ else []) rounds
          by_cases haccepts : (after cfg ops).accepts cfg signed = true
          · rw [if_pos haccepts, if_pos haccepts]
            refine ih.take honce hown hobject ?_ (fun hp => hbelow hp _ rfl)
            intro b hb
            have hall := (Bool.and_eq_true_iff.mp haccepts).2
            rw [hb] at hall
            exact of_decide_eq_true hall
          · rw [if_neg haccepts, if_neg haccepts, List.append_nil]
            -- What is refused is not newer than the last.
            have hold : ∃ b ∈ (after cfg ops).previous, resultRound signed ≤ b.roundNumber := by
              unfold accepts at haccepts
              have hlow : 1 ≤ signed.object.broadcast.roundNumber := hlow
              rw [decide_eq_true hleader, decide_eq_true hlow] at haccepts
              cases hprevious : (after cfg ops).previous with
              | none =>
                rw [hprevious] at haccepts
                exact absurd rfl haccepts
              | some b =>
                rw [hprevious] at haccepts
                have hle : signed.object.broadcast.roundNumber ≤ b.roundNumber := by
                  simpa using haccepts
                exact ⟨b, rfl, hle⟩
            refine ⟨rounds, ih.skip hold fun hp => ?_⟩
            obtain ⟨b, hb, hle⟩ := hold
            obtain ⟨r, hr, rfl, hrcame⟩ := ih.previous b hb
            have hle : resultRound signed ≤ resultRound r := hle
            rcases eq_or_lt_of_le hle with heq | hlt
            · exact heq ▸ hrcame
            · exact hround ▸ (hp.of_isPrefix (List.prefix_append ops _)).below hrcame hown
                (hround.symm ▸ hlt)
        · have haccepts : (after cfg ops).accepts cfg signed = false := by
            unfold accepts
            rw [decide_eq_false hleader]
            rfl
          refine hidle (if_neg hleader) (if_neg (by rw [haccepts]; nofun)) ?_
          show (if (after cfg ops).accepts cfg signed then _ else after cfg ops :
            WatchSession C).previous = _
          rw [haccepts]
          rfl

end WatchSession

/-! ## The readers of a subnet -/

namespace Subnet
open ServerOp WatchSession
variable (S : Subnet C)

/-- What a reader knows of the subnet: its auction and its leader. -/
def reader : ServerConfig C := S.relay S.leader

/-- The results the leader signed. -/
def published (evs : List (SubnetEvent C)) : List C.SignedResult :=
  ServerSession.results (S.relay S.leader) (S.svc S.leader) (relayOps evs S.leader)

/-- The leader runs its session, its rounds do not exceed `i64::MAX`, and a result of the leader was
signed by it. -/
structure HonestResults (evs : List (SubnetEvent C)) : Prop where
  driven : Driven (relayOps evs S.leader)
  forward : ∀ r ∈ begun (relayOps evs S.leader), 0 ≤ r.toI64
  results : ∀ σ ∈ Trace.steps evs, ∀ signed, messageOf σ.2 = some (.broadcast signed) →
    C.recoverResult signed = some S.leader.val →
      ∃ own ∈ S.published σ.1, own.object = signed.object

variable {S}

theorem published_subset {l evs : List (SubnetEvent C)} (h : l <+: evs) :
    S.published l ⊆ S.published evs := by
  intro signed hsigned
  obtain ⟨⟨pre, op⟩, hσ, hmem⟩ := List.mem_flatMap.mp hsigned
  exact List.mem_flatMap.mpr ⟨(pre, op), Trace.mem_steps_mono (relayOps_mono h _) hσ, hmem⟩

theorem genuine_watch {evs : List (SubnetEvent C)} (h : S.HonestResults evs) (w : Nat) :
    Genuine S.reader (S.published evs) (watchOps evs w) := by
  rintro op hop signed rfl hleader
  obtain ⟨e, he, hwatch⟩ := List.mem_filterMap.mp hop
  cases e with
  | relay i op' => cases hwatch
  | watch v op' =>
    dsimp only at hwatch
    split at hwatch
    · cases hwatch
      obtain ⟨pre, hσ⟩ := Trace.exists_step_of_mem he
      have hleader : C.recoverResult signed = some S.leader.val := S.follows S.leader ▸ hleader
      obtain ⟨own, hown, hobject⟩ := h.results _ hσ signed rfl hleader
      exact ⟨own, published_subset
        ((List.prefix_append pre _).trans (Trace.prefix_of_mem_steps hσ)) hown, hobject⟩
    · cases hwatch

/-- **The readers of an honest leader read the same, and nothing twice.**  The leader has one result
in a round; what a reader has read is what is in the rounds it has followed, in their order, and
those are all the rounds whose results came when none came before its time. -/
theorem watchers_agree (hlaws : C.Signs) (round : C.Svc → Int) (hround : C.KeepsRound round)
    (evs : List (SubnetEvent C)) (h : S.HonestResults evs) :
    ((S.published evs).map resultRound).Nodup ∧ ∀ w, ∃ rounds : List Int,
      rounds.Pairwise (· < ·) ∧ (∀ t ∈ rounds, t ∈ came S.reader (watchOps evs w)) ∧
      (Prompt S.reader (S.published evs) (watchOps evs w) →
        ∀ t ∈ came S.reader (watchOps evs w), t ∈ rounds) ∧
      read S.reader (watchOps evs w) =
        rounds.flatMap (payloadsIn S.reader (S.published evs)) := by
  have hpublished := published_after hlaws hround (S.relay S.leader) (S.svc S.leader) h.driven
  have hpositive : ∀ r ∈ S.published evs, 1 ≤ resultRound r := by
    intro r hr
    obtain ⟨b, hb, heq⟩ := List.mem_map.mp (hpublished.begun r hr)
    have hforward := h.forward b hb
    rw [← heq, wireRound]
    omega
  refine ⟨hpublished.once, fun w => ?_⟩
  obtain ⟨rounds, hreading⟩ :=
    reading_after hpublished.once hpositive (genuine_watch h w)
  exact ⟨rounds, hreading.increasing, hreading.subset, hreading.all, hreading.output⟩

end Subnet

/-! ## Readers to run -/

namespace Toy
open ScheduledAdcnet.Subnet WatchSession ScheduledAdcnet.ServerSession

instance : DecidableEq (ScheduledResult crate.Iblt crate.Word) :=
  inferInstanceAs (DecidableEq (ScheduledResult Nat Nat))

/-- A relay's partial comes to the leader. -/
def share : SubnetEvent crate := .relay (identity 1) (came (.decryption ⟨(), []⟩))

/-- The result of a round, under a key. -/
def result (round : Int) (words : List Nat) (key : U8) : WatchOp crate :=
  .inbound (some (.broadcast ⟨⟨⟨round, (1 : Nat), words⟩, true⟩, (identity key).1⟩))

/-- The leader has a result in each of two rounds.  Reader 0 hears both, the last twice, and one of
round 2 that is not the leader's; reader 1 hears the last only. -/
def twoResults : List (SubnetEvent crate) :=
  [.relay (identity 1) (.begin 0 good), .relay (identity 1) (.checkpoint 1 good), share,
    .watch 0 (result 1 [1] 1), .watch 0 .endRound,
    .relay (identity 1) (.begin 1 good), .relay (identity 1) (.checkpoint 1 good), share,
    .watch 0 (result 2 [9] 7), .watch 0 (result 2 [2] 1), .watch 0 (result 2 [2] 1),
    .watch 1 (result 2 [2] 1)]

/-- A result of the leader was signed by it, checked at one step. -/
def honestResult (σ : List (SubnetEvent crate) × SubnetEvent crate) : Bool :=
  match messageOf σ.2 with
  | some (.broadcast signed) =>
      decide (crate.recoverResult signed ≠ some (identity 1).1) ||
        (subnet.published σ.1).any (fun own => decide (own.object = signed.object))
  | _ => true

theorem honestResults_of_steps {evs : List (SubnetEvent crate)}
    (hdriven : Driven (relayOps evs (identity 1)))
    (hforward : (begun (relayOps evs (identity 1))).all (fun r => decide (r.val < 256)) = true)
    (h : ∀ σ ∈ Trace.steps evs, honestResult σ = true) : subnet.HonestResults evs where
  driven := hdriven
  forward r hr := by
    have hlt : r.val < 256 := of_decide_eq_true (List.all_eq_true.mp hforward r hr)
    unfold U64.toI64
    split <;> omega
  results σ hσ signed hmsg hleader := by
    have hresult := h σ hσ
    unfold honestResult at hresult
    rw [hmsg] at hresult
    rcases Bool.or_eq_true_iff.mp hresult with hother | hown
    · exact absurd hleader (of_decide_eq_true hother)
    · obtain ⟨own, hmem, heq⟩ := List.any_eq_true.mp hown
      exact ⟨own, hmem, of_decide_eq_true heq⟩

theorem keepsRound : crate.KeepsRound Prod.fst := by
  refine ⟨fun _ _ => rfl, fun _ _ _ => rfl, fun _ _ => rfl, fun _ _ => rfl, fun _ => rfl, ?_, ?_⟩
  · intro svc signed
    show (if svc.2 = 1 then (svc, some _) else ((svc.1, svc.2 + 1), none) :
      (Int × Nat) × Option crate.Broadcast).1.1 = svc.1
    split
    · rfl
    · rfl
  · intro svc signed b hb
    have hb : (if svc.2 = 1 then (svc, some ⟨svc.1, (1 : Nat), [svc.1.toNat]⟩)
      else ((svc.1, svc.2 + 1), none) : (Int × Nat) × Option crate.Broadcast).2 = some b := hb
    split at hb
    · cases hb
      rfl
    · cases hb

theorem watchers_agree_toy :
    (subnet.published twoResults).length = 2 ∧
      read subnet.reader (watchOps twoResults 0) = [[2]] ∧
      read subnet.reader (watchOps twoResults 1) = [] ∧
      ((subnet.published twoResults).map resultRound).Nodup ∧ ∀ w, ∃ rounds : List Int,
        rounds.Pairwise (· < ·) ∧
        (∀ t ∈ rounds, t ∈ WatchSession.came subnet.reader (watchOps twoResults w)) ∧
        (Prompt subnet.reader (subnet.published twoResults) (watchOps twoResults w) →
          ∀ t ∈ WatchSession.came subnet.reader (watchOps twoResults w), t ∈ rounds) ∧
        read subnet.reader (watchOps twoResults w) =
          rounds.flatMap (payloadsIn subnet.reader (subnet.published twoResults)) :=
  ⟨by decide +kernel, by decide +kernel, by decide +kernel,
    watchers_agree signs Prod.fst keepsRound twoResults
      (honestResults_of_steps ⟨by decide +kernel, by decide +kernel⟩ (by decide +kernel)
        (by decide +kernel))⟩

end Toy

end ScheduledAdcnet
end Anymone
