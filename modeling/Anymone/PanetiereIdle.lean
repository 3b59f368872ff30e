import Anymone.LivenessStreak
import Anymone.PanetiereClock
import Anymone.PanetiereHonest

/-! # A subnet with nothing to say

The leader of an unscheduled subnet publishes a decoded round only if it carries a message,
and `Decoded` is all that an observer counts as output.  A round of cover therefore looks like
a round that failed.

`Lull` is what the failure streak of a tracker is made of when every round that ran was decoded
in time: rounds with shares, one after another, and no message from the first of them on.  The
observer of such a subnet finds no fault as long as no lull is as long as its threshold
(`lively_subnet_not_blamed`), and it does in a subnet of cover alone (`cover_blamed`).
-/

namespace Anymone
variable {C : SchedulerCrate}

namespace OutputFaultTracker
open Trace
variable {ran real : Round → Prop}

/-- The rounds of a failure streak, of those that ran: from each of them to the last round
judged, no round that ran has anything real. -/
structure Lull (ran real : Round → Prop) (through : Option Round) (rounds : List Round) : Prop where
  shared : ∀ r ∈ rounds, ran r
  ordered : rounds.Pairwise (· < ·)
  quiet : ∀ first ∈ rounds, ∃ e, through = some e ∧ first ≤ e ∧
    ∀ r, first ≤ r → r ≤ e → ran r → ¬ real r

/-- Between the first and the last of `n` rounds that ran, one that ran is real. -/
def Lively (ran real : Round → Prop) (n : Nat) : Prop :=
  ∀ rounds : List Round, rounds.Pairwise (· < ·) → n ≤ rounds.length → (∀ r ∈ rounds, ran r) →
    ∃ first ∈ rounds, ∃ last ∈ rounds, ∃ r, first ≤ r ∧ r ≤ last ∧ ran r ∧ real r

namespace Lull
variable {through : Option Round} {rounds : List Round}

theorem nil (through : Option Round) : Lull ran real through [] := by
  refine ⟨?_, List.Pairwise.nil, ?_⟩ <;> simp

/-- The next round judged is not real, or did not run. -/
theorem pass (h : Lull ran real through rounds) {r : Round}
    (hnext : ∀ e, through = some e → r.val = e.val + 1) (hquiet : ran r → ¬ real r) :
    Lull ran real (some r) rounds := by
  refine ⟨h.shared, h.ordered, ?_⟩
  intro first hfirst
  obtain ⟨e, he, hle, hquiet'⟩ := h.quiet first hfirst
  have hr := hnext e he
  have hle : first.val ≤ e.val := hle
  refine ⟨r, rfl, by rw [Fin.le_def]; omega, fun r' hlo hhi => ?_⟩
  rcases Nat.lt_or_ge e.val r'.val with hlt | hge
  · have hthis : r' = r := Fin.ext (by
      have : r'.val ≤ r.val := hhi
      omega)
    exact hthis ▸ hquiet
  · exact hquiet' r' hlo hge

/-- The next round ran, is not real, and joins the lull. -/
theorem fail (h : Lull ran real through rounds) {r : Round}
    (hnext : ∀ e, through = some e → r.val = e.val + 1) (hran : ran r) (hquiet : ¬ real r) :
    Lull ran real (some r) (rounds ++ [r]) := by
  have hpass := h.pass hnext (fun _ => hquiet)
  refine ⟨?_, ?_, ?_⟩
  · intro r' hr'
    rcases List.mem_append.mp hr' with hr' | hr'
    · exact h.shared r' hr'
    · cases List.mem_singleton.mp hr'
      exact hran
  · rw [List.pairwise_append]
    refine ⟨h.ordered, List.pairwise_singleton _ _, ?_⟩
    intro a ha b hb
    cases List.mem_singleton.mp hb
    obtain ⟨e, he, hle, -⟩ := h.quiet a ha
    have hr := hnext e he
    have hle : a.val ≤ e.val := hle
    rw [Fin.lt_def]
    omega
  · intro first hfirst
    rcases List.mem_append.mp hfirst with hfirst | hfirst
    · exact hpass.quiet first hfirst
    · cases List.mem_singleton.mp hfirst
      exact ⟨r, rfl, le_rfl, fun r' hlo hhi _ => le_antisymm hhi hlo ▸ hquiet⟩

/-- In a lively history a lull is short. -/
theorem length_lt (h : Lull ran real through rounds) {n : Nat}
    (hlively : Lively ran real n) : rounds.length < n := by
  by_contra hlong
  obtain ⟨first, hfirst, last, hlast, r, hlo, hhi, hran, hreal⟩ :=
    hlively rounds h.ordered (Nat.le_of_not_lt hlong) h.shared
  obtain ⟨e, he, -, hquiet⟩ := h.quiet first hfirst
  obtain ⟨e', he', hle, -⟩ := h.quiet last hlast
  rw [he] at he'
  cases he'
  exact hquiet r hlo (hhi.trans hle) hran hreal

end Lull

/-- The failure streak is as long as some lull. -/
def Lulled (ran real : Round → Prop) (t : OutputFaultTracker) : Prop :=
  ∃ rounds, t.failRun.length = rounds.length ∧ Lull ran real t.evaluatedThrough rounds

variable {roster : List PeerId} {threshold : U64} {ops : List TrackerOp} {t : OutputFaultTracker}

theorem lulled_new (roster : List PeerId) (threshold : U64) :
    Lulled ran real (new roster threshold) := ⟨[], rfl, Lull.nil _⟩

/-- What is observed between evaluations leaves the streak, or drops it. -/
theorem Lulled.call (h : Lulled ran real t) {op : TrackerOp} (hop : op ≠ .evaluate) :
    Lulled ran real (t.call op).1 := by
  cases op with
  | share round idx =>
    simp only [OutputFaultTracker.call, observeShare]
    split <;> exact h
  | output round =>
    simp only [OutputFaultTracker.call, observeOutput]
    split <;> exact h
  | fastForward round => exact ⟨[], rfl, Lull.nil _⟩
  | evaluate => exact absurd rfl hop

theorem Lulled.calls (h : Lulled ran real t) {calls : List TrackerOp}
    (hcalls : ∀ call ∈ calls, call ≠ .evaluate) :
    Lulled ran real (calls.foldl (fun t op => (t.call op).1) t) := by
  induction calls generalizing t with
  | nil => exact h
  | cons op calls ih =>
    rw [List.foldl_cons]
    exact ih (h.call (hcalls op (List.mem_cons_self ..)))
      (fun call hcall => hcalls call (List.mem_cons_of_mem _ hcall))

/-- **An evaluation of a lively history** that has heard of every real round behind the share
frontier reports nothing. -/
theorem Lulled.evaluate (h : Lulled ran real t) (hfaithful : Faithful roster threshold ops t)
    (hran : ∀ r i, .share r i ∈ ops → ran r)
    (hheard : ∀ r r' i, r < r' → .share r' i ∈ ops → ran r → real r → .output r ∈ ops)
    (hlively : Lively ran real (max threshold 1).val) :
    Lulled ran real t.evaluate.1 ∧ t.evaluate.2 = [] := by
  have hwalk : (t.evaluate.1.threshold = max threshold 1 ∧ Books roster.length ops t.evaluate.1 ∧
      Lulled ran real t.evaluate.1) ∧ ∀ f ∈ t.evaluate.2, False := by
    refine evaluate_induction (P := fun u => u.threshold = max threshold 1 ∧
      Books roster.length ops u ∧ Lulled ran real u) hfaithful.books
      ⟨hfaithful.limit, hfaithful.books, h⟩ ?_
    rintro m hm u u' r f ⟨hlimit, hbooks, rounds, hlen, hlull⟩ hnext hlt hj
    obtain ⟨hthrough, -, -, -, -, hthreshold, hjudged⟩ := judgement_of_judge hj
    obtain ⟨i, -, hshare⟩ := hfaithful.books.frontier m hm
    have hquiet : u.outputs.contains r = false → ran r → ¬ real r :=
      fun hsilent hr hreal => hbooks.quiet hsilent (hheard r m i hlt hshare hr hreal)
    refine ⟨⟨hthreshold.trans hlimit, hbooks.judge hnext hlt hj, ?_⟩, ?_⟩
    · unfold Lulled
      rw [hthrough]
      cases hjudged with
      | success hstreak hf => exact ⟨[], by rw [hstreak]; rfl, Lull.nil _⟩
      | passed hsilent hstreak hf =>
        exact ⟨rounds, by rw [hstreak, hlen], hlull.pass hnext (hquiet hsilent)⟩
      | failed hsilent hshared hstreak hf =>
        obtain ⟨j, -, hj⟩ := hbooks.exists_share hshared
        exact ⟨rounds ++ [r], by rw [hstreak, List.length_append, List.length_append, hlen]; rfl,
          hlull.fail hnext (hran r j hj) (hquiet hsilent (hran r j hj))⟩
    · intro fault hfault
      cases hjudged with
      | success hstreak hf =>
        rw [hf] at hfault
        cases hfault
      | passed hsilent hstreak hf =>
        rw [hf] at hfault
        cases hfault
      | failed hsilent hshared hstreak hf =>
        -- the streak with the new round would be a lull as long as the threshold
        obtain ⟨j, -, hj⟩ := hbooks.exists_share hshared
        have hshort := (hlull.fail hnext (hran r j hj) (hquiet hsilent (hran r j hj))).length_lt
          hlively
        have hlong := (hf fault hfault).1
        rw [hstreak, hlimit, List.length_append, hlen] at hlong
        rw [List.length_append] at hshort
        exact absurd hshort (Nat.not_lt_of_le hlong)
  refine ⟨hwalk.1.2.2, List.eq_nil_iff_forall_not_mem.mpr hwalk.2⟩

end OutputFaultTracker

/-! ## What an observer's tracker is told -/

namespace PanetiereObserverSession
open Trace
variable {o : PanetiereObserverSession} {sender : PeerId} {payload : Bytes} {msg : PanetiereWire}

/-- What the tracker is told of a message in the window. -/
def counts (C : SchedulerCrate) (o : PanetiereObserverSession) (sender : PeerId)
    (msg : PanetiereWire) : List TrackerOp :=
  match msg with
  | .serverPublic round serverId .. =>
      if o.authentic C sender msg then [.share round serverId.val] else []
  | .decoded round _ => if o.leader.all (· = sender) then [.output round] else []
  | .reservations round _ _ => if o.leader = some sender then [.output round] else []
  | _ => []

/-- What the tracker is told in a call. -/
def tells (C : SchedulerCrate) (o : PanetiereObserverSession) : ObserverOp → List TrackerOp
  | .beginRound round =>
      if o.curRound.any (fun c => decide (c.saturatingAdd panetiereRoundWindow < round)) then
        [.fastForward round]
      else []
  | .inbound sender payload =>
      match PanetiereWire.deserialize payload with
      | none => []
      | some msg => if roundInWindow msg.round o.curRound then o.counts C sender msg else []
  | .endRound => [.evaluate]

/-- The tracker's history in a run of the observer. -/
def told (C : SchedulerCrate) (roster : List PeerId) (leader : Option PeerId)
    (faultThreshold : U64) (ops : List ObserverOp) : List TrackerOp :=
  observed (new roster leader faultThreshold) (apply C) (tells C) ops

theorem tracker_observe (o : PanetiereObserverSession) (sender : PeerId) (payload : Bytes)
    (msg : PanetiereWire) : (o.observe C sender payload msg).tracker =
      (o.counts C sender msg).foldl (fun t op => (t.call op).1) o.tracker := by
  cases msg with
  | serverPublic round serverId clients aggOpen aggShare shareSum laneOpen signature =>
    cases hslot : o.roster[serverId.val]? with
    | none => simp [observe, counts, authentic, hslot]
    | some expected =>
      by_cases hauth : sender = expected ∧ C.pubkeyVerify expected (serverPublicSigningBytes round
          serverId clients aggOpen aggShare shareSum laneOpen) signature = true
      · simp only [observe, counts, authentic, hslot, if_pos hauth]
        have hkept : ((o.countShare round serverId clients).checkShare C expected payload round
            serverId aggOpen aggShare).tracker = o.tracker.observeShare round serverId.val := by
          unfold checkShare countShare
          dsimp only
          split <;> split <;> rfl
        rw [hkept]
        simp [hauth, OutputFaultTracker.call]
      · simp only [observe, counts, authentic, hslot, if_neg hauth]
        simp [hauth]
  | clientSet round clients demand =>
    simp only [observe]
    split <;> rfl
  | decoded round payloads =>
    simp only [observe, counts]
    split <;> rfl
  | reservations round allocs scheduled =>
    simp only [observe, counts]
    split <;> rfl
  | clientPublic | opening | clientSlice | bundle | setBatch | setFragment | setRelay => rfl

/-- What a message leaves to be reported is an integrity fault. -/
theorem pending_observe (h : ∀ f ∈ o.integrityPending, f.kind = .integrity) (sender : PeerId)
    (payload : Bytes) (msg : PanetiereWire) :
    ∀ f ∈ (o.observe C sender payload msg).integrityPending, f.kind = .integrity := by
  cases msg with
  | serverPublic round serverId clients aggOpen aggShare shareSum laneOpen signature =>
    simp only [observe]
    split
    · exact h
    · split
      · unfold checkShare
        dsimp only
        rw [(countShare_frame o round serverId clients).2]
        split
        · intro f hf
          rcases List.mem_append.mp hf with hf | hf
          · exact h f hf
          · obtain rfl := List.mem_singleton.mp hf
            rfl
        · exact h
      · exact h
  | clientSet round clients demand =>
    simp only [observe]
    split <;> exact h
  | decoded round payloads =>
    simp only [observe]
    split <;> exact h
  | reservations round allocs scheduled =>
    simp only [observe]
    split <;> exact h
  | clientPublic | opening | clientSlice | bundle | setBatch | setFragment | setRelay => exact h

theorem tracker_apply (o : PanetiereObserverSession) (op : ObserverOp) :
    (o.apply C op).tracker = (o.tells C op).foldl (fun t op => (t.call op).1) o.tracker := by
  cases op with
  | beginRound round =>
    simp only [apply, beginRound, tells]
    split <;> rfl
  | inbound sender payload =>
    simp only [apply, onInbound, tells]
    cases PanetiereWire.deserialize payload with
    | none => rfl
    | some msg =>
      dsimp only
      split
      · exact tracker_observe _ sender payload msg
      · rfl
  | endRound => rfl

theorem clock_apply (o : PanetiereObserverSession) (op : ObserverOp) :
    (o.apply C op).leader = o.leader ∧ (o.apply C op).curRound =
      match op with
      | .beginRound round => some round
      | _ => o.curRound := by
  cases op with
  | beginRound round => exact ⟨rfl, rfl⟩
  | inbound sender payload =>
    simp only [apply, onInbound]
    cases PanetiereWire.deserialize payload with
    | none => exact ⟨rfl, rfl⟩
    | some msg =>
      dsimp only
      split
      · obtain ⟨hcur, -, hleader⟩ := (takes_observe (C := C)
          { o with maxRound := some (o.maxRound.elim msg.round (max · msg.round)) } sender payload
          msg).clock
        exact ⟨hleader, hcur⟩
      · exact ⟨rfl, rfl⟩
  | endRound => exact ⟨rfl, rfl⟩

theorem pending_apply (h : ∀ f ∈ o.integrityPending, f.kind = .integrity) (op : ObserverOp) :
    ∀ f ∈ (o.apply C op).integrityPending, f.kind = .integrity := by
  cases op with
  | beginRound round => exact h
  | inbound sender payload =>
    simp only [apply, onInbound]
    cases PanetiereWire.deserialize payload with
    | none => exact h
    | some msg =>
      dsimp only
      split
      · exact pending_observe (o := { o with
          maxRound := some (o.maxRound.elim msg.round (max · msg.round)) }) h sender payload msg
      · exact h
  | endRound => exact fun f hf => absurd hf (List.not_mem_nil)

section Run
variable (C : SchedulerCrate) (roster : List PeerId) (leader : Option PeerId) (faultThreshold : U64)

@[simp] theorem told_concat (ops : List ObserverOp) (op : ObserverOp) :
    told C roster leader faultThreshold (ops ++ [op]) = told C roster leader faultThreshold ops ++
      (run (new roster leader faultThreshold) (apply C) ops).tells C op :=
  observed_concat ..

/-- The observer's tracker is the tracker of what it was told. -/
theorem tracker_run (ops : List ObserverOp) :
    (run (new roster leader faultThreshold) (apply C) ops).tracker =
      OutputFaultTracker.after roster faultThreshold (told C roster leader faultThreshold ops) := by
  induction ops using List.reverseRecOn with
  | nil => rfl
  | append_singleton ops op ih =>
    rw [run_concat, tracker_apply, ih, told_concat]
    exact List.foldl_append.symm

theorem leader_run (ops : List ObserverOp) :
    (run (new roster leader faultThreshold) (apply C) ops).leader = leader := by
  induction ops using List.reverseRecOn with
  | nil => rfl
  | append_singleton ops op ih =>
    rw [run_concat, (clock_apply _ op).1, ih]

theorem pending_run (ops : List ObserverOp) :
    ∀ f ∈ (run (new roster leader faultThreshold) (apply C) ops).integrityPending,
      f.kind = .integrity := by
  induction ops using List.reverseRecOn with
  | nil => exact fun f hf => absurd hf (List.not_mem_nil)
  | append_singleton ops op ih =>
    rw [run_concat]
    exact pending_apply ih op

end Run

/-- A message counts as a share of its round, or as output. -/
theorem counts_cases {call : TrackerOp} (h : call ∈ o.counts C sender msg) :
    (∃ r i, call = .share r i ∧ msg.isServerPublic r = true) ∨ ∃ r, call = .output r := by
  cases msg with
  | serverPublic round serverId clients aggOpen aggShare shareSum laneOpen signature =>
    simp only [counts] at h
    split at h
    · exact Or.inl ⟨round, serverId.val, List.mem_singleton.mp h, beq_self_eq_true _⟩
    · cases h
  | decoded round payloads =>
    simp only [counts] at h
    split at h
    · exact Or.inr ⟨round, List.mem_singleton.mp h⟩
    · cases h
  | reservations round allocs scheduled =>
    simp only [counts] at h
    split at h
    · exact Or.inr ⟨round, List.mem_singleton.mp h⟩
    · cases h
  | clientPublic | opening | clientSlice | clientSet | bundle | setBatch | setFragment | setRelay =>
    cases h

/-- What the tracker is told of a message, it is told of what the payload reads as. -/
theorem counts_of_tells {call : TrackerOp} (h : call ∈ o.tells C (.inbound sender payload)) :
    ∃ msg, PanetiereWire.deserialize payload = some msg ∧ call ∈ o.counts C sender msg := by
  simp only [tells] at h
  cases hmsg : PanetiereWire.deserialize payload with
  | none =>
    rw [hmsg] at h
    cases h
  | some msg =>
    rw [hmsg] at h
    dsimp only at h
    split at h
    · exact ⟨msg, rfl, h⟩
    · cases h

/-- A share counted is the share of a message that came. -/
theorem share_of_tells {op : ObserverOp} {r : Round} {i : Nat} (h : .share r i ∈ o.tells C op) :
    ∃ sender payload msg, op = .inbound sender payload ∧
      PanetiereWire.deserialize payload = some msg ∧ msg.isServerPublic r = true := by
  cases op with
  | beginRound round =>
    simp only [tells] at h
    split at h
    · cases List.mem_singleton.mp h
    · cases h
  | inbound sender payload =>
    obtain ⟨msg, hmsg, hcounts⟩ := counts_of_tells h
    rcases counts_cases hcounts with ⟨_, _, hcall, hpublic⟩ | ⟨_, hcall⟩
    · cases hcall
      exact ⟨sender, payload, msg, rfl, hmsg, hpublic⟩
    · cases hcall
  | endRound => cases List.mem_singleton.mp h

/-- Only the end of a round is an evaluation. -/
theorem not_evaluate_of_tells {op : ObserverOp} (hop : op ≠ .endRound) {call : TrackerOp}
    (h : call ∈ o.tells C op) : call ≠ .evaluate := by
  rintro rfl
  cases op with
  | beginRound round =>
    simp only [tells] at h
    split at h
    · cases List.mem_singleton.mp h
    · cases h
  | inbound sender payload =>
    obtain ⟨msg, -, hcounts⟩ := counts_of_tells h
    rcases counts_cases hcounts with ⟨_, _, hcall, -⟩ | ⟨_, hcall⟩ <;> cases hcall
  | endRound => exact hop rfl

end PanetiereObserverSession

/-! ## An observed subnet -/

/-- A step of an observed subnet: a relay's call, or the observer's clock or evaluation. -/
inductive WatchedStep (I : Type) where
  | relay (i : I) (op : SessionOp)
  | clock (round : Round)
  | evaluate
  deriving DecidableEq

namespace WatchedStep
variable {I : Type}

def call? : WatchedStep I → Option (I × SessionOp)
  | .relay i op => some (i, op)
  | _ => none

def clock? : WatchedStep I → Option Round
  | .clock round => some round
  | _ => none

end WatchedStep

/-- The round of a share. -/
def PanetiereWire.sharedRound? : PanetiereWire → Option Round
  | .serverPublic round .. => some round
  | _ => none

theorem PanetiereWire.sharedRound?_of_isServerPublic {w : PanetiereWire} {r : Round}
    (h : w.isServerPublic r = true) : w.sharedRound? = some r := by
  cases w with
  | serverPublic round => exact congrArg some (beq_iff_eq.mp h)
  | _ => cases h

namespace ServerSession
open Trace

/-- **A round decoded by a leader is published when it carries a message.** -/
theorem decoded_sent {cfg : ServerConfig C.toSessionCrate} {s : ServerSession C.toSessionCrate}
    (hmode : cfg.mode = .leader) {op : SessionOp} {r : Round} {plain : List C.KahePoly}
    (h : (r, plain) ∈ decodedBy cfg s op) (hreal : peel cfg plain ≠ []) :
    .decoded r (peel cfg plain) ∈ s.sent cfg op := by
  cases op with
  | endRound round =>
    have hpublishes : cfg.publishes = true := by
      unfold ServerConfig.publishes
      rw [hmode]
    refine List.mem_append_right _ ?_
    unfold publishDecoded
    rw [if_pos hpublishes]
    refine List.mem_map.mpr ⟨(r, peel cfg plain), List.mem_filter.mpr ⟨?_, ?_⟩, rfl⟩
    · exact List.mem_map.mpr ⟨(r, plain), h, rfl⟩
    · simpa using hreal
  | beginRound => cases h
  | inbound => cases h
  | checkpoint => cases h
  | setMisbehavior => cases h

section Watched
variable {I : Type} [DecidableEq I] (cfg : I → ServerConfig C.toSessionCrate)

/-- The relays' calls of a run. -/
def calls (evs : List (WatchedStep I)) : List (I × SessionOp) := evs.filterMap WatchedStep.call?

/-- The observer's clock. -/
def clockAt (evs : List (WatchedStep I)) : Option Round :=
  (evs.filterMap WatchedStep.clock?).getLast?

/-- What relay `c.1` sends in call `c.2`. -/
def sentIn (evs : List (I × SessionOp)) (c : I × SessionOp) : List PanetiereWire :=
  (sessionOf cfg evs c.1).sent (cfg c.1) c.2

/-- What the observer is called with in a step: every message of a relay's call, in order. -/
def heardIn (pre : List (WatchedStep I)) : WatchedStep I → List ObserverOp
  | .relay i op =>
      (sentIn cfg (calls pre) (i, op)).map (fun w => .inbound (relayKey cfg i) w.serialize)
  | .clock round => [.beginRound round]
  | .evaluate => [.endRound]

def heard (evs : List (WatchedStep I)) : List ObserverOp :=
  (steps evs).flatMap (fun σ => heardIn cfg σ.1 σ.2)

/-- The rounds that relays made shares of. -/
def sharedRounds (evs : List (I × SessionOp)) : List Round :=
  (steps evs).flatMap (fun σ => (sentIn cfg σ.1 σ.2).filterMap PanetiereWire.sharedRound?)

/-- The observer reads every relay message and finds it in its window. -/
def Fed (evs : List (WatchedStep I)) : Prop :=
  ∀ σ ∈ steps evs, ∀ c ∈ σ.2.call?, ∀ w ∈ sentIn cfg (calls σ.1) c,
    PanetiereWire.deserialize w.serialize = some w ∧ roundInWindow w.round (clockAt σ.1) = true

/-- The leader decodes every round that has shares, `total` being the sum of what the clients
put into a round: when the observer evaluates, every one behind the last with shares. -/
def Decodes (ℓ : I) (total : Round → List C.KahePoly) (evs : List (WatchedStep I)) : Prop :=
  ∀ σ ∈ steps evs, σ.2 = .evaluate → ∀ r ∈ sharedRounds cfg (calls evs),
    ∀ r' ∈ sharedRounds cfg (calls σ.1), r < r' →
      (r, total r) ∈ decodings (cfg ℓ) (eventsAt (calls σ.1) ℓ)

/-- The clients' contributions to a round hold a message. -/
def Carries (ℓ : I) (total : Round → List C.KahePoly) (r : Round) : Prop :=
  peel (cfg ℓ) (total r) ≠ []

variable {cfg} {evs : List (WatchedStep I)}

omit [DecidableEq I] in
theorem mem_steps_calls {pre : List (WatchedStep I)} {i : I} {op : SessionOp}
    (h : (pre, .relay i op) ∈ steps evs) : (calls pre, (i, op)) ∈ steps (calls evs) := by
  obtain ⟨post, rfl⟩ := mem_steps.mp h
  exact mem_steps.mpr ⟨calls post, List.filterMap_append ..⟩

omit [DecidableEq I] in
theorem calls_isPrefix {pre : List (WatchedStep I)} (h : pre <+: evs) : calls pre <+: calls evs := by
  obtain ⟨post, rfl⟩ := h
  exact ⟨calls post, (List.filterMap_append ..).symm⟩

theorem sharedRounds_subset {l l' : List (I × SessionOp)} (h : l <+: l') :
    sharedRounds cfg l ⊆ sharedRounds cfg l' := by
  intro r hr
  obtain ⟨σ, hσ, hr⟩ := List.mem_flatMap.mp hr
  exact List.mem_flatMap.mpr ⟨σ, mem_steps_mono h hσ, hr⟩

/-- An evaluation of the observer is an evaluation of the subnet. -/
theorem mem_steps_evaluate {l : List ObserverOp} (h : (l, .endRound) ∈ steps (heard cfg evs)) :
    ∃ pre, (pre, .evaluate) ∈ steps evs ∧ heard cfg pre = l := by
  obtain ⟨⟨pre, e⟩, hσ, l', hl', rfl⟩ := mem_steps_flatMap.mp h
  have hmem := mem_of_mem_steps hl'
  cases e with
  | relay i op =>
    obtain ⟨w, -, hw⟩ := List.mem_map.mp hmem
    cases hw
  | clock round => cases List.mem_singleton.mp hmem
  | evaluate =>
    refine ⟨pre, hσ, ?_⟩
    simp only [heardIn, steps, List.map_nil, List.mem_singleton, Prod.mk.injEq] at hl'
    rw [hl'.1, List.append_nil]
    rfl

variable (roster : List PeerId) (leader : Option PeerId) (threshold : U64)

/-- The observer after a list of calls. -/
abbrev observerAfter (C : SchedulerCrate) (ops : List ObserverOp) : PanetiereObserverSession :=
  run (PanetiereObserverSession.new roster leader threshold) (PanetiereObserverSession.apply C) ops

/-- What is heard of a relay leaves the observer's clock. -/
theorem curRound_inbounds {o : PanetiereObserverSession} {ops : List ObserverOp}
    (h : ∀ op ∈ ops, ∃ sender payload, op = .inbound sender payload) :
    (ops.foldl (PanetiereObserverSession.apply C) o).curRound = o.curRound := by
  induction ops generalizing o with
  | nil => rfl
  | cons op ops ih =>
    obtain ⟨sender, payload, rfl⟩ := h op (List.mem_cons_self ..)
    rw [List.foldl_cons, ih (fun op hop => h op (List.mem_cons_of_mem _ hop)),
      (PanetiereObserverSession.clock_apply o _).2]

theorem inbound_of_heard {pre : List (WatchedStep I)} {i : I} {op : SessionOp} :
    ∀ call ∈ heardIn cfg pre (.relay i op), ∃ sender payload, call = .inbound sender payload := by
  intro call hcall
  obtain ⟨w, -, rfl⟩ := List.mem_map.mp hcall
  exact ⟨_, _, rfl⟩

theorem curRound_heard (evs : List (WatchedStep I)) :
    (observerAfter roster leader threshold C (heard cfg evs)).curRound = clockAt evs := by
  induction evs using List.reverseRecOn with
  | nil => rfl
  | append_singleton evs e ih =>
    have hheard : heard cfg (evs ++ [e]) = heard cfg evs ++ heardIn cfg evs e := by
      unfold heard
      rw [steps_concat, List.flatMap_append]
      simp
    unfold observerAfter run at ih ⊢
    rw [hheard, List.foldl_append]
    unfold clockAt at ih ⊢
    rw [List.filterMap_append]
    cases e with
    | relay i op =>
      rw [curRound_inbounds inbound_of_heard, ih, List.filterMap_cons_none rfl, List.filterMap_nil,
        List.append_nil]
    | clock round => exact (List.getLast?_concat ..).symm
    | evaluate =>
      rw [List.filterMap_cons_none rfl, List.filterMap_nil, List.append_nil]
      exact ih

/-- A share the observer counts is one that a relay made. -/
theorem shared_of_told (hfed : Fed cfg evs) {pre : List (WatchedStep I)} (hpre : pre <+: evs)
    {r : Round} {i : Nat}
    (h : .share r i ∈ PanetiereObserverSession.told C roster leader threshold (heard cfg pre)) :
    r ∈ sharedRounds cfg (calls pre) := by
  obtain ⟨⟨l, op⟩, hσ, hshare⟩ := List.mem_flatMap.mp h
  obtain ⟨sender, payload, msg, rfl, hmsg, hpublic⟩ :=
    PanetiereObserverSession.share_of_tells hshare
  obtain ⟨⟨pre', e⟩, hσ', l', hl', -⟩ := mem_steps_flatMap.mp hσ
  have hmem := mem_of_mem_steps hl'
  cases e with
  | relay j op =>
    obtain ⟨w, hw, hcall⟩ := List.mem_map.mp hmem
    cases hcall
    have hread := (hfed _ (mem_steps_mono hpre hσ') _ rfl w hw).1
    rw [hread] at hmsg
    cases hmsg
    exact List.mem_flatMap.mpr ⟨_, mem_steps_calls hσ', List.mem_filterMap.mpr
      ⟨msg, hw, PanetiereWire.sharedRound?_of_isServerPublic hpublic⟩⟩
  | clock round => cases List.mem_singleton.mp hmem
  | evaluate => cases List.mem_singleton.mp hmem

/-- **The observer counts every round that the leader decodes to a message.** -/
theorem output_of_decoded {ℓ : I} (hmode : (cfg ℓ).mode = .leader) (hfed : Fed cfg evs)
    {pre : List (WatchedStep I)} (hpre : pre <+: evs) {r : Round} {plain : List C.KahePoly}
    (h : (r, plain) ∈ decodings (cfg ℓ) (eventsAt (calls pre) ℓ)) (hreal : peel (cfg ℓ) plain ≠ []) :
    .output r ∈ PanetiereObserverSession.told C roster (some (relayKey cfg ℓ)) threshold
      (heard cfg pre) := by
  obtain ⟨⟨l, op⟩, hσ, hdec⟩ := List.mem_flatMap.mp h
  obtain ⟨made, hmade, rfl⟩ := mem_steps_eventsAt hσ
  obtain ⟨pre', e, hσ', hcall, rfl⟩ := mem_steps_filterMap hmade
  obtain rfl : e = .relay ℓ op := by
    cases e <;> cases hcall
    rfl
  have hsent : .decoded r (peel (cfg ℓ) plain) ∈ sentIn cfg (calls pre') (ℓ, op) :=
    decoded_sent hmode hdec hreal
  obtain ⟨hread, hwindow⟩ := hfed _ (mem_steps_mono hpre hσ') _ rfl _ hsent
  obtain ⟨l', hl'⟩ := exists_step_of_mem (List.mem_map_of_mem
    (f := fun w : PanetiereWire => ObserverOp.inbound (relayKey cfg ℓ) w.serialize) hsent)
  -- the leader sends the output in the call that decodes it, and the observer is fed that
  have hstep : (heard cfg pre' ++ l', .inbound (relayKey cfg ℓ) (PanetiereWire.decoded r
      (peel (cfg ℓ) plain)).serialize) ∈ steps (heard cfg pre) :=
    mem_steps_flatMap.mpr ⟨_, hσ', l', hl', rfl⟩
  refine List.mem_flatMap.mpr ⟨_, hstep, ?_⟩
  -- frames leave its clock, so the window is that of the leader
  have hcur : (observerAfter roster (some (relayKey cfg ℓ)) threshold C
      (heard cfg pre' ++ l')).curRound = clockAt pre' := by
    have hinbound : ∀ call ∈ l', ∃ sender payload, call = ObserverOp.inbound sender payload := by
      intro call hcall
      obtain ⟨w, -, rfl⟩ :=
        List.mem_map.mp ((prefix_of_mem_steps hl').subset (List.mem_append_left _ hcall))
      exact ⟨_, _, rfl⟩
    have hclock : (observerAfter roster (some (relayKey cfg ℓ)) threshold C
        (heard cfg pre')).curRound = clockAt pre' := curRound_heard ..
    rw [← hclock]
    unfold observerAfter run
    rw [List.foldl_append]
    exact curRound_inbounds hinbound
  have hleader := PanetiereObserverSession.leader_run C roster (some (relayKey cfg ℓ)) threshold
    (heard cfg pre' ++ l')
  unfold PanetiereObserverSession.tells
  dsimp only
  rw [hread]
  dsimp only
  rw [if_pos (by rw [hcur]; exact hwindow)]
  unfold PanetiereObserverSession.counts
  rw [hleader]
  simp

/-- The observer's streak is a lull at every moment: an evaluation comes when every round
behind the frontier has been decoded, and between evaluations the streak is left. -/
theorem lulled_heard {ℓ : I} (hmode : (cfg ℓ).mode = .leader) {total : Round → List C.KahePoly}
    (hfed : Fed cfg evs) (hdecodes : Decodes cfg ℓ total evs)
    (hlively : OutputFaultTracker.Lively (· ∈ sharedRounds cfg (calls evs)) (Carries cfg ℓ total)
      (max threshold 1).val) :
    (∀ l, l <+: heard cfg evs → OutputFaultTracker.Lulled (· ∈ sharedRounds cfg (calls evs))
      (Carries cfg ℓ total)
      (observerAfter roster (some (relayKey cfg ℓ)) threshold C l).tracker) ∧
    ∀ l, (l, .endRound) ∈ steps (heard cfg evs) →
      (observerAfter roster (some (relayKey cfg ℓ)) threshold C l).tracker.evaluate.2 = [] := by
  -- Each evaluation meets what the run promises of the rounds that carry a message.
  have hevaluate : ∀ l, (l, .endRound) ∈ steps (heard cfg evs) →
      OutputFaultTracker.Lulled (· ∈ sharedRounds cfg (calls evs)) (Carries cfg ℓ total)
        (observerAfter roster (some (relayKey cfg ℓ)) threshold C l).tracker →
      OutputFaultTracker.Lulled (· ∈ sharedRounds cfg (calls evs)) (Carries cfg ℓ total)
        (observerAfter roster (some (relayKey cfg ℓ)) threshold C l).tracker.evaluate.1 ∧
      (observerAfter roster (some (relayKey cfg ℓ)) threshold C l).tracker.evaluate.2 = [] := by
    intro l hl h
    obtain ⟨pre, hpre, rfl⟩ := mem_steps_evaluate hl
    have hprefix : pre <+: evs := (List.prefix_append pre _).trans (prefix_of_mem_steps hpre)
    have htracker := PanetiereObserverSession.tracker_run C roster (some (relayKey cfg ℓ)) threshold
      (heard cfg pre)
    refine h.evaluate (by rw [htracker]; exact OutputFaultTracker.faithful_after ..) ?_ ?_ hlively
    · intro r i hshare
      exact sharedRounds_subset (calls_isPrefix hprefix)
        (shared_of_told roster _ threshold hfed hprefix hshare)
    · intro r r' i hlt hshare hran hreal
      exact output_of_decoded roster threshold hmode hfed hprefix
        (hdecodes (pre, .evaluate) hpre rfl r hran r'
          (shared_of_told roster _ threshold hfed hprefix hshare) hlt) hreal
  have hlulled : ∀ l, l <+: heard cfg evs →
      OutputFaultTracker.Lulled (· ∈ sharedRounds cfg (calls evs)) (Carries cfg ℓ total)
        (observerAfter roster (some (relayKey cfg ℓ)) threshold C l).tracker := by
    refine prefix_induction (OutputFaultTracker.lulled_new roster threshold) ?_
    rintro ⟨l, op⟩ hσ ih
    show OutputFaultTracker.Lulled _ _ (observerAfter roster _ threshold C (l ++ [op])).tracker
    unfold observerAfter at ih ⊢
    rw [run_concat]
    by_cases hop : op = .endRound
    · subst hop
      exact (hevaluate l hσ ih).1
    · rw [PanetiereObserverSession.tracker_apply]
      exact OutputFaultTracker.Lulled.calls ih
        (fun _ hcall => PanetiereObserverSession.not_evaluate_of_tells hop hcall)
  refine ⟨hlulled, fun l hl => (hevaluate l hl (hlulled l ?_)).2⟩
  exact (List.prefix_append l _).trans (prefix_of_mem_steps hl)

/-- **A lively subnet is not blamed.**  In every run of a subnet whose leader decodes every
round that has shares, and whose observer is fed all that the relays send, the observer reports
no liveness fault if among the rounds with shares no `threshold` follow one another without a
message. -/
theorem lively_subnet_not_blamed (cfg : I → ServerConfig C.toSessionCrate) (ℓ : I)
    (hmode : (cfg ℓ).mode = .leader) (roster : List PeerId) (threshold : U64)
    (total : Round → List C.KahePoly) (evs : List (WatchedStep I)) (hfed : Fed cfg evs)
    (hdecodes : Decodes cfg ℓ total evs)
    (hlively : OutputFaultTracker.Lively (· ∈ sharedRounds cfg (calls evs)) (Carries cfg ℓ total)
      (max threshold 1).val) :
    ∀ f ∈ PanetiereObserverSession.faults C roster (some (relayKey cfg ℓ)) threshold
      (heard cfg evs), f.kind ≠ .liveness := by
  intro f hf hkind
  obtain ⟨⟨l, op⟩, hσ, hf⟩ := List.mem_flatMap.mp hf
  cases op with
  | beginRound round => cases hf
  | inbound sender payload => cases hf
  | endRound =>
    rcases List.mem_append.mp hf with hf | hf
    · have hintegrity := PanetiereObserverSession.pending_run C roster (some (relayKey cfg ℓ))
        threshold l f hf
      rw [hkind] at hintegrity
      cases hintegrity
    · have hsilent := (lulled_heard roster threshold hmode hfed hdecodes hlively).2 l hσ
      unfold observerAfter at hsilent
      dsimp only at hf
      rw [hsilent] at hf
      cases hf

end Watched

/-! ## Two relays and one client -/

section Toy
variable {I : Type} [DecidableEq I] (cfg : I → ServerConfig C.toSessionCrate)
  (evs : List (WatchedStep I))

instance : Decidable (Fed cfg evs) :=
  inferInstanceAs (Decidable (∀ σ ∈ steps evs, ∀ c ∈ σ.2.call?, ∀ w ∈ sentIn cfg (calls σ.1) c,
    PanetiereWire.deserialize w.serialize = some w ∧ roundInWindow w.round (clockAt σ.1) = true))

instance [DecidableEq C.KahePoly] (ℓ : I) (total : Round → List C.KahePoly) :
    Decidable (Decodes cfg ℓ total evs) :=
  -- `List.all` is a loop, where the bounded quantifier would nest.
  decidable_of_iff ((steps evs).all (fun σ => !decide (σ.2 = .evaluate) ||
    (sharedRounds cfg (calls evs)).all (fun r => (sharedRounds cfg (calls σ.1)).all (fun r' =>
      !decide (r < r') ||
        (decodings (cfg ℓ) (eventsAt (calls σ.1) ℓ)).contains (r, total r)))) = true) (by
    simp only [Decodes, List.all_eq_true, Bool.or_eq_true, Bool.not_eq_true',
      decide_eq_false_iff_not, List.contains_iff_mem, imp_iff_not_or])

end Toy

instance : DecidableEq toyLanes.KahePoly := inferInstanceAs (DecidableEq Nat)

/-- A subnet of two relays, the first of them the leader. -/
def duo (i : Fin 2) : ServerConfig toyLanes.toSessionCrate where
  pp := ⟨2, ⟨2, 2⟩, some ⟨1, 2⟩, 2, rfl⟩
  scp := ⟨1, 2⟩
  rs_mode := rfl
  mse := ()
  serverId := Fin.ofNat _ i.val
  identity := toyNode (Fin.ofNat 256 (100 + i.val))
  mode := if i = 0 then .leader else .follower (toyNode 100)
  serverPubkeys := (OrdMap.empty.insert 0 (toyNode 100)).insert 1 (toyNode 101)
  clientSetMax := 8
  setupSeed := toySid
  goodClients _ := true
  setKeys := none

/-- Their sorted roster. -/
def duoRoster : List Pubkey := [toyNode 100, toyNode 101]

/-- A round with client 7, whose contribution is `content`, under the eyes of an observer. -/
def watchedRound (r : Round) (content : U8) : List (WatchedStep (Fin 2)) :=
  [.clock r, .relay 0 (.beginRound r), .relay 1 (.beginRound r),
    .relay 0 (.from 7 (.toyPublic r 7 content)), .relay 0 (.from 7 (.toyOpening r 7 0)),
    .relay 0 (.from 7 (.toySlice r 7 0 [1])), .relay 1 (.from 7 (.toyPublic r 7 content)),
    .relay 1 (.from 7 (.toyOpening r 7 1)), .relay 1 (.from 7 (.toySlice r 7 1 [1])),
    .relay 0 (.endRound r), .relay 1 (.from 100 (.clientSet r [7] 1)), .relay 1 (.endRound r),
    .relay 0 (.from 101 (.toyPosted r 1 [7] 1 content)), .evaluate]

/-- What the two shares of a round sum to. -/
def watchedTotal (content : Round → U8) (r : Round) : List toyLanes.KahePoly :=
  ([(content r).val, (content r).val] : List Nat)

/-- Round 6 is cover. -/
def livelyContent (r : Round) : U8 := if r = 6 then 0 else 1

/-- Rounds 5 to 7. -/
def livelyRun : List (WatchedStep (Fin 2)) :=
  [5, 6, 7].flatMap (fun r => watchedRound r (livelyContent r))

theorem carries_livelyContent {r : Round} (h : r ≠ 6) :
    Carries duo 0 (watchedTotal livelyContent) r := by
  have hone : livelyContent r = 1 := if_neg h
  have htotal : watchedTotal livelyContent r = ([1, 1] : List Nat) := by
    unfold watchedTotal
    rw [hone]
    rfl
  unfold Carries
  rw [htotal]
  decide

/-- Of two rounds one is not round 6. -/
theorem lively_subnet_not_blamed_toy :
    sharedRounds duo (calls livelyRun) = [5, 5, 6, 6, 7, 7] ∧
      ∀ f ∈ PanetiereObserverSession.faults toyLanes duoRoster (some (relayKey duo 0)) 2
        (heard duo livelyRun), f.kind ≠ .liveness := by
  have hrun : sharedRounds duo (calls livelyRun) = [5, 5, 6, 6, 7, 7] ∧ Fed duo livelyRun ∧
      Decodes duo 0 (watchedTotal livelyContent) livelyRun := by
    decide +kernel
  refine ⟨hrun.1, lively_subnet_not_blamed duo 0 rfl duoRoster 2 (watchedTotal livelyContent)
    livelyRun hrun.2.1 hrun.2.2 ?_⟩
  intro rounds hsorted hlong hran
  match rounds, hsorted, hlong, hran with
  | a :: b :: rest, hsorted, _, hran =>
    have hab : a < b := (List.pairwise_cons.mp hsorted).1 b (List.mem_cons_self ..)
    by_cases ha : a = 6
    · exact ⟨b, by simp, b, by simp, b, le_rfl, le_rfl, hran b (by simp),
        carries_livelyContent (fun hb => absurd hab (by rw [ha, hb]; exact lt_irrefl _))⟩
    · exact ⟨a, by simp, a, by simp, a, le_rfl, le_rfl, hran a (by simp), carries_livelyContent ha⟩

/-- Three rounds of cover.  The first two are judged when the shares of the third come. -/
def coverRun : List (WatchedStep (Fin 2)) :=
  [5, 6, 10].flatMap (fun r => watchedRound r 0)

/-- **A subnet of cover alone is blamed**, though both relays follow the protocol, every share
arrives and the leader decodes every round. -/
theorem cover_blamed :
    Honest (calls coverRun) ∧ Authentic duo (calls coverRun) ∧ Fed duo coverRun ∧
      Decodes duo 0 (watchedTotal (fun _ => 0)) coverRun ∧
      ∃ f ∈ PanetiereObserverSession.faults toyLanes duoRoster (some (relayKey duo 0)) 2
        (heard duo coverRun), f.kind = .liveness := by
  decide +kernel

end ServerSession
end Anymone
