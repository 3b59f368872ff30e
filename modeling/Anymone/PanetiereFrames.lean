import Anymone.PanetiereClient
import Anymone.ParticipationOnce
import Anymone.ScheduledToy

/-! # From the outbox to the wire

A worker pops a frame off the node's outbox, stages it in its client session, and begins the
session's round.  A run interleaves the rounds of the workers (`sync_client_round`, then
`begin_round`) with what else happens at the node and with the other calls of the sessions;
`popped` and `posted` read off a run what a worker took from the outbox and which staged messages
it posted.
-/

namespace Anymone
variable {C : ChannelCrate}

/-! ## The workers of a node -/

/-- What `sync_client_round` does with a `PanetiereClientSession`; `config` is what each worker
makes its session with. -/
def panetiereClients {Policy : Type} (validityRounds : Policy → Round) (drawHash : Round → U64)
    (config : SubnetId → Round → PanetiereClientConfig C) :
    ParticipationEnv Policy (PanetiereClientSession C) where
  validityRounds := validityRounds
  drawHash := drawHash
  setCoverRate s rate := { s with coverRate := rate }
  hasPendingTransmissions _ := false
  canStage _ := true
  stage s payload := s.stage payload
  requeued _ := []
  make id round := .new (config id round)

/-- What happens at a node: an operation, of which a worker's call begins the round of its session
too, or another call of a session. -/
inductive WorkerOp (C : ChannelCrate) (Policy : Type) where
  | node (op : NodeOp Policy (PanetiereClientSession C))
  | call (subnet : SubnetId) (call : ClientCall)

/-- A frame a worker took off the outbox: after so many steps, for which of its sessions. -/
structure Popped where
  moment : Nat
  session : Nat
  frame : Bytes

/-- A staged message a worker's session posted. -/
structure Posted (C : ChannelCrate) where
  moment : Nat
  session : Nat
  cfg : PanetiereClientConfig C
  round : Round
  plaintext : List C.KahePoly
  wires : List PanetiereWire

namespace AnymoneInner
variable {Policy : Type} [DecidableEq Policy]
  (P : ParticipationEnv Policy (PanetiereClientSession C))
  (s : AnymoneInner Policy (PanetiereClientSession C))

/-- `begin_round` on a worker's session. -/
def beginRound (subnet : SubnetId) (round : Round) :
    AnymoneInner Policy (PanetiereClientSession C) :=
  match s.session subnet with
  | none => s
  | some sess => s.setSession subnet (some (sess.beginRound round))

/-- One step. -/
def work : WorkerOp C Policy → AnymoneInner Policy (PanetiereClientSession C)
  | .node (.sync subnet round coin) =>
      (s.syncClientRound P subnet round coin).beginRound subnet round
  | .node op => s.apply P op
  | .call subnet call =>
      match s.session subnet with
      | none => s
      | some sess => s.setSession subnet (some (sess.call call))

/-- The node after the steps. -/
def worked (ops : List (WorkerOp C Policy)) : AnymoneInner Policy (PanetiereClientSession C) :=
  Trace.run s (work P) ops

/-- The frame a step takes off the outbox for a worker, with the session it is staged in. -/
def takes (subnet : SubnetId) : WorkerOp C Policy → Option (PanetiereClientSession C × Bytes)
  | .node (.sync n round coin) =>
      if n = subnet ∧ s.decides P n round coin = some true ∧
          P.canStage (s.entered P n round true) = true then
        s.outbox.head?.map (fun frame => (s.entered P n round true, frame))
      else none
  | _ => none

/-- The staged message a step posts for a worker, with the session and the wires. -/
def posts (subnet : SubnetId) : WorkerOp C Policy →
    Option (PanetiereClientSession C × Round × List C.KahePoly × List PanetiereWire)
  | .node (.sync n round coin) =>
      if n = subnet then do
        let sess ← (s.syncClientRound P n round coin).session n
        let msg ← sess.pending
        let out ← sess.finalizeStaged round
        if sess.cfg.complete then some (sess, round, msg, out.2) else none
      else none
  | _ => none

/-- Whether a step makes a session for a worker. -/
def opens (subnet : SubnetId) : WorkerOp C Policy → Bool
  | .node (.sync n round coin) =>
      decide (n = subnet) && (s.decides P n round coin).isSome && (s.session n).isNone
  | _ => false

/-- The number of sessions a worker has made. -/
def opened (subnet : SubnetId) (ops : List (WorkerOp C Policy)) : Nat :=
  (Trace.steps ops).countP (fun σ => (s.worked P σ.1).opens P subnet σ.2)

/-- The frames a worker took off the outbox in a run, oldest first. -/
def popped (subnet : SubnetId) (ops : List (WorkerOp C Policy)) : List Popped :=
  (Trace.steps ops).filterMap (fun σ => ((s.worked P σ.1).takes P subnet σ.2).map (fun e =>
    ⟨σ.1.length, s.opened P subnet (σ.1 ++ [σ.2]), e.2⟩))

/-- The staged messages a worker's sessions posted in a run, oldest first. -/
def posted (subnet : SubnetId) (ops : List (WorkerOp C Policy)) : List (Posted C) :=
  (Trace.steps ops).filterMap (fun σ => ((s.worked P σ.1).posts P subnet σ.2).map (fun e =>
    ⟨σ.1.length, s.opened P subnet (σ.1 ++ [σ.2]), e.1.cfg, e.2.1, e.2.2.1, e.2.2.2⟩))

end AnymoneInner

/-! ## Delivery -/

/-- The frame is posted whole, in the round it was taken for or a later one of the same session. -/
structure Carries (p : Popped) (e : Posted C) : Prop where
  later : p.moment ≤ e.moment
  session : p.session = e.session
  whole : ∃ rng polys, (C.encodeMessage rng e.cfg.mse p.frame).1 = some polys ∧
    e.plaintext = polys ++ List.replicate (C.messagePolys e.cfg.pp - polys.length) C.kaheZero
  sent : e.cfg.wires e.round e.plaintext = some e.wires

/-- The staged messages a worker posts are the frames it takes, one for one and in order. -/
def AnymoneInner.Delivered {Policy : Type} [DecidableEq Policy]
    (P : ParticipationEnv Policy (PanetiereClientSession C))
    (s : AnymoneInner Policy (PanetiereClientSession C)) (subnet : SubnetId)
    (ops : List (WorkerOp C Policy)) : Prop :=
  List.Forall₂ Carries (s.popped P subnet ops) (s.posted P subnet ops)

/-! ## One step of a node -/

namespace AnymoneInner
open PanetiereClientSession
variable {Policy : Type} {validityRounds : Policy → Round} {drawHash : Round → U64}
  {config : SubnetId → Round → PanetiereClientConfig C}
  {s : AnymoneInner Policy (PanetiereClientSession C)} {subnet : SubnetId}

/-- The sessions of a node are sound, and a client factory makes new ones only. -/
structure Driven (s : AnymoneInner Policy (PanetiereClientSession C)) : Prop where
  sound : ∀ id sess, s.session id = some sess → sess.Sound
  factory : ∀ f, s.clientFactory = some f → ∀ n keys round, ∃ cfg, f.create n keys round = .new cfg

theorem session_setSession (id : SubnetId) (sess : Option (PanetiereClientSession C)) :
    (s.setSession subnet sess).session id = if id = subnet then sess else s.session id := by
  exact Function.update_apply ..

theorem sound_entered (h : s.Driven) (round : Round) (submit : Bool) :
    (s.entered (panetiereClients validityRounds drawHash config) subnet round submit).Sound := by
  unfold entered
  refine sound_setCoverRate ?_ _
  cases hsess : s.session subnet with
  | some sess => exact h.sound subnet sess hsess
  | none =>
    unfold newSession
    dsimp only [Option.getD_none]
    split
    · rename_i f n hf hn
      obtain ⟨cfg, hcfg⟩ := h.factory f hf n s.config.body.relayExchangeKeys round
      rw [hcfg]
      exact sound_new cfg
    · exact sound_new _

/-- What `sync_client_round` leaves a worker: a session with the frame it took staged, or one that
is sound. -/
theorem session_syncClientRound (h : s.Driven) (subnet : SubnetId) (round : Round)
    (coin : Bool) :
    (∃ sess frame, s.takes (panetiereClients validityRounds drawHash config) subnet
        (.node (.sync subnet round coin)) = some (sess, frame) ∧ sess.Sound ∧
      (s.syncClientRound (panetiereClients validityRounds drawHash config) subnet round
        coin).session subnet = some (sess.stage frame)) ∨
    (s.takes (panetiereClients validityRounds drawHash config) subnet
        (.node (.sync subnet round coin)) = none ∧
      ∀ sess, (s.syncClientRound (panetiereClients validityRounds drawHash config) subnet round
        coin).session subnet = some sess → sess.Sound) := by
  unfold syncClientRound takes
  dsimp only
  generalize hdecides : s.decides (panetiereClients validityRounds drawHash config) subnet round
    coin = decided
  have hentered : ∀ submit, (s.entered (panetiereClients validityRounds drawHash config) subnet
    round submit).Sound := sound_entered h round
  cases decided with
  | none =>
    refine Or.inr ⟨by simp, fun sess hsess => ?_⟩
    dsimp only at hsess
    -- the worker sits the round out: its session is dropped, or retired with nothing pending
    split_ifs at hsess
    · unfold dropSession at hsess
      split at hsess
      · exact h.sound subnet sess hsess
      · rw [session_setSession, if_pos rfl] at hsess
        cases hsess
    · unfold retire at hsess
      split at hsess
      · exact h.sound subnet sess hsess
      · rename_i old hold
        rw [if_neg (show ¬ (panetiereClients validityRounds drawHash config).hasPendingTransmissions
          _ = true from Bool.false_ne_true)] at hsess
        unfold dropSession at hsess
        rw [session_setSession, if_pos rfl] at hsess
        dsimp only at hsess
        rw [session_setSession, if_pos rfl] at hsess
        cases hsess
  | some submit =>
    dsimp only
    unfold enter
    cases submit with
    | false =>
      refine Or.inr ⟨by simp, fun sess hsess => ?_⟩
      dsimp only at hsess
      rw [Bool.false_and, if_neg Bool.false_ne_true, session_setSession, if_pos rfl] at hsess
      cases hsess
      exact hentered false
    | true =>
      dsimp only
      rw [if_pos (show (true && (panetiereClients validityRounds drawHash config).canStage _) = true
        from rfl), if_pos ⟨rfl, rfl, rfl⟩]
      -- it submits: the first frame of the outbox, if there is one
      cases houtbox : s.outbox with
      | nil =>
        refine Or.inr ⟨rfl, fun sess hsess => ?_⟩
        dsimp only at hsess
        rw [session_setSession, if_pos rfl] at hsess
        cases hsess
        exact hentered true
      | cons frame rest =>
        refine Or.inl ⟨_, frame, rfl, hentered true, ?_⟩
        dsimp only
        rw [session_setSession, if_pos rfl]
        rfl

/-- A worker's call leaves the other workers' sessions and the factory alone. -/
theorem syncClientRound_frame (P : ParticipationEnv Policy (PanetiereClientSession C))
    (s : AnymoneInner Policy (PanetiereClientSession C)) (subnet : SubnetId) (round : Round)
    (coin : Bool) :
    (∀ id, id ≠ subnet → (s.syncClientRound P subnet round coin).session id = s.session id) ∧
      (s.syncClientRound P subnet round coin).clientFactory = s.clientFactory := by
  have hdrop : ∀ t : AnymoneInner Policy (PanetiereClientSession C),
      (∀ id, id ≠ subnet → (t.dropSession P subnet).session id = t.session id) := by
    intro t id hid
    unfold dropSession
    split
    · rfl
    · rw [session_setSession, if_neg hid]
  refine ⟨fun id hid => ?_, (sameInputs_sync (P := P)).2.2⟩
  unfold syncClientRound
  split
  · unfold enter
    dsimp only
    split_ifs
    · split <;> rw [session_setSession, if_neg hid]
    · rw [session_setSession, if_neg hid]
  · split_ifs
    · exact hdrop s id hid
    · unfold retire
      split
      · rfl
      · split_ifs
        · rw [session_setSession, if_neg hid]
        · rw [hdrop _ id hid, session_setSession, if_neg hid]

theorem session_beginRound (s : AnymoneInner Policy (PanetiereClientSession C)) (round : Round)
    (id : SubnetId) : (s.beginRound subnet round).session id =
      if id = subnet then (s.session subnet).map (fun sess => sess.beginRound round)
      else s.session id := by
  unfold AnymoneInner.beginRound
  cases hsess : s.session subnet with
  | none =>
    split_ifs with hid
    · rw [hid, hsess]
      rfl
    · rfl
  | some sess => exact session_setSession id _

/-- A factory that makes new sessions. -/
def MakesNew (f : ClientSessionFactory (PanetiereClientSession C)) : Prop :=
  ∀ n keys round, ∃ cfg, f.create n keys round = .new cfg

variable [DecidableEq Policy] {op : WorkerOp C Policy}

/-- **A step keeps the sessions sound.** -/
theorem Driven.work (h : s.Driven) (hop : ∀ f, op = .node (.setClientFactory f) → MakesNew f) :
    (s.work (panetiereClients validityRounds drawHash config) op).Driven := by
  have hsame : ∀ {t : AnymoneInner Policy (PanetiereClientSession C)}, t.session = s.session →
      t.clientFactory = s.clientFactory → t.Driven :=
    fun hs hf => ⟨fun id sess hsess => h.sound id sess (hs ▸ hsess), fun f hfs => h.factory f (hf ▸ hfs)⟩
  cases op with
  | call subnet c =>
    unfold AnymoneInner.work
    dsimp only
    cases hsess : s.session subnet with
    | none => exact h
    | some sess =>
      refine ⟨fun id sess' hsess' => ?_, h.factory⟩
      dsimp only at hsess'
      rw [session_setSession] at hsess'
      split_ifs at hsess'
      · cases hsess'
        exact sound_call (h.sound subnet sess hsess) c
      · exact h.sound id sess' hsess'
  | node op =>
    cases op with
    | sync subnet round coin =>
      -- a worker that syncs touches its own session, and leaves the factory
      obtain ⟨hother, hfactory⟩ := syncClientRound_frame
        (panetiereClients validityRounds drawHash config) s subnet round coin
      have hkept : ((s.syncClientRound (panetiereClients validityRounds drawHash config) subnet round
          coin).beginRound subnet round).clientFactory = s.clientFactory := by
        rw [← hfactory]
        unfold AnymoneInner.beginRound
        split <;> rfl
      refine ⟨fun id sess hsess => ?_, fun f hf => h.factory f (hkept ▸ hf)⟩
      unfold AnymoneInner.work at hsess
      dsimp only at hsess
      rw [session_beginRound] at hsess
      split_ifs at hsess with hid
      · obtain ⟨synced, hsynced, rfl⟩ := Option.map_eq_some_iff.mp hsess
        rcases session_syncClientRound h subnet round coin with
          ⟨old, frame, -, hold, hstaged⟩ | ⟨-, hsound⟩
        · rw [hstaged] at hsynced
          cases hsynced
          obtain ⟨hcfg, hpost⟩ := stage_keeps (s := old) frame
          refine sound_beginRound ?_ round
          rw [hcfg, hpost]
          exact hold.prepared
        · exact sound_beginRound (hsound synced hsynced).prepared round
      · exact h.sound id sess (hother id hid ▸ hsess)
    | adopt cfg =>
      refine hsame ?_ ?_ <;> simp only [AnymoneInner.work, apply, adopt] <;> split <;> rfl
    | applyAttestation =>
      refine hsame ?_ ?_ <;> simp only [AnymoneInner.work, apply, applyAttestation] <;> split <;> rfl
    | holdAttestation att =>
      exact hsame rfl rfl
    | deliverAttestation att =>
      exact hsame rfl rfl
    | setClientFactory f =>
      unfold AnymoneInner.work apply setClientFactory
      dsimp only
      split_ifs
      · exact h
      · exact h
      · exact h
      · refine ⟨h.sound, fun f' hf' => ?_⟩
        cases hf'
        exact hop f rfl
    | join | leave | queue => exact hsame rfl rfl

omit [DecidableEq Policy] in
/-- **What a step takes and posts for a worker**: a frame taken for a session with every key is
posted at once, one taken for a session without some key is not, and nothing else is posted. -/
theorem takes_posts (h : s.Driven) (subnet : SubnetId) (op : WorkerOp C Policy)
    (hfits : ∀ sess frame,
      s.takes (panetiereClients validityRounds drawHash config) subnet op = some (sess, frame) →
        sess.Fits frame) :
    (s.takes (panetiereClients validityRounds drawHash config) subnet op = none ∧
      s.posts (panetiereClients validityRounds drawHash config) subnet op = none) ∨
    ∃ sess frame,
      s.takes (panetiereClients validityRounds drawHash config) subnet op = some (sess, frame) ∧
      (sess.cfg.complete = false ∧
          s.posts (panetiereClients validityRounds drawHash config) subnet op = none ∨
        sess.cfg.complete = true ∧ ∃ staged round polys wires,
          (C.encodeMessage sess.rRng sess.cfg.mse frame).1 = some polys ∧
          staged.cfg = sess.cfg ∧
          s.posts (panetiereClients validityRounds drawHash config) subnet op =
            some (staged, round, polys ++
              List.replicate (C.messagePolys sess.cfg.pp - polys.length) C.kaheZero, wires) ∧
          sess.cfg.wires round (polys ++
            List.replicate (C.messagePolys sess.cfg.pp - polys.length) C.kaheZero) = some wires) := by
  cases op with
  | call => exact Or.inl ⟨rfl, rfl⟩
  | node op =>
    cases op with
    | sync n round coin =>
      by_cases hn : n = subnet
      · subst hn
        rcases session_syncClientRound h n round coin with
          ⟨sess, frame, htakes, hsound, hstaged⟩ | ⟨htakes, hsound⟩
        · refine Or.inr ⟨sess, frame, htakes, ?_⟩
          -- the frame fits, so it is staged; a session with every key then posts it
          obtain ⟨polys, hpolys, hstage⟩ := stage_of_fits (hfits sess frame htakes)
          obtain ⟨hcfg, hpost⟩ := stage_keeps (s := sess) frame
          unfold posts
          dsimp only
          rw [if_pos rfl, hstaged]
          cases hcomplete : sess.cfg.complete with
          | false =>
            exact Or.inl ⟨rfl, by cases (sess.stage frame).pending <;> simp [hcfg, hcomplete]⟩
          | true =>
            have hprepared : (sess.stage frame).cfg.Prepared (sess.stage frame).toPostState := by
              rw [hcfg, hpost]
              exact hsound.prepared
            obtain ⟨s', wires, hfinal, -, -, hwires⟩ :=
              finalizeStaged_of_complete (hcfg ▸ hcomplete) hprepared round
            refine Or.inr ⟨rfl, sess.stage frame, round, polys, wires, hpolys, hcfg, ?_, ?_⟩
            · simp only [Option.bind_eq_bind, Option.bind_some, hstage, hfinal, hcfg, hcomplete,
                if_true]
            · have hsent := hwires _ hstage
              rwa [hcfg] at hsent
        -- no frame was taken, and nothing was left to post
        · refine Or.inl ⟨htakes, ?_⟩
          unfold posts
          dsimp only
          rw [if_pos rfl]
          cases hsess : (s.syncClientRound (panetiereClients validityRounds drawHash config) n round
            coin).session n with
          | none => rfl
          | some sess =>
            cases hcomplete : sess.cfg.complete with
            | true => simp [(hsound sess hsess).flushed hcomplete]
            | false => cases sess.pending <;> simp [hcomplete]
      · refine Or.inl ⟨?_, ?_⟩
        · unfold takes
          dsimp only
          rw [if_neg (fun hand => hn hand.1)]
        · unfold posts
          dsimp only
          rw [if_neg hn]
    | _ => exact Or.inl ⟨rfl, rfl⟩

/-! ## Runs -/

section Runs
variable (P : ParticipationEnv Policy (PanetiereClientSession C)) {ops : List (WorkerOp C Policy)}

theorem worked_concat (s : AnymoneInner Policy (PanetiereClientSession C))
    (ops : List (WorkerOp C Policy)) (op : WorkerOp C Policy) :
    s.worked P (ops ++ [op]) = (s.worked P ops).work P op := Trace.run_concat ..

theorem popped_concat (s : AnymoneInner Policy (PanetiereClientSession C)) (subnet : SubnetId)
    (ops : List (WorkerOp C Policy)) (op : WorkerOp C Policy) :
    s.popped P subnet (ops ++ [op]) = s.popped P subnet ops ++
      (((s.worked P ops).takes P subnet op).map (fun e =>
        (⟨ops.length, s.opened P subnet (ops ++ [op]), e.2⟩ : Popped))).toList := by
  unfold popped
  rw [Trace.steps_concat, List.filterMap_append]
  cases h : (s.worked P ops).takes P subnet op <;> simp [h]

theorem posted_concat (s : AnymoneInner Policy (PanetiereClientSession C)) (subnet : SubnetId)
    (ops : List (WorkerOp C Policy)) (op : WorkerOp C Policy) :
    s.posted P subnet (ops ++ [op]) = s.posted P subnet ops ++
      (((s.worked P ops).posts P subnet op).map (fun e =>
        (⟨ops.length, s.opened P subnet (ops ++ [op]), e.1.cfg, e.2.1, e.2.2.1, e.2.2.2⟩ :
          Posted C))).toList := by
  unfold posted
  rw [Trace.steps_concat, List.filterMap_append]
  cases h : (s.worked P ops).posts P subnet op <;> simp [h]

/-- Every frame a worker takes in the run fits the session it is staged in. -/
def Fitting (s : AnymoneInner Policy (PanetiereClientSession C)) (subnet : SubnetId)
    (ops : List (WorkerOp C Policy)) : Prop :=
  ∀ σ ∈ Trace.steps ops, ∀ sess frame,
    (s.worked P σ.1).takes P subnet σ.2 = some (sess, frame) → sess.Fits frame

/-- Every session a worker stages a frame in has the exchange key of every relay. -/
def KeysComplete (s : AnymoneInner Policy (PanetiereClientSession C)) (subnet : SubnetId)
    (ops : List (WorkerOp C Policy)) : Prop :=
  ∀ σ ∈ Trace.steps ops, ∀ sess frame,
    (s.worked P σ.1).takes P subnet σ.2 = some (sess, frame) → sess.cfg.complete = true

end Runs

theorem driven_worked (hnone : ∀ id, s.session id = none)
    (hstart : ∀ f, s.clientFactory = some f → MakesNew f) {ops : List (WorkerOp C Policy)}
    (hops : ∀ f, .node (.setClientFactory f) ∈ ops → MakesNew f) :
    (s.worked (panetiereClients validityRounds drawHash config) ops).Driven := by
  induction ops using List.reverseRecOn with
  | nil =>
    refine ⟨fun id sess hsess => ?_, hstart⟩
    cases (hnone id).symm.trans hsess
  | append_singleton ops op ih =>
    rw [worked_concat]
    refine Driven.work (ih fun f hf => hops f (List.mem_append_left _ hf)) ?_
    rintro f rfl
    exact hops f (List.mem_append_right _ (List.mem_singleton_self _))

/-- **Frames survive until they are submitted exactly where the keys are complete.**  In a run of a
node whose workers drive client sessions, the staged messages a worker posts are the frames it took
off the outbox, each whole, one for one and in order, if and only if every session it staged a
frame in had the exchange key of every relay. -/
theorem delivered_iff_keysComplete (validityRounds : Policy → Round) (drawHash : Round → U64)
    (config : SubnetId → Round → PanetiereClientConfig C)
    (s : AnymoneInner Policy (PanetiereClientSession C)) (hnone : ∀ id, s.session id = none)
    (hstart : ∀ f, s.clientFactory = some f → MakesNew f) (ops : List (WorkerOp C Policy))
    (hops : ∀ f, .node (.setClientFactory f) ∈ ops → MakesNew f) (subnet : SubnetId)
    (hfits : s.Fitting (panetiereClients validityRounds drawHash config) subnet ops) :
    s.Delivered (panetiereClients validityRounds drawHash config) subnet ops ↔
      s.KeysComplete (panetiereClients validityRounds drawHash config) subnet ops := by
  -- a frame taken without every key leaves fewer messages posted than frames taken, for good
  suffices h : (s.KeysComplete (panetiereClients validityRounds drawHash config) subnet ops →
      s.Delivered (panetiereClients validityRounds drawHash config) subnet ops) ∧
      (s.posted (panetiereClients validityRounds drawHash config) subnet ops).length ≤
        (s.popped (panetiereClients validityRounds drawHash config) subnet ops).length ∧
      (¬ s.KeysComplete (panetiereClients validityRounds drawHash config) subnet ops →
        (s.posted (panetiereClients validityRounds drawHash config) subnet ops).length <
          (s.popped (panetiereClients validityRounds drawHash config) subnet ops).length) by
    refine ⟨fun hdelivered => ?_, h.1⟩
    by_contra hkeys
    have hlt := h.2.2 hkeys
    have heq := List.Forall₂.length_eq hdelivered
    omega
  induction ops using List.reverseRecOn with
  | nil => exact ⟨fun _ => List.Forall₂.nil, le_rfl, fun h => absurd (fun σ hσ => by cases hσ) h⟩
  | append_singleton ops op ih =>
    unfold Fitting at hfits
    rw [Trace.steps_concat, List.forall_mem_append, List.forall_mem_singleton] at hfits
    obtain ⟨hdelivered, hle, hlt⟩ := ih (fun f hf => hops f (List.mem_append_left _ hf)) hfits.1
    have hdriven : (s.worked (panetiereClients validityRounds drawHash config) ops).Driven :=
      driven_worked hnone hstart (fun f hf => hops f (List.mem_append_left _ hf))
    unfold Delivered at hdelivered ⊢
    rw [popped_concat, posted_concat]
    unfold KeysComplete at hdelivered hlt ⊢
    rw [Trace.steps_concat, List.forall_mem_append, List.forall_mem_singleton]
    rcases takes_posts hdriven subnet op hfits.2 with
      ⟨htakes, hposts⟩ | ⟨sess, frame, htakes, ⟨hkeys, hposts⟩ | ⟨hkeys, staged, round, polys, wires,
        hpolys, hcfg, hposts, hwires⟩⟩
    · rw [htakes, hposts, Option.map_none, Option.map_none, Option.toList_none, Option.toList_none,
        List.append_nil, List.append_nil]
      exact ⟨fun h => hdelivered h.1, hle, fun hnot => hlt fun h => hnot ⟨h, nofun⟩⟩
    · rw [htakes, hposts]
      refine ⟨fun h => absurd (h.2 sess frame rfl) (by simp [hkeys]), ?_, fun _ => ?_⟩ <;> simp <;>
        omega
    · rw [htakes, hposts]
      refine ⟨fun h => List.rel_append (hdelivered h.1) (.cons ⟨le_rfl, rfl, ?_, ?_⟩ .nil), ?_, ?_⟩
      · refine ⟨sess.rRng, polys, hcfg ▸ hpolys, ?_⟩
        dsimp only
        rw [hcfg]
      · dsimp only
        rw [hcfg]
        exact hwires
      · simpa using hle
      · intro hnot
        have hbefore := hlt fun h => hnot ⟨h, by rintro _ _ ⟨⟩; exact hkeys⟩
        simpa using hbefore

end AnymoneInner

/-! ## A worker with two frames -/

namespace PanetiereClientToy
open AnymoneInner

/-- The toy post, with an opening for each server it is given. -/
def post : PostCrate where
  toSessionCrate := toySession
  Rng := Nat
  fromSeed seed := (seed.1.headD 0).val
  ServerKey := Unit
  RsClientRound := ClientId × Nat
  newClientRound _ _ _ cid servers := (cid, servers.length)
  finalizeRound round pp _ plaintext _ :=
    { clientId := round.1
      bulletin := ⟨(), (0 : Nat), .filled 1 0, toyHash []⟩
      rsShares := List.replicate pp.rs.n plaintext
      sharePaths := (List.range pp.rs.n).map (fun lane => ⟨lane, []⟩)
      sealedOpenings := (List.range round.2).map (fun i => (Fin.ofNat _ i, [])) }
  generateKey _ := (0 : U8)
  bulletinToBytes entry := entry.pubkey.1 ++ entry.sig.1
  messagePolys _ := 9
  kaheZero := (0 : Nat)

/-- A channel of four bytes on top. -/
def channel : ChannelCrate where
  toPostCrate := post
  genBelow rng _ := (false, rng)
  maxPayloadBytes _ := 4
  nPolys _ := 4
  encodeMessage rng _ payload :=
    (some (SlotVector.resize (0 : Nat) 4 (payload.map Fin.val)), rng)
  cover _ := List.replicate 4 (0 : Nat)
  length_encodeMessage := by
    rintro rng ch payload polys ⟨⟩
    exact SlotVector.length_resize 4 _
  length_sealedOpenings _ _ _ _ _ _ _ := (List.length_map _).trans List.length_range
  length_lanes _ _ _ _ _ := ⟨List.length_replicate, (List.length_map _).trans List.length_range⟩
  packs_path _ _ _ _ _ _ _ := rfl

/-- A client of the toy subnet that knows the keys of `n` relays. -/
def clientConfig (n : Nat) : PanetiereClientConfig channel where
  pp := toyParams
  identity := toyNode 7
  servers := (List.range n).map (fun i => (Fin.ofNat _ i, ()))
  rngSeed := toySid
  setupSeed := toySid
  setPks := none
  mse := ()
  sized := by decide

/-- The workers of a node whose sessions know the keys of `n` relays. -/
def clients (n : Nat) : ParticipationEnv Unit (PanetiereClientSession channel) :=
  panetiereClients (fun _ => 10) (fun round => round) (fun _ _ => clientConfig n)

/-- A node with one pipe open and two frames queued. -/
def node : AnymoneInner Unit (PanetiereClientSession channel) :=
  { config := ParticipationToy.config 1 1, clientFactory := none
    joined := [.filled 20 1], outbox := [[1], [2]], clients := ⟨none, 1, 10⟩
    own := ⟨none, false⟩, session := fun _ => none }

/-- The worker of subnet zero submits in two rounds. -/
def twoRounds : List (WorkerOp channel Unit) :=
  [.node (.sync 0 5 true), .node (.sync 0 6 true)]

/-- What holds of every frame taken in the two rounds, by evaluation. -/
theorem forall_takes {n : Nat} {Q : PanetiereClientSession channel → Bytes → Bool}
    (h : (Trace.steps twoRounds).all (fun σ =>
      ((node.worked (clients n) σ.1).takes (clients n) 0 σ.2).all (fun e => Q e.1 e.2)) = true) :
    ∀ σ ∈ Trace.steps twoRounds, ∀ sess frame,
      (node.worked (clients n) σ.1).takes (clients n) 0 σ.2 = some (sess, frame) →
        Q sess frame = true := by
  intro σ hσ sess frame htakes
  have hall := List.all_eq_true.mp h σ hσ
  rw [htakes] at hall
  exact hall

theorem fitting (n : Nat) (h : (Trace.steps twoRounds).all (fun σ =>
      ((node.worked (clients n) σ.1).takes (clients n) 0 σ.2).all (fun e =>
        decide (e.2.length ≤ 4))) = true) : node.Fitting (clients n) 0 twoRounds := by
  intro σ hσ sess frame htakes
  have hlen := forall_takes (Q := fun _ frame => decide (frame.length ≤ 4)) h σ hσ sess frame htakes
  exact ⟨of_decide_eq_true hlen, rfl⟩

/-- **A frame is replaced**: with the keys of two relays out of three, the worker takes both frames
and posts neither, and the second one stands where the first one was staged. -/
theorem frame_replaced :
    (node.popped (clients 2) 0 twoRounds).map Popped.frame = [[1], [2]] ∧
      (node.posted (clients 2) 0 twoRounds).length = 0 ∧
      ((node.worked (clients 2) twoRounds).session 0).map (fun sess =>
        (show Option (List Nat) from sess.pending)) = some (some [2, 0, 0, 0, 0, 0, 0, 0, 0]) ∧
      ¬ node.Delivered (clients 2) 0 twoRounds := by
  have hpopped : (node.popped (clients 2) 0 twoRounds).map Popped.frame = [[1], [2]] := by
    decide +kernel
  have hposted : (node.posted (clients 2) 0 twoRounds).length = 0 := by decide +kernel
  refine ⟨hpopped, hposted, by decide +kernel, fun h => ?_⟩
  have heq := List.Forall₂.length_eq h
  have hlen := congrArg List.length hpopped
  rw [List.length_map] at hlen
  rw [hposted, hlen] at heq
  cases heq

/-- With every key both frames are posted. -/
theorem delivered_toy : node.Delivered (clients 3) 0 twoRounds :=
  (delivered_iff_keysComplete (fun _ => 10) (fun round => round) (fun _ _ => clientConfig 3) node
    (fun _ => rfl) (fun _ => nofun) twoRounds (fun f hf => by simp [twoRounds] at hf) 0
    (fitting 3 (by decide +kernel))).mpr
      (forall_takes (Q := fun sess _ => sess.cfg.complete) (by decide +kernel))

end PanetiereClientToy
end Anymone
