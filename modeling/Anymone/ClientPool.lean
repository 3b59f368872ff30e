import Anymone.Bytes
import Anymone.Trace
import Mathlib.Data.List.Nodup
import Mathlib.Logic.Function.Basic

/-! # The pool of clients behind a channel

A pool keeps the messages it accepted in a queue and hands the head of it to a client that can carry
a message this round; while messages still wait, it mints further clients, one at a time, and
retires those that are idle.  Callers, the distributor, the spawning task and the reaper run
concurrently; a step is what one of them does between two points where another may run.

A client is a number, and the caller's own is 0.  Which client may carry a message, how long one has
been idle, what a carrier holds and whether a spawn succeeds are chosen by the run.
-/

namespace Anymone

/-- `MAX_QUEUED`. -/
def maxQueued : Nat := 64

/-- What became of a message that left the queue for good. -/
inductive SettledAs where
  | sent (client : Nat)
  /-- A shrunk carrier refused it. -/
  | dropped
  deriving DecidableEq

/-- Where `dispatch` stands. -/
inductive Dispatcher where
  | idle
  | visiting (rest : List Nat)
  /-- A message is popped and not sent yet. -/
  | holding (client : Nat) (payload : Bytes) (rest : List Nat)
  /-- `grow` has found the pool small enough. -/
  | growing
  deriving DecidableEq

/-- Where the task that `grow` spawns stands; it holds `spawning` unless it is idle. -/
inductive Spawner where
  | idle
  | starting
  /-- It joined or gave up, and has not cleared the flag. -/
  | done
  deriving DecidableEq

/-- `PoolInner`, its tasks, the outboxes of the clients, and what was accepted and settled. -/
structure ClientPool where
  /-- `spawn.is_some()`. -/
  canSpawn : Bool
  maxClients : Nat
  attached : Bool
  members : List Nat
  queue : List Bytes
  dispatcher : Dispatcher
  spawner : Spawner
  /-- The next client's number. -/
  clients : Nat
  outbox : Nat → List Bytes
  accepted : List Bytes
  settled : List (Bytes × SettledAs)

namespace ClientPool

/-- `start`. -/
def start (canSpawn : Bool) (maxClients : Nat) : ClientPool :=
  ⟨canSpawn, max maxClients 1, false, [], [], .idle, .idle, 1, fun _ => [], [], []⟩

/-- `ClientPool::new`. -/
def new (maxClients : Nat) : ClientPool := start (decide (1 < maxClients)) maxClients

/-- `ClientPool::single`. -/
def single : ClientPool := start false 1

/-- How `send_unlinkable` ends. -/
inductive Sent where
  | ok
  | tooLarge
  | failed
  deriving DecidableEq

/-- A step of one of the tasks. -/
inductive Step where
  /-- The caller's own client got its pipe. -/
  | attach
  /-- `send`, when the carriers hold that many bytes, or none is there. -/
  | send (payload : Bytes) (carrier : Option Nat)
  /-- `dispatch` reads the members. -/
  | begin
  /-- `dispatch` looks at the next member, which may have frames of its own or be too new. -/
  | visit (busy : Bool)
  /-- `send_unlinkable` returns. -/
  | settle (sent : Sent)
  /-- `dispatch` has seen every member. -/
  | finish
  /-- `spawning.swap`. -/
  | swap
  /-- The spawned client has a pipe, or has none. -/
  | spawned (ok : Bool)
  /-- `spawning.store(false)`. -/
  | clear
  /-- `reap`, with the clients that are idle for long enough. -/
  | reap (idle : Nat → Bool)
  /-- A round takes a frame of a client. -/
  | stage (client : Nat)

variable (s : ClientPool)

/-- `ClientPool::send`. -/
def send (payload : Bytes) (carrier : Option Nat) : ClientPool :=
  match s.members, carrier with
  | [], _ => s
  | _ :: _, none => s
  | _ :: _, some limit =>
      if limit < payload.length then s
      else if maxQueued ≤ s.queue.length then s
      else { s with queue := s.queue ++ [payload], accepted := s.accepted ++ [payload] }

/-- The body of the loop of `dispatch`, up to the send. -/
def visit (busy : Bool) : ClientPool :=
  match s.dispatcher with
  | .visiting (client :: rest) =>
      if busy || !(s.outbox client).isEmpty then { s with dispatcher := .visiting rest }
      else match s.queue with
        | [] => { s with dispatcher := .idle }
        | payload :: queue =>
            { s with queue := queue, dispatcher := .holding client payload rest }
  | _ => s

/-- The rest of the body. -/
def settle (sent : Sent) : ClientPool :=
  match s.dispatcher with
  | .holding client payload rest =>
      match sent with
      | .ok => { s with
          outbox := Function.update s.outbox client (s.outbox client ++ [payload])
          settled := s.settled ++ [(payload, .sent client)]
          dispatcher := .visiting rest }
      | .tooLarge => { s with
          settled := s.settled ++ [(payload, .dropped)]
          dispatcher := .visiting rest }
      | .failed => { s with queue := payload :: s.queue, dispatcher := .idle }
  | _ => s

/-- The end of `dispatch`, and the start of `grow`. -/
def finish : ClientPool :=
  match s.dispatcher with
  | .visiting [] =>
      if s.queue.isEmpty || !s.canSpawn || decide (s.maxClients ≤ s.members.length) then
        { s with dispatcher := .idle }
      else { s with dispatcher := .growing }
  | _ => s

/-- The end of `grow`. -/
def swap : ClientPool :=
  match s.dispatcher with
  | .growing =>
      if s.spawner = .idle then { s with spawner := .starting, dispatcher := .idle }
      else { s with dispatcher := .idle }
  | _ => s

/-- The spawned task, up to the flag. -/
def spawned (ok : Bool) : ClientPool :=
  match s.spawner with
  | .starting =>
      if ok then { s with
        members := s.members ++ [s.clients], clients := s.clients + 1, spawner := .done }
      else { s with spawner := .done }
  | _ => s

/-- `reap`: the caller's own client stays, and a client that has something queued. -/
def reap (idle : Nat → Bool) : ClientPool :=
  { s with members := s.members.filter (fun client =>
      decide (client = 0) || !(s.outbox client).isEmpty || !idle client) }

/-- One step. -/
def step : Step → ClientPool
  | .attach => if s.attached then s else { s with attached := true, members := s.members ++ [0] }
  | .send payload carrier => s.send payload carrier
  | .begin => if s.dispatcher = .idle then { s with dispatcher := .visiting s.members } else s
  | .visit busy => s.visit busy
  | .settle sent => s.settle sent
  | .finish => s.finish
  | .swap => s.swap
  | .spawned ok => s.spawned ok
  | .clear => if s.spawner = .done then { s with spawner := .idle } else s
  | .reap idle => s.reap idle
  | .stage client =>
      { s with outbox := Function.update s.outbox client (s.outbox client).tail }

/-- The pool after a run. -/
def after (canSpawn : Bool) (maxClients : Nat) (steps : List Step) : ClientPool :=
  Trace.run (start canSpawn maxClients) step steps

/-! ## What a step does -/

/-- The steps, each with what it needs and what it leaves. -/
inductive Effect (s : ClientPool) : Step → ClientPool → Prop where
  /-- The task of the step is elsewhere, or has nothing to do. -/
  | keep (op : Step) : Effect s op s
  | attach (h : s.attached = false) :
      Effect s .attach { s with attached := true, members := s.members ++ [0] }
  | accept (payload : Bytes) (carrier : Option Nat) (hm : s.members ≠ [])
      (hroom : s.queue.length < maxQueued) : Effect s (.send payload carrier)
        { s with queue := s.queue ++ [payload], accepted := s.accepted ++ [payload] }
  | begin (h : s.dispatcher = .idle) :
      Effect s .begin { s with dispatcher := .visiting s.members }
  | pass (busy : Bool) {client : Nat} {rest : List Nat}
      (h : s.dispatcher = .visiting (client :: rest)) :
      Effect s (.visit busy) { s with dispatcher := .visiting rest }
  | dry (busy : Bool) {client : Nat} {rest : List Nat}
      (h : s.dispatcher = .visiting (client :: rest)) :
      Effect s (.visit busy) { s with dispatcher := .idle }
  | pop (busy : Bool) {client : Nat} {rest : List Nat} {payload : Bytes} {queue : List Bytes}
      (h : s.dispatcher = .visiting (client :: rest)) (hq : s.queue = payload :: queue) :
      Effect s (.visit busy) { s with queue := queue, dispatcher := .holding client payload rest }
  | sent {client : Nat} {payload : Bytes} {rest : List Nat}
      (h : s.dispatcher = .holding client payload rest) : Effect s (.settle .ok)
        { s with
          outbox := Function.update s.outbox client (s.outbox client ++ [payload])
          settled := s.settled ++ [(payload, .sent client)]
          dispatcher := .visiting rest }
  | refuse {client : Nat} {payload : Bytes} {rest : List Nat}
      (h : s.dispatcher = .holding client payload rest) : Effect s (.settle .tooLarge)
        { s with settled := s.settled ++ [(payload, .dropped)], dispatcher := .visiting rest }
  | requeue {client : Nat} {payload : Bytes} {rest : List Nat}
      (h : s.dispatcher = .holding client payload rest) : Effect s (.settle .failed)
        { s with queue := payload :: s.queue, dispatcher := .idle }
  | rest (h : s.dispatcher = .visiting []) : Effect s .finish { s with dispatcher := .idle }
  | grow (h : s.dispatcher = .visiting []) (hq : s.queue ≠ [])
      (hlt : s.members.length < s.maxClients) : Effect s .finish { s with dispatcher := .growing }
  | mint (h : s.dispatcher = .growing) (hs : s.spawner = .idle) :
      Effect s .swap { s with spawner := .starting, dispatcher := .idle }
  | yield (h : s.dispatcher = .growing) : Effect s .swap { s with dispatcher := .idle }
  | join (hs : s.spawner = .starting) : Effect s (.spawned true)
      { s with members := s.members ++ [s.clients], clients := s.clients + 1, spawner := .done }
  | giveUp (hs : s.spawner = .starting) : Effect s (.spawned false) { s with spawner := .done }
  | clear (hs : s.spawner = .done) : Effect s .clear { s with spawner := .idle }
  | reap (idle : Nat → Bool) : Effect s (.reap idle) (s.reap idle)
  | stage (client : Nat) : Effect s (.stage client)
      { s with outbox := Function.update s.outbox client (s.outbox client).tail }

/-- **What a step does.** -/
theorem effect_step (s : ClientPool) (op : Step) : Effect s op (s.step op) := by
  cases op with
  | attach =>
    unfold step
    dsimp only
    split
    next => exact .keep _
    next h => exact .attach (by simpa using h)
  | send payload carrier =>
    show Effect s _ (s.send payload carrier)
    unfold send
    split
    next => exact .keep _
    next => exact .keep _
    next hm =>
      split_ifs with hlimit hfull
      · exact .keep _
      · exact .keep _
      · exact .accept payload _ (by simp [hm]) (Nat.lt_of_not_le hfull)
  | begin =>
    unfold step
    dsimp only
    split
    next h => exact .begin h
    next => exact .keep _
  | visit busy =>
    show Effect s _ (s.visit busy)
    unfold visit
    split
    -- `visit` takes the next client out of the pass, whatever it has waiting
    next client rest h =>
      split
      next => exact .pass busy h
      next =>
        split
        next => exact .dry busy h
        next payload queue hq => exact .pop busy h hq
    next => exact .keep _
  | settle sent =>
    show Effect s _ (s.settle sent)
    unfold settle
    split
    next client payload rest h =>
      cases sent with
      | ok => exact .sent h
      | tooLarge => exact .refuse h
      | failed => exact .requeue h
    next => exact .keep _
  | finish =>
    show Effect s _ s.finish
    unfold finish
    split
    next h =>
      split
      next => exact .rest h
      -- it grows only below the cap and with messages waiting
      next hgrow =>
        simp only [Bool.or_eq_true, not_or, List.isEmpty_iff, decide_eq_true_eq] at hgrow
        exact .grow h hgrow.1.1 (Nat.lt_of_not_le hgrow.2)
    next => exact .keep _
  | swap =>
    show Effect s _ s.swap
    unfold swap
    split
    next h =>
      split
      next hs => exact .mint h hs
      next => exact .yield h
    next => exact .keep _
  | spawned ok =>
    show Effect s _ (s.spawned ok)
    unfold spawned
    split
    next hs =>
      cases ok with
      | true => exact .join hs
      | false => exact .giveUp hs
    next => exact .keep _
  | clear =>
    unfold step
    dsimp only
    split
    next hs => exact .clear hs
    next => exact .keep _
  | reap idle => exact .reap idle
  | stage client => exact .stage client

theorem after_concat (canSpawn : Bool) (maxClients : Nat) (steps : List Step) (op : Step) :
    after canSpawn maxClients (steps ++ [op]) = (after canSpawn maxClients steps).step op :=
  Trace.run_concat _ _ steps op

/-- What every step keeps holds after every run. -/
theorem after_induction {P : ClientPool → Prop} {canSpawn : Bool} {maxClients : Nat}
    (h0 : P (start canSpawn maxClients))
    (hstep : ∀ {s s' : ClientPool} {op : Step}, P s → Effect s op s' → P s') (steps : List Step) :
    P (after canSpawn maxClients steps) := by
  induction steps using List.reverseRecOn with
  | nil => exact h0
  | append_singleton l op ih =>
    rw [after_concat]
    exact hstep ih (effect_step _ op)

/-! ## Nothing lost, nothing repeated -/

/-- The message `dispatch` has popped. -/
def inHand (s : ClientPool) : List Bytes :=
  match s.dispatcher with
  | .holding _ payload _ => [payload]
  | _ => []

/-- The messages that were accepted are those settled, the one in hand and those waiting, in
order; and no more wait than were let in and put back. -/
structure Conserved (s : ClientPool) : Prop where
  order : s.accepted = s.settled.map Prod.fst ++ (s.inHand ++ s.queue)
  bound : (s.inHand ++ s.queue).length ≤ maxQueued + 1

theorem length_inHand_le (s : ClientPool) : s.inHand.length ≤ 1 := by
  unfold inHand
  split <;> simp

namespace Conserved
variable {s s' : ClientPool}

/-- A step that moves nothing. -/
theorem of_same (h : s.Conserved) (ha : s'.accepted = s.accepted) (hs : s'.settled = s.settled)
    (hq : s'.inHand ++ s'.queue = s.inHand ++ s.queue) : s'.Conserved :=
  ⟨by rw [ha, hs, hq]; exact h.order, by rw [hq]; exact h.bound⟩

/-- A step that settles the message in hand. -/
theorem of_settled (h : s.Conserved) {payload : Bytes} {what : SettledAs}
    (hhand : s.inHand = [payload]) (ha : s'.accepted = s.accepted)
    (hs : s'.settled = s.settled ++ [(payload, what)]) (hhand' : s'.inHand = [])
    (hq : s'.queue = s.queue) : s'.Conserved := by
  obtain ⟨horder, hbound⟩ := h
  rw [hhand] at horder hbound
  refine ⟨?_, ?_⟩
  · rw [ha, hs, hhand', hq, horder]
    simp
  · rw [hhand', hq, List.nil_append]
    rw [List.length_append] at hbound
    omega

/-- **No step loses or repeats a message.** -/
theorem step {op : Step} (h : s.Conserved) (he : Effect s op s') : s'.Conserved := by
  cases he with
  | keep => exact h
  | attach hatt => exact h.of_same rfl rfl rfl
  | accept payload carrier hm hroom =>
    refine ⟨?_, ?_⟩
    · show s.accepted ++ [payload] = s.settled.map Prod.fst ++ (s.inHand ++ (s.queue ++ [payload]))
      rw [h.order]
      simp
    · show (s.inHand ++ (s.queue ++ [payload])).length ≤ maxQueued + 1
      have := s.length_inHand_le
      simp only [List.length_append, List.length_singleton]
      omega
  | begin hd => exact h.of_same rfl rfl (by simp [inHand, hd])
  | pass busy hd => exact h.of_same rfl rfl (by simp [inHand, hd])
  | dry busy hd => exact h.of_same rfl rfl (by simp [inHand, hd])
  | pop busy hd hq => exact h.of_same rfl rfl (by simp [inHand, hd, hq])
  | sent hd => exact h.of_settled (by simp [inHand, hd]) rfl rfl rfl rfl
  | refuse hd => exact h.of_settled (by simp [inHand, hd]) rfl rfl rfl rfl
  | requeue hd => exact h.of_same rfl rfl (by simp [inHand, hd])
  | rest hd => exact h.of_same rfl rfl (by simp [inHand, hd])
  | grow hd hq hlt => exact h.of_same rfl rfl (by simp [inHand, hd])
  | mint hd hs => exact h.of_same rfl rfl (by simp [inHand, hd])
  | yield hd => exact h.of_same rfl rfl (by simp [inHand, hd])
  | join hs => exact h.of_same rfl rfl rfl
  | giveUp hs => exact h.of_same rfl rfl rfl
  | clear hs => exact h.of_same rfl rfl rfl
  | reap idle => exact h.of_same rfl rfl rfl
  | stage client => exact h.of_same rfl rfl rfl

end Conserved

/-- What was settled as sent to a client. -/
def sentTo (s : ClientPool) (client : Nat) : List Bytes :=
  s.settled.filterMap (fun e => if e.2 = .sent client then some e.1 else none)

/-- A client is on its way into the pool. -/
def pending (s : ClientPool) : Nat := if s.spawner = .starting then 1 else 0

/-- What a pool that is not attached has not. -/
structure Vacant (s : ClientPool) : Prop where
  members : s.members = []
  queue : s.queue = []
  spawner : s.spawner = .idle
  dispatcher : s.dispatcher = .idle ∨ s.dispatcher = .visiting []

/-- The caller's own client comes first and stays; the others have numbers of their own, and there
are no more of them than the checks of `grow` let in. -/
structure Staffed (s : ClientPool) : Prop where
  limit : 1 ≤ s.maxClients
  own : s.attached = true → s.members.head? = some 0
  vacant : s.attached = false → s.Vacant
  nodup : s.members.Nodup
  numbered : 1 ≤ s.clients
  named : ∀ client ∈ s.members, client < s.clients
  few : s.members.length + s.pending ≤ s.maxClients + 1
  checked : s.dispatcher = .growing → s.members.length + s.pending ≤ s.maxClients

theorem not_vacant {s : ClientPool} (h : s.dispatcher ≠ .idle) (hne : s.dispatcher ≠ .visiting []) :
    ¬ s.Vacant := fun hv => hv.dispatcher.elim h hne

theorem staffed_start (canSpawn : Bool) (maxClients : Nat) :
    (start canSpawn maxClients).Staffed where
  limit := le_max_right _ _
  own h := by cases h
  vacant _ := ⟨rfl, rfl, rfl, Or.inl rfl⟩
  nodup := List.nodup_nil
  numbered := le_rfl
  named _ h := absurd h List.not_mem_nil
  few := Nat.zero_le _
  checked h := by cases h

theorem pending_le (s : ClientPool) : s.pending ≤ 1 := by
  unfold pending
  split
  · exact le_rfl
  · exact Nat.zero_le _

namespace Staffed
variable {s s' : ClientPool}

/-- A step that leaves the members and the spawner alone and is not the check of `grow`. -/
theorem of_same (h : s.Staffed) (hmax : s'.maxClients = s.maxClients)
    (hatt : s'.attached = s.attached) (hmem : s'.members = s.members)
    (hspawn : s'.spawner = s.spawner) (hclients : s'.clients = s.clients)
    (hvacant : s.Vacant → s'.queue = [] ∧
      (s'.dispatcher = .idle ∨ s'.dispatcher = .visiting []))
    (hgrow : s'.dispatcher = .growing → s.dispatcher = .growing) : s'.Staffed where
  limit := hmax ▸ h.limit
  own hown := by rw [hmem]; exact h.own (hatt ▸ hown)
  vacant hnot := by
    have hv := h.vacant (hatt ▸ hnot)
    exact ⟨hmem.trans hv.members, (hvacant hv).1, hspawn.trans hv.spawner, (hvacant hv).2⟩
  nodup := hmem ▸ h.nodup
  numbered := hclients ▸ h.numbered
  named := by rw [hmem, hclients]; exact h.named
  few := by unfold pending; rw [hmem, hspawn, hmax]; exact h.few
  checked hg := by unfold pending; rw [hmem, hspawn, hmax]; exact h.checked (hgrow hg)

/-- A pool that has something to work on is attached. -/
theorem attached_of (h : s.Staffed) (hnot : ¬ s.Vacant) : s.attached = true := by
  by_contra hatt
  exact hnot (h.vacant (by simpa using hatt))

/-- A step of `dispatch` between its start and `grow`, of a pool that is attached. -/
theorem of_pass (h : s.Staffed) (hnot : ¬ s.Vacant) (hmax : s'.maxClients = s.maxClients)
    (hatt : s'.attached = s.attached) (hmem : s'.members = s.members)
    (hspawn : s'.spawner = s.spawner) (hclients : s'.clients = s.clients)
    (hgrow : s'.dispatcher ≠ .growing) : s'.Staffed :=
  h.of_same hmax hatt hmem hspawn hclients (fun hv => absurd hv hnot)
    (fun hg => absurd hg hgrow)

/-- A step of the spawner that brings no client. -/
theorem of_spawner (h : s.Staffed) (spawner : Spawner) (hbusy : s.spawner ≠ .idle)
    (hstart : spawner ≠ .starting) : Staffed { s with spawner := spawner } := by
  have hatt := h.attached_of (fun hv => hbusy hv.spawner)
  have hpending : ({ s with spawner := spawner } : ClientPool).pending = 0 := if_neg hstart
  refine ⟨h.limit, h.own, fun hnot => ?_, h.nodup, h.numbered, h.named, ?_, fun hg => ?_⟩
  · rw [hatt] at hnot
    cases hnot
  · have := h.few
    rw [hpending]
    show s.members.length + 0 ≤ s.maxClients + 1
    omega
  · have := h.checked hg
    rw [hpending]
    show s.members.length + 0 ≤ s.maxClients
    omega

theorem reap (h : s.Staffed) (idle : Nat → Bool) : (s.reap idle).Staffed := by
  have hlen : (s.reap idle).members.length ≤ s.members.length := List.length_filter_le ..
  refine ⟨h.limit, fun hown => ?_, fun hnot => ?_, h.nodup.filter _, h.numbered,
    fun client hclient => h.named client (List.mem_filter.mp hclient).1, ?_, fun hg => ?_⟩
  · obtain ⟨rest, hrest⟩ : ∃ rest, s.members = 0 :: rest := by
      have hhead := h.own hown
      cases hm : s.members with
      | nil => rw [hm] at hhead; cases hhead
      | cons a rest =>
        rw [hm] at hhead
        exact ⟨rest, by rw [Option.some.inj hhead]⟩
    unfold ClientPool.reap
    dsimp only
    rw [hrest, List.filter_cons_of_pos (by simp)]
    rfl
  · have hv := h.vacant hnot
    exact ⟨by unfold ClientPool.reap; rw [hv.members]; rfl, hv.queue, hv.spawner, hv.dispatcher⟩
  · have := h.few
    show (s.reap idle).members.length + s.pending ≤ s.maxClients + 1
    omega
  · have := h.checked hg
    show (s.reap idle).members.length + s.pending ≤ s.maxClients
    omega

/-- A client of a number of its own joins. -/
theorem join (h : s.Staffed) (hs : s.spawner = .starting) :
    Staffed { s with
      members := s.members ++ [s.clients], clients := s.clients + 1, spawner := .done } := by
  have hpending : s.pending = 1 := by simp [pending, hs]
  have hatt : s.attached = true := by
    refine h.attached_of (fun hv => ?_)
    rw [hv.spawner] at hs
    cases hs
  refine ⟨h.limit, fun hown => ?_, fun hnot => ?_, ?_, Nat.le_succ_of_le h.numbered,
    fun client hclient => ?_, ?_, fun hg => ?_⟩
  · rw [List.head?_append, h.own hown]
    rfl
  · rw [hatt] at hnot
    cases hnot
  · rw [List.nodup_append]
    refine ⟨h.nodup, List.nodup_singleton _, fun a ha b hb hab => ?_⟩
    have hlt := h.named a ha
    rw [hab, List.mem_singleton.mp hb] at hlt
    exact lt_irrefl _ hlt
  · show client < s.clients + 1
    rcases List.mem_append.mp hclient with hold | hlast
    · have := h.named client hold
      omega
    · rw [List.mem_singleton.mp hlast]
      exact Nat.lt_succ_self _
  · have := h.few
    show (s.members ++ [s.clients]).length + 0 ≤ s.maxClients + 1
    rw [List.length_append, List.length_singleton]
    omega
  · have := h.checked hg
    show (s.members ++ [s.clients]).length + 0 ≤ s.maxClients
    rw [List.length_append, List.length_singleton]
    omega

/-- **No step breaks the staff of the pool.** -/
theorem step {op : Step} (h : s.Staffed) (he : Effect s op s') : s'.Staffed := by
  cases he with
  | keep => exact h
  | attach hatt =>
    have hv := h.vacant hatt
    have hpending : s.pending = 0 := by simp [pending, hv.spawner]
    refine ⟨h.limit, fun _ => by simp [hv.members], nofun, by simp [hv.members], h.numbered,
      fun client hclient => ?_, ?_, fun hgrow => ?_⟩
    · rw [hv.members, List.nil_append, List.mem_singleton] at hclient
      rw [hclient]
      exact h.numbered
    · show (s.members ++ [0]).length + s.pending ≤ s.maxClients + 1
      rw [hv.members, hpending]
      exact Nat.le_add_left _ _
    · rcases hv.dispatcher with hd | hd <;> rw [hd] at hgrow <;> cases hgrow
  | accept payload carrier hm hroom =>
    exact h.of_same rfl rfl rfl rfl rfl (fun hv => absurd hv.members hm) id
  | begin hd =>
    exact h.of_same rfl rfl rfl rfl rfl
      (fun hv => ⟨hv.queue, Or.inr (congrArg Dispatcher.visiting hv.members)⟩) nofun
  | pass busy hd =>
    exact h.of_pass (not_vacant (by simp [hd]) (by simp [hd])) rfl rfl rfl rfl rfl nofun
  | dry busy hd =>
    exact h.of_pass (not_vacant (by simp [hd]) (by simp [hd])) rfl rfl rfl rfl rfl nofun
  | pop busy hd hq =>
    exact h.of_pass (not_vacant (by simp [hd]) (by simp [hd])) rfl rfl rfl rfl rfl nofun
  | sent hd =>
    exact h.of_pass (not_vacant (by simp [hd]) (by simp [hd])) rfl rfl rfl rfl rfl nofun
  | refuse hd =>
    exact h.of_pass (not_vacant (by simp [hd]) (by simp [hd])) rfl rfl rfl rfl rfl nofun
  | requeue hd =>
    exact h.of_pass (not_vacant (by simp [hd]) (by simp [hd])) rfl rfl rfl rfl rfl nofun
  | rest hd => exact h.of_same rfl rfl rfl rfl rfl (fun hv => ⟨hv.queue, Or.inl rfl⟩) nofun
  | grow hd hq hlt =>
    have hatt := h.attached_of (fun hv => hq hv.queue)
    refine ⟨h.limit, h.own, fun hnot => ?_, h.nodup, h.numbered, h.named, h.few, fun _ => ?_⟩
    · rw [hatt] at hnot
      cases hnot
    · have hle := pending_le s
      show s.members.length + s.pending ≤ s.maxClients
      omega
  | mint hd hs =>
    -- The check of `grow` is old by now: a client may have joined since.
    have hatt := h.attached_of (not_vacant (by simp [hd]) (by simp [hd]))
    have hchecked := h.checked hd
    refine ⟨h.limit, h.own, fun hnot => ?_, h.nodup, h.numbered, h.named, ?_, nofun⟩
    · rw [hatt] at hnot
      cases hnot
    · show s.members.length + 1 ≤ s.maxClients + 1
      omega
  | yield hd =>
    exact h.of_pass (not_vacant (by simp [hd]) (by simp [hd])) rfl rfl rfl rfl rfl nofun
  | join hs => exact h.join hs
  | giveUp hs => exact h.of_spawner .done (by simp [hs]) nofun
  | clear hs => exact h.of_spawner .idle (by simp [hs]) nofun
  | reap idle => exact h.reap idle
  | stage client => exact h.of_same rfl rfl rfl rfl rfl (fun hv => ⟨hv.queue, hv.dispatcher⟩) id

end Staffed

theorem staffed_after (canSpawn : Bool) (maxClients : Nat) (steps : List Step) :
    (after canSpawn maxClients steps).Staffed :=
  after_induction (staffed_start canSpawn maxClients) Staffed.step steps

theorem maxClients_after (canSpawn : Bool) (maxClients : Nat) (steps : List Step) :
    (after canSpawn maxClients steps).maxClients = max maxClients 1 := by
  refine after_induction (P := fun s => s.maxClients = max maxClients 1) rfl ?_ steps
  intro s s' op h he
  rw [← h]
  cases he <;> rfl

/-- No more clients than the limit, the one on its way included. -/
structure Tight (s : ClientPool) : Prop where
  few : s.members.length + s.pending ≤ s.maxClients
  checked : s.dispatcher = .growing → s.members.length < s.maxClients

namespace Tight
variable {s s' : ClientPool}

/-- A step that brings no client keeps the limit. -/
theorem of_le (h : s.Tight) (hmax : s'.maxClients = s.maxClients)
    (hmem : s'.members.length ≤ s.members.length) (hspawn : s'.spawner = s.spawner)
    (hgrow : s'.dispatcher = .growing → s.dispatcher = .growing) : s'.Tight where
  few := by
    have := h.few
    unfold pending at this ⊢
    rw [hmax, hspawn]
    omega
  checked hg := by
    rw [hmax]
    exact lt_of_le_of_lt hmem (h.checked (hgrow hg))

/-- A step of `dispatch` outside `grow` keeps the limit. -/
theorem of_pass (h : s.Tight) (hmax : s'.maxClients = s.maxClients)
    (hmem : s'.members = s.members) (hspawn : s'.spawner = s.spawner)
    (hgrow : s'.dispatcher ≠ .growing) : s'.Tight :=
  h.of_le hmax (le_of_eq (by rw [hmem])) hspawn (fun hg => absurd hg hgrow)

/-- **No step passes the limit**, unless a client joins between the two checks of `grow`. -/
theorem step {op : Step} (h : s.Tight) (hs : s.Staffed) (he : Effect s op s')
    (hjoin : op = .spawned true → s.dispatcher ≠ .growing) : s'.Tight := by
  cases he with
  | keep => exact h
  | attach hatt =>
    have hv := hs.vacant hatt
    have hpending : s.pending = 0 := by simp [pending, hv.spawner]
    refine ⟨?_, fun hg => ?_⟩
    · show (s.members ++ [0]).length + s.pending ≤ s.maxClients
      rw [hv.members, hpending]
      exact hs.limit
    · rcases hv.dispatcher with hd | hd <;> rw [hd] at hg <;> cases hg
  | accept payload carrier hm hroom => exact h.of_le rfl le_rfl rfl id
  | begin hd => exact h.of_pass rfl rfl rfl nofun
  | pass busy hd => exact h.of_pass rfl rfl rfl nofun
  | dry busy hd => exact h.of_pass rfl rfl rfl nofun
  | pop busy hd hq => exact h.of_pass rfl rfl rfl nofun
  | sent hd => exact h.of_pass rfl rfl rfl nofun
  | refuse hd => exact h.of_pass rfl rfl rfl nofun
  | requeue hd => exact h.of_pass rfl rfl rfl nofun
  | rest hd => exact h.of_pass rfl rfl rfl nofun
  | grow hd hq hlt => exact ⟨h.few, fun _ => hlt⟩
  | mint hd hspawn =>
    have hlt := h.checked hd
    exact ⟨Nat.succ_le_of_lt hlt, nofun⟩
  | yield hd => exact h.of_pass rfl rfl rfl nofun
  | join hspawn =>
    have hpending : s.pending = 1 := by simp [pending, hspawn]
    have hfew := h.few
    refine ⟨?_, fun hg => absurd hg (hjoin rfl)⟩
    show (s.members ++ [s.clients]).length + 0 ≤ s.maxClients
    rw [List.length_append, List.length_singleton]
    omega
  | giveUp hspawn => exact ⟨le_trans (Nat.le_add_right _ _) h.few, h.checked⟩
  | clear hspawn => exact ⟨le_trans (Nat.le_add_right _ _) h.few, h.checked⟩
  | reap idle => exact h.of_le rfl (List.length_filter_le ..) rfl id
  | stage client => exact h.of_le rfl le_rfl rfl id

end Tight

theorem tight_after (canSpawn : Bool) (maxClients : Nat) (steps : List Step)
    (hjoin : ∀ σ ∈ Trace.steps steps, σ.2 = .spawned true →
      (after canSpawn maxClients σ.1).dispatcher ≠ .growing) :
    (after canSpawn maxClients steps).Tight := by
  induction steps using List.reverseRecOn with
  | nil => exact ⟨Nat.zero_le _, nofun⟩
  | append_singleton l op ih =>
    rw [Trace.steps_concat] at hjoin
    rw [after_concat]
    exact (ih (fun σ hσ => hjoin σ (List.mem_append_left _ hσ))).step
      (staffed_after canSpawn maxClients l) (effect_step _ op)
      (hjoin (l, op) (List.mem_append_right _ (List.mem_singleton.mpr rfl)))

/-- **Who is in the pool.**  In every run the caller's own client comes first once it has attached,
and is never retired; no client is in twice; and the pool is never larger than one above its limit,
nor above its limit itself while no client joins between the two checks of `grow`. -/
theorem pool_clients (canSpawn : Bool) (maxClients : Nat) (steps : List Step) :
    let s := after canSpawn maxClients steps
    (s.attached = true → s.members.head? = some 0) ∧ s.members.Nodup ∧
      s.members.length ≤ max maxClients 1 + 1 ∧
      ((∀ σ ∈ Trace.steps steps, σ.2 = .spawned true →
          (after canSpawn maxClients σ.1).dispatcher ≠ .growing) →
        s.members.length ≤ max maxClients 1) := by
  intro s
  have hs : s.Staffed := staffed_after canSpawn maxClients steps
  have hmax : s.maxClients = max maxClients 1 := maxClients_after canSpawn maxClients steps
  refine ⟨hs.own, hs.nodup, ?_, fun hjoin => ?_⟩
  · rw [← hmax]
    exact le_trans (Nat.le_add_right _ _) hs.few
  · rw [← hmax]
    exact le_trans (Nat.le_add_right _ _) (tight_after canSpawn maxClients steps hjoin).few

/-- A client joins after `grow` has looked at the size of the pool: the limit of two is passed. -/
example : (after true 2 [.attach, .send [1] (some 8), .begin, .visit true, .finish, .swap, .begin,
    .visit true, .finish, .spawned true, .clear, .swap, .spawned true]).members = [0, 1, 2] := by
  decide

/-! ## What a retired client takes with it -/

end ClientPool
end Anymone
