import Anymone.Participation
import Anymone.SubnetWorker

/-! # The workers of a node

A node runs one task per subnet of its configuration.  `apply_config` reconciles the running tasks
with a configuration newly adopted: it leaves a task alone whose subnet is unchanged, spawns one
for a subnet that is new or changed, and tells the tasks that are replaced or no longer wanted to
shut down.  The tasks are kept with everything that was ever sent to them, so that a task that no
map leads to any more can be spoken of.
-/

namespace Anymone.Runtime

/-! ## The maps -/

/-- What `subnet_sig` serialises. -/
structure SubnetSig where
  id : SubnetId
  roster : List Pubkey
  protocol : ProtocolConfig
  attested : Bool
  keys : List (Option (Pubkey × ExchangePublicKeyWire))
  deriving DecidableEq

/-- `subnet_sig`. -/
def subnetSig (subnet : Subnet) (relayKeys : List (Pubkey × ExchangePublicKeyWire)) : SubnetSig :=
  let roster := subnet.relays.insertionSort (· ≤ ·)
  ⟨subnet.id, roster, subnet.protocol, subnet.attested,
    roster.map (fun pk => relayKeys.find? (fun e => decide (e.1 = pk)))⟩

/-- A spawned `run_subnet`: what it was called with, and what was sent to it since. -/
structure WorkerTask where
  subnet : Subnet
  relayKeys : List (Pubkey × ExchangePublicKeyWire)
  epochUnixMs : U64
  armed : Bool
  inbox : List StageMsg

/-- The signature its configuration gave a task. -/
def WorkerTask.sig (t : WorkerTask) : SubnetSig := subnetSig t.subnet t.relayKeys

/-- `SubnetWorker`: the signature of a worker and its task, by its number. -/
structure WorkerHandle where
  sig : SubnetSig
  task : Nat

/-- `SubnetTasks` and the stage channels of the node. -/
structure SubnetTasks where
  workers : OrdMap SubnetId WorkerHandle
  /-- `AnymoneInner::subnets`: the task a channel leads to. -/
  stage : OrdMap SubnetId Nat
  /-- Every task ever spawned. -/
  tasks : List WorkerTask

namespace SubnetTasks

/-- Nothing runs yet. -/
def empty : SubnetTasks := ⟨.empty, .empty, []⟩

variable (s : SubnetTasks)

/-- `tx.send(msg)`. -/
def send (task : Nat) (msg : StageMsg) : SubnetTasks :=
  { s with tasks := s.tasks.modify task (fun t => { t with inbox := t.inbox ++ [msg] }) }

/-! ## `apply_config` -/

/-- What the first loop has built so far, and the tasks with those it has spawned. -/
structure Build where
  built : List (SubnetId × WorkerHandle)
  tasks : List WorkerTask

/-- One turn of the first loop. -/
def Build.turn (current : OrdMap SubnetId SubnetSig)
    (relayKeys : List (Pubkey × ExchangePublicKeyWire)) (epochUnixMs : U64) (armed : Bool)
    (b : Build) (subnet : Subnet) : Build :=
  -- a repeated id
  if b.built.any (fun e => decide (e.1 = subnet.id)) then b
  else
    let sig := subnetSig subnet relayKeys
    -- unchanged: the running worker stays
    if current.get? subnet.id = some sig then b
    else if !subnetRunnable subnet then b
    else ⟨b.built ++ [(subnet.id, ⟨sig, b.tasks.length⟩)],
      b.tasks ++ [⟨subnet, relayKeys, epochUnixMs, armed, []⟩]⟩

/-- The signatures of the running workers. -/
def current : OrdMap SubnetId SubnetSig := s.workers.mapVals (fun _ w => w.sig)

/-- New workers start at the cutover when there are workers to hand over from. -/
def armed : Bool := !s.workers.entries.isEmpty

/-- The first loop: whatever is new or changed is spawned. -/
def build {Policy : Type} (body : AnymoneRoundConfigurationBody Policy) : Build :=
  body.subnets.foldl (Build.turn s.current body.relayExchangeKeys body.epochUnixMs s.armed)
    ⟨[], s.tasks⟩

/-- A worker whose subnet is gone. -/
def remove (id : SubnetId) : SubnetTasks :=
  match s.workers.get? id with
  | none => s
  | some _ =>
      match s.stage.get? id with
      | none => { s with workers := s.workers.erase id }
      | some task =>
          { s with workers := s.workers.erase id, stage := s.stage.erase id }.send task .shutdown

/-- A worker that was built, in the place of the one before it. -/
def install (e : SubnetId × WorkerHandle) : SubnetTasks :=
  let told := match s.stage.get? e.1 with
    | some task => s.send task .shutdown
    | none => s
  { told with workers := told.workers.insert e.1 e.2, stage := told.stage.insert e.1 e.2.task }

/-- The cover rate of a subnet, to its worker. -/
def cover (subnet : Subnet) : SubnetTasks :=
  match s.stage.get? subnet.id with
  | some task => s.send task (.setCoverRate subnet.coverRate)
  | none => s

/-- The workers whose subnet is not in the configuration. -/
def removed {Policy : Type} (body : AnymoneRoundConfigurationBody Policy) : List SubnetId :=
  s.workers.keys.filter (fun id => !body.subnets.any (fun n => decide (n.id = id)))

/-- The workers of `apply_config`. -/
def applyConfig {Policy : Type} (body : AnymoneRoundConfigurationBody Policy) : SubnetTasks :=
  let b := s.build body
  let reaped := (s.removed body).foldl remove { s with tasks := b.tasks }
  body.subnets.foldl cover (b.built.foldl install reaped)

end SubnetTasks

/-- A node that adopts configurations: the one it holds and its workers. -/
structure Node (C : SchedulerCrate) where
  config : C.Config
  tasks : SubnetTasks

namespace Node
variable {C : SchedulerCrate}

/-- `build_from_config`. -/
def start (config : C.Config) : Node C := ⟨config, SubnetTasks.empty.applyConfig config.body⟩

/-- `reconfig_watch`, of a payload as it is read: a strictly newer configuration with the
committee's signatures is swapped in and applied. -/
def reconfigWatch (committee : List Pubkey) (threshold : U32) (n : Node C)
    (payload : Option C.Config) : Node C :=
  match payload with
  | none => n
  | some config =>
      if !verifyMultisig committee threshold config then n
      else if config.body.round ≤ n.config.body.round then n
      else ⟨config, n.tasks.applyConfig config.body⟩

/-- The node after the payloads that reached it. -/
def after (committee : List Pubkey) (threshold : U32) (config : C.Config)
    (payloads : List (Option C.Config)) : Node C :=
  payloads.foldl (reconfigWatch committee threshold) (start config)

end Node

/-! ## What a message changes -/

namespace SubnetTasks
variable {s : SubnetTasks}

@[simp] theorem workers_send (task : Nat) (msg : StageMsg) : (s.send task msg).workers = s.workers :=
  rfl

@[simp] theorem stage_send (task : Nat) (msg : StageMsg) : (s.send task msg).stage = s.stage := rfl

/-- A message reaches the task it is sent to, and no other. -/
theorem getElem?_send (task k : Nat) (msg : StageMsg) :
    (s.send task msg).tasks[k]? =
      (s.tasks[k]?).map (fun t => if k = task then { t with inbox := t.inbox ++ [msg] } else t) := by
  unfold send
  rw [List.getElem?_modify]
  by_cases h : task = k
  · simp [h]
  · simp [h, Ne.symm h]

theorem getElem?_send_ne {task k : Nat} (msg : StageMsg) (h : k ≠ task) :
    (s.send task msg).tasks[k]? = s.tasks[k]? := by
  rw [getElem?_send]
  simp [h]

end SubnetTasks

/-! ## Tasks that run, and tasks that were told to stop -/

/-- It was told to shut down, once, and told nothing after that. -/
def WorkerTask.Ended (t : WorkerTask) : Prop :=
  ∃ told, t.inbox = told ++ [.shutdown] ∧ StageMsg.shutdown ∉ told

/-- It was not told to shut down. -/
def WorkerTask.Live (t : WorkerTask) : Prop := StageMsg.shutdown ∉ t.inbox

/-- Between two steps of `apply_config`: `pending` was built and is not installed.  The two maps
lead to the same tasks, the task of a subnet runs for it under the signature kept for it, and a task
that no map leads to and that is not pending has been told to stop. -/
structure Reconciling (pending : List (SubnetId × WorkerHandle)) (s : SubnetTasks) : Prop where
  stage : ∀ id, s.stage.get? id = (s.workers.get? id).map WorkerHandle.task
  live : ∀ id w, s.workers.get? id = some w → ∃ t, s.tasks[w.task]? = some t ∧
    t.subnet.id = id ∧ t.sig = w.sig ∧ t.Live
  ended : ∀ k t, s.tasks[k]? = some t → (∀ e ∈ pending, e.2.task ≠ k) →
    (∀ id w, s.workers.get? id = some w → w.task ≠ k) → t.Ended
  fresh : ∀ e ∈ pending, ∃ t, s.tasks[e.2.task]? = some t ∧
    t.subnet.id = e.1 ∧ t.sig = e.2.sig ∧ t.inbox = []
  apart : (pending.map (fun e => e.2.task)).Nodup
  unmapped : ∀ e ∈ pending, ∀ id w, s.workers.get? id = some w → w.task ≠ e.2.task

namespace Reconciling
open SubnetTasks
variable {pending : List (SubnetId × WorkerHandle)} {s : SubnetTasks}

/-- Different subnets have different tasks. -/
theorem task_inj (h : Reconciling pending s) {id id' : SubnetId} {w w' : WorkerHandle}
    (hw : s.workers.get? id = some w) (hw' : s.workers.get? id' = some w')
    (htask : w.task = w'.task) : id = id' := by
  obtain ⟨t, ht, hid, -⟩ := h.live id w hw
  obtain ⟨t', ht', hid', -⟩ := h.live id' w' hw'
  rw [htask, ht'] at ht
  cases ht
  exact hid.symm.trans hid'

/-- The channel of a worker leads to its task. -/
theorem stage_of_worker (h : Reconciling pending s) {id : SubnetId} {w : WorkerHandle}
    (hw : s.workers.get? id = some w) : s.stage.get? id = some w.task := by
  rw [h.stage, hw]
  rfl

/-- **Removing a worker tells its task to stop.** -/
theorem remove (h : Reconciling pending s) (id : SubnetId) : Reconciling pending (s.remove id) := by
  unfold SubnetTasks.remove
  cases hw : s.workers.get? id with
  | none => exact h
  | some w =>
    dsimp only
    rw [h.stage_of_worker hw]
    dsimp only
    obtain ⟨t, ht, hid, hsig, hlive⟩ := h.live id w hw
    have hkept : ∀ id' w', (s.workers.erase id).get? id' = some w' →
        id' ≠ id ∧ s.workers.get? id' = some w' := by
      intro id' w' h'
      rw [OrdMap.get?_erase] at h'
      split_ifs at h' with hne
      exact ⟨hne, h'⟩
    -- a worker that stays is not the one that is told
    have hother : ∀ id' w', (s.workers.erase id).get? id' = some w' → w'.task ≠ w.task := by
      intro id' w' h' htask
      obtain ⟨hne, hold⟩ := hkept id' w' h'
      exact hne (h.task_inj hold hw htask)
    refine ⟨fun id' => ?_, fun id' w' h' => ?_, fun k t' ht' hpend hmap => ?_, fun e he => ?_,
      h.apart, fun e he id' w' h' => ?_⟩
    · simp only [workers_send, stage_send, OrdMap.get?_erase, h.stage id']
      split_ifs
      · rfl
      · rfl
    · obtain ⟨-, hold⟩ := hkept id' w' h'
      obtain ⟨u, hu, hrest⟩ := h.live id' w' hold
      exact ⟨u, (getElem?_send_ne _ (hother id' w' h')).trans hu, hrest⟩
    · rw [getElem?_send] at ht'
      obtain ⟨u, hu, rfl⟩ := Option.map_eq_some_iff.mp ht'
      by_cases hk : k = w.task
      · subst hk
        cases ht.symm.trans hu
        rw [if_pos rfl]
        exact ⟨t.inbox, rfl, hlive⟩
      · rw [if_neg hk]
        refine h.ended k u hu hpend (fun id' w' h' => ?_)
        by_cases hne : id' = id
        · subst hne
          cases hw.symm.trans h'
          exact Ne.symm hk
        · exact hmap id' w' (by rw [workers_send, OrdMap.get?_erase, if_neg hne]; exact h')
    · obtain ⟨u, hu, hrest⟩ := h.fresh e he
      exact ⟨u, (getElem?_send_ne _ (h.unmapped e he id w hw).symm).trans hu, hrest⟩
    · exact h.unmapped e he id' w' (hkept id' w' h').2

/-- What `install` does once the worker before is gone. -/
def placed (s : SubnetTasks) (e : SubnetId × WorkerHandle) : SubnetTasks :=
  { s with workers := s.workers.insert e.1 e.2, stage := s.stage.insert e.1 e.2.task }

/-- To install a worker is to remove the one before it and to put it in its place. -/
theorem install_eq (h : Reconciling pending s) (e : SubnetId × WorkerHandle) :
    s.install e = placed (s.remove e.1) e := by
  unfold SubnetTasks.install SubnetTasks.remove placed
  rw [h.stage]
  cases hw : s.workers.get? e.1 with
  | none => rfl
  | some w => simp [OrdMap.insert_erase, SubnetTasks.send]

theorem get?_remove (s : SubnetTasks) (id id' : SubnetId) :
    (s.remove id).workers.get? id' = if id' = id then none else s.workers.get? id' := by
  unfold SubnetTasks.remove
  cases hw : s.workers.get? id with
  | none =>
    by_cases hid : id' = id
    · rw [if_pos hid, hid]
      exact hw
    · rw [if_neg hid]
  | some w => cases s.stage.get? id <;> simp

/-- **A pending worker is put where no worker is.** -/
theorem placed_of_vacant {e : SubnetId × WorkerHandle} (h : Reconciling (e :: pending) s)
    (hvacant : s.workers.get? e.1 = none) : Reconciling pending (placed s e) := by
  have happart := List.nodup_cons.mp h.apart
  have hget : ∀ id w, (placed s e).workers.get? id = some w →
      (id = e.1 ∧ w = e.2) ∨ (id ≠ e.1 ∧ s.workers.get? id = some w) := by
    intro id w hw
    unfold placed at hw
    rw [OrdMap.get?_insert] at hw
    split_ifs at hw with hid
    · exact Or.inl ⟨hid, (Option.some.inj hw).symm⟩
    · exact Or.inr ⟨hid, hw⟩
  refine ⟨fun id => ?_, fun id w hw => ?_, fun k t ht hpend hmap => ?_, fun e' he' => ?_, happart.2,
    fun e' he' id w hw => ?_⟩
  · simp only [placed, OrdMap.get?_insert, h.stage id]
    split_ifs
    · rfl
    · rfl
  · rcases hget id w hw with ⟨rfl, rfl⟩ | ⟨-, hold⟩
    · obtain ⟨t, ht, hid, hsig, hinbox⟩ := h.fresh e List.mem_cons_self
      exact ⟨t, ht, hid, hsig, by rw [WorkerTask.Live, hinbox]; exact List.not_mem_nil⟩
    · exact h.live id w hold
  · refine h.ended k t ht (fun e' he' => ?_) (fun id w hw => ?_)
    · rcases List.mem_cons.mp he' with rfl | hrest
      · exact hmap e'.1 e'.2 (by simp [placed])
      · exact hpend e' hrest
    · refine hmap id w ?_
      have hid : id ≠ e.1 := by
        rintro rfl
        rw [hvacant] at hw
        cases hw
      simp only [placed, OrdMap.get?_insert, if_neg hid]
      exact hw
  · exact h.fresh e' (List.mem_cons_of_mem _ he')
  · rcases hget id w hw with ⟨-, rfl⟩ | ⟨-, hold⟩
    · intro htask
      exact happart.1 (List.mem_map.mpr ⟨e', he', htask.symm⟩)
    · exact h.unmapped e' (List.mem_cons_of_mem _ he') id w hold

/-- **Installing a pending worker stops the one before it.** -/
theorem install {e : SubnetId × WorkerHandle} (h : Reconciling (e :: pending) s) :
    Reconciling pending (s.install e) := by
  rw [h.install_eq]
  exact (h.remove e.1).placed_of_vacant (by rw [get?_remove, if_pos rfl])

/-- **A cover rate stops nothing.** -/
theorem cover (h : Reconciling pending s) (subnet : Subnet) :
    Reconciling pending (s.cover subnet) := by
  unfold SubnetTasks.cover
  rw [h.stage]
  cases hw : s.workers.get? subnet.id with
  | none => exact h
  | some w =>
    dsimp only [Option.map_some]
    refine ⟨h.stage, fun id w' h' => ?_, fun k t ht hpend hmap => ?_, fun e he => ?_, h.apart,
      h.unmapped⟩
    · obtain ⟨t, ht, hid, hsig, hlive⟩ := h.live id w' h'
      refine ⟨_, by rw [getElem?_send, ht]; rfl, ?_⟩
      split_ifs
      · exact ⟨hid, hsig, by simpa [WorkerTask.Live] using hlive⟩
      · exact ⟨hid, hsig, hlive⟩
    · rw [getElem?_send] at ht
      obtain ⟨u, hu, rfl⟩ := Option.map_eq_some_iff.mp ht
      rw [if_neg (Ne.symm (hmap subnet.id w hw))]
      exact h.ended k u hu hpend hmap
    · obtain ⟨t, ht, hrest⟩ := h.fresh e he
      exact ⟨t, (getElem?_send_ne _ (h.unmapped e he subnet.id w hw).symm).trans ht, hrest⟩

theorem removes (ids : List SubnetId) (h : Reconciling pending s) :
    Reconciling pending (ids.foldl SubnetTasks.remove s) := by
  induction ids generalizing s with
  | nil => exact h
  | cons id ids ih => exact ih (h.remove id)

theorem installs (h : Reconciling pending s) :
    Reconciling [] (pending.foldl SubnetTasks.install s) := by
  induction pending generalizing s with
  | nil => exact h
  | cons e pending ih => exact ih h.install

theorem covers (subnets : List Subnet) (h : Reconciling pending s) :
    Reconciling pending (subnets.foldl SubnetTasks.cover s) := by
  induction subnets generalizing s with
  | nil => exact h
  | cons subnet subnets ih => exact ih (h.cover subnet)

end Reconciling

/-! ## What the first loop spawns -/

namespace SubnetTasks
variable {s : SubnetTasks}

/-- The loop has something to do for a subnet: it is new or changed, and it can be run. -/
def changed (s : SubnetTasks) (relayKeys : List (Pubkey × ExchangePublicKeyWire))
    (subnet : Subnet) : Bool :=
  decide (s.current.get? subnet.id ≠ some (subnetSig subnet relayKeys)) && subnetRunnable subnet

/-- The handles of tasks spawned one after another. -/
def handles (relayKeys : List (Pubkey × ExchangePublicKeyWire)) (first : Nat)
    (spawned : List Subnet) : List (SubnetId × WorkerHandle) :=
  (spawned.zipIdx first).map (fun e => (e.1.id, ⟨subnetSig e.1 relayKeys, e.2⟩))

theorem map_handles (relayKeys : List (Pubkey × ExchangePublicKeyWire)) (first : Nat)
    (spawned : List Subnet) :
    (handles relayKeys first spawned).map Prod.fst = spawned.map Subnet.id := by
  unfold handles
  rw [List.map_map]
  refine Eq.trans ?_ (congrArg (List.map Subnet.id) (List.zipIdx_map_fst first spawned))
  rw [List.map_map]
  rfl

/-- **What the first loop spawns**: some of the changed subnets, at most one for an id, and all of
them when the ids are distinct. -/
theorem build_spec {Policy : Type} (s : SubnetTasks) (body : AnymoneRoundConfigurationBody Policy) :
    ∃ spawned : List Subnet,
      spawned.Sublist (body.subnets.filter (s.changed body.relayExchangeKeys)) ∧
      (spawned.map Subnet.id).Nodup ∧
      s.build body = ⟨handles body.relayExchangeKeys s.tasks.length spawned,
        s.tasks ++ spawned.map (fun subnet =>
          ⟨subnet, body.relayExchangeKeys, body.epochUnixMs, s.armed, []⟩)⟩ ∧
      ((body.subnets.map Subnet.id).Nodup →
        spawned = body.subnets.filter (s.changed body.relayExchangeKeys)) := by
  unfold build
  generalize body.subnets = subnets
  induction subnets using List.reverseRecOn with
  | nil => exact ⟨[], List.Sublist.refl _, List.nodup_nil, by simp [handles], fun _ => rfl⟩
  | append_singleton l subnet ih =>
    obtain ⟨spawned, hsub, hnodup, hbuilt, hall⟩ := ih
    -- The induction is on the subnets that had their turn, the last of them split off.
    rw [List.foldl_append, List.foldl_cons, List.foldl_nil, hbuilt, List.filter_append]
    have hid : (handles body.relayExchangeKeys s.tasks.length spawned).any
        (fun e => decide (e.1 = subnet.id)) = decide (subnet.id ∈ spawned.map Subnet.id) := by
      rw [← map_handles body.relayExchangeKeys s.tasks.length spawned, Bool.eq_iff_iff]
      simp
    have hdistinct : ((l ++ [subnet]).map Subnet.id).Nodup →
        (l.map Subnet.id).Nodup ∧ subnet.id ∉ spawned.map Subnet.id := by
      intro hd
      rw [List.map_append, List.nodup_append] at hd
      refine ⟨hd.1, fun hmem => ?_⟩
      have hin := ((hsub.trans List.filter_sublist).map Subnet.id).subset hmem
      exact hd.2.2 _ hin _ (by simp) rfl
    have hkept : spawned.Sublist (l.filter (s.changed body.relayExchangeKeys) ++
        [subnet].filter (s.changed body.relayExchangeKeys)) :=
      hsub.trans (List.sublist_append_left _ _)
    unfold Build.turn
    dsimp only
    rw [hid]
    -- a second subnet of one id is passed over
    by_cases hseen : subnet.id ∈ spawned.map Subnet.id
    · rw [if_pos (by simpa using hseen)]
      exact ⟨spawned, hkept, hnodup, rfl, fun hd => absurd hseen (hdistinct hd).2⟩
    · rw [if_neg (by simpa using hseen)]
      -- so is one whose worker runs as it should
      by_cases hsame : s.current.get? subnet.id = some (subnetSig subnet body.relayExchangeKeys)
      · rw [if_pos hsame]
        refine ⟨spawned, hkept, hnodup, rfl, fun hd => ?_⟩
        rw [← hall (hdistinct hd).1]
        simp [changed, hsame]
      · rw [if_neg hsame]
        by_cases hrun : subnetRunnable subnet = true
        · have hchanged : s.changed body.relayExchangeKeys subnet = true := by
            simp [changed, hsame, hrun]
          rw [if_neg (by simp [hrun])]
          refine ⟨spawned ++ [subnet], ?_, ?_, ?_, fun hd => ?_⟩
          · rw [List.filter_singleton, hchanged]
            exact hsub.append (List.Sublist.refl _)
          · rw [List.map_append, List.nodup_append]
            refine ⟨hnodup, List.nodup_singleton _, fun a ha b hb hab => hseen ?_⟩
            rw [List.map_cons, List.map_nil, List.mem_singleton] at hb
            exact hb ▸ hab ▸ ha
          · simp [handles, List.zipIdx_append]
          · rw [← hall (hdistinct hd).1, List.filter_singleton, hchanged]
            rfl
        · rw [if_pos (by simpa using hrun)]
          refine ⟨spawned, hkept, hnodup, rfl, fun hd => ?_⟩
          rw [← hall (hdistinct hd).1]
          simp [changed, hrun]

theorem mem_handles {relayKeys : List (Pubkey × ExchangePublicKeyWire)} {first : Nat}
    {spawned : List Subnet} {e : SubnetId × WorkerHandle} :
    e ∈ handles relayKeys first spawned ↔ ∃ j subnet, spawned[j]? = some subnet ∧
      e = (subnet.id, ⟨subnetSig subnet relayKeys, first + j⟩) := by
  unfold handles
  rw [List.mem_map]
  constructor
  · rintro ⟨⟨subnet, k⟩, hmem, rfl⟩
    obtain ⟨hle, hget⟩ := List.mk_mem_zipIdx_iff_le_and_getElem?_sub.mp hmem
    exact ⟨k - first, subnet, hget, by rw [Nat.add_sub_cancel' hle]⟩
  · rintro ⟨j, subnet, hget, rfl⟩
    refine ⟨(subnet, first + j), List.mk_mem_zipIdx_iff_le_and_getElem?_sub.mpr
      ⟨Nat.le_add_right _ _, ?_⟩, rfl⟩
    rw [Nat.add_sub_cancel_left]
    exact hget

end SubnetTasks

namespace Reconciling
open SubnetTasks
variable {s : SubnetTasks}

/-- **With the first loop done, what it built is pending.** -/
theorem built (h : Reconciling [] s) {Policy : Type}
    (body : AnymoneRoundConfigurationBody Policy) :
    Reconciling (s.build body).built { s with tasks := (s.build body).tasks } := by
  obtain ⟨spawned, -, -, hbuilt, -⟩ := s.build_spec body
  rw [hbuilt]
  have hold : ∀ (k : Nat) (t : WorkerTask), s.tasks[k]? = some t → (s.tasks ++ spawned.map (fun subnet =>
      (⟨subnet, body.relayExchangeKeys, body.epochUnixMs, s.armed, []⟩ : WorkerTask)))[k]? =
        some t := by
    intro k t ht
    rw [List.getElem?_append_left (List.getElem?_eq_some_iff.mp ht).1]
    exact ht
  refine ⟨h.stage, fun id w hw => ?_, fun k t ht hpend hmap => ?_, fun e he => ?_, ?_,
    fun e he id w hw => ?_⟩
  · obtain ⟨t, ht, hrest⟩ := h.live id w hw
    exact ⟨t, hold _ t ht, hrest⟩
  · by_cases hk : k < s.tasks.length
    · rw [List.getElem?_append_left hk] at ht
      exact h.ended k t ht (fun e he => absurd he List.not_mem_nil) hmap
    · -- a task the loop has spawned is pending
      have hle : s.tasks.length ≤ k := Nat.le_of_not_lt hk
      rw [List.getElem?_append_right hle, List.getElem?_map] at ht
      obtain ⟨subnet, hget, rfl⟩ := Option.map_eq_some_iff.mp ht
      refine absurd ?_ (hpend _ (mem_handles.mpr ⟨_, subnet, hget, rfl⟩))
      exact Nat.add_sub_cancel' hle
  · obtain ⟨j, subnet, hget, rfl⟩ := mem_handles.mp he
    refine ⟨⟨subnet, body.relayExchangeKeys, body.epochUnixMs, s.armed, []⟩, ?_, rfl, rfl, rfl⟩
    rw [List.getElem?_append_right (Nat.le_add_right _ _), List.getElem?_map,
      Nat.add_sub_cancel_left, hget]
    rfl
  · unfold handles
    rw [List.map_map]
    show ((spawned.zipIdx s.tasks.length).map Prod.snd).Nodup
    rw [List.zipIdx_map_snd]
    exact List.nodup_range'
  · obtain ⟨j, subnet, -, rfl⟩ := mem_handles.mp he
    obtain ⟨t, ht, -⟩ := h.live id w hw
    have hlt := (List.getElem?_eq_some_iff.mp ht).1
    show w.task ≠ s.tasks.length + j
    omega

/-- **A configuration is reconciled whole.** -/
theorem applyConfig (h : Reconciling [] s) {Policy : Type}
    (body : AnymoneRoundConfigurationBody Policy) : Reconciling [] (s.applyConfig body) :=
  (((h.built body).removes _).installs).covers _

end Reconciling

end Anymone.Runtime
