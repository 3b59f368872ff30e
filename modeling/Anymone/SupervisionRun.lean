import Anymone.SchedulerObservers
import Anymone.SchedulerPublished
import Anymone.Supervision

/-! # A node's workers over whole runs

A configuration that is adopted leaves a worker for every runnable subnet it names, restarts those
whose context it changes and stops those it does not name.  Every task that was ever spawned either
runs for its subnet or was told once to stop.
-/

namespace Anymone.Runtime

/-! ## Which workers a configuration leaves -/

namespace SubnetTasks
variable {s : SubnetTasks}

theorem get?_removes (ids : List SubnetId) (id : SubnetId) :
    (ids.foldl remove s).workers.get? id = if id ∈ ids then none else s.workers.get? id := by
  induction ids generalizing s with
  | nil => rfl
  | cons id' ids ih =>
    rw [List.foldl_cons, ih, Reconciling.get?_remove]
    by_cases hid : id = id'
    · simp [hid]
    · simp [hid]

theorem workers_installs (pending : List (SubnetId × WorkerHandle)) :
    (pending.foldl install s).workers = s.workers.insertAll pending := by
  induction pending generalizing s with
  | nil => rfl
  | cons e pending ih =>
    have hworkers : (s.install e).workers = s.workers.insert e.1 e.2 := by
      unfold install
      cases s.stage.get? e.1 <;> rfl
    rw [List.foldl_cons, ih, hworkers]
    rfl

theorem workers_cover (subnet : Subnet) : (s.cover subnet).workers = s.workers := by
  unfold cover
  cases s.stage.get? subnet.id <;> rfl

theorem workers_covers (subnets : List Subnet) :
    (subnets.foldl cover s).workers = s.workers := by
  induction subnets generalizing s with
  | nil => rfl
  | cons subnet subnets ih => rw [List.foldl_cons, ih, workers_cover]

theorem mem_removed {Policy : Type} {body : AnymoneRoundConfigurationBody Policy} {id : SubnetId} :
    id ∈ s.removed body ↔ (∃ w, s.workers.get? id = some w) ∧ id ∉ body.subnets.map Subnet.id := by
  unfold removed
  rw [List.mem_filter, OrdMap.mem_keys]
  simp

/-- The workers after a configuration: those built, and those before that it still names. -/
theorem get?_applyConfig {Policy : Type} (body : AnymoneRoundConfigurationBody Policy)
    (id : SubnetId) :
    (s.applyConfig body).workers.get? id =
      ((s.workers.retain (fun id' _ => decide (id' ∈ body.subnets.map Subnet.id))).insertAll
        (s.build body).built).get? id := by
  unfold applyConfig
  dsimp only
  rw [workers_covers, workers_installs]
  congr 2
  refine OrdMap.ext_get? (fun id' => ?_)
  rw [get?_removes, OrdMap.get?_retain]
  cases hw : s.workers.get? id' with
  | none => split_ifs <;> rfl
  | some w =>
    by_cases hid : id' ∈ body.subnets.map Subnet.id
    · rw [if_neg (fun hrem => (mem_removed.mp hrem).2 hid)]
      simp [hid, Option.filter]
    · rw [if_pos (mem_removed.mpr ⟨⟨w, hw⟩, hid⟩)]
      simp [hid]

section Step
variable {Policy : Type} {body : AnymoneRoundConfigurationBody Policy} {subnet : Subnet}

/-- A worker whose subnet the configuration does not name is gone. -/
theorem get?_applyConfig_of_absent {id : SubnetId} (h : id ∉ body.subnets.map Subnet.id) :
    (s.applyConfig body).workers.get? id = none := by
  obtain ⟨spawned, hsub, -, hbuilt, -⟩ := s.build_spec body
  have hnot : ∀ w, (id, w) ∉ (s.build body).built := by
    intro w hw
    rw [hbuilt] at hw
    have hmem : id ∈ spawned.map Subnet.id :=
      map_handles body.relayExchangeKeys s.tasks.length spawned ▸ List.mem_map_of_mem hw
    exact h (((hsub.trans List.filter_sublist).map Subnet.id).subset hmem)
  rw [get?_applyConfig, OrdMap.get?_insertAll_of_not_mem _ hnot, OrdMap.get?_retain]
  simp [h]

/-- With distinct ids, a changed subnet gets a worker of its own, whose task is new. -/
theorem get?_applyConfig_of_changed (hd : (body.subnets.map Subnet.id).Nodup)
    (hmem : subnet ∈ body.subnets) (hchanged : s.changed body.relayExchangeKeys subnet = true) :
    ∃ k, s.tasks.length ≤ k ∧
      (s.build body).tasks[k]? =
        some ⟨subnet, body.relayExchangeKeys, body.epochUnixMs, s.armed, []⟩ ∧
      (s.applyConfig body).workers.get? subnet.id =
        some ⟨subnetSig subnet body.relayExchangeKeys, k⟩ := by
  obtain ⟨spawned, -, hnodup, hbuilt, hall⟩ := s.build_spec body
  have hin : subnet ∈ spawned := hall hd ▸ List.mem_filter.mpr ⟨hmem, hchanged⟩
  obtain ⟨j, hj, hget⟩ := List.mem_iff_getElem.mp hin
  have hget' : spawned[j]? = some subnet := by rw [List.getElem?_eq_getElem hj, hget]
  refine ⟨s.tasks.length + j, Nat.le_add_right _ _, ?_, ?_⟩
  · rw [hbuilt, List.getElem?_append_right (Nat.le_add_right _ _), List.getElem?_map,
      Nat.add_sub_cancel_left, hget']
    rfl
  · rw [get?_applyConfig, hbuilt]
    refine OrdMap.get?_insertAll_of_nodup _ ?_ (mem_handles.mpr ⟨j, subnet, hget', rfl⟩)
    rw [map_handles]
    exact hnodup

/-- With distinct ids, a subnet that is not changed keeps the worker it had. -/
theorem get?_applyConfig_of_unchanged (hd : (body.subnets.map Subnet.id).Nodup)
    (hmem : subnet ∈ body.subnets) (hsame : s.changed body.relayExchangeKeys subnet = false) :
    (∀ w, (subnet.id, w) ∉ (s.build body).built) ∧
      (s.applyConfig body).workers.get? subnet.id = s.workers.get? subnet.id := by
  obtain ⟨spawned, -, -, hbuilt, hall⟩ := s.build_spec body
  have hnot : ∀ w, (subnet.id, w) ∉ (s.build body).built := by
    intro w hw
    rw [hbuilt] at hw
    obtain ⟨j, other, hget, he⟩ := mem_handles.mp hw
    have hother := List.mem_filter.mp (hall hd ▸ List.mem_of_getElem? hget)
    have hid : subnet.id = other.id := congrArg Prod.fst he
    have heq := List.inj_on_of_nodup_map hd hmem hother.1 hid
    rw [heq, hother.2] at hsame
    cases hsame
  refine ⟨hnot, ?_⟩
  have hid : subnet.id ∈ body.subnets.map Subnet.id := List.mem_map_of_mem hmem
  rw [get?_applyConfig, OrdMap.get?_insertAll_of_not_mem _ hnot, OrdMap.get?_retain]
  cases s.workers.get? subnet.id <;> simp [hid]

end Step
end SubnetTasks

/-! ## What the tasks are told -/

namespace Reconciling
open SubnetTasks
variable {pending : List (SubnetId × WorkerHandle)} {s : SubnetTasks}

theorem getElem?_remove (h : Reconciling pending s) {id : SubnetId} {k : Nat}
    (hk : ∀ w, s.workers.get? id = some w → w.task ≠ k) :
    (s.remove id).tasks[k]? = s.tasks[k]? := by
  unfold SubnetTasks.remove
  cases hw : s.workers.get? id with
  | none => rfl
  | some w =>
    dsimp only
    rw [h.stage_of_worker hw]
    exact getElem?_send_ne _ (Ne.symm (hk w hw))

/-- The removals say nothing to a task that is not the worker of an id removed. -/
theorem getElem?_removes (ids : List SubnetId) {k : Nat} (h : Reconciling pending s)
    (hk : ∀ id ∈ ids, ∀ w, s.workers.get? id = some w → w.task ≠ k) :
    (ids.foldl SubnetTasks.remove s).tasks[k]? = s.tasks[k]? := by
  induction ids generalizing s with
  | nil => rfl
  | cons id ids ih =>
    rw [List.foldl_cons, ih (h.remove id), h.getElem?_remove (hk id List.mem_cons_self)]
    intro id' hid' w hw
    rw [get?_remove] at hw
    split_ifs at hw
    exact hk id' (List.mem_cons_of_mem _ hid') w hw

/-- The installations say nothing to a task that is not the worker of an id built anew. -/
theorem getElem?_installs {k : Nat} (h : Reconciling pending s)
    (hnodup : (pending.map Prod.fst).Nodup)
    (hk : ∀ e ∈ pending, ∀ w, s.workers.get? e.1 = some w → w.task ≠ k) :
    (pending.foldl SubnetTasks.install s).tasks[k]? = s.tasks[k]? := by
  induction pending generalizing s with
  | nil => rfl
  | cons e pending ih =>
    rw [List.map_cons, List.nodup_cons] at hnodup
    have hone : (s.install e).tasks[k]? = s.tasks[k]? := by
      rw [h.install_eq]
      exact h.getElem?_remove (hk e List.mem_cons_self)
    rw [List.foldl_cons, ih h.install hnodup.2, hone]
    intro e' he' w hw
    have hne : e'.1 ≠ e.1 := fun heq => hnodup.1 (heq ▸ List.mem_map_of_mem he')
    have hworkers : (s.install e).workers = s.workers.insert e.1 e.2 := workers_installs [e]
    rw [hworkers, OrdMap.get?_insert, if_neg hne] at hw
    exact hk e' (List.mem_cons_of_mem _ he') w hw

/-- The cover rates a list of subnets has for an id. -/
def rates (id : SubnetId) (subnets : List Subnet) : List StageMsg :=
  (subnets.filter (fun n => decide (n.id = id))).map (fun n => .setCoverRate n.coverRate)

/-- The task of a subnet is told the cover rates of that subnet, in order. -/
theorem getElem?_covers (subnets : List Subnet) {id : SubnetId} {w : WorkerHandle}
    (h : Reconciling pending s) (hw : s.workers.get? id = some w) :
    (subnets.foldl SubnetTasks.cover s).tasks[w.task]? =
      (s.tasks[w.task]?).map (fun t => { t with inbox := t.inbox ++ rates id subnets }) := by
  induction subnets generalizing s with
  | nil => simp [rates]
  | cons subnet subnets ih =>
    rw [List.foldl_cons, ih (h.cover subnet) (by rw [workers_cover]; exact hw)]
    unfold SubnetTasks.cover rates
    rw [h.stage]
    by_cases hid : subnet.id = id
    · rw [hid, hw, Option.map_some]
      dsimp only
      rw [getElem?_send, List.filter_cons_of_pos (by simpa using hid), Option.map_map]
      congr 1
      funext t
      simp
    · rw [List.filter_cons_of_neg (by simpa using hid)]
      cases hw' : s.workers.get? subnet.id with
      | none => rfl
      | some w' =>
        dsimp only [Option.map_some]
        rw [getElem?_send_ne _ (fun htask => hid (h.task_inj hw hw' htask).symm)]

theorem rates_of_mem {subnets : List Subnet} {subnet : Subnet}
    (hd : (subnets.map Subnet.id).Nodup) (hmem : subnet ∈ subnets) :
    rates subnet.id subnets = [.setCoverRate subnet.coverRate] := by
  unfold rates
  induction subnets with
  | nil => cases hmem
  | cons n subnets ih =>
    rw [List.map_cons, List.nodup_cons] at hd
    rcases List.mem_cons.mp hmem with rfl | hrest
    · have hnone : subnets.filter (fun n => decide (n.id = subnet.id)) = [] := by
        rw [List.filter_eq_nil_iff]
        intro m hm heq
        exact hd.1 (of_decide_eq_true heq ▸ List.mem_map_of_mem hm)
      rw [List.filter_cons_of_pos (by simp), hnone]
      rfl
    · have hne : n.id ≠ subnet.id := fun heq => hd.1 (heq ▸ List.mem_map_of_mem hrest)
      rw [List.filter_cons_of_neg (by simpa using hne)]
      exact ih hd.2 hrest

section Step
variable {Policy : Type} {body : AnymoneRoundConfigurationBody Policy} {subnet : Subnet}

/-- The task of a subnet hears, of all that `apply_config` sends, its cover rate only, when no
worker before it is replaced or removed. -/
theorem getElem?_applyConfig (h : Reconciling [] s) (hd : (body.subnets.map Subnet.id).Nodup)
    (hmem : subnet ∈ body.subnets) {w : WorkerHandle}
    (hw : (s.applyConfig body).workers.get? subnet.id = some w)
    (hk : ∀ id w', s.workers.get? id = some w' →
      (∃ w, (id, w) ∈ (s.build body).built) ∨ id ∉ body.subnets.map Subnet.id → w'.task ≠ w.task) :
    (s.applyConfig body).tasks[w.task]? = ((s.build body).tasks[w.task]?).map (fun t =>
      { t with inbox := t.inbox ++ [.setCoverRate subnet.coverRate] }) := by
  have hbuilt := h.built body
  have hremoved := hbuilt.removes (s.removed body)
  have hnodup : ((s.build body).built.map Prod.fst).Nodup := by
    obtain ⟨spawned, -, hnodup, hspec, -⟩ := s.build_spec body
    rw [hspec, map_handles]
    exact hnodup
  unfold SubnetTasks.applyConfig at hw ⊢
  dsimp only at hw ⊢
  rw [workers_covers] at hw
  rw [hremoved.installs.getElem?_covers body.subnets hw, rates_of_mem hd hmem,
    hremoved.getElem?_installs hnodup, hbuilt.getElem?_removes]
  · exact fun id hid w' hw' => hk id w' hw' (Or.inr (mem_removed.mp hid).2)
  · intro e he w' hw'
    rw [get?_removes] at hw'
    split_ifs at hw'
    exact hk e.1 w' hw' (Or.inl ⟨e.2, he⟩)

/-- **A changed subnet starts afresh**: a new task, armed when there were workers to hand over from,
that has been told its cover rate and nothing else. -/
theorem changed_spawned (h : Reconciling [] s) (hd : (body.subnets.map Subnet.id).Nodup)
    (hmem : subnet ∈ body.subnets) (hchanged : s.changed body.relayExchangeKeys subnet = true) :
    ∃ k, s.tasks.length ≤ k ∧
      (s.applyConfig body).workers.get? subnet.id =
        some ⟨subnetSig subnet body.relayExchangeKeys, k⟩ ∧
      (s.applyConfig body).tasks[k]? = some ⟨subnet, body.relayExchangeKeys, body.epochUnixMs,
        s.armed, [.setCoverRate subnet.coverRate]⟩ := by
  obtain ⟨k, hle, htask, hw⟩ := get?_applyConfig_of_changed hd hmem hchanged
  refine ⟨k, hle, hw, ?_⟩
  rw [h.getElem?_applyConfig hd hmem hw, htask]
  · rfl
  · intro id w' hw' _
    obtain ⟨t, ht, -⟩ := h.live id w' hw'
    have hlt := (List.getElem?_eq_some_iff.mp ht).1
    show w'.task ≠ k
    omega

/-- **An unchanged subnet runs on**: its worker hears its cover rate and nothing else. -/
theorem unchanged_kept (h : Reconciling [] s) (hd : (body.subnets.map Subnet.id).Nodup)
    (hmem : subnet ∈ body.subnets) (hsame : s.changed body.relayExchangeKeys subnet = false) :
    (s.applyConfig body).workers.get? subnet.id = s.workers.get? subnet.id ∧
    ∀ w t, s.workers.get? subnet.id = some w → s.tasks[w.task]? = some t →
      (s.applyConfig body).tasks[w.task]? =
        some { t with inbox := t.inbox ++ [.setCoverRate subnet.coverRate] } := by
  obtain ⟨hnot, hkept⟩ := get?_applyConfig_of_unchanged hd hmem hsame
  refine ⟨hkept, fun w t hw ht => ?_⟩
  have hold : (s.build body).tasks[w.task]? = some t := by
    obtain ⟨spawned, -, -, hspec, -⟩ := s.build_spec body
    rw [hspec, List.getElem?_append_left (List.getElem?_eq_some_iff.mp ht).1]
    exact ht
  rw [h.getElem?_applyConfig hd hmem (hkept.trans hw), hold]
  · rfl
  · intro id w' hw' hgone htask
    have hid : id = subnet.id := h.task_inj hw' hw htask
    subst hid
    rcases hgone with ⟨w', hin⟩ | habsent
    · exact hnot w' hin
    · exact habsent (List.mem_map_of_mem hmem)

end Step
end Reconciling

/-! ## Whole runs -/

namespace Node
variable {C : SchedulerCrate} {committee : List Pubkey} {threshold : U32}

theorem reconciling_empty : Reconciling [] SubnetTasks.empty where
  stage _ := rfl
  live _ _ h := by cases h
  ended k t h := by cases h
  fresh _ h := absurd h List.not_mem_nil
  apart := List.nodup_nil
  unmapped _ h := absurd h List.not_mem_nil

theorem reconciling_reconfigWatch {n : Node C} (payload : Option C.Config)
    (h : Reconciling [] n.tasks) :
    Reconciling [] (n.reconfigWatch committee threshold payload).tasks := by
  unfold reconfigWatch
  cases payload with
  | none => exact h
  | some config =>
    dsimp only
    split_ifs
    · exact h
    · exact h
    · exact h.applyConfig config.body

/-- **The maps and the tasks agree in every run.** -/
theorem reconciling_after (config : C.Config) (payloads : List (Option C.Config)) :
    Reconciling [] (after committee threshold config payloads).tasks := by
  unfold after
  induction payloads using List.reverseRecOn with
  | nil => exact reconciling_empty.applyConfig config.body
  | append_singleton l payload ih =>
    rw [List.foldl_append, List.foldl_cons, List.foldl_nil]
    exact reconciling_reconfigWatch payload ih

/-- **One running task for each worker.**  In every run the stage channels lead to the tasks of the
workers, each of which runs for its subnet and was not told to stop; every other task ever spawned
was told to stop once, and nothing after that. -/
theorem one_worker_per_subnet (committee : List Pubkey) (threshold : U32) (config : C.Config)
    (payloads : List (Option C.Config)) :
    let s := (after committee threshold config payloads).tasks
    (∀ id, s.stage.get? id = (s.workers.get? id).map WorkerHandle.task) ∧
    (∀ id k, s.stage.get? id = some k → ∃ t, s.tasks[k]? = some t ∧ t.subnet.id = id) ∧
    ∀ k t, s.tasks[k]? = some t →
      (t.Live ↔ s.stage.get? t.subnet.id = some k) ∧ (¬ t.Live → t.Ended) := by
  intro s
  have h : Reconciling [] s := reconciling_after config payloads
  have hmapped : ∀ id k, s.stage.get? id = some k →
      ∃ t, s.tasks[k]? = some t ∧ t.subnet.id = id ∧ t.Live := by
    intro id k hk
    rw [h.stage] at hk
    obtain ⟨w, hw, rfl⟩ := Option.map_eq_some_iff.mp hk
    obtain ⟨t, ht, hid, -, hlive⟩ := h.live id w hw
    exact ⟨t, ht, hid, hlive⟩
  refine ⟨h.stage, fun id k hk => ?_, fun k t ht => ?_⟩
  · obtain ⟨t, ht, hid, -⟩ := hmapped id k hk
    exact ⟨t, ht, hid⟩
  · have hended : s.stage.get? t.subnet.id ≠ some k → t.Ended := by
      intro hne
      refine h.ended k t ht (fun e he => absurd he List.not_mem_nil) (fun id w hw htask => hne ?_)
      obtain ⟨t', ht', hid, -⟩ := h.live id w hw
      rw [htask, ht] at ht'
      cases ht'
      rw [hid, ← htask]
      exact h.stage_of_worker hw
    by_cases hmap : s.stage.get? t.subnet.id = some k
    · obtain ⟨t', ht', -, hlive⟩ := hmapped _ k hmap
      cases ht.symm.trans ht'
      exact ⟨⟨fun _ => hmap, fun _ => hlive⟩, fun hnot => absurd hlive hnot⟩
    · obtain ⟨told, hinbox, htold⟩ := hended hmap
      have hnot : ¬ t.Live := by simp [WorkerTask.Live, hinbox]
      exact ⟨⟨fun hlive => absurd hlive hnot, fun h => absurd h hmap⟩, fun _ => hended hmap⟩

/-- A running task has the context of the subnet and was last told its cover rate. -/
def Served (n : Node C) (subnet : Subnet) : Prop :=
  ∃ k t, n.tasks.stage.get? subnet.id = some k ∧ n.tasks.tasks[k]? = some t ∧ t.Live ∧
    t.sig = subnetSig subnet n.config.body.relayExchangeKeys ∧
    t.inbox.getLast? = some (.setCoverRate subnet.coverRate)

/-- A runnable subnet of a configuration just applied is served. -/
theorem served_applied {s : SubnetTasks} (h : Reconciling [] s) {config : C.Config}
    (hd : (config.body.subnets.map Subnet.id).Nodup) {subnet : Subnet}
    (hmem : subnet ∈ config.body.subnets) (hrun : subnetRunnable subnet = true) :
    Served ⟨config, s.applyConfig config.body⟩ subnet := by
  have happlied := h.applyConfig config.body
  cases hchanged : s.changed config.body.relayExchangeKeys subnet with
  | true =>
    obtain ⟨k, -, hw, ht⟩ := h.changed_spawned hd hmem hchanged
    exact ⟨k, _, happlied.stage_of_worker hw, ht, by simp [WorkerTask.Live], rfl, rfl⟩
  | false =>
    obtain ⟨hkept, htold⟩ := h.unchanged_kept hd hmem hchanged
    have hsame : s.current.get? subnet.id =
        some (subnetSig subnet config.body.relayExchangeKeys) := by
      simpa [SubnetTasks.changed, hrun] using hchanged
    rw [SubnetTasks.current, OrdMap.get?_mapVals] at hsame
    obtain ⟨w, hw, hsig⟩ := Option.map_eq_some_iff.mp hsame
    obtain ⟨t, ht, -, htsig, hlive⟩ := h.live _ w hw
    refine ⟨w.task, _, happlied.stage_of_worker (hkept.trans hw), htold w t hw ht, ?_, ?_, ?_⟩
    · simpa [WorkerTask.Live] using hlive
    · exact htsig.trans hsig
    · simp

/-- The workers a configuration just applied leaves are those of subnets it names. -/
theorem named_applied {s : SubnetTasks} {config : C.Config} {id : SubnetId} {w : WorkerHandle}
    (hw : (s.applyConfig config.body).workers.get? id = some w) :
    id ∈ config.body.subnets.map Subnet.id := by
  by_contra habsent
  rw [SubnetTasks.get?_applyConfig_of_absent habsent] at hw
  cases hw

/-- What every run keeps of the configuration it holds. -/
theorem served_after (config : C.Config) (payloads : List (Option C.Config)) :
    let n := after committee threshold config payloads
    ((n.config.body.subnets.map Subnet.id).Nodup → ∀ subnet ∈ n.config.body.subnets,
      subnetRunnable subnet = true → Served n subnet) ∧
    ∀ id w, n.tasks.workers.get? id = some w → id ∈ n.config.body.subnets.map Subnet.id := by
  induction payloads using List.reverseRecOn with
  | nil =>
    exact ⟨fun hd subnet hmem hrun => served_applied reconciling_empty hd hmem hrun,
      fun id w hw => named_applied hw⟩
  | append_singleton l payload ih =>
    have hafter : after committee threshold config (l ++ [payload]) =
        (after committee threshold config l).reconfigWatch committee threshold payload := by
      unfold after
      rw [List.foldl_append]
      rfl
    rw [hafter]
    have hrec : Reconciling [] (after committee threshold config l).tasks :=
      reconciling_after config l
    unfold reconfigWatch
    cases payload with
    | none => exact ih
    | some next =>
      dsimp only
      split_ifs
      · exact ih
      · exact ih
      · exact ⟨fun hd subnet hmem hrun => served_applied hrec hd hmem hrun,
          fun id w hw => named_applied hw⟩

/-- **What the node's configuration names runs, and nothing else.**  In every run, when the ids of
the configuration it holds are distinct, each of its runnable subnets is served, and so is the
subnet that any draw over this configuration yields; no worker runs for a subnet it does not name. -/
theorem runnable_subnets_served (committee : List Pubkey) (threshold : U32) (config : C.Config)
    (payloads : List (Option C.Config)) {S : Type} (P : ParticipationEnv C.Policy S)
    (hd : ((after committee threshold config payloads).config.body.subnets.map Subnet.id).Nodup) :
    let n := after committee threshold config payloads
    (∀ subnet ∈ n.config.body.subnets, subnetRunnable subnet = true → Served n subnet) ∧
    (∀ (inner : AnymoneInner C.Policy S) (round : Round) (id : SubnetId),
      inner.config = n.config → inner.participationSubnet P round = some id →
        ∃ subnet ∈ n.config.body.subnets, subnet.id = id ∧ Served n subnet) ∧
    ∀ id k, n.tasks.stage.get? id = some k → id ∈ n.config.body.subnets.map Subnet.id := by
  intro n
  obtain ⟨hserved, hnamed⟩ := @served_after C committee threshold config payloads
  refine ⟨hserved hd, fun inner round id hconfig hdraw => ?_, fun id k hk => ?_⟩
  · have hcandidate : id ∈ inner.candidates :=
      (List.mem_insertionSort (· ≤ ·)).mp (List.mem_of_getElem? hdraw)
    unfold AnymoneInner.candidates at hcandidate
    rw [hconfig] at hcandidate
    obtain ⟨subnet, hin, hid⟩ := List.mem_map.mp hcandidate
    have hfiltered := List.mem_filter.mp (List.mem_filter.mp hin).1
    have hrun : subnetRunnable subnet = true := (Bool.and_eq_true_iff.mp hfiltered.2).1
    exact ⟨subnet, hfiltered.1, hid, hserved hd subnet hfiltered.1 hrun⟩
  · have hstage := (@reconciling_after C committee threshold config payloads).stage id
    obtain ⟨w, hw, -⟩ := Option.map_eq_some_iff.mp (hstage.symm.trans hk)
    exact hnamed id w hw

/-- **A configuration restarts exactly the workers whose context it changes.**  When a run adopts a
configuration with distinct ids, a runnable subnet whose relays, keys, protocol or attestation
differ from its worker's, or that has none, gets a new task, armed when there were workers before;
every other subnet keeps the task it has, which hears its cover rate and nothing else. -/
theorem restarts_exactly_changed (committee : List Pubkey) (threshold : U32) (config : C.Config)
    (payloads : List (Option C.Config)) (next : C.Config)
    (hsigned : verifyMultisig committee threshold next = true)
    (hnewer : (after committee threshold config payloads).config.body.round < next.body.round)
    (hd : (next.body.subnets.map Subnet.id).Nodup) :
    let s := (after committee threshold config payloads).tasks
    let s' := (after committee threshold config (payloads ++ [some next])).tasks
    ∀ subnet ∈ next.body.subnets,
      (s.changed next.body.relayExchangeKeys subnet = true →
        ∃ k, s.tasks.length ≤ k ∧ s'.stage.get? subnet.id = some k ∧
          s'.tasks[k]? = some ⟨subnet, next.body.relayExchangeKeys, next.body.epochUnixMs,
            s.armed, [.setCoverRate subnet.coverRate]⟩) ∧
      (s.changed next.body.relayExchangeKeys subnet = false →
        s'.stage.get? subnet.id = s.stage.get? subnet.id ∧
        ∀ k t, s.stage.get? subnet.id = some k → s.tasks[k]? = some t →
          s'.tasks[k]? =
            some { t with inbox := t.inbox ++ [.setCoverRate subnet.coverRate] }) := by
  intro s s' subnet hmem
  have h : Reconciling [] s := reconciling_after config payloads
  have hadopted : s' = s.applyConfig next.body := by
    show (after committee threshold config (payloads ++ [some next])).tasks = _
    unfold after
    rw [List.foldl_append, List.foldl_cons, List.foldl_nil]
    show (reconfigWatch committee threshold (after committee threshold config payloads)
      (some next)).tasks = _
    unfold reconfigWatch
    dsimp only
    rw [if_neg (by simp [hsigned]), if_neg (not_le.mpr hnewer)]
  have happlied := h.applyConfig next.body
  rw [hadopted]
  refine ⟨fun hnew => ?_, fun hsame => ?_⟩
  · obtain ⟨k, hle, hw, ht⟩ := h.changed_spawned hd hmem hnew
    exact ⟨k, hle, happlied.stage_of_worker hw, ht⟩
  · obtain ⟨hkept, htold⟩ := h.unchanged_kept hd hmem hsame
    refine ⟨by rw [happlied.stage, h.stage, hkept], fun k t hk ht => ?_⟩
    rw [h.stage] at hk
    obtain ⟨w, hw, rfl⟩ := Option.map_eq_some_iff.mp hk
    exact htold w t hw ht

end Node

/-! ## A roster that changes -/

namespace SupervisionToy
open Runtime.Node SchedulerCore

/-- Version 6, with another client cap. -/
def sixthVersion : toyScheduler.Body := toyBody 6 (toyPanetiere 9) [1]

/-- A replay of version 3 and version 6. -/
def toyPayloads : List (Option toyScheduler.Config) :=
  [none, some (toyPublished thirdVersion), some (toyPublished sixthVersion)]

/-- Anything the draw takes from outside. -/
def env : ParticipationEnv toyScheduler.Policy Unit :=
  ⟨fun _ => 0, fun _ => 0, fun s _ => s, fun _ => false, fun _ => false, fun s _ => s,
    fun _ => [], fun _ _ => ()⟩

/-- The first task was told to stop when the cap changed. -/
example : (after (toyMember 2).committee (toyMember 2).threshold (toyPublished fifthVersion)
      toyPayloads).tasks.tasks.map WorkerTask.inbox =
    [[.setCoverRate 0x3f800000, .shutdown], [.setCoverRate 0x3f800000]] := by
  decide +kernel

end SupervisionToy

open Runtime.Node SchedulerCore SupervisionToy

theorem runnable_subnets_served_toy :
    let n := after (toyMember 2).committee (toyMember 2).threshold (toyPublished fifthVersion)
      toyPayloads
    (∀ subnet ∈ n.config.body.subnets, subnetRunnable subnet = true → Served n subnet) ∧
    (∀ (inner : AnymoneInner toyScheduler.Policy Unit) (round : Round) (id : SubnetId),
      inner.config = n.config → inner.participationSubnet env round = some id →
        ∃ subnet ∈ n.config.body.subnets, subnet.id = id ∧ Served n subnet) ∧
    ∀ id k, n.tasks.stage.get? id = some k → id ∈ n.config.body.subnets.map Subnet.id :=
  runnable_subnets_served (toyMember 2).committee (toyMember 2).threshold
    (toyPublished fifthVersion) toyPayloads env (by decide +kernel)

theorem restarts_exactly_changed_toy :
    let s := (after (toyMember 2).committee (toyMember 2).threshold
      (toyPublished fifthVersion) [none]).tasks
    let s' := (after (toyMember 2).committee (toyMember 2).threshold
      (toyPublished fifthVersion) ([none] ++ [some (toyPublished sixthVersion)])).tasks
    ∀ subnet ∈ (toyPublished sixthVersion).body.subnets,
      (s.changed (toyPublished sixthVersion).body.relayExchangeKeys subnet = true →
        ∃ k, s.tasks.length ≤ k ∧ s'.stage.get? subnet.id = some k ∧
          s'.tasks[k]? = some ⟨subnet, (toyPublished sixthVersion).body.relayExchangeKeys,
            (toyPublished sixthVersion).body.epochUnixMs, s.armed,
            [.setCoverRate subnet.coverRate]⟩) ∧
      (s.changed (toyPublished sixthVersion).body.relayExchangeKeys subnet = false →
        s'.stage.get? subnet.id = s.stage.get? subnet.id ∧
        ∀ k t, s.stage.get? subnet.id = some k → s.tasks[k]? = some t →
          s'.tasks[k]? =
            some { t with inbox := t.inbox ++ [.setCoverRate subnet.coverRate] }) :=
  restarts_exactly_changed (toyMember 2).committee (toyMember 2).threshold
    (toyPublished fifthVersion) [none] (toyPublished sixthVersion) (by decide +kernel)
    (by decide +kernel) (by decide +kernel)

end Anymone.Runtime
