import Anymone.PanetiereObserver
import Anymone.SchedulerObservers

/-! # The clocks of a core's Panetière observers

A tick moves an observer's clock to the subnet's wall-clock round, and further if the wire was
ahead of it.  Once there is a clock, a wire round counts within its window only, so traffic moves
the clock by the window at most; before the first tick there is none, and any round counts.  The
rounds an observer retains are summed unchecked: with the history when old integrity marks are
dropped, and with the freshness when a tick compares the sets.
-/

namespace OrdMap
variable {K V : Type} [LinearOrder K] {m : OrdMap K V} {k : K}

/-- The newest entries stay, so some key from `k` on does. -/
theorem exists_mem_keys_keepNewest {n : Nat} (hn : 0 < n) (h : k ∈ m.keys) :
    ∃ k' ∈ (m.keepNewest n).keys, k ≤ k' := by
  obtain ⟨e, he, rfl⟩ := List.mem_map.mp h
  rw [← List.take_append_drop (m.entries.length - n) m.entries] at he
  rcases List.mem_append.mp he with he | he
  · -- the entry is dropped, and the ones that stay have greater keys
    have hlast : m.entries.length - n < m.entries.length :=
      Nat.sub_lt (List.length_pos_of_mem (List.mem_of_mem_take he)) hn
    have hmem : m.entries[m.entries.length - n] ∈ m.entries.drop (m.entries.length - n) := by
      rw [List.drop_eq_getElem_cons hlast]
      exact List.mem_cons_self
    have hsorted := m.sorted
    rw [← List.take_append_drop (m.entries.length - n) m.entries] at hsorted
    exact ⟨_, List.mem_map.mpr ⟨_, hmem, rfl⟩,
      ((List.pairwise_append.mp hsorted).2.2 e he _ hmem).le⟩
  · exact ⟨e.1, List.mem_map.mpr ⟨e, he, rfl⟩, le_rfl⟩

theorem mem_keys_of_keepNewest {n : Nat} (h : k ∈ (m.keepNewest n).keys) : k ∈ m.keys := by
  obtain ⟨e, he, rfl⟩ := List.mem_map.mp h
  exact List.mem_map.mpr ⟨e, List.mem_of_mem_drop he, rfl⟩

theorem mem_keys_orInsert {k' : K} {v : V} :
    k' ∈ (m.orInsert k v).keys ↔ k' = k ∨ k' ∈ m.keys := by
  rw [mem_keys, mem_keys, get?_orInsert]
  by_cases h : k' = k
  · subst h
    cases hget : m.get? k' <;> simp
  · simp [h]

end OrdMap

namespace Anymone
variable {C : SchedulerCrate}

namespace PanetiereObserverSession
variable {o : PanetiereObserverSession} {sender : PeerId} {payload : Bytes} {msg : PanetiereWire}

/-! ## What an observer retains -/

/-- `refresh_clock` on a Panetière observer. -/
def refreshed (o : PanetiereObserverSession) (wallRound : Option Round) :
    PanetiereObserverSession :=
  match (o.maxRound.toList ++ wallRound.toList).max? with
  | some r => o.beginRound r
  | none => o

/-- A share of the slot owner, under its key. -/
def authentic (C : SchedulerCrate) (o : PanetiereObserverSession) (sender : PeerId) :
    PanetiereWire → Bool
  | .serverPublic round serverId clients aggOpen aggShare shareSum laneOpen signature =>
      o.roster[serverId.val]?.any (fun expected => decide (sender = expected) &&
        C.pubkeyVerify expected (serverPublicSigningBytes round serverId clients aggOpen aggShare
          shareSum laneOpen) signature)
  | _ => false

/-- The message leaves an integrity mark with its round. -/
def marks (C : SchedulerCrate) (o : PanetiereObserverSession) (sender : PeerId) :
    PanetiereWire → Bool
  | .serverPublic round serverId clients aggOpen aggShare shareSum laneOpen signature =>
      o.authentic C sender (.serverPublic round serverId clients aggOpen aggShare shareSum laneOpen
        signature) && !serverPublicConsistent C aggOpen aggShare
  | _ => false

/-- The message announces the set of its round. -/
def announces (C : SchedulerCrate) (o : PanetiereObserverSession) (sender : PeerId)
    (msg : PanetiereWire) : Bool :=
  match msg with
  | .clientSet .. => decide (o.leader = some sender)
  | _ => o.authentic C sender msg && o.leader.isNone

/-- Every sum over a retained round is a `u64`: the mark's with the history, and the set's with
the freshness. -/
structure Sums (o : PanetiereObserverSession) : Prop where
  marks : ∀ e ∈ o.integritySeen, e.1.val + anonSetHistory < 2 ^ 64
  sets : ∀ r ∈ o.anonSetByRound.keys, r.val + SchedulerCore.anonSetFreshness.val < 2 ^ 64

/-- A message the observer takes names a round too late for the sums: a mark's or a set's. -/
def Overruns (C : SchedulerCrate) (o : PanetiereObserverSession) (sender : PeerId)
    (payload : Bytes) : Prop :=
  ∃ msg, PanetiereWire.deserialize payload = some msg ∧
    roundInWindow msg.round o.curRound = true ∧
    (o.marks C sender msg = true ∧ 2 ^ 64 ≤ msg.round.val + anonSetHistory ∨
      o.announces C sender msg = true ∧
        2 ^ 64 ≤ msg.round.val + SchedulerCore.anonSetFreshness.val)

/-- The highest wire round is within the window of the clock. -/
def Near (o : PanetiereObserverSession) : Prop :=
  ∀ c m, o.curRound = some c → o.maxRound = some m → m ≤ c.saturatingAdd panetiereRoundWindow

/-! ## One message -/

/-- What one accepted message does to the rounds an observer retains. -/
structure Takes (C : SchedulerCrate) (o : PanetiereObserverSession) (sender : PeerId)
    (msg : PanetiereWire) (o' : PanetiereObserverSession) : Prop where
  clock : o'.curRound = o.curRound ∧ o'.maxRound = o.maxRound ∧ o'.leader = o.leader
  marks : ∀ e ∈ o'.integritySeen, e ∈ o.integritySeen ∨
    o.marks C sender msg = true ∧ e.1 = msg.round
  marked : o.marks C sender msg = true → ∃ e ∈ o'.integritySeen, e.1 = msg.round
  sets : ∀ r ∈ o'.anonSetByRound.keys, r ∈ o.anonSetByRound.keys ∨
    o.announces C sender msg = true ∧ r = msg.round
  announced : o.announces C sender msg = true → ∃ r ∈ o'.anonSetByRound.keys, msg.round ≤ r

/-- A message of no account. -/
theorem takes_nothing {o' : PanetiereObserverSession}
    (hclock : o'.curRound = o.curRound ∧ o'.maxRound = o.maxRound ∧ o'.leader = o.leader)
    (hseen : o'.integritySeen = o.integritySeen) (hsets : o'.anonSetByRound = o.anonSetByRound)
    (hmarks : o.marks C sender msg = false) (hannounces : o.announces C sender msg = false) :
    Takes C o sender msg o' := by
  refine ⟨hclock, fun e he => Or.inl (hseen ▸ he), ?_, fun r hr => Or.inl (hsets ▸ hr), ?_⟩
  · rw [hmarks]
    exact nofun
  · rw [hannounces]
    exact nofun

theorem mem_keys_recordSet {round r : Round} {clients : List U32} {demand : U32}
    (hr : r ∈ (o.recordSet round clients demand).anonSetByRound.keys) :
    r ∈ o.anonSetByRound.keys ∨ r = round :=
  (OrdMap.mem_keys_orInsert.mp (OrdMap.mem_keys_of_keepNewest hr)).symm

theorem announced_recordSet {round : Round} {clients : List U32} {demand : U32} :
    ∃ r ∈ (o.recordSet round clients demand).anonSetByRound.keys, round ≤ r :=
  OrdMap.exists_mem_keys_keepNewest (by decide) (OrdMap.mem_keys_orInsert.mpr (Or.inl rfl))

/-- The integrity check adds a mark of its round, if the share is at fault. -/
theorem mem_integritySeen_checkShare {expected : PeerId} {round : Round} {serverId : U32}
    {aggOpen aggShare : Bytes} {e : Round × U32}
    (he : e ∈ (o.checkShare C expected payload round serverId aggOpen aggShare).integritySeen) :
    e ∈ o.integritySeen ∨ serverPublicConsistent C aggOpen aggShare = false ∧ e.1 = round := by
  unfold checkShare at he
  dsimp only at he
  split_ifs at he with hfault
  · simp only [Bool.and_eq_true, Bool.not_eq_true'] at hfault
    rcases List.mem_cons.mp he with rfl | he
    · exact Or.inr ⟨hfault.1, rfl⟩
    · exact Or.inl (List.mem_of_mem_filter he)
  · exact Or.inl (List.mem_of_mem_filter he)

theorem marked_checkShare {expected : PeerId} {round : Round} {serverId : U32}
    {aggOpen aggShare : Bytes} (h : serverPublicConsistent C aggOpen aggShare = false) :
    ∃ e ∈ (o.checkShare C expected payload round serverId aggOpen aggShare).integritySeen,
      e.1 = round := by
  refine ⟨(round, serverId), ?_, rfl⟩
  unfold checkShare
  dsimp only
  split_ifs with hfault
  · exact List.mem_cons_self
  · -- the mark is there already
    simpa [h] using hfault

theorem checkShare_keeps (o : PanetiereObserverSession) (expected : PeerId) (payload : Bytes)
    (round : Round) (serverId : U32) (aggOpen aggShare : Bytes) :
    (o.checkShare C expected payload round serverId aggOpen aggShare).curRound = o.curRound ∧
      (o.checkShare C expected payload round serverId aggOpen aggShare).maxRound = o.maxRound ∧
      (o.checkShare C expected payload round serverId aggOpen aggShare).leader = o.leader ∧
      (o.checkShare C expected payload round serverId aggOpen aggShare).anonSetByRound =
        o.anonSetByRound := by
  unfold checkShare
  dsimp only
  split_ifs <;> exact ⟨rfl, rfl, rfl, rfl⟩

theorem countShare_keeps (round : Round) (serverId : U32) (clients : List U32) :
    (o.countShare round serverId clients).curRound = o.curRound ∧
      (o.countShare round serverId clients).maxRound = o.maxRound ∧
      (o.countShare round serverId clients).leader = o.leader ∧
      (o.countShare round serverId clients).integritySeen = o.integritySeen := by
  unfold countShare
  dsimp only
  split_ifs <;> exact ⟨rfl, rfl, rfl, rfl⟩

/-- **One message**: a mark for a share at fault, and a set for an announcement. -/
theorem takes_observe (o : PanetiereObserverSession) (sender : PeerId) (payload : Bytes)
    (msg : PanetiereWire) : Takes C o sender msg (o.observe C sender payload msg) := by
  cases msg with
  | serverPublic round serverId clients aggOpen aggShare shareSum laneOpen signature =>
    cases hslot : o.roster[serverId.val]? with
    | none =>
      simp only [observe, hslot]
      refine takes_nothing ⟨rfl, rfl, rfl⟩ rfl rfl ?_ ?_ <;> simp [marks, announces, authentic, hslot]
    | some expected =>
      -- a share counts only from the relay that it names, and signed by it
      by_cases hauth : sender = expected ∧ C.pubkeyVerify expected (serverPublicSigningBytes round
          serverId clients aggOpen aggShare shareSum laneOpen) signature = true
      · simp only [observe, hslot, if_pos hauth]
        obtain ⟨hcur, hmax, hleader, hsets⟩ := checkShare_keeps (C := C)
          (o.countShare round serverId clients) expected payload round serverId aggOpen aggShare
        obtain ⟨hcur', hmax', hleader', hseen'⟩ :=
          countShare_keeps (o := o) round serverId clients
        have hauthentic : o.authentic C sender (.serverPublic round serverId clients aggOpen
            aggShare shareSum laneOpen signature) = true := by
          simp [authentic, hslot, hauth]
        have hmarks : o.marks C sender (.serverPublic round serverId clients aggOpen aggShare
            shareSum laneOpen signature) = !serverPublicConsistent C aggOpen aggShare := by
          simp [marks, hauthentic]
        have hannounces : o.announces C sender (.serverPublic round serverId clients aggOpen
            aggShare shareSum laneOpen signature) = o.leader.isNone := by
          simp [announces, hauthentic]
        refine ⟨⟨hcur.trans hcur', hmax.trans hmax', hleader.trans hleader'⟩, ?_, ?_, ?_, ?_⟩
        · intro e he
          rw [hmarks, Bool.not_eq_true']
          rcases mem_integritySeen_checkShare he with he | hnew
          · exact Or.inl (hseen' ▸ he)
          · exact Or.inr hnew
        · intro hfault
          rw [hmarks, Bool.not_eq_true'] at hfault
          exact marked_checkShare hfault
        · intro r hr
          rw [hsets] at hr
          rw [hannounces]
          unfold countShare at hr
          dsimp only at hr
          -- without a leader the share itself tells the set
          split_ifs at hr with hnone
          · exact (mem_keys_recordSet hr).imp_right (fun he => ⟨hnone, he⟩)
          · exact Or.inl hr
        · intro hnone
          rw [hannounces] at hnone
          rw [hsets]
          unfold countShare
          dsimp only
          rw [if_pos hnone]
          exact announced_recordSet
      · simp only [observe, hslot, if_neg hauth]
        have hforeign : o.authentic C sender (.serverPublic round serverId clients aggOpen
            aggShare shareSum laneOpen signature) = false := by
          simpa [authentic, hslot] using hauth
        refine takes_nothing ⟨rfl, rfl, rfl⟩ rfl rfl ?_ ?_ <;> simp [marks, announces, hforeign]
  | clientSet round clients demand =>
    by_cases hleader : o.leader = some sender
    · simp only [observe, if_pos hleader]
      refine ⟨⟨rfl, rfl, rfl⟩, fun e he => Or.inl he, nofun, fun r hr => ?_,
        fun _ => announced_recordSet⟩
      exact (mem_keys_recordSet hr).imp_right (fun he => ⟨decide_eq_true hleader, he⟩)
    · simp only [observe, if_neg hleader]
      exact takes_nothing ⟨rfl, rfl, rfl⟩ rfl rfl rfl (decide_eq_false hleader)
  | decoded round payloads =>
    simp only [observe]
    split
    · exact takes_nothing ⟨rfl, rfl, rfl⟩ rfl rfl rfl rfl
    · exact takes_nothing ⟨rfl, rfl, rfl⟩ rfl rfl rfl rfl
  | reservations round allocs scheduled =>
    simp only [observe]
    split
    · exact takes_nothing ⟨rfl, rfl, rfl⟩ rfl rfl rfl rfl
    · exact takes_nothing ⟨rfl, rfl, rfl⟩ rfl rfl rfl rfl
  | clientPublic | opening | clientSlice | bundle | setBatch | setFragment | setRelay =>
    exact takes_nothing ⟨rfl, rfl, rfl⟩ rfl rfl rfl rfl

/-! ## An observer's own steps -/

/-- **A message breaks the sums of an observer exactly when it overruns.** -/
theorem sums_onInbound_iff (h : o.Sums) :
    (o.onInbound C sender payload).Sums ↔ ¬ o.Overruns C sender payload := by
  unfold onInbound Overruns
  cases hmsg : PanetiereWire.deserialize payload with
  | none => simpa using h
  | some msg =>
    dsimp only
    by_cases hwindow : roundInWindow msg.round o.curRound = true
    · rw [if_pos hwindow]
      have htakes := takes_observe (C := C)
        { o with maxRound := some (o.maxRound.elim msg.round (max · msg.round)) } sender payload msg
      constructor
      · rintro hsums ⟨msg', hmsg', -, ⟨hmarks, hlate⟩ | ⟨hannounces, hlate⟩⟩
        · cases hmsg'
          obtain ⟨e, he, hround⟩ := htakes.marked hmarks
          have hfits := hsums.marks e he
          rw [hround] at hfits
          omega
        · cases hmsg'
          obtain ⟨r, hr, hround⟩ := htakes.announced hannounces
          have hfits := hsums.sets r hr
          have hround : msg.round.val ≤ r.val := hround
          omega
      · intro hfits
        refine ⟨fun e he => ?_, fun r hr => ?_⟩
        · rcases htakes.marks e he with hold | ⟨hmarks, hround⟩
          · exact h.marks e hold
          · rw [hround]
            by_contra hlate
            exact hfits ⟨msg, rfl, hwindow, Or.inl ⟨hmarks, not_lt.mp hlate⟩⟩
        · rcases htakes.sets r hr with hold | ⟨hannounces, rfl⟩
          · exact h.sets r hold
          · by_contra hlate
            exact hfits ⟨msg, rfl, hwindow, Or.inr ⟨hannounces, not_lt.mp hlate⟩⟩
    · rw [if_neg hwindow]
      refine iff_of_true h ?_
      rintro ⟨msg', hmsg', hwindow', -⟩
      cases hmsg'
      exact hwindow hwindow'

theorem near_onInbound (h : o.Near) : (o.onInbound C sender payload).Near := by
  unfold onInbound
  split
  · exact h
  · rename_i msg _
    split_ifs with hwindow
    · obtain ⟨hcur, hmax, -⟩ := (takes_observe (C := C)
        { o with maxRound := some (o.maxRound.elim msg.round (max · msg.round)) } sender payload
        msg).clock
      intro c m hc hm
      rw [hcur] at hc
      rw [hmax] at hm
      cases hm
      have hin : msg.round ≤ c.saturatingAdd panetiereRoundWindow := by
        have hc : o.curRound = some c := hc
        rw [hc] at hwindow
        unfold roundInWindow at hwindow
        simp only [Bool.and_eq_true, decide_eq_true_eq] at hwindow
        exact hwindow.1
      cases hold : o.maxRound with
      | none => exact hin
      | some m => exact max_le (h c m hc hold) hin
    · exact h

/-- A refreshed clock stands at the wall-clock round or at the highest wire round, whichever is
ahead. -/
theorem refreshed_cases (o : PanetiereObserverSession) (wallRound : Option Round) :
    (o.refreshed wallRound = o ∧ o.maxRound = none ∧ wallRound = none) ∨
      ∃ r, o.refreshed wallRound = o.beginRound r ∧ (∀ m, o.maxRound = some m → m ≤ r) ∧
        (∀ w, wallRound = some w → w ≤ r) ∧ (o.maxRound = some r ∨ wallRound = some r) := by
  unfold refreshed
  cases hmax : o.maxRound with
  | none =>
    cases wallRound with
    | none => exact Or.inl ⟨rfl, rfl, rfl⟩
    | some w => exact Or.inr ⟨w, rfl, nofun, fun _ h => by cases h; exact le_rfl, Or.inr rfl⟩
  | some m =>
    cases wallRound with
    | none => exact Or.inr ⟨m, rfl, fun _ h => by cases h; exact le_rfl, nofun, Or.inl rfl⟩
    | some w =>
      refine Or.inr ⟨max m w, rfl, fun _ h => ?_, fun _ h => ?_, ?_⟩
      · cases h
        exact le_max_left m w
      · cases h
        exact le_max_right m w
      · rcases max_choice m w with he | he <;> rw [he]
        · exact Or.inl rfl
        · exact Or.inr rfl

theorem near_refreshed (h : o.Near) (wallRound : Option Round) : (o.refreshed wallRound).Near := by
  rcases refreshed_cases o wallRound with ⟨he, -⟩ | ⟨r, he, hmax, -⟩
  · rw [he]
    exact h
  · rw [he]
    intro c m hc hm
    cases hc
    exact SchedulerCore.le_saturatingAdd (hmax m hm) _

theorem sums_refreshed (wallRound : Option Round) : (o.refreshed wallRound).Sums ↔ o.Sums := by
  rcases refreshed_cases o wallRound with ⟨he, -⟩ | ⟨r, he, -⟩ <;> rw [he]
  exact ⟨fun h => ⟨h.marks, h.sets⟩, fun h => ⟨h.marks, h.sets⟩⟩

/-- The clock a refresh sets is at most the wall-clock round, or the clock before it and a
window. -/
def ClockKept (o : PanetiereObserverSession) (wallRound : Option Round)
    (o' : PanetiereObserverSession) : Prop :=
  ∀ r, o'.curRound = some r → (∃ w, wallRound = some w ∧ r ≤ w) ∨
    ∃ c, o.curRound = some c ∧ r.val ≤ c.val + panetiereRoundWindow

/-- An observer without a clock has taken no round past the wall clock. -/
def Waits (o : PanetiereObserverSession) (wallRound : Option Round) : Prop :=
  o.curRound = none → ∀ m, o.maxRound = some m → ∃ w, wallRound = some w ∧ m ≤ w

/-- **A refresh keeps the clock within the window exactly of an observer that has a clock, or has
taken no round past the wall clock.** -/
theorem clockKept_refreshed_iff (h : o.Near) (wallRound : Option Round) :
    o.ClockKept wallRound (o.refreshed wallRound) ↔ o.Waits wallRound := by
  unfold ClockKept Waits
  rcases refreshed_cases o wallRound with ⟨he, hmax, -⟩ | ⟨r, he, hmax, hwall, hr⟩
  · rw [he]
    refine iff_of_true (fun r hr => Or.inr ⟨r, hr, Nat.le_add_right ..⟩) ?_
    rw [hmax]
    exact fun _ => nofun
  · rw [he]
    constructor
    · intro hkept hnone m hm
      rcases hkept r rfl with ⟨w, hw, hle⟩ | ⟨c, hc, -⟩
      · exact ⟨w, hw, (hmax m hm).trans hle⟩
      · rw [hnone] at hc
        cases hc
    · rintro hwaits r' hr'
      cases hr'
      rcases hr with hr | hr
      · -- the wire was ahead
        cases hcur : o.curRound with
        | none =>
          obtain ⟨w, hw, hle⟩ := hwaits hcur r hr
          exact Or.inl ⟨w, hw, hle⟩
        | some c =>
          have hnear := h c r hcur hr
          have hval := U64.val_saturatingAdd c panetiereRoundWindow
          have hle : r.val ≤ (c.saturatingAdd panetiereRoundWindow).val := hnear
          exact Or.inr ⟨c, rfl, by omega⟩
      · exact Or.inl ⟨r, hr, le_rfl⟩

theorem near_endRound (h : o.Near) : o.endRound.1.Near := h

theorem sums_endRound : o.endRound.1.Sums ↔ o.Sums :=
  ⟨fun h => ⟨h.marks, h.sets⟩, fun h => ⟨h.marks, h.sets⟩⟩

theorem near_new (roster : List PeerId) (leader : Option PeerId) (faultThreshold : U64) :
    (new roster leader faultThreshold).Near := nofun

theorem sums_new (roster : List PeerId) (leader : Option PeerId) (faultThreshold : U64) :
    (new roster leader faultThreshold).Sums := ⟨nofun, nofun⟩

end PanetiereObserverSession

/-! ## The observers of a core -/

/-- The observer sessions of a core: `PanetiereObserverSession`, beside whatever watches the
ADCNet subnets. -/
def panetiereSessions (C : SchedulerCrate) (A : ObserverSession)
    (adcnetFor : Bool → List Pubkey → Pubkey → U64 → A.State) : ObserverSessions where
  adcnet := A
  panetiere := panetiereObserver C
  adcnetFor := adcnetFor
  panetiereNew := .new
  demand := fun o : PanetiereObserverSession => o.demandByRound.values.getLast?
  latestClients := fun o : PanetiereObserverSession => o.clientsByRound.values.getLast?
  decodedBytesRecent := PanetiereObserverSession.decodedBytesRecent

namespace SchedulerCore
open PanetiereObserverSession

section Core
variable {A : ObserverSession} {adcnetFor : Bool → List Pubkey → Pubkey → U64 → A.State}
  {cfg : SchedulerConfig C} {s : SchedulerCore (panetiereSessions C A adcnetFor)}

/-- The session of an observer that is a Panetière one. -/
def session : PublicObserver (panetiereSessions C A adcnetFor) → Option PanetiereObserverSession
  | .panetiere o => some o
  | .adcnet _ | .noop .. => none

/-- The Panetière observer of a subnet. -/
def observerAt (s : SchedulerCore (panetiereSessions C A adcnetFor)) (id : SubnetId) :
    Option PanetiereObserverSession :=
  (s.observers.get? id).bind session

theorem observerAt_eq_some_iff {id : SubnetId} {o : PanetiereObserverSession} :
    s.observerAt id = some o ↔ s.observers.get? id = some (.panetiere o) := by
  unfold observerAt
  cases s.observers.get? id with
  | none => simp
  | some p =>
    cases p with
    | panetiere o' =>
      exact ⟨fun h => congrArg (fun o => some (PublicObserver.panetiere o)) (Option.some.inj h),
        fun h => by cases h; rfl⟩
    | adcnet | noop => exact ⟨nofun, nofun⟩

/-- The clocks a call sets are kept: a tick refreshes each from the one before it. -/
def ClocksKept (s : SchedulerCore (panetiereSessions C A adcnetFor)) : SchedulerOp C → Prop
  | .tick round now _ => ∀ id o o', s.observerAt id = some o →
      (s.clocked round now).observerAt id = some o' → o.ClockKept (s.wallRound id now) o'
  | _ => True

/-- The sums of every observer fit. -/
def SumsFit (s : SchedulerCore (panetiereSessions C A adcnetFor)) : Prop :=
  ∀ id o, s.observerAt id = some o → o.Sums

/-- The call finds no observer ahead of the wall clock before its first tick, and gives none a
round too late to be summed. -/
def Timely (s : SchedulerCore (panetiereSessions C A adcnetFor)) : SchedulerOp C → Prop
  | .tick _ now _ => ∀ id o, s.observerAt id = some o → o.Waits (s.wallRound id now)
  | .subnetMessage id sender bytes => ∀ o, s.observerAt id = some o → ¬ o.Overruns C sender bytes
  | _ => True

theorem refreshClock_panetiere (o : PanetiereObserverSession) (wall : Option Round) :
    (PublicObserver.panetiere o : PublicObserver (panetiereSessions C A adcnetFor)).refreshClock
      wall = .panetiere (o.refreshed wall) := by
  unfold PublicObserver.refreshClock refreshed
  show (match (o.maxRound.toList ++ wall.toList).max? with
    | some r => (PublicObserver.panetiere (PanetiereObserverSession.beginRound o r) :
        PublicObserver (panetiereSessions C A adcnetFor))
    | none => .panetiere o) = _
  split <;> rfl

theorem session_refreshClock (p : PublicObserver (panetiereSessions C A adcnetFor))
    (wall : Option Round) :
    session (p.refreshClock wall) = (session p).map (fun o => o.refreshed wall) := by
  cases p with
  | panetiere o =>
    exact congrArg session (refreshClock_panetiere o wall)
  | adcnet o =>
    unfold PublicObserver.refreshClock
    dsimp only
    split <;> rfl
  | noop current last => rfl

theorem session_endRoundFaults (p : PublicObserver (panetiereSessions C A adcnetFor))
    (round : Round) :
    session (p.endRoundFaults round).1 = (session p).map (fun o => o.endRound.1) := by
  cases p with
  | panetiere | adcnet => rfl
  | noop current last =>
    unfold PublicObserver.endRoundFaults
    dsimp only
    split <;> rfl

theorem observerAt_clocked (s : SchedulerCore (panetiereSessions C A adcnetFor)) (round : Round)
    (now : U64) (id : SubnetId) :
    (s.clocked round now).observerAt id =
      (s.observerAt id).map (fun o => o.refreshed (s.wallRound id now)) := by
  unfold observerAt
  rw [observers_clocked]
  cases s.observers.get? id with
  | none => rfl
  | some p => exact session_refreshClock p _

theorem observerAt_tick (cfg : SchedulerConfig C)
    (s : SchedulerCore (panetiereSessions C A adcnetFor)) (round : Round) (now clock : U64)
    (id : SubnetId) :
    (s.apply cfg (.tick round now clock)).observerAt id =
      (s.observerAt id).map (fun o => (o.refreshed (s.wallRound id now)).endRound.1) := by
  unfold observerAt
  rw [observers_tick]
  cases s.observers.get? id with
  | none => rfl
  | some p =>
    refine (session_endRoundFaults _ round).trans ?_
    rw [session_refreshClock, Option.map_map]
    rfl

/-- An observer after a call other than a tick. -/
theorem observerAt_apply_cases {op : SchedulerOp C} (hop : op.isTick = false) {id : SubnetId}
    {o' : PanetiereObserverSession} (h : (s.apply cfg op).observerAt id = some o') :
    s.observerAt id = some o' ∨
      (∃ roster leader, o' = .new roster (some leader) cfg.params.faultThreshold) ∨
      ∃ sender bytes o, op = .subnetMessage id sender bytes ∧ s.observerAt id = some o ∧
        o' = o.onInbound C sender bytes := by
  rw [observerAt_eq_some_iff] at h
  rcases observers_apply_cases cfg s hop h with
    hold | ⟨proto, roster, leader, hfresh⟩ | ⟨sender, bytes, p, rfl, hp, hnew⟩
  · exact Or.inl (observerAt_eq_some_iff.mpr hold)
  · refine Or.inr (Or.inl ⟨roster, leader, ?_⟩)
    cases proto <;> cases hfresh <;> rfl
  · refine Or.inr (Or.inr ⟨sender, bytes, ?_⟩)
    cases p with
    | panetiere o =>
      cases hnew
      exact ⟨o, rfl, observerAt_eq_some_iff.mpr hp, rfl⟩
    | adcnet | noop => cases hnew

theorem observerAt_subnetMessage {id : SubnetId} {sender : Pubkey} {bytes : Bytes}
    {o : PanetiereObserverSession} (h : s.observerAt id = some o) :
    (s.apply cfg (.subnetMessage id sender bytes)).observerAt id =
      some (o.onInbound C sender bytes) := by
  rw [observerAt_eq_some_iff] at h ⊢
  simp only [apply, onSubnetMessage, h]
  rw [OrdMap.get?_insert, if_pos rfl]
  rfl

/-! ## Runs -/

/-- In every state the highest wire round an observer took is within the window of its clock. -/
theorem near_after (cfg : SchedulerConfig C) (ops : List (SchedulerOp C)) :
    ∀ id o, (after (panetiereSessions C A adcnetFor) cfg ops).observerAt id = some o → o.Near := by
  induction ops using List.reverseRecOn with
  | nil => exact fun _ _ h => by cases h
  | append_singleton ops op ih =>
    intro id o' h
    rw [after_concat] at h
    cases hop : op.isTick with
    | false =>
      rcases observerAt_apply_cases hop h with
        hold | ⟨roster, leader, rfl⟩ | ⟨sender, bytes, o, -, ho, rfl⟩
      · exact ih id o' hold
      · exact near_new roster (some leader) cfg.params.faultThreshold
      · exact near_onInbound (ih id o ho)
    | true =>
      cases op with
      | tick round now clock =>
        rw [observerAt_tick] at h
        obtain ⟨o, ho, rfl⟩ := Option.map_eq_some_iff.mp h
        exact near_endRound (near_refreshed (ih id o ho) _)
      | _ => cases hop

/-- A tick keeps the clocks exactly when it finds no observer ahead of the wall clock before its
first tick. -/
theorem clocksKept_iff (hnear : ∀ id o, s.observerAt id = some o → o.Near) (round : Round)
    (now clock : U64) :
    s.ClocksKept (.tick round now clock) ↔ s.Timely (.tick round now clock) := by
  constructor
  · intro hkept id o ho
    refine (clockKept_refreshed_iff (hnear id o ho) _).mp (hkept id o _ ho ?_)
    rw [observerAt_clocked, ho]
    rfl
  · intro htimely id o o' ho ho'
    rw [observerAt_clocked, ho] at ho'
    cases ho'
    exact (clockKept_refreshed_iff (hnear id o ho) _).mpr (htimely id o ho)

/-- **One call**: from sums that fit, the clocks are kept and the sums fit again exactly when the
call is timely. -/
theorem kept_iff_timely (hnear : ∀ id o, s.observerAt id = some o → o.Near) (hsums : s.SumsFit)
    (op : SchedulerOp C) :
    s.ClocksKept op ∧ (s.apply cfg op).SumsFit ↔ s.Timely op := by
  cases hop : op.isTick with
  | true =>
    cases op with
    | tick round now clock =>
      rw [clocksKept_iff hnear round now clock]
      refine and_iff_left ?_
      intro id o' h
      rw [observerAt_tick] at h
      obtain ⟨o, ho, rfl⟩ := Option.map_eq_some_iff.mp h
      exact sums_endRound.mpr ((sums_refreshed _).mpr (hsums id o ho))
    | _ => cases hop
  | false =>
    constructor
    · rintro ⟨-, hfit⟩
      cases op with
      | subnetMessage id sender bytes =>
        intro o ho
        exact (sums_onInbound_iff (hsums id o ho)).mp (hfit id _ (observerAt_subnetMessage ho))
      | tick => cases hop
      | _ => trivial
    · intro htimely
      refine ⟨?_, fun id o' h => ?_⟩
      · cases op with
        | tick => cases hop
        | _ => trivial
      · rcases observerAt_apply_cases hop h with
          hold | ⟨roster, leader, rfl⟩ | ⟨sender, bytes, o, rfl, ho, rfl⟩
        · exact hsums id o' hold
        · exact sums_new ..
        · exact (sums_onInbound_iff (hsums id o ho)).mpr (htimely o ho)

theorem sumsFit_after_of_timely {ops : List (SchedulerOp C)}
    (h : ∀ σ ∈ Trace.steps ops, (after (panetiereSessions C A adcnetFor) cfg σ.1).Timely σ.2) :
    (after (panetiereSessions C A adcnetFor) cfg ops).SumsFit := by
  induction ops using List.reverseRecOn with
  | nil => exact fun _ _ h => by cases h
  | append_singleton ops op ih =>
    rw [Trace.steps_concat, List.forall_mem_append, List.forall_mem_singleton] at h
    rw [after_concat]
    exact ((kept_iff_timely (near_after cfg ops) (ih h.1) op).mpr h.2).2

/-- **The wire moves an observer's clock by its window.**  In a run, every tick keeps the clocks of
the observers within the wall clock or a window past the clock before it, and every retained round
can be summed in every state, exactly when no observer takes a round past the wall clock before
its first tick and none takes a mark or a set with a round too late to be summed. -/
theorem clocks_kept_iff (C : SchedulerCrate) (A : ObserverSession)
    (adcnetFor : Bool → List Pubkey → Pubkey → U64 → A.State) (cfg : SchedulerConfig C)
    (ops : List (SchedulerOp C)) :
    (∀ σ ∈ Trace.steps ops,
        (after (panetiereSessions C A adcnetFor) cfg σ.1).ClocksKept σ.2 ∧
        (after (panetiereSessions C A adcnetFor) cfg (σ.1 ++ [σ.2])).SumsFit) ↔
      ∀ σ ∈ Trace.steps ops, (after (panetiereSessions C A adcnetFor) cfg σ.1).Timely σ.2 := by
  induction ops using List.reverseRecOn with
  | nil => exact ⟨fun _ => nofun, fun _ => nofun⟩
  | append_singleton ops op ih =>
    simp only [Trace.steps_concat, List.forall_mem_append, List.forall_mem_singleton, after_concat]
      at ih ⊢
    rw [ih, and_congr_right_iff]
    exact fun h => kept_iff_timely (near_after cfg ops) (sumsFit_after_of_timely h) op

end Core

/-! ## A flood before the first tick -/

/-- The observers of the toy committee, the Panetière one as the source has it. -/
def toySessions : ObserverSessions :=
  panetiereSessions toyScheduler silentObserver (fun _ _ _ _ => ())

/-- A member learns one subnet, and its leader announces a set for the last round there is. -/
def floodRun : List (SchedulerOp toyScheduler) :=
  [.registration (toyRegistration [1]), .decodedBody (toyProposal (toyBody 1 (toyPanetiere 8) [1])),
    .subnetMessage 0 (toyNode 9)
      (PanetiereWire.clientSet (Fin.ofNat _ (2 ^ 64 - 1)) [] 0).serialize]

/-- **The clock is flooded**: the first tick, with the wall clock at round zero, sets the observer's
clock to the last round, and the round of its set cannot be summed with the freshness. -/
theorem clock_flooded :
    (after toySessions (toyMember 2) floodRun).wallRound 0 0 = some 0 ∧
      (((after toySessions (toyMember 2) floodRun).apply (toyMember 2) (.tick 1 0 0)).observerAt
        0).map PanetiereObserverSession.curRound = some (some (Fin.ofNat _ (2 ^ 64 - 1))) ∧
      ¬ (after toySessions (toyMember 2) floodRun).ClocksKept (.tick 1 0 0) ∧
      ¬ (after toySessions (toyMember 2) floodRun).SumsFit := by
  have hwall : (after toySessions (toyMember 2) floodRun).wallRound 0 0 = some 0 := by
    decide +kernel
  have hview : ((after toySessions (toyMember 2) floodRun).observerAt 0).map (fun o =>
      (o.curRound, o.maxRound, o.anonSetByRound.keys)) =
        some (none, some (Fin.ofNat _ (2 ^ 64 - 1)), [Fin.ofNat _ (2 ^ 64 - 1)]) := by
    decide +kernel
  obtain ⟨o, ho, hfields⟩ := Option.map_eq_some_iff.mp hview
  obtain ⟨hcur, hmax, hkeys⟩ : o.curRound = none ∧ o.maxRound = some (Fin.ofNat _ (2 ^ 64 - 1)) ∧
      o.anonSetByRound.keys = [Fin.ofNat _ (2 ^ 64 - 1)] := by
    simpa using hfields
  refine ⟨hwall, by decide +kernel, fun hkept => ?_, fun hfit => ?_⟩
  · obtain ⟨w, hw, hle⟩ :=
      (clocksKept_iff (near_after (toyMember 2) floodRun) 1 0 0).mp hkept 0 o ho hcur _ hmax
    obtain rfl : w = 0 := Option.some.inj (hw.symm.trans hwall)
    exact absurd hle (by decide)
  · exact absurd ((hfit 0 o ho).sets _ (by rw [hkeys]; exact List.mem_singleton_self _)) (by decide)
end SchedulerCore
end Anymone
