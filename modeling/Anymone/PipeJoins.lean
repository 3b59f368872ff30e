import Anymone.PipeRun

/-! # When a node takes part

A node takes part in rounds while it is joined, and it is joined for the pipes that may send.
`open` and `subscribe` register their pipe before they join, and a pipe that is dropped is forgotten
before it leaves, each under two locks with other calls between them.  Once the calls on a tag are
over, the node is joined there exactly for the pipe that is registered (`joined_exactly`), unless a
call registered on the tag while an earlier pipe was leaving it, or a bound or a listening pipe took
the tag of a half that is left.
-/

namespace Anymone.Pipes
namespace PipeNode
variable {Policy : Type} {n n' : PipeNode Policy}

/-! ## Pipes that may send -/

/-- A pipe that may send to `service` is registered for `tag`. -/
def SendsTo (n : PipeNode Policy) (tag : RouteTag) (service : ServiceTag) : Prop :=
  ∃ (i : Nat) (c : Channel), n.pipes.get? tag = some i ∧ n.channels[i]? = some c ∧
    c.peer = some service

theorem sendsTo_onChannel (i : Nat) {f : Channel → Channel} (hf : ∀ c, (f c).peer = c.peer)
    {tag : RouteTag} {service : ServiceTag} :
    (n.onChannel i f).SendsTo tag service ↔ n.SendsTo tag service := by
  constructor
  · rintro ⟨j, c, hj, hc, hpeer⟩
    rw [getElem?_onChannel] at hc
    obtain ⟨c', hc', rfl⟩ := Option.map_eq_some_iff.mp hc
    refine ⟨j, c', hj, hc', ?_⟩
    split_ifs at hpeer
    · rw [← hf, hpeer]
    · exact hpeer
  · rintro ⟨j, c, hj, hc, hpeer⟩
    refine ⟨j, _, hj, by rw [getElem?_onChannel, hc]; rfl, ?_⟩
    split_ifs
    · rw [hf, hpeer]
    · exact hpeer

/-- The new pipe takes the place of whatever was registered for its tag. -/
theorem sendsTo_registerPipe (h : n.Wired) {tag : RouteTag} {peer : Option ServiceTag}
    (hreg : n.registerPipe tag peer = .ok n') {tag' : RouteTag} {service : ServiceTag} :
    n'.SendsTo tag' service ↔ if tag' = tag then peer = some service else n.SendsTo tag' service := by
  unfold PipeNode.registerPipe at hreg
  split_ifs at hreg
  cases hreg
  unfold SendsTo
  simp only [OrdMap.get?_insert]
  by_cases htag : tag' = tag
  · simp only [if_pos htag]
    constructor
    · rintro ⟨i, c, hi, hc, hpeer⟩
      cases hi
      rw [List.getElem?_concat_length] at hc
      cases hc
      exact hpeer
    · intro hpeer
      exact ⟨_, _, rfl, List.getElem?_concat_length, hpeer⟩
  · simp only [if_neg htag]
    constructor
    · rintro ⟨i, c, hi, hc, hpeer⟩
      obtain ⟨c', hc', -⟩ := h.mapped tag' i hi
      rw [List.getElem?_append_left (List.getElem?_eq_some_iff.mp hc').1] at hc
      exact ⟨i, c, hi, hc, hpeer⟩
    · rintro ⟨i, c, hi, hc, hpeer⟩
      exact ⟨i, c, hi, by
        rw [List.getElem?_append_left (List.getElem?_eq_some_iff.mp hc).1, hc], hpeer⟩

/-! ## Calls between their lock sections -/

/-- One of these channels is on the tag. -/
def waits (n : PipeNode Policy) (l : List Nat) (tag : RouteTag) : Bool :=
  l.any (fun i => (n.channels[i]?).any (fun c => decide (c.tag = tag)))

/-- A call has registered a pipe on the tag, and has yet to join the node. -/
def joins (n : PipeNode Policy) (tag : RouteTag) : Bool := n.waits n.joining tag

/-- A pipe on the tag is forgotten, and has yet to take the join back. -/
def leaves (n : PipeNode Policy) (tag : RouteTag) : Bool := n.waits n.leaving tag

/-- No call on the tag is between its lock sections. -/
def settled (n : PipeNode Policy) (tag : RouteTag) : Bool := !n.joins tag && !n.leaves tag

/-- A call registers a pipe that may send on a tag that an earlier pipe is leaving. -/
def overtakes (n : PipeNode Policy) : PipeOp Policy → Bool
  | .openPipe _ returnTag => n.leaves returnTag
  | .subscribe tag => n.leaves tag
  | _ => false

/-- A bound or a listening pipe takes the place of one the node is joined for. -/
def takesJoined (n : PipeNode Policy) : PipeOp Policy → Bool
  | .bind tag | .listen tag =>
      (n.joined.get? tag).isSome && !n.isOpen tag && !n.leaves tag
  | _ => false

theorem waits_iff {l : List Nat} {tag : RouteTag} :
    n.waits l tag = true ↔ ∃ i ∈ l, ∃ c, n.channels[i]? = some c ∧ c.tag = tag := by
  simp only [waits, List.any_eq_true, Option.any_eq_true, decide_eq_true_eq]

theorem waits_onChannel (i : Nat) {f : Channel → Channel} (htag : ∀ c, (f c).tag = c.tag)
    (l : List Nat) (tag : RouteTag) : (n.onChannel i f).waits l tag = n.waits l tag := by
  unfold waits
  refine List.any_congr rfl (fun j => ?_)
  rw [getElem?_onChannel]
  cases n.channels[j]? with
  | none => rfl
  | some c =>
    simp only [Option.map_some, Option.any_some]
    split_ifs
    · rw [htag]
    · rfl

/-- A channel waits on another tag when one fewer waits. -/
theorem waits_erase {l : List Nat} {i : Nat} {c : Channel} (hc : n.channels[i]? = some c)
    {tag : RouteTag} (h : n.waits l tag = true) (htag : tag ≠ c.tag) :
    n.waits (l.erase i) tag = true := by
  obtain ⟨j, hj, c', hc', heq⟩ := waits_iff.mp h
  have hne : j ≠ i := by
    rintro rfl
    rw [hc] at hc'
    cases hc'
    exact htag heq.symm
  exact waits_iff.mpr ⟨j, (List.mem_erase_of_ne hne).mpr hj, c', hc', heq⟩

theorem waits_of_erase {l : List Nat} {i : Nat} {tag : RouteTag}
    (h : n.waits (l.erase i) tag = true) : n.waits l tag = true := by
  obtain ⟨j, hj, hc⟩ := waits_iff.mp h
  exact waits_iff.mpr ⟨j, List.mem_of_mem_erase hj, hc⟩

/-! ## What is kept -/

/-- How the joins stand: a call that has yet to join holds its pipe, a pipe that may send joins the
node or is about to, and no pipe may send on a tag that is being left. -/
structure Covers (n : PipeNode Policy) : Prop where
  joining : ∀ i ∈ n.joining, ∃ c service, n.channels[i]? = some c ∧ c.receiver = true ∧
    c.peer = some service
  leaving : ∀ i ∈ n.leaving, i < n.channels.length
  covered : ∀ tag service, n.SendsTo tag service →
    n.joins tag = true ∨ n.joined.get? tag = some service
  gone : ∀ tag service, n.leaves tag = true → ¬ n.SendsTo tag service

/-- The node is joined for pipes that may send, or a call is about to see to it. -/
def Spare (n : PipeNode Policy) : Prop :=
  ∀ tag service, n.joined.get? tag = some service → n.SendsTo tag service ∨ n.joins tag = true ∨
    n.leaves tag = true

/-- What a step does to both. -/
structure Follows (n n' : PipeNode Policy) : Prop where
  covers : n'.Covers
  spare : n.Spare → n'.Spare

theorem Covers.refl (h : n.Covers) : Follows n n := ⟨h, id⟩

/-- A channel is rewritten, and with it no receiver that a call has yet to hand out. -/
theorem Covers.onChannel (h : n.Covers) (i : Nat) {f : Channel → Channel}
    (htag : ∀ c, (f c).tag = c.tag) (hpeer : ∀ c, (f c).peer = c.peer)
    (hrecv : i ∈ n.joining → ∀ c, (f c).receiver = c.receiver) :
    Follows n (n.onChannel i f) := by
  have hwaits := waits_onChannel (n := n) i htag
  refine ⟨⟨fun j hj => ?_, fun j hj => ?_, fun tag service hs => ?_, fun tag service hl hs => ?_⟩,
    fun hspare tag service hjoined => ?_⟩
  · obtain ⟨c, service, hc, hopen, hservice⟩ := h.joining j hj
    refine ⟨_, service, by rw [getElem?_onChannel, hc]; rfl, ?_⟩
    split_ifs with hji
    · subst hji
      exact ⟨(hrecv hj c).trans hopen, (hpeer c).trans hservice⟩
    · exact ⟨hopen, hservice⟩
  · rw [length_onChannel]
    exact h.leaving j hj
  · rw [joins, hwaits]
    exact h.covered tag service ((sendsTo_onChannel i hpeer).mp hs)
  · rw [leaves, hwaits] at hl
    exact h.gone tag service hl ((sendsTo_onChannel i hpeer).mp hs)
  · rw [joins, leaves, hwaits, hwaits]
    exact (hspare tag service hjoined).imp_left (sendsTo_onChannel i hpeer).mpr

/-! ## Registering -/

theorem registerPipe_ok {tag : RouteTag} {peer : Option ServiceTag}
    (hreg : n.registerPipe tag peer = .ok n') : n.isOpen tag = false ∧ n' = { n with
      pipes := n.pipes.insert tag n.channels.length
      channels := n.channels ++ [⟨tag, peer, true, 1, [], []⟩] } := by
  unfold PipeNode.registerPipe at hreg
  split_ifs at hreg with hopen
  cases hreg
  exact ⟨by simpa using hopen, rfl⟩

/-- A new channel changes nothing for those that wait. -/
theorem waits_registerPipe {tag : RouteTag} {peer : Option ServiceTag}
    (hreg : n.registerPipe tag peer = .ok n') {l : List Nat}
    (hl : ∀ i ∈ l, i < n.channels.length) (tag' : RouteTag) :
    n'.waits l tag' = n.waits l tag' := by
  obtain ⟨-, rfl⟩ := registerPipe_ok hreg
  rw [Bool.eq_iff_iff, waits_iff, waits_iff]
  refine exists_congr (fun i => and_congr_right (fun hi => ?_))
  rw [List.getElem?_append_left (hl i hi)]

theorem Covers.length_joining (h : n.Covers) : ∀ i ∈ n.joining, i < n.channels.length := by
  intro i hi
  obtain ⟨c, -, hc, -⟩ := h.joining i hi
  exact (List.getElem?_eq_some_iff.mp hc).1

/-- A registered pipe is new, and those that wait are as they were. -/
theorem Covers.registerPipe (h : n.Covers) {tag : RouteTag} {peer : Option ServiceTag}
    (hreg : n.registerPipe tag peer = .ok n') :
    (∀ i ∈ n'.joining, ∃ c service, n'.channels[i]? = some c ∧ c.receiver = true ∧
      c.peer = some service) ∧ (∀ i ∈ n'.leaving, i < n'.channels.length) ∧
    n'.joined = n.joined ∧ (∀ tag', n'.joins tag' = n.joins tag') ∧
      ∀ tag', n'.leaves tag' = n.leaves tag' := by
  have hjoins := waits_registerPipe hreg h.length_joining
  have hleaves := waits_registerPipe hreg h.leaving
  obtain ⟨-, rfl⟩ := registerPipe_ok hreg
  refine ⟨fun i hi => ?_, fun i hi => ?_, rfl, hjoins, hleaves⟩
  · obtain ⟨c, service, hc, hrest⟩ := h.joining i hi
    exact ⟨c, service, by rw [List.getElem?_append_left (h.length_joining i hi), hc], hrest⟩
  · rw [List.length_append]
    exact Nat.lt_add_right _ (h.leaving i hi)

/-- A pipe that may not send covers nothing; it leaves a join behind only where it takes a tag. -/
theorem Covers.register_none (h : n.Covers) (hw : n.Wired) {tag : RouteTag}
    (hreg : n.registerPipe tag none = .ok n') : n'.Covers ∧
      (((n.joined.get? tag).isSome && !n.isOpen tag && !n.leaves tag) = false →
        n.Spare → n'.Spare) := by
  obtain ⟨hjoining, hleaving, hjoined, hjoins, hleaves⟩ := h.registerPipe hreg
  have hsends : ∀ tag' service, n'.SendsTo tag' service ↔
      tag' ≠ tag ∧ n.SendsTo tag' service := by
    intro tag' service
    rw [sendsTo_registerPipe hw hreg]
    split_ifs with htag <;> simp [htag]
  refine ⟨⟨hjoining, hleaving, fun tag' service hs => ?_, fun tag' service hl hs => ?_⟩,
    fun hfree hspare tag' service hj => ?_⟩
  · rw [hjoins, hjoined]
    exact h.covered tag' service ((hsends tag' service).mp hs).2
  · rw [hleaves] at hl
    exact h.gone tag' service hl ((hsends tag' service).mp hs).2
  · rw [hjoined] at hj
    rw [hjoins, hleaves, hsends]
    by_cases htag : tag' = tag
    · subst htag
      rw [hj, (registerPipe_ok hreg).1] at hfree
      exact Or.inr (Or.inr (by simpa using hfree))
    · exact (hspare tag' service hj).imp_left (fun hs => ⟨htag, hs⟩)

/-- A pipe that may send is about to join its node. -/
theorem Covers.registerJoining (h : n.Covers) (hw : n.Wired) {tag : RouteTag}
    {service : ServiceTag} (hnot : n.leaves tag = false)
    (hreg : n.registerJoining tag service = .ok n') : Follows n n' := by
  obtain ⟨m, hinner, rfl⟩ := registerJoining_ok hreg
  obtain ⟨hjoining, hleaving, hjoined, hjoins, hleaves⟩ := h.registerPipe hinner
  have hnew : m.channels[n.channels.length]? = some ⟨tag, some service, true, 1, [], []⟩ := by
    rw [(registerPipe_ok hinner).2]
    exact List.getElem?_concat_length
  -- The tag has a call that is about to join, and the others have those they had.
  have hwaits : ∀ tag', ({ m with joining := m.joining ++ [n.channels.length] }
      : PipeNode Policy).joins tag' = (n.joins tag' || decide (tag = tag')) := by
    intro tag'
    rw [← hjoins]
    simp [joins, waits, hnew]
  refine ⟨⟨fun i hi => ?_, hleaving, fun tag' service' hs => ?_, fun tag' service' hl hs => ?_⟩,
    fun hspare tag' service' hj => ?_⟩
  · rcases List.mem_append.mp hi with hi | hi
    · exact hjoining i hi
    · rw [List.mem_singleton.mp hi]
      exact ⟨_, service, hnew, rfl, rfl⟩
  · rw [hwaits]
    have hs : m.SendsTo tag' service' := hs
    rw [sendsTo_registerPipe hw hinner] at hs
    split_ifs at hs with htag
    · exact Or.inl (by simp [htag])
    · show _ ∨ m.joined.get? tag' = some service'
      rw [hjoined]
      exact (h.covered tag' service' hs).imp_left (fun hold => by simp [hold])
  · have hl : m.leaves tag' = true := hl
    have hs : m.SendsTo tag' service' := hs
    rw [hleaves] at hl
    rw [sendsTo_registerPipe hw hinner] at hs
    split_ifs at hs with htag
    · rw [htag, hnot] at hl
      cases hl
    · exact h.gone tag' service' hl hs
  · have hj : m.joined.get? tag' = some service' := hj
    rw [hjoined] at hj
    rw [hwaits]
    show m.SendsTo tag' service' ∨ _ ∨ m.leaves tag' = true
    rw [hleaves, sendsTo_registerPipe hw hinner]
    by_cases htag : tag' = tag
    · exact Or.inr (Or.inl (by simp [htag]))
    · rw [if_neg htag]
      exact (hspare tag' service' hj).imp_right (Or.imp_left (fun hold => by simp [hold]))

/-- The node is joined for the pipe of the call. -/
theorem Covers.join (h : n.Covers) (hw : n.Wired) (i : Nat) : Follows n (n.join i) := by
  unfold PipeNode.join
  split
  next tag service receiver senders inbox received hc =>
    split
    next hi =>
      obtain ⟨c, service', hc', hopen, -⟩ := h.joining i hi
      obtain rfl := Option.some.inj (hc.symm.trans hc')
      have hmap : n.pipes.get? tag = some i := hw.listening i _ hc hopen
      have hsends : ∀ service', n.SendsTo tag service' ↔ service = service' := by
        intro service'
        constructor
        · rintro ⟨j, c, hj, hcj, hpeer⟩
          obtain rfl := Option.some.inj (hmap.symm.trans hj)
          obtain rfl := Option.some.inj (hc.symm.trans hcj)
          exact Option.some.inj hpeer
        · rintro rfl
          exact ⟨i, _, hmap, hc, rfl⟩
      refine ⟨⟨fun j hj => h.joining j (List.mem_of_mem_erase hj), h.leaving,
        fun tag' service' hs => ?_, h.gone⟩, fun hspare tag' service' hj => ?_⟩
      · have hs : n.SendsTo tag' service' := hs
        show n.waits (n.joining.erase i) tag' = true ∨ _
        dsimp only
        rw [OrdMap.get?_insert]
        by_cases htag : tag' = tag
        · subst htag
          rw [if_pos rfl, (hsends service').mp hs]
          exact Or.inr rfl
        · rw [if_neg htag]
          exact (h.covered tag' service' hs).imp_left (fun hold => waits_erase hc hold htag)
      · show n.SendsTo tag' service' ∨ n.waits (n.joining.erase i) tag' = true ∨ n.leaves tag' = true
        dsimp only at hj
        rw [OrdMap.get?_insert] at hj
        split_ifs at hj with htag
        · rw [htag, hsends]
          exact Or.inl (Option.some.inj hj)
        · exact (hspare tag' service' hj).imp_right
            (Or.imp_left (fun hold => waits_erase hc hold htag))
    next => exact h.refl
  next => exact h.refl

/-! ## Leaving -/

/-- A pipe is forgotten, and is about to leave if it might send. -/
theorem Covers.release (h : n.Covers) {i : Nat} {c d : Channel} (hc : n.channels[i]? = some d)
    (htag : d.tag = c.tag) (hpeer : d.peer = c.peer) : Follows n (n.release i c) := by
  unfold PipeNode.release
  by_cases howner : n.pipes.get? c.tag = some i
  · rw [if_pos howner]
    have hlength : i < n.channels.length := (List.getElem?_eq_some_iff.mp hc).1
    -- Forgetting the tag takes this one sender away and no other.
    have hsends : ∀ {tag service}, (∃ (j : Nat) (c : Channel),
        (n.pipes.erase d.tag).get? tag = some j ∧ n.channels[j]? = some c ∧
          c.peer = some service) ↔ tag ≠ d.tag ∧ n.SendsTo tag service := by
      intro tag service
      simp only [OrdMap.get?_erase]
      by_cases hne : tag = d.tag
      · simp [hne]
      · simp [hne, SendsTo]
    -- What it was joined for is still to be left.
    have hleaves : ∀ tag, n.waits (if c.peer.isSome then n.leaving ++ [i] else n.leaving) tag =
        (n.leaves tag || (c.peer.isSome && decide (d.tag = tag))) := by
      intro tag
      split
      next hsome => simp [leaves, waits, hc, hsome]
      next hnone => simp [leaves, hnone]
    refine ⟨⟨h.joining, fun j hj => ?_, fun tag service hs => ?_, fun tag service hl hs => ?_⟩,
      fun hspare tag service hj => ?_⟩
    · dsimp only at hj
      split at hj
      · rcases List.mem_append.mp hj with hj | hj
        · exact h.leaving j hj
        · rw [List.mem_singleton.mp hj]
          exact hlength
      · exact h.leaving j hj
    · rw [← htag] at hs
      exact h.covered tag service (hsends.mp hs).2
    · rw [← htag] at hs
      obtain ⟨hne, hs⟩ := hsends.mp hs
      have hl := (hleaves tag).symm.trans hl
      rcases Bool.or_eq_true_iff.mp hl with hl | hl
      · exact h.gone tag service hl hs
      · exact hne (of_decide_eq_true (Bool.and_eq_true_iff.mp hl).2).symm
    · have hold := hspare tag service hj
      show (∃ (j : Nat) (d : Channel), (n.pipes.erase c.tag).get? tag = some j ∧
        n.channels[j]? = some d ∧ d.peer = some service) ∨ n.joins tag = true ∨
          n.waits (if c.peer.isSome then n.leaving ++ [i] else n.leaving) tag = true
      rw [← htag, hsends, hleaves]
      rcases hold with hs | hold | hold
      · by_cases hne : tag = d.tag
        · -- The pipe that is forgotten is the one the node was joined for.
          obtain ⟨j, e, hj, he, hservice⟩ := hs
          rw [hne, htag, howner] at hj
          cases hj
          rw [hc] at he
          cases he
          rw [← hpeer, hservice]
          exact Or.inr (Or.inr (by simp [hne]))
        · exact Or.inl ⟨hne, hs⟩
      · exact Or.inr (Or.inl hold)
      · exact Or.inr (Or.inr (by simp [hold]))
  · rw [if_neg howner]
    exact h.refl

/-- The join of a pipe that was forgotten is taken back. -/
theorem Covers.leave (h : n.Covers) (i : Nat) : Follows n (n.leave i) := by
  unfold PipeNode.leave
  split
  next => exact h.refl
  next c hc =>
    split
    next hi =>
      have hleft : n.leaves c.tag = true := waits_iff.mpr ⟨i, hi, c, hc, rfl⟩
      refine ⟨⟨h.joining, fun j hj => h.leaving j (List.mem_of_mem_erase hj),
        fun tag service hs => ?_, fun tag service hl => h.gone tag service (waits_of_erase hl)⟩,
        fun hspare tag service hj => ?_⟩
      · have hs : n.SendsTo tag service := hs
        have hne : tag ≠ c.tag := by
          rintro rfl
          exact h.gone c.tag service hleft hs
        dsimp only
        rw [OrdMap.get?_erase, if_neg hne]
        exact h.covered tag service hs
      · dsimp only at hj
        rw [OrdMap.get?_erase] at hj
        split_ifs at hj with hne
        exact (hspare tag service hj).imp_right
          (Or.imp_right (fun hold => waits_erase hc hold hne))
    next => exact h.refl

/-! ## One step -/

/-- A half is called once it was handed out. -/
theorem Covers.onHalf (h : n.Covers) (i : Nat) (call : PipeNode Policy → PipeNode Policy)
    (hcall : i ∉ n.joining → Follows n (call n)) : Follows n (n.onHalf i call) := by
  unfold PipeNode.onHalf
  split
  next => exact h.refl
  next hout => exact hcall hout

/-- A call on a sender touches no pipe. -/
theorem Covers.onSender (h : n.Covers) (i : Nat)
    {call : Channel → Except SendError (PipeNode Policy)}
    (hcall : ∀ c n', call c = .ok n' → ∃ outbox, n' = { n with outbox := outbox }) :
    Follows n (n.onSender i call) := by
  obtain ⟨outbox, hout⟩ := exists_onSender i hcall
  rw [hout]
  exact ⟨⟨h.joining, h.leaving, h.covered, h.gone⟩, id⟩

theorem Covers.orKeep_joining (h : n.Covers) (hw : n.Wired) {tag : RouteTag}
    (service : ServiceTag) (hnot : n.leaves tag = false)
    {call : Except OpenError (PipeNode Policy)}
    (hcall : ∀ n', call = .ok n' → n.registerJoining tag service = .ok n') :
    Follows n (n.orKeep call) := by
  unfold orKeep
  cases hres : call with
  | error e => exact h.refl
  | ok n' => exact h.registerJoining hw hnot (hcall n' hres)

theorem Covers.orKeep_none (h : n.Covers) (hw : n.Wired) {tag : RouteTag}
    {call : Except OpenError (PipeNode Policy)}
    (hcall : ∀ n', call = .ok n' → n.registerPipe tag none = .ok n') :
    (n.orKeep call).Covers ∧
      (((n.joined.get? tag).isSome && !n.isOpen tag && !n.leaves tag) = false →
        n.Spare → (n.orKeep call).Spare) := by
  unfold orKeep
  cases hres : call with
  | error e => exact ⟨h, fun _ => id⟩
  | ok n' => exact h.register_none hw (hcall n' hres)

theorem Covers.dropSender (h : n.Covers) {i : Nat} (hout : i ∉ n.joining) :
    Follows n (n.dropSender i) := by
  unfold PipeNode.dropSender
  cases hc : n.channels[i]? with
  | none => exact h.refl
  | some c =>
    have hfewer := h.onChannel i (f := fun c => { c with senders := c.senders - 1 })
      (fun _ => rfl) (fun _ => rfl) (fun hi => absurd hi hout)
    dsimp only
    split
    next =>
      have hrelease := hfewer.covers.release (i := i) (c := c)
        (d := { c with senders := c.senders - 1 }) (by rw [getElem?_onChannel, hc]; simp) rfl rfl
      exact ⟨hrelease.covers, fun hspare => hrelease.spare (hfewer.spare hspare)⟩
    next => exact hfewer

theorem Covers.dropReceiver (h : n.Covers) {i : Nat} (hout : i ∉ n.joining) :
    Follows n (n.dropReceiver i) := by
  unfold PipeNode.dropReceiver
  cases hc : n.channels[i]? with
  | none => exact h.refl
  | some c =>
    have hclosed := h.onChannel i (f := fun c => { c with receiver := false, inbox := [] })
      (fun _ => rfl) (fun _ => rfl) (fun hi => absurd hi hout)
    dsimp only
    split
    next =>
      have hrelease := hclosed.covers.release (i := i) (c := c)
        (d := { c with receiver := false, inbox := [] }) (by rw [getElem?_onChannel, hc]; simp)
        rfl rfl
      exact ⟨hrelease.covers, fun hspare => hrelease.spare (hclosed.spare hspare)⟩
    next => exact hclosed

theorem Covers.routeToPipe (h : n.Covers) (round : Round) (bytes : Bytes) :
    Follows n (n.routeToPipe round bytes) := by
  unfold PipeNode.routeToPipe
  split
  next => exact h.refl
  next dst msg _ =>
    split
    next => exact h.refl
    next i _ =>
      exact h.onChannel i (fun c => (fields_push msg c).1) (fun c => (fields_push msg c).2.1)
        (fun _ c => (fields_push msg c).2.2)

/-- **One step and the joins of a node.** -/
theorem Covers.step (h : n.Covers) (hw : n.Wired) (op : PipeOp Policy)
    (hnot : n.overtakes op = false) :
    (n.step op).Covers ∧ (n.takesJoined op = false → n.Spare → (n.step op).Spare) := by
  have always : ∀ {n'}, Follows n n' → n'.Covers ∧ (n.takesJoined op = false → n.Spare → n'.Spare) :=
    fun hf => ⟨hf.covers, fun _ => hf.spare⟩
  cases op with
  | adopt config => exact ⟨⟨h.joining, h.leaving, h.covered, h.gone⟩, fun _ => id⟩
  | openPipe tag returnTag => exact always (h.orKeep_joining hw tag hnot (fun _ => openPipe_ok))
  | bind tag => exact h.orKeep_none hw (fun _ => bind_ok)
  | subscribe tag => exact always (h.orKeep_joining hw tag hnot (fun _ => subscribe_ok))
  | listen tag => exact h.orKeep_none hw (fun _ => listen_ok)
  | join i => exact always (h.join hw i)
  | leave i => exact always (h.leave i)
  | cloneSender i =>
    refine always (h.onHalf i (fun n => n.cloneSender i) (fun hout => ?_))
    exact h.onChannel i (fun _ => rfl) (fun _ => rfl) (fun hi => absurd hi hout)
  | dropSender i => exact always (h.onHalf i (fun n => n.dropSender i) h.dropSender)
  | dropReceiver i => exact always (h.onHalf i (fun n => n.dropReceiver i) h.dropReceiver)
  | recv i =>
    refine always (h.onHalf i (fun n => n.recv i) (fun hout => ?_))
    exact h.onChannel i (fun c => (fields_pop c).1) (fun c => (fields_pop c).2.1)
      (fun hi => absurd hi hout)
  | route round bytes => exact always (h.routeToPipe round bytes)
  | sendTo i dst payload =>
    exact always (h.onHalf i (fun n => n.onSender i (fun c => n.sendTo c dst payload))
      (fun _ => h.onSender i (fun _ _ => sendTo_ok)))
  | send i payload =>
    exact always (h.onHalf i (fun n => n.onSender i (fun c => n.send c payload))
      (fun _ => h.onSender i (fun _ _ => send_ok)))
  | sendUnlinkable i oneOff payload =>
    exact always (h.onHalf i (fun n => n.onSender i (fun c => n.sendUnlinkable c oneOff payload))
      (fun _ => h.onSender i (fun _ _ => sendUnlinkable_ok)))
  | stage outbox => exact ⟨⟨h.joining, h.leaving, h.covered, h.gone⟩, fun _ => id⟩

/-! ## A run -/

variable (ourPk : Pubkey) (config : AnymoneRoundConfiguration Policy)

theorem covers_after (ops : List (PipeOp Policy))
    (hnot : ∀ σ ∈ Trace.steps ops, (after ourPk config σ.1).overtakes σ.2 = false) :
    (after ourPk config ops).Covers ∧
      ((∀ σ ∈ Trace.steps ops, (after ourPk config σ.1).takesJoined σ.2 = false) →
        (after ourPk config ops).Spare) := by
  induction ops using List.reverseRecOn with
  | nil =>
    refine ⟨⟨nofun, nofun, fun tag service h => ?_, nofun⟩, fun _ => nofun⟩
    obtain ⟨i, c, hi, -⟩ := h
    cases hi
  | append_singleton l op ih =>
    rw [Trace.steps_concat] at hnot ⊢
    have hlast : (l, op) ∈ Trace.steps l ++ [(l, op)] :=
      List.mem_append_right _ (List.mem_singleton.mpr rfl)
    obtain ⟨hcovers, hspare⟩ := ih (fun σ hσ => hnot σ (List.mem_append_left _ hσ))
    obtain ⟨hnext, hnextSpare⟩ :=
      hcovers.step (wired_after ourPk config l) op (hnot (l, op) hlast)
    rw [after_concat]
    refine ⟨hnext, fun htakes => hnextSpare (htakes (l, op) hlast) ?_⟩
    exact hspare (fun σ hσ => htakes σ (List.mem_append_left _ hσ))

/-- **A node takes part while a pipe of its own may send.**  In every interleaving in which no call
registers on a tag that an earlier pipe is leaving, wherever no call is between its lock sections a
pipe registered with a service to send to keeps the node joined to that service; and where no bound
or listening pipe takes the tag of a pipe whose receiver is gone but whose sender is not, the node
is joined to nothing else. -/
theorem joined_exactly (ops : List (PipeOp Policy))
    (hnot : ∀ σ ∈ Trace.steps ops, (after ourPk config σ.1).overtakes σ.2 = false) :
    (∀ tag service, (after ourPk config ops).settled tag = true →
      (after ourPk config ops).SendsTo tag service →
        (after ourPk config ops).joined.get? tag = some service) ∧
    ((∀ σ ∈ Trace.steps ops, (after ourPk config σ.1).takesJoined σ.2 = false) →
      ∀ tag service, (after ourPk config ops).settled tag = true →
        (after ourPk config ops).joined.get? tag = some service →
          (after ourPk config ops).SendsTo tag service) := by
  obtain ⟨hcovers, hspare⟩ := covers_after ourPk config ops hnot
  refine ⟨fun tag service hsettled hs => ?_, fun htakes tag service hsettled hj => ?_⟩
  · rcases hcovers.covered tag service hs with hjoins | hjoined
    · simp [settled, hjoins] at hsettled
    · exact hjoined
  · rcases hspare htakes tag service hj with hs | hjoins | hleaves
    · exact hs
    · simp [settled, hjoins] at hsettled
    · simp [settled, hleaves] at hsettled

end PipeNode

/-! ## A room that is left and entered again -/

namespace PipeToy

/-- A subscription joins, its pipe is dropped and leaves, and another subscribes while a third
listens in vain. -/
def reenters : List (PipeOp Unit) :=
  [.subscribe room, .join 0, .dropReceiver 0, .dropSender 0, .leave 0, .subscribe room,
    .listen room, .join 1, .send 1 [7]]

/-- The second subscription comes between the two lock sections of the first pipe's drop. -/
def overtaking : List (PipeOp Unit) :=
  [.subscribe room, .join 0, .dropReceiver 0, .dropSender 0, .subscribe room, .join 1, .leave 0]

end PipeToy

namespace PipeNode
open PipeToy

theorem joined_exactly_toy :
    (∀ tag service, (after me adopted reenters).settled tag = true →
      (after me adopted reenters).SendsTo tag service →
        (after me adopted reenters).joined.get? tag = some service) ∧
    ∀ tag service, (after me adopted reenters).settled tag = true →
      (after me adopted reenters).joined.get? tag = some service →
        (after me adopted reenters).SendsTo tag service :=
  (joined_exactly me adopted reenters (by decide +kernel)).imp id (fun h => h (by decide +kernel))

/-- A pipe that was overtaken is registered and not joined. -/
example : (after me adopted overtaking).settled room = true ∧
    (after me adopted overtaking).isOpen room = true ∧
    (after me adopted overtaking).joined.get? room = none := by decide +kernel

end PipeNode
end Anymone.Pipes
