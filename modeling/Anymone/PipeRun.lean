import Anymone.Pipes

/-! # What a pipe receives

Over a whole run of a node: a pipe's receiver gets exactly the messages of the frames addressed to
its tag since it was registered, in order; and what a pipe sends arrives so at whichever node has a pipe
on the tag.
-/

namespace Anymone.Pipes
variable {Policy : Type}

/-! ## The maps of a node -/

namespace PipeNode

/-- A tag leads to a channel of that tag, and a receiver that was not dropped is led to. -/
structure Wired (n : PipeNode Policy) : Prop where
  mapped : ∀ tag i, n.pipes.get? tag = some i → ∃ c, n.channels[i]? = some c ∧ c.tag = tag
  listening : ∀ i c, n.channels[i]? = some c → c.receiver = true → n.pipes.get? c.tag = some i

variable {n : PipeNode Policy}

theorem getElem?_onChannel (i j : Nat) (f : Channel → Channel) :
    (n.onChannel i f).channels[j]? =
      (n.channels[j]?).map (fun c => if j = i then f c else c) := by
  unfold onChannel
  rw [List.getElem?_modify]
  by_cases h : i = j
  · simp [h]
  · simp [h, Ne.symm h]

/-- Rewriting a channel that keeps its tag and opens nothing keeps the maps. -/
theorem Wired.onChannel (h : n.Wired) (i : Nat) {f : Channel → Channel}
    (htag : ∀ c, (f c).tag = c.tag) (hrecv : ∀ c, (f c).receiver = true → c.receiver = true) :
    (n.onChannel i f).Wired where
  mapped tag j hj := by
    obtain ⟨c, hc, hct⟩ := h.mapped tag j hj
    refine ⟨_, by rw [getElem?_onChannel, hc]; rfl, ?_⟩
    split_ifs
    · rw [htag, hct]
    · exact hct
  listening j c hc hopen := by
    rw [getElem?_onChannel] at hc
    obtain ⟨c', hc', rfl⟩ := Option.map_eq_some_iff.mp hc
    split_ifs at hopen ⊢
    · rw [htag]
      exact h.listening j c' hc' (hrecv c' hopen)
    · exact h.listening j c' hc' hopen

/-- A channel that is not listening is forgotten. -/
theorem Wired.release (h : n.Wired) {i : Nat} {c : Channel}
    (hclosed : ∀ c', n.channels[i]? = some c' → c'.receiver = false) : (n.release i c).Wired := by
  unfold PipeNode.release
  by_cases howner : n.pipes.get? c.tag = some i
  · rw [if_pos howner]
    refine ⟨fun tag j hj => ?_, fun j c' hc' hopen => ?_⟩
    · rw [OrdMap.get?_erase] at hj
      split_ifs at hj
      exact h.mapped tag j hj
    · have hmap := h.listening j c' hc' hopen
      have hne : c'.tag ≠ c.tag := by
        intro heq
        rw [heq, howner] at hmap
        cases hmap
        rw [hclosed c' hc'] at hopen
        cases hopen
      rw [OrdMap.get?_erase, if_neg hne]
      exact hmap
  · rw [if_neg howner]
    exact h

/-- A registration takes the tag of no listening pipe. -/
theorem Wired.registerPipe (h : n.Wired) {tag : RouteTag} {peer : Option ServiceTag}
    {n' : PipeNode Policy} (hreg : n.registerPipe tag peer = .ok n') : n'.Wired := by
  unfold PipeNode.registerPipe at hreg
  split_ifs at hreg with hopen
  cases hreg
  refine ⟨fun tag' i hi => ?_, fun i c hc hrecv => ?_⟩
  · rw [OrdMap.get?_insert] at hi
    split_ifs at hi with htag
    · cases hi
      exact ⟨_, List.getElem?_concat_length, htag.symm⟩
    · obtain ⟨c, hc, hct⟩ := h.mapped tag' i hi
      exact ⟨c, by rw [List.getElem?_append_left (List.getElem?_eq_some_iff.mp hc).1, hc], hct⟩
  · by_cases hi : i < n.channels.length
    · rw [List.getElem?_append_left hi] at hc
      have hmap := h.listening i c hc hrecv
      have hne : c.tag ≠ tag := by
        intro heq
        rw [heq] at hmap
        exact hopen (by simp [isOpen, hmap, hc, hrecv])
      rw [OrdMap.get?_insert, if_neg hne]
      exact hmap
    · have hlast : i = n.channels.length := by
        have := (List.getElem?_eq_some_iff.mp hc).1
        rw [List.length_append, List.length_singleton] at this
        omega
      subst hlast
      rw [List.getElem?_concat_length] at hc
      cases hc
      rw [OrdMap.get?_insert, if_pos rfl]

end PipeNode

/-! ## What reaches a channel -/

/-- What a step brings for the pipe on a tag. -/
def arrival (tag : RouteTag) : PipeOp Policy → List PipeIncoming
  | .route round bytes =>
      match routed round bytes with
      | none => []
      | some (dst, msg) => if dst = tag then [msg] else []
  | _ => []

/-- What the frames of a run bring for the pipe on a tag. -/
def arrivals (tag : RouteTag) (ops : List (PipeOp Policy)) : List PipeIncoming :=
  ops.flatMap (arrival tag)

/-- A channel that was sent `arr`: its receiver got the front of it, and the rest waits for a
receiver that was not dropped. -/
structure Tracks (c : Channel) (arr : List PipeIncoming) : Prop where
  front : c.received <+: arr
  whole : c.receiver = true → c.received ++ c.inbox = arr
  closed : c.receiver = false → c.inbox = []

namespace Tracks
variable {c : Channel} {arr : List PipeIncoming}

theorem pop (h : Tracks c arr) : Tracks c.pop arr := by
  unfold Channel.pop
  cases hinbox : c.inbox with
  | nil => exact h
  | cons msg inbox =>
    have hopen : c.receiver = true := by
      by_contra hnot
      rw [h.closed (by simpa using hnot)] at hinbox
      cases hinbox
    have hwhole := h.whole hopen
    rw [hinbox] at hwhole
    refine ⟨⟨inbox, by simpa using hwhole⟩, fun _ => by simpa using hwhole, fun hnot => ?_⟩
    rw [hopen] at hnot
    cases hnot

theorem push (h : Tracks c arr) (msg : PipeIncoming) : Tracks (c.push msg) (arr ++ [msg]) := by
  unfold Channel.push
  cases hopen : c.receiver with
  | true =>
    refine ⟨h.front.trans (List.prefix_append _ _), fun _ => ?_, fun hnot => ?_⟩
    · show c.received ++ (c.inbox ++ [msg]) = _
      rw [← List.append_assoc, h.whole hopen]
    · cases hnot
  | false =>
    refine ⟨h.front.trans (List.prefix_append _ _), fun hnot => ?_, fun _ => h.closed hopen⟩
    rw [if_neg (by decide), hopen] at hnot
    cases hnot

theorem drop (h : Tracks c arr) : Tracks { c with receiver := false, inbox := [] } arr :=
  ⟨h.front, nofun, fun _ => rfl⟩

/-- What is sent to nobody changes nothing. -/
theorem missed (h : Tracks c arr) (hclosed : c.receiver = false) (more : List PipeIncoming) :
    Tracks c (arr ++ more) :=
  ⟨h.front.trans (List.prefix_append _ _),
    fun hopen => absurd (hclosed.symm.trans hopen) (by decide), h.closed⟩

end Tracks

namespace PipeNode
variable {n n' : PipeNode Policy}

/-- Every channel of `n` is carried over with what `a` brings for its tag. -/
def Carries (n n' : PipeNode Policy) (a : RouteTag → List PipeIncoming) : Prop :=
  ∀ (i : Nat) (c : Channel) (arr : List PipeIncoming), n.channels[i]? = some c → Tracks c arr →
    ∃ c', n'.channels[i]? = some c' ∧ c'.tag = c.tag ∧ Tracks c' (arr ++ a c.tag)

theorem carries_of_channels (h : n'.channels = n.channels) : Carries n n' (fun _ => []) := by
  intro i c arr hc ht
  exact ⟨c, by rw [h, hc], rfl, by rwa [List.append_nil]⟩

theorem carries_onChannel (i : Nat) {f : Channel → Channel} (htag : ∀ c, (f c).tag = c.tag)
    (hf : ∀ c arr, Tracks c arr → Tracks (f c) arr) :
    Carries n (n.onChannel i f) (fun _ => []) := by
  intro j c arr hc ht
  refine ⟨_, by rw [getElem?_onChannel, hc]; rfl, ?_⟩
  rw [List.append_nil]
  split_ifs
  · exact ⟨htag c, hf c arr ht⟩
  · exact ⟨rfl, ht⟩

theorem channels_release (i : Nat) (c : Channel) : (n.release i c).channels = n.channels := by
  unfold release
  split
  · rfl
  · rfl

/-- What a frame brings reaches the pipe of its tag, and no other. -/
theorem carries_route (h : n.Wired) (round : Round) (bytes : Bytes) :
    Carries n (n.routeToPipe round bytes)
      (fun tag => arrival tag (.route round bytes : PipeOp Policy)) := by
  intro j c arr hc ht
  unfold routeToPipe
  dsimp only [arrival]
  cases hrouted : routed round bytes with
  | none => exact ⟨c, hc, rfl, by rwa [List.append_nil]⟩
  | some p =>
    obtain ⟨dst, msg⟩ := p
    dsimp only
    by_cases hdst : dst = c.tag
    · rw [if_pos hdst]
      cases hmap : n.pipes.get? dst with
      | none =>
        -- nobody listens on the tag
        have hclosed : c.receiver = false := by
          by_contra hnot
          have := h.listening j c hc (by simpa using hnot)
          rw [← hdst, hmap] at this
          cases this
        exact ⟨c, hc, rfl, ht.missed hclosed _⟩
      | some i =>
        refine ⟨_, by rw [getElem?_onChannel, hc]; rfl, ?_⟩
        dsimp only
        by_cases hji : j = i
        · rw [if_pos hji]
          refine ⟨?_, ht.push msg⟩
          unfold Channel.push
          split <;> rfl
        · rw [if_neg hji]
          have hclosed : c.receiver = false := by
            by_contra hnot
            have := h.listening j c hc (by simpa using hnot)
            rw [← hdst, hmap] at this
            exact hji (Option.some.inj this).symm
          exact ⟨rfl, ht.missed hclosed _⟩
    · rw [if_neg hdst, List.append_nil]
      cases hmap : n.pipes.get? dst with
      | none => exact ⟨c, hc, rfl, ht⟩
      | some i =>
        have hji : j ≠ i := by
          rintro rfl
          obtain ⟨c', hc', hct⟩ := h.mapped dst j hmap
          rw [hc] at hc'
          cases hc'
          exact hdst hct.symm
        exact ⟨c, by rw [getElem?_onChannel, hc]; simp [hji], rfl, ht⟩

/-! ## One step -/

theorem Carries.trans {n'' : PipeNode Policy} (h : Carries n n' (fun _ => []))
    (h' : n''.channels = n'.channels) : Carries n n'' (fun _ => []) := by
  intro i c arr hc ht
  rw [h']
  exact h i c arr hc ht

theorem length_onChannel (i : Nat) (f : Channel → Channel) :
    (n.onChannel i f).channels.length = n.channels.length := List.length_modify ..

/-- What a step that opens nothing does to the channels. -/
structure Keeps (n n' : PipeNode Policy) (a : RouteTag → List PipeIncoming) : Prop where
  wired : n'.Wired
  length : n'.channels.length = n.channels.length
  carries : Carries n n' a

theorem Wired.keeps (h : n.Wired) (hp : n'.pipes = n.pipes) (hc : n'.channels = n.channels) :
    Keeps n n' (fun _ => []) where
  wired := ⟨by rw [hp, hc]; exact h.mapped, by rw [hp, hc]; exact h.listening⟩
  length := by rw [hc]
  carries := carries_of_channels hc

theorem Wired.keeps_onChannel (h : n.Wired) (i : Nat) {f : Channel → Channel}
    (htag : ∀ c, (f c).tag = c.tag) (hrecv : ∀ c, (f c).receiver = true → c.receiver = true)
    (hf : ∀ c arr, Tracks c arr → Tracks (f c) arr) : Keeps n (n.onChannel i f) (fun _ => []) :=
  ⟨h.onChannel i htag hrecv, length_onChannel i f, carries_onChannel i htag hf⟩

theorem Keeps.release (h : Keeps n n' (fun _ => [])) {i : Nat} {c : Channel}
    (hclosed : ∀ c', n'.channels[i]? = some c' → c'.receiver = false) :
    Keeps n (n'.release i c) (fun _ => []) where
  wired := h.wired.release hclosed
  length := by rw [channels_release]; exact h.length
  carries := h.carries.trans (channels_release i c)

/-- A message that is accepted is framed and queued. -/
theorem sendInner_ok {dst returnTag : RouteTag} {payload : Bytes}
    (h : n.sendInner dst returnTag payload = .ok n') :
    n.checkSize payload.length = .ok () ∧
      n' = { n with outbox := n.outbox ++ [framed dst ⟨returnTag, payload⟩] } := by
  unfold sendInner at h
  cases hsize : n.checkSize payload.length with
  | error e =>
    rw [hsize] at h
    cases h
  | ok u =>
    rw [hsize] at h
    cases h
    exact ⟨rfl, rfl⟩

/-- What a call on a sender changes is the outbox. -/
theorem exists_onSender (i : Nat) {call : Channel → Except SendError (PipeNode Policy)}
    (hcall : ∀ c n', call c = .ok n' → ∃ outbox, n' = { n with outbox := outbox }) :
    ∃ outbox, n.onSender i call = { n with outbox := outbox } := by
  unfold onSender
  cases n.channels[i]? with
  | none => exact ⟨n.outbox, rfl⟩
  | some c =>
    dsimp only
    split
    · exact ⟨n.outbox, rfl⟩
    · unfold orKeep
      cases hres : call c with
      | ok n' => exact hcall c n' hres
      | error e => exact ⟨n.outbox, rfl⟩

theorem sendTo_ok {c : Channel} {dst : RouteTag} {payload : Bytes}
    (h : n.sendTo c dst payload = .ok n') : ∃ outbox, n' = { n with outbox := outbox } :=
  ⟨_, (sendInner_ok h).2⟩

theorem send_ok {c : Channel} {payload : Bytes} (h : n.send c payload = .ok n') :
    ∃ outbox, n' = { n with outbox := outbox } := by
  unfold send at h
  split at h
  · cases h
  · exact sendTo_ok h

theorem sendUnlinkable_ok {c : Channel} {oneOff : RouteTag} {payload : Bytes}
    (h : n.sendUnlinkable c oneOff payload = .ok n') :
    ∃ outbox, n' = { n with outbox := outbox } := by
  unfold sendUnlinkable at h
  split at h
  · cases h
  · exact ⟨_, (sendInner_ok h).2⟩

theorem Wired.keeps_onSender (h : n.Wired) (i : Nat)
    {call : Channel → Except SendError (PipeNode Policy)}
    (hcall : ∀ c n', call c = .ok n' → ∃ outbox, n' = { n with outbox := outbox }) :
    Keeps n (n.onSender i call) (fun _ => []) := by
  obtain ⟨outbox, hout⟩ := exists_onSender i hcall
  rw [hout]
  exact h.keeps rfl rfl

/-- What a step that opens a pipe does: a new channel on a tag, listening and sent nothing. -/
structure Opens (n n' : PipeNode Policy) : Prop where
  wired : n'.Wired
  channels : ∃ tag peer, n'.channels = n.channels ++ [⟨tag, peer, true, 1, [], []⟩]

theorem Wired.opens_registerPipe (h : n.Wired) {tag : RouteTag} {peer : Option ServiceTag}
    (hreg : n.registerPipe tag peer = .ok n') : Opens n n' := by
  refine ⟨h.registerPipe hreg, tag, peer, ?_⟩
  unfold PipeNode.registerPipe at hreg
  split_ifs at hreg
  cases hreg
  rfl

/-- A call that opens a pipe opens one or changes nothing. -/
theorem Wired.opens_orKeep (h : n.Wired) {call : Except OpenError (PipeNode Policy)}
    (hcall : ∀ n', call = .ok n' → Opens n n') :
    Opens n (n.orKeep call) ∨ Keeps n (n.orKeep call) (fun _ => []) := by
  unfold orKeep
  cases call with
  | ok n' => exact Or.inl (hcall n' rfl)
  | error e => exact Or.inr (h.keeps rfl rfl)

/-- What is registered to join is a pipe of its own. -/
theorem registerJoining_ok {tag : RouteTag} {service : ServiceTag}
    (hreg : n.registerJoining tag service = .ok n') :
    ∃ m, n.registerPipe tag (some service) = .ok m ∧
      n' = { m with joining := m.joining ++ [n.channels.length] } := by
  unfold PipeNode.registerJoining at hreg
  cases hinner : n.registerPipe tag (some service) with
  | error e =>
    rw [hinner] at hreg
    cases hreg
  | ok m =>
    rw [hinner] at hreg
    cases hreg
    exact ⟨m, rfl, rfl⟩

theorem Wired.opens_registerJoining (h : n.Wired) {tag : RouteTag} {service : ServiceTag}
    (hreg : n.registerJoining tag service = .ok n') : Opens n n' := by
  obtain ⟨m, hinner, rfl⟩ := registerJoining_ok hreg
  obtain ⟨hwired, hchannels⟩ := h.opens_registerPipe hinner
  exact ⟨⟨hwired.mapped, hwired.listening⟩, hchannels⟩

theorem openPipe_ok {tag : ServiceTag} {returnTag : RouteTag}
    (h : n.openPipe tag returnTag = .ok n') : n.registerJoining returnTag tag = .ok n' := by
  unfold PipeNode.openPipe at h
  split_ifs at h
  exact h

theorem bind_ok {tag : ServiceTag} (h : n.bind tag = .ok n') : n.registerPipe tag none = .ok n' := by
  unfold PipeNode.bind at h
  split at h
  · cases h
  · split_ifs at h
    exact h

theorem subscribe_ok {tag : ServiceTag} (h : n.subscribe tag = .ok n') :
    n.registerJoining tag tag = .ok n' := by
  unfold PipeNode.subscribe at h
  split_ifs at h
  exact h

theorem listen_ok {tag : ServiceTag} (h : n.listen tag = .ok n') :
    n.registerPipe tag none = .ok n' := by
  unfold PipeNode.listen at h
  split_ifs at h
  exact h

/-- A join and a leaving touch no pipe. -/
theorem Wired.keeps_join (h : n.Wired) (i : Nat) : Keeps n (n.join i) (fun _ => []) := by
  unfold PipeNode.join
  split
  · split
    · exact h.keeps rfl rfl
    · exact h.keeps rfl rfl
  · exact h.keeps rfl rfl

theorem Wired.keeps_leave (h : n.Wired) (i : Nat) : Keeps n (n.leave i) (fun _ => []) := by
  unfold PipeNode.leave
  split
  · exact h.keeps rfl rfl
  · split
    · exact h.keeps rfl rfl
    · exact h.keeps rfl rfl

/-- A half that was not handed out yet is not called. -/
theorem Wired.keeps_onHalf (h : n.Wired) (i : Nat) {call : PipeNode Policy → PipeNode Policy}
    (hcall : Keeps n (call n) (fun _ => [])) : Keeps n (n.onHalf i call) (fun _ => []) := by
  unfold PipeNode.onHalf
  split
  · exact h.keeps rfl rfl
  · exact hcall

/-- A channel that lost a sender is forgotten if no half of it is left. -/
theorem Wired.keeps_dropSender (h : n.Wired) (i : Nat) :
    Keeps n (n.dropSender i) (fun _ => []) := by
  unfold PipeNode.dropSender
  cases hc : n.channels[i]? with
  | none => exact h.keeps rfl rfl
  | some c =>
    have hfewer : Keeps n (n.onChannel i (fun c => { c with senders := c.senders - 1 }))
        (fun _ => []) :=
      h.keeps_onChannel i (fun _ => rfl) (fun _ hc => hc) (fun _ _ ht => ⟨ht.1, ht.2, ht.3⟩)
    dsimp only
    split
    next hlast =>
      refine hfewer.release (fun c' hc' => ?_)
      rw [getElem?_onChannel, hc] at hc'
      cases hc'
      simpa using hlast.2
    next => exact hfewer

theorem Wired.keeps_dropReceiver (h : n.Wired) (i : Nat) :
    Keeps n (n.dropReceiver i) (fun _ => []) := by
  unfold PipeNode.dropReceiver
  cases hc : n.channels[i]? with
  | none => exact h.keeps rfl rfl
  | some c =>
    have hclosed : Keeps n (n.onChannel i (fun c => { c with receiver := false, inbox := [] }))
        (fun _ => []) :=
      h.keeps_onChannel i (fun _ => rfl) (fun _ hc => by cases hc) (fun _ _ ht => ht.drop)
    dsimp only
    split
    next =>
      refine hclosed.release (fun c' hc' => ?_)
      rw [getElem?_onChannel, hc] at hc'
      cases hc'
      simp
    next => exact hclosed

theorem fields_pop (c : Channel) :
    c.pop.tag = c.tag ∧ c.pop.peer = c.peer ∧ c.pop.receiver = c.receiver := by
  unfold Channel.pop
  split <;> exact ⟨rfl, rfl, rfl⟩

theorem fields_push (msg : PipeIncoming) (c : Channel) : (c.push msg).tag = c.tag ∧
    (c.push msg).peer = c.peer ∧ (c.push msg).receiver = c.receiver := by
  unfold Channel.push
  split <;> exact ⟨rfl, rfl, rfl⟩

theorem Wired.keeps_recv (h : n.Wired) (i : Nat) : Keeps n (n.recv i) (fun _ => []) :=
  h.keeps_onChannel i (fun c => (fields_pop c).1)
    (fun c hopen => (fields_pop c).2.2.symm.trans hopen) (fun _ _ ht => ht.pop)

theorem Wired.keeps_route (h : n.Wired) (round : Round) (bytes : Bytes) :
    Keeps n (n.routeToPipe round bytes)
      (fun tag => arrival tag (.route round bytes : PipeOp Policy)) := by
  refine ⟨?_, ?_, carries_route h round bytes⟩
  · unfold routeToPipe
    split
    next => exact h
    next dst msg _ =>
      split
      next => exact h
      next i _ =>
        exact h.onChannel i (fun c => (fields_push msg c).1)
          (fun c hopen => (fields_push msg c).2.2.symm.trans hopen)
  · unfold routeToPipe
    split
    next => rfl
    next =>
      split
      next => rfl
      next => exact length_onChannel _ _

/-- **One step of a node**: it opens a channel and brings nothing, or it keeps the channels and
brings each what is routed to its tag. -/
theorem Wired.step (h : n.Wired) (op : PipeOp Policy) :
    (Opens n (n.step op) ∧ ∀ tag, arrival tag op = []) ∨
      Keeps n (n.step op) (fun tag => arrival tag op) := by
  -- The calls that register a pipe, which has received nothing yet.
  have opens : ∀ {call : Except OpenError (PipeNode Policy)},
      (∀ n', call = .ok n' → Opens n n') → (∀ tag, arrival tag op = []) →
      n.step op = n.orKeep call →
      (Opens n (n.step op) ∧ ∀ tag, arrival tag op = []) ∨
        Keeps n (n.step op) (fun tag => arrival tag op) := by
    intro call hcall hnone hstep
    rw [hstep, funext hnone]
    exact (h.opens_orKeep hcall).imp_left (fun hopen => ⟨hopen, hnone⟩)
  -- The calls on one half of a pipe, which bring no frame.
  have half : ∀ (i : Nat) (call : PipeNode Policy → PipeNode Policy),
      n.step op = n.onHalf i call → (∀ tag, arrival tag op = []) →
      Keeps n (call n) (fun _ => []) →
      (Opens n (n.step op) ∧ ∀ tag, arrival tag op = []) ∨
        Keeps n (n.step op) (fun tag => arrival tag op) := by
    intro i call hstep hnone hcall
    rw [hstep, funext hnone]
    exact Or.inr (h.keeps_onHalf i hcall)
  cases op with
  | adopt config => exact Or.inr (h.keeps rfl rfl)
  | openPipe tag returnTag =>
    exact opens (fun n' hn' => h.opens_registerJoining (openPipe_ok hn')) (fun _ => rfl) rfl
  | bind tag => exact opens (fun n' hn' => h.opens_registerPipe (bind_ok hn')) (fun _ => rfl) rfl
  | subscribe tag =>
    exact opens (fun n' hn' => h.opens_registerJoining (subscribe_ok hn')) (fun _ => rfl) rfl
  | listen tag => exact opens (fun n' hn' => h.opens_registerPipe (listen_ok hn')) (fun _ => rfl) rfl
  | join i => exact Or.inr (h.keeps_join i)
  | leave i => exact Or.inr (h.keeps_leave i)
  | cloneSender i =>
    refine half i (fun n => n.cloneSender i) rfl (fun _ => rfl) ?_
    exact h.keeps_onChannel i (fun _ => rfl) (fun _ hc => hc) (fun _ _ ht => ⟨ht.1, ht.2, ht.3⟩)
  | dropSender i => exact half i (fun n => n.dropSender i) rfl (fun _ => rfl) (h.keeps_dropSender i)
  | dropReceiver i =>
    exact half i (fun n => n.dropReceiver i) rfl (fun _ => rfl) (h.keeps_dropReceiver i)
  | recv i => exact half i (fun n => n.recv i) rfl (fun _ => rfl) (h.keeps_recv i)
  | route round bytes => exact Or.inr (h.keeps_route round bytes)
  | sendTo i dst payload =>
    exact half i (fun n => n.onSender i (fun c => n.sendTo c dst payload)) rfl (fun _ => rfl)
      (h.keeps_onSender i (fun _ _ => sendTo_ok))
  | send i payload =>
    exact half i (fun n => n.onSender i (fun c => n.send c payload)) rfl (fun _ => rfl)
      (h.keeps_onSender i (fun _ _ => send_ok))
  | sendUnlinkable i oneOff payload =>
    exact half i (fun n => n.onSender i (fun c => n.sendUnlinkable c oneOff payload)) rfl
      (fun _ => rfl) (h.keeps_onSender i (fun _ _ => sendUnlinkable_ok))
  | stage outbox => exact Or.inr (h.keeps rfl rfl)

/-! ## Whole runs -/

variable (ourPk : Pubkey) (config : AnymoneRoundConfiguration Policy)

theorem after_concat (ops : List (PipeOp Policy)) (op : PipeOp Policy) :
    after ourPk config (ops ++ [op]) = (after ourPk config ops).step op :=
  Trace.run_concat _ _ ops op

theorem wired_after (ops : List (PipeOp Policy)) : (after ourPk config ops).Wired := by
  induction ops using List.reverseRecOn with
  | nil => exact ⟨nofun, nofun⟩
  | append_singleton l op ih =>
    rw [after_concat]
    exact (ih.step op).elim (fun hopen => hopen.1.wired) Keeps.wired

/-- The moment a channel was made, and what it was sent since. -/
def Since (ops : List (PipeOp Policy)) (i : Nat) (c : Channel) : Prop :=
  ∃ pre op post, ops = pre ++ op :: post ∧ (after ourPk config pre).channels.length = i ∧
    (after ourPk config (pre ++ [op])).channels.length = i + 1 ∧ Tracks c (arrivals c.tag post)

theorem since_after (ops : List (PipeOp Policy)) :
    ∀ (i : Nat) (c : Channel), (after ourPk config ops).channels[i]? = some c →
      Since ourPk config ops i c := by
  induction ops using List.reverseRecOn with
  | nil => exact nofun
  | append_singleton l op ih =>
    intro i c hc
    have hstep := (wired_after ourPk config l).step op
    rw [after_concat] at hc
    have later : ∀ {c₀ : Channel}, Since ourPk config l i c₀ → c.tag = c₀.tag →
        (∀ arr, Tracks c₀ arr → Tracks c (arr ++ arrival c₀.tag op)) →
        Since ourPk config (l ++ [op]) i c := by
      rintro c₀ ⟨pre, first, post, rfl, hlen, hlen', ht⟩ htag hcarry
      refine ⟨pre, first, post ++ [op], by simp, hlen, hlen', ?_⟩
      have hmore := hcarry _ ht
      rw [htag]
      unfold arrivals at hmore ⊢
      rw [List.flatMap_append]
      simpa using hmore
    rcases hstep with ⟨⟨-, tag, peer, hnew⟩, hnone⟩ | ⟨-, hlen, hcarries⟩
    · rw [hnew] at hc
      by_cases hi : i < (after ourPk config l).channels.length
      · rw [List.getElem?_append_left hi] at hc
        refine later (ih i c hc) rfl (fun arr ht => ?_)
        rw [hnone, List.append_nil]
        exact ht
      -- the new channel is the last, and nothing has arrived for it
      · have hlast : i = (after ourPk config l).channels.length := by
          have := (List.getElem?_eq_some_iff.mp hc).1
          rw [List.length_append, List.length_singleton] at this
          omega
        subst hlast
        rw [List.getElem?_concat_length] at hc
        cases hc
        refine ⟨l, op, [], rfl, rfl, ?_, List.prefix_rfl, fun _ => rfl, nofun⟩
        rw [after_concat, hnew, List.length_append, List.length_singleton]
    · have hi : i < (after ourPk config l).channels.length :=
        hlen ▸ (List.getElem?_eq_some_iff.mp hc).1
      obtain ⟨c₀, hc₀⟩ : ∃ c₀, (after ourPk config l).channels[i]? = some c₀ :=
        ⟨_, List.getElem?_eq_getElem hi⟩
      -- an old channel takes what the step brings for its tag
      have hcarry : ∀ arr, Tracks c₀ arr → c.tag = c₀.tag ∧ Tracks c (arr ++ arrival c₀.tag op) := by
        intro arr ht
        obtain ⟨c', hc', htag, ht'⟩ := hcarries i c₀ arr hc₀ ht
        rw [hc] at hc'
        cases hc'
        exact ⟨htag, ht'⟩
      obtain ⟨pre, first, post, rfl, hlen₀, hlen', ht⟩ := ih i c₀ hc₀
      exact later ⟨pre, first, post, rfl, hlen₀, hlen', ht⟩ (hcarry _ ht).1
        (fun arr harr => (hcarry arr harr).2)

/-- **A pipe receives exactly what is addressed to it.**  In every run, a channel was made by one
step of it, and while its receiver is not dropped, what it handed out and what still waits are the
messages of the frames routed to its tag since then, in order: nothing is lost, repeated, reordered
or delivered to another pipe.  What a receiver got before it was dropped is the front of that. -/
theorem pipe_receives_exactly (ops : List (PipeOp Policy)) (i : Nat) (c : Channel)
    (hc : (after ourPk config ops).channels[i]? = some c) :
    ∃ pre op post, ops = pre ++ op :: post ∧ (after ourPk config pre).channels.length = i ∧
      (after ourPk config (pre ++ [op])).channels.length = i + 1 ∧
      c.received <+: arrivals c.tag post ∧
      (c.receiver = true → c.received ++ c.inbox = arrivals c.tag post ∧
        (after ourPk config ops).pipes.get? c.tag = some i) := by
  obtain ⟨pre, op, post, hops, hlen, hlen', ht⟩ := since_after ourPk config ops i c hc
  exact ⟨pre, op, post, hops, hlen, hlen', ht.front, fun hopen =>
    ⟨ht.whole hopen, (wired_after ourPk config ops).listening i c hc hopen⟩⟩

/-! ## From pipe to pipe -/

theorem checkSize_ok {m : Nat} (h : n.checkSize m = .ok ()) :
    (∃ s ∈ n.config.body.subnets, subnetRunnable s = true) ∧
      ∀ s ∈ n.config.body.subnets, subnetRunnable s = true →
        framingOverhead + m ≤ s.protocol.messageSize.val := by
  unfold checkSize at h
  cases hmin : n.messageSizes.min? with
  | none =>
    rw [hmin] at h
    cases h
  | some least =>
    rw [hmin] at h
    dsimp only at h
    split_ifs at h with hfit
    obtain ⟨hmem, hle⟩ := List.min?_eq_some_iff.mp hmin
    unfold messageSizes at hmem hle
    obtain ⟨s, hs, -⟩ := List.mem_map.mp hmem
    refine ⟨⟨s, List.mem_filter.mp hs⟩, fun s hs hrun => ?_⟩
    have := hle _ (List.mem_map_of_mem (List.mem_filter.mpr ⟨hs, hrun⟩))
    omega

/-- **What a pipe sends arrives at the pipe it is addressed to.**  A message that a node accepts is
queued as one frame, which fits every subnet the round's draw may give it to.  Whatever a carrier
pads the frame with, a node in any state a run reaches hands the message, under the return tag it
was sent with, to the pipe that listens on the destination and changes nothing else; a node without
such a pipe changes nothing at all. -/
theorem sent_frame_delivered {dst returnTag : RouteTag} {payload : Bytes}
    (hsend : n.sendInner dst returnTag payload = .ok n') (ops : List (PipeOp Policy))
    (round : Round) (padding : Bytes) :
    let m := after ourPk config ops
    ∃ frame, n'.outbox = n.outbox ++ [frame] ∧
      (∀ s ∈ n.config.body.subnets, subnetRunnable s = true →
        frame.length ≤ s.protocol.messageSize.val) ∧
      (∀ (i : Nat) (c : Channel), m.channels[i]? = some c → c.tag = dst → c.receiver = true →
        m.routeToPipe round (frame ++ padding) =
          { m with channels := m.channels.modify i (fun c =>
            { c with inbox := c.inbox ++ [⟨returnTag, payload, round⟩] }) }) ∧
      ((∀ (i : Nat) (c : Channel), m.channels[i]? = some c → c.tag = dst → c.receiver = false) →
        m.routeToPipe round (frame ++ padding) = m) := by
  intro m
  have hwired : m.Wired := wired_after ourPk config ops
  obtain ⟨hsize, rfl⟩ := sendInner_ok hsend
  obtain ⟨⟨s, hs, hrun⟩, hfit⟩ := checkSize_ok hsize
  have hlen : payload.length < 18446744073709551616 := by
    have h1 := hfit s hs hrun
    have h2 := s.protocol.messageSize.isLt
    omega
  have hrouted := routed_framed round dst ⟨returnTag, payload⟩ padding hlen
  refine ⟨framed dst ⟨returnTag, payload⟩, rfl, fun s hs hrun => ?_, fun i c hc htag hopen => ?_,
    fun hnobody => ?_⟩
  · rw [length_framed]
    exact hfit s hs hrun
  -- a listening pipe on the tag is the one the tag leads to
  · have hmap := hwired.listening i c hc hopen
    rw [htag] at hmap
    unfold routeToPipe
    rw [hrouted]
    dsimp only
    rw [hmap]
    dsimp only
    unfold onChannel
    congr 1
    refine List.ext_getElem? (fun j => ?_)
    rw [List.getElem?_modify, List.getElem?_modify]
    by_cases hij : i = j
    · subst hij
      simp [hc, Channel.push, hopen]
    · simp [hij]
  · unfold routeToPipe
    rw [hrouted]
    dsimp only
    cases hmap : m.pipes.get? dst with
    | none => rfl
    | some i =>
      dsimp only
      obtain ⟨c, hc, htag⟩ := hwired.mapped dst i hmap
      have hclosed := hnobody i c hc htag
      unfold onChannel
      -- whoever the tag leads to has dropped its receiver
      have hsame : m.channels.modify i (Channel.push ⟨returnTag, payload, round⟩) = m.channels := by
        refine List.ext_getElem? (fun j => ?_)
        rw [List.getElem?_modify]
        by_cases hij : i = j
        · subst hij
          simp [hc, Channel.push, hclosed]
        · simp [hij]
      rw [hsame]

end PipeNode

/-! ## A room with one frame -/

namespace PipeToy
open PipeNode

def room : ServiceTag := .filled 20 1

def me : Pubkey := .filled 32 7

/-- One subnet that carries 64 bytes, and one service. -/
def adopted : AnymoneRoundConfiguration Unit :=
  ⟨⟨0, ⟨[], []⟩, 0, [(room, me)], [], [⟨0, [.filled 32 9], .noop ⟨1000, 64, 0, 8⟩, 0, false⟩], [], [],
    ()⟩, []⟩

/-- A frame that comes too early, a subscription, and two frames of which one is received. -/
def ops : List (PipeOp Unit) :=
  [.route 1 (framed room ⟨room, [1]⟩), .subscribe room, .route 2 (framed room ⟨room, [2]⟩),
    .join 0, .recv 0, .route 3 (framed room ⟨.filled 20 5, [3, 4]⟩)]

/-- The pipe at the end. -/
def pipe : Channel :=
  ⟨room, some room, true, 1, [⟨.filled 20 5, [3, 4], 3⟩], [⟨room, [2], 2⟩]⟩

/-- The node after it has queued a message. -/
def sent : PipeNode Unit :=
  { start me adopted with outbox := [framed room ⟨.filled 20 6, [9]⟩] }

end PipeToy

namespace PipeNode
open PipeToy

theorem pipe_receives_exactly_toy :
    ∃ pre op post, ops = pre ++ op :: post ∧ (after me adopted pre).channels.length = 0 ∧
      (after me adopted (pre ++ [op])).channels.length = 0 + 1 ∧
      pipe.received <+: arrivals pipe.tag post ∧
      (pipe.receiver = true → pipe.received ++ pipe.inbox = arrivals pipe.tag post ∧
        (after me adopted ops).pipes.get? pipe.tag = some 0) :=
  pipe_receives_exactly me adopted ops 0 pipe (by decide +kernel)

theorem sent_frame_delivered_toy :
    let m := after me adopted ops
    ∃ frame, sent.outbox = (start me adopted).outbox ++ [frame] ∧
      (∀ s ∈ (start me adopted).config.body.subnets, subnetRunnable s = true →
        frame.length ≤ s.protocol.messageSize.val) ∧
      (∀ (i : Nat) (c : Channel), m.channels[i]? = some c → c.tag = room → c.receiver = true →
        m.routeToPipe 4 (frame ++ [0, 0]) =
          { m with channels := m.channels.modify i (fun c =>
            { c with inbox := c.inbox ++ [⟨.filled 20 6, [9], 4⟩] }) }) ∧
      ((∀ (i : Nat) (c : Channel), m.channels[i]? = some c → c.tag = room → c.receiver = false) →
        m.routeToPipe 4 (frame ++ [0, 0]) = m) :=
  @sent_frame_delivered _ (start me adopted) sent me adopted _ _ _ rfl ops 4 [0, 0]

end PipeNode
end Anymone.Pipes
