import Anymone.Backbone
import Anymone.SchedulerToy

/-! # Whose frames a relay accepts

A roster names the relays that may speak on a topic, but a node also puts on the wire,
under its own key, what its clients submit on a topic that is open to it.  Which topics
are open is judged by the view of that node, and admission by the view of the receiver.

In a run where no client finds a topic open at a node that another node has bound to a
roster with that node in it, and where no node binds a topic while such a frame is still on
its way to it, every frame accepted on a bound topic is one its sender published
(`relays_speak_for_themselves`).  Any step that breaks this leads to a forged delivery
(`unsettled_forges`).
-/

namespace Anymone
variable {C : SchedulerCrate}

/-! ## The view -/

/-- No subnet binds the registration topic. -/
theorem bindSubnet_registration (senders : Topic → Option (List Pubkey)) (subnet : Subnet) :
    bindSubnet senders subnet .registration = senders .registration := by
  obtain ⟨id, relays, protocol, cover, attested⟩ := subnet
  cases protocol <;> simp [bindSubnet]

theorem netView_registration (body : C.Body) (committee : List Pubkey) :
    (netView body committee).senders .registration = none := by
  have hfold : ∀ (subnets : List Subnet) (senders : Topic → Option (List Pubkey)),
      senders .registration = none → subnets.foldl bindSubnet senders .registration = none := by
    intro subnets
    induction subnets with
    | nil => exact fun _ h => h
    | cons subnet subnets ih =>
      intro senders h
      exact ih _ ((bindSubnet_registration senders subnet).trans h)
  have hconfig : Topic.registration ≠ .config := nofun
  have hfaults : Topic.registration ≠ .faults := nofun
  simp only [netView]
  rw [Function.update_of_ne hconfig, Function.update_of_ne hfaults]
  exact hfold _ _ rfl

/-! ## What a node does -/

namespace Node
variable {cfg : BackboneConfig} {node : Node} {me : Pubkey}

/-- A packet of `transmit` goes from this node to another one. -/
theorem mem_transmit {peers : List Pubkey} {frame : NetFrame} {dest : Option Pubkey}
    {origin : Origin} {p : Packet} (h : p ∈ node.transmit me peers frame dest origin) :
    p.sender = me ∧ p.dest ≠ me ∧ p.frame = frame ∧ p.origin = origin := by
  obtain ⟨q, hq, rfl⟩ := List.mem_map.mp h
  exact ⟨rfl, of_decide_eq_true (Bool.and_eq_true_iff.mp (List.mem_filter.mp hq).2).2, rfl, rfl⟩

/-- A message of a client: what it leaves of the node, and what it adds to the queue of
frames to republish. -/
theorem session_cases (cfg : BackboneConfig) (node : Node) (status : Nat → FeedStatus)
    (client : Pubkey) (conn : Nat) (msg : StreamMsg) :
    (node.session cfg C status client conn msg).1.shared = node.shared ∧
    (node.session cfg C status client conn msg).1.cmds = node.cmds ∧
    ((node.session cfg C status client conn msg).1.forwards = node.forwards ∨
      (∃ bytes, (node.session cfg C status client conn msg).1.forwards =
        node.forwards ++ [(.registration, bytes)]) ∨
      ∃ subnet payload, msg = .submit (.broadcast subnet) payload ∧
        node.shared.topicIsBound (.broadcast subnet) = false ∧
        (node.session cfg C status client conn msg).1.forwards =
          node.forwards ++ [(.broadcast subnet, payload)]) := by
  cases msg with
  | register bytes =>
    simp only [session]
    split
    · split
      · exact ⟨rfl, rfl, Or.inr (Or.inl ⟨bytes, rfl⟩)⟩
      · exact ⟨rfl, rfl, Or.inl rfl⟩
    · exact ⟨rfl, rfl, Or.inl rfl⟩
  | submit topic payload =>
    cases topic with
    | broadcast subnet =>
      simp only [session]
      split
      · exact ⟨rfl, rfl, Or.inl rfl⟩
      · rename_i hopen
        exact ⟨rfl, rfl, Or.inr (Or.inr ⟨subnet, payload, rfl, Bool.not_eq_true _ ▸ hopen, rfl⟩)⟩
    | _ => exact ⟨rfl, rfl, Or.inl rfl⟩
  | data subnet payload =>
    simp only [session]
    split <;> exact ⟨rfl, rfl, Or.inl rfl⟩
  | _ => exact ⟨rfl, rfl, Or.inl rfl⟩

/-- What a client's message hands on goes out on a topic that is open at the node. -/
theorem session_outputs {status : Nat → FeedStatus} {client : Pubkey} {conn : Nat}
    {msg : StreamMsg} (hreg : node.shared.senders .registration = none) {reader : Reader}
    {topic : Topic} {sender : Pubkey} {payload : Bytes} {origin : Origin}
    (h : .frame reader topic sender payload origin ∈
      (node.session cfg C status client conn msg).2) : node.shared.topicIsBound topic = false := by
  -- Only a topic that is delivered here reaches a reader of this node.
  have hlocal : ∀ {t : Topic} {pk : Pubkey} {bytes : Bytes},
      .frame reader topic sender payload origin ∈ node.shared.deliverLocal t pk bytes .spoken →
        topic = t := by
    intro t pk bytes hmem
    rw [Shared.deliverLocal] at hmem
    split at hmem
    · cases List.mem_singleton.mp hmem
      rfl
    · cases hmem
  cases msg with
  | register bytes =>
    simp only [session] at h
    split at h
    · split at h
      · rw [hlocal h, Shared.topicIsBound, hreg]
        rfl
      · cases h
    · cases h
  | submit t bytes =>
    cases t with
    | broadcast subnet =>
      simp only [session] at h
      split at h
      · cases h
      · rename_i hopen
        have ht : topic = .broadcast subnet := by
          rcases List.mem_append.mp h with hfan | hfan
          · obtain ⟨c, -, hc⟩ := List.mem_map.mp hfan
            cases hc
            rfl
          · exact hlocal hfan
        rw [ht]
        exact Bool.not_eq_true _ ▸ hopen
    | _ => cases h
  | data subnet bytes =>
    simp only [session, Shared.deliverInbox] at h
    split at h
    · cases h
    · split at h
      · cases List.mem_singleton.mp h
      · cases h
  | configReq => cases List.mem_singleton.mp h
  | _ => cases h

/-- What the demux hands on of a frame is that frame, admitted. -/
theorem receive_outputs {status : Nat → FeedStatus} {sender : Pubkey} {origin : Origin}
    {frame : NetFrame} {reader : Reader} {topic : Topic} {pk : Pubkey} {payload : Bytes}
    {o : Origin} (h : .frame reader topic pk payload o ∈
      (node.receive status sender origin frame).2) :
    frame = .topic topic payload ∧ pk = sender ∧ o = origin ∧
      node.shared.admits topic sender = true := by
  cases frame with
  | topic t bytes =>
    simp only [receive] at h
    split at h
    · cases h
    · rename_i hadmits
      have hadmits : node.shared.admits t sender = true := by simpa using hadmits
      rcases List.mem_append.mp h with hfan | hlocal
      · obtain ⟨c, -, hc⟩ := List.mem_map.mp hfan
        cases hc
        exact ⟨rfl, rfl, rfl, hadmits⟩
      · rw [Shared.deliverLocal] at hlocal
        split at hlocal
        · cases List.mem_singleton.mp hlocal
          exact ⟨rfl, rfl, rfl, hadmits⟩
        · cases hlocal
  | direct subnet bytes =>
    simp only [receive, Shared.deliverInbox] at h
    split at h
    · cases List.mem_singleton.mp h
    · cases h

theorem receive_keeps (node : Node) (status : Nat → FeedStatus) (sender : Pubkey)
    (origin : Origin) (frame : NetFrame) :
    (node.receive status sender origin frame).1.shared = node.shared ∧
      (node.receive status sender origin frame).1.cmds = node.cmds ∧
      (node.receive status sender origin frame).1.forwards = node.forwards := by
  cases frame with
  | topic t bytes =>
    simp only [receive]
    split <;> exact ⟨rfl, rfl, rfl⟩
  | direct subnet bytes => exact ⟨rfl, rfl, rfl⟩

/-- The next command, with the packets and frames of a publish. -/
theorem command_cases (node : Node) (me : Pubkey) (peers : List Pubkey)
    (status : Nat → FeedStatus) :
    (node.command me peers status).1.shared = node.shared ∧
    (node.command me peers status).1.forwards = node.forwards ∧
    (∀ cmd ∈ (node.command me peers status).1.cmds, cmd ∈ node.cmds) ∧
    (∀ p ∈ (node.command me peers status).2.1, p.sender = me ∧ p.dest ≠ me ∧
      p.origin = .published ∧
      ∀ topic payload, p.frame = .topic topic payload → .publish topic payload ∈ node.cmds) ∧
    ∀ reader topic pk payload o, .frame reader topic pk payload o ∈
        (node.command me peers status).2.2 →
      pk = me ∧ o = .published ∧ .publish topic payload ∈ node.cmds := by
  rw [command]
  cases h : node.cmds with
  | nil => exact ⟨rfl, rfl, fun cmd hcmd => (h ▸ hcmd : cmd ∈ []), nofun, nofun⟩
  | cons cmd cmds =>
    cases cmd with
    | publish topic bytes =>
      refine ⟨rfl, rfl, fun cmd hcmd => List.mem_cons_of_mem _ hcmd, fun p hp => ?_, ?_⟩
      · have hp : p ∈ ({ node with cmds := cmds } : Node).transmit me peers (.topic topic bytes)
            none .published := hp
        obtain ⟨hs, hd, hf, ho⟩ := mem_transmit hp
        refine ⟨hs, hd, ho, fun t payload hframe => ?_⟩
        rw [hf] at hframe
        cases hframe
        exact List.mem_cons_self
      · intro reader t pk payload o hout
        obtain ⟨c, -, hc⟩ := List.mem_map.mp hout
        cases hc
        exact ⟨rfl, rfl, List.mem_cons_self⟩
    | send dest subnet bytes =>
      refine ⟨rfl, rfl, fun cmd hcmd => List.mem_cons_of_mem _ hcmd, fun p hp => ?_, nofun⟩
      have hp : p ∈ ({ node with cmds := cmds } : Node).transmit me peers (.direct subnet bytes)
          (some dest) .published := hp
      obtain ⟨hs, hd, hf, ho⟩ := mem_transmit hp
      refine ⟨hs, hd, ho, fun t payload hframe => ?_⟩
      rw [hf] at hframe
      cases hframe
    | track index primary secondary =>
      exact ⟨rfl, rfl, fun cmd hcmd => List.mem_cons_of_mem _ hcmd, nofun, nofun⟩

theorem forward_cases (node : Node) (me : Pubkey) (peers : List Pubkey) :
    (node.forward me peers).1.shared = node.shared ∧
    (node.forward me peers).1.cmds = node.cmds ∧
    (∀ f ∈ (node.forward me peers).1.forwards, f ∈ node.forwards) ∧
    ∀ p ∈ (node.forward me peers).2, p.sender = me ∧ p.dest ≠ me ∧ p.origin = .forwarded ∧
      ∃ f ∈ node.forwards, p.frame = .topic f.1 f.2 := by
  rw [forward]
  cases h : node.forwards with
  | nil => exact ⟨rfl, rfl, fun f hf => (h ▸ hf : f ∈ []), nofun⟩
  | cons f forwards =>
    refine ⟨rfl, rfl, fun g hg => List.mem_cons_of_mem _ hg, fun p hp => ?_⟩
    have hp : p ∈ ({ node with forwards := forwards } : Node).transmit me peers
        (.topic f.1 f.2) none .forwarded := hp
    obtain ⟨hs, hd, hf, ho⟩ := mem_transmit hp
    exact ⟨hs, hd, ho, f, List.mem_cons_self, hf⟩

/-- A publish is queued, or refused. -/
theorem publish_cases (node : Node) (me : Pubkey) (topic : Topic) (bytes : Bytes) :
    node.publish me topic bytes = node ∨
      node.publish me topic bytes = { node with cmds := node.cmds ++ [.publish topic bytes] } := by
  rw [publish]
  split
  · exact Or.inl rfl
  · split
    · exact Or.inl rfl
    · exact Or.inr rfl

end Node

namespace Backbone
variable (cfg : BackboneConfig) (b : Backbone)

/-! ## Runs that keep clients and relays apart -/

/-- A frame that `a` republishes for a client on a topic waits at `a`, or is on its way to
`m`. -/
def Pending (a m : Pubkey) (topic : Topic) : Prop :=
  ∃ payload, (topic, payload) ∈ (b.node a).forwards ∨
    ⟨a, m, .topic topic payload, .forwarded⟩ ∈ b.wire

/-- What a run has to avoid: a client finds a topic open at a node that another one has in
the roster of that topic, or a node binds a topic to a roster while a frame that another
member of it republishes is pending. -/
def Settled : BackboneOp C → Prop
  | .client me client _ (.submit (.broadcast subnet) _) _ =>
      cfg.allows me client = true →
        (b.node me).shared.topicIsBound (.broadcast subnet) = false →
          ∀ m roster, (b.node m).shared.senders (.broadcast subnet) = some roster → me ∉ roster
  | .apply m config => governed cfg config = true →
      ∀ topic roster, (netView config.body cfg.committee).senders topic = some roster →
        ∀ a ∈ roster, a ≠ m → ¬ b.Pending a m topic
  | _ => True

/-- A frame handed on at `node` on a topic its view binds was published by its sender. -/
def Authentic (ops : List (BackboneOp C)) (node : Node) : Output → Prop
  | .frame _ topic sender payload origin => node.shared.topicIsBound topic = true →
      origin = .published ∧ .publish sender topic payload ∈ ops
  | _ => True

/-- No other node has `a` in a roster of the topic. -/
def Mute (a : Pubkey) (topic : Topic) : Prop :=
  ∀ m roster, (b.node m).shared.senders topic = some roster → a ∈ roster → m = a

/-- What holds after every step of a settled run. -/
structure Sound (ops : List (BackboneOp C)) : Prop where
  registration : ∀ m, (b.node m).shared.senders .registration = none
  forwards : ∀ a topic payload, (topic, payload) ∈ (b.node a).forwards → b.Mute a topic
  cmds : ∀ a topic payload, .publish topic payload ∈ (b.node a).cmds →
    .publish a topic payload ∈ ops
  apart : ∀ p ∈ b.wire, p.dest ≠ p.sender
  wire : ∀ p ∈ b.wire, ∀ topic payload, p.frame = .topic topic payload →
    (p.origin = .published ∧ .publish p.sender topic payload ∈ ops) ∨
    (p.origin = .forwarded ∧
      ∀ roster, (b.node p.dest).shared.senders topic = some roster → p.sender ∉ roster)

variable {cfg b} {ops : List (BackboneOp C)}

@[simp] theorem node_setNode_self (me : Pubkey) (node : Node) :
    (b.setNode me node).node me = node := Function.update_self ..

@[simp] theorem node_setNode_of_ne {a me : Pubkey} (h : a ≠ me) (node : Node) :
    (b.setNode me node).node a = b.node a := Function.update_of_ne h ..

theorem sound_init : (init cfg).Sound ([] : List (BackboneOp C)) :=
  ⟨fun _ => rfl, nofun, nofun, nofun, nofun⟩

/-- One more step does not unsay what was published. -/
theorem Sound.mono (h : b.Sound ops) (op : BackboneOp C) : b.Sound (ops ++ [op]) :=
  ⟨h.registration, h.forwards, fun a t p hp => List.mem_append_left _ (h.cmds a t p hp), h.apart,
    fun p hp t payload hf => (h.wire p hp t payload hf).imp_left
      (fun hpub => ⟨hpub.1, List.mem_append_left _ hpub.2⟩)⟩

/-- A node that keeps its view, queues no frame of a client that another node would take
for its own, and publishes what the run says. -/
theorem Sound.setNode (h : b.Sound ops) {me : Pubkey} {node : Node}
    (hview : node.shared.senders = (b.node me).shared.senders)
    (hforwards : ∀ t p, (t, p) ∈ node.forwards → (t, p) ∈ (b.node me).forwards ∨ b.Mute me t)
    (hcmds : ∀ t p, .publish t p ∈ node.cmds →
      .publish t p ∈ (b.node me).cmds ∨ .publish me t p ∈ ops) :
    (b.setNode me node).Sound ops := by
  have views : ∀ m, ((b.setNode me node).node m).shared.senders = (b.node m).shared.senders := by
    intro m
    by_cases hm : m = me
    · rw [hm, node_setNode_self, hview]
    · rw [node_setNode_of_ne hm]
  have mute : ∀ a t, b.Mute a t → (b.setNode me node).Mute a t :=
    fun a t hmute m roster hroster => hmute m roster (views m ▸ hroster)
  refine ⟨fun m => (congrFun (views m) _).trans (h.registration m), fun a t p hp => ?_,
    fun a t p hp => ?_, h.apart, fun p hp t payload hf => ?_⟩
  · by_cases ha : a = me
    · rw [ha, node_setNode_self] at hp
      rw [ha]
      exact mute _ _ ((hforwards t p hp).elim (h.forwards me t p) id)
    · rw [node_setNode_of_ne ha] at hp
      exact mute _ _ (h.forwards a t p hp)
  · by_cases ha : a = me
    · rw [ha, node_setNode_self] at hp
      rw [ha]
      exact (hcmds t p hp).elim (h.cmds me t p) id
    · rw [node_setNode_of_ne ha] at hp
      exact h.cmds a t p hp
  · refine (h.wire p hp t payload hf).imp_right (fun hfwd => ⟨hfwd.1, fun roster hroster => ?_⟩)
    exact hfwd.2 roster (views _ ▸ hroster)

/-- Frames that are not taken for those of a relay may be sent. -/
theorem Sound.send (h : b.Sound ops) {packets : List Packet}
    (hp : ∀ p ∈ packets, p.dest ≠ p.sender ∧
      ∀ topic payload, p.frame = .topic topic payload →
        (p.origin = .published ∧ .publish p.sender topic payload ∈ ops) ∨
        (p.origin = .forwarded ∧ b.Mute p.sender topic)) :
    ({ b with wire := b.wire ++ packets } : Backbone).Sound ops := by
  refine ⟨h.registration, h.forwards, h.cmds, fun p hmem => ?_, fun p hmem t payload hf => ?_⟩
  · exact (List.mem_append.mp hmem).elim (h.apart p) (fun hnew => (hp p hnew).1)
  · rcases List.mem_append.mp hmem with hold | hnew
    · exact h.wire p hold t payload hf
    · refine ((hp p hnew).2 t payload hf).imp_right (fun hfwd => ⟨hfwd.1, fun roster hr hin => ?_⟩)
      exact (hp p hnew).1 (hfwd.2 _ roster hr hin)

theorem Sound.lose (h : b.Sound ops) {wire : List Packet} (hsub : wire ⊆ b.wire) :
    ({ b with wire := wire } : Backbone).Sound ops :=
  ⟨h.registration, h.forwards, h.cmds, fun p hp => h.apart p (hsub hp),
    fun p hp => h.wire p (hsub hp)⟩

/-- A node binds topics while nothing is pending that it would then take for the frame of
a relay. -/
theorem Sound.apply (h : b.Sound ops) {m : Pubkey} {view : NetView}
    (hreg : view.senders .registration = none)
    (hsettled : ∀ topic roster, view.senders topic = some roster →
      ∀ a ∈ roster, a ≠ m → ¬ b.Pending a m topic) :
    (b.setNode m ((b.node m).apply view)).Sound ops := by
  have forwards : ∀ a, ((b.setNode m ((b.node m).apply view)).node a).forwards =
      (b.node a).forwards := by
    intro a
    by_cases ha : a = m
    · rw [ha, node_setNode_self, Node.apply]
    · rw [node_setNode_of_ne ha]
  refine ⟨fun a => ?_, fun a t p hp m' roster hroster hin => ?_, fun a t p hp => ?_, h.apart,
    fun p hp t payload hf => ?_⟩
  · by_cases ha : a = m
    · rw [ha, node_setNode_self]
      exact hreg
    · rw [node_setNode_of_ne ha]
      exact h.registration a
  · rw [forwards] at hp
    by_cases hm : m' = m
    · rw [hm, node_setNode_self] at hroster
      by_contra hne
      exact hsettled t roster hroster a hin (fun ha => hne (hm.trans ha.symm)) ⟨p, Or.inl hp⟩
    · rw [node_setNode_of_ne hm] at hroster
      exact h.forwards a t p hp m' roster hroster hin
  · by_cases ha : a = m
    · rw [ha, node_setNode_self] at hp
      rcases List.mem_append.mp hp with hp | hp
      · exact ha ▸ h.cmds m t p hp
      · cases List.mem_singleton.mp hp
    · rw [node_setNode_of_ne ha] at hp
      exact h.cmds a t p hp
  · refine (h.wire p hp t payload hf).imp_right (fun hfwd => ⟨hfwd.1, fun roster hroster hin => ?_⟩)
    by_cases hm : p.dest = m
    · rw [hm] at hroster
      have hroster : view.senders t = some roster := by rwa [node_setNode_self] at hroster
      refine hsettled t roster hroster _ hin (fun hs => h.apart p hp (hm.trans hs.symm)) ⟨payload,
        Or.inr ?_⟩
      obtain ⟨sender, dest, frame, origin⟩ := p
      cases hf
      cases hfwd.1
      cases hm
      exact hp
    · rw [node_setNode_of_ne hm] at hroster
      exact hfwd.2 roster hroster hin

/-- **One step of a settled run.** -/
theorem Sound.step (h : b.Sound ops) {op : BackboneOp C} (hsettled : Settled cfg b op) :
    (b.step cfg op).1.Sound (ops ++ [op]) := by
  have hmono := h.mono op
  cases op with
  | subscribe me topic => exact hmono.setNode rfl (fun _ _ => Or.inl) (fun _ _ => Or.inl)
  | inbox me subnet => exact hmono.setNode rfl (fun _ _ => Or.inl) (fun _ _ => Or.inl)
  | serveConfig me bytes => exact hmono.setNode rfl (fun _ _ => Or.inl) (fun _ _ => Or.inl)
  | apply m config =>
    simp only [Backbone.step]
    split
    · rename_i hgoverned
      -- the new view names for every topic whoever it was bound to
      exact hmono.apply (netView_registration _ _) (hsettled hgoverned)
    · exact hmono
  | publish me topic bytes =>
    refine hmono.setNode ?_ (fun t p hp => Or.inl ?_) (fun t p hp => ?_)
    · rcases (b.node me).publish_cases me topic bytes with heq | heq <;> rw [heq]
    · rcases (b.node me).publish_cases me topic bytes with heq | heq <;> rwa [heq] at hp
    · rcases (b.node me).publish_cases me topic bytes with heq | heq
      · exact Or.inl (heq ▸ hp)
      · rw [heq] at hp
        refine (List.mem_append.mp hp).imp_right (fun hnew => ?_)
        cases List.mem_singleton.mp hnew
        exact List.mem_append_right _ (List.mem_singleton.mpr rfl)
  | send me dest subnet bytes =>
    refine hmono.setNode ?_ (fun t p hp => Or.inl ?_) (fun t p hp => Or.inl ?_)
    · rw [Node.send]
      split <;> rfl
    · rw [Node.send] at hp
      split at hp <;> exact hp
    · rw [Node.send] at hp
      split at hp
      · exact hp
      · refine (List.mem_append.mp hp).elim id (fun hnew => ?_)
        cases List.mem_singleton.mp hnew
  | client me client conn msg status =>
    simp only [Backbone.step]
    split
    · rename_i hallows
      obtain ⟨hshared, hcmds, hforwards⟩ :=
        (b.node me).session_cases (C := C) cfg status client conn msg
      refine hmono.setNode (congrArg Shared.senders hshared) (fun t p hp => ?_)
        (fun t p hp => Or.inl (hcmds ▸ hp))
      -- nothing is forwarded, or a registration, or a payload of the client itself
      rcases hforwards with heq | ⟨bytes, heq⟩ | ⟨subnet, payload, rfl, hopen, heq⟩
      · exact Or.inl (heq ▸ hp)
      · rw [heq] at hp
        refine (List.mem_append.mp hp).imp_right (fun hnew => ?_)
        cases List.mem_singleton.mp hnew
        intro m roster hroster
        rw [h.registration m] at hroster
        cases hroster
      · rw [heq] at hp
        refine (List.mem_append.mp hp).imp_right (fun hnew => ?_)
        cases List.mem_singleton.mp hnew
        exact fun m roster hroster hin =>
          absurd hin (hsettled hallows hopen m roster hroster)
    · exact hmono
  | command me peers status =>
    obtain ⟨hshared, hforwards, hcmds, hpackets, -⟩ := (b.node me).command_cases me peers status
    have hset := hmono.setNode (congrArg Shared.senders hshared)
      (fun t p hp => Or.inl (hforwards ▸ hp)) (fun t p hp => Or.inl (hcmds _ hp))
    refine hset.send (fun p hp => ?_)
    -- a command leaves its own node, with the node as origin
    obtain ⟨hs, hd, ho, hpub⟩ := hpackets p hp
    refine ⟨hs ▸ hd, fun t payload hf => Or.inl ⟨ho, ?_⟩⟩
    rw [hs]
    exact hmono.cmds me t payload (hpub t payload hf)
  | forward me peers =>
    obtain ⟨hshared, hcmds, hforwards, hpackets⟩ := (b.node me).forward_cases me peers
    have hset := hmono.setNode (congrArg Shared.senders hshared)
      (fun t p hp => Or.inl (hforwards _ hp)) (fun t p hp => Or.inl (hcmds ▸ hp))
    refine hset.send (fun p hp => ?_)
    obtain ⟨hs, hd, ho, f, hf, hframe⟩ := hpackets p hp
    refine ⟨hs ▸ hd, fun t payload ht => Or.inr ⟨ho, fun m roster hroster hin => ?_⟩⟩
    rw [hframe] at ht
    cases ht
    rw [hs] at hin ⊢
    refine h.forwards me f.1 f.2 hf m roster ?_ hin
    -- the roster that checks the packet may be that of the node that forwards it
    by_cases hm : m = me
    · rw [hm] at hroster ⊢
      rwa [node_setNode_self, hshared] at hroster
    · rwa [node_setNode_of_ne hm] at hroster
  | deliver i status =>
    simp only [Backbone.step]
    split
    · rename_i p hp
      obtain ⟨hshared, hcmds, hforwards⟩ :=
        (b.node p.dest).receive_keeps status p.sender p.origin p.frame
      exact (hmono.setNode (congrArg Shared.senders hshared)
        (fun t payload hmem => Or.inl (hforwards ▸ hmem))
        (fun t payload hmem => Or.inl (hcmds ▸ hmem))).lose (List.eraseIdx_subset ..)
    · exact hmono
  | drop i => exact hmono.lose (List.eraseIdx_subset ..)

/-- What is handed on in a sound state is authentic. -/
theorem Sound.authentic (h : b.Sound ops) {op : BackboneOp C} {out : Pubkey × Output}
    (hout : out ∈ (b.step cfg op).2) : Authentic ops (b.node out.1) out.2 := by
  obtain ⟨me, out⟩ := out
  cases out with
  | inbox subnet sender payload => trivial
  | configResp conn config => trivial
  | frame reader topic sender payload origin =>
    intro hbound
    cases op with
    | client me' client conn msg status =>
      simp only [Backbone.step] at hout
      split at hout
      · obtain ⟨o, ho, heq⟩ := List.mem_map.mp hout
        cases heq
        rw [Node.session_outputs (h.registration me) ho] at hbound
        cases hbound
      · cases hout
    | command me' peers status =>
      obtain ⟨o, ho, heq⟩ := List.mem_map.mp hout
      cases heq
      obtain ⟨-, -, -, -, hpub⟩ := (b.node me).command_cases me peers status
      obtain ⟨rfl, rfl, hcmd⟩ := hpub _ _ _ _ _ ho
      exact ⟨rfl, h.cmds _ _ _ hcmd⟩
    | deliver i status =>
      simp only [Backbone.step] at hout
      split at hout
      · rename_i p hp
        obtain ⟨o, ho, heq⟩ := List.mem_map.mp hout
        cases heq
        obtain ⟨hframe, rfl, rfl, hadmits⟩ := Node.receive_outputs ho
        rcases h.wire p (List.mem_of_getElem? hp) topic payload hframe with hpub | ⟨-, hfwd⟩
        · exact hpub
        · obtain ⟨roster, hroster⟩ := Option.isSome_iff_exists.mp hbound
          rw [Shared.admits, hroster] at hadmits
          exact absurd (List.contains_iff_mem.mp hadmits) (hfwd roster hroster)
      · cases hout
    | apply m config =>
      simp only [Backbone.step] at hout
      split at hout <;> cases hout
    | _ => cases hout

/-- The run lemma. -/
theorem sound_after (hsettled : ∀ σ ∈ Trace.steps ops, Settled cfg (after cfg σ.1) σ.2) :
    ∀ l, l <+: ops → (after cfg l).Sound l := by
  refine Trace.prefix_induction sound_init (fun σ hσ ih => ?_)
  rw [after_concat]
  exact ih.step (hsettled σ hσ)

/-- **Relays speak for themselves.**  In a settled run every frame handed on at a node on
a topic that its view binds was published by the node it arrives from. -/
theorem relays_speak_for_themselves (cfg : BackboneConfig) (ops : List (BackboneOp C))
    (hsettled : ∀ σ ∈ Trace.steps ops, Settled cfg (after cfg σ.1) σ.2) :
    ∀ σ ∈ Trace.steps ops, ∀ out ∈ ((after cfg σ.1).step cfg σ.2).2,
      Authentic σ.1 ((after cfg σ.1).node out.1) out.2 := by
  intro σ hσ out hout
  have hpre : σ.1 <+: ops := (List.prefix_append _ _).trans (Trace.prefix_of_mem_steps hσ)
  exact (sound_after hsettled σ.1 hpre).authentic hout

/-! ## A step that does not -/

/-- The network after more steps. -/
def later (cfg : BackboneConfig) (b : Backbone) (ops : List (BackboneOp C)) : Backbone :=
  Trace.run b (fun b op => (b.step cfg op).1) ops

/-- A frame of a client, handed on at `node` under the key of a relay. -/
def Forged (node : Node) : Output → Prop
  | .frame _ topic _ _ origin => node.shared.topicIsBound topic = true ∧ origin = .forwarded
  | _ => False

/-- What waits at `a` reaches the wire, and `m` stays as it is. -/
theorem forward_reaches {a m : Pubkey} {topic : Topic} {payload : Bytes}
    {rest : List (Topic × Bytes)} (hne : m ≠ a) (ht : topic ≠ .registration) :
    ∀ (front : List (Topic × Bytes)) (b : Backbone),
      (b.node a).forwards = front ++ (topic, payload) :: rest →
      ∃ more : List (BackboneOp C), (later cfg b more).node m = b.node m ∧
        (⟨a, m, .topic topic payload, .forwarded⟩ : Packet) ∈ (later cfg b more).wire := by
  intro front
  induction front with
  | nil =>
    intro b h
    refine ⟨[.forward a [m]], node_setNode_of_ne hne _, List.mem_append_right _ ?_⟩
    have hforward : ((b.node a).forward a [m]).2 = ({ b.node a with forwards := rest } : Node).transmit
        a [m] (.topic topic payload) none .forwarded := by
      rw [Node.forward, h]
      rfl
    rw [hforward, Node.transmit]
    refine List.mem_map.mpr ⟨m, List.mem_filter.mpr ⟨?_, ?_⟩, rfl⟩
    · show m ∈ if topic = Topic.registration then _ else [m]
      rw [if_neg ht]
      exact List.mem_singleton.mpr rfl
    · simpa using hne
  | cons f front ih =>
    intro b h
    have hforwards : (((b.step (C := C) cfg (.forward a [m])).1).node a).forwards =
        front ++ (topic, payload) :: rest := by
      show ((b.setNode a ((b.node a).forward a [m]).1).node a).forwards = _
      rw [node_setNode_self, Node.forward, h]
      rfl
    obtain ⟨more, hnode, hwire⟩ := ih _ hforwards
    exact ⟨.forward a [m] :: more, hnode.trans (node_setNode_of_ne hne _), hwire⟩

/-- Once on the wire, it is handed on where its sender is in the roster. -/
theorem deliver_forges {p : Packet} {topic : Topic} {payload : Bytes} {roster : List Pubkey}
    (hp : p ∈ b.wire) (hframe : p.frame = .topic topic payload) (horigin : p.origin = .forwarded)
    (hroster : (b.node p.dest).shared.senders topic = some roster) (hin : p.sender ∈ roster)
    (htopic : topic ∈ (b.node p.dest).shared.topics) :
    ∃ last : BackboneOp C, ∃ out ∈ (b.step cfg last).2, Forged (b.node out.1) out.2 := by
  obtain ⟨i, hi⟩ := List.getElem?_of_mem hp
  have hbound : (b.node p.dest).shared.topicIsBound topic = true := by
    rw [Shared.topicIsBound, hroster]
    rfl
  have hadmits : (b.node p.dest).shared.admits topic p.sender = true := by
    rw [Shared.admits, hroster]
    exact List.contains_iff_mem.mpr hin
  refine ⟨.deliver i (fun _ => .ready),
    (p.dest, .frame .subscriber topic p.sender payload .forwarded), ?_, hbound, rfl⟩
  simp only [Backbone.step, hi]
  refine List.mem_map.mpr ⟨_, ?_, rfl⟩
  rw [hframe, Node.receive, hadmits, horigin]
  refine List.mem_append_right _ ?_
  rw [Shared.deliverLocal, if_pos (List.contains_iff_mem.mpr htopic)]
  exact List.mem_singleton.mpr rfl

/-- A pending frame is handed on in the name of a relay. -/
theorem pending_forges {a m : Pubkey} {topic : Topic} {roster : List Pubkey}
    (hroster : (b.node m).shared.senders topic = some roster) (ha : a ∈ roster) (hne : a ≠ m)
    (ht : topic ≠ .registration) (hp : b.Pending a m topic) :
    ∃ (more : List (BackboneOp C)) (last : BackboneOp C),
      ∃ out ∈ ((later cfg b more).step cfg last).2,
        Forged ((later cfg b more).node out.1) out.2 := by
  -- The node reads the topic.
  let b' := b.setNode m ((b.node m).subscribe topic)
  have hnode : b'.node m = (b.node m).subscribe topic := node_setNode_self ..
  have hother : b'.node a = b.node a := node_setNode_of_ne hne _
  have hreach : ∃ payload, ∃ more : List (BackboneOp C), (later cfg b' more).node m = b'.node m ∧
      (⟨a, m, .topic topic payload, .forwarded⟩ : Packet) ∈ (later cfg b' more).wire := by
    obtain ⟨payload, hp | hp⟩ := hp
    · obtain ⟨front, rest, hsplit⟩ := List.append_of_mem hp
      exact ⟨payload, forward_reaches hne.symm ht front b' (hother ▸ hsplit)⟩
    · exact ⟨payload, [], rfl, hp⟩
  obtain ⟨payload, more, hsame, hwire⟩ := hreach
  have hroster' : ((later cfg b' more).node m).shared.senders topic = some roster := by
    rw [hsame, hnode]
    exact hroster
  have htopic : topic ∈ ((later cfg b' more).node m).shared.topics := by
    rw [hsame, hnode]
    exact List.mem_insert_self
  have hforge : ∃ last : BackboneOp C, ∃ out ∈ ((later cfg b' more).step cfg last).2,
      Forged ((later cfg b' more).node out.1) out.2 :=
    deliver_forges hwire rfl rfl hroster' ha htopic
  obtain ⟨last, hlast⟩ := hforge
  exact ⟨.subscribe m topic :: more, last, hlast⟩

/-- **A step of the other kind leads to a forged delivery**, whatever the state. -/
theorem unsettled_forges (b : Backbone) {op : BackboneOp C} (h : ¬ Settled cfg b op) :
    ∃ (more : List (BackboneOp C)) (last : BackboneOp C),
      ∃ out ∈ ((later cfg b (op :: more)).step cfg last).2,
        Forged ((later cfg b (op :: more)).node out.1) out.2 := by
  cases op with
  | client me client conn msg status =>
    cases msg with
    | submit topic payload =>
      cases topic with
      | broadcast subnet =>
        simp only [Settled, Classical.not_imp, not_forall, not_not] at h
        obtain ⟨hallows, hopen, m, roster, hroster, hin⟩ := h
        -- the two nodes differ, for one has the topic bound and the other open
        have hne : me ≠ m := by
          rintro rfl
          rw [Shared.topicIsBound, hroster] at hopen
          cases hopen
        have ht : Topic.broadcast subnet ≠ .registration := nofun
        refine pending_forges (b := (b.step cfg _).1) (a := me) (m := m) ?_ hin hne ht
          ⟨payload, Or.inl ?_⟩
        · simp only [Backbone.step, hallows, if_true]
          rw [node_setNode_of_ne hne.symm]
          exact hroster
        · simp only [Backbone.step, hallows, if_true]
          rw [node_setNode_self]
          simp only [Node.session, hopen]
          exact List.mem_append_right _ List.mem_cons_self
      | _ => exact absurd trivial h
    | _ => exact absurd trivial h
  | apply m config =>
    simp only [Settled, Classical.not_imp, not_forall, not_not] at h
    obtain ⟨hgoverned, topic, roster, hroster, a, ha, hne, payload, hp⟩ := h
    -- registrations are bound in no view
    have ht : topic ≠ .registration := by
      rintro rfl
      rw [netView_registration] at hroster
      cases hroster
    refine pending_forges (b := (b.step cfg _).1) (m := m) ?_ ha hne ht ⟨payload, ?_⟩
    · simp only [Backbone.step, hgoverned, if_true]
      rw [node_setNode_self]
      exact hroster
    · simp only [Backbone.step, hgoverned, if_true]
      rw [node_setNode_of_ne hne]
      exact hp
  | _ => exact absurd trivial h

theorem settled_concat {l : List (BackboneOp C)}
    (h : ∀ σ ∈ Trace.steps l, Settled cfg (after cfg σ.1) σ.2) (op : BackboneOp C)
    (hop : Settled cfg (after cfg l) op) :
    ∀ σ ∈ Trace.steps (l ++ [op]), Settled cfg (after cfg σ.1) σ.2 := by
  intro σ hσ
  rw [Trace.steps_concat] at hσ
  rcases List.mem_append.mp hσ with hσ | hσ
  · exact h σ hσ
  · rw [List.mem_singleton.mp hσ]
    exact hop

/-- Nothing a client submitted is waiting anywhere. -/
structure Idle (b : Backbone) : Prop where
  forwards : ∀ a, (b.node a).forwards = []
  wire : b.wire = []

theorem Idle.setNode (h : b.Idle) {me : Pubkey} {node : Node} (hnode : node.forwards = []) :
    (b.setNode me node).Idle := by
  refine ⟨fun a => ?_, h.wire⟩
  by_cases ha : a = me
  · rw [ha, node_setNode_self, hnode]
  · rw [node_setNode_of_ne ha, h.forwards]

/-- While nothing waits, any view may be applied. -/
theorem Idle.settled (h : b.Idle) (m : Pubkey) (config : C.Config) :
    Settled cfg b (.apply m config) := by
  rintro - topic roster - a - - ⟨payload, hp | hp⟩
  · rw [h.forwards] at hp
    cases hp
  · rw [h.wire] at hp
    cases hp

end Backbone

/-! ## A relay without a view -/

namespace BackboneToy
open Backbone

/-- One committee member, and listeners that take any client. -/
def toyBackbone : BackboneConfig := ⟨[toyNode 1], 1, fun _ => none, fun _ _ => true⟩

/-- The topic of the subnet over relay 9. -/
def output : Topic := .broadcast 0

/-- A signed configuration with a Panetière subnet over relay 9. -/
def config : toyScheduler.Config :=
  ⟨toyBody 1 (toyPanetiere 4) [], [⟨toyNode 1,
    toySign (toyNode 1) (toyBody 1 (toyPanetiere 4) []).approveBytes⟩]⟩

theorem governed_config : governed toyBackbone config = true := by decide +kernel

def ready (_ : Nat) : FeedStatus := .ready

/-- The first frame on the wire arrives. -/
def arrival : BackboneOp toyScheduler := .deliver 0 ready

/-- Node 8 and relay 9 apply the configuration, and node 8 reads the topic. -/
def viewed : List (BackboneOp toyScheduler) :=
  [.subscribe (toyNode 8) output, .apply (toyNode 8) config, .apply (toyNode 9) config]

/-- Then the relay refuses a client's frame and publishes its own. -/
def agreed : List (BackboneOp toyScheduler) :=
  viewed ++ [.client (toyNode 9) (toyNode 50) 0 (.submit output [7]) ready,
    .publish (toyNode 9) output [3], .command (toyNode 9) [toyNode 8] ready,
    .command (toyNode 9) [toyNode 8] ready, arrival]

theorem settled_viewed : ∀ σ ∈ Trace.steps viewed,
    Settled toyBackbone (after toyBackbone σ.1) σ.2 := by
  have hstart : (init toyBackbone).Idle := ⟨fun _ => rfl, rfl⟩
  have hread : (after toyBackbone (viewed.take 1)).Idle := hstart.setNode rfl
  have hview : (after toyBackbone (viewed.take 2)).Idle := by
    show (Backbone.step _ _ (.apply (toyNode 8) config)).1.Idle
    rw [Backbone.step, if_pos governed_config]
    exact hread.setNode rfl
  have hsubscribe : ∀ σ ∈ Trace.steps (viewed.take 1),
      Settled toyBackbone (after toyBackbone σ.1) σ.2 := by
    intro σ hσ
    rw [List.mem_singleton.mp hσ]
    trivial
  exact settled_concat (settled_concat hsubscribe _ (hread.settled _ _)) _ (hview.settled _ _)

theorem settled_agreed : ∀ σ ∈ Trace.steps agreed,
    Settled toyBackbone (after toyBackbone σ.1) σ.2 := by
  have hclosed : ((after toyBackbone viewed).node (toyNode 9)).shared.topicIsBound output = true := by
    decide +kernel
  have hrefused : Settled toyBackbone (after toyBackbone viewed)
      (.client (toyNode 9) (toyNode 50) 0 (.submit output [7]) ready : BackboneOp toyScheduler) := by
    intro _ hopen
    exact absurd (hclosed.symm.trans hopen) nofun
  have hpublish := settled_concat (settled_concat settled_viewed _ hrefused)
    (.publish (toyNode 9) output [3]) trivial
  have htrack := settled_concat hpublish (.command (toyNode 9) [toyNode 8] ready) trivial
  have hcommand := settled_concat htrack (.command (toyNode 9) [toyNode 8] ready) trivial
  exact settled_concat hcommand arrival trivial

/-- The frame of the relay arrives, and that of the client does not. -/
theorem agreed_delivers :
    ((after toyBackbone (agreed.take 7)).step toyBackbone arrival).2 =
        [(toyNode 8, .frame .subscriber output (toyNode 9) [3] .published)] ∧
      ∀ σ ∈ Trace.steps agreed, ∀ out ∈ ((after toyBackbone σ.1).step toyBackbone σ.2).2,
        Authentic σ.1 ((after toyBackbone σ.1).node out.1) out.2 :=
  ⟨by decide +kernel, relays_speak_for_themselves toyBackbone agreed settled_agreed⟩

/-- Relay 9 has not applied the configuration yet. -/
def skewed : List (BackboneOp toyScheduler) :=
  [.subscribe (toyNode 8) output, .apply (toyNode 8) config,
    .client (toyNode 9) (toyNode 50) 0 (.submit output [7]) ready, .forward (toyNode 9) [toyNode 8],
    arrival]

/-- A client's frame arrives at node 8 as the output of relay 9. -/
theorem skewed_forges : ¬ ∀ σ ∈ Trace.steps skewed,
    ∀ out ∈ ((after toyBackbone σ.1).step toyBackbone σ.2).2,
      Authentic σ.1 ((after toyBackbone σ.1).node out.1) out.2 := by
  intro h
  have hlast : (skewed.take 4, arrival) ∈ Trace.steps skewed :=
    Trace.mem_steps.mpr ⟨[], rfl⟩
  have hout : (toyNode 8, .frame .subscriber output (toyNode 9) [7] .forwarded) ∈
      ((after toyBackbone (skewed.take 4)).step toyBackbone arrival).2 := by
    decide +kernel
  have hbound : ((after toyBackbone (skewed.take 4)).node (toyNode 8)).shared.topicIsBound
      output = true := by decide +kernel
  exact absurd (h _ hlast _ hout hbound).1 nofun

end BackboneToy

end Anymone
