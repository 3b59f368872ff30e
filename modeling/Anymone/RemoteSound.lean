import Anymone.RemoteSession

/-! # An open session

At every moment of a run an open session has a client and the identity that it shows, and a client
that is given the payload with its round keeps none between two calls (`Sound.after`).  What the
calls of a session can do is said once, by `keeps_apply`, `keeps_execute` and `reconfigure_cases`.
-/

namespace Anymone
namespace Remote
variable {R : RemoteCrate}

/-! ## What waits in a client -/

namespace Client

/-- The payloads that wait in a client: granted, reserved, deferred and staged ones, without cover
items, or the one in flight and those behind it. -/
def waiting : Client R → List Bytes
  | scheduledPanetiere _ s =>
      (s.granted.map (fun g => g.2.2) ++ s.reserved.values.flatten.map Prod.snd ++ s.deferred ++
        s.staged).filter (fun p => p ≠ [])
  | scheduledAdcnet _ _ s => (s.inflight.map Prod.fst).toList ++ s.pending.map Prod.fst
  | panetiere _ | adcnet _ => []

/-- A client that is given the payload with its round keeps none between two calls. -/
def Quiet : Client R → Prop
  | panetiere s => s.cfg.complete = true ∧ s.pending = none
  | adcnet s => s.pending = none
  | scheduledPanetiere .. | scheduledAdcnet .. => True

theorem takePendingMessages_eq (c : Client R) : c.takePendingMessages.2 = c.waiting := by
  cases c with
  | panetiere s | adcnet s | scheduledPanetiere cfg s => rfl
  | scheduledAdcnet cfg rate s => exact (ScheduledAdcnetClientSession.takePendingMessages_eq s).1

end Client

/-- A finished round leaves nothing staged. -/
theorem finalizeStaged_keeps {s : PanetiereClientSession R.toChannelCrate} {round : Round}
    {r : PanetiereClientSession R.toChannelCrate × List PanetiereWire}
    (hcomplete : s.cfg.complete = true) (h : s.finalizeStaged round = some r) :
    r.1.cfg = s.cfg ∧ r.1.pending = none := by
  unfold PanetiereClientSession.finalizeStaged at h
  rw [hcomplete, Bool.not_true, if_neg Bool.false_ne_true] at h
  dsimp only at h
  cases hmessage : s.message.1 with
  | none =>
    rw [hmessage] at h
    obtain rfl := Option.some.inj h
    exact ⟨rfl, rfl⟩
  | some msg =>
    rw [hmessage] at h
    obtain ⟨st, -, rfl⟩ := Option.map_eq_some_iff.mp h
    exact ⟨rfl, rfl⟩

theorem finalizePanetiere_keeps {s : PanetiereClientSession R.toChannelCrate} {round : Round}
    {payload : Option Bytes}
    {r : PanetiereClientSession R.toChannelCrate × Except String (List PanetiereWire)}
    (hquiet : (Client.panetiere s).Quiet) (h : finalizePanetiere s round payload = some r) :
    (Client.panetiere r.1).Quiet := by
  obtain ⟨hcomplete, hpending⟩ := hquiet
  unfold finalizePanetiere at h
  dsimp only at h
  cases hencoded : (s.encoded payload).1 with
  | none =>
    rw [hencoded] at h
    obtain rfl := Option.some.inj h
    exact ⟨hcomplete, hpending⟩
  | some message =>
    rw [hencoded] at h
    obtain ⟨posted, hposted, rfl⟩ := Option.map_eq_some_iff.mp h
    obtain ⟨hcfg, hnone⟩ := finalizeStaged_keeps (by exact hcomplete) hposted
    exact ⟨by rw [hcfg]; exact hcomplete, hnone⟩

theorem quiet_performPanetiere {s : PanetiereClientSession R.toChannelCrate} {current : Round}
    {action : PanetiereAction} {p : Performed R} (hquiet : (Client.panetiere s).Quiet)
    (h : performPanetiere s current action = some p) : p.client.Quiet := by
  cases action with
  | prepareRound round =>
    obtain rfl := Option.some.inj h
    exact hquiet
  | finalizeRound round payload =>
    obtain ⟨r, hr, rfl⟩ := Option.map_eq_some_iff.mp h
    exact finalizePanetiere_keeps hquiet hr
  | acceptReceiptBatch round batch =>
    obtain rfl := Option.some.inj h
    unfold posted
    split <;> exact hquiet
  | buildRepair round =>
    obtain ⟨r, -, rfl⟩ := Option.map_eq_some_iff.mp h
    exact hquiet

theorem quiet_contribute {s : AdcnetClientSession R} (hquiet : s.pending = none) (round : Round)
    (payload : Option Bytes) : (s.contribute round payload).1.pending = none := by
  unfold AdcnetClientSession.contribute
  split
  · split
    · exact hquiet
    · split <;> exact hquiet
  · exact hquiet

/-- An action of a scheduled client is performed by a scheduled client. -/
theorem quiet_performScheduled {cfg : ScheduledClientConfig R.toScheduledCrate}
    {s : ScheduledClientSession R.toScheduledCrate} {current : Round} {spins : Nat}
    {action : ScheduledPanetiereAction} {p : Performed R}
    (h : performScheduledPanetiere cfg s current spins action = some p) : p.client.Quiet := by
  cases action with
  | setCoverRate | advanceRound | prepareRound =>
    obtain rfl := Option.some.inj h
    trivial
  | reserveMessage | acceptReceiptBatch =>
    obtain rfl := Option.some.inj h
    unfold posted
    split <;> trivial
  | finalizeRound round =>
    unfold performScheduledPanetiere at h
    dsimp only at h
    split at h
    · obtain rfl := Option.some.inj h
      trivial
    · obtain ⟨r, -, rfl⟩ := Option.map_eq_some_iff.mp h
      trivial
  | acceptReservations message =>
    unfold performScheduledPanetiere at h
    dsimp only at h
    split at h
    · obtain rfl := Option.some.inj h
      trivial
    · obtain rfl := Option.some.inj h
      unfold posted
      split <;> trivial
    · obtain rfl := Option.some.inj h
      trivial
  | buildRepair round =>
    obtain ⟨r, -, rfl⟩ := Option.map_eq_some_iff.mp h
    trivial

theorem quiet_performScheduledAdcnet (cfg : ScheduledAdcnetClientConfig R.adcnet) (rate : U32)
    (s : ScheduledAdcnetClientSession R.adcnet) (current : Round) (draw : Draw R)
    (action : ScheduledAdcnetAction) :
    (performScheduledAdcnet cfg rate s current draw action).client.Quiet := by
  cases action with
  | setCoverRate | messagesForCurrentRound => trivial
  | advanceToRound round =>
    unfold performScheduledAdcnet
    dsimp only
    split <;> trivial
  | scheduleMessageForNextRound | processRoundBroadcast =>
    unfold performScheduledAdcnet posted
    dsimp only
    split <;> trivial

/-- **What an action leaves of a client.** -/
theorem quiet_perform {c : Client R} {current : Round} {draw : Draw R} {action : ProtocolAction}
    {p : Performed R} (hquiet : c.Quiet) (h : c.perform current draw action = some p) :
    p.client.Quiet := by
  cases action with
  | panetiere action =>
    cases c with
    | panetiere s => exact quiet_performPanetiere hquiet h
    | scheduledPanetiere | adcnet | scheduledAdcnet =>
      obtain rfl := Option.some.inj h
      exact hquiet
  | scheduledPanetiere action =>
    cases c with
    | scheduledPanetiere cfg s => exact quiet_performScheduled h
    | panetiere | adcnet | scheduledAdcnet =>
      obtain rfl := Option.some.inj h
      exact hquiet
  | adcnet action =>
    cases c with
    | adcnet s =>
      obtain rfl := Option.some.inj h
      exact quiet_contribute hquiet ..
    | panetiere | scheduledPanetiere | scheduledAdcnet =>
      obtain rfl := Option.some.inj h
      exact hquiet
  | scheduledAdcnet action =>
    cases c with
    | scheduledAdcnet cfg rate s =>
      obtain rfl := Option.some.inj h
      exact quiet_performScheduledAdcnet ..
    | panetiere | scheduledPanetiere | adcnet =>
      obtain rfl := Option.some.inj h
      exact hquiet

/-! ## What is built -/

section Build
variable {subnet : Subnet} {keys : List (Pubkey × ExchangePublicKeyWire)} {startingRound : Round}
  {identity : R.Identity} {seed : ByteArr 32} {built : Built R}

theorem quiet_buildPanetiere {c : PanetiereConfig}
    (h : buildPanetiere subnet keys identity seed c = .ok built) : built.client.Quiet := by
  unfold buildPanetiere requireRoster at h
  dsimp only at h
  split at h
  · rename_i hlen
    cases hpks : consensusRoster R c.setFormation keys subnet with
    | error e =>
      rw [hpks] at h
      cases h
    | ok pks =>
      rw [hpks] at h
      obtain rfl := Except.ok.inj h
      refine ⟨?_, rfl⟩
      show ((sealRoster R.readers keys subnet).length ==
        (PanetiereConfig.params R c subnet.relays.length).nServers) = true
      rw [beq_iff_eq, hlen]
      exact (R.nServers_setupRsMode ..).symm
  · cases h

theorem quiet_build (h : build subnet keys startingRound identity seed = some (.ok built)) :
    built.client.Quiet := by
  unfold build at h
  -- no session that is built has accepted anything
  cases hprotocol : subnet.protocol with
  | noop c =>
    rw [hprotocol] at h
    cases h
  | panetiere c =>
    rw [hprotocol] at h
    exact quiet_buildPanetiere (Option.some.inj h)
  | scheduledPanetiere c =>
    rw [hprotocol] at h
    obtain ⟨leaderPk, -, h⟩ := Option.map_eq_some_iff.mp h
    unfold buildScheduledPanetiere requireRoster at h
    dsimp only at h
    split at h
    · cases hpks : consensusRoster R c.setFormation keys subnet with
      | error e =>
        rw [hpks] at h
        cases h
      | ok pks =>
        rw [hpks] at h
        obtain rfl := Except.ok.inj h
        trivial
    · cases h
  | adcnet c =>
    rw [hprotocol] at h
    have h := Option.some.inj h
    unfold buildAdcnet requireRoster at h
    dsimp only at h
    split at h
    · obtain rfl := Except.ok.inj h
      rfl
    · cases h
  | scheduledAdcnet c =>
    rw [hprotocol] at h
    obtain ⟨leaderPk, -, h⟩ := Option.bind_eq_some_iff.mp h
    unfold buildScheduledAdcnet at h
    dsimp only at h
    split at h
    · cases Option.some.inj h
    · split at h
      · cases Option.some.inj h
      · split at h
        · cases h
        · obtain rfl := Except.ok.inj (Option.some.inj h)
          trivial

end Build

namespace RemoteAttestedSession
variable {s s' : RemoteAttestedSession R}

/-- An open session has a client and the identity it shows. -/
structure Sound (s : RemoteAttestedSession R) : Prop where
  client : s.status.closed = false → ∃ c, s.client = some c ∧ c.Quiet
  identity : s.status.closed = false → ∃ identity, s.identity = some identity ∧
    s.status.participant = R.pubkey identity ∧ s.status.exchangeKeys = R.exchangeKeys identity

theorem withIdentity_eq_ok {subnet : Subnet} {keys : List (Pubkey × ExchangePublicKeyWire)}
    {startingRound : Round} {identity : R.Identity} {fresh : Fresh}
    (h : withIdentity subnet keys startingRound identity fresh = some (.ok s)) :
    ∃ built : Built R, built.client.Quiet ∧
      s = ofBuilt subnet keys startingRound identity fresh.sessionId built := by
  unfold withIdentity at h
  split at h
  · cases Option.some.inj h
  · obtain ⟨built, hbuilt, hs⟩ := Option.map_eq_some_iff.mp h
    cases built with
    | error e => cases hs
    | ok built => exact ⟨built, quiet_build hbuilt, (Except.ok.inj hs).symm⟩

theorem sound_withIdentity {subnet : Subnet} {keys : List (Pubkey × ExchangePublicKeyWire)}
    {startingRound : Round} {identity : R.Identity} {fresh : Fresh}
    (h : withIdentity subnet keys startingRound identity fresh = some (.ok s)) : s.Sound := by
  obtain ⟨built, hquiet, rfl⟩ := withIdentity_eq_ok h
  exact ⟨fun _ => ⟨built.client, rfl, hquiet⟩, fun _ => ⟨identity, rfl, rfl, rfl⟩⟩

/-- What an action leaves of the session. -/
structure Keeps (s s' : RemoteAttestedSession R) : Prop where
  identity : s'.identity = s.identity
  status : ∃ round next, s'.status = { s.status with currentRound := round, nextRequest := next }
  client : ∀ c, s.client = some c → c.Quiet → ∃ c', s'.client = some c' ∧ c'.Quiet

theorem Keeps.refl (s : RemoteAttestedSession R) : s.Keeps s :=
  ⟨rfl, ⟨_, _, rfl⟩, fun c hc hquiet => ⟨c, hc, hquiet⟩⟩

theorem keeps_settled {c : Client R} {action : ProtocolAction} {input : Digest} {draw : Draw R}
    {p : Performed R} (hclient : s.client = some c)
    (h : c.perform s.status.currentRound draw action = some p) :
    s.Keeps (s.settled action input p) := by
  have hquiet : ∀ d, s.client = some d → d.Quiet → p.client.Quiet := by
    intro d hd hdquiet
    rw [hclient, Option.some_inj] at hd
    rw [← hd] at hdquiet
    exact quiet_perform hdquiet h
  unfold settled
  split
  · exact ⟨rfl, ⟨_, _, rfl⟩, fun d hd hdquiet => ⟨_, rfl, hquiet d hd hdquiet⟩⟩
  · exact ⟨rfl, ⟨_, _, rfl⟩, fun d hd hdquiet => ⟨_, rfl, hquiet d hd hdquiet⟩⟩
  · exact ⟨rfl, ⟨_, _, rfl⟩, fun d hd hdquiet => ⟨_, rfl, hquiet d hd hdquiet⟩⟩

theorem keeps_executeAction {action : ProtocolAction} {input : Digest} {draw : Draw R}
    {r : RemoteAttestedSession R × Except RemoteSessionError (List Bytes)}
    (h : s.executeAction action input draw = some r) : s.Keeps r.1 := by
  unfold executeAction at h
  split at h
  · obtain rfl := Option.some.inj h
    exact Keeps.refl s
  · split at h
    · obtain rfl := Option.some.inj h
      exact Keeps.refl s
    · rename_i c hc
      obtain ⟨p, hp, rfl⟩ := Option.map_eq_some_iff.mp h
      exact keeps_settled hc hp

theorem keeps_apply {action : ProtocolAction} {draw : Draw R}
    {r : RemoteAttestedSession R × Except RemoteSessionError (List Bytes)}
    (h : s.apply action draw = some r) : s.Keeps r.1 := by
  unfold apply at h
  split at h
  · obtain rfl := Option.some.inj h
    exact Keeps.refl s
  · exact keeps_executeAction h

theorem keeps_executeNew {sequence : U64} {action : ProtocolAction} {draw : Draw R}
    {r : RemoteAttestedSession R × Except RemoteSessionError (List Bytes)}
    (h : s.executeNew sequence action draw = some r) : s.Keeps r.1 := by
  unfold executeNew at h
  split at h
  · obtain rfl := Option.some.inj h
    exact Keeps.refl s
  · split at h
    · obtain rfl := Option.some.inj h
      exact Keeps.refl s
    · obtain ⟨r', hr', rfl⟩ := Option.map_eq_some_iff.mp h
      have hkeeps := keeps_executeAction hr'
      obtain ⟨round, next, hstatus⟩ := hkeeps.status
      exact ⟨hkeeps.identity, ⟨round, next, hstatus⟩, hkeeps.client⟩

theorem keeps_execute {sequence : U64} {action : ProtocolAction} {draw : Draw R}
    {r : RemoteAttestedSession R × Except RemoteSessionError (List Bytes)}
    (h : s.execute sequence action draw = some r) : s.Keeps r.1 := by
  unfold execute at h
  split at h
  · obtain rfl := Option.some.inj h
    exact Keeps.refl s
  · split at h
    · exact keeps_executeNew h
    · split at h
      · obtain rfl := Option.some.inj h
        exact Keeps.refl s
      · exact keeps_executeNew h

theorem Sound.keeps (hsound : s.Sound) (hkeeps : s.Keeps s') : s'.Sound := by
  obtain ⟨round, next, hstatus⟩ := hkeeps.status
  have hclosed : s'.status.closed = s.status.closed := by rw [hstatus]
  constructor
  · intro hopen
    obtain ⟨c, hc, hquiet⟩ := hsound.client (hclosed ▸ hopen)
    exact hkeeps.client c hc hquiet
  · intro hopen
    obtain ⟨identity, hidentity, hparticipant, hexchange⟩ := hsound.identity (hclosed ▸ hopen)
    refine ⟨identity, hkeeps.identity.trans hidentity, ?_, ?_⟩
    · rw [hstatus]
      exact hparticipant
    · rw [hstatus]
      exact hexchange

/-! ## What a reconfiguration does -/

/-- The configuration is the one in force: the same subnet with the same protocol over the same
relays, each with the key it has. -/
structure SameConfig (s : RemoteAttestedSession R) (subnet : Subnet)
    (keys : List (Pubkey × ExchangePublicKeyWire)) : Prop where
  id : subnet.id = s.status.subnet.id
  protocol : subnet.protocol = s.status.subnet.protocol
  relays : subnet.relays = s.status.subnet.relays
  keys : ∀ pk ∈ subnet.relays, keyOf keys pk = keyOf s.status.relayExchangeKeys pk

theorem unchanged_iff {subnet : Subnet} {keys : List (Pubkey × ExchangePublicKeyWire)} :
    s.unchanged subnet keys = true ↔ s.SameConfig subnet keys := by
  unfold unchanged
  simp only [Bool.and_eq_true, decide_eq_true_eq, List.all_eq_true]
  constructor
  · rintro ⟨⟨⟨hid, hprotocol⟩, hrelays⟩, hkeys⟩
    exact ⟨hid, hprotocol, hrelays, hkeys⟩
  · rintro ⟨hid, hprotocol, hrelays, hkeys⟩
    exact ⟨⟨⟨hid, hprotocol⟩, hrelays⟩, hkeys⟩

section Reconfigure
variable {subnet : Subnet} {keys : List (Pubkey × ExchangePublicKeyWire)} {startingRound : Round}
  {fresh : Fresh} {r : RemoteAttestedSession R × Except RemoteSessionError (List Bytes)}

/-- The ways a reconfiguration ends. -/
inductive Reconfigured (s : RemoteAttestedSession R) (subnet : Subnet)
    (keys : List (Pubkey × ExchangePublicKeyWire)) (startingRound : Round) (fresh : Fresh) :
    RemoteAttestedSession R × Except RemoteSessionError (List Bytes) → Prop where
  | refused (e : RemoteSessionError) : Reconfigured s subnet keys startingRound fresh (s, .error e)
  | same : s.SameConfig subnet keys →
      Reconfigured s subnet keys startingRound fresh (s.withSubnet subnet, .ok [])
  | replaced {identity : R.Identity} {built : Built R} : ¬ s.SameConfig subnet keys →
      s.status.closed = false → s.identity = some identity → built.client.Quiet →
      Reconfigured s subnet keys startingRound fresh
        (s.replacedBy (ofBuilt subnet keys startingRound identity fresh.sessionId built),
          .ok (s.client.elim [] (fun c => c.takePendingMessages.2)))

/-- **A reconfiguration** is refused, leaves the client, or puts one in its place. -/
theorem reconfigure_cases (h : s.reconfigure subnet keys startingRound fresh = some r) :
    Reconfigured s subnet keys startingRound fresh r := by
  unfold reconfigure at h
  split at h
  · obtain rfl := Option.some.inj h
    exact .refused _
  · rename_i hopen
    split at h
    · obtain rfl := Option.some.inj h
      exact .refused _
    · split at h
      · rename_i hsame
        obtain rfl := Option.some.inj h
        exact .same (unchanged_iff.mp hsame)
      · rename_i hchanged
        obtain ⟨outcome, houtcome, rfl⟩ := Option.map_eq_some_iff.mp h
        obtain ⟨identity, hidentity, houtcome⟩ := Option.bind_eq_some_iff.mp houtcome
        cases outcome with
        | error e => exact .refused _
        | ok replacement =>
          obtain ⟨built, hquiet, rfl⟩ := withIdentity_eq_ok houtcome
          exact .replaced (mt unchanged_iff.mpr hchanged) (Bool.eq_false_iff.mpr hopen) hidentity
            hquiet

theorem Sound.reconfigured (hsound : s.Sound)
    (h : Reconfigured s subnet keys startingRound fresh r) : r.1.Sound := by
  cases h with
  | refused e => exact hsound
  | same _ => exact ⟨hsound.client, hsound.identity⟩
  | replaced _ _ _ hquiet =>
    exact ⟨fun _ => ⟨_, rfl, hquiet⟩, fun _ => ⟨_, rfl, rfl, rfl⟩⟩

end Reconfigure

/-! ## Whole runs -/

theorem Sound.step (hsound : s.Sound) (op : Op R) : (s.step op).Sound := by
  unfold RemoteAttestedSession.step
  cases hcall : s.call op with
  | none => exact hsound
  | some r =>
    cases op with
    | apply action draw => exact hsound.keeps (keeps_apply hcall)
    | execute sequence action draw => exact hsound.keeps (keeps_execute hcall)
    | reconfigure subnet keys startingRound fresh =>
      exact hsound.reconfigured (reconfigure_cases hcall)
    | close =>
      obtain rfl := Option.some.inj hcall
      exact ⟨nofun, nofun⟩

theorem Sound.after (hsound : s.Sound) (ops : List (Op R)) : (s.after ops).Sound := by
  induction ops using List.reverseRecOn with
  | nil => exact hsound
  | append_singleton ops op ih =>
    rw [after_concat]
    exact ih.step op

end RemoteAttestedSession
end Remote
end Anymone
