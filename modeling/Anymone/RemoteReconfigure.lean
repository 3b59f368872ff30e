import Anymone.RemoteSound
import Anymone.WireParty

/-! # Reconfiguring a phone's session

`reconfigure` checks and builds before it takes anything apart: a call that fails leaves the session
as it was, one that puts another client in place returns what the old one had pending, and one that
finds the configuration unchanged is not noticed by any later call (`reconfigure_all_or_nothing`).
-/

namespace Anymone
namespace Remote
variable {R : RemoteCrate}

namespace RemoteAttestedSession
variable {s s' : RemoteAttestedSession R}

/-! ## What is not noticed -/

/-- Two sessions that differ in the description of their subnet only, and there in nothing a call
reads. -/
def Alike (s s' : RemoteAttestedSession R) : Prop :=
  ∃ subnet : Subnet, subnet.id = s.status.subnet.id ∧ subnet.protocol = s.status.subnet.protocol ∧
    subnet.relays = s.status.subnet.relays ∧ s' = s.withSubnet subnet

theorem Alike.refl (s : RemoteAttestedSession R) : s.Alike s := ⟨_, rfl, rfl, rfl, rfl⟩

/-- What two sessions that answer alike do alike. -/
theorem alike_of_call {op : Op R}
    (f : RemoteAttestedSession R × Except RemoteSessionError (List Bytes) →
      RemoteAttestedSession R) (halike : s.Alike s')
    (hcall : s'.call op = (s.call op).map (fun r => (f r, r.2)))
    (hf : ∀ r, s.call op = some r → r.1.Alike (f r)) :
    s'.answer op = s.answer op ∧ (s.step op).Alike (s'.step op) := by
  unfold answer RemoteAttestedSession.step
  rw [hcall]
  cases h : s.call op with
  | none => exact ⟨rfl, halike⟩
  | some r => exact ⟨rfl, hf r h⟩

theorem settled_withSubnet (subnet : Subnet) (action : ProtocolAction) (input : Digest)
    (p : Performed R) : (s.withSubnet subnet).settled action input p =
      (s.settled action input p).withSubnet subnet := by
  unfold settled
  split <;> rfl

theorem executeAction_withSubnet (subnet : Subnet) (action : ProtocolAction) (input : Digest)
    (draw : Draw R) : (s.withSubnet subnet).executeAction action input draw =
      (s.executeAction action input draw).map (fun r => (r.1.withSubnet subnet, r.2)) := by
  have hearly : (s.withSubnet subnet).early action input = s.early action input := rfl
  have hclient : (s.withSubnet subnet).client = s.client := rfl
  unfold executeAction
  rw [hearly, hclient]
  cases s.early action input with
  | some answer => rfl
  | none =>
    cases s.client with
    | none => rfl
    | some c =>
      show (c.perform s.status.currentRound draw action).map _ =
        ((c.perform s.status.currentRound draw action).map _).map _
      rw [Option.map_map]
      refine congrArg (Option.map · _) (funext fun p => ?_)
      rw [settled_withSubnet]
      rfl

theorem apply_withSubnet (subnet : Subnet) (action : ProtocolAction) (draw : Draw R) :
    (s.withSubnet subnet).apply action draw =
      (s.apply action draw).map (fun r => (r.1.withSubnet subnet, r.2)) := by
  have hclosed : (s.withSubnet subnet).status.closed = s.status.closed := rfl
  unfold apply
  rw [hclosed]
  split
  · rfl
  · exact executeAction_withSubnet ..

theorem executeNew_withSubnet (subnet : Subnet) (sequence : U64) (action : ProtocolAction)
    (draw : Draw R) : (s.withSubnet subnet).executeNew sequence action draw =
      (s.executeNew sequence action draw).map (fun r => (r.1.withSubnet subnet, r.2)) := by
  have hnext : (s.withSubnet subnet).status.nextRequest = s.status.nextRequest := rfl
  unfold executeNew
  rw [hnext]
  split
  · rfl
  · cases sequence.next? with
    | none => rfl
    | some next =>
      have hcounted := executeAction_withSubnet
        (s := { s with status := { s.status with nextRequest := next } }) subnet action
        (actionDigest R action) draw
      dsimp only at hcounted ⊢
      rw [Option.map_map]
      refine (congrArg (Option.map _) hcounted).trans ?_
      rw [Option.map_map]
      rfl

theorem execute_withSubnet (subnet : Subnet) (sequence : U64) (action : ProtocolAction)
    (draw : Draw R) : (s.withSubnet subnet).execute sequence action draw =
      (s.execute sequence action draw).map (fun r => (r.1.withSubnet subnet, r.2)) := by
  have hclosed : (s.withSubnet subnet).status.closed = s.status.closed := rfl
  have hreply : (s.withSubnet subnet).lastReply = s.lastReply := rfl
  unfold execute
  rw [hclosed, hreply]
  split
  · rfl
  · cases s.lastReply with
    | none => exact executeNew_withSubnet ..
    | some reply =>
      dsimp only
      split
      · rfl
      · exact executeNew_withSubnet ..

theorem reconfigure_withSubnet {subnet subnet' : Subnet}
    {keys : List (Pubkey × ExchangePublicKeyWire)}
    (hsame : (s.withSubnet subnet).unchanged subnet' keys = s.unchanged subnet' keys)
    (startingRound : Round) (fresh : Fresh) :
    (s.withSubnet subnet).reconfigure subnet' keys startingRound fresh =
      (s.reconfigure subnet' keys startingRound fresh).map
        (fun r => (if r.2.isOk then r.1 else r.1.withSubnet subnet, r.2)) := by
  have hclosed : (s.withSubnet subnet).status.closed = s.status.closed := rfl
  have hidentity : (s.withSubnet subnet).identity = s.identity := rfl
  unfold reconfigure
  rw [hclosed, hsame, hidentity]
  split
  · rfl
  · split
    · rfl
    · split
      · rfl
      · rw [Option.map_map]
        refine congrArg (Option.map · _) (funext fun outcome => ?_)
        cases outcome <;> rfl

/-- A session keeps the description of its subnet while it executes actions. -/
theorem Keeps.alike (hkeeps : s.Keeps s') {subnet : Subnet} (hid : subnet.id = s.status.subnet.id)
    (hprotocol : subnet.protocol = s.status.subnet.protocol)
    (hrelays : subnet.relays = s.status.subnet.relays) : s'.Alike (s'.withSubnet subnet) := by
  obtain ⟨round, next, hstatus⟩ := hkeeps.status
  have hsubnet : s'.status.subnet = s.status.subnet := by rw [hstatus]
  exact ⟨subnet, hsubnet ▸ hid, hsubnet ▸ hprotocol, hsubnet ▸ hrelays, rfl⟩

/-- **Alike sessions answer alike**, and stay so. -/
theorem Alike.step (halike : s.Alike s') (op : Op R) :
    s'.answer op = s.answer op ∧ (s.step op).Alike (s'.step op) := by
  obtain ⟨subnet, hid, hprotocol, hrelays, rfl⟩ := halike
  have halike : s.Alike (s.withSubnet subnet) := ⟨subnet, hid, hprotocol, hrelays, rfl⟩
  cases op with
  | apply action draw =>
    exact alike_of_call (·.1.withSubnet subnet) halike (apply_withSubnet ..)
      (fun r hr => (keeps_apply hr).alike hid hprotocol hrelays)
  | execute sequence action draw =>
    exact alike_of_call (·.1.withSubnet subnet) halike (execute_withSubnet ..)
      (fun r hr => (keeps_execute hr).alike hid hprotocol hrelays)
  | close =>
    exact alike_of_call (·.1.withSubnet subnet) halike rfl
      (fun r hr => by
        obtain rfl := Option.some.inj hr
        exact ⟨subnet, hid, hprotocol, hrelays, rfl⟩)
  | reconfigure subnet' keys startingRound fresh =>
    have hunchanged : (s.withSubnet subnet).unchanged subnet' keys = s.unchanged subnet' keys := by
      unfold unchanged withSubnet
      dsimp only
      rw [hid, hprotocol, hrelays]
    refine alike_of_call (fun r => if r.2.isOk then r.1 else r.1.withSubnet subnet) halike
      (reconfigure_withSubnet hunchanged ..) (fun r hr => ?_)
    cases reconfigure_cases hr with
    | refused e => exact halike
    | same _ => exact Alike.refl _
    | replaced _ _ _ _ => exact Alike.refl _

theorem Alike.answers (halike : s.Alike s') (ops : List (Op R)) :
    s'.answers ops = s.answers ops ∧ (s.after ops).Alike (s'.after ops) := by
  induction ops using List.reverseRecOn with
  | nil => exact ⟨rfl, halike⟩
  | append_singleton ops op ih =>
    obtain ⟨hanswers, hafter⟩ := ih
    obtain ⟨hanswer, hstep⟩ := hafter.step op
    refine ⟨?_, by rw [after_concat, after_concat]; exact hstep⟩
    unfold RemoteAttestedSession.answers at hanswers ⊢
    rw [Trace.observed_concat, Trace.observed_concat, hanswers]
    exact congrArg (_ ++ [·]) hanswer

/-- **A reconfiguration is all or nothing.**  One that fails leaves the session as it was; one that
finds another configuration returns what waits in the outgoing client, which is all there is of
payloads, and keeps the session's name and its identity; one that finds the same configuration
returns nothing, and no later call is answered otherwise. -/
theorem reconfigure_all_or_nothing {subnet₀ : Subnet}
    {keys₀ : List (Pubkey × ExchangePublicKeyWire)} {round₀ : Round} {identity : R.Identity}
    {fresh₀ : Fresh} (hstart : developer subnet₀ keys₀ round₀ identity fresh₀ = some (.ok s))
    (ops : List (Op R)) {subnet : Subnet} {keys : List (Pubkey × ExchangePublicKeyWire)}
    {startingRound : Round} {fresh : Fresh}
    {r : RemoteAttestedSession R × Except RemoteSessionError (List Bytes)}
    (hcall : (s.after ops).reconfigure subnet keys startingRound fresh = some r) :
    (∀ e, r.2 = .error e → r.1 = s.after ops) ∧
    (∀ payloads, r.2 = .ok payloads → ¬ (s.after ops).SameConfig subnet keys →
      (∃ c, (s.after ops).client = some c ∧ c.Quiet ∧ payloads = c.waiting) ∧
      (∃ id, (s.after ops).identity = some id ∧ r.1.identity = some id) ∧
      r.1.status.sessionId = (s.after ops).status.sessionId ∧
      r.1.status.participant = (s.after ops).status.participant ∧
      r.1.status.exchangeKeys = (s.after ops).status.exchangeKeys) ∧
    ∀ payloads, r.2 = .ok payloads → (s.after ops).SameConfig subnet keys →
      payloads = [] ∧ r.1 = (s.after ops).withSubnet subnet ∧
      ∀ later : List (Op R), r.1.answers later = (s.after ops).answers later ∧
        ((s.after ops).after later).Alike (r.1.after later) := by
  have hsound := (sound_withIdentity hstart).after ops
  generalize s.after ops = s at *
  refine ⟨fun e he => ?_, fun payloads hok hchanged => ?_, fun payloads hok hsame => ?_⟩
  · cases reconfigure_cases hcall with
    | refused e => rfl
    | same _ => cases he
    | replaced _ _ _ _ => cases he
  · cases reconfigure_cases hcall with
    | refused e => cases hok
    | same hsame => exact absurd hsame hchanged
    | replaced _ hopen hidentity _ =>
      obtain ⟨c, hc, hquiet⟩ := hsound.client hopen
      obtain ⟨id, hid, hparticipant, hexchange⟩ := hsound.identity hopen
      obtain rfl : _ = id := Option.some.inj (hidentity.symm.trans hid)
      refine ⟨⟨c, hc, hquiet, ?_⟩, ⟨_, hid, rfl⟩, rfl, hparticipant.symm, hexchange.symm⟩
      rw [hc, Option.elim_some, Client.takePendingMessages_eq] at hok
      exact (Except.ok.inj hok).symm
  · cases reconfigure_cases hcall with
    | refused e => cases hok
    | replaced hchanged _ _ _ => exact absurd hsame hchanged
    | same _ =>
      obtain rfl := Except.ok.inj hok
      -- what is new of the subnet is read by no later answer
      have halike : s.Alike (s.withSubnet subnet) :=
        ⟨subnet, hsame.id, hsame.protocol, hsame.relays, rfl⟩
      exact ⟨rfl, rfl, halike.answers⟩

end RemoteAttestedSession

/-! ## A phone -/

namespace Toy

/-- Scheduled ADCNet without cryptography. -/
def toyScheduledAdcnet : ScheduledAdcnetCrate where
  Messager := Unit
  PrivateKey := Pubkey
  SignedKey := Bytes
  RoundBroadcast := Int
  AuctionData := Bytes
  ClientMessage := Bytes
  SignedMessage := Bytes
  SignedResult := Unit
  Seed := Unit
  roundNumber := id
  broadcastBytes round := leBytes 8 round.toNat
  fromMessage payload _ := payload
  prepareMessage _ _ _ message _ _ := .ok (message, true)
  sign _ message := .ok message
  recoverResult _ := .error "unsigned"

/-- A phone without cryptography: an ADCNet contribution is the payload. -/
def toyRemote : RemoteCrate where
  toWireCrate := toyWire
  exchangeKeys id := ⟨id.1, id.1, id.1⟩
  sealKeyFromBytes _ := some ()
  setKeyFromSec1 bytes := some (bytes.headD 0)
  pronyForMessages _ _ := ()
  forMessages _ _ _ := ()
  forSymbols _ _ _ := ()
  plaintextModulus _ := 2
  setupRsMode _ n _ t _ _ _ _ := ⟨n, ⟨t, n⟩, none, t, rfl⟩
  mse_forSymbols _ _ _ := rfl
  nServers_setupRsMode _ _ _ _ _ _ _ _ := rfl
  nPolys_le_setupRsMode _ _ _ _ _ _ _ _ _ := le_rfl
  actionBytes
    | .adcnet (.contribute round payload) => 0 :: leBytes 8 round.val ++ payload.elim [0] (1 :: ·)
    | .scheduledAdcnet (.scheduleMessageForNextRound payload bid) =>
        1 :: leBytes 4 bid.val ++ payload
    | _ => []
  encodeMessageError _ _ := "too long"
  decodeError _ := "not a message"
  adcnet := toyScheduledAdcnet
  ExchangeKey := Bytes
  ExchangePrivateKey := Bytes
  SignedContribution := Bytes
  exchangeKeyFromSec1 := some
  exchangePrivateKey id := .ok id.1
  publicOf key := key
  privateEcdh _ key := key
  ecdh _ key := key
  exchangePubkey id := id.1
  toAdcnetSigningKey id := id
  signKey _ key := .ok key.xpub
  clientContribute _ _ _ _ payload rng := (.ok (payload.getD []), rng)
  adcnetClientBytes contribution _ := contribution
  messager _ _ := ()
  emptyBroadcast _ round := round
  scheduledAdcnetBytes _ := []
  readScheduledAdcnet _ := .error "not a message"

def relay : Pubkey := .filled 32 1

def phone : Pubkey := .filled 32 2

def relayKeys : List (Pubkey × ExchangePublicKeyWire) := [(relay, ⟨[1], [2], [3]⟩)]

def scheduled : Subnet := ⟨0, [relay], .scheduledAdcnet ⟨1000, 1024, 4, 1, 0, 4⟩, 1065353216, false⟩

def ordinary : Subnet := ⟨0, [relay], .adcnet ⟨1000, 64, 1, 0, 4, none⟩, 1065353216, false⟩

def fresh : Fresh := ⟨.filled 32 0, .filled 32 7⟩

def draw : Draw toyRemote := ⟨1, fun _ => true, ()⟩

/-- The phone over a client. -/
def phoneOver (subnet : Subnet) (client : Client toyRemote) (protocol : RemoteProtocol)
    (maxPayload : U64) : RemoteAttestedSession toyRemote :=
  .ofBuilt subnet relayKeys 0 phone fresh.sessionId ⟨client, protocol, maxPayload⟩

/-- A scheduled ADCNet phone. -/
def start : RemoteAttestedSession toyRemote :=
  phoneOver scheduled (.scheduledAdcnet ⟨(), phone, phone.1, relay, 1024, 1⟩ AnymoneInner.oneBits
    (.new (0 : Int) 1)) .scheduledAdcnet 1024

/-- It takes a payload. -/
def takesPayload : List (Op toyRemote) :=
  [.apply (.scheduledAdcnet (.scheduleMessageForNextRound [1, 2] 1)) draw]

theorem start_eq : RemoteAttestedSession.developer scheduled relayKeys 0 phone fresh =
    some (.ok start) := by
  rfl

/-- The phone with the payload, reconfigured at round 1. -/
def reconfigured (subnet : Subnet) :
    Option (RemoteAttestedSession toyRemote × Except RemoteSessionError (List Bytes)) :=
  (start.after takesPayload).reconfigure subnet relayKeys 1 fresh

/-- The subnet with no relay, and with another cover rate. -/
def empty : Subnet := { scheduled with relays := [] }

def covered : Subnet := { scheduled with coverRate := 0 }

end Toy

open Toy in
theorem reconfigure_all_or_nothing_toy :
    ((reconfigured empty).get rfl).1 = start.after takesPayload ∧
    (∃ c, (start.after takesPayload).client = some c ∧ c.Quiet ∧ [[1, 2]] = c.waiting) ∧
    ∀ later : List (Op toyRemote), ((reconfigured covered).get rfl).1.answers later =
      (start.after takesPayload).answers later := by
  refine ⟨?_, ?_, fun later => ?_⟩
  · exact (RemoteAttestedSession.reconfigure_all_or_nothing start_eq takesPayload
      (Option.some_get rfl).symm).1 .invalidConfig rfl
  · exact ((RemoteAttestedSession.reconfigure_all_or_nothing start_eq takesPayload
      (r := (reconfigured ordinary).get rfl) (Option.some_get rfl).symm).2.1 [[1, 2]] rfl
      (fun h => absurd h.protocol (by decide))).1
  · exact (((RemoteAttestedSession.reconfigure_all_or_nothing start_eq takesPayload
      (r := (reconfigured covered).get rfl) (Option.some_get rfl).symm).2.2 [] rfl
      ⟨rfl, rfl, rfl, fun _ _ => rfl⟩).2.2 later).1

end Remote
end Anymone
