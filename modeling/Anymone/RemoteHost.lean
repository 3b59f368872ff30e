import Anymone.Discovery
import Anymone.RemoteSession

/-! # What a phone runs

A phone applies the commands of its desktop to the session it holds, once it is configured with
one.  What an application answers is never about the numbers of requests: those are the matter of
the phone and its desktop (`hostApply_unnumbered`), so the phone's program is a `RemoteProgram`.
-/

namespace Anymone
namespace Remote

/-- `HostConfig`. -/
structure HostConfig where
  subnet : Subnet
  relayExchangeKeys : List (Pubkey × ExchangePublicKeyWire)
  startingRound : Round

/-- `SessionCommand`. -/
inductive SessionCommand where
  | configure (config : HostConfig)
  | action (action : ProtocolAction)

/-- `CommandResult`. -/
inductive CommandResult where
  | configured (status : RemoteSessionStatus) (returnedPayloads : List Bytes)
  | messages (messages : List Bytes)

/-- `HostConfig::eq`. -/
def HostConfig.eq (a b : HostConfig) : Bool :=
  subnetEq a.subnet b.subnet && decide (a.relayExchangeKeys = b.relayExchangeKeys) &&
    decide (a.startingRound = b.startingRound)

/-- `ProtocolAction::eq`. -/
def ProtocolAction.eq : ProtocolAction → ProtocolAction → Bool
  | .scheduledPanetiere (.setCoverRate a), .scheduledPanetiere (.setCoverRate b)
  | .scheduledAdcnet (.setCoverRate a), .scheduledAdcnet (.setCoverRate b) => f32Eq a b
  | a, b => decide (a = b)

/-- `SessionCommand::eq`. -/
def SessionCommand.eq : SessionCommand → SessionCommand → Bool
  | .configure a, .configure b => a.eq b
  | .action a, .action b => a.eq b
  | _, _ => false

/-- `command_name`. -/
def commandName : SessionCommand → String
  | .configure _ => "configure protocol client"
  | .action (.panetiere (.prepareRound _)) => "prepare Panetiere round"
  | .action (.panetiere (.finalizeRound ..)) => "finalize Panetiere round"
  | .action (.panetiere (.acceptReceiptBatch ..)) => "accept Panetiere receipts"
  | .action (.panetiere (.buildRepair _)) => "build Panetiere repair"
  | .action (.scheduledPanetiere (.setCoverRate _)) => "set Panetiere cover rate"
  | .action (.scheduledPanetiere (.advanceRound _)) => "advance Panetiere round"
  | .action (.scheduledPanetiere (.reserveMessage _)) => "reserve Panetiere message"
  | .action (.scheduledPanetiere (.prepareRound _)) => "prepare Panetiere round"
  | .action (.scheduledPanetiere (.finalizeRound _)) => "finalize Panetiere round"
  | .action (.scheduledPanetiere (.acceptReservations _)) => "accept Panetiere reservations"
  | .action (.scheduledPanetiere (.acceptReceiptBatch ..)) => "accept Panetiere receipts"
  | .action (.scheduledPanetiere (.buildRepair _)) => "build Panetiere repair"
  | .action (.adcnet (.contribute ..)) => "contribute to ADCNet round"
  | .action (.scheduledAdcnet (.setCoverRate _)) => "set ADCNet cover rate"
  | .action (.scheduledAdcnet (.advanceToRound _)) => "advance ADCNet round"
  | .action (.scheduledAdcnet (.scheduleMessageForNextRound ..)) => "schedule ADCNet message"
  | .action (.scheduledAdcnet (.processRoundBroadcast _)) => "process ADCNet broadcast"
  | .action (.scheduledAdcnet .messagesForCurrentRound) => "collect ADCNet round messages"

variable {R : RemoteCrate}

variable (R) in
/-- What an application draws: an identity and what a session begins with, should it build one,
and what an action draws. -/
structure HostDraw where
  identity : R.Identity
  fresh : Fresh
  draw : Draw R

/-- `HostState::apply`, over the session the phone holds. -/
def hostApply (client : Option (RemoteAttestedSession R)) (command : SessionCommand) (size : Nat)
    (seed : HostDraw R) :
    Option (Option (RemoteAttestedSession R) × Except RemoteSessionError CommandResult) :=
  match command with
  | .configure config =>
      if 1048576 < size then some (client, .error .invalidConfig)
      else
        match client with
        | some session =>
            (session.reconfigure config.subnet config.relayExchangeKeys config.startingRound
              seed.fresh).map (fun r =>
                (some r.1, r.2.map (CommandResult.configured r.1.currentStatus)))
        | none =>
            -- `developer_session`.
            (RemoteAttestedSession.developer config.subnet config.relayExchangeKeys
              config.startingRound seed.identity seed.fresh).map (fun r =>
                match r with
                | .error e => (none, .error e)
                | .ok session => (some session, .ok (.configured session.currentStatus [])))
  | .action action =>
      match client with
      | none => some (none, .error (.protocol "configure the client first"))
      | some session =>
          (session.apply action seed.draw).map (fun r => (some r.1, r.2.map .messages))

/-! ## Errors of an application -/

/-- An error that is not about the number of a request. -/
@[simp] def unnumbered : RemoteSessionError → Bool
  | .requestConflict | .requestSequence _ => false
  | _ => true

theorem ne_of_unnumbered {e : RemoteSessionError} (h : unnumbered e = true) :
    e ≠ .requestConflict ∧ ∀ expected, e ≠ .requestSequence expected := by
  refine ⟨?_, fun expected => ?_⟩ <;> rintro rfl <;> cases h

/-- A computation fails with no other error. -/
structure Unnumbered {α : Type} (x : Except RemoteSessionError α) : Prop where
  fails : ∀ e, x = .error e → unnumbered e = true

namespace Unnumbered
variable {α β : Type}

@[simp] theorem ok (a : α) : Unnumbered (.ok a) := ⟨nofun⟩

@[simp] theorem error_iff {e : RemoteSessionError} :
    Unnumbered (.error e : Except RemoteSessionError α) ↔ unnumbered e = true := by
  refine ⟨fun h => h.fails e rfl, fun h => ⟨fun e' he => ?_⟩⟩
  cases he
  exact h

/-- The error of a computation is that of what it calls. -/
theorem carry {x : Except RemoteSessionError α} (hx : Unnumbered x) {e : RemoteSessionError}
    (he : x = .error e) : Unnumbered (.error e : Except RemoteSessionError β) :=
  error_iff.mpr (hx.fails e he)

theorem bind {x : Except RemoteSessionError α} {f : α → Except RemoteSessionError β}
    (hx : Unnumbered x) (hf : ∀ a, Unnumbered (f a)) : Unnumbered (x >>= f) := by
  cases x with
  | error e => exact hx.carry rfl
  | ok a => exact hf a

theorem map {x : Except RemoteSessionError α} (hx : Unnumbered x) (f : α → β) :
    Unnumbered (x.map f) := by
  cases x with
  | error e => exact hx.carry rfl
  | ok a => exact ok _

end Unnumbered

/-! ### Of a configuration -/

theorem unnumbered_validateConfig (C : SchedulerCrate) (subnet : Subnet) (startingRound : Round) :
    Unnumbered (validateConfig C subnet startingRound) := by
  have hsizes : Unnumbered (sizes subnet.protocol) := by
    cases subnet.protocol <;> simp only [sizes]
    case panetiere | adcnet | noop => simp
    all_goals split <;> simp
  unfold validateConfig
  dsimp only
  split
  · simp
  · split
    · rename_i e he
      exact hsizes.carry he
    · split <;> simp

theorem unnumbered_requireRoster (size : Nat) (subnet : Subnet) :
    Unnumbered (requireRoster size subnet) := by
  unfold requireRoster
  split <;> simp

theorem unnumbered_consensusRoster (mode : SetFormation)
    (keys : List (Pubkey × ExchangePublicKeyWire)) (subnet : Subnet) :
    Unnumbered (consensusRoster R mode keys subnet) := by
  unfold consensusRoster
  split
  · split <;> simp
  · simp

theorem unnumbered_build {subnet : Subnet} {keys : List (Pubkey × ExchangePublicKeyWire)}
    {startingRound : Round} {identity : R.Identity} {seed : ByteArr 32}
    {built : Except RemoteSessionError (Built R)}
    (h : build subnet keys startingRound identity seed = some built) : Unnumbered built := by
  unfold build at h
  split at h
  · obtain rfl := Option.some.inj h
    exact (unnumbered_requireRoster ..).bind fun _ =>
      (unnumbered_consensusRoster ..).bind fun _ => .ok _
  · obtain ⟨leaderPk, -, rfl⟩ := Option.map_eq_some_iff.mp h
    exact (unnumbered_requireRoster ..).bind fun _ =>
      (unnumbered_consensusRoster ..).bind fun _ => .ok _
  · obtain rfl := Option.some.inj h
    exact (unnumbered_requireRoster ..).bind fun _ => .ok _
  · obtain ⟨leaderPk, -, h⟩ := Option.bind_eq_some_iff.mp h
    unfold buildScheduledAdcnet at h
    dsimp only at h
    split at h
    · rename_i e he
      obtain rfl := Option.some.inj h
      exact (unnumbered_requireRoster _ _).carry he
    · split at h
      · obtain rfl := Option.some.inj h
        simp
      · split at h
        · cases h
        · obtain rfl := Option.some.inj h
          simp
  · obtain rfl := Option.some.inj h
    simp

theorem unnumbered_withIdentity {subnet : Subnet} {keys : List (Pubkey × ExchangePublicKeyWire)}
    {startingRound : Round} {identity : R.Identity} {fresh : Fresh}
    {r : Except RemoteSessionError (RemoteAttestedSession R)}
    (h : RemoteAttestedSession.withIdentity subnet keys startingRound identity fresh = some r) :
    Unnumbered r := by
  unfold RemoteAttestedSession.withIdentity at h
  split at h
  · rename_i e he
    obtain rfl := Option.some.inj h
    exact (unnumbered_validateConfig _ _ _).carry he
  · obtain ⟨built, hbuilt, rfl⟩ := Option.map_eq_some_iff.mp h
    exact (unnumbered_build hbuilt).map _

namespace RemoteAttestedSession
variable {s : RemoteAttestedSession R}

theorem unnumbered_reconfigure {subnet : Subnet} {keys : List (Pubkey × ExchangePublicKeyWire)}
    {startingRound : Round} {fresh : Fresh}
    {r : RemoteAttestedSession R × Except RemoteSessionError (List Bytes)}
    (h : s.reconfigure subnet keys startingRound fresh = some r) : Unnumbered r.2 := by
  unfold reconfigure at h
  split at h
  · obtain rfl := Option.some.inj h
    simp
  · split at h
    · rename_i e he
      obtain rfl := Option.some.inj h
      exact (unnumbered_validateConfig _ _ _).carry he
    · split at h
      · obtain rfl := Option.some.inj h
        simp
      · obtain ⟨outcome, houtcome, rfl⟩ := Option.map_eq_some_iff.mp h
        obtain ⟨identity, -, houtcome⟩ := Option.bind_eq_some_iff.mp houtcome
        have hwith := unnumbered_withIdentity houtcome
        cases outcome with
        | error e => exact hwith.carry rfl
        | ok replacement => simp

end RemoteAttestedSession

/-! ### Of an action -/

theorem unnumbered_posted {α : Type} (old : α) (replace : α → Client R) (round : Round)
    (x : Except String α) : Unnumbered (posted old replace round x).result := by
  cases x <;> simp [posted]

theorem unnumbered_performPanetiere {s : PanetiereClientSession R.toChannelCrate}
    {current : Round} {action : PanetiereAction} {p : Performed R}
    (h : performPanetiere s current action = some p) : Unnumbered p.result := by
  cases action with
  | prepareRound round =>
    obtain rfl := Option.some.inj h
    simp
  | finalizeRound round payload =>
    obtain ⟨r, -, rfl⟩ := Option.map_eq_some_iff.mp h
    dsimp only
    split <;> simp
  | acceptReceiptBatch round batch =>
    obtain rfl := Option.some.inj h
    exact unnumbered_posted ..
  | buildRepair round =>
    obtain ⟨r, -, rfl⟩ := Option.map_eq_some_iff.mp h
    simp

theorem unnumbered_decodeNative (message : Bytes) : Unnumbered (decodeNative R message) := by
  unfold decodeNative
  split
  · split <;> simp
  · simp

theorem unnumbered_performScheduledPanetiere {cfg : ScheduledClientConfig R.toScheduledCrate}
    {s : ScheduledClientSession R.toScheduledCrate} {current : Round} {spins : Nat}
    {action : ScheduledPanetiereAction} {p : Performed R}
    (h : performScheduledPanetiere cfg s current spins action = some p) : Unnumbered p.result := by
  cases action with
  | setCoverRate | advanceRound | prepareRound =>
    obtain rfl := Option.some.inj h
    simp
  | reserveMessage | acceptReceiptBatch =>
    obtain rfl := Option.some.inj h
    exact unnumbered_posted ..
  | finalizeRound round =>
    simp only [performScheduledPanetiere] at h
    split at h
    · obtain rfl := Option.some.inj h
      simp
    · obtain ⟨r, -, rfl⟩ := Option.map_eq_some_iff.mp h
      simp
  | acceptReservations message =>
    simp only [performScheduledPanetiere] at h
    split at h
    · rename_i e he
      obtain rfl := Option.some.inj h
      exact (unnumbered_decodeNative _).carry he
    · obtain rfl := Option.some.inj h
      exact unnumbered_posted ..
    · obtain rfl := Option.some.inj h
      simp
  | buildRepair round =>
    obtain ⟨r, -, rfl⟩ := Option.map_eq_some_iff.mp h
    simp

theorem unnumbered_performAdcnet (s : AdcnetClientSession R) (current : Round)
    (action : AdcnetAction) : Unnumbered (performAdcnet s current action).result := by
  cases action
  simp only [performAdcnet]
  split <;> simp

theorem unnumbered_performScheduledAdcnet (cfg : ScheduledAdcnetClientConfig R.adcnet)
    (rate : U32) (s : ScheduledAdcnetClientSession R.adcnet) (current : Round) (draw : Draw R)
    (action : ScheduledAdcnetAction) :
    Unnumbered (performScheduledAdcnet cfg rate s current draw action).result := by
  cases action <;> simp only [performScheduledAdcnet]
  case setCoverRate => simp
  case scheduleMessageForNextRound | processRoundBroadcast => exact unnumbered_posted ..
  all_goals split <;> simp

theorem unnumbered_perform {c : Client R} {current : Round} {draw : Draw R}
    {action : ProtocolAction} {p : Performed R} (h : c.perform current draw action = some p) :
    Unnumbered p.result := by
  cases action <;> cases c <;> simp only [Client.perform] at h
  case panetiere.panetiere => exact unnumbered_performPanetiere h
  case scheduledPanetiere.scheduledPanetiere => exact unnumbered_performScheduledPanetiere h
  all_goals obtain rfl := Option.some.inj h
  case adcnet.adcnet => exact unnumbered_performAdcnet ..
  case scheduledAdcnet.scheduledAdcnet => exact unnumbered_performScheduledAdcnet ..
  all_goals simp

namespace RemoteAttestedSession
variable (s : RemoteAttestedSession R)

theorem unnumbered_checkRound (round : Round) : Unnumbered (s.checkRound round) := by
  unfold checkRound
  split <;> simp

theorem unnumbered_checkPayload (payload : Bytes) : Unnumbered (s.checkPayload payload) := by
  unfold checkPayload
  split <;> simp

theorem unnumbered_checkPrepare (round : Round) : Unnumbered (s.checkPrepare round) := by
  refine (s.unnumbered_checkRound round).bind fun _ => ?_
  split <;> simp

theorem unnumbered_checkRepair (round : Round) : Unnumbered (s.checkRepair round) := by
  unfold checkRepair
  split
  · simp
  · split
    · simp
    · split
      · simp
      · split <;> simp

theorem unnumbered_checkQueue (payload : Bytes) : Unnumbered (s.checkQueue payload) := by
  refine (s.unnumbered_checkPayload payload).bind fun _ => ?_
  dsimp only
  split <;> simp

theorem unnumbered_checkRate (rate : U32) : Unnumbered (checkRate rate) := by
  unfold checkRate
  split <;> simp

theorem unnumbered_check (action : ProtocolAction) : Unnumbered (s.check action) := by
  unfold check
  split
  · exact s.unnumbered_checkPrepare _
  · exact s.unnumbered_checkPrepare _
  · exact s.unnumbered_checkRepair _
  · exact s.unnumbered_checkRepair _
  · exact (s.unnumbered_checkPayload _).map _
  · exact (s.unnumbered_checkPayload _).map _
  · exact s.unnumbered_checkQueue _
  · exact s.unnumbered_checkQueue _
  · exact unnumbered_checkRate _
  · exact unnumbered_checkRate _
  · exact (s.unnumbered_checkRound _).map _
  · split
    · simp
    · exact (s.unnumbered_checkRound _).map _
  · simp

theorem unnumbered_finalizedAnswer {action : ProtocolAction} {input : Digest}
    {answer : Except RemoteSessionError (List Bytes)}
    (h : s.finalizedAnswer action input = some answer) : Unnumbered answer := by
  obtain ⟨round, -, h⟩ := Option.bind_eq_some_iff.mp h
  obtain ⟨finalized, -, h⟩ := Option.bind_eq_some_iff.mp h
  split at h
  · obtain rfl := Option.some.inj h
    simp
  · split at h
    · obtain rfl := Option.some.inj h
      split <;> simp
    · cases h

theorem unnumbered_early {action : ProtocolAction} {input : Digest}
    {answer : Except RemoteSessionError (List Bytes)} (h : s.early action input = some answer) :
    Unnumbered answer := by
  unfold early at h
  split at h
  · rename_i hanswer
    obtain rfl := Option.some.inj h
    exact s.unnumbered_finalizedAnswer hanswer
  · split at h
    · rename_i e he
      obtain rfl := Option.some.inj h
      cases hround : action.finalizes s.status.currentRound with
      | none =>
        rw [hround] at he
        cases he
      | some round =>
        rw [hround] at he
        exact (s.unnumbered_checkRound round).carry he
    · split at h
      · rename_i e he
        obtain rfl := Option.some.inj h
        exact (s.unnumbered_check action).carry he
      · obtain rfl := Option.some.inj h
        simp
      · cases h

theorem unnumbered_apply {action : ProtocolAction} {draw : Draw R}
    {r : RemoteAttestedSession R × Except RemoteSessionError (List Bytes)}
    (h : s.apply action draw = some r) : Unnumbered r.2 := by
  unfold RemoteAttestedSession.apply at h
  split at h
  · obtain rfl := Option.some.inj h
    simp
  · unfold executeAction at h
    split at h
    · rename_i hearly
      obtain rfl := Option.some.inj h
      exact s.unnumbered_early hearly
    · split at h
      · obtain rfl := Option.some.inj h
        simp
      · obtain ⟨p, hp, rfl⟩ := Option.map_eq_some_iff.mp h
        exact unnumbered_perform hp

end RemoteAttestedSession

/-- **No application speaks of numbers.** -/
theorem hostApply_unnumbered {client : Option (RemoteAttestedSession R)}
    {command : SessionCommand} {size : Nat} {seed : HostDraw R}
    {r : Option (RemoteAttestedSession R) × Except RemoteSessionError CommandResult}
    (h : hostApply client command size seed = some r) : Unnumbered r.2 := by
  cases command with
  | configure config =>
    simp only [hostApply] at h
    split at h
    · obtain rfl := Option.some.inj h
      simp
    · cases client with
      | some session =>
        obtain ⟨r, hr, rfl⟩ := Option.map_eq_some_iff.mp h
        exact (RemoteAttestedSession.unnumbered_reconfigure hr).map _
      | none =>
        obtain ⟨r, hr, rfl⟩ := Option.map_eq_some_iff.mp h
        cases r with
        | error e => exact (unnumbered_withIdentity hr).carry rfl
        | ok session => simp
  | action action =>
    cases client with
    | none =>
      obtain rfl := Option.some.inj h
      simp
    | some session =>
      obtain ⟨r, hr, rfl⟩ := Option.map_eq_some_iff.mp h
      exact (session.unnumbered_apply hr).map _

/-- The program of a phone; `bincode::serialize` of a command is a parameter. -/
def hostProgram (R : RemoteCrate) (commandBytes : SessionCommand → Bytes) : RemoteProgram where
  Client := Option (RemoteAttestedSession R)
  Command := SessionCommand
  Result := CommandResult
  Status := Option RemoteSessionStatus
  Digest := Digest
  Seed := HostDraw R
  digestEq := inferInstance
  commandEq := SessionCommand.eq
  bytes := commandBytes
  digest := R.sha256
  commandName := commandName
  status client := client.map RemoteAttestedSession.currentStatus
  close client := client.map RemoteAttestedSession.close
  apply := hostApply
  apply_error h := ne_of_unnumbered ((hostApply_unnumbered h).fails _ rfl)

end Remote
end Anymone
