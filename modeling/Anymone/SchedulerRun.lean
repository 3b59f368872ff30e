import Anymone.SchedulerTick
import Anymone.Trace

/-! # Runs of a scheduling core

The calls a committee member's daemon makes on its core, in any order, and what a
single call can change of the two things approval rests on: what the registrations
stated (`Directory`), and the approvals the core holds (`Signed`).

Only a registration changes the directory, and no call takes an approval back.
-/

namespace Anymone
variable {C : SchedulerCrate} {O : ObserverSessions}

/-- A call on a core. -/
inductive SchedulerOp (C : SchedulerCrate) where
  | registration (reg : Registration)
  | decodedBody (proposal : SignedProposal C)
  | committeeSig (sig : CommitteeSig)
  | publishedConfig (config : C.Config)
  | faultReport (sender : Pubkey) (report : FaultReport) (nowUnixMs : U64)
  | observedFaults (faults : List Fault) (nowUnixMs : U64)
  | subnetMessage (subnet : SubnetId) (sender : Pubkey) (bytes : Bytes)
  | setCoverRate (rate : U32)
  | tick (round : Round) (nowUnixMs clockMs : U64)

/-- What the registrations stated: the maps of the core that only they write. -/
structure Directory where
  services : OrdMap ServiceTag Pubkey
  relayXpubs : OrdMap Pubkey ExchangePublicKeyWire
  relayClientAddrs : OrdMap Pubkey Text
  nodeRpcUrls : OrdMap Pubkey Text
  serviceDescriptorUrls : OrdMap ServiceTag Text
  watchers : OrdSet Pubkey

namespace SchedulerCore
variable {cfg : SchedulerConfig C} {s s' s'' : SchedulerCore O}

/-- The state after one call. -/
def apply (cfg : SchedulerConfig C) (s : SchedulerCore O) : SchedulerOp C → SchedulerCore O
  | .registration reg => s.onRegistration reg
  | .decodedBody proposal => (s.onDecodedBody cfg proposal).1
  | .committeeSig sig => (s.onCommitteeSig cfg sig).1
  | .publishedConfig config => (s.onPublishedConfig cfg config).1
  | .faultReport sender report now => s.onFaultReport cfg sender report now
  | .observedFaults faults now => s.applyObservedFaults cfg faults now
  | .subnetMessage subnet sender bytes => s.onSubnetMessage subnet sender bytes
  | .setCoverRate rate => s.setCoverRate rate
  | .tick round now clock => (s.tick cfg round now clock).1

/-- The actions one call returns. -/
def actions (cfg : SchedulerConfig C) (s : SchedulerCore O) :
    SchedulerOp C → List (SchedulerAction C)
  | .decodedBody proposal => (s.onDecodedBody cfg proposal).2
  | .committeeSig sig => (s.onCommitteeSig cfg sig).2
  | .tick round now clock => (s.tick cfg round now clock).2
  | .registration _ | .publishedConfig _ | .faultReport .. | .observedFaults .. | .subnetMessage ..
  | .setCoverRate _ => []

/-- Whether a registration is ingested: a relay's is ignored during its backoff. -/
def ingests (s : SchedulerCore O) : Registration → Bool
  | .relay pubkey .. => !s.integrityOffenders.contains pubkey
  | .service .. | .watcher .. => true

/-- The registration one call ingests. -/
def ingestedBy (s : SchedulerCore O) : SchedulerOp C → List Registration
  | .registration reg => if s.ingests reg then [reg] else []
  | _ => []

/-- The state after a list of calls on a new core. -/
def after (O : ObserverSessions) (cfg : SchedulerConfig C) (ops : List (SchedulerOp C)) :
    SchedulerCore O :=
  Trace.run (new cfg) (apply cfg) ops

/-- Everything the calls returned. -/
def performed (O : ObserverSessions) (cfg : SchedulerConfig C) (ops : List (SchedulerOp C)) :
    List (SchedulerAction C) :=
  Trace.observed (new (O := O) cfg) (apply cfg) (actions cfg) ops

/-- The registrations ingested, oldest first. -/
def ingested (O : ObserverSessions) (cfg : SchedulerConfig C) (ops : List (SchedulerOp C)) :
    List Registration :=
  Trace.observed (new (O := O) cfg) (apply cfg) ingestedBy ops

@[simp] theorem after_concat (ops : List (SchedulerOp C)) (op : SchedulerOp C) :
    after O cfg (ops ++ [op]) = (after O cfg ops).apply cfg op :=
  Trace.run_concat ..

@[simp] theorem performed_concat (ops : List (SchedulerOp C)) (op : SchedulerOp C) :
    performed O cfg (ops ++ [op]) = performed O cfg ops ++ (after O cfg ops).actions cfg op :=
  Trace.observed_concat ..

@[simp] theorem ingested_concat (ops : List (SchedulerOp C)) (op : SchedulerOp C) :
    ingested O cfg (ops ++ [op]) = ingested O cfg ops ++ (after O cfg ops).ingestedBy op :=
  Trace.observed_concat ..

/-! ## What a call keeps -/

/-- The directory of a core. -/
def directory (s : SchedulerCore O) : Directory :=
  ⟨s.services, s.relayXpubs, s.relayClientAddrs, s.nodeRpcUrls, s.serviceDescriptorUrls,
    s.watchers⟩

/-- The core holds `signer`'s approval of a canonical body. -/
def Signed (s : SchedulerCore O) (canonical : Bytes) (signer : Pubkey) : Prop :=
  ∃ entry, s.sigs.get? canonical = some entry ∧ entry.contains signer = true

/-- What every call but a registration keeps: the directory, with no relay registered
anew, and the approvals held. -/
structure Keeps (s s' : SchedulerCore O) : Prop where
  directory : s'.directory = s.directory
  registered : ∀ {pk}, s'.registered.contains pk = true → s.registered.contains pk = true
  signed : ∀ {canonical signer}, s.Signed canonical signer → s'.Signed canonical signer

theorem Keeps.refl (s : SchedulerCore O) : Keeps s s := ⟨rfl, fun h => h, fun h => h⟩

theorem Keeps.trans (h : Keeps s s') (h' : Keeps s' s'') : Keeps s s'' :=
  ⟨h'.directory.trans h.directory, h.registered ∘ h'.registered, h'.signed ∘ h.signed⟩

theorem signed_recordSig {canonical canonical' : Bytes} {signer signer' : Pubkey} {sig : Bytes}
    {sigs : OrdMap Bytes (OrdMap Pubkey Bytes)} :
    (∃ entry, (recordSig sigs canonical signer sig).get? canonical' = some entry ∧
        entry.contains signer' = true) ↔
      (canonical' = canonical ∧ signer' = signer) ∨
        ∃ entry, sigs.get? canonical' = some entry ∧ entry.contains signer' = true := by
  unfold recordSig
  rw [OrdMap.get?_insert]
  by_cases hc : canonical' = canonical
  · subst hc
    by_cases hs : signer' = signer
    · simp [hs, OrdMap.contains]
    · cases hget : sigs.get? canonical' with
      | none => simp [hs, OrdMap.contains]
      | some entry => simp [hs, OrdMap.contains]
  · simp [hc]

theorem keeps_recordSig (s : SchedulerCore O) (canonical : Bytes) (signer : Pubkey) (sig : Bytes) :
    Keeps s { s with sigs := recordSig s.sigs canonical signer sig } :=
  ⟨rfl, fun h => h, fun h => signed_recordSig.mpr (Or.inr h)⟩

/-! ### Faults and sizing -/

/-- What faults and sizing leave alone: the directory, the learned network, the
version counters and the approvals. -/
structure Ledger where
  directory : Directory
  lastAcceptedRound : Option Round
  epochUnixMs : Option U64
  subnetRoundMs : OrdMap SubnetId U64
  currentSubnetsSig : List SubnetSig
  lastContent : Option Bytes
  publicRound : Round
  publishedRound : Option Round
  sigs : OrdMap Bytes (OrdMap Pubkey Bytes)
  published : OrdSet Bytes

/-- The ledger of a core. -/
def ledger (s : SchedulerCore O) : Ledger :=
  ⟨s.directory, s.lastAcceptedRound, s.epochUnixMs, s.subnetRoundMs, s.currentSubnetsSig,
    s.lastContent, s.publicRound, s.publishedRound, s.sigs, s.published⟩

/-- The ledger stays and no relay is registered anew. -/
structure Quiet (s s' : SchedulerCore O) : Prop where
  ledger : s'.ledger = s.ledger
  registered : ∀ {pk}, s'.registered.contains pk = true → s.registered.contains pk = true

theorem Quiet.refl (s : SchedulerCore O) : Quiet s s := ⟨rfl, fun h => h⟩

theorem Quiet.trans (h : Quiet s s') (h' : Quiet s' s'') : Quiet s s'' :=
  ⟨h'.ledger.trans h.ledger, h.registered ∘ h'.registered⟩

theorem Quiet.keeps (h : Quiet s s') : Keeps s s' := by
  have hsigs : s'.sigs = s.sigs := congrArg Ledger.sigs h.ledger
  refine ⟨congrArg Ledger.directory h.ledger, h.registered, ?_⟩
  rintro canonical signer ⟨entry, hentry, hmem⟩
  exact ⟨entry, hsigs ▸ hentry, hmem⟩

theorem Quiet.foldl {α : Type} {f : SchedulerCore O → α → SchedulerCore O}
    (hf : ∀ s a, Quiet s (f s a)) (l : List α) : ∀ s, Quiet s (l.foldl f s) := by
  induction l with
  | nil => exact Quiet.refl
  | cons a l ih =>
    intro s
    rw [List.foldl_cons]
    exact (hf s a).trans (ih _)

theorem quiet_sidelineOne (now : U64) (integrity : Bool) (s : SchedulerCore O) (pk : Pubkey) :
    Quiet s (s.sidelineOne now integrity pk) := by
  refine ⟨rfl, ?_⟩
  intro pk' h
  unfold OrdMap.contains at h ⊢
  rw [show (s.sidelineOne now integrity pk).registered = s.registered.erase pk from rfl,
    OrdMap.get?_erase] at h
  split_ifs at h
  · cases h
  · exact h

theorem quiet_applyFault (now : U64) (s : SchedulerCore O) (fault : Fault) :
    Quiet s (s.applyFault now fault) := by
  unfold applyFault
  split
  · exact Quiet.foldl (quiet_sidelineOne now _) _ s
  · exact Quiet.refl s

theorem quiet_applyObservedFaults (cfg : SchedulerConfig C) (s : SchedulerCore O)
    (faults : List Fault) (now : U64) : Quiet s (s.applyObservedFaults cfg faults now) := by
  unfold applyObservedFaults
  split
  · exact Quiet.foldl (quiet_applyFault now) faults s
  · exact Quiet.refl s

theorem quiet_onFaultReport (cfg : SchedulerConfig C) (s : SchedulerCore O) (sender : Pubkey)
    (report : FaultReport) (now : U64) : Quiet s (s.onFaultReport cfg sender report now) := by
  unfold onFaultReport
  split
  · exact Quiet.refl s
  · split
    · exact Quiet.refl s
    · refine Quiet.trans ?_ (quiet_applyObservedFaults cfg _ _ now)
      exact ⟨rfl, fun h => h⟩

theorem quiet_onSubnetMessage (s : SchedulerCore O) (subnet : SubnetId) (sender : Pubkey)
    (bytes : Bytes) : Quiet s (s.onSubnetMessage subnet sender bytes) := by
  unfold onSubnetMessage
  split
  · exact ⟨rfl, fun h => h⟩
  · exact Quiet.refl s

theorem quiet_endObserverRound (cfg : SchedulerConfig C) (round : Round) (now : U64)
    (s : SchedulerCore O) (id : SubnetId) : Quiet s (s.endObserverRound cfg round now id) := by
  unfold endObserverRound
  split
  · exact Quiet.refl s
  · dsimp only
    split
    · exact ⟨rfl, fun h => h⟩
    · refine Quiet.trans ?_ (quiet_applyObservedFaults cfg _ _ now)
      exact ⟨rfl, fun h => h⟩

theorem quiet_releaseOffenders (cfg : SchedulerConfig C) (s : SchedulerCore O) (now : U64) :
    Quiet s (s.releaseOffenders cfg now) :=
  ⟨rfl, fun h => h⟩

theorem quiet_resizeCount (cfg : SchedulerConfig C) (s : SchedulerCore O) (load : U32) :
    Quiet s (s.resizeCount cfg load) := by
  unfold resizeCount
  dsimp only
  split
  · exact ⟨rfl, fun h => h⟩
  · split
    · split <;> exact ⟨rfl, fun h => h⟩
    · exact ⟨rfl, fun h => h⟩

theorem quiet_resizeCapacity (cfg : SchedulerConfig C) (s : SchedulerCore O) (busiest load : U32) :
    Quiet s (s.resizeCapacity cfg busiest load) := by
  unfold resizeCapacity
  dsimp only
  split
  · exact ⟨rfl, fun h => h⟩
  · split
    · split <;> exact ⟨rfl, fun h => h⟩
    · exact ⟨rfl, fun h => h⟩

theorem quiet_resize (cfg : SchedulerConfig C) (s : SchedulerCore O) : Quiet s (s.resize cfg) := by
  have hsized := (quiet_resizeCount cfg s s.load).trans
    (quiet_resizeCapacity cfg _ s.busiest s.load)
  exact ⟨hsized.ledger, hsized.registered⟩

theorem quiet_advance (cfg : SchedulerConfig C) (s : SchedulerCore O) (round : Round) (now : U64) :
    Quiet s (s.advance cfg round now) := by
  have hclocks : Quiet s ({ s with curRound := round }.refreshClocks now).forgetOldFaults :=
    ⟨rfl, fun h => h⟩
  have hfaults := hclocks.trans (Quiet.foldl (quiet_endObserverRound cfg round now)
    ({ s with curRound := round }.refreshClocks now).forgetOldFaults.observers.keys _)
  exact hfaults.trans ((quiet_releaseOffenders cfg _ now).trans (quiet_resize cfg _))

theorem quiet_resizeVector (cfg : SchedulerConfig C) (s : SchedulerCore O)
    (e : SchedulerProtocol × Nat) : Quiet s (s.resizeVector cfg e) := by
  unfold resizeVector
  dsimp only
  split <;> exact ⟨rfl, fun h => h⟩

theorem quiet_resizeScheduledVectors (cfg : SchedulerConfig C) (s : SchedulerCore O)
    (protos : List SchedulerProtocol) : Quiet s (s.resizeScheduledVectors cfg protos) :=
  Quiet.foldl (quiet_resizeVector cfg) protos.zipIdx s

/-! ### Approvals and configurations -/

theorem keeps_learnConfig (cfg : SchedulerConfig C) (s : SchedulerCore O) (body : C.Body) :
    Keeps s (s.learnConfig cfg body) := by
  unfold learnConfig
  dsimp only
  split <;> exact ⟨rfl, fun h => h, fun h => h⟩

theorem keeps_tryAssemble (cfg : SchedulerConfig C) (s : SchedulerCore O) (body : C.Body) :
    Keeps s (s.tryAssemble cfg body).1 := by
  unfold tryAssemble
  dsimp only
  split
  · exact Keeps.refl s
  · split
    · exact Keeps.refl s
    · split
      · exact Keeps.refl s
      · split <;> exact ⟨rfl, fun h => h, fun h => h⟩

theorem keeps_approve (cfg : SchedulerConfig C) (s : SchedulerCore O) (body : C.Body) :
    Keeps s (s.approve cfg body) := by
  refine Keeps.trans ?_ (keeps_learnConfig cfg _ body)
  exact ⟨rfl, fun h => h, fun h => signed_recordSig.mpr (Or.inr h)⟩

theorem keeps_onDecodedBody (cfg : SchedulerConfig C) (s : SchedulerCore O)
    (proposal : SignedProposal C) : Keeps s (s.onDecodedBody cfg proposal).1 := by
  unfold onDecodedBody
  split
  · exact Keeps.refl s
  · exact (keeps_approve cfg s proposal.body).trans (keeps_tryAssemble cfg _ proposal.body)

theorem keeps_onCommitteeSig (cfg : SchedulerConfig C) (s : SchedulerCore O) (sig : CommitteeSig) :
    Keeps s (s.onCommitteeSig cfg sig).1 := by
  unfold onCommitteeSig
  split
  · exact Keeps.refl s
  · split
    · exact Keeps.refl s
    · split
      · exact Keeps.refl s
      · exact (keeps_recordSig s _ _ _).trans (keeps_tryAssemble cfg _ _)

theorem keeps_onPublishedConfig (cfg : SchedulerConfig C) (s : SchedulerCore O)
    (config : C.Config) : Keeps s (s.onPublishedConfig cfg config).1 := by
  unfold onPublishedConfig
  split
  · exact Keeps.refl s
  · split
    · exact Keeps.refl s
    · refine Keeps.trans ?_ (keeps_learnConfig cfg _ config.body)
      exact ⟨rfl, fun h => h, fun h => h⟩

theorem keeps_propose (cfg : SchedulerConfig C) (s : SchedulerCore O) (clock : U64) :
    Keeps s (s.propose cfg clock).1 := by
  unfold propose
  dsimp only
  refine (quiet_resizeScheduledVectors cfg s (s.subnetProtocols cfg)).keeps.trans ?_
  split <;> split <;> exact ⟨rfl, fun h => h, fun h => h⟩

theorem keeps_tick (cfg : SchedulerConfig C) (s : SchedulerCore O) (round : Round)
    (now clock : U64) : Keeps s (s.tick cfg round now clock).1 := by
  unfold tick
  dsimp only
  split
  · exact (quiet_advance cfg s round now).keeps.trans (keeps_propose cfg _ clock)
  · exact (quiet_advance cfg s round now).keeps

theorem sigs_onRegistration (s : SchedulerCore O) (reg : Registration) :
    (s.onRegistration reg).sigs = s.sigs := by
  cases reg with
  | relay => unfold onRegistration; dsimp only; split <;> rfl
  | service | watcher => rfl

/-- **Only a registration changes the directory or registers a relay, and no call
drops an approval.** -/
theorem keeps_apply (cfg : SchedulerConfig C) (s : SchedulerCore O) (op : SchedulerOp C)
    (hop : ∀ reg, op ≠ .registration reg) : Keeps s (s.apply cfg op) := by
  cases op with
  | registration reg => exact absurd rfl (hop reg)
  | decodedBody proposal => exact keeps_onDecodedBody cfg s proposal
  | committeeSig sig => exact keeps_onCommitteeSig cfg s sig
  | publishedConfig config => exact keeps_onPublishedConfig cfg s config
  | faultReport sender report now => exact (quiet_onFaultReport cfg s sender report now).keeps
  | observedFaults faults now => exact (quiet_applyObservedFaults cfg s faults now).keeps
  | subnetMessage subnet sender bytes => exact (quiet_onSubnetMessage s subnet sender bytes).keeps
  | setCoverRate rate => exact ⟨rfl, fun h => h, fun h => h⟩
  | tick round now clock => exact keeps_tick cfg s round now clock

end SchedulerCore
end Anymone
