import Anymone.PanetiereSession
import Anymone.Trace

/-! # Runs of a session

A run is the list of calls a worker makes: rounds begin in increasing order, a round
ends no later than the clock stands, and in between any messages arrive and any
checkpoints fire.  A worker that drains makes one more `end_round` call past its
clock, and it is its last.

A bucket carries three marks (share emitted, round decoded, consensus set fixed) that
no call takes off, and `gc` drops only buckets the round window no longer reaches.
`advances_apply` says so of every call; the results on emission, decoding and the
canonical set follow from it.
-/

namespace Anymone
variable {C : SessionCrate}

/-- `b'` has every mark of `b`. -/
structure RoundState.Keeps (b b' : RoundState C) : Prop where
  emitted : b.emittedMyPublic = true → b'.emittedMyPublic = true
  decoded : b.decoded = true → b'.decoded = true
  finalized : b.finalized = true → b'.finalized = true

namespace RoundState
variable {b b' b'' : RoundState C}

theorem Keeps.refl (b : RoundState C) : Keeps b b := ⟨id, id, id⟩

theorem Keeps.trans (h : Keeps b b') (h' : Keeps b' b'') : Keeps b b'' :=
  ⟨h'.emitted ∘ h.emitted, h'.decoded ∘ h.decoded, h'.finalized ∘ h.finalized⟩

theorem keeps_claim (b : RoundState C) (cid : ClientId) (signer : Pubkey) (max : U64) :
    Keeps b (b.claim cid signer max).1 := by
  unfold claim
  split <;> exact ⟨id, id, id⟩

/-- A client message keeps the marks when what it stores does, and sends what it
stores sends. -/
theorem claimed_cases (b : RoundState C) (cid : ClientId) (signer : Pubkey) (max : U64)
    (store : RoundState C → RoundState C × List PanetiereWire) :
    b.claimed cid signer max store = ((b.claim cid signer max).1, []) ∨
      b.claimed cid signer max store = store (b.claim cid signer max).1 := by
  unfold claimed
  dsimp only
  split
  · exact Or.inr rfl
  · exact Or.inl rfl

end RoundState

theorem not_serverPublic_relayWire {r round : Round} {items : List (Relay C.toSetCrate)}
    {w : PanetiereWire} (h : w ∈ relayWire round items) : w.isServerPublic r = false := by
  obtain ⟨item, -, rfl⟩ := List.mem_map.mp h
  rfl

namespace ServerConfig
open RoundState
variable (cfg : ServerConfig C)

theorem keeps_filePublic (round : Round) (cid : ClientId) (entry : Bytes) (b : RoundState C) :
    Keeps b (cfg.filePublic round cid entry b) := by
  unfold filePublic
  split
  · exact .refl b
  · split <;> exact ⟨id, id, id⟩

theorem keeps_fileOpening (round : Round) (cid : ClientId) (sealed : Bytes) (b : RoundState C) :
    Keeps b (cfg.fileOpening round cid sealed b) := by
  unfold fileOpening
  split
  · exact .refl b
  · split <;> exact ⟨id, id, id⟩

theorem keeps_fileSlice (cid : ClientId) (lane : U32) (share path : Bytes) (b : RoundState C) :
    Keeps b (cfg.fileSlice cid lane share path b) := by
  unfold fileSlice
  split
  · exact .refl b
  · split <;> exact ⟨id, id, id⟩

/-- What filing a message does to a bucket: it keeps the marks and emits no
share. -/
def Files (f : RoundState C → RoundState C × List PanetiereWire) : Prop :=
  ∀ b, Keeps b (f b).1 ∧ ∀ r, ∀ w ∈ (f b).2, w.isServerPublic r = false

theorem files_claimed {store : RoundState C → RoundState C × List PanetiereWire}
    {cid : ClientId} {signer : Pubkey} {max : U64} (h : Files store) :
    Files (fun b => b.claimed cid signer max store) := by
  intro b
  dsimp only
  rcases b.claimed_cases cid signer max store with he | he
  · rw [he]
    exact ⟨b.keeps_claim cid signer max, fun _ w hw => absurd hw (List.not_mem_nil)⟩
  · rw [he]
    exact ⟨(b.keeps_claim cid signer max).trans (h _).1, (h _).2⟩

theorem files_silent {g : RoundState C → RoundState C} (h : ∀ b, Keeps b (g b)) :
    Files (fun b => (g b, [])) :=
  fun b => ⟨h b, fun _ _ hw => absurd hw (List.not_mem_nil)⟩

theorem keeps_fileRelay (relay : Relay C.toSetCrate) (b : RoundState C) :
    Keeps b (fileRelay relay b) := by
  unfold fileRelay
  split <;> exact ⟨id, id, id⟩

/-- **Every message that reaches a bucket files into it.**  One case per message of
the wire. -/
theorem files_file {sender : PeerId} {payload : Bytes} {msg : PanetiereWire}
    {f : RoundState C → RoundState C × List PanetiereWire}
    (h : cfg.file sender payload msg = some f) : Files f := by
  cases msg with
  | clientPublic round cid entry signer signature =>
    simp only [file] at h
    split at h
    · cases h
      exact files_claimed (files_silent (cfg.keeps_filePublic round cid entry))
    · cases h
  | opening round cid target sealed signer signature =>
    simp only [file] at h
    split at h
    · cases h
      exact files_claimed (files_silent (cfg.keeps_fileOpening round cid sealed))
    · cases h
  | clientSlice round cid lane share path signer signature =>
    simp only [file] at h
    split at h
    · cases h
      exact files_claimed (files_silent (cfg.keeps_fileSlice cid lane share path))
    · cases h
  | serverPublic round sid clients aggOpen aggShare shareSum laneOpen signature =>
    -- an own share is no claim of a client, so nothing has to be checked of it
    obtain ⟨expected, -, h⟩ := Option.bind_eq_some_iff.mp h
    split at h
    · obtain ⟨entries, -, h⟩ := Option.bind_eq_some_iff.mp h
      cases h
      exact files_silent (fun _ => ⟨id, id, id⟩)
    · cases h
  | bundle round cid lane data signer signature =>
    obtain ⟨⟨signerKey, pks⟩, -, h⟩ := Option.bind_eq_some_iff.mp h
    dsimp only at h
    split at h
    · obtain ⟨⟨unpacked, used⟩, -, h⟩ := Option.bind_eq_some_iff.mp h
      dsimp only at h
      split at h
      · cases h
        exact files_claimed (files_silent (fun _ => ⟨id, id, id⟩))
      · cases h
    · cases h
  | setFragment round cid target data signer signature =>
    obtain ⟨⟨signerKey, pks⟩, -, h⟩ := Option.bind_eq_some_iff.mp h
    dsimp only at h
    split at h
    · obtain ⟨fragment, -, h⟩ := Option.bind_eq_some_iff.mp h
      split at h
      · cases h
        exact files_claimed
          -- it may send on, but only to the other lanes of the set
          (fun _ => ⟨⟨id, id, id⟩, fun _ _ hw => not_serverPublic_relayWire hw⟩)
      · cases h
    · cases h
  | setRelay round data =>
    simp only [file] at h
    split at h
    · obtain ⟨relay, -, rfl⟩ := Option.map_eq_some_iff.mp h
      exact files_silent (keeps_fileRelay relay)
    · cases h
  | setBatch => cases h
  | decoded => cases h
  | reservations => cases h
  | clientSet => cases h

theorem keeps_fixOne (round r : Round) (b : RoundState C) : Keeps b (cfg.fixOne round r b) := by
  unfold fixOne
  split
  · exact .refl b
  · split <;> exact ⟨id, id, fun _ => rfl⟩

theorem keeps_emitOne (sets : OrdMap Round (List ClientId)) (corrupt : Bool) (round r : Round)
    (b : RoundState C) : Keeps b (cfg.emitOne sets corrupt round r b).1 := by
  unfold emitOne
  split
  · exact .refl b
  · split
    · exact .refl b
    · split
      · exact .refl b
      · split
        · exact ⟨id, id, id⟩
        · split
          · exact ⟨id, id, id⟩
          · exact ⟨fun _ => rfl, id, id⟩

theorem keeps_afterDecode (sets : OrdMap Round (List ClientId)) (r : Round) (b : RoundState C) :
    Keeps b (cfg.afterDecode sets r b) := by
  unfold afterDecode
  split
  · exact ⟨id, fun _ => rfl, id⟩
  · exact .refl b

end ServerConfig

namespace ServerSession
open RoundState
variable {cfg : ServerConfig C} {s s' s'' : ServerSession C}

/-- The clock has left round `r` behind by more than the retention. -/
def Behind (s : ServerSession C) (r : Round) : Prop :=
  ∃ c, s.curRound = some c ∧ r.val + panetiereRoundRetention < c.val

theorem Behind.not_in_window {r : Round} (h : s.Behind r) :
    roundInWindow r s.curRound = false := by
  obtain ⟨c, hc, hlt⟩ := h
  rw [hc]
  exact roundInWindow_eq_false hlt

theorem Behind.not_admits {r : Round} (h : s.Behind r) : s.admits r = false := by
  unfold admits
  rw [h.not_in_window]
  rfl

theorem Behind.congr {r : Round} (h : s.Behind r) (hc : s'.curRound = s.curRound) :
    s'.Behind r := by
  unfold Behind
  rw [hc]
  exact h

/-- What every call does to the buckets: marks stay, and a bucket goes only when the
window has left it, after which it does not come back. -/
structure Advances (s s' : ServerSession C) : Prop where
  behind : ∀ {r}, s.Behind r → s'.Behind r
  kept : ∀ {r b}, s.rounds.get? r = some b →
    (∃ b', s'.rounds.get? r = some b' ∧ b.Keeps b') ∨ (s'.rounds.get? r = none ∧ s'.Behind r)
  gone : ∀ {r}, s.rounds.get? r = none → s.Behind r → s'.rounds.get? r = none

theorem Advances.refl (s : ServerSession C) : Advances s s :=
  ⟨id, fun h => Or.inl ⟨_, h, .refl _⟩, fun h _ => h⟩

theorem Advances.trans (h : Advances s s') (h' : Advances s' s'') : Advances s s'' := by
  refine ⟨h'.behind ∘ h.behind, ?_, fun hr hb => h'.gone (h.gone hr hb) (h.behind hb)⟩
  intro r b hb
  rcases h.kept hb with ⟨b', hb', hk⟩ | ⟨hnone, hbehind⟩
  · rcases h'.kept hb' with ⟨b'', hb'', hk'⟩ | hgone
    · exact Or.inl ⟨b'', hb'', hk.trans hk'⟩
    · exact Or.inr hgone
  · exact Or.inr ⟨h'.gone hnone hbehind, h'.behind hbehind⟩

/-- Rewriting every bucket in place advances. -/
theorem advances_mapVals {f : Round → RoundState C → RoundState C} (hf : ∀ r b, Keeps b (f r b))
    (hr : s'.rounds = s.rounds.mapVals f) (hc : s'.curRound = s.curRound) : Advances s s' := by
  refine ⟨fun h => h.congr hc, ?_, ?_⟩
  · intro r b hb
    exact Or.inl ⟨f r b, by rw [hr, OrdMap.get?_mapVals, hb]; rfl, hf r b⟩
  · intro r hnone _
    rw [hr, OrdMap.get?_mapVals, hnone]
    rfl

/-- Writing one bucket advances, unless it brings back a round left behind. -/
theorem advances_insert {r : Round} {b' : RoundState C}
    (hk : ∀ b, s.rounds.get? r = some b → Keeps b b')
    (hnew : s.rounds.get? r = none → ¬ s.Behind r)
    (hr : s'.rounds = s.rounds.insert r b') (hc : s'.curRound = s.curRound) : Advances s s' := by
  refine ⟨fun h => h.congr hc, ?_, ?_⟩
  · intro q b hb
    rw [hr, OrdMap.get?_insert]
    by_cases hq : q = r
    · subst hq
      exact Or.inl ⟨b', by simp, hk b hb⟩
    · exact Or.inl ⟨b, by rw [if_neg hq, hb], .refl b⟩
  · intro q hnone hbehind
    rw [hr, OrdMap.get?_insert]
    by_cases hq : q = r
    · subst hq
      exact absurd hbehind (hnew hnone)
    · rw [if_neg hq, hnone]

theorem advances_entry {r : Round} {f : RoundState C → RoundState C × List PanetiereWire}
    (hf : ServerConfig.Files f) (hadm : s.admits r = true) : Advances s (s.entry r f).1 := by
  refine advances_insert ?_ ?_ rfl rfl
  · intro b hb
    rw [hb]
    exact (hf b).1
  · intro _ hbehind
    rw [hbehind.not_admits] at hadm
    cases hadm

/-- The three things `on_inbound` can do with a payload. -/
theorem onInbound_cases (cfg : ServerConfig C) (s : ServerSession C) (sender : PeerId)
    (payload : Bytes) :
    s.onInbound cfg sender payload = (s, []) ∨
    (∃ round clients demand,
      PanetiereWire.deserialize payload = some (.clientSet round clients demand) ∧
      s.admits round = true ∧
      s.onInbound cfg sender payload = (s.adopt cfg sender round clients, [])) ∨
    (∃ msg f, PanetiereWire.deserialize payload = some msg ∧ s.admits msg.round = true ∧
      cfg.file sender payload msg = some f ∧
      s.onInbound cfg sender payload = s.entry msg.round f) := by
  unfold onInbound
  cases hmsg : PanetiereWire.deserialize payload with
  | none => exact Or.inl rfl
  | some msg =>
    dsimp only
    cases hadm : s.admits msg.round with
    | false => exact Or.inl rfl
    | true =>
      rw [if_pos rfl]
      split
      · exact Or.inr (Or.inl ⟨_, _, _, rfl, hadm, rfl⟩)
      · cases hf : cfg.file sender payload msg with
        | none => exact Or.inl rfl
        | some f => exact Or.inr (Or.inr ⟨msg, f, rfl, hadm, hf, rfl⟩)

theorem adopt_rounds (cfg : ServerConfig C) (s : ServerSession C) (sender : PeerId)
    (round : Round) (clients : List U32) :
    (s.adopt cfg sender round clients).rounds = s.rounds ∧
      (s.adopt cfg sender round clients).curRound = s.curRound := by
  unfold adopt
  split <;> exact ⟨rfl, rfl⟩

theorem advances_of_rounds_eq (hr : s'.rounds = s.rounds) (hc : s'.curRound = s.curRound) :
    Advances s s' := by
  refine ⟨fun h => h.congr hc, ?_, ?_⟩
  · intro r b hb
    exact Or.inl ⟨b, by rw [hr, hb], .refl b⟩
  · intro r hnone _
    rw [hr, hnone]

theorem advances_onInbound (cfg : ServerConfig C) (s : ServerSession C) (sender : PeerId)
    (payload : Bytes) : Advances s (s.onInbound cfg sender payload).1 := by
  rcases s.onInbound_cases cfg sender payload with he | ⟨round, clients, _, -, -, he⟩ |
    ⟨msg, f, -, hadm, hf, he⟩
  · rw [he]
    exact .refl s
  · rw [he]
    exact advances_of_rounds_eq (s.adopt_rounds cfg sender round clients).1
      (s.adopt_rounds cfg sender round clients).2
  · rw [he]
    exact advances_entry (cfg.files_file hf) hadm

/-- A checkpoint writes at most the bucket of its round, which is there. -/
theorem checkpoint_cases (cfg : ServerConfig C) (s : ServerSession C) (round : Round) (k : U8) :
    s.checkpoint cfg round k = (s, []) ∨
    ∃ b b', s.rounds.get? round = some b ∧
      (s.checkpoint cfg round k).1 = { s with rounds := s.rounds.insert round b' } ∧ Keeps b b' ∧
      ∀ r, ∀ w ∈ (s.checkpoint cfg round k).2, w.isServerPublic r = false := by
  unfold checkpoint
  split
  · exact Or.inl rfl
  · split
    · unfold publishBatch
      split
      · exact Or.inl rfl
      · rename_i b hb
        dsimp only
        split
        · exact Or.inr ⟨b, _, hb, rfl, ⟨id, id, id⟩, fun _ _ hw => absurd hw List.not_mem_nil⟩
        · refine Or.inr ⟨b, _, hb, rfl, ⟨id, id, id⟩, ?_⟩
          intro r w hw
          rcases List.mem_cons.mp hw with rfl | hw
          · rfl
          · exact not_serverPublic_relayWire hw
    · split
      · unfold absorbRelays
        split
        · exact Or.inl rfl
        · rename_i b hb
          dsimp only
          split
          · exact Or.inr ⟨b, _, hb, rfl, ⟨id, id, id⟩, fun _ _ hw => absurd hw List.not_mem_nil⟩
          · exact Or.inr ⟨b, _, hb, rfl, ⟨id, id, id⟩,
              fun _ _ hw => not_serverPublic_relayWire hw⟩
      · exact Or.inl rfl

theorem advances_checkpoint (cfg : ServerConfig C) (s : ServerSession C) (round : Round) (k : U8) :
    Advances s (s.checkpoint cfg round k).1 := by
  rcases s.checkpoint_cases cfg round k with he | ⟨b, b', hb, he, hk, -⟩
  · rw [he]
    exact .refl s
  · rw [he]
    refine advances_insert ?_ ?_ rfl rfl
    · intro d hd
      rw [hb] at hd
      cases hd
      exact hk
    · intro hnone
      rw [hb] at hnone
      cases hnone

/-! ## The end of a round -/

theorem settle_frame (cfg : ServerConfig C) (s : ServerSession C) (round : Round) :
    (s.settle cfg round).1.curRound = s.curRound ∧
      (s.settle cfg round).1.misbehavior = s.misbehavior := by
  unfold settle
  dsimp only
  split <;> split <;> exact ⟨rfl, rfl⟩

/-- The buckets after the set half of `end_round`. -/
theorem settle_rounds (cfg : ServerConfig C) (s : ServerSession C) (round : Round) :
    (s.settle cfg round).1.rounds =
      if cfg.consensus then s.rounds.mapVals (cfg.fixOne round) else s.rounds := by
  unfold settle
  dsimp only
  split <;> split <;> rfl

theorem advances_settle (cfg : ServerConfig C) (s : ServerSession C) (round : Round) :
    Advances s (s.settle cfg round).1 := by
  have hr := s.settle_rounds cfg round
  have hc := (s.settle_frame cfg round).1
  by_cases hcons : cfg.consensus = true
  · rw [if_pos hcons] at hr
    exact advances_mapVals (cfg.keeps_fixOne round) hr hc
  · rw [if_neg hcons] at hr
    exact advances_of_rounds_eq hr hc

/-- What emission leaves alone. -/
theorem emit_frame (cfg : ServerConfig C) (s : ServerSession C) (round : Round) :
    (s.emitServerPublics cfg round).1 =
      { s with rounds := (s.emitServerPublics cfg round).1.rounds } := by
  unfold emitServerPublics
  split <;> rfl

theorem advances_emit (cfg : ServerConfig C) (s : ServerSession C) (round : Round) :
    Advances s (s.emitServerPublics cfg round).1 := by
  unfold emitServerPublics
  split
  · exact .refl s
  · exact advances_mapVals (fun r b => cfg.keeps_emitOne _ _ round r b) rfl rfl

theorem advances_decode (cfg : ServerConfig C) (s : ServerSession C) :
    Advances s (s.decodeSettled cfg).1 :=
  advances_mapVals (fun r b => cfg.keeps_afterDecode _ r b) rfl rfl

/-- `gc` at a round the clock has reached drops only what the window has left. -/
theorem behind_of_lt_cutoff {round r c : Round} (hc : s.curRound = some c) (hle : round ≤ c)
    (hr : ¬ round.saturatingSub panetiereRoundRetention ≤ r) : s.Behind r := by
  refine ⟨c, hc, ?_⟩
  rw [Fin.le_def, U64.val_saturatingSub] at hr
  have : round.val ≤ c.val := hle
  omega

theorem advances_gc {round c : Round} (hc : s.curRound = some c) (hle : round ≤ c) :
    Advances s (s.gc round) := by
  refine ⟨fun h => h.congr rfl, ?_, ?_⟩
  · intro r b hb
    show (∃ b', (s.rounds.retain _).get? r = some b' ∧ _) ∨ ((s.rounds.retain _).get? r = none ∧ _)
    rw [OrdMap.get?_retain, hb]
    by_cases hcut : round.saturatingSub panetiereRoundRetention ≤ r
    · exact Or.inl ⟨b, by simp [hcut], .refl b⟩
    · refine Or.inr ⟨by simp [hcut], ?_⟩
      exact (behind_of_lt_cutoff hc hle hcut).congr rfl
  · intro r hnone _
    show (s.rounds.retain _).get? r = none
    rw [OrdMap.get?_retain, hnone]
    rfl

end ServerSession

/-! ## Runs -/

/-- A call to a session. -/
inductive SessionOp where
  | beginRound (round : Round)
  | inbound (sender : PeerId) (payload : Bytes)
  | checkpoint (round : Round) (k : U8)
  | endRound (round : Round)
  | setMisbehavior (mode : Option Misbehavior)
  deriving DecidableEq

namespace ServerSession
open RoundState Trace
variable (cfg : ServerConfig C) (s : ServerSession C)

/-- The session after a call. -/
def apply : SessionOp → ServerSession C
  | .beginRound round => s.beginRound round
  | .inbound sender payload => (s.onInbound cfg sender payload).1
  | .checkpoint round k => (s.checkpoint cfg round k).1
  | .endRound round => (s.endRound cfg round).1
  | .setMisbehavior mode => s.setMisbehavior mode

/-- What a call sends. -/
def sent : SessionOp → List PanetiereWire
  | .beginRound _ => []
  | .inbound sender payload => (s.onInbound cfg sender payload).2
  | .checkpoint round k => (s.checkpoint cfg round k).2
  | .endRound round => (s.endRound cfg round).2.outbound
  | .setMisbehavior _ => []

/-- The rounds `decode_settled` returns in a call. -/
def decodedBy : SessionOp → List (Round × List C.KahePoly)
  | .endRound round => ((s.settle cfg round).1.emitServerPublics cfg round).1.settledRounds cfg
  | _ => []

/-- The canonical sets a call fixes: announced by a leader, derived by consensus, or
adopted from the leader by a follower that had none. -/
def fixedBy : SessionOp → List (Round × List ClientId)
  | .endRound round =>
      (if cfg.mode = .leader ∧ s.misbehavior ≠ some .withhold then
        (s.announcements cfg round).map (fun a => (a.1, a.2.1)) else []) ++
      (if cfg.consensus then s.fixedSets cfg round else [])
  | .inbound sender payload =>
      match PanetiereWire.deserialize payload with
      | some (.clientSet round clients _) =>
          if s.admits round && cfg.adopts sender clients &&
            (s.clientSetByRound.get? round).isNone then [(round, clients)] else []
      | _ => []
  | _ => []

/-- When a worker makes a call: rounds begin in increasing order, and a round ends
once it has begun. -/
def Timely : SessionOp → Prop
  | .beginRound round => ∀ c, s.curRound = some c → c < round
  | .endRound round => ∃ c, s.curRound = some c ∧ round ≤ c
  | _ => True

/-- The session after a run. -/
def after (ops : List SessionOp) : ServerSession C := run new (apply cfg) ops

/-- The calls of a worker: each is timely, except that a draining worker ends one
more round, past its clock, and returns. -/
def Driven (ops : List SessionOp) : Prop :=
  ∀ σ ∈ steps ops, (after cfg σ.1).Timely σ.2 ∨ ((∃ round, σ.2 = .endRound round) ∧ σ.1 ++ [σ.2] = ops)

instance (op : SessionOp) : Decidable (s.Timely op) :=
  match op, h : s.curRound with
  | .beginRound round, none => isTrue (by simp [Timely, h])
  | .beginRound round, some c => decidable_of_iff (c < round) (by simp [Timely, h])
  | .endRound round, none => isFalse (by simp [Timely, h])
  | .endRound round, some c => decidable_of_iff (round ≤ c) (by simp [Timely, h])
  | .inbound .., _ | .checkpoint .., _ | .setMisbehavior _, _ => isTrue trivial

/-- Whether a call is an `end_round`. -/
def isEndRound : SessionOp → Bool
  | .endRound _ => true
  | _ => false

theorem isEndRound_iff {op : SessionOp} : isEndRound op = true ↔ ∃ round, op = .endRound round := by
  cases op <;> simp [isEndRound]

instance (ops : List SessionOp) :
    Decidable (Driven cfg ops) :=
  decidable_of_iff (∀ σ ∈ steps ops, (after cfg σ.1).Timely σ.2 ∨
    (isEndRound σ.2 = true ∧ σ.1 ++ [σ.2] = ops)) (by simp only [Driven, isEndRound_iff])

/-- Everything sent in a run. -/
def emissions (ops : List SessionOp) : List PanetiereWire := observed new (apply cfg) (sent cfg) ops

/-- Every round decoded in a run. -/
def decodings (ops : List SessionOp) : List (Round × List C.KahePoly) :=
  observed new (apply cfg) (decodedBy cfg) ops

/-- Every canonical set fixed in a run. -/
def setsFixed (ops : List SessionOp) : List (Round × List ClientId) :=
  observed new (apply cfg) (fixedBy cfg) ops

@[simp] theorem after_concat (ops : List SessionOp) (op : SessionOp) :
    after cfg (ops ++ [op]) = (after cfg ops).apply cfg op := run_concat ..

@[simp] theorem setsFixed_concat (ops : List SessionOp) (op : SessionOp) :
    setsFixed cfg (ops ++ [op]) = setsFixed cfg ops ++ fixedBy cfg (after cfg ops) op :=
  observed_concat ..

variable {cfg s}

theorem advances_endRound {round c : Round} (hc : s.curRound = some c) (hle : round ≤ c) :
    Advances s (s.endRound cfg round).1 := by
  have hframe := s.settle_frame cfg round
  refine (s.advances_settle cfg round).trans ((advances_emit cfg _ round).trans
    ((advances_decode cfg _).trans (advances_gc ?_ hle)))
  show ((s.settle cfg round).1.emitServerPublics cfg round).1.curRound = some c
  rw [emit_frame]
  exact hframe.1.trans hc

/-- **Every timely call keeps the marks and brings no round back.** -/
theorem advances_apply {op : SessionOp} (h : s.Timely op) : Advances s (s.apply cfg op) := by
  cases op with
  | beginRound round =>
    refine ⟨?_, fun hb => Or.inl ⟨_, hb, .refl _⟩, fun hnone _ => hnone⟩
    rintro r ⟨c, hc, hlt⟩
    have : c.val < round.val := h c hc
    exact ⟨round, rfl, by omega⟩
  | inbound sender payload => exact s.advances_onInbound cfg sender payload
  | checkpoint round k => exact s.advances_checkpoint cfg round k
  | endRound round =>
    obtain ⟨c, hc, hle⟩ := h
    exact advances_endRound hc hle
  | setMisbehavior mode => exact advances_of_rounds_eq rfl rfl

/-- Round `r` carries a mark, or carried it and is gone for good. -/
def Past (mark : RoundState C → Bool) (s : ServerSession C) (r : Round) : Prop :=
  match s.rounds.get? r with
  | some b => mark b = true
  | none => s.Behind r

theorem Past.advance {mark : RoundState C → Bool} {s s' : ServerSession C} {r : Round}
    (hmark : ∀ b b', Keeps b b' → mark b = true → mark b' = true) (ha : Advances s s')
    (h : Past mark s r) : Past mark s' r := by
  unfold Past at h ⊢
  cases hb : s.rounds.get? r with
  | some b =>
    rw [hb] at h
    rcases ha.kept hb with ⟨b', hb', hk⟩ | ⟨hnone, hbehind⟩
    · rw [hb']
      exact hmark b b' hk h
    · rw [hnone]
      exact hbehind
  | none =>
    rw [hb] at h
    rw [ha.gone hb h]
    exact ha.behind h

theorem Past.of_mark {mark : RoundState C → Bool} {s : ServerSession C} {r : Round}
    {b : RoundState C} (hb : s.rounds.get? r = some b) (h : mark b = true) : Past mark s r := by
  unfold Past
  rw [hb]
  exact h

theorem Past.mark_of_get? {mark : RoundState C → Bool} {s : ServerSession C} {r : Round}
    {b : RoundState C} (h : Past mark s r) (hb : s.rounds.get? r = some b) : mark b = true := by
  unfold Past at h
  rw [hb] at h
  exact h

theorem Driven.timely {ops : List SessionOp} (h : Driven cfg ops) {σ : List SessionOp × SessionOp}
    (hσ : σ ∈ steps ops) (hne : σ.1 ++ [σ.2] ≠ ops) : (after cfg σ.1).Timely σ.2 :=
  (h σ hσ).resolve_right (fun hlast => hne hlast.2)

end ServerSession
end Anymone
