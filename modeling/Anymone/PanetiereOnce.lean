import Anymone.PanetiereToy

/-! # One share, one set and one decode per round

A session emits at most one share for each wire round, over the one canonical set the
round was given, and decodes each round at most once (`one_share_per_round`,
`no_round_decoded_twice`).  Each is an instance of `Trace.countP_observed_le_one` for
the mark that the event leaves on its bucket.
-/

namespace Anymone
variable {C : SessionCrate}

namespace ServerConfig
variable {cfg : ServerConfig C}

theorem shareWire_eq (cfg : ServerConfig C) (corrupt : Bool) (r : Round) (sp : C.ServerEntry)
    (lane : C.NodeEntry) (laneOpen : Bytes) :
    ∃ aggOpen aggShare shareSum laneOpen' signature,
      cfg.shareWire corrupt r sp lane laneOpen =
        .serverPublic r sp.serverId sp.clients aggOpen aggShare shareSum laneOpen' signature :=
  ⟨_, _, _, _, _, rfl⟩

/-- **What an emitted share says and leaves behind.**  The bucket was unmarked and is
marked, and the share is over the canonical set, every member of which is held. -/
theorem emitOne_some {sets : OrdMap Round (List ClientId)} {corrupt : Bool} {round r : Round}
    {b : RoundState C} {w : PanetiereWire} (h : (cfg.emitOne sets corrupt round r b).2 = some w) :
    b.emittedMyPublic = false ∧ (cfg.emitOne sets corrupt round r b).1.emittedMyPublic = true ∧
    ∃ clients aggOpen aggShare shareSum laneOpen signature,
      w = .serverPublic r cfg.serverId clients aggOpen aggShare shareSum laneOpen signature ∧
      cfg.canonical sets r b = some clients ∧ clients ≠ [] ∧
      ∀ c ∈ clients, cfg.holds b c = true := by
  unfold emitOne at h ⊢
  split at h
  · cases h
  · rename_i hguard
    split at h
    · cases h
    · rename_i clients hcanon
      split at h
      · cases h
      · rename_i hheld
        split at h
        · cases h
        · rename_i sp hsp
          split at h
          · cases h
          · rename_i lane laneOpen hlane
            cases h
            obtain ⟨hsid, hclients⟩ := C.runServerRound_over hsp
            rw [if_neg hguard]
            simp only [hcanon]
            rw [if_neg hheld]
            simp only [Bool.or_eq_true, not_or, Bool.not_eq_true] at hguard
            simp only [Bool.or_eq_true, not_or, Bool.not_eq_true, Bool.not_eq_false',
              List.isEmpty_eq_false_iff, List.all_eq_true] at hheld
            obtain ⟨aggOpen, aggShare, shareSum, laneOpen', signature, hwire⟩ :=
              cfg.shareWire_eq corrupt r sp lane laneOpen
            rw [hsid, hclients] at hwire
            exact ⟨hguard.1.2, rfl, clients, aggOpen, aggShare, shareSum, laneOpen', signature,
              hwire, rfl, hheld.1, hheld.2⟩

end ServerConfig

namespace ServerSession
open RoundState Trace
variable {cfg : ServerConfig C} {s : ServerSession C}

/-! ## Shares -/

/-- A share in the outbound of `emit_server_publics` comes from the bucket of its
round. -/
theorem mem_emit {round : Round} {w : PanetiereWire}
    (h : w ∈ (s.emitServerPublics cfg round).2) :
    ∃ r b b', s.rounds.get? r = some b ∧ b.emittedMyPublic = false ∧
      (s.emitServerPublics cfg round).1.rounds.get? r = some b' ∧ b'.emittedMyPublic = true ∧
      ∃ clients aggOpen aggShare shareSum laneOpen signature,
        w = .serverPublic r cfg.serverId clients aggOpen aggShare shareSum laneOpen signature ∧
        cfg.canonical s.clientSetByRound r b = some clients ∧ clients ≠ [] ∧
        ∀ c ∈ clients, cfg.holds b c = true := by
  unfold emitServerPublics at h ⊢
  split at h
  · cases h
  · rename_i hwith
    obtain ⟨⟨r, b⟩, hb, hw⟩ := List.mem_filterMap.mp h
    have hb := OrdMap.get?_eq_some_iff.mpr hb
    obtain ⟨hfree, hmarked, hshare⟩ := ServerConfig.emitOne_some hw
    refine ⟨r, b, _, hb, hfree, ?_, hmarked, hshare⟩
    rw [if_neg hwith]
    show (s.rounds.mapVals _).get? r = _
    rw [OrdMap.get?_mapVals, hb]
    rfl

theorem not_serverPublic_settle {round r : Round} {w : PanetiereWire}
    (h : w ∈ (s.settle cfg round).2) : w.isServerPublic r = false := by
  unfold settle at h
  dsimp only at h
  split at h
  · obtain ⟨a, -, rfl⟩ := List.mem_map.mp h
    rfl
  · cases h

theorem not_serverPublic_publishDecoded {messages : List (Round × List Bytes)} {r : Round}
    {w : PanetiereWire} (h : w ∈ publishDecoded cfg messages) : w.isServerPublic r = false := by
  unfold publishDecoded at h
  split at h
  · obtain ⟨d, -, rfl⟩ := List.mem_map.mp h
    rfl
  · cases h

/-- The shares in the outbound of `end_round` are the ones its emission made. -/
theorem mem_endRound_serverPublic {round r : Round} {w : PanetiereWire}
    (hw : w.isServerPublic r = true) (h : w ∈ (s.endRound cfg round).2.outbound) :
    w ∈ ((s.settle cfg round).1.emitServerPublics cfg round).2 := by
  rcases List.mem_append.mp h with h | h
  · rcases List.mem_append.mp h with h | h
    · rw [not_serverPublic_settle h] at hw
      cases hw
    · exact h
  · rw [not_serverPublic_publishDecoded h] at hw
    cases hw

/-- Only `end_round` sends shares. -/
theorem endRound_of_sent {op : SessionOp} {r : Round} {w : PanetiereWire}
    (hw : w.isServerPublic r = true) (h : w ∈ sent cfg s op) :
    ∃ round, op = .endRound round ∧
      w ∈ ((s.settle cfg round).1.emitServerPublics cfg round).2 := by
  cases op with
  | beginRound round => cases h
  | inbound sender payload =>
    simp only [sent] at h
    rcases s.onInbound_cases cfg sender payload with he | ⟨_, _, _, -, -, he⟩ |
      ⟨msg, f, -, -, hf, he⟩
    · rw [he] at h
      cases h
    · rw [he] at h
      cases h
    · rw [he] at h
      rw [(cfg.files_file hf _).2 r w h] at hw
      cases hw
  | checkpoint round k =>
    simp only [sent] at h
    rcases s.checkpoint_cases cfg round k with he | ⟨b, b', -, -, -, hout⟩
    · rw [he] at h
      cases h
    · rw [hout r w h] at hw
      cases hw
  | endRound round => exact ⟨round, rfl, mem_endRound_serverPublic hw h⟩
  | setMisbehavior mode => cases h

theorem countP_emit_le_one (cfg : ServerConfig C) (s : ServerSession C) (round r : Round) :
    (s.emitServerPublics cfg round).2.countP (PanetiereWire.isServerPublic r) ≤ 1 := by
  unfold emitServerPublics
  split
  · simp
  · refine s.rounds.countP_filterMap_le_one (k := r) ?_
    intro e w hw hr
    obtain ⟨-, -, clients, _, _, _, _, _, rfl, -⟩ := ServerConfig.emitOne_some hw
    simpa [PanetiereWire.isServerPublic] using hr

theorem countP_sent_le_one (cfg : ServerConfig C) (s : ServerSession C) (op : SessionOp)
    (r : Round) : (sent cfg s op).countP (PanetiereWire.isServerPublic r) ≤ 1 := by
  by_cases h : ∃ round, op = .endRound round
  · obtain ⟨round, rfl⟩ := h
    have hle := countP_emit_le_one cfg (s.settle cfg round).1 round r
    have h1 : (s.settle cfg round).2.countP (PanetiereWire.isServerPublic r) = 0 :=
      List.countP_eq_zero.mpr (fun w hw => by simp [not_serverPublic_settle hw])
    have h2 : ∀ messages, (publishDecoded cfg messages).countP (PanetiereWire.isServerPublic r) = 0 :=
      fun _ => List.countP_eq_zero.mpr (fun w hw => by simp [not_serverPublic_publishDecoded hw])
    show ((s.settle cfg round).2 ++ _ ++ publishDecoded cfg _).countP _ ≤ 1
    rw [List.countP_append, List.countP_append, h1, h2]
    omega
  · suffices h0 : (sent cfg s op).countP (PanetiereWire.isServerPublic r) = 0 by omega
    refine List.countP_eq_zero.mpr (fun w hw hsp => h ?_)
    obtain ⟨round, he, -⟩ := endRound_of_sent hsp hw
    exact ⟨round, he⟩

theorem advances_after_settle {round c : Round} (hc : s.curRound = some c) (hle : round ≤ c) :
    Advances ((s.settle cfg round).1.emitServerPublics cfg round).1 (s.endRound cfg round).1 := by
  refine (advances_decode cfg _).trans (advances_gc ?_ hle)
  show ((s.settle cfg round).1.emitServerPublics cfg round).1.curRound = some c
  rw [emit_frame]
  exact (s.settle_frame cfg round).1.trans hc

/-- **At most one share per round**, over a whole run. -/
theorem countP_emissions_le_one {ops : List SessionOp} (h : Driven cfg ops) (r : Round) :
    (emissions cfg ops).countP (PanetiereWire.isServerPublic r) ≤ 1 := by
  have hkeep : ∀ b b' : RoundState C, Keeps b b' → b.emittedMyPublic = true →
      b'.emittedMyPublic = true := fun _ _ hk => hk.emitted
  refine countP_observed_le_one (M := fun s => Past (·.emittedMyPublic) s r)
    (fun σ _ => countP_sent_le_one cfg _ σ.2 r) ?_ ?_
  · intro σ _ hpast
    refine List.countP_eq_zero.mpr (fun w hw hsp => ?_)
    obtain ⟨round, -, hw⟩ := endRound_of_sent hsp hw
    obtain ⟨q, b, b', hb, hfree, -, -, clients, _, _, _, _, _, rfl, -⟩ := mem_emit hw
    obtain rfl : q = r := by simpa [PanetiereWire.isServerPublic] using hsp
    have := (hpast.advance hkeep (advances_settle cfg _ round)).mark_of_get? hb
    rw [hfree] at this
    cases this
  · rintro σ hσ hne (hpos | hpast)
    · obtain ⟨w, hw, hsp⟩ := List.countP_pos_iff.mp hpos
      obtain ⟨round, hop, hw⟩ := endRound_of_sent hsp hw
      obtain ⟨q, b, b', -, -, hb', hmarked, clients, _, _, _, _, _, rfl, -⟩ := mem_emit hw
      obtain rfl : q = r := by simpa [PanetiereWire.isServerPublic] using hsp
      have htimely := h.timely hσ hne
      rw [hop] at htimely ⊢
      obtain ⟨c, hc, hle⟩ := htimely
      exact (Past.of_mark hb' hmarked).advance hkeep (advances_after_settle hc hle)
    · exact hpast.advance hkeep (advances_apply (h.timely hσ hne))

/-! ## Canonical sets -/

theorem not_consensus_of_leader (h : cfg.mode = .leader) : cfg.consensus = false := by
  unfold ServerConfig.consensus
  rw [h]

theorem announceOne_eq_none_of_announced {round r : Round} {b : RoundState C}
    (h : s.announcedRounds.contains r = true) : s.announceOne cfg round r b = none := by
  unfold announceOne
  rw [if_pos (by simp [h])]

theorem mem_announcements {round r : Round} {set : List ClientId} :
    (r, set) ∈ (s.announcements cfg round).map (fun a => (a.1, a.2.1)) ↔
      ∃ b demand, s.rounds.get? r = some b ∧ s.announceOne cfg round r b = some (set, demand) := by
  rw [List.mem_map]
  constructor
  · rintro ⟨⟨r', set', demand⟩, ha, he⟩
    cases he
    obtain ⟨b, hb, hann⟩ := OrdMap.mem_filterMap_entries.mp ha
    exact ⟨b, demand, hb, hann⟩
  · rintro ⟨b, demand, hb, hann⟩
    exact ⟨(r, set, demand), OrdMap.mem_filterMap_entries.mpr ⟨b, hb, hann⟩, rfl⟩

theorem mem_fixedSets {round r : Round} {set : List ClientId} :
    (r, set) ∈ s.fixedSets cfg round ↔
      ∃ b, s.rounds.get? r = some b ∧ cfg.fixedSet round r b = some set :=
  OrdMap.mem_filterMap_entries

/-- A bucket whose set is fixed was not finalized, and is. -/
theorem finalized_of_fixedSet {round r : Round} {b : RoundState C} {set : List ClientId}
    (h : cfg.fixedSet round r b = some set) :
    b.finalized = false ∧ (cfg.fixOne round r b).finalized = true := by
  unfold ServerConfig.fixedSet at h
  unfold ServerConfig.fixOne
  cases hfix : cfg.fixedRound round r b with
  | none =>
    rw [hfix] at h
    cases h
  | some fixed =>
    constructor
    · unfold ServerConfig.fixedRound at hfix
      split at hfix
      · cases hfix
      · rename_i hguard
        simp only [Bool.or_eq_true, not_or, Bool.not_eq_true] at hguard
        exact hguard.2
    · dsimp only
      split <;> rfl

/-- Whether the set of round `r` has been fixed, or can no longer be. -/
def SetFixed (cfg : ServerConfig C) (s : ServerSession C) (r : Round) : Prop :=
  match cfg.mode with
  | .leader => s.announcedRounds.contains r = true ∨ (s.rounds.get? r = none ∧ s.Behind r)
  | .follower _ => s.clientSetByRound.contains r = true ∨ s.Behind r
  | .consensus _ => Past (·.finalized) s r
  | .selfDerived => True

/-- A follower's inbound call fixes a set for its round only. -/
theorem mem_fixedBy_inbound {sender : PeerId} {payload : Bytes} {r : Round} {set : List ClientId}
    (h : (r, set) ∈ fixedBy cfg s (.inbound sender payload)) :
    s.admits r = true ∧ cfg.adopts sender set = true ∧ s.clientSetByRound.get? r = none ∧
      ∃ demand, PanetiereWire.deserialize payload = some (.clientSet r set demand) := by
  simp only [fixedBy] at h
  split at h
  · rename_i round clients demand hmsg
    split at h
    · rename_i hguard
      cases List.mem_singleton.mp h
      simp only [Bool.and_eq_true, Option.isNone_iff_eq_none] at hguard
      exact ⟨hguard.1.1, hguard.1.2, hguard.2, demand, hmsg⟩
    · cases h
  · cases h

theorem mem_fixedBy_endRound {round r : Round} {set : List ClientId}
    (h : (r, set) ∈ fixedBy cfg s (.endRound round)) :
    (cfg.mode = .leader ∧ s.misbehavior ≠ some .withhold ∧
      ∃ b demand, s.rounds.get? r = some b ∧ s.announceOne cfg round r b = some (set, demand)) ∨
    (cfg.consensus = true ∧
      ∃ b, s.rounds.get? r = some b ∧ cfg.fixedSet round r b = some set) := by
  rcases List.mem_append.mp h with h | h
  · split at h
    · rename_i hlead
      exact Or.inl ⟨hlead.1, hlead.2, mem_announcements.mp h⟩
    · cases h
  · split at h
    · rename_i hcons
      exact Or.inr ⟨hcons, mem_fixedSets.mp h⟩
    · cases h

theorem countP_fixedBy_le_one (cfg : ServerConfig C) (s : ServerSession C) (op : SessionOp)
    (r : Round) : (fixedBy cfg s op).countP (fun f => f.1 == r) ≤ 1 := by
  cases op with
  | endRound round =>
    have h1 : ((s.announcements cfg round).map (fun a => (a.1, a.2.1))).countP
        (fun f => f.1 == r) ≤ 1 := by
      rw [List.countP_map]
      refine s.rounds.countP_filterMap_le_one (k := r) ?_
      intro e a ha hr
      obtain ⟨x, -, rfl⟩ := Option.map_eq_some_iff.mp ha
      simpa using hr
    have h2 : (s.fixedSets cfg round).countP (fun f => f.1 == r) ≤ 1 := by
      refine s.rounds.countP_filterMap_le_one (k := r) ?_
      intro e a ha hr
      obtain ⟨x, -, rfl⟩ := Option.map_eq_some_iff.mp ha
      simpa using hr
    simp only [fixedBy, List.countP_append]
    by_cases hlead : cfg.mode = .leader
    · rw [not_consensus_of_leader hlead]
      split
      · simpa using h1
      · simp
    · rw [if_neg (fun h => hlead h.1)]
      split
      · simpa using h2
      · simp
  | inbound sender payload =>
    refine le_trans List.countP_le_length ?_
    simp only [fixedBy]
    split
    · split <;> simp
    · simp
  | beginRound round => simp [fixedBy]
  | checkpoint round k => simp [fixedBy]
  | setMisbehavior mode => simp [fixedBy]

/-- **A fixed set is not fixed again.** -/
theorem not_fixedBy_of_setFixed {op : SessionOp} {r : Round} (h : SetFixed cfg s r)
    {set : List ClientId} : (r, set) ∉ fixedBy cfg s op := by
  intro hmem
  cases op with
  | endRound round =>
    rcases mem_fixedBy_endRound hmem with ⟨hmode, -, b, demand, hb, hann⟩ | ⟨hcons, b, hb, hfix⟩
    · unfold SetFixed at h
      rw [hmode] at h
      rcases h with h | ⟨hnone, -⟩
      · rw [announceOne_eq_none_of_announced h] at hann
        cases hann
      · rw [hb] at hnone
        cases hnone
    · unfold SetFixed at h
      unfold ServerConfig.consensus at hcons
      split at hcons
      · rename_i publisher hmode
        rw [hmode] at h
        have hmark : b.finalized = true := Past.mark_of_get? h hb
        rw [(finalized_of_fixedSet hfix).1] at hmark
        cases hmark
      · cases hcons
  | inbound sender payload =>
    obtain ⟨hadm, hadopts, hnone, -⟩ := mem_fixedBy_inbound hmem
    unfold SetFixed at h
    unfold ServerConfig.adopts at hadopts
    split at hadopts
    · rename_i leader hmode
      rw [hmode] at h
      rcases h with h | h
      · rw [OrdMap.contains, hnone] at h
        cases h
      · rw [h.not_admits] at hadm
        cases hadm
    · cases hadopts
  | beginRound round => cases hmem
  | checkpoint round k => cases hmem
  | setMisbehavior mode => cases hmem

theorem endRound_maps (cfg : ServerConfig C) (s : ServerSession C) (round : Round) :
    (s.endRound cfg round).1.clientSetByRound =
        (s.settle cfg round).1.clientSetByRound.retain
          (fun r _ => decide (round.saturatingSub panetiereRoundRetention ≤ r)) ∧
      (s.endRound cfg round).1.announcedRounds =
        (s.settle cfg round).1.announcedRounds.retain
          (fun r _ => decide (round.saturatingSub panetiereRoundRetention ≤ r)) := by
  have hframe := (s.settle cfg round).1.emit_frame cfg round
  unfold endRound gc decodeSettled
  dsimp only
  rw [hframe]
  exact ⟨rfl, rfl⟩

theorem contains_settle (cfg : ServerConfig C) (s : ServerSession C) (round r : Round) :
    (s.clientSetByRound.contains r = true →
      (s.settle cfg round).1.clientSetByRound.contains r = true) ∧
    (s.announcedRounds.contains r = true →
      (s.settle cfg round).1.announcedRounds.contains r = true) := by
  unfold settle
  dsimp only
  split <;> split <;> refine ⟨fun h => ?_, fun h => ?_⟩ <;>
    simp [fixConsensusSets, announceSettled, OrdMap.contains_insertAll, h]

/-- What `gc` takes out of a map by round, it takes out of the buckets. -/
theorem gone_of_cutoff {round c r : Round} (hc : s.curRound = some c) (hle : round ≤ c)
    (hcut : ¬ round.saturatingSub panetiereRoundRetention ≤ r) :
    (s.endRound cfg round).1.rounds.get? r = none ∧ (s.endRound cfg round).1.Behind r := by
  constructor
  · show (OrdMap.retain _ _).get? r = none
    rw [OrdMap.get?_retain]
    simp [hcut]
  · exact (advances_endRound hc hle).behind (behind_of_lt_cutoff hc hle hcut)

theorem onInbound_maps (cfg : ServerConfig C) (s : ServerSession C) (sender : PeerId)
    (payload : Bytes) (r : Round) :
    (s.clientSetByRound.contains r = true →
      (s.onInbound cfg sender payload).1.clientSetByRound.contains r = true) ∧
    (s.onInbound cfg sender payload).1.announcedRounds = s.announcedRounds := by
  rcases s.onInbound_cases cfg sender payload with he | ⟨round, clients, _, -, -, he⟩ |
    ⟨msg, f, -, -, -, he⟩
  · rw [he]
    exact ⟨id, rfl⟩
  · rw [he]
    unfold adopt
    split
    · refine ⟨fun h => ?_, rfl⟩
      obtain ⟨set, hset⟩ := OrdMap.contains_iff.mp h
      refine OrdMap.contains_iff.mpr ⟨set, ?_⟩
      rw [OrdMap.get?_orInsert]
      by_cases hr : r = round
      · subst hr
        simp [hset]
      · rw [if_neg hr, hset]
    · exact ⟨id, rfl⟩
  · rw [he]
    exact ⟨id, rfl⟩

theorem checkpoint_maps (cfg : ServerConfig C) (s : ServerSession C) (round : Round) (k : U8) :
    (s.checkpoint cfg round k).1.clientSetByRound = s.clientSetByRound ∧
      (s.checkpoint cfg round k).1.announcedRounds = s.announcedRounds := by
  rcases s.checkpoint_cases cfg round k with he | ⟨b, b', -, he, -⟩ <;> rw [he] <;> exact ⟨rfl, rfl⟩

/-- What is known of a round's set stays known, or the round goes. -/
theorem contains_apply {op : SessionOp} {r : Round} (ht : s.Timely op) :
    (s.clientSetByRound.contains r = true → (s.apply cfg op).clientSetByRound.contains r = true ∨
      ((s.apply cfg op).rounds.get? r = none ∧ (s.apply cfg op).Behind r)) ∧
    (s.announcedRounds.contains r = true → (s.apply cfg op).announcedRounds.contains r = true ∨
      ((s.apply cfg op).rounds.get? r = none ∧ (s.apply cfg op).Behind r)) := by
  cases op with
  | beginRound round => exact ⟨Or.inl, Or.inl⟩
  | setMisbehavior mode => exact ⟨Or.inl, Or.inl⟩
  | inbound sender payload =>
    obtain ⟨h1, h2⟩ := s.onInbound_maps cfg sender payload r
    refine ⟨fun h => Or.inl (h1 h), fun h => Or.inl ?_⟩
    show (s.onInbound cfg sender payload).1.announcedRounds.contains r = true
    rw [h2, h]
  | checkpoint round k =>
    obtain ⟨h1, h2⟩ := s.checkpoint_maps cfg round k
    refine ⟨fun h => Or.inl ?_, fun h => Or.inl ?_⟩
    · show (s.checkpoint cfg round k).1.clientSetByRound.contains r = true
      rw [h1, h]
    · show (s.checkpoint cfg round k).1.announcedRounds.contains r = true
      rw [h2, h]
  | endRound round =>
    obtain ⟨c, hc, hle⟩ := ht
    obtain ⟨h1, h2⟩ := s.endRound_maps cfg round
    obtain ⟨h3, h4⟩ := s.contains_settle cfg round r
    by_cases hcut : round.saturatingSub panetiereRoundRetention ≤ r
    · refine ⟨fun h => Or.inl ?_, fun h => Or.inl ?_⟩
      · show (s.endRound cfg round).1.clientSetByRound.contains r = true
        obtain ⟨v, hv⟩ := OrdMap.contains_iff.mp (h3 h)
        rw [h1, OrdMap.contains, OrdMap.get?_retain, hv]
        simp [hcut]
      · show (s.endRound cfg round).1.announcedRounds.contains r = true
        obtain ⟨v, hv⟩ := OrdMap.contains_iff.mp (h4 h)
        rw [h2, OrdMap.contains, OrdMap.get?_retain, hv]
        simp [hcut]
    · exact ⟨fun _ => Or.inr (gone_of_cutoff hc hle hcut), fun _ => Or.inr (gone_of_cutoff hc hle hcut)⟩

/-- **Once fixed, a set stays fixed.** -/
theorem SetFixed.apply {op : SessionOp} {r : Round} (ht : s.Timely op) (h : SetFixed cfg s r) :
    SetFixed cfg (s.apply cfg op) r := by
  have ha : Advances s (s.apply cfg op) := advances_apply ht
  unfold SetFixed at h ⊢
  split at h
  · rcases h with h | ⟨hnone, hbehind⟩
    · exact (contains_apply ht).2 h
    · exact Or.inr ⟨ha.gone hnone hbehind, ha.behind hbehind⟩
  · rcases h with h | hbehind
    · exact ((contains_apply ht).1 h).imp id And.right
    · exact Or.inr (ha.behind hbehind)
  · exact Past.advance (fun _ _ hk => hk.finalized) ha h
  · trivial

/-- **A call that fixes a set leaves it fixed.** -/
theorem setFixed_of_fixedBy {op : SessionOp} {r : Round} {set : List ClientId} (ht : s.Timely op)
    (h : (r, set) ∈ fixedBy cfg s op) : SetFixed cfg (s.apply cfg op) r := by
  cases op with
  | endRound round =>
    obtain ⟨c, hc, hle⟩ := ht
    rcases mem_fixedBy_endRound h with ⟨hmode, hwith, b, demand, hb, hann⟩ | ⟨hcons, b, hb, hfix⟩
    · unfold SetFixed
      rw [hmode]
      have hset : (s.settle cfg round).1.announcedRounds.contains r = true := by
        unfold settle
        dsimp only
        rw [not_consensus_of_leader hmode, if_neg (by simp), if_pos ⟨hmode, hwith⟩]
        refine (OrdMap.contains_insertAll _).mpr (Or.inr ⟨(), ?_⟩)
        have := mem_announcements.mpr ⟨b, demand, hb, hann⟩
        obtain ⟨a, ha, he⟩ := List.mem_map.mp this
        exact List.mem_map.mpr ⟨a, ha, by cases he; rfl⟩
      -- announcements of rounds behind the retention are dropped at once, with their buckets
      by_cases hcut : round.saturatingSub panetiereRoundRetention ≤ r
      · refine Or.inl ?_
        obtain ⟨v, hv⟩ := OrdMap.contains_iff.mp hset
        show (s.endRound cfg round).1.announcedRounds.contains r = true
        rw [(s.endRound_maps cfg round).2, OrdMap.contains, OrdMap.get?_retain, hv]
        simp [hcut]
      · exact Or.inr (gone_of_cutoff hc hle hcut)
    -- in a consensus the bucket itself is marked
    · have hpast : Past (·.finalized) (s.settle cfg round).1 r := by
        refine Past.of_mark (b := cfg.fixOne round r b) ?_ (finalized_of_fixedSet hfix).2
        rw [s.settle_rounds cfg round, if_pos hcons, OrdMap.get?_mapVals, hb]
        rfl
      have hend := hpast.advance (fun _ _ hk => hk.finalized)
        ((advances_emit cfg _ round).trans (advances_after_settle hc hle))
      unfold SetFixed
      unfold ServerConfig.consensus at hcons
      split at hcons
      · rename_i publisher hmode
        rw [hmode]
        exact hend
      · cases hcons
  | inbound sender payload =>
    obtain ⟨hadm, hadopts, hnone, demand, hmsg⟩ := mem_fixedBy_inbound h
    have hout : (s.apply cfg (.inbound sender payload)).clientSetByRound.contains r = true := by
      show (s.onInbound cfg sender payload).1.clientSetByRound.contains r = true
      unfold onInbound
      rw [hmsg]
      dsimp only
      rw [if_pos (show s.admits (PanetiereWire.clientSet r set demand).round = true from hadm)]
      unfold adopt
      rw [if_pos hadopts]
      refine OrdMap.contains_iff.mpr ⟨set, ?_⟩
      rw [OrdMap.get?_orInsert, if_pos rfl, hnone]
      rfl
    unfold SetFixed
    unfold ServerConfig.adopts at hadopts
    split at hadopts
    · rename_i leader hmode
      rw [hmode]
      exact Or.inl hout
    · cases hadopts
  | beginRound round => cases h
  | checkpoint round k => cases h
  | setMisbehavior mode => cases h

/-- **At most one canonical set per round**, over a whole run. -/
theorem countP_setsFixed_le_one {ops : List SessionOp} (h : Driven cfg ops) (r : Round) :
    (setsFixed cfg ops).countP (fun f => f.1 == r) ≤ 1 := by
  refine countP_observed_le_one (M := fun s => SetFixed cfg s r)
    (fun σ _ => countP_fixedBy_le_one cfg _ σ.2 r) ?_ ?_
  · intro σ _ hfixed
    refine List.countP_eq_zero.mpr ?_
    rintro ⟨q, set⟩ hmem hq
    obtain rfl : q = r := by simpa using hq
    exact not_fixedBy_of_setFixed hfixed hmem
  · rintro σ hσ hne (hpos | hfixed)
    · obtain ⟨⟨q, set⟩, hmem, hq⟩ := List.countP_pos_iff.mp hpos
      obtain rfl : q = r := by simpa using hq
      exact setFixed_of_fixedBy (h.timely hσ hne) hmem
    · exact hfixed.apply (h.timely hσ hne)

/-- The set half of `end_round` knows only what was known and what it fixes. -/
theorem get?_settle {round r : Round} {set : List ClientId}
    (h : (s.settle cfg round).1.clientSetByRound.get? r = some set) :
    s.clientSetByRound.get? r = some set ∨ (r, set) ∈ fixedBy cfg s (.endRound round) := by
  simp only [fixedBy, List.mem_append]
  unfold settle at h
  dsimp only at h
  by_cases hlead : cfg.mode = .leader ∧ s.misbehavior ≠ some .withhold
  · rw [if_pos hlead, not_consensus_of_leader hlead.1, if_neg (by simp)] at h
    rw [if_pos hlead]
    exact (OrdMap.get?_insertAll_cases _ h).imp id Or.inl
  · rw [if_neg hlead] at h
    by_cases hcons : cfg.consensus = true
    · rw [if_pos hcons] at h ⊢
      exact (OrdMap.get?_insertAll_cases _ h).imp id Or.inr
    · rw [if_neg hcons] at h
      exact Or.inl h

theorem get?_onInbound {sender : PeerId} {payload : Bytes} {r : Round} {set : List ClientId}
    (h : (s.onInbound cfg sender payload).1.clientSetByRound.get? r = some set) :
    s.clientSetByRound.get? r = some set ∨ (r, set) ∈ fixedBy cfg s (.inbound sender payload) := by
  rcases s.onInbound_cases cfg sender payload with he | ⟨round, clients, demand, hmsg, hadm, he⟩ |
    ⟨msg, f, -, -, -, he⟩
  · rw [he] at h
    exact Or.inl h
  · rw [he] at h
    unfold adopt at h
    split at h
    · rename_i hadopts
      dsimp only at h
      rw [OrdMap.get?_orInsert] at h
      by_cases hr : r = round
      · subst hr
        rw [if_pos rfl] at h
        cases hold : s.clientSetByRound.get? r with
        | some set' =>
          rw [hold] at h
          exact Or.inl h
        | none =>
          rw [hold] at h
          cases h
          refine Or.inr ?_
          simp [fixedBy, hmsg, hadm, hadopts, hold]
      · rw [if_neg hr] at h
        exact Or.inl h
    · exact Or.inl h
  · rw [he] at h
    exact Or.inl h

/-- A call leaves only sets that were known before and sets it fixed. -/
theorem get?_apply {op : SessionOp} {r : Round} {set : List ClientId}
    (h : (s.apply cfg op).clientSetByRound.get? r = some set) :
    s.clientSetByRound.get? r = some set ∨ (r, set) ∈ fixedBy cfg s op := by
  cases op with
  | beginRound round => exact Or.inl h
  | setMisbehavior mode => exact Or.inl h
  | inbound sender payload => exact get?_onInbound h
  | checkpoint round k =>
    have h : (s.checkpoint cfg round k).1.clientSetByRound.get? r = some set := h
    rw [(s.checkpoint_maps cfg round k).1] at h
    exact Or.inl h
  | endRound round =>
    have h : (s.endRound cfg round).1.clientSetByRound.get? r = some set := h
    rw [(s.endRound_maps cfg round).1, OrdMap.get?_retain] at h
    obtain ⟨hset, -⟩ := Option.filter_eq_some_iff.mp h
    exact get?_settle hset

/-- **Every set a session holds was fixed in its run.** -/
theorem mem_setsFixed_of_get? {r : Round} {set : List ClientId} (ops : List SessionOp)
    (h : (after cfg ops).clientSetByRound.get? r = some set) : (r, set) ∈ setsFixed cfg ops := by
  induction ops using List.reverseRecOn with
  | nil => cases h
  | append_singleton ops op ih =>
    rw [after_concat] at h
    rw [setsFixed_concat]
    rcases get?_apply h with h | h
    · exact List.mem_append_left _ (ih h)
    · exact List.mem_append_right _ h

/-- A bucket that holds a canonical member holds its opening, slice and public. -/
theorem held_of_holds {sets : OrdMap Round (List ClientId)} {r : Round} {b : RoundState C}
    {clients : List ClientId} (hcanon : cfg.canonical sets r b = some clients) {c : ClientId}
    (hc : c ∈ clients) (h : cfg.holds b c = true) :
    c ∈ b.inboxItems.map Prod.fst ∧ c ∈ b.laneItems.map Prod.fst ∧ b.publics.contains c = true := by
  unfold ServerConfig.holds at h
  simp only [Bool.and_eq_true, Bool.or_eq_true, decide_eq_true_eq, List.any_eq_true,
    beq_iff_eq] at h
  obtain ⟨⟨hopen, ⟨i, hi, rfl⟩⟩, hpub⟩ := h
  refine ⟨?_, List.mem_map_of_mem hi, hpub⟩
  rcases hopen with hself | ⟨o, ho, heq⟩
  · unfold ServerConfig.canonical at hcanon
    rw [if_pos hself] at hcanon
    cases hcanon
    exact (List.mem_filter.mp (mem_sortDedup.mp hc)).1
  · exact heq ▸ List.mem_map_of_mem ho

/-- **One share per round, over one set.**  In any run a session emits at most one
share for a wire round and fixes at most one canonical set for it; and a share it
emits is over that set (its own, for a self-derived session), with every member's
opening, lane slice and public held in the bucket it was made from. -/
theorem one_share_per_round {ops : List SessionOp} (h : Driven cfg ops) (r : Round) :
    (emissions cfg ops).countP (PanetiereWire.isServerPublic r) ≤ 1 ∧
    (setsFixed cfg ops).countP (fun f => f.1 == r) ≤ 1 ∧
    ∀ σ ∈ steps ops, ∀ serverId clients aggOpen aggShare shareSum laneOpen signature,
      .serverPublic r serverId clients aggOpen aggShare shareSum laneOpen signature ∈
        sent cfg (after cfg σ.1) σ.2 →
      ∃ round b, σ.2 = .endRound round ∧
        ((after cfg σ.1).settle cfg round).1.rounds.get? r = some b ∧
        (if cfg.mode = .selfDerived then clients = sortDedup b.servable
          else (r, clients) ∈ setsFixed cfg (σ.1 ++ [σ.2])) ∧
        ∀ c ∈ clients, c ∈ b.inboxItems.map Prod.fst ∧ c ∈ b.laneItems.map Prod.fst ∧
          b.publics.contains c = true := by
  refine ⟨countP_emissions_le_one h r, countP_setsFixed_le_one h r, ?_⟩
  intro σ _ serverId clients aggOpen aggShare shareSum laneOpen signature hw
  obtain ⟨round, hop, hw⟩ :=
    endRound_of_sent (r := r) (by simp [PanetiereWire.isServerPublic]) hw
  obtain ⟨q, b, b', hb, -, -, -, clients', _, _, _, _, _, hwire, hcanon, -, hheld⟩ := mem_emit hw
  cases hwire
  refine ⟨round, b, hop, hb, ?_, fun c hc => held_of_holds hcanon hc (hheld c hc)⟩
  unfold ServerConfig.canonical at hcanon
  split
  · rename_i hself
    rw [if_pos hself] at hcanon
    exact (Option.some.inj hcanon).symm
  · rename_i hself
    rw [if_neg hself] at hcanon
    rw [setsFixed_concat]
    rcases get?_settle hcanon with hold | hnew
    · exact List.mem_append_left _ (mem_setsFixed_of_get? σ.1 hold)
    · exact List.mem_append_right _ (hop ▸ hnew)

/-- The toy leader emits its share of round 5, over the set it announced, once. -/
theorem one_share_per_round_leader :
    Driven (toyConfig 0 .leader) toyRun ∧
    setsFixed (toyConfig 0 .leader) toyRun = [(5, [7])] ∧
    0 < (emissions (toyConfig 0 .leader) toyRun).countP (PanetiereWire.isServerPublic 5) ∧
    (emissions (toyConfig 0 .leader) toyRun).countP (PanetiereWire.isServerPublic 5) ≤ 1 := by
  have h : Driven (toyConfig 0 .leader) toyRun := by decide +kernel
  exact ⟨h, by decide +kernel, by decide +kernel, (one_share_per_round h 5).1⟩

/-! ## Decoding -/

/-- A round that is decoded was not marked, and is. -/
theorem mem_settledRounds {r : Round} {plain : List C.KahePoly}
    (h : (r, plain) ∈ s.settledRounds cfg) :
    ∃ b b', s.rounds.get? r = some b ∧ b.decoded = false ∧
      (s.decodeSettled cfg).1.rounds.get? r = some b' ∧ b'.decoded = true := by
  obtain ⟨b, hb, hdec⟩ := OrdMap.mem_filterMap_entries
    (f := fun r b => (cfg.decodeOne s.clientSetByRound r b).1).mp h
  refine ⟨b, cfg.afterDecode s.clientSetByRound r b, hb, ?_, ?_, ?_⟩
  · unfold ServerConfig.decodeOne at hdec
    split at hdec
    · cases hdec
    · rename_i hfree
      exact Bool.eq_false_iff.mpr hfree
  · show (s.rounds.mapVals _).get? r = _
    rw [OrdMap.get?_mapVals, hb]
    rfl
  · unfold ServerConfig.afterDecode
    rw [hdec]
    rfl

/-- **At most one decode per round**, over a whole run. -/
theorem countP_decodings_le_one {ops : List SessionOp} (h : Driven cfg ops) (r : Round) :
    (decodings cfg ops).countP (fun d => d.1 == r) ≤ 1 := by
  have hkeep : ∀ b b' : RoundState C, Keeps b b' → b.decoded = true → b'.decoded = true :=
    fun _ _ hk => hk.decoded
  -- The state `decode_settled` works on, when the call is an `end_round`.
  have hmem : ∀ (s : ServerSession C) (op : SessionOp) plain, (r, plain) ∈ decodedBy cfg s op →
      ∃ round, op = .endRound round ∧
        (r, plain) ∈ ((s.settle cfg round).1.emitServerPublics cfg round).1.settledRounds cfg := by
    intro s op plain hd
    cases op with
    | endRound round => exact ⟨round, rfl, hd⟩
    | beginRound round => cases hd
    | inbound sender payload => cases hd
    | checkpoint round k => cases hd
    | setMisbehavior mode => cases hd
  refine countP_observed_le_one (M := fun s => Past (·.decoded) s r) ?_ ?_ ?_
  · intro σ _
    cases hop : σ.2 with
    | endRound round =>
      refine OrdMap.countP_filterMap_le_one _ (k := r) ?_
      intro e d hd hr
      obtain ⟨plain, -, rfl⟩ := Option.map_eq_some_iff.mp hd
      simpa using hr
    | beginRound round => exact Nat.zero_le 1
    | inbound sender payload => exact Nat.zero_le 1
    | checkpoint round k => exact Nat.zero_le 1
    | setMisbehavior mode => exact Nat.zero_le 1
  · intro σ _ hpast
    refine List.countP_eq_zero.mpr ?_
    rintro ⟨q, plain⟩ hd hq
    obtain rfl : q = r := by simpa using hq
    obtain ⟨round, -, hd⟩ := hmem _ _ _ hd
    obtain ⟨b, -, hb, hfree, -⟩ := mem_settledRounds hd
    have := (hpast.advance hkeep ((advances_settle cfg _ round).trans
      (advances_emit cfg _ round))).mark_of_get? hb
    rw [hfree] at this
    cases this
  · rintro σ hσ hne (hpos | hpast)
    · obtain ⟨⟨q, plain⟩, hd, hq⟩ := List.countP_pos_iff.mp hpos
      obtain rfl : q = r := by simpa using hq
      obtain ⟨round, hop, hd⟩ := hmem _ _ _ hd
      obtain ⟨-, b', -, -, hb', hmarked⟩ := mem_settledRounds hd
      have htimely := h.timely hσ hne
      rw [hop] at htimely ⊢
      obtain ⟨c, hc, hle⟩ := htimely
      refine (Past.of_mark hb' hmarked).advance hkeep (advances_gc ?_ hle)
      show (((after cfg σ.1).settle cfg round).1.emitServerPublics cfg round).1.curRound = some c
      rw [emit_frame]
      exact ((after cfg σ.1).settle_frame cfg round).1.trans hc
    · exact hpast.advance hkeep (advances_apply (h.timely hσ hne))

/-- Between two moments of a run before its last call, every call was timely. -/
theorem Driven.advances {ops l l' : List SessionOp} (h : Driven cfg ops) (hl : l <+: l')
    (hl' : l' <+: ops) (hne : l' ≠ ops) : Advances (after cfg l) (after cfg l') := by
  obtain ⟨post, rfl⟩ := hl
  induction post using List.reverseRecOn with
  | nil =>
    rw [List.append_nil]
    exact .refl _
  | append_singleton post op ih =>
    rw [← List.append_assoc] at hl' hne ⊢
    have hpre : l ++ post <+: ops := (List.prefix_append _ _).trans hl'
    have hstep : (l ++ post, op) ∈ steps ops := by
      obtain ⟨rest, hrest⟩ := hl'
      exact mem_steps.mpr ⟨rest, by rw [← hrest]; simp⟩
    have hlt : l ++ post ≠ ops := by
      rintro rfl
      have := hl'.length_le
      rw [List.length_append, List.length_singleton] at this
      omega
    rw [after_concat]
    exact (ih hpre hlt).trans (advances_apply (h.timely hstep hne))

/-- `end_round` makes no bucket, whenever it is called. -/
theorem get?_endRound_of_none {round r : Round} (h : s.rounds.get? r = none) :
    (s.endRound cfg round).1.rounds.get? r = none := by
  have h1 : (s.settle cfg round).1.rounds.get? r = none := by
    rw [s.settle_rounds cfg round]
    split
    · rw [OrdMap.get?_mapVals, h]
      rfl
    · exact h
  have h2 : ((s.settle cfg round).1.emitServerPublics cfg round).1.rounds.get? r = none := by
    unfold emitServerPublics
    split
    · exact h1
    · show (OrdMap.mapVals _ _).get? r = none
      rw [OrdMap.get?_mapVals, h1]
      rfl
  show (OrdMap.retain (OrdMap.mapVals _ _) _).get? r = none
  rw [OrdMap.get?_retain, OrdMap.get?_mapVals, h2]
  rfl

/-- **No round is decoded twice**, and a bucket that went does not come back: from
then on no message of its round is in the window, and at no later moment is the
bucket there. -/
theorem no_round_decoded_twice {ops : List SessionOp} (h : Driven cfg ops) (r : Round) :
    (decodings cfg ops).countP (fun d => d.1 == r) ≤ 1 ∧
    ∀ l1 l2 l3, l1 <+: l2 → l2 <+: l3 → l3 <+: ops →
      (after cfg l1).rounds.contains r = true → (after cfg l2).rounds.contains r = false →
      (after cfg l3).rounds.contains r = false ∧
        (l3 ≠ ops → roundInWindow r (after cfg l3).curRound = false) := by
  refine ⟨countP_decodings_le_one h r, ?_⟩
  intro l1 l2 l3 h12 h23 h3 hthere hgone
  obtain ⟨b, hb⟩ := OrdMap.contains_iff.mp hthere
  have hgone : (after cfg l2).rounds.get? r = none := by
    simpa [OrdMap.contains] using hgone
  by_cases hl2 : l2 = ops
  · subst hl2
    obtain rfl : l3 = l2 := h3.eq_of_length (le_antisymm h3.length_le h23.length_le)
    exact ⟨by simp [OrdMap.contains, hgone], fun hne => absurd rfl hne⟩
  · have hbehind : (after cfg l2).Behind r := by
      rcases (h.advances h12 (h23.trans h3) hl2).kept hb with ⟨b', hb', -⟩ | ⟨-, hbehind⟩
      · rw [hgone] at hb'
        cases hb'
      · exact hbehind
    have hlater : ∀ l, l2 <+: l → l <+: ops → l ≠ ops →
        (after cfg l).rounds.get? r = none ∧ (after cfg l).Behind r := by
      intro l h2l hl hne
      have hadv := h.advances h2l hl hne
      exact ⟨hadv.gone hgone hbehind, hadv.behind hbehind⟩
    by_cases hl3 : l3 = ops
    · subst hl3
      refine ⟨?_, fun hne => absurd rfl hne⟩
      rcases List.eq_nil_or_concat l3 with rfl | ⟨pre, op, rfl⟩
      · exact absurd (List.prefix_nil.mp h23) hl2
      · rw [List.concat_eq_append] at h h23 hl2 hlater ⊢
        have hpre : l2 <+: pre := (List.prefix_concat_iff.mp h23).resolve_left hl2
        obtain ⟨hnone, hbeh⟩ := hlater pre hpre (List.prefix_append _ _) (by simp)
        rw [after_concat]
        have hlast := h (pre, op) (mem_steps.mpr ⟨[], rfl⟩)
        -- A drain's last call is past the clock, but it makes no bucket.
        rcases hlast with htimely | ⟨⟨round, hop⟩, -⟩
        · rw [OrdMap.contains, (advances_apply htimely).gone hnone hbeh]
          rfl
        · dsimp only at hop
          subst hop
          show ((after cfg pre).endRound cfg round).1.rounds.contains r = false
          rw [OrdMap.contains, get?_endRound_of_none hnone]
          rfl
    · obtain ⟨hnone, hbeh⟩ := hlater l3 h23 h3 hl3
      exact ⟨by simp [OrdMap.contains, hnone], fun _ => hbeh.not_in_window⟩

/-- The toy leader decodes round 5 once; after round 12 its bucket is gone, and the
peer's share of round 5 finds it closed. -/
theorem no_round_decoded_twice_leader :
    Driven (toyConfig 0 .leader) toyRun ∧
    (decodings (toyConfig 0 .leader) toyRun).map Prod.fst = [5] ∧
    (decodings (toyConfig 0 .leader) toyRun).countP (fun d => d.1 == 5) ≤ 1 ∧
    roundInWindow 5 (after (toyConfig 0 .leader) (toyRun.take 14)).curRound = false ∧
    (after (toyConfig 0 .leader) toyRun).rounds.contains 5 = false := by
  have h : Driven (toyConfig 0 .leader) toyRun := by decide +kernel
  have hgone := (no_round_decoded_twice h 5).2 (toyRun.take 8) (toyRun.take 14)
  have hthere : (after (toyConfig 0 .leader) (toyRun.take 8)).rounds.contains 5 = true := by
    decide +kernel
  have hdropped : (after (toyConfig 0 .leader) (toyRun.take 14)).rounds.contains 5 = false := by
    decide +kernel
  have hbefore : toyRun.take 8 <+: toyRun.take 14 := List.take_prefix_take_left (by omega)
  refine ⟨h, by decide +kernel, (no_round_decoded_twice h 5).1, ?_, ?_⟩
  · exact (hgone (toyRun.take 14) hbefore (List.prefix_refl _) (List.take_prefix ..) hthere
      hdropped).2 (fun he => absurd (congrArg List.length he) (by decide +kernel))
  · exact (hgone toyRun hbefore (List.take_prefix ..) (List.prefix_refl _) hthere hdropped).1

end ServerSession
end Anymone
