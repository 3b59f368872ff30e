import Anymone.ScheduledClient
import Mathlib.Data.Multiset.AddSub
import Mathlib.Tactic.Abel

/-! # What becomes of a scheduled payload

Every call of the session moves payloads between its four queues, takes one in, or
copies the due ones into the round's message vector (`held_apply`).  Only a grant that
runs past the end of the vector drops out of the account.
-/

namespace Anymone
variable {C : ScheduledCrate}

/-- The payloads among a list of items, each as often as it is there; cover items are
empty. -/
def payloads (l : List Bytes) : Multiset Bytes := ↑(l.filter (fun p => p ≠ []))

@[simp] theorem payloads_nil : payloads [] = 0 := rfl

@[simp] theorem payloads_append (l l' : List Bytes) :
    payloads (l ++ l') = payloads l + payloads l' := by
  unfold payloads
  rw [List.filter_append, Multiset.coe_add]

theorem payloads_cons (p : Bytes) (l : List Bytes) :
    payloads (p :: l) = payloads [p] + payloads l := payloads_append [p] l

@[simp] theorem payloads_filter (l : List Bytes) :
    payloads (l.filter (fun p => p ≠ [])) = payloads l := by
  unfold payloads
  rw [List.filter_filter]
  simp

theorem payloads_singleton {p : Bytes} : payloads [p] = if p = [] then 0 else {p} := by
  unfold payloads
  by_cases h : p = [] <;> simp [h]

theorem payloads_perm {l l' : List Bytes} (h : l.Perm l') : payloads l = payloads l' :=
  Multiset.coe_eq_coe.mpr (h.filter _)

/-- The payloads a test picks out and those it does not. -/
theorem payloads_split {α : Type} (f : α → Bytes) (p : α → Bool) (l : List α) :
    payloads (l.map f) = payloads ((l.filter p).map f) + payloads ((l.filter (fun x => !p x)).map f) := by
  have hperm := ((List.filter_append_perm p l).map f).symm
  rw [List.map_append] at hperm
  rw [payloads_perm hperm, payloads_append]

/-- The items under reservation, whatever the round. -/
def reservedItems (reserved : OrdMap Round (List (U16 × Bytes))) : List Bytes :=
  reserved.values.flatten.map Prod.snd

theorem reservedItems_perm {m : OrdMap Round (List (U16 × Bytes))}
    {l : List (Round × List (U16 × Bytes))} (h : m.entries.Perm l) :
    (reservedItems m).Perm ((l.map Prod.snd).flatten.map Prod.snd) :=
  ((h.map Prod.snd).flatten).map Prod.snd

theorem coinSplit_cons (rng : C.Rng) (data : Bytes) (rest : List Bytes) :
    coinSplit rng (data :: rest) =
      (if (C.genBool rng).1 then
        (data :: (coinSplit (C.genBool rng).2 rest).1.1, (coinSplit (C.genBool rng).2 rest).1.2)
      else
        ((coinSplit (C.genBool rng).2 rest).1.1, data :: (coinSplit (C.genBool rng).2 rest).1.2),
      (coinSplit (C.genBool rng).2 rest).2) := rfl

/-- The payloads of a coin flip's two sides are those that were flipped for. -/
theorem coinSplit_payloads (rng : C.Rng) (l : List Bytes) :
    payloads (coinSplit rng l).1.1 + payloads (coinSplit rng l).1.2 = payloads l := by
  induction l generalizing rng with
  | nil => rfl
  | cons data rest ih =>
    rw [payloads_cons, ← ih (C.genBool rng).2, coinSplit_cons]
    dsimp only
    by_cases hcoin : (C.genBool rng).1 = true
    · simp only [if_pos hcoin]
      rw [payloads_cons data, add_assoc]
    · simp only [if_neg hcoin]
      rw [payloads_cons data, add_left_comm]

theorem freshRand_not_mem {taken : List U16} {spins : Nat} {rng : C.Rng} {r : U16 × C.Rng}
    (h : freshRand taken spins rng = some r) : r.1 ∉ taken := by
  induction spins generalizing rng with
  | zero => cases h
  | succ spins ih =>
    unfold freshRand at h
    dsimp only at h
    split at h
    · exact ih h
    · rename_i hfresh
      cases h
      exact hfresh

/-- The reservation loop reserves for every staged item, in order, and adds no rand
twice. -/
theorem reserveAll_spec {spins : Nat} {items : List Bytes} {sched : C.MseEncoding}
    {reservations : List (U16 × Bytes)} {rng : C.Rng}
    {out : C.MseEncoding × List (U16 × Bytes) × C.Rng}
    (h : reserveAll spins items sched reservations rng = some out) :
    out.2.1.map Prod.snd = reservations.map Prod.snd ++ items ∧
      ((reservations.map Prod.fst).Nodup → (out.2.1.map Prod.fst).Nodup) := by
  induction items generalizing sched reservations rng with
  | nil =>
    cases h
    exact ⟨(List.append_nil _).symm, id⟩
  | cons data rest ih =>
    obtain ⟨r, hr, h⟩ := Option.bind_eq_some_iff.mp h
    obtain ⟨hitems, hnodup⟩ := ih h
    refine ⟨?_, fun hn => hnodup ?_⟩
    · rw [hitems]
      simp
    · have hfresh := freshRand_not_mem hr
      rw [List.map_append, List.nodup_append]
      refine ⟨hn, by simp, ?_⟩
      intro a ha b hb
      simp only [List.map_cons, List.map_nil, List.mem_singleton] at hb
      rintro rfl
      exact hfresh (hb ▸ ha)

namespace ScheduledClientSession
variable (cfg : ScheduledClientConfig C) (s : ScheduledClientSession C)

/-- The payloads in the session's four queues. -/
def held : Multiset Bytes :=
  payloads s.staged + payloads s.deferred + payloads (reservedItems s.reserved) +
    payloads (s.granted.map (fun g => g.2.2))

/-- **`take_pending_messages` returns what the session holds**, each payload once. -/
theorem takePendingMessages_eq : (s.takePendingMessages.2 : Multiset Bytes) = s.held := by
  have hall : (s.takePendingMessages.2 : Multiset Bytes) =
      payloads (s.granted.map (fun g => g.2.2) ++ reservedItems s.reserved ++ s.deferred ++
        s.staged) := rfl
  rw [hall, payloads_append, payloads_append, payloads_append]
  unfold held
  abel

/-- It leaves the session with none. -/
theorem held_takePendingMessages : s.takePendingMessages.1.held = 0 := rfl

/-- The payload a call takes in. -/
def accepted : ClientOp → List Bytes
  | .reserve payload =>
      if (s.reserveMessage cfg payload).toOption.isSome ∧ payload ≠ [] then [payload] else []
  | _ => []

/-- A due grant ends within the round's message vector. -/
def Fits (round : Round) (g : Nat × Bytes) : Prop :=
  g.1 + g.2.length ≤ s.msgBytes cfg round

instance (round : Round) (g : Nat × Bytes) : Decidable (s.Fits cfg round g) := by
  unfold Fits
  infer_instance

/-- The payloads a call copies whole into a message vector. -/
def copied : ClientOp → List Bytes
  | .finalize round _ =>
      if cfg.complete then
        (((s.due round).filter (fun g => decide (s.Fits cfg round g))).map Prod.snd).filter
          (fun p => p ≠ [])
      else []
  | _ => []

/-- The payloads a call drops after copying less than all of them. -/
def cutShort : ClientOp → List Bytes
  | .finalize round _ =>
      if cfg.complete then
        (((s.due round).filter (fun g => !decide (s.Fits cfg round g))).map Prod.snd).filter
          (fun p => p ≠ [])
      else []
  | _ => []

variable {cfg s}

theorem held_reserveMessage (payload : Bytes) :
    (s.apply cfg (.reserve payload)).held =
      s.held + (s.accepted cfg (.reserve payload) : Multiset Bytes) := by
  show ((s.reserveMessage cfg payload).toOption.getD s).held = s.held +
    ((if (s.reserveMessage cfg payload).toOption.isSome ∧ payload ≠ [] then [payload] else [] :
      List Bytes) : Multiset Bytes)
  unfold reserveMessage
  by_cases hlen : min cfg.vectorBytes.val 65535 < payload.length
  · rw [if_pos hlen]
    exact (add_zero _).symm
  · rw [if_neg hlen]
    have hheld : ({ s with staged := s.staged ++ [payload] } : ScheduledClientSession C).held =
        s.held + payloads [payload] := by
      unfold held
      rw [payloads_append]
      abel
    refine hheld.trans (congrArg (s.held + ·) ?_)
    rw [payloads_singleton]
    by_cases hp : payload = [] <;> simp [hp, Except.toOption]

theorem held_advanceRound (round : Round) : (s.advanceRound round).held = s.held := by
  have hsplit : payloads (reservedItems s.reserved) =
      payloads (reservedItems (s.reserved.retain
        (fun r _ => decide (round.saturatingSub panetiereRoundRetention ≤ r)))) +
      payloads (reservedItems (s.reserved.retain
        (fun r _ => decide (r < round.saturatingSub panetiereRoundRetention)))) := by
    have hperm := List.filter_append_perm
      (fun e : Round × List (U16 × Bytes) =>
        decide (round.saturatingSub panetiereRoundRetention ≤ e.1)) s.reserved.entries
    rw [payloads_perm (reservedItems_perm hperm.symm), List.map_append, List.flatten_append,
      List.map_append, payloads_append]
    unfold reservedItems OrdMap.values OrdMap.retain
    simp only [← decide_not, not_le]
  unfold held advanceRound
  dsimp only
  rw [payloads_append, payloads_filter, hsplit]
  unfold reservedItems
  abel

theorem held_settle (target : Round) (entries : List Entry) (offs : List (Option Nat))
    (mine : List (U16 × Bytes)) :
    (s.settle target entries offs mine).held = s.held + payloads (mine.map Prod.snd) := by
  have hmine : payloads (mine.map Prod.snd) =
      payloads ((mine.filterMap (fun m =>
        (grantedSlot entries offs m).map (fun o => (target, o, m.2)))).map (fun g => g.2.2)) +
      payloads ((mine.filter (fun m =>
        (grantedSlot entries offs m).isNone && m.2 ≠ [])).map Prod.snd) := by
    induction mine with
    | nil => rfl
    | cons m mine ih =>
      rw [List.map_cons, payloads_cons, ih, List.filterMap_cons, List.filter_cons]
      cases hslot : grantedSlot entries offs m with
      | some o =>
        simp only [Option.map_some, Option.isNone_some, Bool.false_and, Bool.false_eq_true,
          if_false, List.map_cons]
        rw [payloads_cons m.2 (List.map _ _), add_assoc]
      | none =>
        by_cases hempty : m.2 = []
        · simp [hempty, payloads_singleton]
        · simp only [Option.map_none, Option.isNone_none, hempty, ne_eq, not_false_eq_true,
            decide_true, Bool.and_self, if_true, List.map_cons]
          rw [payloads_cons m.2 (List.map _ _), add_left_comm]
  unfold held settle
  dsimp only
  rw [List.map_append, payloads_append, payloads_append, hmine]
  abel

theorem held_acceptReservations (round : Round) (entries : List Entry) (signature : Bytes) :
    (s.apply cfg (.accept round entries signature)).held = s.held := by
  show ((s.acceptReservations cfg round entries signature).toOption.getD s).held = s.held
  unfold acceptReservations
  split_ifs
  · rfl
  · rfl
  · dsimp only
    cases hmine : s.reserved.get? round with
    | none => rfl
    | some mine =>
      have hreserved : payloads (reservedItems s.reserved) =
          payloads (mine.map Prod.snd) + payloads (reservedItems (s.reserved.erase round)) := by
        rw [payloads_perm (reservedItems_perm (OrdMap.entries_perm_erase hmine)), List.map_cons,
          List.flatten_cons, List.map_append, payloads_append]
        rfl
      refine (held_settle ..).trans ?_
      unfold held
      dsimp only
      rw [hreserved]
      abel

/-- The items a finalized round reserves for carry the payloads that were staged
again; a cover item carries none. -/
theorem payloads_toReserve (round : Round) :
    payloads (s.toReserve cfg round).1 = payloads (s.restaged round) := by
  unfold toReserve
  by_cases h : s.restaged round = []
  · rw [if_pos h, h]
    dsimp only
    split <;> rfl
  · rw [if_neg h]

/-- Every grant is due, missed or kept, and a due one fits or does not. -/
theorem payloads_granted (hc : cfg.complete = true) (round : Round) (spins : Nat) :
    payloads (s.granted.map (fun g => g.2.2)) =
      (s.copied cfg (.finalize round spins) : Multiset Bytes) +
      (s.cutShort cfg (.finalize round spins) : Multiset Bytes) + payloads (s.missed round) +
      payloads ((s.granted.filter (fun g => round < g.1)).map (fun g => g.2.2)) := by
  have hdue : payloads ((s.due round).map Prod.snd) =
      (s.copied cfg (.finalize round spins) : Multiset Bytes) +
      (s.cutShort cfg (.finalize round spins) : Multiset Bytes) := by
    unfold copied cutShort
    dsimp only
    rw [if_pos hc, if_pos hc]
    exact payloads_split Prod.snd (fun g => decide (s.Fits cfg round g)) (s.due round)
  rw [payloads_split (fun g => g.2.2) (fun g => decide (g.1 = round)) s.granted, ← hdue,
    payloads_split (fun g => g.2.2) (fun g => decide (g.1 < round))
      (s.granted.filter (fun g => !decide (g.1 = round))), List.filter_filter, List.filter_filter]
  have hlt : s.granted.filter (fun g => decide (g.1 < round) && !decide (g.1 = round)) =
      s.granted.filter (fun g => decide (g.1 < round)) :=
    List.filter_congr (fun g _ => by by_cases h : g.1 < round <;> simp [h, ne_of_lt])
  have hgt : s.granted.filter (fun g => !decide (g.1 < round) && !decide (g.1 = round)) =
      s.granted.filter (fun g => decide (round < g.1)) := by
    refine List.filter_congr (fun g _ => ?_)
    rcases lt_trichotomy g.1 round with h | h | h
    · simp [h, h.not_gt]
    · simp [h]
    · simp [h, h.not_gt, h.ne']
  rw [hlt, hgt]
  unfold due missed
  rw [List.map_map]
  exact (add_assoc ..).symm

/-- The session `finalize_round` leaves, before and after its post. -/
theorem finalizeRound_cases {round : Round} {spins : Nat}
    {out : ScheduledClientSession C × List PanetiereWire}
    (h : s.finalizeRound cfg round spins = some out) :
    (cfg.complete = false ∧ out.1 = s) ∨
    (cfg.complete = true ∧ ∃ drawn st, s.draw cfg round spins = some drawn ∧
      out.1 = drawn.session.withPost st) := by
  unfold finalizeRound at h
  by_cases hc : cfg.complete = true
  · rw [if_neg (by simp [hc])] at h
    obtain ⟨drawn, hdrawn, h⟩ := Option.bind_eq_some_iff.mp h
    refine Or.inr ⟨hc, drawn, ?_⟩
    split at h
    · cases h
      exact ⟨_, hdrawn, rfl⟩
    · obtain ⟨posted, -, h⟩ := Option.bind_eq_some_iff.mp h
      cases h
      exact ⟨_, hdrawn, rfl⟩
  · rw [Bool.not_eq_true] at hc
    rw [if_pos (by simp [hc])] at h
    cases h
    exact Or.inl ⟨hc, rfl⟩

/-- What a drawn round makes of the session. -/
theorem draw_spec {round : Round} {spins : Nat} {drawn : Drawn C}
    (h : s.draw cfg round spins = some drawn) :
    drawn.session.staged = [] ∧
    drawn.session.deferred = (coinSplit s.randRng (s.deferred ++ s.missed round)).1.2 ∧
    drawn.session.granted = s.granted.filter (fun g => round < g.1) ∧
    drawn.session.reserved = (if drawn.reservations = [] then s.reserved
      else s.reserved.insert round drawn.reservations) ∧
    drawn.session.entriesByRound = s.entriesByRound ∧
    drawn.session.curRound = s.curRound ∧
    drawn.reservations.map Prod.snd = (s.toReserve cfg round).1 ∧
    (drawn.reservations.map Prod.fst).Nodup := by
  unfold draw at h
  obtain ⟨out, hout, h⟩ := Option.bind_eq_some_iff.mp h
  obtain ⟨hitems, hnodup⟩ := reserveAll_spec hout
  cases h
  exact ⟨rfl, rfl, rfl, rfl, rfl, rfl, hitems, hnodup List.nodup_nil⟩

theorem held_draw {round : Round} {spins : Nat} {drawn : Drawn C} (hc : cfg.complete = true)
    (hfresh : s.reserved.get? round = none) (h : s.draw cfg round spins = some drawn) :
    drawn.session.held + (s.copied cfg (.finalize round spins) : Multiset Bytes) +
      (s.cutShort cfg (.finalize round spins) : Multiset Bytes) = s.held := by
  obtain ⟨hstaged, hdeferred, hgranted, hreserved, -, -, hitems, -⟩ := draw_spec h
  have hnew : payloads (reservedItems drawn.session.reserved) =
      payloads (reservedItems s.reserved) + payloads (s.restaged round) := by
    have hrestaged : payloads (s.toReserve cfg round).1 = payloads (s.restaged round) :=
      payloads_toReserve round
    rw [hreserved, ← hrestaged, ← hitems]
    by_cases hempty : drawn.reservations = []
    · rw [if_pos hempty, hempty]
      exact (add_zero _).symm
    · rw [if_neg hempty, payloads_perm (reservedItems_perm (OrdMap.entries_perm_insert hfresh)),
        List.map_cons, List.flatten_cons, List.map_append, payloads_append, add_comm]
      rfl
  have hcoin := coinSplit_payloads s.randRng (s.deferred ++ s.missed round)
  have hrestaged : payloads (s.restaged round) = payloads s.staged +
      payloads (coinSplit s.randRng (s.deferred ++ s.missed round)).1.1 := payloads_append ..
  rw [payloads_append] at hcoin
  unfold held
  rw [hstaged, hdeferred, hgranted, hnew, hrestaged, payloads_granted hc round spins, payloads_nil]
  calc _ = payloads s.staged +
        (payloads (coinSplit s.randRng (s.deferred ++ s.missed round)).1.1 +
          payloads (coinSplit s.randRng (s.deferred ++ s.missed round)).1.2) +
        payloads (reservedItems s.reserved) +
        payloads ((s.granted.filter (fun g => round < g.1)).map (fun g => g.2.2)) +
        (s.copied cfg (.finalize round spins) : Multiset Bytes) +
        (s.cutShort cfg (.finalize round spins) : Multiset Bytes) := by abel
    _ = _ := by
      rw [hcoin]
      abel

/-- **One call of the session.**  What it held and what it takes in is what it holds
afterwards, what it copied whole and what it cut short. -/
theorem held_apply (op : ClientOp)
    (hret : ∀ round spins, op = .finalize round spins →
      (s.finalizeRound cfg round spins).isSome ∧ s.reserved.get? round = none) :
    (s.apply cfg op).held + (s.copied cfg op : Multiset Bytes) +
      (s.cutShort cfg op : Multiset Bytes) = s.held + (s.accepted cfg op : Multiset Bytes) := by
  cases op with
  | reserve payload =>
    rw [held_reserveMessage]
    exact (add_zero _).trans (add_zero _)
  | advance round =>
    have hheld : (s.apply cfg (.advance round)).held = s.held := held_advanceRound round
    rw [hheld]
    exact add_zero _
  | accept round entries signature =>
    rw [held_acceptReservations]
    exact add_zero _
  | finalize round spins =>
    obtain ⟨hsome, hfresh⟩ := hret round spins rfl
    obtain ⟨out, hout⟩ := Option.isSome_iff_exists.mp hsome
    have happly : s.apply cfg (.finalize round spins) = out.1 := by
      show ((s.finalizeRound cfg round spins).map Prod.fst).getD s = out.1
      rw [hout]
      rfl
    have haccepted : (s.accepted cfg (.finalize round spins) : Multiset Bytes) = 0 := rfl
    rw [happly, haccepted, add_zero]
    rcases finalizeRound_cases hout with ⟨hc, hs⟩ | ⟨hc, drawn, st, hdrawn, hs⟩
    · rw [hs]
      unfold copied cutShort
      dsimp only
      rw [if_neg (by simp [hc]), if_neg (by simp [hc])]
      exact (add_zero _).trans (add_zero _)
    · rw [hs]
      exact held_draw hc hfresh hdrawn
  | batch round data => exact add_zero _
  | prepare round => exact add_zero _
  | repair round => exact add_zero _
  | share entries => exact add_zero _

end ScheduledClientSession
end Anymone
