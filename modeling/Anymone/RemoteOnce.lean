import Anymone.RemoteHost
import Anymone.RemoteReconfigure
import Mathlib.Data.List.Count
import Mathlib.Data.List.Pairwise

/-! # Commands are executed once

The commands that the phone applies are the ones the desktop numbered, in that order, each
at most once, and what they make of the phone's client is all that happens to it; a result that
the desktop gets for a command is that of its application, and until the phone closes the two
counters agree but for the command that is pending (`executes_once`).

The invariant has three parts.  `Wired`: a connection carries at most one message that the
client may still read, and it is right for what the client awaits.  `Counted`: what the
ledger and the counters say.  `Kept`: what the ledger says of the phone's client.
-/

namespace Anymone
variable {P : RemoteProgram}

/-! ## The host -/

namespace HostState
variable (host : HostState P)

/-- The host applies nothing: it keeps its client, and its place in the numbers. -/
structure Stands (host host' : HostState P) : Prop where
  client : host'.client = host.client
  nextRequest : host'.nextRequest = host.nextRequest
  closed : host'.closed = host.closed
  lastReply : host'.lastReply = host.lastReply

theorem finish_fields (sequence : U64) (operation : String) (digest : P.Digest)
    (result : P.Outcome) :
    (host.finish sequence operation digest result).nextRequest = host.nextRequest ∧
    (host.finish sequence operation digest result).closed = host.closed ∧
    (host.finish sequence operation digest result).lastReply = some (digest, result) ∧
    (host.finish sequence operation digest result).client = host.client := by
  cases result <;> exact ⟨rfl, rfl, rfl, rfl⟩

/-- A request that is not applied: its result, and why. -/
inductive Refusal (host : HostState P) (sequence : U64) (command : P.Command) :
    P.Outcome → Prop where
  | closed (h : host.closed = true) : Refusal host sequence command (.error .closed)
  | replay {result : P.Outcome} (hopen : host.closed = false)
      (h : sequence.next? = some host.nextRequest)
      (hlast : host.lastReply = some (P.digest (P.bytes command), result)) :
      Refusal host sequence command result
  | conflict (hopen : host.closed = false) (h : sequence.next? = some host.nextRequest)
      (hlast : ∀ result, host.lastReply ≠ some (P.digest (P.bytes command), result)) :
      Refusal host sequence command (.error .requestConflict)
  | sequence (hopen : host.closed = false) (h : sequence.next? ≠ some host.nextRequest)
      (hne : sequence ≠ host.nextRequest) :
      Refusal host sequence command (.error (.requestSequence host.nextRequest))
  | exhausted (hopen : host.closed = false) (h : sequence.next? = none) :
      Refusal host sequence command (.error .sequenceExhausted)

/-- **What a request comes to.** -/
theorem execute_cases {sequence : U64} {command : P.Command} {seed : P.Seed}
    {r : HostState P × P.Outcome} (h : host.execute sequence command seed = some r) :
    (host.applies sequence = false ∧ Stands host r.1 ∧ Refusal host sequence command r.2) ∨
    (host.applies sequence = true ∧ host.closed = false ∧ sequence = host.nextRequest ∧
      sequence.next? = some r.1.nextRequest ∧ r.1.closed = false ∧
      r.1.lastReply = some (P.digest (P.bytes command), r.2) ∧
      P.apply host.client command (P.bytes command).length seed = some (r.1.client, r.2)) := by
  -- A number is never its own successor, so no command is both late and next.
  have hself : sequence.next? = some host.nextRequest → sequence ≠ host.nextRequest := by
    intro h heq
    have := U64.val_next h
    rw [← heq] at this
    omega
  rw [execute] at h
  by_cases hclosed : host.closed = true
  · rw [if_pos hclosed] at h
    obtain rfl := Option.some.inj h
    exact Or.inl ⟨by simp [applies, hclosed], ⟨rfl, rfl, rfl, rfl⟩, .closed hclosed⟩
  rw [if_neg hclosed] at h
  have hopen : host.closed = false := Bool.not_eq_true _ ▸ hclosed
  by_cases hlate : sequence.next? = some host.nextRequest
  · have hidle : host.applies sequence = false := by simp [applies, hself hlate]
    rw [if_pos hlate] at h
    -- the previous number again: the stored reply is given back if the bytes are the same
    cases hlast : host.lastReply with
    | none =>
      rw [hlast] at h
      obtain rfl := Option.some.inj h
      exact Or.inl ⟨hidle, ⟨rfl, rfl, rfl, rfl⟩, .conflict hopen hlate (by simp [hlast])⟩
    | some reply =>
      obtain ⟨previous, result⟩ := reply
      rw [hlast] at h
      dsimp only at h
      by_cases hdigest : previous = P.digest (P.bytes command)
      · rw [if_pos hdigest] at h
        obtain rfl := Option.some.inj h
        exact Or.inl ⟨hidle, ⟨rfl, rfl, rfl, rfl⟩, .replay hopen hlate (by rw [hlast, hdigest])⟩
      · rw [if_neg hdigest] at h
        obtain rfl := Option.some.inj h
        refine Or.inl ⟨hidle, ⟨rfl, rfl, rfl, rfl⟩,
          .conflict hopen hlate (fun result' h => hdigest ?_)⟩
        rw [hlast] at h
        cases h
        rfl
  rw [if_neg hlate] at h
  by_cases hnext : sequence = host.nextRequest
  · rw [if_neg (not_not.mpr hnext)] at h
    cases hsucc : sequence.next? with
    | none =>
      rw [hsucc] at h
      obtain rfl := Option.some.inj h
      exact Or.inl ⟨by simp [applies, hsucc], ⟨rfl, rfl, rfl, rfl⟩, .exhausted hopen hsucc⟩
    | some next =>
      rw [hsucc] at h
      -- the only branch that reaches the client
      obtain ⟨applied, happly, rfl⟩ := Option.map_eq_some_iff.mp h
      obtain ⟨hn, hc, hl, hclient⟩ := finish_fields
        ({ host with client := applied.1, nextRequest := next } : HostState P) sequence
        (P.commandName command) (P.digest (P.bytes command)) applied.2
      refine Or.inr ⟨by simp [applies, hopen, hnext ▸ hsucc, hnext], hopen, hnext,
        congrArg some hn.symm, hc.trans hopen, hl, ?_⟩
      rw [happly, hclient]
  · rw [if_pos hnext] at h
    obtain rfl := Option.some.inj h
    exact Or.inl ⟨by simp [applies, hnext], ⟨rfl, rfl, rfl, rfl⟩, .sequence hopen hlate hnext⟩

end HostState

/-! ## The invariant -/

namespace RemoteLink
variable {L : RemoteLink P}

/-- The messages on a connection. -/
def load (L : RemoteLink P) (conn : Nat) : Nat :=
  L.inputs.countP (fun m => m.1 = conn) + L.replies.countP (fun m => m.1 = conn)

/-- A result that may be given for a command: that of its application, or what a closed or
exhausted host says. -/
def Result (L : RemoteLink P) (sequence : U64) (command : P.Command) (result : P.Outcome) : Prop :=
  ((sequence, command), result) ∈ L.ledger.applied ∨
  (L.host.closed = true ∧ result = .error .closed) ∨
  (sequence.next? = none ∧ result = .error .sequenceExhausted)

/-- A reply that may answer an input. -/
structure Answers (L : RemoteLink P) (input : SessionInput P) (reply : SessionReply P) : Prop where
  executed : ∀ sequence result, reply = .executed sequence result →
    ∃ command, input = .request sequence command ∧ L.Result sequence command result
  closed : reply = .closed → L.host.closed = true

/-- A reply that may come to a connection attempt. -/
structure Welcomes (L : RemoteLink P) (reply : SessionReply P) : Prop where
  paired : ∀ status, reply = .paired status → L.host.closed = false → L.client.pending = none →
    status.nextRequest = L.host.nextRequest
  executed : ∀ sequence result, reply ≠ .executed sequence result

/-- What the connections carry. -/
structure Wired (L : RemoteLink P) : Prop where
  inputs : ∀ m ∈ L.inputs, m.1 < L.conns
  replies : ∀ m ∈ L.replies, m.1 < L.conns
  stream : ∀ conn, L.client.stream = some conn →
    L.client.awaiting = .nothing ∧ conn < L.conns ∧ L.load conn = 0
  pairing : ∀ conn c, L.client.awaiting = .pairing conn c → conn < L.conns ∧ L.load conn ≤ 1 ∧
    (∀ m ∈ L.inputs, m.1 = conn → ∃ secret, m.2 = .resume secret) ∧
    ∀ m ∈ L.replies, m.1 = conn → L.Welcomes m.2
  reply : ∀ conn input, L.client.awaiting = .reply conn input → conn < L.conns ∧
    L.load conn ≤ 1 ∧ (∀ m ∈ L.inputs, m.1 = conn → m.2 = input) ∧
    (∀ m ∈ L.replies, m.1 = conn → L.Answers input m.2) ∧
    ∀ sequence command, input = .request sequence command →
      L.client.pending = some (sequence, command)

/-- How the counters agree while the host is open. -/
structure Aligned (L : RemoteLink P) : Prop where
  /-- An input is of a command that was answered, of the pending one, or has no successor. -/
  inputs : ∀ conn sequence command, (conn, .request sequence command) ∈ L.inputs →
    sequence.val < L.client.nextRequest.val ∨ L.client.pending = some (sequence, command) ∨
      sequence.next? = none
  idle : L.client.pending = none → L.host.nextRequest = L.client.nextRequest
  pending : ∀ sequence command, L.client.pending = some (sequence, command) →
    (L.host.nextRequest = sequence ∧ ∃ earlier,
      L.ledger.numbered = earlier ++ [(sequence, command)] ∧
        (L.ledger.applied.map Prod.fst).Sublist earlier) ∨
    (sequence.next? = some L.host.nextRequest ∧ ∃ result,
      L.host.lastReply = some (P.digest (P.bytes command), result) ∧
        ((sequence, command), result) ∈ L.ledger.applied)

/-- What the ledger says. -/
structure Counted (L : RemoteLink P) : Prop where
  below : ∀ a ∈ L.ledger.applied, a.1.1.val < L.host.nextRequest.val
  ordered : (L.ledger.applied.map (fun a => a.1.1)).Pairwise (· < ·)
  numbered : (L.ledger.applied.map Prod.fst).Sublist L.ledger.numbered
  errors : ∀ a ∈ L.ledger.applied, ∀ e, a.2 = .error e →
    e ≠ .requestConflict ∧ ∀ expected, e ≠ .requestSequence expected
  returned : ∀ x ∈ L.ledger.returned, x ∈ L.ledger.applied ∨
    (L.host.closed = true ∧ x.2 = .error .closed)
  received : ∀ sequence result, .executed sequence result ∈ L.ledger.received →
    ∃ command, L.Result sequence command result
  pending : ∀ sequence command, L.client.pending = some (sequence, command) →
    sequence = L.client.nextRequest
  aligned : L.host.closed = false → L.Aligned

/-- The whole invariant. -/
structure Sound (L : RemoteLink P) : Prop where
  wired : L.Wired
  counted : L.Counted

theorem sound_init (pairing : Pairing P) : (init pairing).Sound := by
  refine ⟨⟨nofun, nofun, ?_, nofun, nofun⟩, ⟨nofun, List.Pairwise.nil, List.Sublist.refl _, nofun,
    nofun, nofun, nofun, fun _ => ⟨nofun, fun _ => rfl, nofun⟩⟩⟩
  rintro conn h
  cases h
  exact ⟨rfl, Nat.one_pos, rfl⟩

/-! ## The client's steps -/

/-- Taking an element out of a list by its place. -/
theorem exists_split_of_getElem? {α : Type} {l : List α} {i : Nat} {a : α} (h : l[i]? = some a) :
    ∃ front rest, l = front ++ a :: rest ∧ l.eraseIdx i = front ++ rest := by
  obtain ⟨hi, rfl⟩ := List.getElem?_eq_some_iff.mp h
  refine ⟨l.take i, l.drop (i + 1), ?_, List.eraseIdx_eq_take_drop_succ ..⟩
  rw [← List.drop_eq_getElem_cons hi, List.take_append_drop]

theorem load_eq_zero {conn : Nat} : L.load conn = 0 ↔
    (∀ m ∈ L.inputs, m.1 ≠ conn) ∧ ∀ m ∈ L.replies, m.1 ≠ conn := by
  simp only [load, Nat.add_eq_zero_iff, List.countP_eq_zero, decide_eq_true_eq, ne_eq]

/-- A new connection carries nothing. -/
theorem Wired.load_conns (h : L.Wired) : L.load L.conns = 0 :=
  load_eq_zero.mpr ⟨fun m hm => (h.inputs m hm).ne, fun m hm => (h.replies m hm).ne⟩

/-- The ledger does not see what the connections do, as long as no new request appears. -/
theorem Counted.of_eq (h : L.Counted) {L' : RemoteLink P} (hledger : L'.ledger = L.ledger)
    (hhost : L'.host = L.host) (hnext : L'.client.nextRequest = L.client.nextRequest)
    (hpending : L'.client.pending = L.client.pending)
    (hinputs : ∀ m ∈ L'.inputs, ∀ sequence command, m.2 = .request sequence command →
      m ∈ L.inputs ∨ L.client.pending = some (sequence, command)) : L'.Counted := by
  refine ⟨?_, ?_, ?_, ?_, ?_, ?_, ?_, fun hopen => ?_⟩
  · rw [hledger, hhost]
    exact h.below
  · rw [hledger]
    exact h.ordered
  · rw [hledger]
    exact h.numbered
  · rw [hledger]
    exact h.errors
  · rw [hledger, hhost]
    exact h.returned
  · rw [hledger]
    intro sequence result hmem
    obtain ⟨command, hresult⟩ := h.received sequence result hmem
    refine ⟨command, ?_⟩
    rw [Result, hledger, hhost]
    exact hresult
  · rw [hnext, hpending]
    exact h.pending
  · rw [hhost] at hopen
    have hal := h.aligned hopen
    refine ⟨fun conn sequence command hmem => ?_, ?_, ?_⟩
    · rw [hnext, hpending]
      rcases hinputs _ hmem sequence command rfl with hold | hnew
      · exact hal.inputs conn sequence command hold
      · exact Or.inr (Or.inl hnew)
    · rw [hhost, hnext, hpending]
      exact hal.idle
    · rw [hhost, hpending, hledger]
      exact hal.pending

/-- The connections may lose messages; what the client may read stays right where the host
and the ledger allow it. -/
theorem Wired.mono (h : L.Wired) {L' : RemoteLink P} (hstream : L'.client.stream = L.client.stream)
    (hawait : L'.client.awaiting = L.client.awaiting)
    (hpending : L'.client.pending = L.client.pending) (hconns : L'.conns = L.conns)
    (hin : L'.inputs.Sublist L.inputs) (hout : L'.replies.Sublist L.replies)
    (hwelcomes : ∀ reply, L.Welcomes reply → L'.Welcomes reply)
    (hanswers : ∀ input reply, L.Answers input reply → L'.Answers input reply) : L'.Wired := by
  have hload : ∀ conn, L'.load conn ≤ L.load conn :=
    fun conn => Nat.add_le_add hin.countP_le hout.countP_le
  refine ⟨fun m hm => ?_, fun m hm => ?_, fun conn hs => ?_, fun conn c ha => ?_,
    fun conn input ha => ?_⟩
  · rw [hconns]
    exact h.inputs m (hin.subset hm)
  · rw [hconns]
    exact h.replies m (hout.subset hm)
  · rw [hstream] at hs
    obtain ⟨hnothing, hconn, hzero⟩ := h.stream conn hs
    exact ⟨hawait.trans hnothing, hconns ▸ hconn, Nat.le_zero.mp ((hload conn).trans hzero.le)⟩
  · rw [hawait] at ha
    obtain ⟨hconn, hone, hi, ho⟩ := h.pairing conn c ha
    exact ⟨hconns ▸ hconn, (hload conn).trans hone, fun m hm => hi m (hin.subset hm),
      fun m hm hc => hwelcomes _ (ho m (hout.subset hm) hc)⟩
  · rw [hawait] at ha
    obtain ⟨hconn, hone, hi, ho, hp⟩ := h.reply conn input ha
    refine ⟨hconns ▸ hconn, (hload conn).trans hone, fun m hm => hi m (hin.subset hm),
      fun m hm hc => hanswers _ _ (ho m (hout.subset hm) hc), ?_⟩
    rw [hpending]
    exact hp

theorem Sound.abandon (h : L.Sound) : L.abandon.Sound :=
  ⟨⟨h.wired.inputs, h.wired.replies, nofun, nofun, nofun⟩,
    h.counted.of_eq rfl rfl rfl rfl (fun _ hm _ _ _ => Or.inl hm)⟩

theorem Sound.dial (h : L.Sound) (c : RemoteCall P) : (L.dial c).Sound := by
  obtain ⟨hin, hout⟩ := load_eq_zero.mp h.wired.load_conns
  refine ⟨⟨fun m hm => ?_, fun m hm => (h.wired.replies m hm).trans (Nat.lt_succ_self _), nofun, ?_,
    nofun⟩, h.counted.of_eq rfl rfl rfl rfl (fun m hm sequence command hreq => ?_)⟩
  · rcases List.mem_append.mp hm with hm | hm
    · exact (h.wired.inputs m hm).trans (Nat.lt_succ_self _)
    · rw [List.mem_singleton.mp hm]
      exact Nat.lt_succ_self _
  · rintro conn c' hawait
    cases hawait
    refine ⟨Nat.lt_succ_self _, ?_, fun m hm hconn => ?_, fun m hm hconn => absurd hconn (hout m hm)⟩
    · have hzero := h.wired.load_conns
      simp only [load, RemoteLink.dial, List.countP_append, List.countP_cons, List.countP_nil,
        decide_true, if_true] at hzero ⊢
      omega
    · rcases List.mem_append.mp hm with hm | hm
      · exact absurd hconn (hin m hm)
      · exact ⟨_, congrArg Prod.snd (List.mem_singleton.mp hm)⟩
  · rcases List.mem_append.mp hm with hm | hm
    · exact Or.inl hm
    · rw [List.mem_singleton.mp hm] at hreq
      cases hreq

theorem Sound.exchange (h : L.Sound) {conn : Nat} {input : SessionInput P}
    (hstream : L.client.stream = some conn)
    (hinput : ∀ sequence command, input = .request sequence command →
      L.client.pending = some (sequence, command)) : (L.exchange conn input).Sound := by
  obtain ⟨-, hconn, hzero⟩ := h.wired.stream conn hstream
  obtain ⟨hin, hout⟩ := load_eq_zero.mp hzero
  refine ⟨⟨fun m hm => ?_, h.wired.replies, nofun, nofun, ?_⟩,
    h.counted.of_eq rfl rfl rfl rfl (fun m hm sequence command hreq => ?_)⟩
  · rcases List.mem_append.mp hm with hm | hm
    · exact h.wired.inputs m hm
    · rw [List.mem_singleton.mp hm]
      exact hconn
  · rintro conn' input' hawait
    cases hawait
    refine ⟨hconn, ?_, fun m hm hc => ?_, fun m hm hc => absurd hc (hout m hm), hinput⟩
    · simp only [load, RemoteLink.exchange, List.countP_append, List.countP_cons, List.countP_nil,
        decide_true, if_true] at hzero ⊢
      omega
    · rcases List.mem_append.mp hm with hm | hm
      · exact absurd hc (hin m hm)
      · exact congrArg Prod.snd (List.mem_singleton.mp hm)
  · rcases List.mem_append.mp hm with hm | hm
    · exact Or.inl hm
    · rw [List.mem_singleton.mp hm] at hreq
      exact Or.inr (hinput sequence command hreq)

theorem Sound.retryPending (h : L.Sound) {conn : Nat} (hstream : L.client.stream = some conn) :
    (L.retryPending conn).Sound := by
  rw [RemoteLink.retryPending]
  split
  · rename_i sequence command hpending
    refine h.exchange hstream (fun s c hreq => ?_)
    cases hreq
    exact hpending
  · exact h

/-- A command gets the client's number. -/
theorem Sound.performCommand (h : L.Sound) {conn : Nat} (hstream : L.client.stream = some conn)
    (command : P.Command) : (L.performCommand conn command).Sound := by
  rw [RemoteLink.performCommand]
  split
  · split
    · exact h
    · exact h.retryPending hstream
  · rename_i hnone
    obtain ⟨hnothing, hconn, hzero⟩ := h.wired.stream conn hstream
    have hnumber : ({ L with
        client := { L.client with pending := some (L.client.nextRequest, command) }
        ledger := { L.ledger with
          numbered := L.ledger.numbered ++ [(L.client.nextRequest, command)] } }
        : RemoteLink P).Sound := by
      refine ⟨⟨h.wired.inputs, h.wired.replies, h.wired.stream, ?_, ?_⟩, ?_⟩
      · intro k c hawait
        cases hnothing.symm.trans hawait
      · intro k input hawait
        cases hnothing.symm.trans hawait
      · refine ⟨h.counted.below, h.counted.ordered,
          h.counted.numbered.trans (List.sublist_append_left ..), h.counted.errors,
          h.counted.returned, h.counted.received, ?_, fun hopen => ?_⟩
        · rintro sequence command' hpending
          cases hpending
          rfl
        · have hal := h.counted.aligned hopen
          refine ⟨fun k sequence c hmem => ?_, nofun, ?_⟩
          · rcases hal.inputs k sequence c hmem with hlt | hpend | hlast
            · exact Or.inl hlt
            · cases hnone.symm.trans hpend
            · exact Or.inr (Or.inr hlast)
          · rintro sequence command' hpending
            cases hpending
            exact Or.inl ⟨hal.idle hnone, _, rfl, h.counted.numbered⟩
    exact hnumber.retryPending hstream

theorem Sound.call (h : L.Sound) (c : RemoteCall P) : (L.call c).Sound := by
  cases hstream : L.client.stream with
  | none =>
    cases c <;> simp only [RemoteLink.call, hstream]
    case reconnect => exact h.dial _
    case performCommand command => exact h.dial _
    case retryPending => exact h.dial _
    all_goals exact h
  | some conn =>
    cases c <;> simp only [RemoteLink.call, hstream]
    case reconnect => exact h.dial _
    case performCommand command => exact h.performCommand hstream command
    case retryPending => exact h.retryPending hstream
    all_goals exact h.exchange hstream nofun

/-- The stream comes back, with nothing on it. -/
theorem Sound.setStream (h : L.Sound) {conn : Nat} (hconn : conn < L.conns)
    (hzero : L.load conn = 0) :
    ({ L with client := { L.client with stream := some conn, awaiting := .nothing } }
      : RemoteLink P).Sound := by
  refine ⟨⟨h.wired.inputs, h.wired.replies, ?_, nofun, nofun⟩,
    h.counted.of_eq rfl rfl rfl rfl (fun _ hm _ _ _ => Or.inl hm)⟩
  rintro k hk
  cases hk
  exact ⟨rfl, hconn, hzero⟩

/-- The next number may be read again from the host, unless a command is pending. -/
theorem Sound.renumber (h : L.Sound) {n : U64}
    (hpending : ∀ x, L.client.pending = some x → n = L.client.nextRequest)
    (hopen : L.host.closed = false → n = L.client.nextRequest) :
    ({ L with client := { L.client with nextRequest := n } } : RemoteLink P).Sound := by
  refine ⟨h.wired.mono rfl rfl rfl rfl (List.Sublist.refl _) (List.Sublist.refl _)
    (fun _ hw => ⟨hw.paired, hw.executed⟩) (fun _ _ ha => ⟨ha.executed, ha.closed⟩),
    ⟨h.counted.below, h.counted.ordered, h.counted.numbered, h.counted.errors, h.counted.returned,
      h.counted.received, fun sequence command hp => ?_, fun ho => ?_⟩⟩
  · exact (h.counted.pending sequence command hp).trans (hpending _ hp).symm
  · have hal := h.counted.aligned ho
    rw [hopen ho]
    exact ⟨hal.inputs, hal.idle, hal.pending⟩

/-- Messages get lost. -/
theorem Sound.lose (h : L.Sound) {inputs : List (Nat × SessionInput P)}
    {replies : List (Nat × SessionReply P)} (hin : inputs.Sublist L.inputs)
    (hout : replies.Sublist L.replies) :
    ({ L with inputs := inputs, replies := replies } : RemoteLink P).Sound :=
  ⟨h.wired.mono rfl rfl rfl rfl hin hout (fun _ hw => ⟨hw.paired, hw.executed⟩)
    (fun _ _ ha => ⟨ha.executed, ha.closed⟩),
    h.counted.of_eq rfl rfl rfl rfl (fun _ hm _ _ _ => Or.inl (hin.subset hm))⟩

/-- A reply is read. -/
theorem Sound.read (h : L.Sound) {reply : SessionReply P}
    (hreply : ∀ sequence result, reply = .executed sequence result →
      ∃ command, L.Result sequence command result) :
    ({ L with ledger := { L.ledger with received := L.ledger.received ++ [reply] } }
      : RemoteLink P).Sound := by
  refine ⟨h.wired.mono rfl rfl rfl rfl (List.Sublist.refl _) (List.Sublist.refl _)
    (fun _ hw => ⟨hw.paired, hw.executed⟩) (fun _ _ ha => ⟨ha.executed, ha.closed⟩),
    ⟨h.counted.below, h.counted.ordered, h.counted.numbered, h.counted.errors,
      h.counted.returned, fun sequence result hmem => ?_, h.counted.pending, fun hopen =>
        ⟨(h.counted.aligned hopen).inputs, (h.counted.aligned hopen).idle,
          (h.counted.aligned hopen).pending⟩⟩⟩
  rcases List.mem_append.mp hmem with hmem | hmem
  · exact h.counted.received sequence result hmem
  · exact hreply sequence result (List.mem_singleton.mp hmem).symm

/-- The connection of the reply read is empty then. -/
theorem takeReply_cases {conn : Nat} {reply : SessionReply P} {L' : RemoteLink P}
    (h : L.takeReply conn = some (reply, L')) : (conn, reply) ∈ L.replies ∧
      L'.load conn + 1 = L.load conn ∧ ∃ replies : List (Nat × SessionReply P),
        replies.Sublist L.replies ∧ L' = { L with
          replies := replies
          ledger := { L.ledger with received := L.ledger.received ++ [reply] } } := by
  rw [takeReply] at h
  obtain ⟨m, hfind, hm⟩ := Option.map_eq_some_iff.mp h
  obtain ⟨hconn, front, rest, hsplit, hfront⟩ := List.find?_eq_some_iff_append.mp hfind
  have hconn : m.1 = conn := of_decide_eq_true hconn
  have herase : L.replies.eraseP (fun m => m.1 = conn) = front ++ rest := by
    rw [hsplit, List.eraseP_append_right _ (fun a ha => by simpa using hfront a ha),
      List.eraseP_cons_of_pos (by simpa using hconn)]
  cases hm
  refine ⟨?_, ?_, _, List.eraseP_sublist, rfl⟩
  · rw [hsplit, ← hconn]
    exact List.mem_append_right _ List.mem_cons_self
  · simp only [load, herase]
    simp only [hsplit, List.countP_append, List.countP_cons, hconn, decide_true, if_true]
    omega

theorem Sound.paired (h : L.Sound) {conn : Nat} (hconn : conn < L.conns)
    (hzero : L.load conn = 0) (c : RemoteCall P) {reply : SessionReply P}
    (hreply : L.Welcomes reply) : (L.paired conn c reply).Sound := by
  rw [RemoteLink.paired.eq_def]
  split
  · rename_i status
    split
    · have hnumber : ({ L with client := { L.client with
          nextRequest := if L.client.pending.isNone then status.nextRequest
            else L.client.nextRequest } } : RemoteLink P).Sound := by
        refine h.renumber (fun x hx => ?_) (fun hopen => ?_)
        · rw [hx]
          rfl
        · cases hp : L.client.pending with
          | some x => rfl
          | none =>
            exact (hreply.paired status rfl hopen hp).trans
              ((h.counted.aligned hopen).idle hp)
      have hset := hnumber.setStream hconn hzero
      cases c with
      | performCommand command => exact hset.performCommand rfl command
      | retryPending => exact hset.retryPending rfl
      | _ => exact hset
    · exact h.abandon
  · exact h.abandon

/-- A command is answered: its result is returned, unless it had no number. -/
theorem Sound.answered (h : L.Sound) {sequence : U64} {command : P.Command}
    {result : P.Outcome} (hpending : L.client.pending = some (sequence, command))
    (hresult : L.Result sequence command result) {next : U64}
    (hnext : sequence.next? = some next) (hawait : L.client.awaiting = .nothing) :
    ({ L with
        client := { L.client with pending := none, nextRequest := next }
        ledger := { L.ledger with
          returned := L.ledger.returned ++ [((sequence, command), result)] } }
      : RemoteLink P).Sound := by
  have hseq := h.counted.pending sequence command hpending
  have hval := U64.val_next hnext
  have hresult : ((sequence, command), result) ∈ L.ledger.applied ∨
      (L.host.closed = true ∧ result = .error .closed) := by
    rcases hresult with happ | hclosed | ⟨hlast, -⟩
    · exact Or.inl happ
    · exact Or.inr hclosed
    · cases hlast.symm.trans hnext
  -- Nothing is under way and nothing is pending; what is left is the next number.
  refine ⟨⟨h.wired.inputs, h.wired.replies, h.wired.stream, fun conn c ha => ?_,
    fun conn input ha => ?_⟩, ⟨h.counted.below, h.counted.ordered, h.counted.numbered,
      h.counted.errors, fun x hx => ?_, h.counted.received, nofun, fun hopen => ?_⟩⟩
  · cases hawait.symm.trans ha
  · cases hawait.symm.trans ha
  · rcases List.mem_append.mp hx with hx | hx
    · exact h.counted.returned x hx
    · rw [List.mem_singleton.mp hx]
      exact hresult
  · have hal := h.counted.aligned hopen
    refine ⟨fun conn s c hmem => ?_, fun _ => ?_, nofun⟩
    · rcases hal.inputs conn s c hmem with hlt | hpend | hlast
      · refine Or.inl ?_
        show s.val < next.val
        rw [← hseq] at hlt
        omega
      · cases hpending.symm.trans hpend
        refine Or.inl ?_
        show sequence.val < next.val
        omega
      · exact Or.inr (Or.inr hlast)
    · -- The result is that of the application, so the host has moved on.
      rcases hresult with happ | ⟨hclosed, -⟩
      · rcases hal.pending sequence command hpending with ⟨hhost, -⟩ | ⟨hhost, -⟩
        · have := h.counted.below _ happ
          rw [hhost] at this
          exact absurd this (lt_irrefl _)
        · exact Option.some.inj (hhost.symm.trans hnext)
      · exact absurd (hopen.symm.trans hclosed) nofun

/-- A pending command is given up: it has no number, or the host is closed. -/
theorem Sound.givenUp (h : L.Sound) (hawait : L.client.awaiting = .nothing)
    (hpending : L.host.closed = false → ∃ sequence command,
      L.client.pending = some (sequence, command) ∧ sequence.next? = none) :
    ({ L with client := { L.client with pending := none } } : RemoteLink P).Sound := by
  refine ⟨⟨h.wired.inputs, h.wired.replies, h.wired.stream, fun conn c ha => ?_,
    fun conn input ha => ?_⟩, ⟨h.counted.below, h.counted.ordered, h.counted.numbered,
      h.counted.errors, h.counted.returned, h.counted.received, nofun, fun hopen => ?_⟩⟩
  · cases hawait.symm.trans ha
  · cases hawait.symm.trans ha
  · have hal := h.counted.aligned hopen
    obtain ⟨sequence, command, hpend, hlast⟩ := hpending hopen
    refine ⟨fun conn s c hmem => ?_, fun _ => ?_, nofun⟩
    · rcases hal.inputs conn s c hmem with hlt | hp | hnone
      · exact Or.inl hlt
      · cases hpend.symm.trans hp
        exact Or.inr (Or.inr hlast)
      · exact Or.inr (Or.inr hnone)
    · rcases hal.pending sequence command hpend with ⟨hhost, -⟩ | ⟨hhost, -⟩
      · exact hhost.trans (h.counted.pending sequence command hpend)
      · cases hlast.symm.trans hhost

theorem Sound.replied (h : L.Sound) {conn : Nat} (hconn : conn < L.conns)
    (hzero : L.load conn = 0) {input : SessionInput P} {reply : SessionReply P}
    (hpending : ∀ sequence command, input = .request sequence command →
      L.client.pending = some (sequence, command))
    (hreply : L.Answers input reply) : (L.replied conn input reply).Sound := by
  have hset := h.setStream hconn hzero
  rw [RemoteLink.replied.eq_def]
  cases reply with
  | error text => exact h.abandon
  | executed received result =>
    obtain ⟨command, rfl, hresult⟩ := hreply.executed received result rfl
    have hpend := hpending received command rfl
    simp only [ne_eq, not_true_eq_false, if_false]
    split
    · rename_i hlast
      exact hset.givenUp rfl (fun _ => ⟨received, command, hpend, hlast⟩)
    · rename_i next hnext
      exact hset.answered hpend hresult hnext rfl
  | closed =>
    cases input with
    | close => exact hset.givenUp rfl (fun hopen => absurd (hopen.symm.trans (hreply.closed rfl)) nofun)
    | _ => exact hset
  | paired status => cases input <;> exact hset
  | status status => cases input <;> exact hset

theorem Sound.receive (h : L.Sound) : L.receive.Sound := by
  rw [RemoteLink.receive]
  split
  · exact h
  · rename_i conn c hawait
    split
    · rename_i reply L' htake
      obtain ⟨hmem, hload, replies, hsub, heq⟩ := takeReply_cases htake
      obtain ⟨hconn, hone, -, hout⟩ := h.wired.pairing conn c hawait
      have hzero : L'.load conn = 0 := by omega
      subst heq
      have hw := hout _ hmem rfl
      have htaken := (h.lose (List.Sublist.refl _) hsub).read
        (fun sequence result heq => absurd heq (hw.executed sequence result))
      exact htaken.paired hconn hzero c ⟨hw.paired, hw.executed⟩
    · exact h
  · rename_i conn input hawait
    split
    · rename_i reply L' htake
      obtain ⟨hmem, hload, replies, hsub, heq⟩ := takeReply_cases htake
      obtain ⟨hconn, hone, -, hout, hpending⟩ := h.wired.reply conn input hawait
      have hzero : L'.load conn = 0 := by omega
      subst heq
      have ha := hout _ hmem rfl
      have htaken := (h.lose (List.Sublist.refl _) hsub).read (fun sequence result heq => by
        obtain ⟨command, -, hresult⟩ := ha.executed sequence result heq
        exact ⟨command, hresult⟩)
      exact htaken.replied hconn hzero hpending ⟨ha.executed, ha.closed⟩
    · exact h

/-! ## The host's steps -/

/-- A result stays one while the ledger grows and the host does not open again. -/
theorem Result.mono {L' : RemoteLink P} {sequence : U64} {command : P.Command}
    {result : P.Outcome} (h : L.Result sequence command result)
    (happlied : L.ledger.applied ⊆ L'.ledger.applied)
    (hclosed : L.host.closed = true → L'.host.closed = true) :
    L'.Result sequence command result :=
  h.imp (fun hmem => happlied hmem) (Or.imp_left (fun hc => ⟨hclosed hc.1, hc.2⟩))

theorem Answers.mono {L' : RemoteLink P} {input : SessionInput P} {reply : SessionReply P}
    (h : L.Answers input reply) (happlied : L.ledger.applied ⊆ L'.ledger.applied)
    (hclosed : L.host.closed = true → L'.host.closed = true) : L'.Answers input reply := by
  refine ⟨fun sequence result heq => ?_, fun heq => hclosed (h.closed heq)⟩
  obtain ⟨command, hinput, hresult⟩ := h.executed sequence result heq
  exact ⟨command, hinput, hresult.mono happlied hclosed⟩

/-- The host stays where it is in the numbers, or closes. -/
theorem Sound.setHost (h : L.Sound) {host : HostState P}
    (hnext : host.nextRequest = L.host.nextRequest)
    (hlast : host.closed = false → L.host.closed = false ∧ host.lastReply = L.host.lastReply)
    (hclosed : L.host.closed = true → host.closed = true) :
    ({ L with host := host } : RemoteLink P).Sound := by
  refine ⟨h.wired.mono rfl rfl rfl rfl (List.Sublist.refl _) (List.Sublist.refl _)
    (fun _ hw => ⟨fun status heq hopen hp => ?_, hw.executed⟩)
    (fun _ _ ha => ha.mono (List.Subset.refl _) hclosed),
    ⟨fun a ha => ?_, h.counted.ordered, h.counted.numbered, h.counted.errors, fun x hx => ?_,
      fun sequence result hmem => ?_, h.counted.pending, fun hopen => ?_⟩⟩
  · exact (hw.paired status heq (hlast hopen).1 hp).trans hnext.symm
  · show a.1.1.val < host.nextRequest.val
    rw [hnext]
    exact h.counted.below a ha
  · exact (h.counted.returned x hx).imp_right (fun hc => ⟨hclosed hc.1, hc.2⟩)
  · obtain ⟨command, hresult⟩ := h.counted.received sequence result hmem
    exact ⟨command, hresult.mono (List.Subset.refl _) hclosed⟩
  · obtain ⟨ho, hl⟩ := hlast hopen
    have hal := h.counted.aligned ho
    refine ⟨hal.inputs, fun hp => hnext.trans (hal.idle hp), fun sequence command hp => ?_⟩
    show (host.nextRequest = _ ∧ _) ∨ (_ = some host.nextRequest ∧ ∃ _, host.lastReply = _ ∧ _)
    rw [hnext, hl]
    exact hal.pending sequence command hp

theorem Sound.setGeneration (h : L.Sound) (generation : Nat → Option U64) :
    ({ L with generation := generation } : RemoteLink P).Sound :=
  ⟨h.wired.mono rfl rfl rfl rfl (List.Sublist.refl _) (List.Sublist.refl _)
    (fun _ hw => ⟨hw.paired, hw.executed⟩) (fun _ _ ha => ⟨ha.executed, ha.closed⟩),
    h.counted.of_eq rfl rfl rfl rfl (fun _ hm _ _ _ => Or.inl hm)⟩

/-- An input is answered on its connection. -/
theorem Sound.delivered (h : L.Sound) {i conn : Nat} {input : SessionInput P}
    {reply : SessionReply P} (hi : L.inputs[i]? = some (conn, input))
    (hwelcomes : ∀ c, L.client.awaiting = .pairing conn c → L.Welcomes reply)
    (hanswers : L.client.awaiting = .reply conn input → L.Answers input reply) :
    ({ L with
        inputs := L.inputs.eraseIdx i
        replies := L.replies ++ [(conn, reply)] } : RemoteLink P).Sound := by
  obtain ⟨front, rest, hsplit, herase⟩ := exists_split_of_getElem? hi
  have hmem : (conn, input) ∈ L.inputs := List.mem_of_getElem? hi
  have hsub : L.inputs.eraseIdx i ⊆ L.inputs := List.eraseIdx_subset ..
  have hload : ∀ k, (L.inputs.eraseIdx i).countP (fun m => m.1 = k) +
      (L.replies ++ [(conn, reply)]).countP (fun m => m.1 = k) = L.load k := by
    intro k
    rw [herase, load, hsplit]
    simp only [List.countP_append, List.countP_cons, List.countP_nil]
    omega
  refine ⟨⟨fun m hm => h.wired.inputs m (hsub hm), fun m hm => ?_, fun k hs => ?_, fun k c ha => ?_,
    fun k input' ha => ?_⟩, h.counted.of_eq rfl rfl rfl rfl (fun m hm _ _ _ => Or.inl (hsub hm))⟩
  · rcases List.mem_append.mp hm with hm | hm
    · exact h.wired.replies m hm
    · rw [List.mem_singleton.mp hm]
      exact h.wired.inputs _ hmem
  · obtain ⟨hnothing, hconn, hzero⟩ := h.wired.stream k hs
    exact ⟨hnothing, hconn, (hload k).trans hzero⟩
  · obtain ⟨hconn, hone, hin, hout⟩ := h.wired.pairing k c ha
    refine ⟨hconn, (hload k).le.trans hone, fun m hm => hin m (hsub hm), fun m hm hc => ?_⟩
    rcases List.mem_append.mp hm with hm | hm
    · exact ⟨(hout m hm hc).paired, (hout m hm hc).executed⟩
    · cases List.mem_singleton.mp hm
      cases hc
      exact ⟨(hwelcomes c ha).paired, (hwelcomes c ha).executed⟩
  · obtain ⟨hconn, hone, hin, hout, hp⟩ := h.wired.reply k input' ha
    refine ⟨hconn, (hload k).le.trans hone, fun m hm => hin m (hsub hm), fun m hm hc => ?_, hp⟩
    rcases List.mem_append.mp hm with hm | hm
    · exact ⟨(hout m hm hc).executed, (hout m hm hc).closed⟩
    · cases List.mem_singleton.mp hm
      cases hc
      have hinput : input = input' := hin _ hmem rfl
      rw [← hinput] at ha ⊢
      exact ⟨(hanswers ha).executed, (hanswers ha).closed⟩

/-- A command that is applied is the pending one. -/
theorem Sound.pending_of_applies (h : L.Sound) {conn : Nat} {sequence : U64}
    {command : P.Command} (hmem : (conn, .request sequence command) ∈ L.inputs)
    (hopen : L.host.closed = false) (hnext : sequence = L.host.nextRequest)
    (hsucc : sequence.next?.isSome) : L.client.pending = some (sequence, command) := by
  have hal := h.counted.aligned hopen
  rcases hal.inputs conn sequence command hmem with hlt | hp | hlast
  · exfalso
    cases hpend : L.client.pending with
    | none =>
      rw [hnext, hal.idle hpend] at hlt
      exact lt_irrefl _ hlt
    | some x =>
      have hx := h.counted.pending x.1 x.2 hpend
      rw [← hx] at hlt
      rcases hal.pending x.1 x.2 hpend with ⟨hhost, -⟩ | ⟨hhost, -⟩
      · rw [hnext, hhost] at hlt
        exact lt_irrefl _ hlt
      · have := U64.val_next hhost
        rw [← hnext] at this
        omega
  · exact hp
  · rw [hlast] at hsucc
    cases hsucc

/-- The pending command is applied. -/
theorem Sound.applied (h : L.Sound) {sequence : U64} {command : P.Command}
    {result : P.Outcome} {host : HostState P}
    (hpending : L.client.pending = some (sequence, command)) (hopen : L.host.closed = false)
    (hnext : sequence = L.host.nextRequest) (hsucc : sequence.next? = some host.nextRequest)
    (hlast : host.lastReply = some (P.digest (P.bytes command), result))
    (herror : ∀ e, result = .error e →
      e ≠ .requestConflict ∧ ∀ expected, e ≠ .requestSequence expected) :
    ({ L with
        host := host
        ledger := { L.ledger with
          applied := L.ledger.applied ++ [((sequence, command), result)] } }
      : RemoteLink P).Sound := by
  have hval := U64.val_next hsucc
  have hsub : L.ledger.applied ⊆ L.ledger.applied ++ [((sequence, command), result)] :=
    List.subset_append_left ..
  have hkeep : L.host.closed = true → host.closed = true :=
    fun hc => absurd (hopen.symm.trans hc) nofun
  have hal := h.counted.aligned hopen
  -- the pending command was numbered last and has not been applied
  obtain ⟨earlier, hnumbered, hearlier⟩ : ∃ earlier,
      L.ledger.numbered = earlier ++ [(sequence, command)] ∧
        (L.ledger.applied.map Prod.fst).Sublist earlier := by
    rcases hal.pending sequence command hpending with ⟨-, hdue⟩ | ⟨hhost, -⟩
    · exact hdue
    · have := U64.val_next hhost
      rw [← hnext] at this
      omega
  refine ⟨h.wired.mono rfl rfl rfl rfl (List.Sublist.refl _) (List.Sublist.refl _)
    (fun _ hw => ⟨fun status heq _ hp => ?_, hw.executed⟩) (fun _ _ ha => ha.mono hsub hkeep),
    ⟨fun a ha => ?_, ?_, ?_, fun a ha => ?_, fun x hx => ?_, fun s r hmem => ?_,
      h.counted.pending, fun _ => ⟨hal.inputs, fun hp => ?_, fun s c hp => ?_⟩⟩⟩
  · cases hpending.symm.trans hp
  · show a.1.1.val < host.nextRequest.val
    rcases List.mem_append.mp ha with ha | ha
    · have := h.counted.below a ha
      rw [← hnext] at this
      omega
    · rw [List.mem_singleton.mp ha]
      show sequence.val < host.nextRequest.val
      omega
  · show ((L.ledger.applied ++ [_]).map _).Pairwise _
    rw [List.map_append, List.pairwise_append]
    refine ⟨h.counted.ordered, List.pairwise_singleton _ _, fun s hs t ht => ?_⟩
    obtain ⟨a, ha, rfl⟩ := List.mem_map.mp hs
    rw [List.mem_singleton.mp ht, hnext]
    exact h.counted.below a ha
  · show ((L.ledger.applied ++ [_]).map _).Sublist L.ledger.numbered
    rw [List.map_append, hnumbered]
    exact hearlier.append (List.Sublist.refl _)
  · rcases List.mem_append.mp ha with ha | ha
    · exact h.counted.errors a ha
    · rw [List.mem_singleton.mp ha]
      exact herror
  · exact (h.counted.returned x hx).imp (fun hm => hsub hm) (fun hc => ⟨hkeep hc.1, hc.2⟩)
  · obtain ⟨c, hresult⟩ := h.counted.received s r hmem
    exact ⟨c, hresult.mono hsub hkeep⟩
  · cases hpending.symm.trans hp
  · cases hpending.symm.trans hp
    exact Or.inr ⟨hsucc, result, hlast, List.mem_append_right _ (List.mem_singleton.mpr rfl)⟩

/-- What the host says to the pending command without applying it. -/
theorem Sound.refused (h : L.Sound) {sequence : U64} {command : P.Command}
    {result : P.Outcome} (hpending : L.client.pending = some (sequence, command))
    (hrefusal : L.host.Refusal sequence command result) : L.Result sequence command result := by
  have hnext : ∀ {s : U64}, s.next? = some s → False := by
    intro s hs
    have := U64.val_next hs
    omega
  cases hrefusal with
  | closed hclosed => exact Or.inr (Or.inl ⟨hclosed, rfl⟩)
  | exhausted hopen hlast => exact Or.inr (Or.inr ⟨hlast, rfl⟩)
  | replay hopen hlate hlast =>
    rcases (h.counted.aligned hopen).pending sequence command hpending with
      ⟨hhost, -⟩ | ⟨-, result', hlast', happlied⟩
    · rw [hhost] at hlate
      exact (hnext hlate).elim
    · cases hlast.symm.trans hlast'
      exact Or.inl happlied
  | conflict hopen hlate hlast =>
    rcases (h.counted.aligned hopen).pending sequence command hpending with
      ⟨hhost, -⟩ | ⟨-, result', hlast', -⟩
    · rw [hhost] at hlate
      exact (hnext hlate).elim
    · exact absurd hlast' (hlast result')
  | sequence hopen hlate hne =>
    rcases (h.counted.aligned hopen).pending sequence command hpending with
      ⟨hhost, -⟩ | ⟨hhost, -⟩
    · exact absurd hhost.symm hne
    · exact absurd hhost hlate

/-- A request that the host takes up. -/
theorem Sound.executed (h : L.Sound) {i conn : Nat} {sequence : U64} {command : P.Command}
    (hi : L.inputs[i]? = some (conn, .request sequence command)) {seed : P.Seed}
    {r : HostState P × P.Outcome} (hr : L.host.execute sequence command seed = some r) :
    ({ L with
        inputs := L.inputs.eraseIdx i
        host := r.1
        replies := L.replies ++ [(conn, .executed sequence r.2)]
        ledger := if L.host.applies sequence then
            { L.ledger with applied := L.ledger.applied ++ [((sequence, command), r.2)] }
          else L.ledger } : RemoteLink P).Sound := by
  have hmem := List.mem_of_getElem? hi
  -- A request is never on a connection that is being paired.
  have hunpaired : ∀ c, L.client.awaiting ≠ .pairing conn c := by
    intro c ha
    obtain ⟨-, -, hin, -⟩ := h.wired.pairing conn c ha
    obtain ⟨secret, hs⟩ := hin _ hmem rfl
    cases hs
  have hwaiting : L.client.awaiting = .reply conn (.request sequence command) →
      L.client.pending = some (sequence, command) := by
    intro ha
    obtain ⟨-, -, -, -, hp⟩ := h.wired.reply conn _ ha
    exact hp sequence command rfl
  rcases L.host.execute_cases hr with
    ⟨hidle, hstands, hrefusal⟩ | ⟨happlies, hopen, hnext, hsucc, -, hlast, happly⟩
  · rw [hidle]
    have hset := h.setHost hstands.nextRequest
      (fun ho => ⟨hstands.closed.symm.trans ho, hstands.lastReply⟩)
      (fun hc => hstands.closed.trans hc)
    refine hset.delivered hi (fun c ha => absurd ha (hunpaired c)) (fun ha => ⟨?_, nofun⟩)
    rintro s r heq
    cases heq
    exact ⟨command, rfl, (h.refused (hwaiting ha) hrefusal).mono (List.Subset.refl _)
      (fun hc => hstands.closed.trans hc)⟩
  · rw [happlies]
    have hpending := h.pending_of_applies hmem hopen hnext (hsucc ▸ rfl)
    have happlied := h.applied hpending hopen hnext hsucc hlast
      (fun e he => P.apply_error (he ▸ happly))
    refine happlied.delivered hi (fun c ha => absurd ha (hunpaired c)) (fun ha => ⟨?_, nofun⟩)
    rintro s r heq
    cases heq
    exact ⟨command, rfl, Or.inl (List.mem_append_right _ (List.mem_singleton.mpr rfl))⟩

/-- An input is turned down. -/
theorem Sound.errored (h : L.Sound) {i conn : Nat} {input : SessionInput P}
    (hi : L.inputs[i]? = some (conn, input)) (text : String) :
    ({ L with
        inputs := L.inputs.eraseIdx i
        replies := L.replies ++ [(conn, .error text)] } : RemoteLink P).Sound :=
  h.delivered hi (fun _ _ => ⟨nofun, nofun⟩) (fun _ => ⟨nofun, nofun⟩)

theorem Sound.answer (h : L.Sound) {i conn : Nat} {input : SessionInput P}
    (hi : L.inputs[i]? = some (conn, input)) {generation : U64} {seed : P.Seed}
    {L' : RemoteLink P}
    (hanswer : ({ L with inputs := L.inputs.eraseIdx i } : RemoteLink P).answer conn generation
      input seed = some L') : L'.Sound := by
  obtain ⟨r, hr, rfl⟩ := Option.map_eq_some_iff.mp hanswer
  unfold HostState.serve at hr
  by_cases hgen : L.host.connectionGeneration ≠ generation
  · rw [if_pos hgen] at hr
    obtain rfl := Option.some.inj hr
    cases input <;> exact h.errored hi _
  · rw [if_neg hgen] at hr
    cases input with
    | resume secret =>
      obtain rfl := Option.some.inj hr
      exact h.errored hi _
    | request sequence command =>
      obtain ⟨executed, hexecuted, rfl⟩ := Option.map_eq_some_iff.mp hr
      exact h.executed hi hexecuted
    | status =>
      obtain rfl := Option.some.inj hr
      exact h.delivered hi (fun _ _ => ⟨nofun, nofun⟩) (fun _ => ⟨nofun, nofun⟩)
    | close =>
      obtain rfl := Option.some.inj hr
      have hset : ({ L with host := L.host.close } : RemoteLink P).Sound :=
        h.setHost rfl nofun (fun _ => rfl)
      exact hset.delivered hi (fun _ _ => ⟨nofun, nofun⟩) (fun _ => ⟨nofun, fun _ => rfl⟩)

theorem Sound.serve (h : L.Sound) (secret : ByteArr 32) (i : Nat) (seed : P.Seed) :
    (L.serve secret i seed).Sound := by
  rw [RemoteLink.serve]
  split
  · exact h
  · rename_i conn input hi
    have hrefuse : (({ L with inputs := L.inputs.eraseIdx i } : RemoteLink P).refuse conn).Sound := by
      have hset : ({ L with host := L.host.refuse } : RemoteLink P).Sound :=
        h.setHost rfl (fun ho => ⟨ho, rfl⟩) id
      exact hset.errored hi _
    dsimp only
    split
    · generalize hanswer : RemoteLink.answer _ _ _ _ _ = answered
      cases answered with
      | none => exact h
      | some L' => exact h.answer hi hanswer
    · split
      · have hset : ({ L with host := L.host.accept "Desktop reconnected" } : RemoteLink P).Sound :=
          h.setHost rfl (fun ho => ⟨ho, rfl⟩) id
        refine (hset.setGeneration _).delivered hi (fun _ _ => ?_) (fun _ => ?_)
        · refine ⟨?_, nofun⟩
          rintro status heq - -
          cases heq
          rfl
        · exact ⟨nofun, nofun⟩
      · exact hrefuse
    · exact hrefuse

/-- **One step.** -/
theorem Sound.step (h : L.Sound) (secret : ByteArr 32) (op : RemoteOp P) :
    (L.step secret op).Sound := by
  cases op with
  | call c =>
    simp only [RemoteLink.step]
    split
    · exact h.call c
    · exact h
  | cancel =>
    simp only [RemoteLink.step]
    split
    · exact h
    · exact h.abandon
  | receive => exact h.receive
  | serve i seed => exact h.serve secret i seed
  | hangUp conn error =>
    simp only [RemoteLink.step]
    split
    · refine h.setHost ?_ (fun ho => ?_) (fun hc => ?_)
      all_goals simp only [HostState.hangUp] at *
      all_goals split <;> simp_all
    · exact h
  | shutdown => exact h.setHost rfl nofun (fun _ => rfl)
  | loseInput i => exact h.lose (List.eraseIdx_sublist ..) (List.Sublist.refl _)
  | loseReply i => exact h.lose (List.Sublist.refl _) (List.eraseIdx_sublist ..)

theorem sound_after (pairing : Pairing P) (ops : List (RemoteOp P)) :
    (after pairing ops).Sound := by
  induction ops using List.reverseRecOn with
  | nil => exact sound_init pairing
  | append_singleton ops op ih =>
    rw [after_concat]
    exact ih.step _ op

/-! ## The phone's client -/

/-- Applying commands to a client one after the other, each with its outcome. -/
inductive Ran (P : RemoteProgram) (client : P.Client) :
    List ((U64 × P.Command) × P.Outcome) → P.Client → Prop where
  | nil : Ran P client [] client
  | snoc {applied : List ((U64 × P.Command) × P.Outcome)} {c c' : P.Client} {sequence : U64}
      {command : P.Command} {seed : P.Seed} {result : P.Outcome} : Ran P client applied c →
      P.apply c command (P.bytes command).length seed = some (c', result) →
      Ran P client (applied ++ [((sequence, command), result)]) c'

/-- The phone's client is what the applied commands made of it, but for being closed. -/
def Kept (client : P.Client) (L : RemoteLink P) : Prop :=
  ∃ c n, Ran P client L.ledger.applied c ∧ L.host.client = P.close^[n] c ∧
    (L.host.closed = false → n = 0)

/-- Neither the phone nor what it applied is touched. -/
structure Untouched (L L' : RemoteLink P) : Prop where
  host : L'.host = L.host
  applied : L'.ledger.applied = L.ledger.applied

theorem Untouched.refl (L : RemoteLink P) : Untouched L L := ⟨rfl, rfl⟩

theorem Untouched.trans {L L' L'' : RemoteLink P} (h : Untouched L L') (h' : Untouched L' L'') :
    Untouched L L'' :=
  ⟨h'.host.trans h.host, h'.applied.trans h.applied⟩

theorem untouched_exchange (L : RemoteLink P) (conn : Nat) (input : SessionInput P) :
    Untouched L (L.exchange conn input) := ⟨rfl, rfl⟩

theorem untouched_retryPending (L : RemoteLink P) (conn : Nat) :
    Untouched L (L.retryPending conn) := by
  rw [RemoteLink.retryPending]
  split
  · exact untouched_exchange ..
  · exact .refl L

theorem untouched_performCommand (L : RemoteLink P) (conn : Nat) (command : P.Command) :
    Untouched L (L.performCommand conn command) := by
  rw [RemoteLink.performCommand]
  split
  · split
    · exact .refl L
    · exact untouched_retryPending ..
  · have hnumber : Untouched L { L with
        client := { L.client with pending := some (L.client.nextRequest, command) }
        ledger := { L.ledger with
          numbered := L.ledger.numbered ++ [(L.client.nextRequest, command)] } } := ⟨rfl, rfl⟩
    exact hnumber.trans (untouched_retryPending ..)

theorem untouched_call (L : RemoteLink P) (c : RemoteCall P) : Untouched L (L.call c) := by
  cases hstream : L.client.stream <;> cases c <;> simp only [RemoteLink.call, hstream]
  case some.performCommand => exact untouched_performCommand ..
  case some.retryPending => exact untouched_retryPending ..
  all_goals exact ⟨rfl, rfl⟩

theorem untouched_paired (L : RemoteLink P) (conn : Nat) (c : RemoteCall P)
    (reply : SessionReply P) : Untouched L (L.paired conn c reply) := by
  rw [RemoteLink.paired.eq_def]
  split
  · rename_i status
    split
    · have hset : Untouched L { L with client := { L.client with
          nextRequest := if L.client.pending.isNone then status.nextRequest
            else L.client.nextRequest
          stream := some conn
          awaiting := .nothing } } := ⟨rfl, rfl⟩
      cases c with
      | performCommand command => exact hset.trans (untouched_performCommand ..)
      | retryPending => exact hset.trans (untouched_retryPending ..)
      | _ => exact hset
    · exact ⟨rfl, rfl⟩
  · exact ⟨rfl, rfl⟩

theorem untouched_replied (L : RemoteLink P) (conn : Nat) (input : SessionInput P)
    (reply : SessionReply P) : Untouched L (L.replied conn input reply) := by
  rw [RemoteLink.replied.eq_def]
  split
  · exact ⟨rfl, rfl⟩
  · split
    · split
      · exact ⟨rfl, rfl⟩
      · split <;> exact ⟨rfl, rfl⟩
    · exact ⟨rfl, rfl⟩
    · exact ⟨rfl, rfl⟩

theorem untouched_receive (L : RemoteLink P) : Untouched L L.receive := by
  rw [RemoteLink.receive]
  split
  · exact .refl L
  all_goals
    split
    · rename_i reply L' htake
      obtain ⟨-, -, replies, -, rfl⟩ := takeReply_cases htake
      have htaken : Untouched L { L with
          replies := replies
          ledger := { L.ledger with received := L.ledger.received ++ [reply] } } := ⟨rfl, rfl⟩
      first
        | exact htaken.trans (untouched_paired ..)
        | exact htaken.trans (untouched_replied ..)
    · exact .refl L

variable {client : P.Client}

theorem Kept.untouched {L' : RemoteLink P} (h : L.Kept client) (hsame : Untouched L L') :
    L'.Kept client := by
  rw [Kept, hsame.host, hsame.applied]
  exact h

/-- The phone's client stays, and what was applied. -/
theorem Kept.stays {L' : RemoteLink P} (h : L.Kept client)
    (hclient : L'.host.client = L.host.client) (hclosed : L'.host.closed = L.host.closed)
    (happlied : L'.ledger.applied = L.ledger.applied) : L'.Kept client := by
  rw [Kept, hclient, hclosed, happlied]
  exact h

/-- The phone closes. -/
theorem Kept.closes {L' : RemoteLink P} (h : L.Kept client) (hhost : L'.host = L.host.close)
    (happlied : L'.ledger.applied = L.ledger.applied) : L'.Kept client := by
  obtain ⟨c, n, hran, hclient, -⟩ := h
  refine ⟨c, n + 1, happlied ▸ hran, ?_, fun hopen => ?_⟩
  · rw [hhost, Function.iterate_succ_apply', ← hclient]
    rfl
  · rw [hhost] at hopen
    cases hopen

/-- A request is applied to the client as it is, or it leaves it. -/
theorem Kept.executed (h : L.Kept client) {sequence : U64} {command : P.Command} {seed : P.Seed}
    {r : HostState P × P.Outcome} (hr : L.host.execute sequence command seed = some r)
    {L' : RemoteLink P} (hhost : L'.host = r.1)
    (happlied : L'.ledger.applied = if L.host.applies sequence then
      L.ledger.applied ++ [((sequence, command), r.2)] else L.ledger.applied) :
    L'.Kept client := by
  rcases L.host.execute_cases hr with
    ⟨hidle, hstands, -⟩ | ⟨happlies, hopen, -, -, hstill, -, happly⟩
  · rw [hidle, if_neg Bool.false_ne_true] at happlied
    exact h.stays (hhost ▸ hstands.client) (hhost ▸ hstands.closed) happlied
  · rw [happlies, if_pos rfl] at happlied
    obtain ⟨c, n, hran, hclient, hn⟩ := h
    obtain rfl := hn hopen
    refine ⟨r.1.client, 0, ?_, by rw [hhost]; rfl, fun _ => rfl⟩
    rw [happlied]
    exact hran.snoc (hclient ▸ happly)

theorem Kept.answer (h : L.Kept client) {conn : Nat} {generation : U64} {input : SessionInput P}
    {seed : P.Seed} {L' : RemoteLink P}
    (hanswer : L.answer conn generation input seed = some L') : L'.Kept client := by
  obtain ⟨r, hr, rfl⟩ := Option.map_eq_some_iff.mp hanswer
  unfold HostState.serve at hr
  by_cases hgen : L.host.connectionGeneration ≠ generation
  · rw [if_pos hgen] at hr
    obtain rfl := Option.some.inj hr
    cases input <;> exact h.stays rfl rfl rfl
  · rw [if_neg hgen] at hr
    cases input with
    | resume secret =>
      obtain rfl := Option.some.inj hr
      exact h.stays rfl rfl rfl
    | request sequence command =>
      obtain ⟨executed, hexecuted, rfl⟩ := Option.map_eq_some_iff.mp hr
      refine h.executed hexecuted rfl ?_
      dsimp only
      split <;> rfl
    | status =>
      obtain rfl := Option.some.inj hr
      exact h.stays rfl rfl rfl
    | close =>
      obtain rfl := Option.some.inj hr
      exact h.closes rfl rfl

theorem Kept.serve (h : L.Kept client) (secret : ByteArr 32) (i : Nat) (seed : P.Seed) :
    (L.serve secret i seed).Kept client := by
  rw [RemoteLink.serve]
  split
  · exact h
  · rename_i conn input hi
    have htaken : ({ L with inputs := L.inputs.eraseIdx i } : RemoteLink P).Kept client :=
      h.stays rfl rfl rfl
    dsimp only
    split
    · generalize hanswer : RemoteLink.answer _ _ _ _ _ = answered
      cases answered with
      | none => exact h
      | some L' => exact htaken.answer hanswer
    · split <;> exact htaken.stays rfl rfl rfl
    · exact htaken.stays rfl rfl rfl

/-- **One step of the phone's client.** -/
theorem Kept.step (h : L.Kept client) (secret : ByteArr 32) (op : RemoteOp P) :
    (L.step secret op).Kept client := by
  cases op with
  | call c =>
    simp only [RemoteLink.step]
    split
    · exact h.untouched (untouched_call ..)
    · exact h
  | cancel =>
    simp only [RemoteLink.step]
    split
    · exact h
    · exact h.stays rfl rfl rfl
  | receive => exact h.untouched (untouched_receive L)
  | serve i seed => exact h.serve secret i seed
  | hangUp conn error =>
    simp only [RemoteLink.step]
    split
    · simp only [HostState.hangUp]
      split <;> exact h.stays rfl rfl rfl
    · exact h
  | shutdown => exact h.closes rfl rfl
  | loseInput i => exact h.stays rfl rfl rfl
  | loseReply i => exact h.stays rfl rfl rfl

theorem kept_after (pairing : Pairing P) (ops : List (RemoteOp P)) :
    (after pairing ops).Kept pairing.client := by
  induction ops using List.reverseRecOn with
  | nil => exact ⟨pairing.client, 0, .nil, rfl, fun _ => rfl⟩
  | append_singleton ops op ih =>
    rw [after_concat]
    exact ih.step _ op

/-! ## The phone and its desktop -/

section Once
open Remote
variable {R : RemoteCrate} {commandBytes : SessionCommand → Bytes}

/-- **Commands are executed once, in order.**  What is applied is part of what was numbered,
each number at most once, and the phone's session is what these applications made of it, one
after the other, until it is closed; a result returned is that of the application, or that of a
closed host; the client never reads a complaint about its numbers; and until the host closes its
next number is the client's, or the successor of the pending one. -/
theorem executes_once (pairing : Pairing (hostProgram R commandBytes))
    (ops : List (RemoteOp (hostProgram R commandBytes))) :
    ((after pairing ops).ledger.applied.map Prod.fst).Sublist (after pairing ops).ledger.numbered ∧
    ((after pairing ops).ledger.applied.map (fun a => a.1.1)).Pairwise (· < ·) ∧
    (∃ session n, Ran (hostProgram R commandBytes) pairing.client
        (after pairing ops).ledger.applied session ∧
      (after pairing ops).host.client = (hostProgram R commandBytes).close^[n] session ∧
      ((after pairing ops).host.closed = false → n = 0)) ∧
    (∀ x ∈ (after pairing ops).ledger.returned, x ∈ (after pairing ops).ledger.applied ∨
      ((after pairing ops).host.closed = true ∧ x.2 = .error .closed)) ∧
    (∀ sequence result, .executed sequence result ∈ (after pairing ops).ledger.received →
      result ≠ .error .requestConflict ∧
        ∀ expected, result ≠ .error (.requestSequence expected)) ∧
    ((after pairing ops).host.closed = false →
      match (after pairing ops).client.pending with
      | some (sequence, _) => (after pairing ops).host.nextRequest = sequence ∨
          sequence.next? = some (after pairing ops).host.nextRequest
      | none => (after pairing ops).host.nextRequest = (after pairing ops).client.nextRequest) := by
  have h := (sound_after pairing ops).counted
  refine ⟨h.numbered, h.ordered, kept_after pairing ops, h.returned,
    fun sequence result hmem => ?_, fun hopen => ?_⟩
  · obtain ⟨command, happlied | ⟨-, rfl⟩ | ⟨-, rfl⟩⟩ := h.received sequence result hmem
    · refine ⟨fun heq => ?_, fun expected heq => ?_⟩
      · exact (h.errors _ happlied _ heq).1 rfl
      · exact (h.errors _ happlied _ heq).2 expected rfl
    · exact ⟨nofun, nofun⟩
    · exact ⟨nofun, nofun⟩
  · have hal := h.aligned hopen
    split
    · rename_i sequence command hpending
      exact (hal.pending sequence command hpending).imp And.left And.left
    · rename_i hnone
      exact hal.idle hnone

end Once

end RemoteLink

/-! ## A closed host -/

namespace RemoteToy
open RemoteLink Remote

/-- A phone that is not configured. -/
def idlePhone : Pairing (hostProgram Toy.toyRemote (fun _ => [])) :=
  ⟨.filled 32 1, .filled 32 2, (none : Option (RemoteAttestedSession Toy.toyRemote))⟩

def contribute : SessionCommand := .action (.adcnet (.contribute 0 none))

/-- The desktop closes the session and then gives a command. -/
def closing : List (RemoteOp (hostProgram Toy.toyRemote (fun _ => []))) :=
  let drawn : HostDraw Toy.toyRemote := ⟨Toy.phone, Toy.fresh, Toy.draw⟩
  [.call .close, .serve 0 drawn, .receive, .call (.performCommand contribute), .serve 0 drawn,
    .receive]

/-- The command of a closed session has a result, and was not applied. -/
theorem closed_returns : ¬ ∀ x ∈ (after idlePhone closing).ledger.returned,
    x ∈ (after idlePhone closing).ledger.applied := by
  intro h
  have hreturned : (after idlePhone closing).ledger.returned =
      [((0, contribute), .error .closed)] := rfl
  have happlied : (after idlePhone closing).ledger.applied = [] := rfl
  rw [hreturned, happlied] at h
  cases h _ List.mem_cons_self

end RemoteToy
end Anymone
