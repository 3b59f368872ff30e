import Anymone.Participation

/-! # The enrolment table

A relay admits the clients of an attested subnet by a table of keys, each with the round its
evidence lapses at.  `enroll` reads the round, the validity and the verifier one after another,
checks the evidence outside every lock and files the client afterwards; a changed policy stores
the validity, writes the verifier and clears the table, one after another too.  Every lock
section and every atomic access is a step here, and any number of calls is under way.

What a table holds is backed by the verifier installed (`holds_backed`) as long as no client is
filed by a call that has read another verifier or a longer validity.  Between a verifier's write
and the clearing the table is still the outgoing verifier's.
-/

namespace Anymone.Tee

/-- `MAX_ATTESTATION_BYTES`. -/
def maxAttestationBytes : Nat := 24 * 1024

/-- `DEFAULT_VALIDITY_ROUNDS`. -/
def defaultValidityRounds : Round := 100

/-- `ROUND_SLACK`. -/
def roundSlack : Nat := 2

/-- `MAX_ENROLLED`. -/
def maxEnrolled : Nat := 65536

/-- `AttestationScheme`. -/
inductive AttestationScheme where
  | tdx
  | playIntegrity
  | appAttest
  | androidKeyAttestation
  deriving DecidableEq

/-- `Attestation`. -/
structure Attestation where
  scheme : AttestationScheme
  round : Round
  evidence : Bytes
  deriving DecidableEq

/-- `TeeVerifier`s, and how one is built from a policy. -/
structure Verifiers (V Policy : Type) where
  verify : V → Pubkey → Attestation → Bool
  build : Policy → V
  /-- `AttestationPolicy::validity_rounds`. -/
  validityRounds : Policy → Round

/-- `AttestedClients`. -/
structure AttestedClients (V Policy : Type) where
  verifier : Option V
  policy : Option Policy
  enrolled : OrdMap Pubkey Round
  round : Round
  validityRounds : Round

namespace AttestedClients
variable {V Policy : Type}

/-- `AttestedClients::new`. -/
def new : AttestedClients V Policy := ⟨none, none, .empty, 0, defaultValidityRounds⟩

/-- The last section of `enroll`. -/
def file (c : AttestedClients V Policy) (client : Pubkey) (now expiry : Round) :
    AttestedClients V Policy × Bool :=
  let full := decide (maxEnrolled ≤ c.enrolled.size) && !c.enrolled.contains client
  let enrolled := if full then c.enrolled.retain (fun _ e => decide (now < e)) else c.enrolled
  if full && decide (maxEnrolled ≤ enrolled.size) then ({ c with enrolled := enrolled }, false)
  else
    let old := (enrolled.get? client).getD expiry
    ({ c with enrolled := enrolled.insert client (max old expiry) }, true)

/-- `contains`, of the round it has read. -/
def holds (c : AttestedClients V Policy) (client : Pubkey) (now : Round) : Bool :=
  (c.enrolled.get? client).any (fun expiry => decide (now < expiry))

end AttestedClients

/-- The round evidence lapses at. -/
def expiry (att : Attestation) (validity : Round) : Round := att.round.saturatingAdd validity.val

/-- Evidence outside the window is not looked at. -/
def inWindow (att : Attestation) (now validity : Round) : Bool :=
  !(decide (expiry att validity ≤ now) || decide (now.saturatingAdd roundSlack < att.round))

/-- A call of the table. -/
inductive Request (V Policy : Type) where
  | enroll (client : Pubkey) (att : Attestation)
  | contains (client : Pubkey)
  | setRound (round : Round)
  | setVerifier (verifier : Option V) (validityRounds : Round)
  | adoptPolicy (policy : Policy)

/-- A call under way: the section it is to run next, with what it has read so far. -/
inductive Call (V Policy : Type) where
  | enrollValidity (client : Pubkey) (att : Attestation) (now : Round)
  | enrollVerifier (client : Pubkey) (att : Attestation) (now validity : Round)
  | enrollFile (client : Pubkey) (att : Attestation) (now validity : Round) (verifier : V)
  | containsGet (client : Pubkey) (now : Round)
  | setRoundRetain (round : Round)
  | setVerifierStore (verifier : Option V) (validityRounds : Round) (reply : Option Bool)
  | setVerifierWrite (verifier : Option V) (validity : Round) (reply : Option Bool)
  | setVerifierClear (reply : Option Bool)

/-- The table, its callers and what each was last answered, and the validity that came with the
verifier installed. -/
structure State (ι V Policy : Type) where
  clients : AttestedClients V Policy
  calls : ι → Option (Call V Policy)
  replies : ι → Option Bool
  inForce : Round

/-- What happens, one section at a time. -/
inductive Op (ι V Policy : Type) where
  /-- A caller without a call under way makes one, and its first section runs. -/
  | request (i : ι) (request : Request V Policy)
  /-- The next section of a caller's call. -/
  | next (i : ι)

namespace State
variable {ι V Policy : Type} [DecidableEq ι] (s : State ι V Policy) (i : ι)

/-- The call goes on. -/
def goOn (call : Call V Policy) : State ι V Policy :=
  { s with calls := Function.update s.calls i (some call) }

/-- The call returns. -/
def finish (reply : Option Bool) : State ι V Policy :=
  { s with calls := Function.update s.calls i none, replies := Function.update s.replies i reply }

/-- The first section of `set_verifier`. -/
def storeValidity (verifier : Option V) (validityRounds : Round) (reply : Option Bool) :
    State ι V Policy :=
  let validity := if validityRounds = 0 then defaultValidityRounds else validityRounds
  { s with clients := { s.clients with validityRounds := validity } }.goOn i
    (.setVerifierWrite verifier validity reply)

variable [DecidableEq Policy] (P : Verifiers V Policy)

/-- The first section of a call. -/
def start : Request V Policy → State ι V Policy
  | .enroll client att =>
      if maxAttestationBytes < att.evidence.length then s.finish i (some false)
      else s.goOn i (.enrollValidity client att s.clients.round)
  | .contains client => s.goOn i (.containsGet client s.clients.round)
  | .setRound round =>
      { s with clients := { s.clients with round := round } }.goOn i (.setRoundRetain round)
  | .setVerifier verifier validityRounds => s.storeValidity i verifier validityRounds none
  | .adoptPolicy policy =>
      if s.clients.policy = some policy then s.finish i (some false)
      else
        { s with clients := { s.clients with policy := some policy } }.goOn i
          (.setVerifierStore (some (P.build policy)) (P.validityRounds policy) (some true))

omit [DecidableEq Policy] in
/-- The next section of a call. -/
def proceed : Call V Policy → State ι V Policy
  | .enrollValidity client att now =>
      let validity := s.clients.validityRounds
      if inWindow att now validity then s.goOn i (.enrollVerifier client att now validity)
      else s.finish i (some false)
  | .enrollVerifier client att now validity =>
      match s.clients.verifier with
      | none => s.finish i (some false)
      | some verifier =>
          if P.verify verifier client att then
            s.goOn i (.enrollFile client att now validity verifier)
          else s.finish i (some false)
  | .enrollFile client att now validity _ =>
      let (clients, reply) := s.clients.file client now (expiry att validity)
      { s with clients := clients }.finish i (some reply)
  | .containsGet client now => s.finish i (some (s.clients.holds client now))
  | .setRoundRetain round =>
      { s with clients := { s.clients with
          enrolled := s.clients.enrolled.retain (fun _ e => decide (round < e)) } }.finish i none
  | .setVerifierStore verifier validityRounds reply =>
      s.storeValidity i verifier validityRounds reply
  | .setVerifierWrite verifier validity reply =>
      { s with clients := { s.clients with verifier := verifier }, inForce := validity }.goOn i
        (.setVerifierClear reply)
  | .setVerifierClear reply =>
      { s with clients := { s.clients with enrolled := .empty } }.finish i reply

/-- One step. -/
def step : Op ι V Policy → State ι V Policy
  | .request i request => if (s.calls i).isSome then s else s.start i P request
  | .next i => (s.calls i).elim s (s.proceed i P)

end State

variable {ι V Policy : Type} [DecidableEq ι] [DecidableEq Policy] (P : Verifiers V Policy)

/-- A new table. -/
def init : State ι V Policy := ⟨.new, fun _ => none, fun _ => none, defaultValidityRounds⟩

/-- The state after a list of steps. -/
def after (ops : List (Op ι V Policy)) : State ι V Policy :=
  Trace.run init (fun s op => s.step P op) ops

@[simp] theorem after_concat (ops : List (Op ι V Policy)) (op : Op ι V Policy) :
    after P (ops ++ [op]) = (after P ops).step P op :=
  Trace.run_concat ..

/-! ## The size of the table -/

omit [DecidableEq ι] [DecidableEq Policy] in
theorem size_file {c : AttestedClients V Policy} (h : c.enrolled.size ≤ maxEnrolled)
    (client : Pubkey) (now expiry : Round) :
    (c.file client now expiry).1.enrolled.size ≤ maxEnrolled := by
  have hretain := c.enrolled.size_retain_le (fun _ e => decide (now < e))
  -- Inserting into a table with room, and inserting over an entry.
  have hroom : ∀ (m : OrdMap Pubkey Round) (v : Round), m.size ≤ maxEnrolled →
      (m.size < maxEnrolled ∨ m.contains client = true) →
        (m.insert client v).size ≤ maxEnrolled := by
    rintro m v hle hor
    cases hget : m.get? client with
    | none =>
      rw [OrdMap.size_insert_of_new hget]
      have hnot : m.contains client = false := by simp [OrdMap.contains, hget]
      rcases hor with hlt | hcontains
      · exact hlt
      · rw [hnot] at hcontains
        cases hcontains
    | some w =>
      rw [OrdMap.size_insert_of_old hget]
      exact hle
  unfold AttestedClients.file
  dsimp only
  cases hfull : decide (maxEnrolled ≤ c.enrolled.size) && !c.enrolled.contains client with
  | false =>
    simp only [Bool.false_and, Bool.false_eq_true, if_false]
    refine hroom _ _ h ?_
    rw [Bool.and_eq_false_iff, decide_eq_false_iff_not, Bool.not_eq_false', Nat.not_le] at hfull
    exact hfull
  | true =>
    simp only [if_true, Bool.true_and]
    by_cases hstill : maxEnrolled ≤ (c.enrolled.retain (fun _ e => decide (now < e))).size
    · rw [if_pos (decide_eq_true hstill)]
      exact hretain.trans h
    · rw [if_neg (by simpa using hstill)]
      exact hroom _ _ (hretain.trans h) (Or.inl (Nat.not_le.mp hstill))

/-! ## What a step does -/

/-- Whose step it is. -/
def Op.caller : Op ι V Policy → ι
  | .request i _ => i
  | .next i => i

/-- A verifier is written and the table not yet cleared. -/
def State.Swapping (s : State ι V Policy) : Prop :=
  ∃ i reply, s.calls i = some (.setVerifierClear reply)

section Step
variable {P} {s : State ι V Policy}

theorem step_cases (P : Verifiers V Policy) (s : State ι V Policy) (op : Op ι V Policy) :
    s.step P op = s ∨
      (∃ i request, op = .request i request ∧ s.calls i = none ∧
        s.step P op = s.start i P request) ∨
      ∃ i call, op = .next i ∧ s.calls i = some call ∧ s.step P op = s.proceed i P call := by
  cases op with
  | request i request =>
    cases hcall : s.calls i with
    | none => exact Or.inr (Or.inl ⟨i, request, rfl, hcall, by simp [State.step, hcall]⟩)
    | some call => exact Or.inl (by simp [State.step, hcall])
  | next i =>
    cases hcall : s.calls i with
    | none => exact Or.inl (by simp [State.step, hcall])
    | some call => exact Or.inr (Or.inr ⟨i, call, rfl, hcall, by simp [State.step, hcall]⟩)

/-- Every call but the caller's is left where it is. -/
theorem calls_step_of_ne {op : Op ι V Policy} {j : ι} (hj : j ≠ op.caller) :
    (s.step P op).calls j = s.calls j := by
  have hgoOn : ∀ (s : State ι V Policy) call, (s.goOn op.caller call).calls j = s.calls j :=
    fun s call => Function.update_of_ne hj ..
  have hfinish : ∀ (s : State ι V Policy) reply, (s.finish op.caller reply).calls j = s.calls j :=
    fun s reply => Function.update_of_ne hj ..
  rcases step_cases P s op with h | ⟨i, request, rfl, hidle, h⟩ | ⟨i, call, rfl, hcall, h⟩
  · rw [h]
  · rw [h]
    cases request <;> simp only [State.start, State.storeValidity] <;> (try split) <;>
      first | exact hgoOn .. | exact hfinish ..
  · rw [h]
    cases call <;> simp only [State.proceed, State.storeValidity] <;> (try split) <;>
      (try split) <;> first | exact hgoOn .. | exact hfinish ..

/-- The verifier installed and the table after a step. -/
inductive TableStep (s : State ι V Policy) (op : Op ι V Policy) (s' : State ι V Policy) : Prop where
  /-- At most entries are dropped. -/
  | shrinks (hverifier : s'.clients.verifier = s.clients.verifier)
      (hforce : s'.inForce = s.inForce) (hswap : s.Swapping → s'.Swapping)
      (hsub : ∀ client e, s'.clients.enrolled.get? client = some e →
        s.clients.enrolled.get? client = some e)
  /-- A client is filed. -/
  | files (i : ι) (client : Pubkey) (att : Attestation) (now validity : Round) (verifier : V)
      (hop : op = .next i)
      (hcall : s.calls i = some (.enrollFile client att now validity verifier))
      (hverifier : s'.clients.verifier = s.clients.verifier)
      (hforce : s'.inForce = s.inForce) (hswap : s.Swapping → s'.Swapping)
      (hsub : ∀ c e, s'.clients.enrolled.get? c = some e →
        s.clients.enrolled.get? c = some e ∨ c = client ∧ e = expiry att validity)
  | writes (hswap : s'.Swapping)
  | clears (hempty : s'.clients.enrolled = .empty)

/-- A step of a caller that is not to clear the table leaves who is. -/
theorem swapping_step {op : Op ι V Policy}
    (hnot : ∀ reply, s.calls op.caller ≠ some (.setVerifierClear reply)) (h : s.Swapping) :
    (s.step P op).Swapping := by
  obtain ⟨j, reply, hj⟩ := h
  refine ⟨j, reply, ?_⟩
  rw [calls_step_of_ne]
  · exact hj
  · rintro rfl
    exact hnot reply hj

omit [DecidableEq ι] [DecidableEq Policy] in
theorem get?_file {c : AttestedClients V Policy} {client k : Pubkey} {now lapse e : Round}
    (h : (c.file client now lapse).1.enrolled.get? k = some e) :
    c.enrolled.get? k = some e ∨ k = client ∧ e = lapse := by
  have hretain : ∀ k e, (c.enrolled.retain (fun _ e => decide (now < e))).get? k = some e →
      c.enrolled.get? k = some e := by
    intro k e hget
    rw [OrdMap.get?_retain, Option.filter_eq_some_iff] at hget
    exact hget.1
  have hinsert : ∀ m : OrdMap Pubkey Round, (∀ k e, m.get? k = some e →
      c.enrolled.get? k = some e) →
      (m.insert client (max ((m.get? client).getD lapse) lapse)).get? k = some e →
        c.enrolled.get? k = some e ∨ k = client ∧ e = lapse := by
    intro m hm hget
    rw [OrdMap.get?_insert] at hget
    by_cases hk : k = client
    · subst hk
      rw [if_pos rfl, Option.some_inj] at hget
      cases hold : m.get? k with
      | none => exact Or.inr ⟨rfl, by simpa [hold] using hget.symm⟩
      | some old =>
        rw [hold, Option.getD_some] at hget
        rcases max_choice old lapse with hmax | hmax
        · exact Or.inl (hm k e (by rw [hold, ← hget, hmax]))
        · exact Or.inr ⟨rfl, hget.symm.trans hmax⟩
    · rw [if_neg hk] at hget
      exact Or.inl (hm k e hget)
  unfold AttestedClients.file at h
  dsimp only at h
  cases hfull : decide (maxEnrolled ≤ c.enrolled.size) && !c.enrolled.contains client with
  | false =>
    simp only [hfull, Bool.false_and, Bool.false_eq_true, if_false] at h
    exact hinsert _ (fun _ _ hget => hget) h
  | true =>
    simp only [hfull, if_true, Bool.true_and] at h
    by_cases hstill : maxEnrolled ≤ (c.enrolled.retain (fun _ e => decide (now < e))).size
    · rw [if_pos (decide_eq_true hstill)] at h
      exact Or.inl (hretain k e h)
    · rw [if_neg (by simpa using hstill)] at h
      exact hinsert _ hretain h

omit [DecidableEq ι] [DecidableEq Policy] in
theorem verifier_file (c : AttestedClients V Policy) (client : Pubkey) (now lapse : Round) :
    (c.file client now lapse).1.verifier = c.verifier := by
  unfold AttestedClients.file
  dsimp only
  split <;> split <;> rfl

omit [DecidableEq ι] [DecidableEq Policy] in
/-- A step that leaves the table. -/
theorem TableStep.quiet {op : Op ι V Policy} {s' : State ι V Policy}
    (hverifier : s'.clients.verifier = s.clients.verifier)
    (henrolled : s'.clients.enrolled = s.clients.enrolled)
    (hforce : s'.inForce = s.inForce) (hswap : s.Swapping → s'.Swapping) : TableStep s op s' :=
  .shrinks hverifier hforce hswap (fun client e hget => by rw [henrolled] at hget; exact hget)

/-- The first section of a call leaves the table. -/
theorem table_start (P : Verifiers V Policy) {op : Op ι V Policy} {i : ι}
    {request : Request V Policy} (hswap : s.Swapping → (s.start i P request).Swapping) :
    TableStep s op (s.start i P request) := by
  cases request with
  | contains client => exact .quiet rfl rfl rfl hswap
  | setRound round => exact .quiet rfl rfl rfl hswap
  | setVerifier verifier validity => exact .quiet rfl rfl rfl hswap
  | enroll client att =>
    refine .quiet ?_ ?_ ?_ hswap <;> unfold State.start <;> dsimp only <;> split <;> rfl
  | adoptPolicy policy =>
    refine .quiet ?_ ?_ ?_ hswap <;> unfold State.start <;> dsimp only <;> split <;> rfl

omit [DecidableEq Policy] in
theorem table_proceed (P : Verifiers V Policy) {i : ι} {call : Call V Policy}
    (hcall : s.calls i = some call)
    (hswap : (∀ reply, call ≠ .setVerifierClear reply) → s.Swapping →
      (s.proceed i P call).Swapping) :
    TableStep s (.next i) (s.proceed i P call) := by
  cases call with
  | enrollValidity client att now =>
    refine .quiet ?_ ?_ ?_ (hswap (by simp)) <;> unfold State.proceed <;> dsimp only <;>
      split <;> rfl
  | enrollVerifier client att now validity =>
    refine .quiet ?_ ?_ ?_ (hswap (by simp)) <;> unfold State.proceed <;> dsimp only <;>
      split <;> (try split) <;> rfl
  | enrollFile client att now validity verifier =>
    exact .files i client att now validity verifier rfl hcall (verifier_file ..) rfl
      (hswap (by simp)) (fun _ _ hget => get?_file hget)
  | containsGet client now => exact .quiet rfl rfl rfl (hswap (by simp))
  | setRoundRetain round =>
    refine .shrinks rfl rfl (hswap (by simp)) (fun client e hget => ?_)
    exact (Option.filter_eq_some_iff.mp ((OrdMap.get?_retain ..).symm.trans hget)).1
  | setVerifierStore verifier validity reply => exact .quiet rfl rfl rfl (hswap (by simp))
  | setVerifierWrite verifier validity reply =>
    exact .writes ⟨i, reply, Function.update_self ..⟩
  | setVerifierClear reply => exact .clears rfl

/-- **What a step does to the table.** -/
theorem table_step (P : Verifiers V Policy) (s : State ι V Policy) (op : Op ι V Policy) :
    TableStep s op (s.step P op) := by
  rcases step_cases P s op with h | ⟨i, request, rfl, hidle, h⟩ | ⟨i, call, rfl, hcall, h⟩
  · rw [h]
    exact .quiet rfl rfl rfl id
  · have hswap : s.Swapping → (s.step P (.request i request)).Swapping := by
      refine swapping_step (fun reply hclear => ?_)
      rw [Op.caller, hidle] at hclear
      cases hclear
    rw [h] at hswap ⊢
    exact table_start P hswap
  · have hswap : (∀ reply, call ≠ .setVerifierClear reply) → s.Swapping →
        (s.step P (.next i)).Swapping := by
      refine fun hne => swapping_step (fun reply hclear => hne reply ?_)
      rw [Op.caller, hcall] at hclear
      exact Option.some.inj hclear
    rw [h] at hswap ⊢
    exact table_proceed P hcall hswap

theorem size_step (h : s.clients.enrolled.size ≤ maxEnrolled) (op : Op ι V Policy) :
    (s.step P op).clients.enrolled.size ≤ maxEnrolled := by
  rcases step_cases P s op with hs | ⟨i, request, rfl, hidle, hs⟩ | ⟨i, call, rfl, hcall, hs⟩
  · rw [hs]
    exact h
  · rw [hs]
    cases request <;> simp only [State.start, State.storeValidity] <;> (try split) <;> exact h
  · rw [hs]
    cases call with
    | enrollFile client att now validity verifier => exact size_file h ..
    | setRoundRetain round => exact (OrdMap.size_retain_le ..).trans h
    | setVerifierClear reply => exact Nat.zero_le _
    | enrollValidity | enrollVerifier =>
      simp only [State.proceed]
      split <;> (try split) <;> exact h
    | containsGet | setVerifierStore | setVerifierWrite => exact h

end Step

/-! ## What a call has read -/

/-- Evidence for the client was presented, when the node's round was `now`. -/
def Presented (ops : List (Op ι V Policy)) (client : Pubkey) (att : Attestation) (now : Round) :
    Prop :=
  ∃ pre i, (pre, Op.request i (.enroll client att)) ∈ Trace.steps ops ∧
    (after P pre).clients.round = now

/-- What is true of an `enroll` by the section it is to run. -/
def Reads (ops : List (Op ι V Policy)) : Call V Policy → Prop
  | .enrollValidity client att now => Presented P ops client att now
  | .enrollVerifier client att now validity =>
      Presented P ops client att now ∧ inWindow att now validity = true
  | .enrollFile client att now validity verifier =>
      Presented P ops client att now ∧ inWindow att now validity = true ∧
        P.verify verifier client att = true
  | .containsGet .. | .setRoundRetain .. | .setVerifierStore .. | .setVerifierWrite ..
  | .setVerifierClear .. => True

variable {P}

theorem Presented.concat {ops : List (Op ι V Policy)} {client : Pubkey} {att : Attestation}
    {now : Round} (h : Presented P ops client att now) (op : Op ι V Policy) :
    Presented P (ops ++ [op]) client att now := by
  obtain ⟨pre, i, hmem, hround⟩ := h
  exact ⟨pre, i, Trace.mem_steps_mono (List.prefix_append ..) hmem, hround⟩

theorem Reads.concat {ops : List (Op ι V Policy)} {call : Call V Policy} (h : Reads P ops call)
    (op : Op ι V Policy) : Reads P (ops ++ [op]) call := by
  cases call with
  | enrollValidity => exact Presented.concat h op
  | enrollVerifier => exact ⟨h.1.concat op, h.2⟩
  | enrollFile => exact ⟨h.1.concat op, h.2⟩
  | containsGet | setRoundRetain | setVerifierStore | setVerifierWrite | setVerifierClear =>
    trivial

omit [DecidableEq Policy] in
theorem calls_goOn {s : State ι V Policy} {i : ι} {next call : Call V Policy}
    (h : (s.goOn i next).calls i = some call) : call = next := by
  simpa [State.goOn, eq_comm] using h

omit [DecidableEq Policy] in
theorem calls_finish {s : State ι V Policy} {i : ι} {reply : Option Bool} :
    (s.finish i reply).calls i = none :=
  Function.update_self ..

theorem reads_start {ops : List (Op ι V Policy)} {i : ι} {request : Request V Policy}
    {call : Call V Policy}
    (h : ((after P ops).start i P request).calls i = some call) :
    Reads P (ops ++ [.request i request]) call := by
  cases request with
  | enroll client att =>
    simp only [State.start] at h
    split at h
    · rw [calls_finish] at h
      cases h
    · obtain rfl := calls_goOn h
      refine ⟨ops, i, ?_, rfl⟩
      rw [Trace.steps_concat]
      exact List.mem_append_right _ (List.mem_singleton_self _)
  | contains client =>
    obtain rfl := calls_goOn h
    trivial
  | setRound round =>
    obtain rfl := calls_goOn h
    trivial
  | setVerifier verifier validity =>
    obtain rfl := calls_goOn h
    trivial
  | adoptPolicy policy =>
    simp only [State.start] at h
    split at h
    · rw [calls_finish] at h
      cases h
    · obtain rfl := calls_goOn h
      trivial

theorem reads_proceed {ops : List (Op ι V Policy)} {i : ι} {old call : Call V Policy}
    (hold : Reads P ops old) (h : ((after P ops).proceed i P old).calls i = some call) :
    Reads P (ops ++ [.next i]) call := by
  cases old with
  | enrollValidity client att now =>
    simp only [State.proceed] at h
    split at h
    · obtain rfl := calls_goOn h
      exact ⟨Presented.concat hold _, ‹_›⟩
    · rw [calls_finish] at h
      cases h
  | enrollVerifier client att now validity =>
    simp only [State.proceed] at h
    split at h
    · rw [calls_finish] at h
      cases h
    · split at h
      · obtain rfl := calls_goOn h
        exact ⟨hold.1.concat _, hold.2, ‹_›⟩
      · rw [calls_finish] at h
        cases h
  | setVerifierStore verifier validity reply =>
    obtain rfl := calls_goOn h
    trivial
  | setVerifierWrite verifier validity reply =>
    obtain rfl := calls_goOn h
    trivial
  | enrollFile | containsGet | setRoundRetain | setVerifierClear =>
    simp only [State.proceed, calls_finish] at h
    cases h

/-- **What every call under way has read.** -/
theorem reads (ops : List (Op ι V Policy)) :
    ∀ i call, (after P ops).calls i = some call → Reads P ops call := by
  induction ops using List.reverseRecOn with
  | nil =>
    intro i call hcall
    cases hcall
  | append_singleton ops op ih =>
    intro j call hj
    rw [after_concat] at hj
    by_cases hne : j = op.caller
    · subst hne
      rcases step_cases P (after P ops) op with
        h | ⟨i, request, rfl, hidle, h⟩ | ⟨i, old, rfl, hcall, h⟩
      · rw [h] at hj
        exact (ih _ call hj).concat op
      · rw [h] at hj
        exact reads_start hj
      · rw [h] at hj
        exact reads_proceed (ih i old hcall) hj
    · rw [calls_step_of_ne hne] at hj
      exact (ih j call hj).concat op

/-! ## Whole runs -/

/-- The verifier accepted evidence for the client that lapses, by the validity, at `lapse` at the
earliest, and whose round was at most the slack ahead of the node's when it was presented. -/
def Accepted (P : Verifiers V Policy) (ops : List (Op ι V Policy)) (verifier : V)
    (validity : Round) (client : Pubkey) (lapse : Nat) : Prop :=
  ∃ att now, Presented P ops client att now ∧ P.verify verifier client att = true ∧
    lapse ≤ att.round.val + validity.val ∧ att.round.val ≤ now.val + roundSlack

/-- A client is filed by a call whose verifier is the one installed and whose validity is at most
the one that came with it, or in a table that is yet to be cleared. -/
def InForce (s : State ι V Policy) : Op ι V Policy → Prop
  | .request _ _ => True
  | .next i => ∀ client att now validity verifier,
      s.calls i = some (.enrollFile client att now validity verifier) →
        s.Swapping ∨ (s.clients.verifier = some verifier ∧ validity ≤ s.inForce)

/-- A table that is not to be cleared is backed by the verifier installed. -/
def Backed (P : Verifiers V Policy) (ops : List (Op ι V Policy)) : Prop :=
  ¬ (after P ops).Swapping → ∀ client e, (after P ops).clients.enrolled.get? client = some e →
    ∃ verifier, (after P ops).clients.verifier = some verifier ∧
      Accepted P ops verifier (after P ops).inForce client e.val

theorem Accepted.concat {ops : List (Op ι V Policy)} {verifier : V} {validity : Round}
    {client : Pubkey} {lapse : Nat} (h : Accepted P ops verifier validity client lapse)
    (op : Op ι V Policy) : Accepted P (ops ++ [op]) verifier validity client lapse := by
  obtain ⟨att, now, hpresented, hrest⟩ := h
  exact ⟨att, now, hpresented.concat op, hrest⟩

/-- What the window check says of the rounds. -/
theorem le_of_inWindow {att : Attestation} {now validity : Round}
    (h : inWindow att now validity = true) :
    (expiry att validity).val ≤ att.round.val + validity.val ∧
      att.round.val ≤ now.val + roundSlack := by
  unfold inWindow at h
  simp only [Bool.not_or, Bool.and_eq_true, Bool.not_eq_true', decide_eq_false_iff_not,
    Fin.not_le, Fin.not_lt] at h
  refine ⟨Nat.min_le_left .., ?_⟩
  exact le_trans (Fin.le_def.mp h.2) (Nat.min_le_left ..)

theorem Backed.concat {ops : List (Op ι V Policy)} {op : Op ι V Policy} (h : Backed P ops)
    (hforce : InForce (after P ops) op) : Backed P (ops ++ [op]) := by
  have htable := table_step P (after P ops) op
  have hreads := reads (P := P) ops
  unfold Backed
  rw [after_concat]
  generalize (after P ops).step P op = s' at htable ⊢
  intro hnot client e hget
  cases htable with
  | shrinks hverifier hvalidity hswap hsub =>
    obtain ⟨verifier, hin, haccepted⟩ :=
      h (fun hs => hnot (hswap hs)) client e (hsub client e hget)
    rw [hverifier, hvalidity]
    exact ⟨verifier, hin, haccepted.concat op⟩
  | files i filed att now validity verifier hop hcall hverifier hvalidity hswap hsub =>
    have hstill : ¬ (after P ops).Swapping := fun hs => hnot (hswap hs)
    rw [hverifier, hvalidity]
    rcases hsub client e hget with hold | ⟨rfl, rfl⟩
    · obtain ⟨verifier, hin, haccepted⟩ := h hstill client e hold
      exact ⟨verifier, hin, haccepted.concat op⟩
    · subst hop
      obtain ⟨hpresented, hwindow, hverify⟩ := hreads i _ hcall
      obtain ⟨hin, hle⟩ := (hforce _ _ _ _ _ hcall).resolve_left hstill
      obtain ⟨hlapse, hslack⟩ := le_of_inWindow hwindow
      exact ⟨verifier, hin, att, now, hpresented.concat _, hverify,
        hlapse.trans (Nat.add_le_add_left hle _), hslack⟩
  | writes hswap => exact absurd hswap hnot
  | clears hempty =>
    rw [hempty, OrdMap.get?_empty] at hget
    cases hget

/-- **Whom a table holds.**  Never more than `MAX_ENROLLED`; and in a run in which no client is
filed by a call that has read another verifier than the one installed or a longer validity than
came with it, the verifier installed has accepted whoever a table holds that is not to be
cleared. -/
theorem holds_backed (P : Verifiers V Policy) (ops : List (Op ι V Policy)) :
    (after P ops).clients.enrolled.size ≤ maxEnrolled ∧
      ((∀ σ ∈ Trace.steps ops, InForce (after P σ.1) σ.2) → ¬ (after P ops).Swapping →
        ∀ client now, (after P ops).clients.holds client now = true →
          ∃ verifier, (after P ops).clients.verifier = some verifier ∧
            Accepted P ops verifier (after P ops).inForce client (now.val + 1)) := by
  constructor
  · induction ops using List.reverseRecOn with
    | nil => exact Nat.zero_le _
    | append_singleton ops op ih =>
      rw [after_concat]
      exact size_step ih op
  · intro hforce hnot client now hholds
    have hbacked : Backed P ops := by
      refine Trace.prefix_induction (P := fun ops => Backed P ops) ?_ ?_ ops (List.prefix_refl _)
      · intro _ client e hget
        cases hget
      · exact fun σ hσ h => h.concat (hforce σ hσ)
    unfold AttestedClients.holds at hholds
    rw [Option.any_eq_true] at hholds
    obtain ⟨e, hget, hlt⟩ := hholds
    obtain ⟨verifier, hin, att, presented, hpresented, hverify, hlapse, hslack⟩ :=
      hbacked hnot client e hget
    have hlt : now.val < e.val := of_decide_eq_true hlt
    exact ⟨verifier, hin, att, presented, hpresented, hverify, by omega, hslack⟩

/-- `InForce`, computed, where no table is to be cleared. -/
def Call.fits [DecidableEq V] (s : State ι V Policy) : Call V Policy → Bool
  | .enrollFile _ _ _ validity verifier =>
      decide (s.clients.verifier = some verifier) && decide (validity ≤ s.inForce)
  | _ => true

/-- The step keeps to `InForce`, computed. -/
def Op.fits [DecidableEq V] (s : State ι V Policy) : Op ι V Policy → Bool
  | .request _ _ => true
  | .next i => (s.calls i).all (Call.fits s)

omit [DecidableEq ι] [DecidableEq Policy] in
theorem inForce_of_fits [DecidableEq V] {s : State ι V Policy} {op : Op ι V Policy}
    (h : op.fits s = true) : InForce s op := by
  cases op with
  | request i request => trivial
  | next i =>
    intro client att now validity verifier hcall
    rw [Op.fits, hcall, Option.all_some, Call.fits, Bool.and_eq_true, decide_eq_true_eq,
      decide_eq_true_eq] at h
    exact Or.inr h

namespace EnrolmentToy

/-- A verifier that accepts everything, and one that accepts nothing. -/
def verifiers : Verifiers Bool Unit := ⟨fun v _ _ => v, fun _ => false, fun _ => 10⟩

def client : Pubkey := .filled 32 1

def evidence : Attestation := ⟨.tdx, 0, [1, 2, 3]⟩

/-- A swap, by the first caller. -/
def swap (verifier : Bool) (validity : Round) : List (Op Bool Bool Unit) :=
  [.request false (.setVerifier (some verifier) validity), .next false, .next false]

/-- The second caller presents its evidence, under a verifier that accepts everything. -/
def enrolled : List (Op Bool Bool Unit) :=
  swap true 10 ++ [.request true (.enroll client evidence), .next true, .next true, .next true]

/-- The verifier is swapped once the evidence is accepted, before the client is filed. -/
def filedLate : List (Op Bool Bool Unit) :=
  swap true 10 ++ [.request true (.enroll client evidence), .next true, .next true] ++
    swap false 10 ++ [.next true]

/-- The validity is cut to 3 rounds between the reading of the validity and of the verifier. -/
def oldValidity : List (Op Bool Bool Unit) :=
  swap true 10 ++ [.request true (.enroll client evidence), .next true] ++ swap true 3 ++
    [.next true, .next true]

/-- The verifier is written and the table not yet cleared. -/
def uncleared : List (Op Bool Bool Unit) := enrolled ++ (swap false 10).take 2

/-- Whether the table is as at rest. -/
def atRest (s : State Bool Bool Unit) : Bool := (s.calls false).isNone && (s.calls true).isNone

theorem not_swapping_of_atRest {s : State Bool Bool Unit} (h : atRest s = true) :
    ¬ s.Swapping := by
  rintro ⟨i, reply, hcall⟩
  cases i <;> simp [atRest, hcall] at h

end EnrolmentToy

open EnrolmentToy in
theorem holds_backed_toy :
    ∃ verifier, (after verifiers enrolled).clients.verifier = some verifier ∧
      Accepted verifiers enrolled verifier (after verifiers enrolled).inForce client 4 := by
  have hrest := not_swapping_of_atRest (s := after verifiers enrolled) (by decide +kernel)
  refine (holds_backed verifiers enrolled).2 ?_ hrest client 3 (by decide +kernel)
  have hall : (Trace.steps enrolled).all (fun σ => σ.2.fits (after verifiers σ.1)) = true := by
    decide +kernel
  exact fun σ hσ => inForce_of_fits (List.all_eq_true.mp hall σ hσ)

open EnrolmentToy in
/-- **Evidence outlives the verifier that judged it**, when it is filed after the swap, and under
the validity of before when that was read first; and until the table is cleared. -/
theorem enrolled_after_swap :
    ((after verifiers filedLate).clients.holds client 4 = true ∧
      ¬ ∃ verifier, (after verifiers filedLate).clients.verifier = some verifier ∧
        Accepted verifiers filedLate verifier (after verifiers filedLate).inForce client 5) ∧
    ((after verifiers oldValidity).clients.holds client 4 = true ∧
      ¬ ∃ verifier, (after verifiers oldValidity).clients.verifier = some verifier ∧
        Accepted verifiers oldValidity verifier (after verifiers oldValidity).inForce client 5) ∧
    ((after verifiers uncleared).clients.holds client 4 = true ∧
      ¬ ∃ verifier, (after verifiers uncleared).clients.verifier = some verifier ∧
        Accepted verifiers uncleared verifier (after verifiers uncleared).inForce client 5) := by
  -- A verifier that accepts nothing accepted nothing.
  have hrefuses : ∀ ops : List (Op Bool Bool Unit),
      (after verifiers ops).clients.verifier = some false →
      ¬ ∃ verifier, (after verifiers ops).clients.verifier = some verifier ∧
        Accepted verifiers ops verifier (after verifiers ops).inForce client 5 := by
    rintro ops hverifier ⟨verifier, hin, att, now, -, hverify, -⟩
    rw [hverifier, Option.some_inj] at hin
    rw [← hin] at hverify
    cases hverify
  refine ⟨⟨by decide +kernel, hrefuses _ (by decide +kernel)⟩, ⟨by decide +kernel, ?_⟩,
    ⟨by decide +kernel, hrefuses _ (by decide +kernel)⟩⟩
  rintro ⟨verifier, -, att, now, ⟨pre, i, hmem, -⟩, -, hlapse, -⟩
  have hatt : att = evidence := by
    have hboth : i = true ∧ att = evidence := by
      simpa [oldValidity, swap] using Trace.mem_of_mem_steps hmem
    exact hboth.2
  have hforce : (after verifiers oldValidity).inForce = 3 := by decide +kernel
  rw [hatt, hforce] at hlapse
  exact absurd hlapse (by decide)

end Anymone.Tee
