import Anymone.EthService

/-! # Submissions are sent once

The journal of submissions is written before a submission is sent and after it is answered.
`JournalStep` says what one step does to it, so that in any run, whatever the upstream answers
and whenever the process dies, a submission is sent at most once, and what is replied to it
is that one answer under the caller's id, or an error of the service's own
(`countP_sent_le_one`, `reply_of_sent`).
-/

namespace Anymone.Eth
variable {K : EthCrypto} {svc : RpcService K} {J : JsonText}

/-! ## The journal -/

namespace ServiceState

/-- The journal of submissions. -/
def journal (s : ServiceState K) : OrdMap (ByteArr 32) (Option Bytes) := s.store.rpcDispatches

/-- Where the submission in hand stands. -/
def stage (s : ServiceState K) : Stage := (s.active.map Active.stage).getD .ready

end ServiceState

/-- The event is about a submission. -/
def ServiceEvent.ofSubmission : ServiceEvent K → Bool
  | .sent .. | .replied .. => true
  | .started _ | .returned .. | .failed .. | .published .. => false

open RpcService in
/-- What one step does with the journal. -/
inductive JournalStep (J : JsonText) (s s' : ServiceState K) (out : List (ServiceEvent K)) : Prop
  /-- Nothing, but that the submission in hand may be lost. -/
  | quiet (hjournal : s'.journal = s.journal) (hstage : s'.stage = s.stage ∨ s'.stage = .ready)
      (hout : ∀ e ∈ out, e.ofSubmission = false)
  /-- The submission is found in the journal, or the journal is full. -/
  | known (call : Call) (rpc : RpcCall) (sub : Submission) (result : Option Json)
      (hjournal : s'.journal = s.journal) (hstage : s'.stage = .ready)
      (hresult : (∃ text, s.journal.get? (submissionKey K sub) = some (some text) ∧
        result = J.parse text) ∨ result = some unknownOutcome ∨ result = none)
      (hout : out = [.replied call sub rpc.replyId (callReply rpc.replyId result)])
  /-- The submission is journalled. -/
  | fresh (rpc : RpcCall) (sub : Submission) (hnew : s.journal.get? (submissionKey K sub) = none)
      (hjournal : s'.journal = s.journal.insert (submissionKey K sub) none)
      (hstage : s'.stage = .reserved rpc sub) (hout : out = [])
  /-- The submission is sent and answered. -/
  | sent (rpc : RpcCall) (sub : Submission) (reply : Json) (hbefore : s.stage = .reserved rpc sub)
      (hjournal : s'.journal = s.journal) (hstage : s'.stage = .answered rpc sub reply)
      (hout : out = [.sent sub (some reply)])
  /-- The submission is sent and its outcome unknown. -/
  | lost (call : Call) (rpc : RpcCall) (sub : Submission) (hbefore : s.stage = .reserved rpc sub)
      (hjournal : s'.journal = s.journal) (hstage : s'.stage = .ready)
      (hout : out = [.sent sub none,
        .replied call sub rpc.replyId (callReply rpc.replyId (some unknownOutcome))])
  /-- The answer is journalled and replied. -/
  | finished (call : Call) (rpc : RpcCall) (sub : Submission) (reply : Json)
      (hbefore : s.stage = .answered rpc sub reply)
      (hjournal : s'.journal = s.journal.insert (submissionKey K sub) (some (J.write reply)))
      (hstage : s'.stage = .ready)
      (hout : out = [.replied call sub rpc.replyId (callReply rpc.replyId (some reply))])
  /-- The answer has no entry to go to. -/
  | unfinished (call : Call) (rpc : RpcCall) (sub : Submission)
      (hjournal : s'.journal = s.journal) (hstage : s'.stage = .ready)
      (hout : out = [.replied call sub rpc.replyId (callReply rpc.replyId (some unknownOutcome))])

namespace RpcService

theorem stage_startDispatch (maxBatch : Nat) (call : Call) :
    (startDispatch J maxBatch call).stage = .ready := by
  unfold startDispatch
  split <;> rfl

/-- An item that is not a submission leaves no submission in hand. -/
theorem stage_answerItem {a a' : Active} {body : Option Bytes}
    (h : svc.answerItem J a body = some a') : a'.stage = .ready := by
  unfold answerItem at h
  split at h
  · cases h
  · split at h
    · cases h
      rfl
    · split at h <;> cases h <;> rfl

theorem submissionOf_eq_some {a : Active} {rpc : RpcCall} {sub : Submission}
    (h : svc.submissionOf a = some (rpc, sub)) :
    ∃ item rest, a.items = item :: rest ∧ RpcCall.parse item = some rpc ∧
      svc.forwarder.forward a.call.request.backendRoute rpc = .submit sub := by
  unfold submissionOf at h
  split at h
  · cases h
  · rename_i item rest hitems
    split at h
    · cases h
    · rename_i rpc' hparse
      split at h
      · rename_i hforward
        cases h
        exact ⟨item, rest, hitems, hparse, hforward⟩
      all_goals cases h

theorem journalStep_begin {s : ServiceState K} (hidle : s.active = none) (waiting : List Call)
    (call : Call) (elapsed : Nat) :
    JournalStep J s (svc.begin J { s with waiting := waiting } call elapsed).1
      (svc.begin J { s with waiting := waiting } call elapsed).2 := by
  have hready : s.stage = .ready := by
    unfold ServiceState.stage
    rw [hidle]
    rfl
  unfold begin
  split
  · exact .quiet rfl (Or.inl rfl) (by simp [ServiceEvent.ofSubmission])
  · split
    · exact .quiet rfl (Or.inl rfl) (by simp [ServiceEvent.ofSubmission])
    · split
      · exact .quiet rfl (Or.inl rfl) (by simp [ServiceEvent.ofSubmission])
      · exact .quiet rfl (Or.inl rfl) (by simp [ServiceEvent.ofSubmission])
      · rename_i store hfile
        exact .quiet (ServiceStore.fileOperation_frame hfile).1
          (Or.inr (stage_startDispatch svc.descriptor.limits.maxBatch.val call))
          (by simp [ServiceEvent.ofSubmission])

theorem journalStep_reserve (s : ServiceState K) (a : Active) (rpc : RpcCall) (sub : Submission) :
    JournalStep J s (reserveItem J s a rpc sub).1 (reserveItem J s a rpc sub).2 := by
  unfold reserveItem ServiceStore.reserve
  cases hget : s.store.rpcDispatches.get? (submissionKey K sub) with
  | some row =>
    cases row with
    | some text =>
      cases hparse : J.parse text with
      | some reply =>
        simp only [hparse]
        exact .known a.call rpc sub (some reply) rfl rfl (Or.inl ⟨text, hget, hparse.symm⟩) rfl
      | none =>
        simp only [hparse]
        exact .known a.call rpc sub none rfl rfl (Or.inr (Or.inr rfl)) rfl
    | none => exact .known a.call rpc sub _ rfl rfl (Or.inr (Or.inl rfl)) rfl
  | none =>
    dsimp only
    by_cases hfull : 100000 ≤ s.store.rpcDispatches.size
    · rw [if_pos hfull]
      exact .known a.call rpc sub none rfl rfl (Or.inr (Or.inr rfl)) rfl
    · rw [if_neg hfull]
      exact .fresh rpc sub hget rfl rfl rfl

theorem journalStep_send {s : ServiceState K} {a : Active} {rpc : RpcCall} {sub : Submission}
    (hbefore : s.stage = .reserved rpc sub) (body : Option Bytes) :
    JournalStep J s (sendItem J s a rpc sub body).1 (sendItem J s a rpc sub body).2 := by
  unfold sendItem
  split
  · rename_i reply hreply
    exact .sent rpc sub reply hbefore rfl rfl rfl
  · exact .lost a.call rpc sub hbefore rfl rfl rfl

theorem journalStep_finish {s : ServiceState K} {a : Active} {rpc : RpcCall} {sub : Submission}
    {reply : Json} (hbefore : s.stage = .answered rpc sub reply) :
    JournalStep J s (finishItem J s a rpc sub reply).1 (finishItem J s a rpc sub reply).2 := by
  unfold finishItem ServiceStore.finish
  by_cases hrow : s.store.rpcDispatches.contains (submissionKey K sub) = true
  · rw [if_pos hrow]
    exact .finished a.call rpc sub reply hbefore rfl rfl rfl
  · rw [if_neg hrow]
    exact .unfinished a.call rpc sub rfl rfl rfl

theorem journalStep_finishCall (s : ServiceState K) (a : Active) (elapsed : Nat)
    (nonce : ByteArr 24) :
    JournalStep J s (svc.finishCall J s a elapsed nonce).1 (svc.finishCall J s a elapsed nonce).2 := by
  unfold finishCall
  split
  · exact .quiet rfl (Or.inr rfl) (by simp [ServiceEvent.ofSubmission])
  · split
    · exact .quiet rfl (Or.inr rfl) (by simp [ServiceEvent.ofSubmission])
    · rename_i store hfile
      exact .quiet (ServiceStore.fileReply_frame hfile) (Or.inr rfl) (by simp [ServiceEvent.ofSubmission])

theorem stage_of_active {s : ServiceState K} {a : Active} {stage : Stage}
    (hactive : s.active = some a) (hstage : a.stage = stage) : s.stage = stage := by
  unfold ServiceState.stage
  rw [hactive]
  exact hstage

theorem JournalStep.rfl (s : ServiceState K) : JournalStep J s s [] :=
  .quiet (Eq.refl _) (Or.inl (Eq.refl _)) (by simp)

theorem journalStep_of {s s' : ServiceState K} {op : ServiceOp}
    {out : List (ServiceEvent K)} (h : ServiceStep svc J s op s' out) : JournalStep J s s' out := by
  cases h with
  | idle => exact JournalStep.rfl s
  | refused => exact .quiet (Eq.refl _) (Or.inl (Eq.refl _)) (by simp [ServiceEvent.ofSubmission])
  | queued => exact .quiet (Eq.refl _) (Or.inl (Eq.refl _)) (by simp)
  | acquired i elapsed hidle => exact journalStep_begin hidle (s.waiting.eraseIdx i) _ elapsed
  | answered body hactive hitem =>
    exact .quiet (Eq.refl _) (Or.inr (stage_answerItem hitem)) (by simp)
  | reserving => exact journalStep_reserve s _ _ _
  | sending body hactive hstage => exact journalStep_send (stage_of_active hactive hstage) body
  | finishing hactive hstage => exact journalStep_finish (stage_of_active hactive hstage)
  | filing elapsed nonce => exact journalStep_finishCall s _ elapsed nonce
  | listed => exact .quiet (Eq.refl _) (Or.inl (Eq.refl _)) (by simp)
  | crashed => exact .quiet (Eq.refl _) (Or.inr (Eq.refl _)) (by simp)

/-- **What a step of the service does with the journal.** -/
theorem journalStep (s : ServiceState K) (op : ServiceOp) :
    JournalStep J s (svc.step J s op).1 (svc.step J s op).2 :=
  journalStep_of (serviceStep svc J s op)

/-! ## What a run keeps -/

/-- The journal beside what the run showed: a submission in hand has its entry, and an
answer in hand or in the journal is the one the upstream gave. -/
structure Journalled (J : JsonText) (s : ServiceState K) (shown : List (ServiceEvent K)) : Prop where
  held : ∀ rpc sub, (s.stage = .reserved rpc sub ∨ ∃ reply, s.stage = .answered rpc sub reply) →
    s.journal.contains (submissionKey K sub) = true
  answered : ∀ rpc sub reply, s.stage = .answered rpc sub reply → .sent sub (some reply) ∈ shown
  text : ∀ key text, s.journal.get? key = some (some text) →
    ∃ sub reply, submissionKey K sub = key ∧ .sent sub (some reply) ∈ shown ∧ text = J.write reply

theorem Journalled.step {s s' : ServiceState K} {out shown : List (ServiceEvent K)}
    (h : Journalled J s shown) (hstep : JournalStep J s s' out) :
    Journalled J s' (shown ++ out) := by
  have hshown : ∀ {e}, e ∈ shown → e ∈ shown ++ out := fun he => List.mem_append_left _ he
  -- a step that keeps the journal and leaves no submission in hand
  have hplain : s'.journal = s.journal → s'.stage = .ready → Journalled J s' (shown ++ out) := by
    intro hjournal hstage
    refine ⟨by simp [hstage], by simp [hstage], ?_⟩
    intro key text hget
    rw [hjournal] at hget
    obtain ⟨sub, reply, hkey, hsent, htext⟩ := h.text key text hget
    exact ⟨sub, reply, hkey, hshown hsent, htext⟩
  cases hstep with
  | quiet hjournal hstage =>
    rcases hstage with hstage | hstage
    · refine ⟨?_, ?_, ?_⟩
      · rw [hstage, hjournal]
        exact h.held
      · rw [hstage]
        exact fun rpc sub reply hs => hshown (h.answered rpc sub reply hs)
      · intro key text hget
        rw [hjournal] at hget
        obtain ⟨sub, reply, hkey, hsent, htext⟩ := h.text key text hget
        exact ⟨sub, reply, hkey, hshown hsent, htext⟩
    · exact hplain hjournal hstage
  | known _ _ _ _ hjournal hstage => exact hplain hjournal hstage
  | lost _ _ _ _ hjournal hstage => exact hplain hjournal hstage
  | unfinished _ _ _ hjournal hstage => exact hplain hjournal hstage
  | fresh rpc sub hnew hjournal hstage =>
    refine ⟨?_, by simp [hstage], ?_⟩
    · rintro rpc' sub' (hs | ⟨reply, hs⟩)
      · rw [hstage] at hs
        cases hs
        rw [hjournal, OrdMap.contains_insert_iff]
        exact Or.inl rfl
      · rw [hstage] at hs
        cases hs
    · intro key text hget
      rw [hjournal, OrdMap.get?_insert] at hget
      split_ifs at hget
      · cases hget
      · obtain ⟨sub', reply, hkey, hsent, htext⟩ := h.text key text hget
        exact ⟨sub', reply, hkey, hshown hsent, htext⟩
  | sent rpc sub reply hbefore hjournal hstage hout =>
    refine ⟨?_, ?_, ?_⟩
    · rintro rpc' sub' (hs | ⟨reply', hs⟩)
      · rw [hstage] at hs
        cases hs
      · rw [hstage] at hs
        cases hs
        rw [hjournal]
        exact h.held rpc sub (Or.inl hbefore)
    · intro rpc' sub' reply' hs
      rw [hstage] at hs
      cases hs
      simp [hout]
    · intro key text hget
      rw [hjournal] at hget
      obtain ⟨sub', reply', hkey, hsent, htext⟩ := h.text key text hget
      exact ⟨sub', reply', hkey, hshown hsent, htext⟩
  | finished call rpc sub reply hbefore hjournal hstage =>
    refine ⟨by simp [hstage], by simp [hstage], ?_⟩
    intro key text hget
    rw [hjournal, OrdMap.get?_insert] at hget
    split_ifs at hget with hkey
    · cases hget
      exact ⟨sub, reply, hkey.symm, hshown (h.answered rpc sub reply hbefore), rfl⟩
    · obtain ⟨sub', reply', hkey', hsent, htext⟩ := h.text key text hget
      exact ⟨sub', reply', hkey', hshown hsent, htext⟩

variable (svc J) in
theorem journalled_after (ops : List ServiceOp) :
    Journalled J (svc.after J ops) (svc.events J ops) := by
  induction ops using List.reverseRecOn with
  | nil =>
    refine ⟨?_, ?_, ?_⟩ <;>
      simp [after, Trace.run, ServiceState.new, ServiceStore.new, ServiceState.stage,
        ServiceState.journal]
  | append_singleton ops op ih =>
    rw [after_concat, events_concat]
    exact ih.step (journalStep _ op)

/-! ## Sent once -/

/-- The event sends the submission. -/
def sends (sub : Submission) : ServiceEvent K → Bool
  | .sent sub' _ => decide (sub' = sub)
  | .started _ | .returned .. | .failed .. | .replied .. | .published .. => false

/-- The submission is journalled, and it is not the one about to be sent. -/
def Spent (sub : Submission) (s : ServiceState K) : Prop :=
  s.journal.contains (submissionKey K sub) = true ∧
    ∀ rpc sub', s.stage = .reserved rpc sub' → submissionKey K sub' ≠ submissionKey K sub

theorem countP_sends_of_quiet {out : List (ServiceEvent K)} {sub : Submission}
    (h : ∀ e ∈ out, e.ofSubmission = false) : out.countP (sends sub) = 0 := by
  rw [List.countP_eq_zero]
  intro e he
  have := h e he
  cases e <;> simp [ServiceEvent.ofSubmission, sends] at this ⊢

/-- A step sends the submission in hand or none. -/
theorem countP_sends {s s' : ServiceState K} {out : List (ServiceEvent K)} {sub : Submission}
    (h : JournalStep J s s' out) :
    out.countP (sends sub) ≤ 1 ∧
      (0 < out.countP (sends sub) → ∃ rpc, s.stage = .reserved rpc sub) := by
  cases h with
  | quiet _ _ hout => simp [countP_sends_of_quiet hout]
  | known _ _ _ _ _ _ _ hout => simp [hout, sends]
  | fresh _ _ _ _ _ hout => simp [hout]
  | finished _ _ _ _ _ _ _ hout => simp [hout, sends]
  | unfinished _ _ _ _ _ hout => simp [hout, sends]
  | sent rpc sub' reply hbefore _ _ hout =>
    by_cases hsub : sub' = sub
    · subst hsub
      simp [hout, sends, hbefore]
    · simp [hout, sends, hsub]
  | lost call rpc sub' hbefore _ _ hout =>
    by_cases hsub : sub' = sub
    · subst hsub
      simp [hout, sends, hbefore]
    · simp [hout, sends, hsub]

/-- A step keeps what is spent, and spends what it sends. -/
theorem Spent.step {s s' : ServiceState K} {out shown : List (ServiceEvent K)} {sub : Submission}
    (hj : Journalled J s shown) (h : JournalStep J s s' out)
    (hspent : 0 < out.countP (sends sub) ∨ Spent sub s) : Spent sub s' := by
  have hentry : s.journal.contains (submissionKey K sub) = true := by
    rcases hspent with hsent | hspent
    · obtain ⟨rpc, hstage⟩ := (countP_sends h).2 hsent
      exact hj.held rpc sub (Or.inl hstage)
    · exact hspent.1
  -- a step that keeps the journal and leaves no submission to be sent
  have hplain : s'.journal = s.journal → (∀ rpc sub', s'.stage ≠ .reserved rpc sub') →
      Spent sub s' := by
    intro hjournal hstage
    exact ⟨hjournal ▸ hentry, fun rpc sub' hs => absurd hs (hstage rpc sub')⟩
  cases h with
  | quiet hjournal hstage hout =>
    rcases hstage with hstage | hstage
    · rcases hspent with hsent | hspent
      · rw [countP_sends_of_quiet hout] at hsent
        cases hsent
      · exact ⟨hjournal ▸ hentry, hstage ▸ hspent.2⟩
    · exact hplain hjournal (by simp [hstage])
  | known _ _ _ _ hjournal hstage => exact hplain hjournal (by simp [hstage])
  | sent _ _ _ _ hjournal hstage => exact hplain hjournal (by simp [hstage])
  | lost _ _ _ _ hjournal hstage => exact hplain hjournal (by simp [hstage])
  | unfinished _ _ _ hjournal hstage => exact hplain hjournal (by simp [hstage])
  | fresh rpc sub' hnew hjournal hstage =>
    refine ⟨?_, ?_⟩
    · rw [hjournal, OrdMap.contains_insert_iff]
      exact Or.inr hentry
    · intro rpc' sub'' hs hkey
      rw [hstage] at hs
      cases hs
      rw [← hkey, OrdMap.contains, hnew] at hentry
      cases hentry
  | finished call rpc sub' reply hbefore hjournal hstage =>
    refine ⟨?_, by simp [hstage]⟩
    rw [hjournal, OrdMap.contains_insert_iff]
    exact Or.inr hentry

/-- **A submission is sent at most once**, whatever happens. -/
theorem countP_sent_le_one (ops : List ServiceOp) (sub : Submission) :
    (svc.events J ops).countP (sends sub) ≤ 1 := by
  refine Trace.countP_observed_le_one (M := Spent sub) ?_ ?_ ?_
  · exact fun σ _ => (countP_sends (journalStep _ σ.2)).1
  · intro σ _ hspent
    by_contra hne
    obtain ⟨rpc, hstage⟩ := (countP_sends (journalStep _ σ.2)).2 (Nat.pos_of_ne_zero hne)
    exact hspent.2 rpc sub hstage rfl
  · intro σ _ _ hspent
    exact Spent.step (journalled_after svc J σ.1) (journalStep _ σ.2) hspent

/-! ## Replied faithfully -/

/-- The reply is an error of the service's own: the upstream could not be asked, or what
became of the submission is not known. -/
def OwnError (id reply : Json) : Prop :=
  reply = rpcError id (-32000) "Upstream unavailable" ∨
    reply = rpcError id (-32098) "Submission outcome unknown"

/-- The submissions sent and replied to in the events have different digests. -/
def SubmissionsApart (shown : List (ServiceEvent K)) : Prop :=
  ∀ sub reply call sub' id reply', .sent sub reply ∈ shown → .replied call sub' id reply' ∈ shown →
    submissionKey K sub = submissionKey K sub' → sub = sub'

/-- `serde_json` reads back the replies of the upstream that it wrote. -/
def RepliesReread (J : JsonText) (shown : List (ServiceEvent K)) : Prop :=
  ∀ sub reply, .sent sub (some reply) ∈ shown → J.parse (J.write reply) = some reply

theorem callReply_unknown (id : Json) :
    callReply id (some unknownOutcome) = rpcError id (-32098) "Submission outcome unknown" := by
  simp [callReply, unknownOutcome, rpcError, Json.set, Json.setField]

/-- What a step replies to a submission is the upstream's answer to it or an own error. -/
theorem reply_of_step {s s' : ServiceState K} {out shown : List (ServiceEvent K)}
    (hj : Journalled J s shown) (h : JournalStep J s s' out)
    (happart : SubmissionsApart (shown ++ out)) (hreread : RepliesReread J shown)
    {call : Call} {sub : Submission} {id reply : Json} (he : .replied call sub id reply ∈ out) :
    OwnError id reply ∨ ∃ answer, .sent sub (some answer) ∈ shown ∧ reply = answer.set "id" id := by
  cases h with
  | quiet _ _ hout =>
    have := hout _ he
    cases this
  | known call' rpc sub' result _ _ hresult hout =>
    have happart := happart
    rw [hout] at he happart
    cases List.mem_singleton.mp he
    rcases hresult with ⟨text, hget, rfl⟩ | rfl | rfl
    · obtain ⟨sub', answer, hkey, hsent, rfl⟩ := hj.text _ text hget
      have hsame := happart sub' _ _ _ _ _ (List.mem_append_left _ hsent)
        (List.mem_append_right _ (List.mem_singleton.mpr rfl)) hkey
      subst hsame
      exact Or.inr ⟨answer, hsent, by rw [hreread _ answer hsent]; rfl⟩
    · exact Or.inl (Or.inr (callReply_unknown _))
    · exact Or.inl (Or.inl rfl)
  | fresh _ _ _ _ _ hout =>
    rw [hout] at he
    cases he
  | sent _ _ _ _ _ _ hout =>
    rw [hout] at he
    cases List.mem_singleton.mp he
  | lost call' rpc sub' _ _ _ hout =>
    rw [hout] at he
    simp only [List.mem_cons, reduceCtorEq, List.not_mem_nil, or_false, false_or] at he
    cases he
    exact Or.inl (Or.inr (callReply_unknown _))
  | finished call' rpc sub' answer hbefore _ _ hout =>
    rw [hout] at he
    cases List.mem_singleton.mp he
    exact Or.inr ⟨answer, hj.answered rpc sub answer hbefore, rfl⟩
  | unfinished call' rpc sub' _ _ hout =>
    rw [hout] at he
    cases List.mem_singleton.mp he
    exact Or.inl (Or.inr (callReply_unknown _))

/-- **Every reply to a submission is the answer to its one dispatch under the caller's id**,
or an error of the service's own. -/
theorem reply_of_sent {ops : List ServiceOp} (happart : SubmissionsApart (svc.events J ops))
    (hreread : RepliesReread J (svc.events J ops)) {call : Call} {sub : Submission}
    {id reply : Json} (he : .replied call sub id reply ∈ svc.events J ops) :
    OwnError id reply ∨
      ∃ answer, .sent sub (some answer) ∈ svc.events J ops ∧ reply = answer.set "id" id := by
  induction ops using List.reverseRecOn with
  | nil => simp [events] at he
  | append_singleton ops op ih =>
    rw [events_concat] at happart hreread he ⊢
    have happart' : SubmissionsApart (svc.events J ops) := fun sub r call sub' id r' hs hr =>
      happart sub r call sub' id r' (List.mem_append_left _ hs) (List.mem_append_left _ hr)
    have hreread' : RepliesReread J (svc.events J ops) := fun sub r hs =>
      hreread sub r (List.mem_append_left _ hs)
    rcases List.mem_append.mp he with he | he
    · refine (ih happart' hreread' he).imp_right ?_
      rintro ⟨answer, hsent, hreply⟩
      exact ⟨answer, List.mem_append_left _ hsent, hreply⟩
    · refine (reply_of_step (journalled_after svc J ops) (journalStep _ op) happart hreread'
        he).imp_right ?_
      rintro ⟨answer, hsent, hreply⟩
      exact ⟨answer, List.mem_append_left _ hsent, hreply⟩

end RpcService
end Anymone.Eth
