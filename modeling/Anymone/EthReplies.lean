import Anymone.EthOnce
import Anymone.EthEpochs

/-! # Which calls a reply answers

A payload is answered in three places: by the dispatch of its calls, by `limit_errors` when
what the dispatch made is too long, and by the broker's `unknown` when nothing came back.
Each keeps the order of the items and answers a call that has an id under that id.  They
differ on an item that is no call: the dispatch and the broker answer it under `null`,
`limit_errors` drops it (`replies_agree`).
-/

namespace Anymone.Eth

/-! ## What is to be answered -/

/-- The id an item is answered under: its own, `null` for what is no call, none for a
notification. -/
def answerId (item : Json) : Option Json :=
  match RpcCall.parse item with
  | some call => call.id
  | none => some .null

/-- The reply answers the items: each answered id once, in order, in an array exactly when the
request was one, and nothing when nothing is to be answered. -/
def Answers (batch : Bool) (items : List Json) (reply : Option Json) : Prop :=
  let ids := items.filterMap answerId
  if ids = [] then reply = none
  else if batch then ∃ replies, reply = some (.array replies) ∧
    replies.map (Json.get? "id") = ids.map some
  else ∃ r, reply = some r ∧ [r.get? "id"] = ids.map some

/-- What is made of a list of replies, one to each id. -/
def collect (batch : Bool) (replies : List Json) : Option Json :=
  if replies.isEmpty then none else if batch then some (.array replies) else replies.getLast?

theorem collect_eq_none {batch : Bool} {replies : List Json} :
    collect batch replies = none ↔ replies = [] := by
  cases replies with
  | nil => simp [collect]
  | cons r rest => cases batch <;> simp [collect]

theorem collect_batch {replies : List Json} (h : replies ≠ []) :
    collect true replies = some (.array replies) := by
  simp [collect, h]

theorem collect_single (r : Json) : collect false [r] = some r := rfl

theorem collect_filterMap_single (f : Json → Option Json) (v : Json) :
    collect false ([v].filterMap f) = f v := by
  cases h : f v <;> simp [collect, h]

/-- A list of replies answers the items exactly when it has their ids. -/
theorem answers_collect_iff {batch : Bool} {items replies : List Json}
    (hitems : batch = false → items.length ≤ 1) (hreplies : batch = false → replies.length ≤ 1) :
    Answers batch items (collect batch replies) ↔
      replies.map (Json.get? "id") = (items.filterMap answerId).map some := by
  unfold Answers
  dsimp only
  by_cases hids : items.filterMap answerId = []
  · rw [if_pos hids, hids, collect_eq_none, List.map_nil, List.map_eq_nil_iff]
  rw [if_neg hids]
  have hne : replies.map (Json.get? "id") = (items.filterMap answerId).map some → replies ≠ [] := by
    rintro h rfl
    exact hids (List.map_eq_nil_iff.mp h.symm)
  cases batch with
  | true =>
    rw [if_pos rfl]
    constructor
    · rintro ⟨replies', heq, h⟩
      have hsome : replies ≠ [] := fun hnil => by
        rw [collect_eq_none.mpr hnil] at heq
        cases heq
      rw [collect_batch hsome] at heq
      cases heq
      exact h
    · exact fun h => ⟨replies, collect_batch (hne h), h⟩
  | false =>
    rw [if_neg Bool.false_ne_true]
    cases replies with
    | nil =>
      rw [collect_eq_none.mpr rfl]
      exact ⟨fun ⟨r, heq, _⟩ => absurd heq (by simp), fun h => absurd rfl (hne h)⟩
    | cons r rest =>
      obtain rfl : rest = [] := List.length_eq_zero_iff.mp (by simpa using hreplies rfl)
      rw [collect_single]
      constructor
      · rintro ⟨r', heq, h⟩
        cases heq
        exact h
      · exact fun h => ⟨r, rfl, h⟩

/-- One value that is no batch is one item. -/
theorem length_of_parseRequest {J : JsonText} {bytes : Bytes} {maxBatch : Nat} {batch : Bool}
    {items : List Json} (h : parseRequest J bytes maxBatch = .ok (batch, items)) :
    batch = false → items.length ≤ 1 := by
  unfold parseRequest at h
  split_ifs at h
  split at h
  · cases h
  · split_ifs at h
    cases h
    intro hbatch
    cases hbatch
  · cases h
    exact fun _ => le_rfl

/-! ## The broker's reply -/

namespace Broker

/-- One hexadecimal digit. -/
def hexDigit (n : Nat) : Char := "0123456789abcdef".toList.getD n '0'

/-- `hex::encode`. -/
def hexEncode (bytes : Bytes) : String :=
  String.ofList (bytes.flatMap (fun b => [hexDigit (b.val / 16), hexDigit (b.val % 16)]))

/-- The error of `unknown`. -/
def outcomeUnknown (operation : ByteArr 32) (stage : String) (id : Json) : Json :=
  .object [("jsonrpc", .string "2.0"), ("id", id),
    ("error", .object [("code", .ofInt (-32098)), ("message", .string "Operation outcome unknown"),
      ("data", .object [("outcome", .string "Unknown"), ("operation", .string (hexEncode operation.1)),
        ("stage", .string stage)])])]

/-- The reply of `unknown` to one item. -/
def unknownItem (operation : ByteArr 32) (stage : String) (item : Json) : Option Json :=
  match RpcCall.parse item with
  | some call => call.id.map (outcomeUnknown operation stage)
  | none => some (outcomeUnknown operation stage .null)

/-- `unknown`. -/
def unknown (J : JsonText) (bytes : Bytes) (operation : ByteArr 32) (stage : String) : Option Json :=
  match J.parse bytes with
  | none => some (outcomeUnknown operation stage .null)
  | some (.array (item :: items)) =>
      let replies := (item :: items).filterMap (unknownItem operation stage)
      if replies.isEmpty then none else some (.array replies)
  | some item => unknownItem operation stage item

theorem unknownItem_eq (operation : ByteArr 32) (stage : String) (item : Json) :
    unknownItem operation stage item = (answerId item).map (outcomeUnknown operation stage) := by
  unfold unknownItem answerId
  split <;> rfl

theorem map_id_outcomeUnknown (operation : ByteArr 32) (stage : String) (items : List Json) :
    (items.filterMap (unknownItem operation stage)).map (Json.get? "id") =
      (items.filterMap answerId).map some := by
  rw [show unknownItem operation stage = fun item =>
    (answerId item).map (outcomeUnknown operation stage) from funext (unknownItem_eq operation stage),
    ← List.map_filterMap, List.map_map]
  rfl

/-- **The broker answers every item that is to be answered.** -/
theorem answers_unknown {J : JsonText} {bytes : Bytes} {maxBatch : Nat} {batch : Bool}
    {items : List Json} (h : parseRequest J bytes maxBatch = .ok (batch, items))
    (operation : ByteArr 32) (stage : String) :
    Answers batch items (unknown J bytes operation stage) := by
  have hsingle := length_of_parseRequest h
  have hanswers : Answers batch items
      (collect batch (items.filterMap (unknownItem operation stage))) := by
    refine (answers_collect_iff hsingle fun hb => ?_).mpr (map_id_outcomeUnknown operation stage items)
    exact (List.length_filterMap_le ..).trans (hsingle hb)
  unfold parseRequest at h
  split_ifs at h
  unfold unknown
  cases hparse : J.parse bytes with
  | none =>
    rw [hparse] at h
    cases h
  | some value =>
    rw [hparse] at h
    cases value with
    | array items' =>
      dsimp only at h
      split_ifs at h with hguard
      cases h
      cases items with
      | nil => simp at hguard
      | cons item rest => exact hanswers
    | _ =>
      cases h
      rwa [collect_filterMap_single] at hanswers

end Broker

/-! ## The reply to a long content -/

/-- The errors of `limit_errors`: one for each well-formed call with an id. -/
def limitIds (items : List Json) : List Json :=
  items.filterMap (fun item => (RpcCall.parse item).bind RpcCall.id)

/-- One id is missing for every malformed item. -/
theorem length_limitIds (items : List Json) : (limitIds items).length +
    items.countP (fun item => (RpcCall.parse item).isNone) = (items.filterMap answerId).length := by
  induction items with
  | nil => rfl
  | cons item items ih =>
    unfold limitIds at ih ⊢
    rw [List.filterMap_cons, List.filterMap_cons, List.countP_cons]
    cases hparse : RpcCall.parse item with
    | none =>
      have hid : answerId item = some .null := by
        unfold answerId
        rw [hparse]
      simp only [hid, Option.bind_none, Option.isNone_none, if_true, List.length_cons, ← ih]
      omega
    | some call =>
      have hid : answerId item = call.id := by
        unfold answerId
        rw [hparse]
      rw [hid]
      cases hcall : call.id <;> simp [hcall, ← ih]
      omega

/-- **`limit_errors` answers exactly the requests without malformed items.** -/
theorem answers_limitErrors_iff {J : JsonText} {bytes : Bytes} {maxBatch : Nat} {batch : Bool}
    {items : List Json} (h : parseRequest J bytes maxBatch = .ok (batch, items))
    (hmax : maxBatch ≤ 128) : Answers batch items (limitErrors J bytes) ↔
      ∀ item ∈ items, (RpcCall.parse item).isSome = true := by
  have hsingle := length_of_parseRequest h
  -- What the caller accepts under its own limit is accepted under the fixed one.
  have h128 : parseRequest J bytes 128 = .ok (batch, items) := by
    unfold parseRequest at h ⊢
    split_ifs at h ⊢
    split at h
    · cases h
    · split_ifs at h with hguard
      rw [if_neg]
      · exact h
      · simp only [Bool.or_eq_true, decide_eq_true_eq, not_or, not_lt] at hguard ⊢
        exact ⟨hguard.1, hguard.2.trans hmax⟩
    · exact h
  have heq : limitErrors J bytes = collect batch
      ((limitIds items).map (fun id => rpcError id (-32005) "Response exceeds service limit")) := by
    unfold limitErrors limitIds
    rw [h128, List.map_filterMap]
    rfl
  rw [heq, answers_collect_iff hsingle (fun hb => ?_), List.map_map]
  · rw [show (Json.get? "id" ∘ fun id => rpcError id (-32005) "Response exceeds service limit") = some
      from rfl, List.map_inj_right (fun _ _ => Option.some.inj)]
    unfold limitIds
    constructor
    -- as many identifiers as items, so no item was dropped
    · intro hids item hitem
      have hcount := length_limitIds items
      unfold limitIds at hcount
      rw [hids, Nat.add_eq_left, List.countP_eq_zero] at hcount
      exact Option.isSome_iff_ne_none.mpr (by simpa using hcount item hitem)
    · intro hall
      refine List.filterMap_congr (fun item hitem => ?_)
      obtain ⟨call, hcall⟩ := Option.isSome_iff_exists.mp (hall item hitem)
      unfold answerId
      rw [hcall]
      rfl
  · rw [List.length_map]
    exact (List.length_filterMap_le ..).trans (hsingle hb)

/-! ## The reply of the dispatch -/

/-- `serde_json` reads the text of an object as an object. -/
def ObjectText (J : JsonText) : Prop :=
  ∀ fields v, J.parse (J.write (.object fields)) = some v → ∃ fields', v = .object fields'

theorem find?_setField (key : String) (value : Json) (fields : List (String × Json)) :
    ((Json.setField key value fields).find? (fun f => f.1 == key)).map Prod.snd = some value := by
  induction fields with
  | nil => simp [Json.setField]
  | cons f fields ih =>
    obtain ⟨k, v⟩ := f
    unfold Json.setField
    by_cases hk : k = key
    · simp [hk]
    · rw [if_neg hk, List.find?_cons_of_neg (by simpa using hk)]
      exact ih

/-- A reply goes out under the caller's id. -/
theorem get?_callReply (id : Json) {result : Option Json}
    (h : ∀ r, result = some r → ∃ fields, r = .object fields) :
    (callReply id result).get? "id" = some id := by
  cases result with
  | none => rfl
  | some r =>
    obtain ⟨fields, rfl⟩ := h r rfl
    exact find?_setField "id" id fields

/-- The call in hand. -/
def Stage.call? : Stage → Option RpcCall
  | .ready => none
  | .reserved call _ | .answered call _ _ => some call

namespace RpcService
variable {K : EthCrypto} {svc : RpcService K} {J : JsonText}

/-- The replies so far answer the items so far. -/
structure Dispatching (svc : RpcService K) (J : JsonText) (a : Active) : Prop where
  held : ∀ call, a.stage.call? = some call →
    ∃ item rest, a.items = item :: rest ∧ RpcCall.parse item = some call
  object : ∀ call sub r, a.stage = .answered call sub r → ∃ fields, r = .object fields
  handled : ∀ batch items,
    parseRequest J a.call.request.payload svc.descriptor.limits.maxBatch.val = .ok (batch, items) →
      a.batch = batch ∧ ∃ done, items = done ++ a.items ∧
        a.replies.map (Json.get? "id") = (done.filterMap answerId).map some

theorem dispatching_start (call : Call) :
    Dispatching svc J (startDispatch J svc.descriptor.limits.maxBatch.val call) := by
  have hready := stage_startDispatch (J := J) svc.descriptor.limits.maxBatch.val call
  refine ⟨by simp [hready, Stage.call?], by simp [hready], fun batch items hparse => ?_⟩
  unfold startDispatch at hparse ⊢
  split at hparse <;> rename_i heq
  · dsimp only at hparse ⊢
    rw [heq] at hparse
    cases hparse
    exact ⟨rfl, [], rfl, rfl⟩
  · rw [heq] at hparse
    cases hparse
  · rw [heq] at hparse
    cases hparse

/-- One item more, and a reply under the id it is answered under. -/
theorem Dispatching.next {a a' : Active} {item : Json} {rest : List Json} (h : Dispatching svc J a)
    (hitems : a.items = item :: rest) (hcall : a'.call = a.call) (hbatch : a'.batch = a.batch)
    (hrest : a'.items = rest) (hstage : a'.stage = .ready)
    (hreplies : a'.replies.map (Json.get? "id") =
      a.replies.map (Json.get? "id") ++ ((answerId item).toList).map some) : Dispatching svc J a' := by
  refine ⟨by simp [hstage, Stage.call?], by simp [hstage], fun batch items hparse => ?_⟩
  rw [hcall] at hparse
  obtain ⟨hb, done, hdone, hids⟩ := h.handled batch items hparse
  refine ⟨hbatch.trans hb, done ++ [item], by rw [hdone, hitems, hrest]; simp, ?_⟩
  rw [hreplies, hids, List.filterMap_append, List.map_append]
  cases hid : answerId item <;> simp [hid]

/-- **A call is answered under its id.** -/
theorem Dispatching.push {a : Active} {item : Json} {rest : List Json} {call : RpcCall}
    {result : Option Json} (h : Dispatching svc J a) (hitems : a.items = item :: rest)
    (hparse : RpcCall.parse item = some call)
    (hresult : ∀ r, result = some r → ∃ fields, r = .object fields) :
    Dispatching svc J (a.push call (callReply call.replyId result)) := by
  refine h.next hitems rfl rfl (by simp [Active.push, Active.done, hitems]) rfl ?_
  have hid : answerId item = call.id := by
    unfold answerId
    rw [hparse]
  unfold Active.push
  dsimp only
  rw [hid]
  cases hcall : call.id with
  | none => simp
  | some id =>
    rw [if_pos Option.isSome_some, List.map_append, List.map_singleton, get?_callReply _ hresult]
    unfold RpcCall.replyId
    rw [hcall]
    rfl

/-- What is no call is answered under `null`. -/
theorem Dispatching.malformed {a : Active} {item : Json} {rest : List Json}
    (h : Dispatching svc J a) (hitems : a.items = item :: rest) (hparse : RpcCall.parse item = none) :
    Dispatching svc J
      { a.done with replies := a.replies ++ [rpcError .null (-32600) "Invalid Request"] } := by
  refine h.next hitems rfl rfl (by simp [Active.done, hitems]) rfl ?_
  have hid : answerId item = some .null := by
    unfold answerId
    rw [hparse]
  rw [hid, List.map_append]
  rfl

/-- A submission moves on. -/
theorem Dispatching.move {a : Active} {call : RpcCall} (h : Dispatching svc J a) (stage : Stage)
    (hstage : stage.call? = some call)
    (hitem : ∃ item rest, a.items = item :: rest ∧ RpcCall.parse item = some call)
    (hobject : ∀ call sub r, stage = .answered call sub r → ∃ fields, r = .object fields) :
    Dispatching svc J { a with stage := stage } := by
  refine ⟨fun call' hcall' => ?_, hobject, h.handled⟩
  cases hstage.symm.trans hcall'
  exact hitem

/-- The call in hand is answered. -/
theorem Dispatching.answer {a : Active} {call : RpcCall} {result : Option Json}
    (h : Dispatching svc J a) (hcall : a.stage.call? = some call)
    (hresult : ∀ r, result = some r → ∃ fields, r = .object fields) :
    Dispatching svc J (a.push call (callReply call.replyId result)) := by
  obtain ⟨item, rest, hitems, hparse⟩ := h.held call hcall
  exact h.push hitems hparse hresult

/-- What the machine keeps: the call that holds the lock is answered so far, and what is
journalled is the text of an object. -/
structure Sane (svc : RpcService K) (J : JsonText) (s : ServiceState K) : Prop where
  active : ∀ a, s.active = some a → Dispatching svc J a
  journal : ∀ key text, s.journal.get? key = some (some text) →
    ∃ fields, text = J.write (.object fields)

theorem object_unknownOutcome : ∀ r, some unknownOutcome = some r → ∃ fields, r = .object fields := by
  rintro r ⟨⟩
  exact ⟨_, rfl⟩

theorem object_upstreamCall {body : Option Bytes} :
    ∀ r, upstreamCall J body = some r → ∃ fields, r = .object fields := by
  intro r h
  unfold upstreamCall at h
  exact object_of_validateResponse (Option.filter_eq_some_iff.mp h).2

theorem dispatching_answerItem {a a' : Active} {body : Option Bytes} (h : Dispatching svc J a)
    (ha : svc.answerItem J a body = some a') : Dispatching svc J a' := by
  unfold answerItem at ha
  split at ha
  · cases ha
  · rename_i item rest hitems
    split at ha
    · rename_i hparse
      cases ha
      exact h.malformed hitems hparse
    · rename_i call hparse
      split at ha
      · cases ha
        exact h.push hitems hparse (by simp)
      · rename_i reply hforward
        cases ha
        refine h.push hitems hparse ?_
        rintro r ⟨⟩
        unfold RpcForwarder.forward at hforward
        repeat' split at hforward
        all_goals cases hforward
        all_goals exact ⟨_, rfl⟩
      · cases ha
        exact h.push hitems hparse object_upstreamCall
      · cases ha

/-- What a step makes of the journal is again the text of objects. -/
theorem Sane.journal_step {s s' : ServiceState K} {out : List (ServiceEvent K)}
    (h : Sane svc J s) (hstep : JournalStep J s s' out) (key : ByteArr 32) (text : Bytes)
    (hget : s'.journal.get? key = some (some text)) : ∃ fields, text = J.write (.object fields) := by
  cases hstep with
  | quiet hjournal => exact h.journal key text (hjournal ▸ hget)
  | known _ _ _ _ hjournal => exact h.journal key text (hjournal ▸ hget)
  | sent _ _ _ _ hjournal => exact h.journal key text (hjournal ▸ hget)
  | lost _ _ _ _ hjournal => exact h.journal key text (hjournal ▸ hget)
  | unfinished _ _ _ hjournal => exact h.journal key text (hjournal ▸ hget)
  | fresh rpc sub hnew hjournal =>
    rw [hjournal, OrdMap.get?_insert] at hget
    split_ifs at hget
    · cases hget
    · exact h.journal key text hget
  | finished call rpc sub reply hbefore hjournal =>
    rw [hjournal, OrdMap.get?_insert] at hget
    split_ifs at hget
    · cases hget
      cases hactive : s.active with
      | none =>
        unfold ServiceState.stage at hbefore
        rw [hactive] at hbefore
        cases hbefore
      | some a =>
        unfold ServiceState.stage at hbefore
        rw [hactive] at hbefore
        obtain ⟨fields, rfl⟩ := (h.active a hactive).object rpc sub reply hbefore
        exact ⟨fields, rfl⟩
    · exact h.journal key text hget

theorem dispatching_reserveItem (hobject : ObjectText J) {s : ServiceState K} (h : Sane svc J s)
    {a : Active} (ha : Dispatching svc J a) {call : RpcCall} {sub : Submission}
    (hsub : svc.submissionOf a = some (call, sub)) :
    ∀ a', (reserveItem J s a call sub).1.active = some a' → Dispatching svc J a' := by
  obtain ⟨item, rest, hitems, hparse, -⟩ := submissionOf_eq_some hsub
  intro a' ha'
  unfold reserveItem ServiceStore.reserve at ha'
  cases hget : s.store.rpcDispatches.get? (submissionKey K sub) with
  | some row =>
    simp only [hget] at ha'
    cases row with
    | some text =>
      cases hread : J.parse text with
      | some reply =>
        simp only [hread] at ha'
        cases ha'
        refine ha.push hitems hparse ?_
        rintro r ⟨⟩
        obtain ⟨fields, rfl⟩ := h.journal _ text hget
        exact hobject fields _ hread
      | none =>
        simp only [hread] at ha'
        cases ha'
        exact ha.push hitems hparse (by simp)
    | none =>
      cases ha'
      exact ha.push hitems hparse object_unknownOutcome
  | none =>
    simp only [hget] at ha'
    by_cases hfull : 100000 ≤ s.store.rpcDispatches.size
    · rw [if_pos hfull] at ha'
      cases ha'
      exact ha.push hitems hparse (by simp)
    · rw [if_neg hfull] at ha'
      cases ha'
      exact ha.move (.reserved call sub) rfl ⟨item, rest, hitems, hparse⟩ (by simp)

/-- The call in hand is again one that dispatches its items. -/
theorem dispatching_step (hobject : ObjectText J) {s s' : ServiceState K} {op : ServiceOp}
    {out : List (ServiceEvent K)} (h : Sane svc J s) (hstep : ServiceStep svc J s op s' out) :
    ∀ a, s'.active = some a → Dispatching svc J a := by
  cases hstep with
  | idle | refused | queued | listed => exact h.active
  | crashed => rintro a ⟨⟩
  | acquired i elapsed =>
    unfold begin
    split
    · exact h.active
    split
    · exact h.active
    split
    · exact h.active
    · exact h.active
    · rintro a ⟨⟩
      exact dispatching_start _
  | answered body hactive hitem =>
    rintro a' ⟨⟩
    exact dispatching_answerItem (h.active _ hactive) hitem
  | reserving hactive hsub => exact dispatching_reserveItem hobject h (h.active _ hactive) hsub
  | @sending a call sub body hactive hstage =>
    have ha := h.active a hactive
    have hcall : a.stage.call? = some call := by rw [hstage]; rfl
    unfold sendItem
    split
    · rename_i reply hreply
      rintro a' ⟨⟩
      -- a reply is kept only if it is an object, else the outcome is unknown
      refine ha.move (.answered call sub reply) rfl (ha.held call hcall) ?_
      rintro call' sub' r ⟨⟩
      exact object_upstreamCall reply hreply
    · rintro a' ⟨⟩
      exact ha.answer hcall object_unknownOutcome
  | @finishing a call sub reply hactive hstage =>
    have ha := h.active a hactive
    have hcall : a.stage.call? = some call := by rw [hstage]; rfl
    unfold finishItem
    split
    · rintro a' ⟨⟩
      refine ha.answer hcall ?_
      rintro r ⟨⟩
      exact ha.object call sub reply hstage
    · rintro a' ⟨⟩
      exact ha.answer hcall object_unknownOutcome
  | filing elapsed nonce =>
    unfold finishCall
    split
    · rintro a' ⟨⟩
    · split <;> rintro a' ⟨⟩

/-- **A step keeps the machine sane.** -/
theorem Sane.step (hobject : ObjectText J) {s : ServiceState K} (h : Sane svc J s)
    (op : ServiceOp) : Sane svc J (svc.step J s op).1 :=
  ⟨dispatching_step hobject h (serviceStep svc J s op), h.journal_step (journalStep s op)⟩

theorem sane_after (hobject : ObjectText J) (ops : List ServiceOp) :
    Sane svc J (svc.after J ops) := by
  induction ops using List.reverseRecOn with
  | nil =>
    refine ⟨?_, ?_⟩ <;>
      simp [after, Trace.run, ServiceState.new, ServiceStore.new, ServiceState.journal]
  | append_singleton ops op ih =>
    rw [after_concat]
    exact ih.step hobject op

/-- **Which calls are answered.**  For a request of items: whatever the upstreams answer and
whatever else the service does, the dispatch answers all of them, and so does the broker that
gives up; the errors for a content that is too long do exactly when no item is malformed. -/
theorem replies_agree (hobject : ObjectText J) {bytes : Bytes} {batch : Bool} {items : List Json}
    (hmax : svc.descriptor.limits.maxBatch.val ≤ 128)
    (hparse : parseRequest J bytes svc.descriptor.limits.maxBatch.val = .ok (batch, items)) :
    (∀ ops a, (svc.after J ops).active = some a → a.call.request.payload = bytes → a.items = [] →
      Answers batch items a.reply) ∧
    (∀ operation stage, Answers batch items (Broker.unknown J bytes operation stage)) ∧
    (Answers batch items (limitErrors J bytes) ↔
      ∀ item ∈ items, (RpcCall.parse item).isSome = true) := by
  refine ⟨fun ops a hactive hbytes hdone => ?_, fun operation stage =>
    Broker.answers_unknown hparse operation stage, answers_limitErrors_iff hparse hmax⟩
  have hsingle := length_of_parseRequest hparse
  obtain ⟨hbatch, done, hitems, hids⟩ :=
    ((sane_after hobject ops).active a hactive).handled batch items (hbytes ▸ hparse)
  rw [hdone, List.append_nil] at hitems
  subst hitems
  have hlen : a.replies.length ≤ items.length := by
    have := congrArg List.length hids
    rw [List.length_map, List.length_map] at this
    exact this.trans_le (List.length_filterMap_le ..)
  show Answers batch items (if a.replies.isEmpty then none else if a.batch then _ else _)
  rw [hbatch]
  exact (answers_collect_iff hsingle (fun hb => hlen.trans (hsingle hb))).mpr hids

end RpcService
/-! ## Two requests -/

namespace RepliesToy
open RpcService

/-- A call with id 1. -/
def call : Json := .object [("id", .ofInt 1), ("jsonrpc", .string "2.0"), ("method", .string "eth_chainId")]

/-- A call without an id, and one of a method that no route has. -/
def notice : Json := .object [("jsonrpc", .string "2.0"), ("method", .string "eth_chainId")]

def unrouted : Json := .object [("id", .ofInt 2), ("jsonrpc", .string "2.0"), ("method", .string "eth_syncing")]

/-- A batch of three calls, and a batch of a call and a number. -/
def texts : List (Bytes × Json) :=
  [(ascii "[\x7b\"id\":1,\"jsonrpc\":\"2.0\",\"method\":\"eth_chainId\"\x7d,\x7b\"jsonrpc\":\"2.0\",\"method\":\"eth_chainId\"\x7d,\x7b\"id\":2,\"jsonrpc\":\"2.0\",\"method\":\"eth_syncing\"\x7d]",
      .array [call, notice, unrouted]),
    (ascii "[\x7b\"id\":1,\"jsonrpc\":\"2.0\",\"method\":\"eth_chainId\"\x7d,7]",
      .array [call, .ofInt 7])]

/-- The text of these values. -/
def text : JsonText where
  write := fun v => ((texts.find? (fun e => e.2 = v)).map Prod.fst).getD []
  parse := fun bytes => (texts.find? (fun e => e.1 = bytes)).map Prod.snd
  parse_depth := by
    intro bytes v h
    obtain ⟨e, he, rfl⟩ := Option.map_eq_some_iff.mp h
    have hall : ∀ e ∈ texts, e.2.depth ≤ recursionLimit := by decide +kernel
    exact hall e (List.mem_of_find?_eq_some he)

theorem objectText_text : ObjectText text := by
  intro fields v h
  have hwrite : text.write (.object fields) = [] := by simp [text, texts]
  have hempty : text.parse [] = none := by decide +kernel
  rw [hwrite, hempty] at h
  cases h

/-- A service whose batches hold eight calls. -/
def service : RpcService EpochsToy.crypto where
  descriptor :=
    { version := 0, network := .filled 32 1, chain := 1, serviceIdentity := .filled 32 2
      signingKey := .filled 32 7, requestKey := .filled 32 8, tag := "provider"
      backendRoutes := ["execution"], limits := ⟨4096, 256, 8, 100, 1000⟩
      feed := EpochsToy.descriptor, feedMirrors := [], expiresAt := 2000 }
  forwarder := ⟨1, [("execution", ⟨["eth_chainId"]⟩)], 100⟩
  signingKey := ()

/-- A request to answer the three calls. -/
def request : RequestEnvelope where
  capability :=
    { secret := .filled 32 10
      context := ⟨0, .filled 32 1, .filled 32 7, 1, .filled 32 4, .filled 32 0, 100⟩
      delivery := ⟨.filled 32 1, 1, 3⟩ }
  backendRoute := "execution"
  payload := (texts.map Prod.fst).headD []

/-- The request is dispatched; the upstream does not answer. -/
def run : List ServiceOp :=
  [.execute ⟨request, .filled 32 4, 1⟩, .acquire 0 0, .item none, .item none, .item none]

/-- The dispatch of the batch ends, and it, the broker and `limit_errors` answer the calls 1
and 2 and no others. -/
theorem replies_agree_one :
    [call, notice, unrouted].filterMap answerId = [.ofInt 1, .ofInt 2] ∧
      (∃ a, (service.after text run).active = some a ∧ a.items = [] ∧
        Answers true [call, notice, unrouted] a.reply) ∧
      Answers true [call, notice, unrouted]
        (Broker.unknown text request.payload (.filled 32 0) "upload_failed") ∧
      Answers true [call, notice, unrouted] (limitErrors text request.payload) := by
  have hmax : service.descriptor.limits.maxBatch.val ≤ 128 := by decide
  have hparse : parseRequest text request.payload service.descriptor.limits.maxBatch.val =
      .ok (true, [call, notice, unrouted]) := by
    decide +kernel
  obtain ⟨hdispatch, hbroker, hlimit⟩ := replies_agree objectText_text hmax hparse
  have hactive : ((service.after text run).active.any (fun a =>
      decide (a.call.request.payload = request.payload ∧ a.items = []))) = true := by
    decide +kernel
  obtain ⟨a, ha, hdone⟩ := (Option.any_eq_true _ _).mp hactive
  obtain ⟨hpayload, hitems⟩ := of_decide_eq_true hdone
  exact ⟨by decide +kernel, ⟨a, ha, hitems, hdispatch run a ha hpayload hitems⟩, hbroker _ _,
    hlimit.mpr (by decide +kernel)⟩

/-- Of the batch with a number, the broker answers both items and `limit_errors` one. -/
theorem limitErrors_drops_malformed :
    parseRequest text texts[1].1 128 = .ok (true, [call, .ofInt 7]) ∧
      [call, .ofInt 7].filterMap answerId = [.ofInt 1, .null] ∧
      Answers true [call, .ofInt 7]
        (Broker.unknown text texts[1].1 (.filled 32 0) "upload_failed") ∧
      limitErrors text texts[1].1 =
        some (.array [rpcError (.ofInt 1) (-32005) "Response exceeds service limit"]) ∧
      ¬ Answers true [call, .ofInt 7] (limitErrors text texts[1].1) := by
  have hparse : parseRequest text texts[1].1 128 = .ok (true, [call, .ofInt 7]) := by
    decide +kernel
  refine ⟨hparse, by decide +kernel, Broker.answers_unknown hparse _ _, by decide +kernel, ?_⟩
  rw [answers_limitErrors_iff hparse le_rfl]
  decide +kernel

end RepliesToy
end Anymone.Eth
