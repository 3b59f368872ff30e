import Anymone.EthOnce

/-! # What a packet carries and where it is filed

A call of `execute` goes through the items of its payload one by one (`RepliesOf`), and its packet
is sealed over the replies once no item is left.  The packet is filed in `publications` in the step
that publishes it, and a row leaves the table only once it has expired (`PublicationStep`).

A submission reaches the upstream through the journal alone: what is read from it is no submission
(`count_asked`).
-/

namespace Anymone.Eth
variable {K : EthCrypto} {svc : RpcService K} {J : JsonText}

/-- When the request of a call expires. -/
def Call.expiresAt (call : Call) : U64 := call.request.capability.context.expiresAt

namespace RpcService

/-! ## What the upstream is asked -/

theorem forward_read {f : RpcForwarder} {route : String} {call : RpcCall}
    (h : f.forward route call = .read) : isSubmission call.method = false := by
  unfold RpcForwarder.forward at h
  split at h
  · cases h
  · split_ifs at h with hroute hlogs hread
    simpa using hread

section Asked
variable (svc J)

/-- The first item of the call, when the upstream is only read. -/
def readOf (a : Active) : Option Submission :=
  match a.items with
  | [] => none
  | item :: _ =>
      match RpcCall.parse item with
      | none => none
      | some call =>
          match svc.forwarder.forward a.call.request.backendRoute call with
          | .read => some ⟨svc.forwarder.chain, a.call.request.backendRoute, call.method, call.params⟩
          | .unknownRoute | .answer _ | .submit _ => none

/-- What a step asks an upstream. -/
def askedBy (s : ServiceState K) : ServiceOp → List Submission
  | .item _ => ((s.active.filter (fun a => decide (a.stage = .ready))).bind svc.readOf).toList
  | .send _ =>
      match s.stage with
      | .reserved _ sub => [sub]
      | .ready | .answered .. => []
  | .execute _ | .acquire .. | .reserve | .finish | .file .. | .pending .. | .crash => []

/-- Everything the upstreams are asked in a run. -/
def asked (ops : List ServiceOp) : List Submission :=
  Trace.observed .new (fun s op => (svc.step J s op).1) svc.askedBy ops

end Asked

theorem isSubmission_readOf {a : Active} {read : Submission} (h : svc.readOf a = some read) :
    isSubmission read.method = false := by
  unfold readOf at h
  split at h
  · cases h
  · split at h
    · cases h
    · split at h
      · rename_i hforward
        cases h
        exact forward_read hforward
      all_goals cases h

variable (svc J) in
theorem count_askedBy_send {s : ServiceState K} {a : Active} {rpc : RpcCall} {sub' : Submission}
    (body : Option Bytes) (hactive : s.active = some a) (hstage : a.stage = .reserved rpc sub')
    (sub : Submission) :
    (svc.askedBy s (.send body)).count sub = (sendItem J s a rpc sub' body).2.countP (sends sub) := by
  have hone : svc.askedBy s (.send body) = [sub'] := by
    unfold askedBy
    dsimp only
    rw [stage_of_active hactive hstage]
  rw [hone, List.count_singleton]
  unfold sendItem
  cases upstreamCall J body <;> simp [sends, replied, List.countP_cons]

/-- A step asks for a submission when it shows that it sends it. -/
theorem count_askedBy {s s' : ServiceState K} {op : ServiceOp} {out : List (ServiceEvent K)}
    (h : ServiceStep svc J s op s' out) {sub : Submission}
    (hsub : isSubmission sub.method = true) :
    (svc.askedBy s op).count sub = out.countP (sends sub) := by
  -- What an item reads is no submission, whether the step is possible or not.
  have hread : ∀ body, (svc.askedBy s (.item body)).count sub = 0 := by
    intro body
    refine List.count_eq_zero.mpr fun hmem => ?_
    obtain ⟨a, -, hread⟩ := Option.bind_eq_some_iff.mp (Option.mem_toList.mp hmem)
    rw [isSubmission_readOf hread] at hsub
    cases hsub
  cases h with
  | idle op hunsent =>
    cases op with
    | item body => exact hread body
    | send body =>
      have hnone : svc.askedBy s (.send body) = [] := by
        unfold askedBy ServiceState.stage
        cases hactive : s.active with
        | none => rfl
        | some a =>
          cases hstage : a.stage with
          | reserved call sub' => exact absurd hstage (hunsent body rfl a hactive call sub')
          | ready | answered => simp [hstage]
      rw [hnone]
      rfl
    | _ => rfl
  | answered body => exact hread body
  | sending body hactive hstage => exact count_askedBy_send svc J body hactive hstage sub
  | acquired i elapsed =>
    unfold begin
    repeat' split
    all_goals rfl
  | reserving =>
    unfold reserveItem
    split <;> rfl
  | finishing =>
    unfold finishItem
    split <;> rfl
  | filing elapsed nonce =>
    unfold finishCall
    repeat' split
    all_goals rfl
  | refused | queued | listed | crashed => rfl

variable (svc J) in
/-- **A submission reaches the upstream only where it is sent.** -/
theorem count_asked (ops : List ServiceOp) {sub : Submission} (hsub : isSubmission sub.method = true) :
    (svc.asked J ops).count sub = (svc.events J ops).countP (sends sub) := by
  induction ops using List.reverseRecOn with
  | nil => rfl
  | append_singleton ops op ih =>
    have hasked : svc.asked J (ops ++ [op]) = svc.asked J ops ++ svc.askedBy (svc.after J ops) op :=
      Trace.observed_concat ..
    rw [hasked, events_concat, List.count_append, List.countP_append, ih, 
      count_askedBy (serviceStep svc J _ op) hsub]

/-! ## The table of publications -/

/-- The row of a locator in an epoch. -/
def rowAt (s : ServiceState K) (epoch : U64) (locator : K.Locator) : Option (Publication K) :=
  (s.store.publications.get? epoch).bind (fun rows => rows.get? locator)

/-- What a step does with one row: it is the one of a packet published in the step, and there was
none; or it stays as it is, or it has expired and goes. -/
inductive PublicationStep (s s' : ServiceState K) (op : ServiceOp) (out : List (ServiceEvent K))
    (epoch : U64) (locator : K.Locator) : Prop
  | inserted (call : Call) (packet : ReplyPacket K) (hout : .published call packet ∈ out)
      (hepoch : packet.binding.epoch = epoch) (hlocator : packet.binding.locator = locator)
      (hbefore : rowAt s epoch locator = none)
      (hafter : rowAt s' epoch locator = some ⟨packet, call.expiresAt⟩)
  | same (hout : ∀ call packet, .published call packet ∈ out →
        ¬ (packet.binding.epoch = epoch ∧ packet.binding.locator = locator))
      (hrow : rowAt s' epoch locator = rowAt s epoch locator)
  | expired (epoch' now : U64) (hop : op = .pending epoch' now) (hout : out = [])
      (hold : ∀ row, rowAt s epoch locator = some row → row.expires ≤ now)
      (hafter : rowAt s' epoch locator = none)

/-- A packet is filed under its epoch and locator, where nothing was. -/
theorem publicationStep_fileReply {s s' : ServiceState K} {op : ServiceOp} {call : Call}
    {packet : ReplyPacket K} {store : ServiceStore K}
    (h : s.store.fileReply call.operation packet call.expiresAt = .ok store)
    (hs' : s'.store = store) (epoch : U64) (locator : K.Locator) :
    PublicationStep s s' op [.published call packet, .returned call packet] epoch locator := by
  unfold ServiceStore.fileReply at h
  dsimp only at h
  split_ifs at h with hfree
  cases h
  have hfree : ((s.store.publications.get? packet.binding.epoch).getD .empty).get?
      packet.binding.locator = none := by
    simpa [OrdMap.contains] using hfree
  have hafter : ∀ epoch locator, rowAt s' epoch locator =
      if packet.binding.epoch = epoch ∧ packet.binding.locator = locator then
        some ⟨packet, call.expiresAt⟩ else rowAt s epoch locator := by
    intro epoch locator
    unfold rowAt
    rw [hs', OrdMap.get?_insert]
    by_cases hepoch : epoch = packet.binding.epoch
    · subst hepoch
      rw [if_pos rfl, Option.bind_some, OrdMap.get?_insert]
      by_cases hlocator : locator = packet.binding.locator
      · subst hlocator
        rw [if_pos rfl, if_pos ⟨rfl, rfl⟩]
      · rw [if_neg hlocator, if_neg (fun hc => hlocator hc.2.symm)]
        cases s.store.publications.get? packet.binding.epoch <;> rfl
    · rw [if_neg hepoch, if_neg (fun hc => hepoch hc.1.symm)]
  by_cases hthis : packet.binding.epoch = epoch ∧ packet.binding.locator = locator
  · obtain ⟨rfl, rfl⟩ := hthis
    refine .inserted call packet (by simp) rfl rfl ?_ ((hafter _ _).trans (if_pos ⟨rfl, rfl⟩))
    unfold rowAt
    cases hrows : s.store.publications.get? packet.binding.epoch with
    | none => rfl
    | some rows =>
      rw [hrows] at hfree
      exact hfree
  · refine .same ?_ ((hafter epoch locator).trans (if_neg hthis))
    intro call' packet' hout
    simp only [List.mem_cons, ServiceEvent.published.injEq, reduceCtorEq, List.not_mem_nil,
      or_false] at hout
    rw [hout.2]
    exact hthis

/-- What a step has to do with the table of publications: nothing, or it ends a call and files its
packet, or it asks for the pending ones. -/
theorem publishing_cases {s s' : ServiceState K} {op : ServiceOp} {out : List (ServiceEvent K)}
    (h : ServiceStep svc J s op s' out) :
    (s'.store.publications = s.store.publications ∧ ∀ call packet, .published call packet ∉ out) ∨
    (∃ a ∈ s.active, a.items = [] ∧ ∃ packet nonce now,
      svc.sealPacket a.call.request (svc.content J a) nonce now = .ok packet ∧
      s.store.fileReply a.call.operation packet a.call.expiresAt = .ok s'.store ∧
      out = [.published a.call packet, .returned a.call packet]) ∨
    ∃ epoch now, op = .pending epoch now := by
  -- Only `filing` touches the publications, and `pending`, which removes the expired.
  cases h with
  | acquired i elapsed =>
    refine Or.inl ?_
    unfold begin
    split
    · exact ⟨rfl, by simp⟩
    · split
      · exact ⟨rfl, by simp⟩
      · split
        · exact ⟨rfl, by simp⟩
        · exact ⟨rfl, by simp⟩
        · rename_i hfile
          exact ⟨(ServiceStore.fileOperation_frame hfile).2, by simp⟩
  | reserving =>
    refine Or.inl ?_
    unfold reserveItem
    split
    · exact ⟨rfl, by simp [replied]⟩
    · exact ⟨rfl, by simp [replied]⟩
    · exact ⟨rfl, by simp [replied]⟩
    · rename_i hreserve
      exact ⟨(ServiceStore.reserve_frame hreserve).2, by simp⟩
  | sending body =>
    refine Or.inl ?_
    unfold sendItem
    split <;> exact ⟨rfl, by simp [replied]⟩
  | finishing =>
    refine Or.inl ?_
    unfold finishItem
    split
    · rename_i hfinish
      exact ⟨(ServiceStore.finish_frame hfinish).2, by simp [replied]⟩
    · exact ⟨rfl, by simp [replied]⟩
  | @filing a elapsed nonce hactive hitems =>
    unfold finishCall
    split
    · exact Or.inl ⟨rfl, by simp⟩
    · rename_i packet hsealed
      split
      · exact Or.inl ⟨rfl, by simp⟩
      · rename_i hfile
        exact Or.inr (Or.inl ⟨a, hactive, hitems, packet, nonce, _, hsealed, hfile, rfl⟩)
  | listed epoch now => exact Or.inr (Or.inr ⟨epoch, now, rfl⟩)
  | idle | refused | queued | answered | crashed => exact Or.inl ⟨rfl, by simp⟩

variable (svc J) in
/-- A row leaves the table once it has expired. -/
theorem rowAt_pending (s : ServiceState K) (epoch' now epoch : U64) (locator : K.Locator) :
    rowAt (svc.step J s (.pending epoch' now)).1 epoch locator =
      (rowAt s epoch locator).filter (fun row => decide (now < row.expires)) := by
  unfold step rowAt ServiceStore.pendingPublications
  dsimp only
  rw [OrdMap.get?_mapVals]
  cases s.store.publications.get? epoch with
  | none => rfl
  | some rows => exact OrdMap.get?_retain ..

variable (svc J) in
/-- **What a step does with the table of publications.** -/
theorem publicationStep (s : ServiceState K) (op : ServiceOp) (epoch : U64) (locator : K.Locator) :
    PublicationStep s (svc.step J s op).1 op (svc.step J s op).2 epoch locator := by
  rcases publishing_cases (serviceStep svc J s op) with
    ⟨hstore, hout⟩ | ⟨a, -, -, packet, nonce, now, -, hfile, hout⟩ | ⟨epoch', now, rfl⟩
  · refine .same (fun call packet hmem => absurd hmem (hout call packet)) ?_
    unfold rowAt
    rw [hstore]
  · rw [hout]
    exact publicationStep_fileReply hfile rfl epoch locator
  · have hafter := rowAt_pending svc J s epoch' now epoch locator
    cases hrow : rowAt s epoch locator with
    | none =>
      refine .same (fun _ _ hmem => by cases hmem) ?_
      rw [hafter, hrow]
      rfl
    | some row =>
      rw [hrow, Option.filter_some] at hafter
      split_ifs at hafter with hlive
      · exact .same (fun _ _ hmem => by cases hmem) (hafter.trans hrow.symm)
      · refine .expired epoch' now rfl rfl ?_ hafter
        intro row' hrow'
        rw [hrow] at hrow'
        cases hrow'
        exact not_lt.mp (by simpa using hlive)

/-! ## What a packet carries -/

section Replies
variable (svc J)

/-- The reply to one item of a call: a submission is replied to as shown, and a notification is not
replied to. -/
def ItemReply (shown : List (ServiceEvent K)) (call : Call) (item : Json) (reply : Option Json) :
    Prop :=
  match RpcCall.parse item with
  | none => reply = some (rpcError .null (-32600) "Invalid Request")
  | some rpc =>
      ∃ result, reply = (if rpc.id.isSome then some result else none) ∧
        match svc.forwarder.forward call.request.backendRoute rpc with
        | .unknownRoute => result = callReply rpc.replyId none
        | .answer answer => result = callReply rpc.replyId (some answer)
        | .read => ∃ body, result = callReply rpc.replyId (upstreamCall J body)
        | .submit sub => .replied call sub rpc.replyId result ∈ shown

/-- The replies of the call that holds the lock are those to the items it has gone through. -/
def RepliesOf (shown : List (ServiceEvent K)) (a : Active) : Prop :=
  let start := startDispatch J svc.descriptor.limits.maxBatch.val a.call
  a.batch = start.batch ∧ ∃ done : List (Json × Option Json),
    start.items = done.map Prod.fst ++ a.items ∧
    a.replies = start.replies ++ done.filterMap Prod.snd ∧
    ∀ p ∈ done, ItemReply svc J shown a.call p.1 p.2

/-- The call that holds the lock, beside what the run showed: a submission in hand is its first
item. -/
structure Loaded (s : ServiceState K) (shown : List (ServiceEvent K)) : Prop where
  replies : ∀ a ∈ s.active, RepliesOf svc J shown a
  reserved : ∀ a ∈ s.active, ∀ rpc sub, a.stage = .reserved rpc sub →
    svc.submissionOf a = some (rpc, sub)
  answered : ∀ a ∈ s.active, ∀ rpc sub reply, a.stage = .answered rpc sub reply →
    svc.submissionOf a = some (rpc, sub)

end Replies

variable {shown shown' : List (ServiceEvent K)} {a : Active}

theorem ItemReply.mono {call : Call} {item : Json} {reply : Option Json}
    (h : ItemReply svc J shown call item reply) (hsub : shown ⊆ shown') :
    ItemReply svc J shown' call item reply := by
  unfold ItemReply at h ⊢
  split at h
  · exact h
  · obtain ⟨result, hreply, hresult⟩ := h
    refine ⟨result, hreply, ?_⟩
    split at hresult
    · exact hresult
    · exact hresult
    · exact hresult
    · exact hsub hresult

theorem RepliesOf.mono (h : RepliesOf svc J shown a) (hsub : shown ⊆ shown') :
    RepliesOf svc J shown' a := by
  obtain ⟨hbatch, done, hitems, hreplies, hdone⟩ := h
  exact ⟨hbatch, done, hitems, hreplies, fun p hp => (hdone p hp).mono hsub⟩

theorem repliesOf_start (call : Call) :
    RepliesOf svc J shown (startDispatch J svc.descriptor.limits.maxBatch.val call) := by
  have hcall : (startDispatch J svc.descriptor.limits.maxBatch.val call).call = call := by
    unfold startDispatch
    split <;> rfl
  unfold RepliesOf
  rw [hcall]
  exact ⟨rfl, [], rfl, (List.append_nil _).symm, fun p hp => by cases hp⟩

/-- The first item is replied to. -/
theorem RepliesOf.next {a' : Active} {item : Json} {rest : List Json}
    (h : RepliesOf svc J shown a) (reply : Option Json) (hitems : a.items = item :: rest) (hcall : a'.call = a.call)
    (hbatch : a'.batch = a.batch) (hrest : a'.items = rest)
    (hreplies : a'.replies = a.replies ++ reply.toList)
    (hreply : ItemReply svc J shown a.call item reply) : RepliesOf svc J shown a' := by
  obtain ⟨hsame, done, hstart, hold, hdone⟩ := h
  unfold RepliesOf
  rw [hcall]
  refine ⟨hbatch.trans hsame, done ++ [(item, reply)], ?_, ?_, ?_⟩
  · rw [hstart, hitems, hrest, List.map_append, List.append_assoc]
    rfl
  · rw [hreplies, hold, List.filterMap_append, List.append_assoc]
    cases reply <;> rfl
  · intro p hp
    rcases List.mem_append.mp hp with hp | hp
    · exact hdone p hp
    · rw [List.mem_singleton.mp hp]
      exact hreply

/-- A call is answered under its id. -/
theorem RepliesOf.push {item : Json} {rest : List Json} {rpc : RpcCall} {result : Json}
    (h : RepliesOf svc J shown a) (hitems : a.items = item :: rest)
    (hparse : RpcCall.parse item = some rpc)
    (hresult : match svc.forwarder.forward a.call.request.backendRoute rpc with
      | .unknownRoute => result = callReply rpc.replyId none
      | .answer answer => result = callReply rpc.replyId (some answer)
      | .read => ∃ body, result = callReply rpc.replyId (upstreamCall J body)
      | .submit sub => .replied a.call sub rpc.replyId result ∈ shown) :
    RepliesOf svc J shown (a.push rpc result) := by
  refine h.next (if rpc.id.isSome then some result else none) hitems rfl rfl ?_ ?_ ?_
  · show a.items.tail = rest
    rw [hitems]
    rfl
  · unfold Active.push Active.done
    dsimp only
    split <;> simp
  · unfold ItemReply
    rw [hparse]
    exact ⟨result, rfl, hresult⟩

theorem repliesOf_answerItem {a' : Active} {body : Option Bytes} (h : RepliesOf svc J shown a)
    (hitem : svc.answerItem J a body = some a') : RepliesOf svc J shown a' := by
  unfold answerItem at hitem
  split at hitem
  · cases hitem
  · rename_i item rest hitems
    split at hitem
    · rename_i hparse
      cases hitem
      refine h.next (some (rpcError .null (-32600) "Invalid Request")) hitems rfl rfl ?_ rfl ?_
      · show a.items.tail = rest
        rw [hitems]
        rfl
      · unfold ItemReply
        rw [hparse]
    · rename_i rpc hparse
      split at hitem <;> cases hitem
      · rename_i hforward
        exact h.push hitems hparse (by rw [hforward])
      · rename_i answer hforward
        exact h.push hitems hparse (by rw [hforward])
      · rename_i hforward
        exact h.push hitems hparse (by rw [hforward]; exact ⟨body, rfl⟩)

/-- A submission is replied to, and the call goes on. -/
theorem loaded_replied {s' : ServiceState K} {out : List (ServiceEvent K)} {rpc : RpcCall}
    {sub : Submission} {result : Option Json} (h : RepliesOf svc J shown a)
    (hsub : svc.submissionOf a = some (rpc, sub))
    (hactive : s'.active = some (replied (K := K) a rpc sub result).1)
    (hout : (replied a rpc sub result).2 ⊆ out) : Loaded svc J s' (shown ++ out) := by
  obtain ⟨item, rest, hitems, hparse, hforward⟩ := submissionOf_eq_some hsub
  have hmem : .replied a.call sub rpc.replyId (callReply rpc.replyId result) ∈ shown ++ out :=
    List.mem_append_right _ (hout List.mem_cons_self)
  have hready : (replied (K := K) a rpc sub result).1.stage = .ready := rfl
  refine ⟨?_, ?_, ?_⟩ <;> intro a' ha' <;> rw [hactive] at ha' <;> cases ha'
  · refine (h.mono (List.subset_append_left _ out)).push hitems hparse ?_
    rw [hforward]
    exact hmem
  · intro rpc' sub' hstage
    rw [hready] at hstage
    cases hstage
  · intro rpc' sub' reply hstage
    rw [hready] at hstage
    cases hstage

/-- A submission is taken up or sent, and is still the first item. -/
theorem loaded_staged {s' : ServiceState K} {rpc : RpcCall} {sub : Submission} {stage : Stage}
    (h : RepliesOf svc J shown a) (hsub : svc.submissionOf a = some (rpc, sub))
    (hactive : s'.active = some { a with stage := stage })
    (hstage : stage = .reserved rpc sub ∨ ∃ reply, stage = .answered rpc sub reply) :
    Loaded svc J s' shown := by
  refine ⟨?_, ?_, ?_⟩ <;> intro a' ha' <;> rw [hactive] at ha' <;> cases ha'
  · exact h
  · rintro rpc' sub' rfl
    rcases hstage with hstage | ⟨_, hstage⟩ <;> cases hstage
    exact hsub
  · rintro rpc' sub' reply rfl
    rcases hstage with hstage | ⟨_, hstage⟩ <;> cases hstage
    exact hsub

theorem Loaded.mono {s : ServiceState K} (h : Loaded svc J s shown) (hsub : shown ⊆ shown') :
    Loaded svc J s shown' :=
  ⟨fun a ha => (h.replies a ha).mono hsub, h.reserved, h.answered⟩

/-- The call in hand is as it was, or lost, or one whose submission is not in hand. -/
theorem Loaded.keep {s s' : ServiceState K} (h : Loaded svc J s shown) (out : List (ServiceEvent K))
    (hactive : s'.active = s.active ∨ s'.active = none ∨
      ∃ a, s'.active = some a ∧ a.stage = .ready ∧ RepliesOf svc J shown a) :
    Loaded svc J s' (shown ++ out) := by
  refine Loaded.mono ?_ (List.subset_append_left _ out)
  rcases hactive with hsame | hnone | ⟨a, ha, hready, hreplies⟩
  · exact ⟨fun a ha => h.replies a (hsame ▸ ha), fun a ha => h.reserved a (hsame ▸ ha),
      fun a ha => h.answered a (hsame ▸ ha)⟩
  · refine ⟨?_, ?_, ?_⟩ <;> intro a ha <;> rw [hnone] at ha <;> cases ha
  · refine ⟨?_, ?_, ?_⟩ <;> intro a' ha' <;> rw [ha] at ha' <;> cases ha'
    · exact hreplies
    · intro rpc sub hstage
      rw [hready] at hstage
      cases hstage
    · intro rpc sub reply hstage
      rw [hready] at hstage
      cases hstage

theorem Loaded.step {s s' : ServiceState K} {op : ServiceOp} {out : List (ServiceEvent K)}
    (h : Loaded svc J s shown) (hstep : ServiceStep svc J s op s' out) :
    Loaded svc J s' (shown ++ out) := by
  cases hstep with
  | idle | refused | queued | listed => exact h.keep _ (Or.inl rfl)
  | crashed => exact h.keep _ (Or.inr (Or.inl rfl))
  | acquired i elapsed =>
    unfold begin
    split
    · exact h.keep _ (Or.inl rfl)
    · split
      · exact h.keep _ (Or.inl rfl)
      · split
        · exact h.keep _ (Or.inl rfl)
        · exact h.keep _ (Or.inl rfl)
        · exact h.keep _ (Or.inr (Or.inr ⟨_, rfl, stage_startDispatch _ _, repliesOf_start _⟩))
  | answered body hactive hitem =>
    exact h.keep _ (Or.inr (Or.inr ⟨_, rfl, stage_answerItem hitem,
      repliesOf_answerItem (h.replies _ hactive) hitem⟩))
  | reserving hactive hsub =>
    have hreplies := h.replies _ hactive
    unfold reserveItem
    split
    · exact loaded_replied hreplies hsub rfl (List.Subset.refl _)
    · exact loaded_replied hreplies hsub rfl (List.Subset.refl _)
    · exact loaded_replied hreplies hsub rfl (List.Subset.refl _)
    · exact (loaded_staged hreplies hsub rfl (Or.inl rfl)).mono (List.subset_append_left _ _)
  | sending body hactive hstage =>
    have hreplies := h.replies _ hactive
    have hsub := h.reserved _ hactive _ _ hstage
    unfold sendItem
    split
    · exact (loaded_staged hreplies hsub rfl (Or.inr ⟨_, rfl⟩)).mono (List.subset_append_left _ _)
    · exact loaded_replied hreplies hsub rfl (List.subset_cons_self ..)
  | finishing hactive hstage =>
    have hreplies := h.replies _ hactive
    have hsub := h.answered _ hactive _ _ _ hstage
    unfold finishItem
    split
    · exact loaded_replied hreplies hsub rfl (List.Subset.refl _)
    · exact loaded_replied hreplies hsub rfl (List.Subset.refl _)
  | filing elapsed nonce =>
    unfold finishCall
    split
    · exact h.keep _ (Or.inr (Or.inl rfl))
    · split <;> exact h.keep _ (Or.inr (Or.inl rfl))

variable (svc J) in
theorem loaded_after (ops : List ServiceOp) :
    Loaded svc J (svc.after J ops) (svc.events J ops) := by
  induction ops using List.reverseRecOn with
  | nil => refine ⟨?_, ?_, ?_⟩ <;> intro a ha <;> cases ha
  | append_singleton ops op ih =>
    rw [after_concat, events_concat]
    exact ih.step (serviceStep svc J _ op)

/-- Only the end of a call publishes, and what it seals is what the call has replied. -/
theorem published_of_step {s : ServiceState K} {op : ServiceOp} {call : Call}
    {packet : ReplyPacket K} (h : .published call packet ∈ (svc.step J s op).2) :
    ∃ a ∈ s.active, a.call = call ∧ a.items = [] ∧ ∃ nonce now,
      svc.sealPacket call.request (svc.content J a) nonce now = .ok packet := by
  rcases publishing_cases (serviceStep svc J s op) with
    ⟨-, hout⟩ | ⟨a, hactive, hitems, packet', nonce, now, hsealed, -, hout⟩ | ⟨epoch, now, rfl⟩
  · exact absurd h (hout call packet)
  · rw [hout] at h
    simp only [List.mem_cons, ServiceEvent.published.injEq, reduceCtorEq, List.not_mem_nil,
      or_false] at h
    obtain ⟨rfl, rfl⟩ := h
    exact ⟨a, hactive, rfl, hitems, nonce, now, hsealed⟩
  · cases h

variable (svc J) in
/-- **A packet carries the replies to the items of its request**, in order. -/
theorem published_content (ops : List ServiceOp) {call : Call} {packet : ReplyPacket K}
    (h : .published call packet ∈ svc.events J ops) :
    ∃ a, a.call = call ∧ a.items = [] ∧ RepliesOf svc J (svc.events J ops) a ∧ ∃ nonce now,
      svc.sealPacket call.request (svc.content J a) nonce now = .ok packet := by
  induction ops using List.reverseRecOn with
  | nil => cases h
  | append_singleton ops op ih =>
    rw [events_concat] at h ⊢
    rcases List.mem_append.mp h with h | h
    · obtain ⟨a, hcall, hitems, hreplies, hsealed⟩ := ih h
      exact ⟨a, hcall, hitems, hreplies.mono (List.subset_append_left _ _), hsealed⟩
    · obtain ⟨a, hactive, hcall, hitems, hsealed⟩ := published_of_step h
      exact ⟨a, hcall, hitems, ((loaded_after svc J ops).replies a hactive).mono
        (List.subset_append_left _ _), hsealed⟩

end RpcService
end Anymone.Eth
