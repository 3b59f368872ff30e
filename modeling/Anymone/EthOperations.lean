import Anymone.EthPackets
import Mathlib.Data.Prod.Lex
import Mathlib.Data.String.Basic

/-! # One packet for one request

A request is filed under its operation until it expires.  `OperationStep` says what one step
does with the filed operations.  Read along a run whose clock does not go back (`Timed`), a
packet is published for a request once, every call that succeeds returns that packet, and no
other request under the operation is dispatched before the first has expired
(`submissions_and_packets`).

The row of an expired request may be dropped while a call of the same request still waits for
the lock.  That call can dispatch its payload again but not publish: a packet is sealed only
into an epoch that closes before the request expires, and no such epoch is left.
-/

namespace Anymone.Eth
variable {K : EthCrypto} {svc : RpcService K} {J : JsonText}

namespace RpcService

/-! ## Sealing -/

/-- The clock a call goes by after so many seconds is the wall clock or a second behind. -/
def Keeps (call : Call) (elapsed : Nat) (clock : U64) : Prop :=
  call.now.val + elapsed ≤ clock.val ∧ clock.val ≤ call.now.val + elapsed + 1

/-- **What a sealed packet is bound to**: the first epoch that is not open and lies in the
window, which closes before the request expires. -/
theorem sealPacket_eq_ok {request : RequestEnvelope} {content : Bytes} {nonce : ByteArr 24}
    {now : U64} {packet : ReplyPacket K} (h : svc.sealPacket request content nonce now = .ok packet) :
    ∃ current closes : U64, svc.descriptor.feed.epoch now = .ok current ∧
      svc.descriptor.feed.closesAt packet.binding.epoch = .ok closes ∧
      packet.binding.epoch.val = max (current.val + 1) request.capability.delivery.firstEpoch.val ∧
      packet.binding.epoch ≤ request.capability.delivery.lastEpoch ∧
      closes < request.capability.context.expiresAt ∧
      content.length ≤ svc.descriptor.limits.maxResponseBytes.val ∧
      packet.binding.feed = svc.descriptor.feed.feed ∧
      request.capability.sealResponse packet.binding content svc.signingKey nonce now =
        .ok packet.sealed := by
  unfold sealPacket at h
  cases hcur : svc.descriptor.feed.epoch now with
  | error e => simp [hcur, orText, bind, Except.bind] at h
  | ok current =>
    simp only [hcur, orText, bind, Except.bind] at h
    cases hnext : checked (current.val + 1) with
    | none => simp [hnext] at h
    | some next =>
      simp only [hnext] at h
      split at h
      · cases h
      rename_i hlast
      -- the epoch after this one, or the first the capability is for
      cases hclose : svc.descriptor.feed.closesAt
          (max next request.capability.delivery.firstEpoch) with
      | error e => simp [hclose] at h
      | ok closes =>
        simp only [hclose] at h
        split at h
        · cases h
        rename_i hexp
        split at h
        · cases h
        rename_i hlen
        cases hloc : request.capability.locator K
            (max next request.capability.delivery.firstEpoch) with
        | error e => simp [hloc] at h
        | ok locator =>
          simp only [hloc] at h
          cases hseal : request.capability.sealResponse
              ⟨svc.descriptor.feed.feed, max next request.capability.delivery.firstEpoch, locator⟩
              content svc.signingKey nonce now with
          | error e => simp [hseal] at h
          | ok sealed =>
            simp only [hseal] at h
            cases h
            refine ⟨current, closes, rfl, hclose, ?_, not_lt.mp hlast, not_le.mp hexp,
              not_lt.mp hlen, rfl, hseal⟩
            dsimp only
            rw [← checked_eq_some.mp hnext]
            exact Fin.coe_max ..

/-- **A packet's epoch closes after the clock at which it was sealed**, even the wall clock. -/
theorem clock_lt_closesAt {request : RequestEnvelope} {content : Bytes} {nonce : ByteArr 24}
    {now clock : U64} {packet : ReplyPacket K}
    (h : svc.sealPacket request content nonce now = .ok packet) (hclock : clock.val ≤ now.val + 1) :
    ∃ closes, svc.descriptor.feed.closesAt packet.binding.epoch = .ok closes ∧ clock < closes ∧
      closes < request.capability.context.expiresAt := by
  obtain ⟨current, closes, hcur, hclose, hepoch, -, hexp, -⟩ := sealPacket_eq_ok h
  refine ⟨closes, hclose, ?_, hexp⟩
  obtain ⟨hv, hg, hc⟩ := FeedDescriptor.epoch_eq_ok.mp hcur
  have hpos := FeedDescriptor.epochSeconds_pos hv
  have hcloses := FeedDescriptor.val_closesAt hclose
  -- the clock lies before the end of the open epoch, and the packet's epoch is a later one
  have hopen : now.val - svc.descriptor.feed.genesisTime.val <
      (current.val + 1) * svc.descriptor.feed.epochSeconds.val := by
    rw [hc, ← Nat.div_lt_iff_lt_mul hpos]
    exact Nat.lt_succ_self _
  have hlater : (current.val + 2) * svc.descriptor.feed.epochSeconds.val ≤
      (packet.binding.epoch.val + 1) * svc.descriptor.feed.epochSeconds.val :=
    Nat.mul_le_mul_right _ (by omega)
  have hsplit : (current.val + 2) * svc.descriptor.feed.epochSeconds.val =
      (current.val + 1) * svc.descriptor.feed.epochSeconds.val +
        svc.descriptor.feed.epochSeconds.val := Nat.succ_mul (current.val + 1) _
  have hg : svc.descriptor.feed.genesisTime.val ≤ now.val := hg
  rw [Fin.lt_def]
  omega

/-! ## What a step does with the filed operations -/

/-- The rows of the operations. -/
def rows (s : ServiceState K) : OrdMap (ByteArr 32) (OperationRow K) := s.store.operations

/-- The rows that are left once the expired ones are dropped. -/
def keptRows (s : ServiceState K) (now : U64) : OrdMap (ByteArr 32) (OperationRow K) :=
  (rows s).retain (fun _ row => decide (now < row.expires))

/-- The clock by which a step goes is the run's. -/
def TimedAt (s : ServiceState K) (clock : U64) : ServiceOp → Prop
  | .execute call => call.now = clock
  | .acquire i elapsed => ∀ call ∈ s.waiting[i]?, Keeps call elapsed clock
  | .file elapsed _ => ∀ a ∈ s.active, Keeps a.call elapsed clock
  | .pending _ now => now = clock
  | .item _ | .reserve | .send _ | .finish | .crash => True

instance (call : Call) (elapsed : Nat) (clock : U64) : Decidable (Keeps call elapsed clock) :=
  inferInstanceAs (Decidable (_ ∧ _))

instance (s : ServiceState K) (clock : U64) : (op : ServiceOp) → Decidable (TimedAt s clock op)
  | .execute call => inferInstanceAs (Decidable (call.now = clock))
  | .acquire i elapsed => inferInstanceAs (Decidable (∀ call ∈ s.waiting[i]?, Keeps call elapsed clock))
  | .file elapsed _ => inferInstanceAs (Decidable (∀ a ∈ s.active, Keeps a.call elapsed clock))
  | .pending _ now => inferInstanceAs (Decidable (now = clock))
  | .item _ | .reserve | .send _ | .finish | .crash => inferInstanceAs (Decidable True)

/-- The event is about an operation that is filed. -/
def filing : ServiceEvent K → Bool
  | .started _ | .returned .. | .published .. => true
  | .failed .. | .sent .. | .replied .. => false

/-- What one step does with the filed operations. -/
inductive OperationStep (svc : RpcService K) (clock : U64) (s s' : ServiceState K)
    (out : List (ServiceEvent K)) : Prop
  /-- Nothing, but that the call in hand may be lost. -/
  | quiet (hrows : rows s' = rows s)
      (hactive : s'.active.map Active.call = s.active.map Active.call ∨ s'.active = none)
      (hout : ∀ e ∈ out, filing e = false)
  /-- The request of a call is filed. -/
  | filed (call : Call) (hnow : call.now ≤ clock)
      (hnamed : call.request.capability.context.operation = call.operation)
      (hnew : (keptRows s call.now).get? call.operation = none)
      (hrows : rows s' = (keptRows s call.now).insert call.operation
        ⟨K.requestDigest call.request, call.expiresAt, none⟩)
      (hactive : s'.active.map Active.call = some call) (hout : out = [.started call])
  /-- The request was filed and is not answered yet. -/
  | resumed (call : Call) (row : OperationRow K) (hnow : call.now ≤ clock)
      (hnamed : call.request.capability.context.operation = call.operation)
      (hrow : (keptRows s call.now).get? call.operation = some row)
      (hdigest : row.digest = K.requestDigest call.request) (hreply : row.reply = none)
      (hrows : rows s' = keptRows s call.now)
      (hactive : s'.active.map Active.call = some call) (hout : out = [.started call])
  /-- The request was answered. -/
  | replayed (call : Call) (packet : ReplyPacket K) (row : OperationRow K)
      (hrow : (rows s).get? call.operation = some row)
      (hdigest : row.digest = K.requestDigest call.request) (hreply : row.reply = some packet)
      (hrows : rows s' = rows s) (hactive : s'.active = none) (hout : out = [.returned call packet])
  /-- The call in hand is answered, at a clock by which it goes. -/
  | published (call : Call) (packet : ReplyPacket K) (hbefore : s.active.map Active.call = some call)
      (content : Bytes) (nonce : ByteArr 24) (now : U64) (hnow : clock.val ≤ now.val + 1)
      (hsealed : svc.sealPacket call.request content nonce now = .ok packet)
      (hrows : ∀ row, (rows s).get? call.operation = some row →
        rows s' = (rows s).insert call.operation { row with reply := some packet })
      (hactive : s'.active = none) (hout : out = [.published call packet, .returned call packet])

theorem call_startDispatch (maxBatch : Nat) (call : Call) :
    (startDispatch J maxBatch call).call = call := by
  unfold startDispatch
  split <;> rfl

theorem call_answerItem {a a' : Active} {body : Option Bytes}
    (h : svc.answerItem J a body = some a') : a'.call = a.call := by
  unfold answerItem at h
  split at h
  · cases h
  · split at h
    · cases h
      rfl
    · split at h <;> cases h <;> rfl

theorem operationStep_begin {s : ServiceState K} (hidle : s.active = none) {waiting : List Call}
    {call : Call} {elapsed : Nat} {clock : U64} (hclock : Keeps call elapsed clock) :
    OperationStep svc clock s (svc.begin J { s with waiting := waiting } call elapsed).1
      (svc.begin J { s with waiting := waiting } call elapsed).2 := by
  have hnow : call.now ≤ clock := by
    rw [Fin.le_def]
    have := hclock.1
    omega
  unfold begin
  split
  · exact .quiet rfl (Or.inl rfl) (by simp [filing])
  · rename_i hvalid
    have hnamed := (RequestEnvelope.lt_expiresAt hvalid).2
    split
    · exact .quiet rfl (Or.inl rfl) (by simp [filing])
    · rename_i digest hdigest
      have hdigest : digest = K.requestDigest call.request := by
        unfold RequestEnvelope.digest at hdigest
        split_ifs at hdigest
        exact (Except.ok.inj hdigest).symm
      subst hdigest
      unfold ServiceStore.fileOperation
      dsimp only
      cases hrow : (keptRows s call.now).get? call.operation with
      | none =>
        have hrow' := hrow
        unfold keptRows rows at hrow'
        simp only [ServiceStore.dropExpired, hrow']
        by_cases hfull : 1024 ≤ ((s.store.operations.retain
            (fun _ row => decide (call.now < row.expires))).size)
        · simp only [hfull, if_true]
          exact .quiet rfl (Or.inl rfl) (by simp [filing])
        · simp only [hfull, if_false]
          exact .filed call hnow hnamed hrow rfl (by simp [call_startDispatch]) rfl
      | some row =>
        have hrow' := hrow
        unfold keptRows rows at hrow'
        simp only [ServiceStore.dropExpired, hrow']
        by_cases hsame : row.digest = K.requestDigest call.request
        · simp only [hsame, ne_eq, not_true_eq_false, if_false]
          cases hreply : row.reply with
          | some packet =>
            unfold keptRows at hrow
            rw [OrdMap.get?_retain, Option.filter_eq_some_iff] at hrow
            exact .replayed call packet row hrow.1 hsame hreply rfl hidle rfl
          | none => exact .resumed call row hnow hnamed hrow hsame hreply rfl (by simp [call_startDispatch]) rfl
        · simp only [ne_eq, hsame, not_false_eq_true, if_true]
          exact .quiet rfl (Or.inl rfl) (by simp [filing])

/-- A step that dispatches the first item keeps the filed operations and the call in hand. -/
theorem OperationStep.of_call {clock : U64} {s s' : ServiceState K} {out : List (ServiceEvent K)}
    {a a' : Active} (hbefore : s.active = some a) (hafter : s'.active = some a')
    (hcall : a'.call = a.call) (hrows : rows s' = rows s) (hout : ∀ e ∈ out, filing e = false) :
    OperationStep svc clock s s' out :=
  .quiet hrows (Or.inl (by rw [hbefore, hafter, Option.map_some, Option.map_some, hcall])) hout

theorem operationStep_reserve {clock : U64} {s : ServiceState K} {a : Active}
    (hbefore : s.active = some a) (rpc : RpcCall) (sub : Submission) :
    OperationStep svc clock s (reserveItem J s a rpc sub).1 (reserveItem J s a rpc sub).2 := by
  unfold reserveItem ServiceStore.reserve
  cases hget : s.store.rpcDispatches.get? (submissionKey K sub) with
  | some row =>
    cases row with
    | some text =>
      cases hparse : J.parse text with
      | some reply =>
        simp only [hparse]
        exact .of_call hbefore rfl rfl rfl (by simp [replied, filing])
      | none =>
        simp only [hparse]
        exact .of_call hbefore rfl rfl rfl (by simp [replied, filing])
    | none => exact .of_call hbefore rfl rfl rfl (by simp [replied, filing])
  | none =>
    dsimp only
    by_cases hfull : 100000 ≤ s.store.rpcDispatches.size
    · rw [if_pos hfull]
      exact .of_call hbefore rfl rfl rfl (by simp [replied, filing])
    · rw [if_neg hfull]
      exact .of_call hbefore rfl rfl rfl (by simp)

theorem operationStep_send {clock : U64} {s : ServiceState K} {a : Active}
    (hbefore : s.active = some a) (rpc : RpcCall) (sub : Submission) (body : Option Bytes) :
    OperationStep svc clock s (sendItem J s a rpc sub body).1 (sendItem J s a rpc sub body).2 := by
  unfold sendItem
  split
  · exact .of_call hbefore rfl rfl rfl (by simp [filing])
  · exact .of_call hbefore rfl rfl rfl (by simp [replied, filing])

theorem operationStep_finish {clock : U64} {s : ServiceState K} {a : Active}
    (hbefore : s.active = some a) (rpc : RpcCall) (sub : Submission) (reply : Json) :
    OperationStep svc clock s (finishItem J s a rpc sub reply).1 (finishItem J s a rpc sub reply).2 := by
  unfold finishItem ServiceStore.finish
  by_cases hrow : s.store.rpcDispatches.contains (submissionKey K sub) = true
  · rw [if_pos hrow]
    exact .of_call hbefore rfl rfl rfl (by simp [replied, filing])
  · rw [if_neg hrow]
    exact .of_call hbefore rfl rfl rfl (by simp [replied, filing])

theorem operationStep_finishCall {clock : U64} {s : ServiceState K} {a : Active}
    (hbefore : s.active = some a) {elapsed : Nat} (hclock : Keeps a.call elapsed clock)
    (nonce : ByteArr 24) :
    OperationStep svc clock s (svc.finishCall J s a elapsed nonce).1
      (svc.finishCall J s a elapsed nonce).2 := by
  unfold finishCall
  split
  · exact .quiet rfl (Or.inr rfl) (by simp [filing])
  · rename_i packet hseal
    have hlate : clock.val ≤ (a.call.now.saturatingAdd elapsed).val + 1 := by
      have := hclock.2
      have := clock.isLt
      unfold U64.saturatingAdd
      dsimp only
      omega
    unfold ServiceStore.fileReply
    dsimp only
    split_ifs
    · exact .quiet rfl (Or.inr rfl) (by simp [filing])
    · refine .published a.call packet (by rw [hbefore]; rfl) _ nonce _ hlate hseal ?_ rfl rfl
      intro row hrow
      unfold rows at hrow ⊢
      simp only [hrow]

theorem operationStep_of {s s' : ServiceState K} {clock : U64} {op : ServiceOp}
    {out : List (ServiceEvent K)} (htimed : TimedAt s clock op)
    (h : ServiceStep svc J s op s' out) : OperationStep svc clock s s' out := by
  cases h with
  | idle | queued | listed => exact .quiet rfl (Or.inl rfl) (by simp)
  | refused => exact .quiet rfl (Or.inl rfl) (by simp [filing])
  | acquired i elapsed hidle hcall => exact operationStep_begin hidle (htimed _ hcall)
  | answered body hactive hitem => exact .of_call hactive rfl (call_answerItem hitem) rfl (by simp)
  | reserving hactive => exact operationStep_reserve hactive _ _
  | sending body hactive => exact operationStep_send hactive _ _ body
  | finishing hactive => exact operationStep_finish hactive _ _ _
  | filing elapsed nonce hactive => exact operationStep_finishCall hactive (htimed _ hactive) nonce
  | crashed => exact .quiet rfl (Or.inr rfl) (by simp)

variable (svc J) in
/-- **What a step of the service does with the filed operations.** -/
theorem operationStep {s : ServiceState K} {clock : U64} {op : ServiceOp}
    (htimed : TimedAt s clock op) :
    OperationStep svc clock s (svc.step J s op).1 (svc.step J s op).2 :=
  operationStep_of htimed (serviceStep svc J s op)

/-! ## What a run keeps -/

/-- The call that an event of `execute` is about. -/
def callOf : ServiceEvent K → Option Call
  | .started call | .returned call _ | .failed call _ | .published call _ => some call
  | .sent .. | .replied .. => none

/-- The requests that the events name have different digests. -/
def RequestsApart (shown : List (ServiceEvent K)) : Prop :=
  ∀ e ∈ shown, ∀ e' ∈ shown, ∀ call ∈ callOf e, ∀ call' ∈ callOf e',
    K.requestDigest call.request = K.requestDigest call'.request → call.request = call'.request

/-- The event publishes a packet for the request under the operation. -/
def publishes (operation : ByteArr 32) (request : RequestEnvelope) : ServiceEvent K → Bool
  | .published call _ => decide (call.operation = operation) && decide (call.request = request)
  | .started _ | .returned .. | .failed .. | .sent .. | .replied .. => false

theorem RequestsApart.mono {shown shown' : List (ServiceEvent K)} (h : RequestsApart shown')
    (hsub : shown ⊆ shown') : RequestsApart shown :=
  fun e he e' he' => h e (hsub he) e' (hsub he')

/-- The row is filed for the call. -/
def RowOf (s : ServiceState K) (call : Call) (row : OperationRow K) : Prop :=
  (rows s).get? call.operation = some row ∧ row.digest = K.requestDigest call.request

/-- The filed operations beside what the run showed, at a clock.  Until its request expires a
call that was started has its row, with the packet that was published for it. -/
structure Filed (clock : U64) (s : ServiceState K) (shown : List (ServiceEvent K)) : Prop where
  row : ∀ operation row, (rows s).get? operation = some row →
    ∃ call, .started call ∈ shown ∧ call.operation = operation ∧
      row.digest = K.requestDigest call.request ∧ row.expires = call.expiresAt
  reply : ∀ operation row packet, (rows s).get? operation = some row → row.reply = some packet →
    ∃ call, .published call packet ∈ shown ∧ call.operation = operation ∧
      row.digest = K.requestDigest call.request
  started : ∀ call, .started call ∈ shown → clock < call.expiresAt → ∃ row, RowOf s call row
  published : ∀ call packet, .published call packet ∈ shown → clock < call.expiresAt →
    ∃ row, RowOf s call row ∧ row.reply = some packet
  active : ∀ call, s.active.map Active.call = some call → ∃ row, RowOf s call row ∧ row.reply = none
  returned : ∀ call packet, .returned call packet ∈ shown →
    ∃ call', .published call' packet ∈ shown ∧ call'.operation = call.operation ∧
      call'.request = call.request
  once : ∀ operation request, shown.countP (publishes operation request) ≤ 1

namespace Filed
variable {clock : U64} {s s' : ServiceState K} {shown out : List (ServiceEvent K)}

/-- What holds at a clock holds at a later one. -/
theorem later {clock' : U64} (h : Filed clock s shown) (hle : clock ≤ clock') :
    Filed clock' s shown :=
  ⟨h.row, h.reply, fun call he hlt => h.started call he (hle.trans_lt hlt),
    fun call packet he hlt => h.published call packet he (hle.trans_lt hlt), h.active, h.returned,
    h.once⟩

/-- The row filed for a call stands until the call's request expires. -/
theorem expires_eq (h : Filed clock s shown) (happart : RequestsApart shown)
    {e : ServiceEvent K} {call : Call} {row : OperationRow K} (he : e ∈ shown)
    (hcall : callOf e = some call) (hrow : RowOf s call row) : row.expires = call.expiresAt := by
  obtain ⟨call', hstarted, -, hdigest, hexpires⟩ := h.row _ _ hrow.1
  have hsame : call.request = call'.request :=
    happart e he _ hstarted call hcall call' rfl (hrow.2.symm.trans hdigest)
  rw [hexpires, Call.expiresAt, Call.expiresAt, hsame]

/-- A row that stands is not dropped. -/
theorem kept (h : Filed clock s shown) (happart : RequestsApart shown) {now : U64}
    (hnow : now ≤ clock) {e : ServiceEvent K} {call : Call} {row : OperationRow K} (he : e ∈ shown)
    (hcall : callOf e = some call) (hrow : RowOf s call row) (hlt : clock < call.expiresAt) :
    (keptRows s now).get? call.operation = some row := by
  unfold keptRows
  rw [OrdMap.get?_retain, hrow.1, Option.filter_some, if_pos]
  rw [decide_eq_true_eq, h.expires_eq happart he hcall hrow]
  exact hnow.trans_lt hlt

theorem get?_of_keptRows {now : U64} {operation : ByteArr 32} {row : OperationRow K}
    (h : (keptRows s now).get? operation = some row) : (rows s).get? operation = some row := by
  unfold keptRows at h
  rw [OrdMap.get?_retain, Option.filter_eq_some_iff] at h
  exact h.1

/-- A call that is started keeps the rows that stand, and has one without a reply. -/
theorem start (h : Filed clock s shown) {call : Call} (hnow : call.now ≤ clock)
    (hkept : ∀ operation row, (keptRows s call.now).get? operation = some row →
      (rows s').get? operation = some row)
    (hrows : ∀ operation row, (rows s').get? operation = some row →
      (rows s).get? operation = some row ∨
        operation = call.operation ∧ row = ⟨K.requestDigest call.request, call.expiresAt, none⟩)
    (hrow : ∃ row, RowOf s' call row ∧ row.reply = none)
    (hactive : s'.active.map Active.call = some call) (happart : RequestsApart shown) :
    Filed clock s' (shown ++ [.started call]) := by
  have hshown : ∀ {e}, e ∈ shown → e ∈ shown ++ [.started call] :=
    fun he => List.mem_append_left _ he
  refine ⟨?_, ?_, ?_, ?_, ?_, ?_, ?_⟩
  · intro operation row hget
    rcases hrows operation row hget with hget | ⟨rfl, rfl⟩
    · obtain ⟨call', hstarted, hrest⟩ := h.row operation row hget
      exact ⟨call', hshown hstarted, hrest⟩
    · exact ⟨call, by simp, rfl, rfl, rfl⟩
  · intro operation row packet hget hreply
    rcases hrows operation row hget with hget | ⟨rfl, rfl⟩
    · obtain ⟨call', hpublished, hrest⟩ := h.reply operation row packet hget hreply
      exact ⟨call', hshown hpublished, hrest⟩
    · cases hreply
  · intro call' he hlt
    rcases List.mem_append.mp he with he | he
    · obtain ⟨row, hrowOf⟩ := h.started call' he hlt
      exact ⟨row, hkept _ _ (h.kept happart hnow he rfl hrowOf hlt), hrowOf.2⟩
    · cases List.mem_singleton.mp he
      obtain ⟨row, hrowOf, -⟩ := hrow
      exact ⟨row, hrowOf⟩
  · intro call' packet he hlt
    have he : .published call' packet ∈ shown := by simpa using he
    obtain ⟨row, hrowOf, hreply⟩ := h.published call' packet he hlt
    exact ⟨row, ⟨hkept _ _ (h.kept happart hnow he rfl hrowOf hlt), hrowOf.2⟩, hreply⟩
  · intro call' hcall
    rw [hactive] at hcall
    cases hcall
    exact hrow
  · intro call' packet he
    obtain ⟨call'', hpublished, hrest⟩ := h.returned call' packet (by simpa using he)
    exact ⟨call'', hshown hpublished, hrest⟩
  · intro operation request
    simpa [publishes] using h.once operation request

theorem step (h : Filed clock s shown) (hstep : OperationStep svc clock s s' out)
    (happart : RequestsApart (shown ++ out)) : Filed clock s' (shown ++ out) := by
  have hbefore : RequestsApart shown := happart.mono (List.subset_append_left _ _)
  have hshown : ∀ {e}, e ∈ shown → e ∈ shown ++ out := fun he => List.mem_append_left _ he
  cases hstep with
  | quiet hrows hactive hout =>
    have hold : ∀ {e}, filing e = true → e ∈ shown ++ out → e ∈ shown := by
      intro e hfiling he
      rcases List.mem_append.mp he with he | he
      · exact he
      · rw [hout e he] at hfiling
        cases hfiling
    have hcount : ∀ operation request, out.countP (publishes operation request) = 0 := by
      intro operation request
      rw [List.countP_eq_zero]
      intro e he
      have := hout e he
      cases e <;> simp [filing, publishes] at this ⊢
    refine ⟨?_, ?_, ?_, ?_, ?_, ?_, ?_⟩
    · intro operation row hrow
      obtain ⟨call, hstarted, hrest⟩ := h.row operation row (hrows ▸ hrow)
      exact ⟨call, hshown hstarted, hrest⟩
    · intro operation row packet hrow hreply
      obtain ⟨call, hpublished, hrest⟩ := h.reply operation row packet (hrows ▸ hrow) hreply
      exact ⟨call, hshown hpublished, hrest⟩
    · intro call he hlt
      unfold RowOf
      rw [hrows]
      exact h.started call (hold rfl he) hlt
    · intro call packet he hlt
      unfold RowOf
      rw [hrows]
      exact h.published call packet (hold rfl he) hlt
    · intro call hcall
      unfold RowOf
      rw [hrows]
      rcases hactive with hactive | hactive
      · exact h.active call (hactive ▸ hcall)
      · simp [hactive] at hcall
    · intro call packet he
      obtain ⟨call', hpublished, hrest⟩ := h.returned call packet (hold rfl he)
      exact ⟨call', hshown hpublished, hrest⟩
    · intro operation request
      rw [List.countP_append, hcount, Nat.add_zero]
      exact h.once operation request
  | filed call hnow hnamed hnew hrows hactive hout =>
    subst hout
    refine h.start hnow ?_ ?_ ?_ hactive hbefore
    · intro operation row hget
      rw [hrows, OrdMap.get?_insert, if_neg]
      · exact hget
      · rintro rfl
        rw [hnew] at hget
        cases hget
    · intro operation row hget
      rw [hrows, OrdMap.get?_insert] at hget
      split_ifs at hget with hsame
      · exact Or.inr ⟨hsame, (Option.some.inj hget).symm⟩
      · exact Or.inl (get?_of_keptRows hget)
    · refine ⟨⟨K.requestDigest call.request, call.expiresAt, none⟩, ⟨?_, rfl⟩, rfl⟩
      rw [hrows, OrdMap.get?_insert, if_pos rfl]
  | resumed call row hnow hnamed hrow hdigest hreply hrows hactive hout =>
    subst hout
    refine h.start hnow ?_ ?_ ?_ hactive hbefore
    · intro operation row' hget
      rw [hrows]
      exact hget
    · intro operation row' hget
      rw [hrows] at hget
      exact Or.inl (get?_of_keptRows hget)
    · exact ⟨row, ⟨hrows ▸ hrow, hdigest⟩, hreply⟩
  | replayed call packet row hrow hdigest hreply hrows hactive hout =>
    subst hout
    refine ⟨?_, ?_, ?_, ?_, ?_, ?_, ?_⟩
    · intro operation row' hget
      obtain ⟨call', hstarted, hrest⟩ := h.row operation row' (hrows ▸ hget)
      exact ⟨call', hshown hstarted, hrest⟩
    · intro operation row' packet' hget hreply'
      obtain ⟨call', hpublished, hrest⟩ := h.reply operation row' packet' (hrows ▸ hget) hreply'
      exact ⟨call', hshown hpublished, hrest⟩
    · intro call' he hlt
      unfold RowOf
      rw [hrows]
      exact h.started call' (by simpa using he) hlt
    · intro call' packet' he hlt
      unfold RowOf
      rw [hrows]
      exact h.published call' packet' (by simpa using he) hlt
    · simp [hactive]
    · intro call' packet' he
      rcases List.mem_append.mp he with he | he
      · obtain ⟨call'', hpublished, hrest⟩ := h.returned call' packet' he
        exact ⟨call'', hshown hpublished, hrest⟩
      · cases List.mem_singleton.mp he
        obtain ⟨call'', hpublished, hoperation, hsame⟩ := h.reply _ row packet hrow hreply
        refine ⟨call'', hshown hpublished, hoperation, ?_⟩
        exact happart _ (hshown hpublished) (.returned call packet) (by simp) call'' rfl call rfl
          (hsame.symm.trans hdigest)
    · intro operation request
      simpa [publishes] using h.once operation request
  | published call packet hactive content nonce now hnow hsealed hrows hidle hout =>
    subst hout
    have hclock : clock < call.expiresAt := by
      obtain ⟨closes, -, hlt, hexp⟩ := clock_lt_closesAt hsealed hnow
      exact hlt.trans hexp
    -- the call in hand has a row without a reply, so nothing was published for its request
    obtain ⟨row, hrow, hnone⟩ := h.active call hactive
    have hrows := hrows row hrow.1
    have hfirst : ∀ call' packet', .published call' packet' ∈ shown →
        call'.operation = call.operation → ¬ clock < call'.expiresAt := by
      intro call' packet' he hsame hlt
      obtain ⟨row', hrow', hsome⟩ := h.published call' packet' he hlt
      have hget := hrow'.1
      rw [hsame, hrow.1] at hget
      cases hget
      rw [hnone] at hsome
      cases hsome
    refine ⟨?_, ?_, ?_, ?_, ?_, ?_, ?_⟩
    · intro operation row' hget
      rw [hrows, OrdMap.get?_insert] at hget
      split_ifs at hget with hsame
      · cases hget
        obtain ⟨call', hstarted, hrest⟩ := h.row _ row hrow.1
        exact ⟨call', hshown hstarted, hsame.symm ▸ hrest⟩
      · obtain ⟨call', hstarted, hrest⟩ := h.row operation row' hget
        exact ⟨call', hshown hstarted, hrest⟩
    · intro operation row' packet' hget hreply
      rw [hrows, OrdMap.get?_insert] at hget
      split_ifs at hget with hsame
      · cases hget
        cases hreply
        exact ⟨call, by simp, hsame.symm, hrow.2⟩
      · obtain ⟨call', hpublished, hrest⟩ := h.reply operation row' packet' hget hreply
        exact ⟨call', hshown hpublished, hrest⟩
    · intro call' he hlt
      obtain ⟨row', hrow'⟩ := h.started call' (by simpa using he) hlt
      by_cases hsame : call'.operation = call.operation
      · refine ⟨{ row with reply := some packet }, ?_, ?_⟩
        · rw [hrows, OrdMap.get?_insert, if_pos hsame]
        · have hget := hrow'.1
          rw [hsame, hrow.1] at hget
          cases hget
          exact hrow'.2
      · refine ⟨row', ?_, hrow'.2⟩
        rw [hrows, OrdMap.get?_insert, if_neg hsame]
        exact hrow'.1
    · intro call' packet' he hlt
      simp only [List.mem_append, List.mem_cons, ServiceEvent.published.injEq, reduceCtorEq,
        List.not_mem_nil, or_false] at he
      rcases he with he | ⟨rfl, rfl⟩
      · obtain ⟨row', hrow', hreply⟩ := h.published call' packet' he hlt
        refine ⟨row', ⟨?_, hrow'.2⟩, hreply⟩
        rw [hrows, OrdMap.get?_insert, if_neg]
        · exact hrow'.1
        · exact fun hsame => hfirst call' packet' he hsame hlt
      · refine ⟨{ row with reply := some packet' }, ⟨?_, hrow.2⟩, rfl⟩
        rw [hrows, OrdMap.get?_insert, if_pos rfl]
    · simp [hidle]
    · intro call' packet' he
      simp only [List.mem_append, List.mem_cons, ServiceEvent.returned.injEq, reduceCtorEq,
        List.not_mem_nil, or_false, false_or] at he
      rcases he with he | ⟨rfl, rfl⟩
      · obtain ⟨call'', hpublished, hrest⟩ := h.returned call' packet' he
        exact ⟨call'', hshown hpublished, hrest⟩
      · exact ⟨call', by simp, rfl, rfl⟩
    · intro operation request
      by_cases hthis : call.operation = operation ∧ call.request = request
      · obtain ⟨rfl, rfl⟩ := hthis
        -- an earlier packet would be of a request that has expired, and this one has not
        have hzero : shown.countP (publishes call.operation call.request) = 0 := by
          rw [List.countP_eq_zero]
          intro e he hpub
          cases e with
          | published call' packet' =>
            simp only [publishes, Bool.and_eq_true, decide_eq_true_eq] at hpub
            refine hfirst call' packet' he hpub.1 ?_
            rw [Call.expiresAt, hpub.2]
            exact hclock
          | _ => cases hpub
        rw [List.countP_append, hzero]
        simp [publishes]
      · rw [not_and] at hthis
        have hout : [ServiceEvent.published call packet, .returned call packet].countP
            (publishes operation request) = 0 := by
          simp only [List.countP_cons, List.countP_nil, publishes, Bool.and_eq_true,
            decide_eq_true_eq]
          rw [if_neg (fun hc => hthis hc.1 hc.2)]
          simp
        rw [List.countP_append, hout, Nat.add_zero]
        exact h.once operation request

end Filed

/-! ## Timed runs -/

section Run
variable (svc J)

/-- What the steps of a timed run show. -/
def shown (ops : List (U64 × ServiceOp)) : List (ServiceEvent K) := svc.events J (ops.map Prod.snd)

/-- The state after the steps of a timed run. -/
def reached (ops : List (U64 × ServiceOp)) : ServiceState K := svc.after J (ops.map Prod.snd)

/-- The steps of the run each carry the clock, and it does not go back. -/
def Timed (ops : List (U64 × ServiceOp)) : Prop :=
  (ops.map Prod.fst).Pairwise (· ≤ ·) ∧
    ∀ σ ∈ Trace.steps ops, TimedAt (svc.reached J σ.1) σ.2.1 σ.2.2

instance (ops : List (U64 × ServiceOp)) : Decidable (svc.Timed J ops) :=
  inferInstanceAs (Decidable (_ ∧ _))

/-- The clock at the end of a run. -/
def lastClock (ops : List (U64 × ServiceOp)) : U64 := ((ops.map Prod.fst).getLast?).getD 0

end Run

variable {ops : List (U64 × ServiceOp)}

theorem shown_concat (l : List (U64 × ServiceOp)) (e : U64 × ServiceOp) :
    svc.shown J (l ++ [e]) = svc.shown J l ++ (svc.step J (svc.reached J l) e.2).2 := by
  unfold shown reached
  rw [List.map_append, List.map_singleton, events_concat]

theorem reached_concat (l : List (U64 × ServiceOp)) (e : U64 × ServiceOp) :
    svc.reached J (l ++ [e]) = (svc.step J (svc.reached J l) e.2).1 := by
  unfold reached
  rw [List.map_append, List.map_singleton, after_concat]

variable (svc J) in
theorem shown_subset {l : List (U64 × ServiceOp)} (h : l <+: ops) :
    svc.shown J l ⊆ svc.shown J ops := by
  obtain ⟨post, rfl⟩ := h
  induction post using List.reverseRecOn with
  | nil => rw [List.append_nil]; exact List.Subset.refl _
  | append_singleton post e ih =>
    rw [← List.append_assoc, shown_concat]
    exact List.Subset.trans ih (List.subset_append_left _ _)

/-- The clock of a step is not before the one of the steps before it. -/
theorem lastClock_le (h : (ops.map Prod.fst).Pairwise (· ≤ ·))
    {σ : List (U64 × ServiceOp) × U64 × ServiceOp} (hσ : σ ∈ Trace.steps ops) :
    lastClock σ.1 ≤ σ.2.1 := by
  obtain ⟨pre, clock, op⟩ := σ
  obtain ⟨post, rfl⟩ := Trace.mem_steps.mp hσ
  unfold lastClock
  rw [List.map_append, List.pairwise_append] at h
  cases hlast : (pre.map Prod.fst).getLast? with
  | none => exact Fin.zero_le _
  | some before => exact h.2.2 before (List.mem_of_getLast? hlast) clock (by simp)

theorem filed_reached (htimed : svc.Timed J ops) (happart : RequestsApart (svc.shown J ops)) :
    ∀ l, l <+: ops → Filed (lastClock l) (svc.reached J l) (svc.shown J l) := by
  refine Trace.prefix_induction ?_ ?_
  · refine ⟨?_, ?_, ?_, ?_, ?_, ?_, ?_⟩ <;>
      simp [reached, shown, events, after, Trace.run, rows, ServiceState.new, ServiceStore.new]
  · intro σ hσ ih
    have hclock := lastClock_le htimed.1 hσ
    have hlast : lastClock (σ.1 ++ [σ.2]) = σ.2.1 := by simp [lastClock]
    have hsub := shown_subset svc J (Trace.prefix_of_mem_steps hσ)
    rw [shown_concat] at hsub ⊢
    rw [reached_concat, hlast]
    exact (ih.later hclock).step (operationStep svc J (htimed.2 σ hσ)) (happart.mono hsub)

/-- A call that is published is under the operation its request names. -/
theorem operation_of_published (htimed : svc.Timed J ops) {call : Call} {packet : ReplyPacket K}
    (h : .published call packet ∈ svc.shown J ops) :
    call.request.capability.context.operation = call.operation := by
  suffices hall : ∀ l, l <+: ops →
      (∀ call, (svc.reached J l).active.map Active.call = some call →
        call.request.capability.context.operation = call.operation) ∧
      ∀ call packet, .published call packet ∈ svc.shown J l →
        call.request.capability.context.operation = call.operation from
    (hall ops (List.prefix_refl ops)).2 call packet h
  refine Trace.prefix_induction ?_ ?_
  · simp [reached, shown, events, after, Trace.run, ServiceState.new]
  -- a call starts under the operation its request names and is published under the same
  · rintro σ hσ ⟨hcall, hshown⟩
    rw [shown_concat, reached_concat]
    cases operationStep svc J (htimed.2 σ hσ) with
    | quiet hrows hactive hout =>
      refine ⟨?_, ?_⟩
      · intro call hsome
        rcases hactive with hactive | hactive
        · exact hcall call (hactive ▸ hsome)
        · simp [hactive] at hsome
      · intro call packet he
        rcases List.mem_append.mp he with he | he
        · exact hshown call packet he
        · cases hout _ he
    | filed call' hnow hnamed hnew hrows hactive hout =>
      rw [hactive, hout]
      exact ⟨by simpa using hnamed, by simpa using hshown⟩
    | resumed call' row hnow hnamed hrow hdigest hreply hrows hactive hout =>
      rw [hactive, hout]
      exact ⟨by simpa using hnamed, by simpa using hshown⟩
    | replayed call' packet' row hrow hdigest hreply hrows hactive hout =>
      rw [hactive, hout]
      exact ⟨by simp, by simpa using hshown⟩
    | published call' packet' hactive content nonce now hnow hsealed hrows hidle hout =>
      rw [hidle, hout]
      refine ⟨by simp, ?_⟩
      intro call packet he
      simp only [List.mem_append, List.mem_cons, ServiceEvent.published.injEq, reduceCtorEq,
        List.not_mem_nil, or_false] at he
      rcases he with he | ⟨rfl, rfl⟩
      · exact hshown call packet he
      · exact hcall call hactive

/-! ## One packet for one request -/

/-- A list with at most one member of a kind has no two. -/
theorem eq_of_countP_le_one {α : Type} {p : α → Bool} {l : List α} (h : l.countP p ≤ 1) {a b : α}
    (ha : a ∈ l) (hb : b ∈ l) (hpa : p a = true) (hpb : p b = true) : a = b := by
  rw [List.countP_eq_length_filter] at h
  have ha : a ∈ l.filter p := List.mem_filter.mpr ⟨ha, hpa⟩
  have hb : b ∈ l.filter p := List.mem_filter.mpr ⟨hb, hpb⟩
  match hl : l.filter p, h with
  | [], _ => simp [hl] at ha
  | [c], _ =>
    rw [hl, List.mem_singleton] at ha hb
    rw [ha, hb]

/-- **All calls for a request that succeed return one packet.** -/
theorem returned_unique (htimed : svc.Timed J ops) (happart : RequestsApart (svc.shown J ops))
    {call call' : Call} {packet packet' : ReplyPacket K}
    (h : .returned call packet ∈ svc.shown J ops) (h' : .returned call' packet' ∈ svc.shown J ops)
    (hoperation : call'.operation = call.operation) (hrequest : call'.request = call.request) :
    packet' = packet := by
  have hfiled := filed_reached htimed happart ops (List.prefix_refl ops)
  obtain ⟨c, hpub, ho, hr⟩ := hfiled.returned call packet h
  obtain ⟨c', hpub', ho', hr'⟩ := hfiled.returned call' packet' h'
  have := eq_of_countP_le_one (hfiled.once call.operation call.request) hpub' hpub
    (by simp [publishes, ho', hr', hoperation, hrequest]) (by simp [publishes, ho, hr])
  cases this
  rfl

/-- A packet is published for a request once some call for it has succeeded. -/
theorem published_of_returned (htimed : svc.Timed J ops)
    (happart : RequestsApart (svc.shown J ops)) {call : Call} {packet : ReplyPacket K}
    (h : .returned call packet ∈ svc.shown J ops) :
    (svc.shown J ops).countP (publishes call.operation call.request) = 1 := by
  have hfiled := filed_reached htimed happart ops (List.prefix_refl ops)
  obtain ⟨c, hpub, ho, hr⟩ := hfiled.returned call packet h
  have hpos : 0 < (svc.shown J ops).countP (publishes call.operation call.request) :=
    List.countP_pos_iff.mpr ⟨_, hpub, by simp [publishes, ho, hr]⟩
  have := hfiled.once call.operation call.request
  omega

variable (svc J) in
/-- A call that takes the lock shows what became of it. -/
theorem exists_callOf_begin (s : ServiceState K) (call : Call) (elapsed : Nat) :
    ∃ e ∈ (svc.begin J s call elapsed).2, callOf e = some call := by
  unfold begin
  repeat' split
  all_goals exact ⟨_, List.mem_singleton.mpr rfl, rfl⟩

/-- A call under an operation that another request has is turned away. -/
theorem begin_of_conflict {s : ServiceState K} {call : Call} {row : OperationRow K}
    (hrow : (keptRows s call.now).get? call.operation = some row)
    (hdigest : row.digest ≠ K.requestDigest call.request) (elapsed : Nat) :
    ∃ e, svc.begin J s call elapsed = (s, [.failed call e]) := by
  unfold begin
  split
  · exact ⟨_, rfl⟩
  · split
    · exact ⟨_, rfl⟩
    · rename_i digest hok
      have hok : digest = K.requestDigest call.request := by
        unfold RequestEnvelope.digest at hok
        split_ifs at hok
        exact (Except.ok.inj hok).symm
      subst hok
      unfold keptRows rows at hrow
      unfold ServiceStore.fileOperation ServiceStore.dropExpired
      simp only [hrow, ne_eq, hdigest, not_false_eq_true, if_true]
      exact ⟨_, rfl⟩

/-- **Until a request expires no other is dispatched under its operation.** -/
theorem rejected_of_started (htimed : svc.Timed J ops) (happart : RequestsApart (svc.shown J ops))
    {pre : List (U64 × ServiceOp)} {clock : U64} {i elapsed : Nat}
    (hσ : (pre, clock, .acquire i elapsed) ∈ Trace.steps ops) {call call' : Call}
    (hstarted : .started call ∈ svc.shown J pre) (hidle : (svc.reached J pre).active = none)
    (hwaiting : (svc.reached J pre).waiting[i]? = some call')
    (hoperation : call'.operation = call.operation) (hother : call'.request ≠ call.request)
    (hclock : clock < call.expiresAt) :
    ∃ e, svc.step J (svc.reached J pre) (.acquire i elapsed) =
      ({ svc.reached J pre with waiting := (svc.reached J pre).waiting.eraseIdx i },
        [.failed call' e]) := by
  have hpre := Trace.prefix_of_mem_steps hσ
  have hbefore : pre <+: ops := (List.prefix_append _ _).trans hpre
  have hfiled := (filed_reached htimed happart pre hbefore).later (lastClock_le htimed.1 hσ)
  obtain ⟨row, hrow⟩ := hfiled.started call hstarted hclock
  have hnow : call'.now ≤ clock := by
    have := (htimed.2 _ hσ : TimedAt _ clock (.acquire i elapsed)) call' hwaiting
    rw [Fin.le_def]
    exact (Nat.le_add_right _ _).trans this.1
  have hkept := hfiled.kept (happart.mono (shown_subset svc J hbefore)) hnow hstarted rfl hrow hclock
  have hstep : svc.step J (svc.reached J pre) (.acquire i elapsed) = svc.begin J
      { svc.reached J pre with waiting := (svc.reached J pre).waiting.eraseIdx i } call' elapsed := by
    unfold step
    simp only [hidle, hwaiting]
  rw [hstep]
  refine begin_of_conflict (?_ : (keptRows _ _).get? _ = some row) ?_ elapsed
  · rw [hoperation]
    exact hkept
  · intro hdigest
    obtain ⟨e, he, hcall⟩ := exists_callOf_begin svc J
      { svc.reached J pre with waiting := (svc.reached J pre).waiting.eraseIdx i } call' elapsed
    have hsub := shown_subset svc J hpre
    rw [shown_concat, hstep] at hsub
    exact hother (happart e (hsub (List.mem_append_right _ he)) _
      (hsub (List.mem_append_left _ hstarted)) call' hcall call rfl (hdigest.symm.trans hrow.2))

/-- **At-most-once submission, and one packet for a request.**  The two submission methods reach
the upstream only where they are sent; a packet that is returned was published for its request,
which is one row inserted into `publications`, and carries the replies to the items of the request,
those to submissions as they were made. -/
theorem submissions_and_packets (htimed : svc.Timed J ops)
    (hsubmissions : SubmissionsApart (svc.shown J ops))
    (hrequests : RequestsApart (svc.shown J ops)) (hreread : RepliesReread J (svc.shown J ops)) :
    (∀ sub, (svc.shown J ops).countP (sends sub) ≤ 1) ∧
    (∀ sub, sub.method = "eth_sendRawTransaction" ∨ sub.method = "eth_sendUserOperation" →
      (svc.asked J (ops.map Prod.snd)).count sub = (svc.shown J ops).countP (sends sub)) ∧
    (∀ call sub id reply, .replied call sub id reply ∈ svc.shown J ops →
      OwnError id reply ∨
        ∃ answer, .sent sub (some answer) ∈ svc.shown J ops ∧ reply = answer.set "id" id) ∧
    (∀ call call' packet packet', .returned call packet ∈ svc.shown J ops →
      .returned call' packet' ∈ svc.shown J ops → call'.operation = call.operation →
      call'.request = call.request → packet' = packet) ∧
    (∀ operation request, (svc.shown J ops).countP (publishes operation request) ≤ 1) ∧
    (∀ call packet, .returned call packet ∈ svc.shown J ops →
      (svc.shown J ops).countP (publishes call.operation call.request) = 1 ∧
      ∃ call', .published call' packet ∈ svc.shown J ops ∧ call'.operation = call.operation ∧
        call'.request = call.request) ∧
    (∀ σ ∈ Trace.steps ops, ∀ epoch locator,
      PublicationStep (svc.reached J σ.1) (svc.step J (svc.reached J σ.1) σ.2.2).1 σ.2.2
        (svc.step J (svc.reached J σ.1) σ.2.2).2 epoch locator) ∧
    (∀ call packet, .published call packet ∈ svc.shown J ops → ∃ a, a.call = call ∧ a.items = [] ∧
      RepliesOf svc J (svc.shown J ops) a ∧ ∃ nonce now,
        svc.sealPacket call.request (svc.content J a) nonce now = .ok packet) ∧
    (∀ pre clock i elapsed, (pre, clock, .acquire i elapsed) ∈ Trace.steps ops →
      ∀ call call', .started call ∈ svc.shown J pre → (svc.reached J pre).active = none →
        (svc.reached J pre).waiting[i]? = some call' → call'.operation = call.operation →
        call'.request ≠ call.request → clock < call.expiresAt →
        ∃ e, svc.step J (svc.reached J pre) (.acquire i elapsed) =
          ({ svc.reached J pre with waiting := (svc.reached J pre).waiting.eraseIdx i },
            [.failed call' e])) := by
  refine ⟨fun sub => countP_sent_le_one _ sub, ?_, fun call sub id reply he =>
    reply_of_sent hsubmissions hreread he, ?_, ?_, ?_, ?_, ?_, ?_⟩
  · intro sub hmethod
    refine count_asked svc J _ ?_
    rcases hmethod with hmethod | hmethod <;> rw [hmethod] <;> rfl
  · intro call call' packet packet' h h' hoperation hrequest
    exact returned_unique htimed hrequests h h' hoperation hrequest
  · exact (filed_reached htimed hrequests ops (List.prefix_refl ops)).once
  · intro call packet h
    exact ⟨published_of_returned htimed hrequests h,
      (filed_reached htimed hrequests ops (List.prefix_refl ops)).returned call packet h⟩
  · intro σ _ epoch locator
    exact publicationStep svc J (svc.reached J σ.1) σ.2.2 epoch locator
  · intro call packet h
    exact published_content svc J (ops.map Prod.snd) h
  · intro pre clock i elapsed hσ call call' hstarted hidle hwaiting hoperation hother hclock
    exact rejected_of_started htimed hrequests hσ hstarted hidle hwaiting hoperation hother hclock

end RpcService

/-! ## A run -/

namespace EthToy
open RpcService

/-- Thirty-two equal bytes. -/
def fill (b : U8) : ByteArr 32 := ⟨List.replicate 32 b, List.length_replicate⟩

/-- Sixty-four bytes: a key twice. -/
def twice (key : ByteArr 32) : ByteArr 64 :=
  ⟨key.1 ++ key.1, by rw [List.length_append, key.2]⟩

/-- The fields of a key and an epoch, in some order. -/
abbrev Fields : Type :=
  ByteArr 32 ×ₗ String ×ₗ U16 ×ₗ ByteArr 32 ×ₗ ByteArr 32 ×ₗ U64 ×ₗ ByteArr 32 ×ₗ ByteArr 32 ×ₗ
    U64 ×ₗ ByteArr 32 ×ₗ U64

instance : DecidableEq Fields := inferInstance

instance : DecidableEq (DeliveryBinding Fields) := inferInstance

/-- Primitives that keep what they are applied to: a ciphertext is its key, what it is bound
to and its plaintext. -/
def crypto : EthCrypto where
  Key := ByteArr 32 × String × ResponseKeyContext
  Locator := Fields
  Ciphertext := (ByteArr 32 × String × ResponseKeyContext) ×
    (ResponseKeyContext × DeliveryBinding Fields) × SignedResponse
  SigningKey := ByteArr 32
  locatorOrd := inferInstance
  ciphertextEq := inferInstance
  payloadDigest := fun _ _ => fill 0
  requestDigest := fun request => request.capability.secret
  submissionDigest := fun _ _ _ _ => fill 0
  deriveKey := fun secret label context => (secret, label, context)
  mac := fun (secret, label, c) feed epoch =>
    toLex (secret, toLex (label, toLex (c.version, toLex (c.network, toLex (c.service,
      toLex (c.chain, toLex (c.operation, toLex (c.requestDigest, toLex (c.expiresAt,
        toLex (feed, epoch))))))))))
  encrypt := fun key _ aad signed => (key, aad, signed)
  decrypt := fun key _ aad ciphertext =>
    if ciphertext.1 = key ∧ ciphertext.2.1 = aad then some ciphertext.2.2 else none
  ciphertextLen := fun (_, _, signed) => 8 + signed.content.length + (8 + signed.signature.length) + 16
  verifyingKey := id
  sign := fun key _ => twice key
  verifyStrict := fun key _ signature => decide (signature = (twice key).1)

/-- The texts of the run and their values. -/
def texts : List (Bytes × Json) :=
  [(ascii "\x7b\"id\":7,\"jsonrpc\":\"2.0\",\"method\":\"eth_sendRawTransaction\",\"params\":[\"0x01\"]\x7d",
      .object [("id", .ofInt 7), ("jsonrpc", .string "2.0"),
        ("method", .string "eth_sendRawTransaction"), ("params", .array [.string "0x01"])]),
    (ascii "\x7b\"id\":1,\"jsonrpc\":\"2.0\",\"result\":\"0x1\"\x7d",
      .object [("id", .ofInt 1), ("jsonrpc", .string "2.0"), ("result", .string "0x1")]),
    (ascii "\x7b\"id\":7,\"jsonrpc\":\"2.0\",\"result\":\"0x1\"\x7d",
      .object [("id", .ofInt 7), ("jsonrpc", .string "2.0"), ("result", .string "0x1")])]

/-- The text of these values. -/
def text : JsonText where
  write := fun v => ((texts.find? (fun e => e.2 = v)).map Prod.fst).getD []
  parse := fun bytes => (texts.find? (fun e => e.1 = bytes)).map Prod.snd
  parse_depth := by
    intro bytes v h
    obtain ⟨e, he, rfl⟩ := Option.map_eq_some_iff.mp h
    have hall : ∀ e ∈ texts, e.2.depth ≤ recursionLimit := by decide +kernel
    exact hall e (List.mem_of_find?_eq_some he)

/-- A service of one method on one route. -/
def service : RpcService crypto where
  descriptor :=
    { version := 0, network := fill 1, chain := 1, serviceIdentity := fill 2, signingKey := fill 7
      requestKey := fill 8, tag := "provider", backendRoutes := ["execution"]
      limits := ⟨4096, 256, 8, 100, 1000⟩
      feed := ⟨fill 3, 0, 10, 1024, 10⟩
      feedMirrors := [], expiresAt := 2000 }
  forwarder := ⟨1, [("execution", ⟨["eth_sendRawTransaction"]⟩)], 100⟩
  signingKey := fill 7

/-- A request to send the transaction, under one operation. -/
def request (secret : U8) (expiresAt firstEpoch lastEpoch : U64) : RequestEnvelope where
  capability :=
    { secret := fill secret
      context := ⟨0, fill 1, fill 7, 1, fill 4, fill 0, expiresAt⟩
      delivery := ⟨fill 3, firstEpoch, lastEpoch⟩ }
  backendRoute := "execution"
  payload := (texts.map Prod.fst).headD []

/-- A call of `execute` with the request. -/
def call (r : RequestEnvelope) (now : U64) : Call := ⟨r, fill 4, now⟩

/-- The first request, and one that takes its operation over once it has expired. -/
def early : RequestEnvelope := request 10 100 1 9
def late : RequestEnvelope := request 11 200 11 19

/-- The first request is executed, then repeated; the other one is turned away until the
first has expired. -/
def run : List (U64 × ServiceOp) :=
  [(1, .execute (call early 1)), (1, .acquire 0 0), (1, .reserve),
    (2, .send (texts.map Prod.fst)[1]?), (2, .finish), (2, .file 1 ⟨List.replicate 24 0, rfl⟩),
    (50, .execute (call early 50)), (50, .acquire 0 0),
    (90, .execute (call late 90)), (90, .acquire 0 0),
    (100, .execute (call late 100)), (100, .acquire 0 0), (100, .reserve),
    (100, .file 0 ⟨List.replicate 24 1, rfl⟩)]

/-- The transaction they send. -/
def submission : Submission :=
  ⟨1, "execution", "eth_sendRawTransaction", some (.array [.string "0x01"])⟩

theorem run_timed : service.Timed text run := by decide +kernel

theorem run_submissionsApart : SubmissionsApart (service.shown text run) := by
  have hall : ∀ e ∈ service.shown text run, (match e with
      | .sent sub _ | .replied _ sub _ _ => decide (sub = submission)
      | .started _ | .returned .. | .failed .. | .published .. => true) = true := by decide +kernel
  intro sub _ _ sub' _ _ hsent hreplied _
  have hsub := hall _ hsent
  have hsub' := hall _ hreplied
  rw [decide_eq_true_eq] at hsub hsub'
  rw [hsub, hsub']

theorem run_requestsApart : RequestsApart (service.shown text run) := by
  unfold RequestsApart
  decide +kernel

theorem run_repliesReread : RepliesReread text (service.shown text run) := by
  have hall : ∀ e ∈ service.shown text run, (match e with
      | .sent _ (some reply) => decide (text.parse (text.write reply) = some reply)
      | .sent _ none | .replied .. | .started _ | .returned .. | .failed .. | .published .. => true) =
        true := by decide +kernel
  intro sub reply hsent
  have := hall _ hsent
  rwa [decide_eq_true_eq] at this

/-- The transaction is sent once, in two operations that both reply to it, and each of the two
requests has one packet. -/
theorem submissions_and_packets_run :
    (service.shown text run).countP (sends submission) = 1 ∧
      (service.shown text run).countP (publishes (fill 4) early) = 1 ∧
      (service.shown text run).countP (publishes (fill 4) late) = 1 := by
  obtain ⟨hsent, -, -, -, honce, -⟩ := submissions_and_packets run_timed run_submissionsApart
    run_requestsApart run_repliesReread
  refine ⟨le_antisymm (hsent _) ?_, le_antisymm (honce _ _) ?_, le_antisymm (honce _ _) ?_⟩ <;>
    decide +kernel

/-- Once a request has expired another one can take its operation over, and is published too. -/
theorem two_packets_of_one_operation :
    service.Timed text run ∧ SubmissionsApart (service.shown text run) ∧
      RequestsApart (service.shown text run) ∧ RepliesReread text (service.shown text run) ∧
      (service.shown text run).countP (fun e => match e with
        | .published call _ => decide (call.operation = fill 4)
        | .started _ | .returned .. | .failed .. | .sent .. | .replied .. => false) = 2 :=
  ⟨run_timed, run_submissionsApart, run_requestsApart, run_repliesReread, by decide +kernel⟩

end EthToy
end Anymone.Eth
