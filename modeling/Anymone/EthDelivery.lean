import Anymone.EthBoard
import Anymone.EthBroker
import Anymone.EthOperations

/-! # Delivery of replies

A reply is sealed into an epoch that is not open yet, lies in the window the client gave and
closes before the request expires (`sealed_in_time`).  The board serves it in a batch that the
client's reader accepts, and the reader records what was sealed (`response_of_poll`).  The
reader's cursor passes an epoch only once its batch was processed or it is out of retention
(`processed_of_lt_cursor`), and what is recorded was sealed with the operation's own capability
(`recorded_own`).
-/

namespace Anymone.Eth
variable {K : EthCrypto} {svc : RpcService K} {J : JsonText} {feed : FeedDescriptor}

/-! ## Sealing -/

namespace RpcService

/-- The packet is the content sealed for the request. -/
def Sealed (svc : RpcService K) (request : RequestEnvelope) (packet : ReplyPacket K)
    (content : Bytes) : Prop :=
  ∃ nonce now, svc.sealPacket request content nonce now = .ok packet

/-- **A packet is sealed in time**: into an epoch of the window that has not closed when the
call ends and closes before the request expires. -/
theorem sealed_in_time {s : ServiceState K} {clock : U64} {op : ServiceOp}
    (htimed : TimedAt s clock op) {call : Call} {packet : ReplyPacket K}
    (h : .published call packet ∈ (svc.step J s op).2) :
    ∃ content closes, svc.Sealed call.request packet content ∧
      svc.descriptor.feed.closesAt packet.binding.epoch = .ok closes ∧ clock < closes ∧
      closes < call.expiresAt ∧
      call.request.capability.delivery.firstEpoch ≤ packet.binding.epoch ∧
      packet.binding.epoch ≤ call.request.capability.delivery.lastEpoch := by
  have hquiet : ∀ {e : ServiceEvent K}, filing e = false → e ≠ .published call packet := by
    rintro e he rfl
    cases he
  cases operationStep svc J htimed with
  | quiet hrows hactive hout => exact absurd rfl (hquiet (hout _ h))
  | filed call' hnow hnamed hnew hrows hactive hout =>
    rw [hout] at h
    simp at h
  | resumed call' row hnow hnamed hrow hdigest hreply hrows hactive hout =>
    rw [hout] at h
    simp at h
  | replayed call' packet' row hrow hdigest hreply hrows hactive hout =>
    rw [hout] at h
    simp at h
  | published call' packet' hactive content nonce now hnow hsealed hrows hidle hout =>
    rw [hout] at h
    simp only [List.mem_cons, ServiceEvent.published.injEq, reduceCtorEq, List.not_mem_nil,
      or_false] at h
    obtain ⟨rfl, rfl⟩ := h
    obtain ⟨closes, hcloses, hlt, hexp⟩ := clock_lt_closesAt hsealed hnow
    obtain ⟨current, -, -, -, hepoch, hlast, -⟩ := sealPacket_eq_ok hsealed
    refine ⟨content, closes, ⟨nonce, now, hsealed⟩, hcloses, hlt, hexp, ?_, hlast⟩
    rw [Fin.le_def, hepoch]
    exact le_max_right _ _

/-- What is sealed opens under the request's capability, while it has not expired. -/
theorem openResponse_of_sealed (ideal : K.Ideal) {request : RequestEnvelope}
    {packet : ReplyPacket K} {content : Bytes} (h : svc.Sealed request packet content) {later : U64}
    (hlater : later < request.capability.context.expiresAt) :
    request.capability.openResponse packet.binding packet.sealed later = .ok content := by
  obtain ⟨nonce, now, hsealed⟩ := h
  obtain ⟨-, -, -, -, -, -, -, -, -, hseal⟩ := sealPacket_eq_ok hsealed
  exact ResponseCapability.openResponse_sealResponse ideal hseal hlater

/-- **A packet fits into an empty epoch of the feed.** -/
theorem size_of_sealed (ideal : K.Ideal) {start : U64} (hvalid : svc.descriptor.validate start = true)
    {request : RequestEnvelope} {packet : ReplyPacket K} {content : Bytes}
    (h : svc.Sealed request packet content) :
    packet.size + framing ≤ svc.descriptor.limits.maxResponseBytes.val + 512 ∧
      packet.size + framing ≤ svc.descriptor.feed.maxEpochBytes.val := by
  obtain ⟨nonce, now, hsealed⟩ := h
  obtain ⟨-, -, -, -, -, -, -, hlen, -, hseal⟩ := sealPacket_eq_ok hsealed
  have hsize : packet.size = content.length + 200 :=
    ResponseCapability.size_of_sealResponse ideal hseal
  have hmax : svc.descriptor.limits.maxResponseBytes.val + 512 ≤
      svc.descriptor.feed.maxEpochBytes.val := by
    unfold ServiceDescriptor.validate at hvalid
    simp only [Bool.and_eq_true, decide_eq_true_eq] at hvalid
    exact hvalid.1.2
  unfold framing
  omega

end RpcService

/-! ## Recording -/

namespace OperationStore
variable {st st' : OperationStore K} {cap : ResponseCapability} {packet : ReplyPacket K}
  {pending : OrdMap K.Locator (ResponseCapability × Option U32)} {services : List (ByteArr 32 × U32)}

/-- The entry is answered with the packet. -/
def answer (entry : OperationEntry K) (packet : ReplyPacket K) (response : Bytes) :
    OperationEntry K :=
  { entry with response := some response, packet := some packet }

/-- The packet opens under the capability and answers the capability's entry. -/
def Answers (st : OperationStore K) (cap : ResponseCapability) (packet : ReplyPacket K)
    (st' : OperationStore K) : Prop :=
  ∃ response now entry, cap.openResponse packet.binding packet.sealed now = .ok response ∧
    st.operations.get? cap.context.operation = some entry ∧ entry.packet = none ∧
    st' = { st with
      operations := st.operations.insert cap.context.operation (answer entry packet response) }

/-- What is recorded was opened, and answers an operation that was not answered before. -/
theorem answers_of_record {limit : U32} {now : U64}
    (h : st.record J cap packet limit now = .ok st') : st' = st ∨ Answers st cap packet st' := by
  unfold record at h
  cases hopen : cap.openResponse packet.binding packet.sealed now with
  | error e => simp [hopen, orText, bind, Except.bind] at h
  | ok response =>
    simp only [hopen, orText, bind, Except.bind] at h
    split at h
    · cases h
    split at h
    · cases h
    cases hget : st.operations.get? cap.context.operation with
    | none => simp [hget] at h
    | some entry =>
      simp only [hget] at h
      cases hpacket : entry.packet with
      | some existing =>
        simp only [hpacket] at h
        split at h
        · exact Or.inl (Except.ok.inj h).symm
        · cases h
      | none =>
        simp only [hpacket] at h
        exact Or.inr ⟨response, now, entry, hopen, hget, hpacket, (Except.ok.inj h).symm⟩

variable (J pending services) in
/-- A packet of a batch is recorded for the capability under its locator, or for none. -/
theorem answers_of_recordPacket (st : OperationStore K) (packet : ReplyPacket K) (now : U64) :
    st.recordPacket J pending services packet now = st ∨
      ∃ cap limit, pending.get? packet.binding.locator = some (cap, limit) ∧
        Answers st cap packet (st.recordPacket J pending services packet now) := by
  unfold recordPacket
  split
  · exact Or.inl rfl
  · rename_i cap limit hpending
    split
    · exact Or.inl rfl
    · split
      · rename_i st' hrecord
        rcases answers_of_record hrecord with rfl | hans
        · exact Or.inl rfl
        · exact Or.inr ⟨cap, limit, hpending, hans⟩
      · exact Or.inl rfl

/-- What every packet of a batch preserves the batch preserves. -/
theorem recordAll_induction {P : OperationStore K → Prop} {packets : List (ReplyPacket K)}
    (hstep : ∀ st, P st → ∀ packet ∈ packets, ∀ now,
      P (st.recordPacket J pending services packet now)) {st : OperationStore K} (h : P st)
    (clock : Nat → U64) : P (recordAll J pending services st packets clock) := by
  induction packets generalizing st clock with
  | nil => exact h
  | cons packet packets ih =>
    refine ih (fun st hst p hp => hstep st hst p (List.mem_cons_of_mem _ hp)) ?_ _
    exact hstep st h packet (List.mem_cons_self ..) (clock 0)

theorem get?_of_answers (h : Answers st cap packet st') {operation : ByteArr 32}
    {entry' : OperationEntry K} (hget : st'.operations.get? operation = some entry') :
    st.operations.get? operation = some entry' ∨
      operation = cap.context.operation ∧ ∃ response now entry,
        cap.openResponse packet.binding packet.sealed now = .ok response ∧
        st.operations.get? operation = some entry ∧ entry' = answer entry packet response := by
  obtain ⟨response, now, entry, hopen, hentry, -, rfl⟩ := h
  rw [OrdMap.get?_insert] at hget
  split_ifs at hget with hop
  · cases hget
    exact Or.inr ⟨hop, response, now, entry, hopen, hop ▸ hentry, rfl⟩
  · exact Or.inl hget

/-- Every capability that waits has its entry. -/
def Entered (pending : OrdMap K.Locator (ResponseCapability × Option U32))
    (st : OperationStore K) : Prop :=
  ∀ l c, pending.get? l = some c →
    ∃ entry, st.operations.get? c.1.context.operation = some entry ∧ entry.capability = c.1

/-- An entry keeps its capability. -/
theorem exists_of_answers (h : Answers st cap packet st') {operation : ByteArr 32}
    {entry : OperationEntry K} (hget : st.operations.get? operation = some entry) :
    ∃ entry', st'.operations.get? operation = some entry' ∧ entry'.capability = entry.capability ∧
      (entry.packet ≠ none → entry' = entry) := by
  obtain ⟨response, now, before, -, hbefore, hnone, rfl⟩ := h
  rw [OrdMap.get?_insert]
  split_ifs with hop
  · rw [hop, hbefore] at hget
    cases hget
    exact ⟨_, rfl, rfl, fun hne => absurd hnone hne⟩
  · exact ⟨entry, hget, rfl, fun _ => rfl⟩

theorem Entered.of_answers (h : Entered pending st) (hans : Answers st cap packet st') :
    Entered pending st' := by
  intro l c hc
  obtain ⟨entry, hget, hcap⟩ := h l c hc
  obtain ⟨entry', hget', hcap', -⟩ := exists_of_answers hans hget
  exact ⟨entry', hget', hcap'.trans hcap⟩

theorem operationLimits_of_answers (h : Answers st cap packet st') :
    st'.operationLimits = st.operationLimits := by
  obtain ⟨response, now, entry, -, -, -, rfl⟩ := h
  rfl

theorem mem_pending {now : U64} {c : ResponseCapability × Option U32} :
    c ∈ st.pending now ↔ ∃ operation entry, st.operations.get? operation = some entry ∧
      waits entry now = true ∧ c = (entry.capability, st.operationLimits.get? operation) := by
  unfold OperationStore.pending
  rw [List.mem_map]
  constructor
  · rintro ⟨⟨operation, entry⟩, hmem, rfl⟩
    have hget := OrdMap.get?_eq_some_iff.mpr hmem
    rw [OrdMap.get?_retain, Option.filter_eq_some_iff] at hget
    exact ⟨operation, entry, hget.1, hget.2, rfl⟩
  · rintro ⟨operation, entry, hget, hwaits, rfl⟩
    refine ⟨(operation, entry), OrdMap.get?_eq_some_iff.mp ?_, rfl⟩
    rw [OrdMap.get?_retain, hget, Option.filter_some, if_pos hwaits]

/-- A capability under a locator has that locator and was pending. -/
theorem of_get?_locators {epoch : U64} {caps : List (ResponseCapability × Option U32)}
    {l : K.Locator} {c : ResponseCapability × Option U32} {f : ByteArr 32}
    (h : (locators f epoch caps).get? l = some c) :
    c ∈ caps ∧ c.1.delivery.feed = f ∧ c.1.locator K epoch = .ok l := by
  unfold locators at h
  rcases OrdMap.get?_insertAll_cases _ h with h | h
  · simp at h
  · obtain ⟨c', hc', hsome⟩ := List.mem_filterMap.mp h
    split at hsome
    · rename_i hfeed
      split at hsome
      · rename_i l' hl
        cases hsome
        exact ⟨hc', hfeed, hl⟩
      · cases hsome
    · cases hsome

theorem exists_get?_locators {epoch : U64} {caps : List (ResponseCapability × Option U32)}
    {l : K.Locator} {c : ResponseCapability × Option U32} {f : ByteArr 32} (hmem : c ∈ caps)
    (hfeed : c.1.delivery.feed = f) (hl : c.1.locator K epoch = .ok l) :
    ∃ c', (locators f epoch caps).get? l = some c' := by
  rw [← OrdMap.contains_iff]
  unfold locators
  rw [OrdMap.contains_insertAll]
  refine Or.inr ⟨c, List.mem_filterMap.mpr ⟨c, hmem, ?_⟩⟩
  rw [if_pos hfeed, hl]

/-- An operation is entered under a name that is not taken. -/
theorem insert_eq_ok {limit : U32} {now : U64} (h : st.insert cap limit now = .ok st') :
    st.operations.get? cap.context.operation = none ∧
      st' = { st with
        operations := st.operations.insert cap.context.operation ⟨cap, none, none⟩
        operationLimits := st.operationLimits.insert cap.context.operation limit } := by
  unfold insert at h
  dsimp only at h
  split at h
  · cases h
  split at h
  · cases h
  rename_i htaken
  simp only [Bool.or_eq_true, not_or, OrdMap.contains, Bool.not_eq_true, Option.isSome_eq_false_iff,
    Option.isNone_iff_eq_none] at htaken
  exact ⟨htaken.1, (Except.ok.inj h).symm⟩

end OperationStore

/-! ## What a run keeps -/

namespace Broker
open OperationStore

/-- The packet was in a batch that the reader was given. -/
def Fetched (ops : List (BrokerOp K)) (packet : ReplyPacket K) : Prop :=
  ∃ clock batch services, .poll clock (some batch) services ∈ ops ∧ packet ∈ batch.responses

/-- The operations beside what the run did: each is under its own name with its own capability,
and what it was answered with was fetched and opened. -/
structure Recorded (ops : List (BrokerOp K)) (shown : List BrokerEvent) (st : OperationStore K) :
    Prop where
  keyed : ∀ operation entry, st.operations.get? operation = some entry →
    entry.capability.context.operation = operation
  uploaded : ∀ d request, .uploaded d request ∈ shown →
    st.operationLimits.get? request.capability.context.operation = some d.limits.maxResponseBytes ∧
      ∃ entry, st.operations.get? request.capability.context.operation = some entry ∧
        entry.capability = request.capability
  opened : ∀ operation entry, st.operations.get? operation = some entry →
    entry.packet = none ∧ entry.response = none ∨
      ∃ packet response now, entry.packet = some packet ∧ entry.response = some response ∧
        Fetched ops packet ∧
        entry.capability.openResponse packet.binding packet.sealed now = .ok response

namespace Recorded
variable {ops : List (BrokerOp K)} {shown : List BrokerEvent} {st st' : OperationStore K}

theorem mono (h : Recorded ops shown st) {ops' : List (BrokerOp K)} (hsub : ops ⊆ ops') :
    Recorded ops' shown st := by
  refine ⟨h.keyed, h.uploaded, fun operation entry hget => (h.opened operation entry hget).imp_right ?_⟩
  rintro ⟨packet, response, now, hp, hr, ⟨clock, batch, services, hmem, hin⟩, hopen⟩
  exact ⟨packet, response, now, hp, hr, ⟨clock, batch, services, hsub hmem, hin⟩, hopen⟩

/-- Recording a fetched packet for a capability that has its entry keeps the operations. -/
theorem of_answers (h : Recorded ops shown st) {cap : ResponseCapability} {packet : ReplyPacket K}
    (hans : Answers st cap packet st') (hfetched : Fetched ops packet)
    (hentry : ∃ entry, st.operations.get? cap.context.operation = some entry ∧
      entry.capability = cap) : Recorded ops shown st' := by
  refine ⟨?_, ?_, ?_⟩
  · intro operation entry hget
    rcases get?_of_answers hans hget with hget | ⟨rfl, _, _, before, -, hbefore, rfl⟩
    · exact h.keyed operation entry hget
    · exact h.keyed _ before hbefore
  · intro d request he
    obtain ⟨hlimit, entry, hget, hcap⟩ := h.uploaded d request he
    obtain ⟨entry', hget', hcap', -⟩ := exists_of_answers hans hget
    rw [operationLimits_of_answers hans]
    exact ⟨hlimit, entry', hget', hcap'.trans hcap⟩
  · intro operation entry hget
    rcases get?_of_answers hans hget with hget | ⟨rfl, response, now, before, hopen, hbefore, rfl⟩
    · exact h.opened operation entry hget
    · obtain ⟨entry, hentry, hcap⟩ := hentry
      rw [hbefore] at hentry
      cases hentry
      refine Or.inr ⟨packet, response, now, rfl, rfl, hfetched, ?_⟩
      rw [← hcap] at hopen
      exact hopen

theorem insert (h : Recorded ops shown st) {cap : ResponseCapability} {limit : U32} {now : U64}
    (hins : st.insert cap limit now = .ok st') {d : ServiceDescriptor} {request : RequestEnvelope}
    (hcap : request.capability = cap) (hlimit : d.limits.maxResponseBytes = limit) :
    Recorded ops (shown ++ [.uploaded d request]) st' := by
  obtain ⟨hnew, rfl⟩ := insert_eq_ok hins
  have hfresh : ∀ operation entry, st.operations.get? operation = some entry →
      operation ≠ cap.context.operation := by
    rintro operation entry hget rfl
    rw [hnew] at hget
    cases hget
  refine ⟨?_, ?_, ?_⟩
  · intro operation entry hget
    rw [OrdMap.get?_insert] at hget
    split_ifs at hget with hop
    · cases hget
      exact hop.symm
    · exact h.keyed operation entry hget
  · intro d' request' he
    rcases List.mem_append.mp he with he | he
    · obtain ⟨hlimit', entry, hget, hcap'⟩ := h.uploaded d' request' he
      have hne := hfresh _ _ hget
      rw [OrdMap.get?_insert, if_neg hne, OrdMap.get?_insert, if_neg hne]
      exact ⟨hlimit', entry, hget, hcap'⟩
    · cases List.mem_singleton.mp he
      subst hcap hlimit
      rw [OrdMap.get?_insert, if_pos rfl, OrdMap.get?_insert, if_pos rfl]
      exact ⟨rfl, _, rfl, rfl⟩
  · intro operation entry hget
    rw [OrdMap.get?_insert] at hget
    split_ifs at hget with hop
    · cases hget
      exact Or.inl ⟨rfl, rfl⟩
    · exact h.opened operation entry hget

/-- Recording a batch keeps the operations. -/
theorem recordAll (h : Recorded ops shown st) (f : ByteArr 32) (epoch now : U64)
    (services : List (ByteArr 32 × U32)) {packets : List (ReplyPacket K)}
    (hfetched : ∀ packet ∈ packets, Fetched ops packet) (clock : Nat → U64) :
    Recorded ops shown
      (OperationStore.recordAll J (locators f epoch (st.pending now)) services st packets clock) := by
  have hentered : Entered (locators f epoch (st.pending now)) st := by
    intro l c hc
    obtain ⟨hmem, -, -⟩ := of_get?_locators hc
    obtain ⟨operation, entry, hget, -, rfl⟩ := mem_pending.mp hmem
    rw [h.keyed operation entry hget]
    exact ⟨entry, hget, rfl⟩
  refine (recordAll_induction (P := fun st' => Recorded ops shown st' ∧
    Entered (locators f epoch (st.pending now)) st') ?_ ⟨h, hentered⟩ clock).1
  intro st' ⟨hst', hent⟩ packet hpacket now'
  rcases answers_of_recordPacket J (locators f epoch (st.pending now)) services st' packet now' with
    hsame | ⟨cap, limit, hpending, hans⟩
  · rw [hsame]
    exact ⟨hst', hent⟩
  · exact ⟨hst'.of_answers hans (hfetched packet hpacket) (hent _ _ hpending), hent.of_answers hans⟩

end Recorded

variable (J feed) in
/-- What a round of the loop does: nothing to the store, or it processes the batch it was
given. -/
theorem poll_cases (s : BrokerState K) (session : Session) (clock : Nat → U64)
    (fetched : Option (EpochBatch K)) (services : List (ByteArr 32 × U32)) :
    ((poll J feed s session clock fetched services).1.store = s.store ∧
      ((poll J feed s session clock fetched services).1.session = none ∨
        (poll J feed s session clock fetched services).1.session = s.session) ∧
      (poll J feed s session clock fetched services).2 = []) ∨
    ∃ current batch, feed.epoch (clock 1) = .ok current ∧ current ≠ 0 ∧ fetched = some batch ∧
      batch.validate feed (fetchEpoch feed session.next current) (clock 2) = .ok () ∧
      poll J feed s session clock fetched services =
        (⟨(OperationStore.recordAll J
            (locators feed.feed (fetchEpoch feed session.next current) (s.store.pending (clock 3)))
            services s.store batch.responses (fun n => clock (n + 4))).advance feed.feed
              (fetchEpoch feed session.next current),
          some { session with next := (fetchEpoch feed session.next current).saturatingAdd 1 }⟩,
          [.processed (fetchEpoch feed session.next current)]) := by
  unfold poll
  split
  · exact Or.inl ⟨rfl, Or.inl rfl, rfl⟩
  cases hcur : feed.epoch (clock 1) with
  | error e => exact Or.inl ⟨rfl, Or.inl rfl, rfl⟩
  | ok current =>
    dsimp only
    by_cases hzero : current = 0
    · rw [if_pos hzero]
      exact Or.inl ⟨rfl, Or.inr rfl, rfl⟩
    · rw [if_neg hzero]
      cases fetched with
      | none => exact Or.inl ⟨rfl, Or.inr rfl, rfl⟩
      | some batch =>
        dsimp only
        cases hvalid : batch.validate feed (fetchEpoch feed session.next current) (clock 2) with
        | error e => exact Or.inl ⟨rfl, Or.inr rfl, rfl⟩
        | ok u => exact Or.inr ⟨current, batch, rfl, hzero, rfl, hvalid, rfl⟩

theorem recorded_after (J : JsonText) (feed : FeedDescriptor) (ops : List (BrokerOp K)) :
    Recorded ops (events J feed ops) (after J feed ops).store := by
  induction ops using List.reverseRecOn with
  | nil =>
    refine ⟨?_, ?_, ?_⟩ <;>
      simp [events, after, Trace.run, OperationStore.new]
  | append_singleton ops op ih =>
    rw [after_concat, events_concat]
    have hmono := ih.mono (List.subset_append_left ops [op])
    cases op with
    | rpc d route payload operation secret clock =>
      unfold step
      cases hsession : (after J feed ops).session with
      | none => simpa [hsession] using hmono
      | some session =>
        cases hrequest : rpcRequest K d route payload operation secret session.stopAt clock with
        | error e => simpa [hsession, hrequest] using hmono
        | ok request =>
          cases hins : (after J feed ops).store.insert request.capability d.limits.maxResponseBytes
              (clock 4) with
          | error e => simpa [hsession, hrequest, hins] using hmono
          | ok store =>
            simp only [hrequest, hins]
            exact hmono.insert hins rfl rfl
    | start now stopAt =>
      unfold step
      cases hcur : feed.epoch now with
      | error e => simpa [hcur] using hmono
      | ok current => simpa [hcur] using hmono
    | poll clock fetched services =>
      unfold step
      cases hsession : (after J feed ops).session with
      | none => simpa [hsession] using hmono
      | some session =>
        dsimp only
        rcases poll_cases J feed (after J feed ops) session clock fetched services with
          ⟨hstore, -, hout⟩ | ⟨current, batch, -, -, rfl, -, hpoll⟩
        · rw [hstore, hout, List.append_nil]
          exact hmono
        · rw [hpoll]
          have hfetched : ∀ packet ∈ batch.responses,
              Fetched (ops ++ [.poll clock (some batch) services]) packet :=
            fun packet hp => ⟨clock, batch, services, by simp, hp⟩
          -- the packets of the batch are filed one after the other
          have hall := hmono.recordAll (J := J) feed.feed (fetchEpoch feed session.next current)
            (clock 3) services hfetched (fun n => clock (n + 4))
          refine ⟨hall.keyed, ?_, hall.opened⟩
          intro d request he
          exact hall.uploaded d request (by simpa using he)
    | stop =>
      unfold step
      simpa using hmono

/-! ## Delivery -/

/-- Recording a packet that opens answers an operation that waits. -/
theorem record_eq_ok {st : OperationStore K} {cap : ResponseCapability} {packet : ReplyPacket K}
    {content : Bytes} {limit : U32} {now : U64} {entry : OperationEntry K}
    (hopen : cap.openResponse packet.binding packet.sealed now = .ok content)
    (hlen : content.length ≤ limit.val) (hjson : (J.parseOption content).isSome = true)
    (hget : st.operations.get? cap.context.operation = some entry) (hnone : entry.packet = none) :
    st.record J cap packet limit now = .ok { st with
      operations := st.operations.insert cap.context.operation
        (OperationStore.answer entry packet content) } := by
  have hparse : (J.parseOption content).isNone = false := by
    cases hp : J.parseOption content with
    | none => rw [hp] at hjson; cases hjson
    | some v => rfl
  unfold record
  simp only [hopen, orText, bind, Except.bind, not_lt.mpr hlen, if_false, hparse,
    Bool.false_eq_true, hget, hnone]
  rfl

variable {pending : OrdMap K.Locator (ResponseCapability × Option U32)}
  {services : List (ByteArr 32 × U32)}

/-- An answer stays. -/
theorem response_recordAll {packets : List (ReplyPacket K)} {operation : ByteArr 32}
    {entry : OperationEntry K} {st : OperationStore K}
    (hget : st.operations.get? operation = some entry) (hanswered : entry.packet ≠ none)
    (clock : Nat → U64) :
    (OperationStore.recordAll J pending services st packets clock).operations.get? operation =
      some entry := by
  refine recordAll_induction (P := fun st => st.operations.get? operation = some entry) ?_ hget clock
  intro st hst packet hp now
  rcases answers_of_recordPacket J pending services st packet now with hsame | ⟨cap, limit, -, hans⟩
  · rw [hsame]
    exact hst
  · obtain ⟨entry', hget', -, hsame⟩ := exists_of_answers hans hst
    rw [hget', hsame hanswered]

/-- **A batch with a packet for an operation that waits answers it.**  No other packet of the
batch is for the operation, so the induction over the packets before it leaves its entry. -/
theorem response_of_recordAll {cap : ResponseCapability} {packet : ReplyPacket K}
    {content : Bytes} {limit : U32}
    (hpending : pending.get? packet.binding.locator = some (cap, some limit))
    (hlen : content.length ≤ limit.val) (hjson : (J.parseOption content).isSome = true) :
    ∀ {packets : List (ReplyPacket K)} {st : OperationStore K} {clock : Nat → U64}
      {entry : OperationEntry K}, packet ∈ packets →
      (∀ p ∈ packets, p ≠ packet → ∀ c, pending.get? p.binding.locator = some c →
        c.1.context.operation ≠ cap.context.operation) →
      (∀ n, cap.openResponse packet.binding packet.sealed (clock n) = .ok content) →
      st.operations.get? cap.context.operation = some entry → entry.packet = none →
      (OperationStore.recordAll J pending services st packets clock).response cap.context.operation =
        some content
  | [], _, _, _, hmem, _, _, _, _ => by cases hmem
  | p :: packets, st, clock, entry, hmem, hothers, hopen, hget, hnone => by
      unfold OperationStore.recordAll
      by_cases hp : p = packet
      · subst hp
        have hrecord := record_eq_ok (J := J) (hopen 0) hlen hjson hget hnone
        have hstep : st.recordPacket J pending services p (clock 0) = { st with
            operations := st.operations.insert cap.context.operation
              (OperationStore.answer entry p content) } := by
          unfold recordPacket
          simp only [hpending, Option.some_or, hrecord]
        have hget' : (st.recordPacket J pending services p (clock 0)).operations.get?
            cap.context.operation = some (OperationStore.answer entry p content) := by
          rw [hstep, OrdMap.get?_insert, if_pos rfl]
        unfold response
        rw [response_recordAll hget' (by simp [OperationStore.answer])]
        rfl
      · have hget' : (st.recordPacket J pending services p (clock 0)).operations.get?
            cap.context.operation = some entry := by
          rcases answers_of_recordPacket J pending services st p (clock 0) with
            hsame | ⟨cap', limit', hpending', response, now, before, -, -, -, hst⟩
          · rw [hsame]
            exact hget
          · rw [hst, OrdMap.get?_insert, if_neg]
            · exact hget
            · exact (hothers p (List.mem_cons_self ..) hp _ hpending').symm
        refine response_of_recordAll hpending hlen hjson ?_ ?_ (fun n => hopen (n + 1)) hget' hnone
        · exact (List.mem_cons.mp hmem).resolve_left (Ne.symm hp)
        · exact fun q hq => hothers q (List.mem_cons_of_mem _ hq)

/-- The round with these readings of the clock fetches the epoch. -/
def Fetches (feed : FeedDescriptor) (s : BrokerState K) (clock : Nat → U64) (epoch : U64) : Prop :=
  ∃ session current, s.session = some session ∧ clock 0 < session.stopAt ∧
    feed.epoch (clock 1) = .ok current ∧ current ≠ 0 ∧
    fetchEpoch feed session.next current = epoch

/-- A round that fetches an epoch and is given a valid batch of it processes the batch. -/
theorem step_poll {s : BrokerState K} {clock : Nat → U64} {epoch : U64} {batch : EpochBatch K}
    (hfetch : Fetches feed s clock epoch) (hvalid : batch.validate feed epoch (clock 2) = .ok ()) :
    (step J feed s (.poll clock (some batch) services)).2 = [.processed epoch] ∧
      (step J feed s (.poll clock (some batch) services)).1.store =
        (OperationStore.recordAll J (locators feed.feed epoch (s.store.pending (clock 3))) services
          s.store batch.responses (fun n => clock (n + 4))).advance feed.feed epoch := by
  obtain ⟨session, current, hsession, hstop, hcur, hzero, rfl⟩ := hfetch
  unfold step
  simp only [hsession, poll, not_le.mpr hstop, if_false, hcur, hzero, hvalid]
  exact ⟨trivial, trivial⟩

/-- Whether two pending capabilities of one operation are one: they are the entry's. -/
theorem eq_of_pending {ops : List (BrokerOp K)} {shown : List BrokerEvent} {st : OperationStore K}
    (h : Recorded ops shown st) {now : U64} {c : ResponseCapability × Option U32}
    {operation : ByteArr 32} {entry : OperationEntry K} (hc : c ∈ st.pending now)
    (hget : st.operations.get? operation = some entry) (hop : c.1.context.operation = operation) :
    c = (entry.capability, st.operationLimits.get? operation) := by
  obtain ⟨operation', entry', hget', -, rfl⟩ := mem_pending.mp hc
  have hsame := h.keyed operation' entry' hget'
  rw [hop] at hsame
  subst hsame
  rw [hget] at hget'
  cases hget'
  rfl

/-- **A batch that carries the reply to a request answers the request's operation.** -/
theorem response_of_poll (ideal : K.Ideal) {ops : List (BrokerOp K)} {d : ServiceDescriptor}
    {request : RequestEnvelope} (hup : .uploaded d request ∈ events J feed ops)
    {clock : Nat → U64} {batch : EpochBatch K} {packet : ReplyPacket K} {content : Bytes}
    (hfetch : Fetches feed (after J feed ops) clock packet.binding.epoch)
    (hvalid : batch.validate feed packet.binding.epoch (clock 2) = .ok ())
    (hmem : packet ∈ batch.responses) (hfeed : request.capability.delivery.feed = feed.feed)
    (hlocator : request.capability.locator K packet.binding.epoch = .ok packet.binding.locator)
    (hopen : ∀ later < request.capability.context.expiresAt,
      request.capability.openResponse packet.binding packet.sealed later = .ok content)
    (hclock : ∀ n, clock n < request.capability.context.expiresAt)
    (hlen : content.length ≤ d.limits.maxResponseBytes.val)
    (hjson : (J.parseOption content).isSome = true)
    (hown : ∀ p, Fetched ops p → ∀ now r, request.capability.openResponse p.binding p.sealed now =
      .ok r → p = packet) :
    (step J feed (after J feed ops) (.poll clock (some batch) services)).1.store.response
      request.capability.context.operation = some content := by
  have hrecorded := recorded_after J feed ops
  obtain ⟨hlimit, entry, hget, hcap⟩ := hrecorded.uploaded d request hup
  rw [(step_poll hfetch hvalid).2]
  show OperationStore.response (OperationStore.recordAll ..) _ = _
  rcases hrecorded.opened _ entry hget with ⟨hnone, hwaiting⟩ | ⟨p, r, now, hp, hr, hfetched, hopened⟩
  · have hwaits : waits entry (clock 3) = true := by
      unfold waits
      rw [hcap, hwaiting, decide_eq_true (hclock 3)]
      rfl
    have hc : (request.capability, some d.limits.maxResponseBytes) ∈
        (after J feed ops).store.pending (clock 3) :=
      mem_pending.mpr ⟨_, entry, hget, hwaits, by rw [hcap, hlimit]⟩
    -- whatever stands under the locator is the request's own capability
    have hpending : (locators feed.feed packet.binding.epoch
        ((after J feed ops).store.pending (clock 3))).get? packet.binding.locator =
          some (request.capability, some d.limits.maxResponseBytes) := by
      obtain ⟨c', hc'⟩ := exists_get?_locators hc hfeed hlocator
      obtain ⟨hmem', -, hlocator'⟩ := of_get?_locators hc'
      obtain ⟨-, hcontext, -⟩ := ResponseCapability.eq_of_locator ideal hlocator' hlocator
      rw [hc', eq_of_pending hrecorded hmem' hget (by rw [hcontext]), hcap, hlimit]
    refine response_of_recordAll hpending hlen hjson hmem ?_ (fun n => hopen _ (hclock _)) hget hnone
    intro q hq hne c hc hop
    obtain ⟨hmem', -, hlocator'⟩ := of_get?_locators hc
    rw [eq_of_pending hrecorded hmem' hget hop, hcap, hlocator] at hlocator'
    obtain ⟨-, -, -, -, -, hnodup⟩ := EpochBatch.validate_eq_ok.mp hvalid
    exact hne (List.inj_on_of_nodup_map hnodup hq hmem (Except.ok.inj hlocator').symm)
  · rw [hcap] at hopened
    have hsame := hown p hfetched now r hopened
    subst hsame
    obtain ⟨haad, -⟩ := ResponseCapability.openResponse_eq_ok hopened
    obtain ⟨-, hnow, -⟩ := ResponseCapability.aad_eq_ok.mp haad
    rw [hopen now hnow] at hopened
    cases hopened
    unfold response
    rw [response_recordAll hget (by rw [hp]; simp)]
    exact hr

/-- **What is recorded for an operation was sealed with the operation's own capability**, for
the feed and the epoch of the packet, and is what was sealed. -/
theorem recorded_own (ideal : K.Ideal) {ops : List (BrokerOp K)} {operation : ByteArr 32}
    {entry : OperationEntry K} {packet : ReplyPacket K} {response : Bytes}
    (hget : (after J feed ops).store.operations.get? operation = some entry)
    (hpacket : entry.packet = some packet) (hresponse : entry.response = some response)
    {cap : ResponseCapability} {binding : K.Binding} {content : Bytes} {signer : K.SigningKey}
    {nonce : ByteArr 24} {now : U64}
    (hseal : cap.sealResponse binding content signer nonce now = .ok packet.sealed) :
    cap.secret = entry.capability.secret ∧ cap.context = entry.capability.context ∧
      cap.context.operation = operation ∧ binding = packet.binding ∧
      packet.binding.feed = entry.capability.delivery.feed ∧
      entry.capability.locator K packet.binding.epoch = .ok packet.binding.locator ∧
      response = content := by
  have hrecorded := recorded_after J feed ops
  rcases hrecorded.opened operation entry hget with ⟨hnone, -⟩ | ⟨p, r, now', hp, hr, -, hopened⟩
  · rw [hpacket] at hnone
    cases hnone
  · rw [hpacket] at hp
    rw [hresponse] at hr
    cases hp
    cases hr
    obtain ⟨hsecret, hcontext, hbinding, hcontent⟩ :=
      ResponseCapability.eq_of_openResponse ideal hseal hopened
    obtain ⟨haad, -⟩ := ResponseCapability.openResponse_eq_ok hopened
    obtain ⟨-, -, hfeed, hlocator, -⟩ := ResponseCapability.aad_eq_ok.mp haad
    refine ⟨hsecret.symm, hcontext.symm, ?_, hbinding.symm, hfeed.symm, hlocator, hcontent⟩
    rw [← hcontext]
    exact hrecorded.keyed operation entry hget

/-! ## The cursor -/

/-- The reading by which the reader goes in a step. -/
def readerClock : BrokerOp K → Option U64
  | .start now _ => some now
  | .poll clock _ _ => some (clock 1)
  | .rpc .. | .stop => none

/-- The reader's last reading of the clock. -/
def lastReading (ops : List (BrokerOp K)) : U64 := ((ops.filterMap readerClock).getLast?).getD 0

/-- The epoch is out of retention at a clock. -/
def Past (feed : FeedDescriptor) (epoch clock : U64) : Prop :=
  ∃ current, feed.epoch clock = .ok current ∧ epoch.val + feed.retainedEpochs.val < current.val

/-- The epoch was processed, or it is too late to. -/
def Covered (feed : FeedDescriptor) (shown : List BrokerEvent) (clock epoch : U64) : Prop :=
  .processed epoch ∈ shown ∨ Past feed epoch clock

theorem Past.later {epoch clock clock' : U64} (h : Past feed epoch clock) (hle : clock ≤ clock') :
    Past feed epoch clock' := by
  obtain ⟨current, hcur, hpast⟩ := h
  obtain ⟨current', hcur'⟩ := FeedDescriptor.exists_epoch_of_le hle hcur
  have hmono : current.val ≤ current'.val := FeedDescriptor.epoch_mono hle hcur hcur'
  exact ⟨current', hcur', by omega⟩

theorem Covered.later {shown shown' : List BrokerEvent} {epoch clock clock' : U64}
    (h : Covered feed shown clock epoch) (hle : clock ≤ clock') (hsub : shown ⊆ shown') :
    Covered feed shown' clock' epoch :=
  h.imp (fun h => hsub h) (fun h => h.later hle)

/-- What lies behind the cursor and the session's next epoch is covered. -/
structure Followed (feed : FeedDescriptor) (clock : U64) (s : BrokerState K)
    (shown : List BrokerEvent) : Prop where
  cursor : ∀ next, s.store.cursor feed.feed = some next → ∀ e < next, Covered feed shown clock e
  session : ∀ session, s.session = some session → ∀ e < session.next, Covered feed shown clock e

theorem cursors_recordAll (st : OperationStore K) (packets : List (ReplyPacket K))
    (clock : Nat → U64) :
    (OperationStore.recordAll J pending services st packets clock).cursors = st.cursors := by
  refine recordAll_induction (P := fun st' => st'.cursors = st.cursors) ?_ rfl clock
  intro st' hst' packet _ now
  rcases answers_of_recordPacket J pending services st' packet now with
    hsame | ⟨cap, limit, -, response, now', entry, -, -, -, hans⟩
  · rw [hsame]
    exact hst'
  · rw [hans]
    exact hst'

/-- **Before the epoch that is fetched every epoch is covered**, if every one before the
session's next is: what the reader skips is out of retention. -/
theorem covered_of_lt_fetchEpoch {shown : List BrokerEvent} {clock next current e : U64}
    (hcur : feed.epoch clock = .ok current) (hnext : ∀ e < next, Covered feed shown clock e)
    (he : e < fetchEpoch feed next current) : Covered feed shown clock e := by
  by_cases hlt : e < next
  · exact hnext e hlt
  · refine Or.inr ⟨current, hcur, ?_⟩
    have hret : feed.retainedEpochs.val ≠ 0 := by
      have hv := (FeedDescriptor.epoch_eq_ok.mp hcur).1
      unfold FeedDescriptor.validate at hv
      simp only [Bool.and_eq_true, decide_eq_true_eq, ne_eq] at hv
      exact fun hz => hv.1.2 (Fin.ext hz)
    unfold fetchEpoch at he
    rcases lt_max_iff.mp he with he | he
    · exact absurd (lt_min_iff.mp he).1 hlt
    · rw [Fin.lt_def, U64.val_saturatingSub] at he
      omega

theorem Followed.step {s : BrokerState K} {shown : List BrokerEvent} {clock : U64}
    (h : Followed feed clock s shown) (op : BrokerOp K)
    (hclock : clock ≤ (readerClock op).getD clock) :
    Followed feed ((readerClock op).getD clock) (step J feed s op).1
      (shown ++ (Broker.step J feed s op).2) := by
  have hkeep : ∀ {e} (out : List BrokerEvent), Covered feed shown clock e →
      Covered feed (shown ++ out) ((readerClock op).getD clock) e :=
    fun out hc => hc.later hclock (List.subset_append_left _ out)
  -- a step that keeps the cursor and does not move the session forward
  have hquiet : ∀ (s' : BrokerState K) (out : List BrokerEvent), s'.store.cursors = s.store.cursors →
      (s'.session = none ∨ s'.session = s.session) →
      Followed feed ((readerClock op).getD clock) s' (shown ++ out) := by
    intro s' out hcursors hsession
    refine ⟨?_, ?_⟩
    · intro next hnext e he
      unfold OperationStore.cursor at hnext
      rw [hcursors] at hnext
      exact hkeep out (h.cursor next hnext e he)
    · intro session hsome e he
      rcases hsession with hsession | hsession
      · rw [hsession] at hsome
        cases hsome
      · exact hkeep out (h.session session (hsession ▸ hsome) e he)
  cases op with
  | rpc d route payload operation secret clock' =>
    unfold Broker.step
    dsimp only
    split
    · exact hquiet _ _ rfl (Or.inr rfl)
    · split
      · exact hquiet _ _ rfl (Or.inr rfl)
      · split
        · exact hquiet _ _ rfl (Or.inr rfl)
        · rename_i store hins
          obtain ⟨-, rfl⟩ := insert_eq_ok hins
          exact hquiet _ _ rfl (Or.inr rfl)
  | start now stopAt =>
    unfold Broker.step
    dsimp only
    cases hcur : feed.epoch now with
    | error e => exact hquiet _ _ rfl (Or.inl rfl)
    | ok current =>
      refine ⟨fun next hnext e he => hkeep [] (h.cursor next hnext e he), ?_⟩
      intro session hsome e he
      cases hsome
      have hold : e < current.saturatingSub feed.retainedEpochs.val →
          Covered feed (shown ++ []) now e := by
        intro hlt
        rw [Fin.lt_def, U64.val_saturatingSub] at hlt
        exact Or.inr ⟨current, hcur, by omega⟩
      rcases lt_max_iff.mp he with he | he
      · cases hcursor : s.store.cursor feed.feed with
        | none =>
          rw [hcursor] at he
          exact hold he
        | some next =>
          rw [hcursor] at he
          exact hkeep [] (h.cursor next hcursor e he)
      · exact hold he
  | poll clock' fetched services =>
    unfold Broker.step
    dsimp only
    cases hsession : s.session with
    | none => exact hquiet _ _ rfl (Or.inr rfl)
    | some session =>
      dsimp only
      rcases poll_cases J feed s session clock' fetched services with
        ⟨hstore, hsame, hout⟩ | ⟨current, batch, hcur, -, -, -, hpoll⟩
      · exact hquiet _ _ (by rw [hstore]) hsame
      · rw [hpoll]
        dsimp only [readerClock, Option.getD_some]
        have hbehind : ∀ e < fetchEpoch feed session.next current,
            Covered feed (shown ++ [.processed (fetchEpoch feed session.next current)]) (clock' 1) e := by
          intro e he
          refine covered_of_lt_fetchEpoch hcur ?_ he
          exact fun e he => hkeep _ (h.session session hsession e he)
        have hpassed : ∀ e < (fetchEpoch feed session.next current).saturatingAdd 1,
            Covered feed (shown ++ [.processed (fetchEpoch feed session.next current)]) (clock' 1) e := by
          intro e he
          rw [Fin.lt_def, U64.val_saturatingAdd] at he
          rcases Nat.lt_or_ge e.val (fetchEpoch feed session.next current).val with hlt | hge
          · exact hbehind e hlt
          · have hthis : e = fetchEpoch feed session.next current := Fin.ext (by omega)
            rw [hthis]
            exact Or.inl (by simp)
        refine ⟨?_, ?_⟩
        · intro next hnext e he
          unfold OperationStore.cursor OperationStore.advance at hnext
          dsimp only at hnext
          rw [cursors_recordAll, OrdMap.get?_insert, if_pos rfl] at hnext
          cases hnext
          cases hold : s.store.cursors.get? feed.feed with
          | none =>
            rw [hold] at he
            exact hpassed e he
          | some next =>
            rw [hold] at he
            rcases lt_max_iff.mp he with he | he
            · exact hpassed e he
            · exact hkeep _ (h.cursor next hold e he)
        · intro session' hsome e he
          cases hsome
          exact hpassed e he
  | stop =>
    unfold Broker.step
    exact hquiet _ _ rfl (Or.inl rfl)

theorem lastReading_concat (l : List (BrokerOp K)) (op : BrokerOp K) :
    lastReading (l ++ [op]) = (readerClock op).getD (lastReading l) := by
  unfold lastReading
  rw [List.filterMap_append]
  cases hop : readerClock op with
  | none => simp [hop]
  | some now => simp [hop]

variable (J feed) in
theorem followed_after {ops : List (BrokerOp K)}
    (hordered : (ops.filterMap readerClock).Pairwise (· ≤ ·)) :
    Followed feed (lastReading ops) (after J feed ops) (events J feed ops) := by
  induction ops using List.reverseRecOn with
  | nil =>
    refine ⟨?_, ?_⟩ <;>
      simp [after, Trace.run, OperationStore.new, OperationStore.cursor]
  | append_singleton ops op ih =>
    rw [List.filterMap_append, List.pairwise_append] at hordered
    obtain ⟨hops, -, hlater⟩ := hordered
    have hclock : lastReading ops ≤ (readerClock op).getD (lastReading ops) := by
      cases hop : readerClock op with
      | none => exact le_rfl
      | some now =>
        unfold lastReading
        cases hlast : (ops.filterMap readerClock).getLast? with
        | none => exact Fin.zero_le _
        | some before => exact hlater before (List.mem_of_getLast? hlast) now (by simp [hop])
    rw [after_concat, events_concat, lastReading_concat]
    exact (ih hops).step op hclock

/-- **The cursor does not pass an epoch that is retained without its batch.** -/
theorem processed_of_lt_cursor {ops : List (BrokerOp K)}
    (hordered : (ops.filterMap readerClock).Pairwise (· ≤ ·)) {next current e : U64}
    (hcursor : (after J feed ops).store.cursor feed.feed = some next) (he : e < next)
    (hcur : feed.epoch (lastReading ops) = .ok current) (hret : feed.Retained e current) :
    .processed e ∈ events J feed ops := by
  rcases (followed_after J feed hordered).cursor next hcursor e he with h | ⟨current', hcur', hpast⟩
  · exact h
  · rw [hcur] at hcur'
    cases hcur'
    have := hret.2
    omega

end Broker

/-! ## End to end -/

/-- What the reader was given and opens under the request's capability the service sealed for
the request: nobody else knows the capability. -/
def OnlySealed (svc : RpcService K) (J : JsonText) (ops : List (U64 × ServiceOp))
    (request : RequestEnvelope) (pre : List (BrokerOp K)) : Prop :=
  ∀ packet, Broker.Fetched pre packet → ∀ now content,
    request.capability.openResponse packet.binding packet.sealed now = .ok content →
    ∃ call, .published call packet ∈ svc.shown J ops ∧ call.request = request

/-- A reply that the board serves answers its operation. -/
theorem response_of_served (ideal : K.Ideal) {ops : List (U64 × ServiceOp)}
    (htimed : svc.Timed J ops) (happart : RpcService.RequestsApart (svc.shown J ops))
    {pre : List (BrokerOp K)} {request : RequestEnvelope} {call : Call} {packet : ReplyPacket K}
    {content : Bytes}
    (hup : .uploaded svc.descriptor request ∈ Broker.events J svc.descriptor.feed pre)
    (hpub : .published call packet ∈ svc.shown J ops) (hcall : call.request = request)
    (hsealed : svc.Sealed request packet content) (honly : OnlySealed svc J ops request pre)
    (hjson : (J.parseOption content).isSome = true) {bops : List (BoardOp K)} {served : U64}
    {board : ResponseBoard K} {batch : EpochBatch K}
    (hserved : (ResponseBoard.after svc.descriptor.feed bops).epoch packet.binding.epoch served =
      .ok (board, batch)) (hmem : packet ∈ batch.responses) {clock : Nat → U64}
    {services : List (ByteArr 32 × U32)} {current : U64}
    (hfetch : Broker.Fetches svc.descriptor.feed (Broker.after J svc.descriptor.feed pre) clock
      packet.binding.epoch)
    (hcur : svc.descriptor.feed.epoch (clock 2) = .ok current)
    (hret : svc.descriptor.feed.Retained packet.binding.epoch current)
    (hclock : ∀ n, clock n < request.capability.context.expiresAt) :
    (Broker.step J svc.descriptor.feed (Broker.after J svc.descriptor.feed pre)
        (.poll clock (some batch) services)).2 = [.processed packet.binding.epoch] ∧
      (Broker.step J svc.descriptor.feed (Broker.after J svc.descriptor.feed pre)
        (.poll clock (some batch) services)).1.store.response
          request.capability.context.operation = some content := by
  obtain ⟨hsound, hdesc⟩ := ResponseBoard.sound_after (K := K) svc.descriptor.feed bops
  have hvalid : batch.validate svc.descriptor.feed packet.binding.epoch (clock 2) = .ok () := by
    have hserves := ResponseBoard.validate_of_epoch hsound hserved (by rw [hdesc]; exact hcur)
      (by rw [hdesc]; exact hret)
    rwa [hdesc] at hserves
  obtain ⟨nonce, now, hseal⟩ := id hsealed
  obtain ⟨-, -, -, -, -, -, -, hlen, hpfeed, hsealing⟩ := RpcService.sealPacket_eq_ok hseal
  obtain ⟨-, -, haad, -⟩ := ResponseCapability.sealResponse_eq_ok.mp hsealing
  obtain ⟨-, -, hfeed, hlocator, -⟩ := ResponseCapability.aad_eq_ok.mp haad
  refine ⟨(Broker.step_poll hfetch hvalid).1, ?_⟩
  refine Broker.response_of_poll ideal hup hfetch hvalid hmem (hfeed.trans hpfeed) hlocator
    (fun later hlater => RpcService.openResponse_of_sealed ideal hsealed hlater) hclock hlen hjson ?_
  -- a request has one packet
  intro p hfetched now r hopen
  obtain ⟨call', hpub', hcall'⟩ := honly p hfetched now r hopen
  have hfiled := RpcService.filed_reached htimed happart ops (List.prefix_refl ops)
  have hname := RpcService.operation_of_published htimed hpub
  have hname' := RpcService.operation_of_published htimed hpub'
  rw [hcall] at hname
  rw [hcall'] at hname'
  have := RpcService.eq_of_countP_le_one
    (hfiled.once request.capability.context.operation request) hpub' hpub
    (by simp [RpcService.publishes, hcall', hname']) (by simp [RpcService.publishes, hcall, hname])
  cases this
  rfl

/-- **End-to-end delivery of replies.** -/
theorem reply_delivered (ideal : K.Ideal) {start : U64}
    (hvalid : svc.descriptor.validate start = true) {ops : List (U64 × ServiceOp)}
    (htimed : svc.Timed J ops) (happart : RpcService.RequestsApart (svc.shown J ops)) :
    (∀ pre clock op, (pre, clock, op) ∈ Trace.steps ops → ∀ call packet,
      .published call packet ∈ (svc.step J (svc.reached J pre) op).2 →
      ∃ content closes, svc.Sealed call.request packet content ∧
        svc.descriptor.feed.closesAt packet.binding.epoch = .ok closes ∧ clock < closes ∧
        closes < call.request.capability.context.expiresAt ∧
        call.request.capability.delivery.firstEpoch ≤ packet.binding.epoch ∧
        packet.binding.epoch ≤ call.request.capability.delivery.lastEpoch ∧
        packet.size + framing ≤ svc.descriptor.limits.maxResponseBytes.val + 512 ∧
        packet.size + framing ≤ svc.descriptor.feed.maxEpochBytes.val) ∧
    (∀ call packet, .returned call packet ∈ svc.shown J ops →
      ∃ call', .published call' packet ∈ svc.shown J ops ∧ call'.operation = call.operation ∧
        call'.request = call.request) ∧
    (∀ (pre : List (BrokerOp K)) request call packet content,
      .uploaded svc.descriptor request ∈ Broker.events J svc.descriptor.feed pre →
      .published call packet ∈ svc.shown J ops → call.request = request →
      svc.Sealed request packet content → OnlySealed svc J ops request pre →
      (J.parseOption content).isSome = true →
      ∀ bops served board batch, (ResponseBoard.after svc.descriptor.feed bops).epoch
          packet.binding.epoch served = .ok (board, batch) → packet ∈ batch.responses →
      ∀ clock services current, Broker.Fetches svc.descriptor.feed
          (Broker.after J svc.descriptor.feed pre) clock packet.binding.epoch →
        svc.descriptor.feed.epoch (clock 2) = .ok current →
        svc.descriptor.feed.Retained packet.binding.epoch current →
        (∀ n, clock n < request.capability.context.expiresAt) →
        (Broker.step J svc.descriptor.feed (Broker.after J svc.descriptor.feed pre)
            (.poll clock (some batch) services)).2 = [.processed packet.binding.epoch] ∧
          (Broker.step J svc.descriptor.feed (Broker.after J svc.descriptor.feed pre)
            (.poll clock (some batch) services)).1.store.response
              request.capability.context.operation = some content) ∧
    (∀ rops : List (BrokerOp K), (rops.filterMap Broker.readerClock).Pairwise (· ≤ ·) →
      ∀ next current,
        (Broker.after J svc.descriptor.feed rops).store.cursor svc.descriptor.feed.feed = some next →
        svc.descriptor.feed.epoch (Broker.lastReading rops) = .ok current →
        ∀ e < next, svc.descriptor.feed.Retained e current →
          .processed e ∈ Broker.events J svc.descriptor.feed rops) ∧
    (∀ (rops : List (BrokerOp K)) operation entry packet response,
      (Broker.after J svc.descriptor.feed rops).store.operations.get? operation = some entry →
      entry.packet = some packet → entry.response = some response →
      ∀ (cap : ResponseCapability) binding content signer nonce now,
        cap.sealResponse binding content signer nonce now = .ok packet.sealed →
        cap.secret = entry.capability.secret ∧ cap.context = entry.capability.context ∧
          cap.context.operation = operation ∧ binding = packet.binding ∧
          packet.binding.feed = entry.capability.delivery.feed ∧
          entry.capability.locator K packet.binding.epoch = .ok packet.binding.locator ∧
          response = content) := by
  refine ⟨?_, ?_, ?_, ?_, ?_⟩
  · intro pre clock op hσ call packet hpub
    obtain ⟨content, closes, hsealed, hcloses, hlt, hexp, hfirst, hlast⟩ :=
      RpcService.sealed_in_time (htimed.2 _ hσ) hpub
    obtain ⟨hsize, hfits⟩ := RpcService.size_of_sealed ideal hvalid hsealed
    exact ⟨content, closes, hsealed, hcloses, hlt, hexp, hfirst, hlast, hsize, hfits⟩
  · exact (RpcService.filed_reached htimed happart ops (List.prefix_refl ops)).returned
  · intro pre request call packet content hup hpub hcall hsealed honly hjson bops served board batch
      hserved hmem clock services current hfetch hcur hret hclock
    exact response_of_served ideal htimed happart hup hpub hcall hsealed honly hjson hserved hmem
      hfetch hcur hret hclock
  · intro rops hordered next current hcursor hcur e he hret
    exact Broker.processed_of_lt_cursor hordered hcursor he hcur hret
  · intro rops operation entry packet response hget hpacket hresponse cap binding content signer
      nonce now hseal
    exact Broker.recorded_own ideal hget hpacket hresponse hseal

/-! ## A delivery -/

namespace EthToy

theorem crypto_ideal : crypto.Ideal where
  derive_inj := by
    intro s s' l l' c c' h
    simpa [crypto] using h
  mac_inj := by
    rintro ⟨s, l, c⟩ ⟨s', l', c'⟩ f f' e e' h
    simp only [crypto, toLex_inj, Prod.mk.injEq] at h
    obtain ⟨hs, hl, hv, hn, hsv, hc, ho, hr, he, hf, hep⟩ := h
    cases c
    cases c'
    dsimp only at hv hn hsv hc ho hr he
    subst hs hl hv hn hsv hc ho hr he hf hep
    exact ⟨rfl, rfl, rfl⟩
  decrypt_encrypt := by
    intro k n a m
    simp only [crypto]
    rw [if_pos ⟨rfl, rfl⟩]
  decrypt_bound := by
    intro k k' n n' a a' m m' h
    simp only [crypto] at h
    split at h
    · rename_i hsame
      exact ⟨hsame.1.symm, hsame.2.symm⟩
    · cases h
  ciphertextLen_encrypt := by
    intro k n a m
    rfl
  verify_sign := by
    intro sk m
    exact decide_eq_true rfl

/-- The reply to the first request, and the packet it is sealed into. -/
def reply : Bytes := ((texts.map Prod.fst)[2]?).getD []

def packet : ReplyPacket crypto :=
  let capability := early.capability
  let binding : crypto.Binding := ⟨fill 3, 1, crypto.mac (capability.derive crypto "lookup") (fill 3) 1⟩
  let nonce : ByteArr 24 := .filled 24 0
  ⟨binding, nonce, crypto.encrypt (capability.derive crypto "encryption") nonce
    (capability.context, binding) ⟨reply, (twice (fill 7)).1⟩⟩

theorem packet_sealed : service.Sealed early packet reply :=
  ⟨.filled 24 0, 2, by decide +kernel⟩

/-- The event is the reply to a call. -/
def publishedTo (c : Call) : ServiceEvent crypto → Bool
  | .published c' p => decide (c' = c ∧ p = packet)
  | .started _ | .returned .. | .failed .. | .sent .. | .replied .. => false

def returnedTo (c : Call) : ServiceEvent crypto → Bool
  | .returned c' p => decide (c' = c ∧ p = packet)
  | .started _ | .published .. | .failed .. | .sent .. | .replied .. => false

theorem packet_published : .published (call early 1) packet ∈ service.shown text run := by
  have hany : (service.shown text run).any (publishedTo (call early 1)) = true := by decide +kernel
  obtain ⟨e, he, hpub⟩ := List.any_eq_true.mp hany
  cases e with
  | published c p =>
    simp only [publishedTo, decide_eq_true_eq] at hpub
    obtain ⟨rfl, rfl⟩ := hpub
    exact he
  | _ => cases hpub

theorem packet_returned : .returned (call early 50) packet ∈ service.shown text run := by
  have hany : (service.shown text run).any (returnedTo (call early 50)) = true := by decide +kernel
  obtain ⟨e, he, hret⟩ := List.any_eq_true.mp hany
  cases e with
  | returned c p =>
    simp only [returnedTo, decide_eq_true_eq] at hret
    obtain ⟨rfl, rfl⟩ := hret
    exact he
  | _ => cases hret

/-- The reader is started, the request is made, and the batch of the epoch before is empty. -/
def reading : List (BrokerOp crypto) :=
  [.start 1 100,
    .rpc service.descriptor "execution" early.payload (fill 4) (fill 10) (fun _ => 1),
    .poll (fun _ => 12) (some ⟨fill 3, 0, []⟩) []]

/-- The packet is posted while its epoch is open. -/
def posting : List (BoardOp crypto) := [.enqueue "provider" 1000 1 packet 15]

/-- The batch of the packet's epoch. -/
def batch : EpochBatch crypto := ⟨fill 3, 1, [packet]⟩

/-- Once its epoch has closed the packet is served and the operation answered. -/
theorem reply_delivered_run :
    (Broker.step text service.descriptor.feed (Broker.after text service.descriptor.feed reading)
      (.poll (fun _ => 25) (some batch) [])).1.store.response (fill 4) = some reply := by
  have hup : .uploaded service.descriptor early ∈
      Broker.events text service.descriptor.feed reading := by decide +kernel
  have honly : OnlySealed service text run early reading := by
    rintro p ⟨clock, b, services, hpoll, hp⟩
    simp only [reading, List.mem_cons, reduceCtorEq, BrokerOp.poll.injEq, Option.some.injEq,
      List.not_mem_nil, or_false, false_or] at hpoll
    obtain ⟨-, rfl, -⟩ := hpoll
    cases hp
  obtain ⟨-, -, hdelivered, -⟩ := @reply_delivered crypto service text crypto_ideal 1
    (by decide +kernel) run run_timed run_requestsApart
  have hserved : ((ResponseBoard.after service.descriptor.feed posting).epoch 1 25).map Prod.snd =
      .ok batch := by decide +kernel
  cases hboard : (ResponseBoard.after service.descriptor.feed posting).epoch 1 25 with
  | error e =>
    rw [hboard] at hserved
    cases hserved
  | ok b =>
    obtain ⟨board, b⟩ := b
    rw [hboard] at hserved
    cases hserved
    have hfetch : Broker.Fetches service.descriptor.feed
        (Broker.after text service.descriptor.feed reading) (fun _ => 25) 1 :=
      ⟨⟨1, 100⟩, 2, by rfl, by decide +kernel, by decide +kernel, by decide +kernel,
        by decide +kernel⟩
    exact (hdelivered reading early (call early 1) packet reply hup packet_published rfl
      packet_sealed honly (by decide +kernel) posting 25 board batch hboard (by simp [batch])
      (fun _ => 25) [] 2 hfetch (by decide +kernel) (by decide +kernel)
      (fun _ => by decide +kernel)).2

/-- A call that is repeated returns the packet it returned before, whose epoch may have closed
by then. -/
theorem retry_returns_closed_epoch :
    rpcRequest crypto service.descriptor "execution" early.payload (fill 4) (fill 10) 100
        (fun _ => 1) = .ok early ∧
      service.Timed text run ∧ RpcService.RequestsApart (service.shown text run) ∧
      .returned (call early 50) packet ∈ service.shown text run ∧
      service.descriptor.feed.closesAt packet.binding.epoch = .ok 20 ∧
      (20 : U64) ≤ (call early 50).now :=
  ⟨by decide +kernel, run_timed, run_requestsApart, packet_returned, by decide +kernel,
    by decide +kernel⟩

end EthToy
end Anymone.Eth
