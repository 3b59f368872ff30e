import Anymone.PanetiereWire
import Anymone.Trace
import Mathlib.Data.List.Perm.Basic

/-! # Polling the gateway

The gateway files what the channel carries into a ring and keeps a frontier, the highest round
it has seen.  Messages and rounds reach it over two streams in any order, and a request for
messages reads the ring in one lock section and the frontier in another.

A poller asks from one past the last frontier it was told.  `Meets` is the condition on a push
under which it will be polled: no request of the poller is between its two sections, the round
is not behind the poller's cursor, nor, before it has one, behind the front of the ring.  Each
push that meets it is received exactly once and no other ever is (`received_iff_meets`).
-/

namespace Anymone.Gateway

/-- `usize::MAX`. -/
def usizeMax : Nat := 18446744073709551615

/-- `Message`: `len`, `data` and `text` are read off the payload. -/
structure Message where
  seq : Nat
  round : Round
  payload : Bytes
  deriving DecidableEq

/-- `Store`. -/
structure Store where
  capacity : U64
  seq : Nat
  msgs : List Message
  frontier : Option Round

/-- `Range`. -/
structure Range where
  lo : Nat
  hi : Nat
  truncated : Bool
  msgs : List Message

namespace Store

/-- `Store::new`. -/
def new (capacity : U64) : Store := ⟨max capacity 1, 0, [], none⟩

variable (s : Store)

/-- The frontier once a round is seen. -/
def raised (round : Round) : Option Round := some ((s.frontier.map (max · round)).getD round)

/-- `push`: the oldest messages over the capacity are dropped. -/
def push (round : Round) (payload : Bytes) : Store :=
  let msgs := s.msgs ++ [⟨s.seq, round, payload⟩]
  { s with
    seq := s.seq + 1
    msgs := msgs.drop (msgs.length - s.capacity.val)
    frontier := s.raised round }

/-- `observe_round`. -/
def observeRound (round : Round) : Store := { s with frontier := s.raised round }

/-- `earliest`. -/
def earliest : Option Round := s.msgs.head?.map Message.round

/-- `range`. -/
def range (lo hi limit : Nat) : Range :=
  let lo := if lo = 0 then (s.earliest.map Fin.val).getD 0 else lo
  let hi := if hi = 0 then (s.frontier.map Fin.val).getD 0 else hi
  let found := s.msgs.filter (fun m => decide (lo ≤ m.round.val) && decide (m.round.val ≤ hi))
  ⟨lo, hi, decide (limit < found.length), found.take limit⟩

end Store

/-- A poller: what it asks from, what the first section of its request under way read, and what
it has received. -/
structure Poller where
  cursor : Nat
  pending : Option (List Message)
  received : List Message

/-- The gateway's store and its pollers. -/
structure State (ι : Type) where
  store : Store
  pollers : ι → Poller

/-- What can happen, one lock section each. -/
inductive Op (ι : Type) where
  /-- `gateway_loop` takes a message from the pipe. -/
  | push (round : Round) (payload : Bytes)
  /-- `gateway_loop` takes a `RoundDecoded`. -/
  | observe (round : Round)
  /-- `messages` reads the range, from the poller's cursor, to the frontier, without limit. -/
  | range (p : ι)
  /-- `messages` reads `last_round`, and the reply goes out. -/
  | last (p : ι)

variable {ι : Type} [DecidableEq ι]

/-- What a poller would be handed now. -/
def visible (store : Store) (cursor : Nat) : List Message := (store.range cursor 0 usizeMax).msgs

/-- One step.  A poller makes one request at a time. -/
def step (s : State ι) : Op ι → State ι
  | .push round payload => { s with store := s.store.push round payload }
  | .observe round => { s with store := s.store.observeRound round }
  | .range p =>
      let poller := s.pollers p
      match poller.pending with
      | some _ => s
      | none => { s with
          pollers := Function.update s.pollers p
            { poller with pending := some (visible s.store poller.cursor) } }
  | .last p =>
      let poller := s.pollers p
      match poller.pending with
      | none => s
      | some msgs => { s with
          pollers := Function.update s.pollers p
            { cursor := (s.store.frontier.map (fun f => f.val + 1)).getD poller.cursor
              pending := none
              received := poller.received ++ msgs } }

/-- A new gateway, polled from 0. -/
def init (capacity : U64) : State ι := ⟨.new capacity, fun _ => ⟨0, none, []⟩⟩

/-- The state after a list of steps. -/
def after (capacity : U64) (ops : List (Op ι)) : State ι := Trace.run (init capacity) step ops

@[simp] theorem after_concat (capacity : U64) (ops : List (Op ι)) (op : Op ι) :
    after capacity (ops ++ [op]) = step (after capacity ops) op :=
  Trace.run_concat ..

/-- The poller will be handed a message of this round. -/
def Meets (p : ι) (s : State ι) (round : Round) : Prop :=
  (s.pollers p).pending.isNone = true ∧ (s.pollers p).cursor ≤ round.val ∧
    ((s.pollers p).cursor = 0 → s.store.earliest.all (fun e => decide (e ≤ round)) = true)

instance (p : ι) (s : State ι) (round : Round) : Decidable (Meets p s round) :=
  inferInstanceAs (Decidable (_ ∧ _ ∧ (_ → _)))

/-- The messages a step pushes in a state where `ok`. -/
def pushedIn (ok : State ι → Round → Bool) (s : State ι) : Op ι → List Message
  | .push round payload => if ok s round then [⟨s.store.seq, round, payload⟩] else []
  | .observe _ | .range _ | .last _ => []

/-- The messages pushed in states where `ok`. -/
def pushedWhen (ok : State ι → Round → Bool) (capacity : U64) (ops : List (Op ι)) : List Message :=
  (Trace.steps ops).flatMap (fun σ => pushedIn ok (after capacity σ.1) σ.2)

/-- Every message ever pushed. -/
def pushed (capacity : U64) (ops : List (Op ι)) : List Message :=
  pushedWhen (fun _ _ => true) capacity ops

theorem pushedWhen_concat (ok : State ι → Round → Bool) (capacity : U64) (ops : List (Op ι))
    (op : Op ι) : pushedWhen ok capacity (ops ++ [op]) =
      pushedWhen ok capacity ops ++ pushedIn ok (after capacity ops) op := by
  unfold pushedWhen
  rw [Trace.steps_concat, List.flatMap_append, List.flatMap_singleton]

theorem pushed_concat (capacity : U64) (ops : List (Op ι)) (op : Op ι) :
    pushed capacity (ops ++ [op]) =
      pushed capacity ops ++ pushedIn (fun _ _ => true) (after capacity ops) op :=
  pushedWhen_concat ..

/-! ## What is visible -/

namespace Store
variable {s : Store}

theorem le_raised (round : Round) : ∃ f, s.raised round = some f ∧ round ≤ f ∧
    ∀ g, s.frontier = some g → g ≤ f := by
  unfold raised
  cases hf : s.frontier with
  | none => exact ⟨round, rfl, le_rfl, by simp⟩
  | some g =>
    refine ⟨max g round, rfl, le_max_right .., ?_⟩
    rintro g' ⟨⟩
    exact le_max_left ..

/-- The frontier covers what the ring holds, and the ring has evicted nothing so far. -/
structure Covers (s : Store) : Prop where
  room : s.msgs.length ≤ s.capacity.val
  covered : ∀ m ∈ s.msgs, ∃ f, s.frontier = some f ∧ m.round ≤ f

/-- What is at or past `lo`; an open lower end is the front of the ring. -/
def since (s : Store) (lo : Nat) : List Message :=
  s.msgs.filter (fun m =>
    decide ((if lo = 0 then (s.earliest.map Fin.val).getD 0 else lo) ≤ m.round.val))

/-- The frontier cuts nothing off. -/
theorem Covers.visible_eq (h : s.Covers) (cursor : Nat) : visible s cursor = s.since cursor := by
  have hle : (s.since cursor).length ≤ usizeMax := by
    have hcap := s.capacity.isLt
    have := h.room
    unfold usizeMax
    refine (List.length_filter_le ..).trans ?_
    omega
  have hfound : s.msgs.filter (fun m =>
      decide ((if cursor = 0 then (s.earliest.map Fin.val).getD 0 else cursor) ≤ m.round.val) &&
        decide (m.round.val ≤ (s.frontier.map Fin.val).getD 0)) = s.since cursor := by
    refine List.filter_congr (fun m hm => ?_)
    obtain ⟨f, hf, hle⟩ := h.covered m hm
    have hle : m.round.val ≤ f.val := hle
    simp [hf, hle]
  unfold visible range
  dsimp only
  rw [if_pos rfl, hfound, List.take_of_length_le hle]

theorem Covers.observeRound (h : s.Covers) (round : Round) : (s.observeRound round).Covers := by
  refine ⟨h.room, fun m hm => ?_⟩
  obtain ⟨f, hf, hle⟩ := h.covered m hm
  obtain ⟨f', hf', -, hmono⟩ := le_raised (s := s) round
  exact ⟨f', hf', hle.trans (hmono f hf)⟩

/-- With room in the ring a push appends. -/
theorem Covers.push_msgs {round : Round} {payload : Bytes}
    (hroom : s.msgs.length < s.capacity.val) :
    (s.push round payload).msgs = s.msgs ++ [⟨s.seq, round, payload⟩] := by
  unfold push
  dsimp only
  rw [List.length_append, List.length_singleton, Nat.sub_eq_zero_of_le hroom, List.drop_zero]

theorem Covers.push (h : s.Covers) {round : Round} {payload : Bytes}
    (hroom : s.msgs.length < s.capacity.val) : (s.push round payload).Covers := by
  obtain ⟨f', hf', hround, hmono⟩ := le_raised (s := s) round
  refine ⟨?_, fun m hm => ⟨f', hf', ?_⟩⟩
  · rw [push_msgs hroom, List.length_append, List.length_singleton]
    exact hroom
  · rw [push_msgs hroom] at hm
    rcases List.mem_append.mp hm with hm | hm
    · obtain ⟨f, hf, hle⟩ := h.covered m hm
      exact hle.trans (hmono f hf)
    · obtain rfl := List.mem_singleton.mp hm
      exact hround

/-- Past the frontier there is nothing. -/
theorem Covers.since_past (h : s.Covers) (cursor : Nat) :
    s.since ((s.frontier.map (fun f => f.val + 1)).getD cursor) = [] := by
  refine List.filter_eq_nil_iff.mpr (fun m hm => ?_)
  obtain ⟨f, hf, hle⟩ := h.covered m hm
  have hle : m.round.val ≤ f.val := hle
  rw [hf, Option.map_some, Option.getD_some, if_neg (Nat.succ_ne_zero _), decide_eq_true_eq]
  omega

/-- **What a push adds to what is visible.** -/
theorem since_push {round : Round} {payload : Bytes} (hroom : s.msgs.length < s.capacity.val)
    (cursor : Nat) : (s.push round payload).since cursor = s.since cursor ++
      if cursor ≤ round.val ∧ (cursor = 0 → s.earliest.all (fun e => decide (e ≤ round)) = true)
        then [⟨s.seq, round, payload⟩] else [] := by
  have hmsgs : (s.push round payload).msgs = s.msgs ++ [⟨s.seq, round, payload⟩] :=
    Covers.push_msgs hroom
  unfold since earliest
  rw [hmsgs, List.filter_append]
  by_cases hcursor : cursor = 0
  · subst hcursor
    cases hhead : s.msgs with
    | nil => simp
    | cons m rest =>
      have hle : decide (m.round.val ≤ round.val) = decide (m.round ≤ round) := rfl
      simp only [List.cons_append, List.head?_cons, Option.map_some, Option.getD_some, if_pos,
        Option.all_some, Nat.zero_le, true_and, forall_const, List.filter_singleton, hle,
        Bool.cond_eq_ite]
  · have hif : ∀ n : Nat, (if cursor = 0 then n else cursor) = cursor := fun n => if_neg hcursor
    have hopen : (cursor = 0 → s.earliest.all (fun e => decide (e ≤ round)) = true) :=
      fun h => absurd h hcursor
    simp only [hif, List.filter_singleton, Bool.cond_eq_ite, decide_eq_true_eq]
    simp only [earliest] at hopen
    by_cases hround : cursor ≤ round.val
    · rw [if_pos hround, if_pos ⟨hround, hopen⟩]
    · rw [if_neg hround, if_neg (fun h => hround h.1)]

end Store

/-! ## One step -/

/-- What the poller is still to be handed: the reply under way, or what is past its cursor. -/
def State.toCome (s : State ι) (p : ι) : List Message :=
  (s.pollers p).pending.getD (s.store.since (s.pollers p).cursor)

/-- What the poller has and is still to be handed. -/
def State.handed (s : State ι) (p : ι) : List Message := (s.pollers p).received ++ s.toCome p

/-- The messages that meet the poller. -/
def met (p : ι) (capacity : U64) (ops : List (Op ι)) : List Message :=
  pushedWhen (fun s round => decide (Meets p s round)) capacity ops

variable {s : State ι} {p : ι}

theorem handed_push {round : Round} {payload : Bytes}
    (hroom : s.store.msgs.length < s.store.capacity.val) :
    (step s (.push round payload)).handed p = s.handed p ++
      pushedIn (fun s round => decide (Meets p s round)) s (.push round payload) := by
  unfold State.handed State.toCome step pushedIn Meets
  dsimp only
  rw [List.append_assoc]
  congr 1
  rcases Option.eq_none_or_eq_some (s.pollers p).pending with hpending | ⟨msgs, hpending⟩
  · simp only [hpending, Option.getD_none, Store.since_push hroom, Option.isNone_none,
      decide_eq_true_eq, true_and]
  · simp [hpending]

theorem handed_observe (round : Round) : (step s (.observe round)).handed p = s.handed p := rfl

/-- The first section of a request reads what is to come. -/
theorem handed_range (hcovers : s.store.Covers) (q : ι) :
    (step s (.range q)).handed p = s.handed p := by
  cases hpending : (s.pollers q).pending with
  | some msgs => simp [step, hpending]
  | none =>
    by_cases hq : p = q
    · subst hq
      simp [State.handed, State.toCome, step, hpending, hcovers.visible_eq]
    · simp [State.handed, State.toCome, step, hpending, Function.update_of_ne hq]

/-- The second section hands out the reply, and moves the cursor past all there is. -/
theorem handed_last (hcovers : s.store.Covers) (q : ι) :
    (step s (.last q)).handed p = s.handed p := by
  cases hpending : (s.pollers q).pending with
  | none => simp [step, hpending]
  | some msgs =>
    by_cases hq : p = q
    · subst hq
      simp [State.handed, State.toCome, step, hpending, hcovers.since_past]
    · simp [State.handed, State.toCome, step, hpending, Function.update_of_ne hq]

/-! ## A whole run -/

/-- What holds of a run in which nothing was evicted. -/
structure Tracks (p : ι) (capacity : U64) (ops : List (Op ι)) : Prop where
  capacity_eq : (after capacity ops).store.capacity = max capacity 1
  covers : (after capacity ops).store.Covers
  filed : (after capacity ops).store.msgs = pushed capacity ops
  handed : (after capacity ops).handed p = met p capacity ops

/-- The request reads the store and leaves it. -/
theorem store_range (s : State ι) (q : ι) : (step s (.range q)).store = s.store := by
  unfold step
  cases hq : (s.pollers q).pending <;> simp [hq]

theorem store_last (s : State ι) (q : ι) : (step s (.last q)).store = s.store := by
  unfold step
  cases hq : (s.pollers q).pending <;> simp [hq]

section Step
variable {capacity : U64} {ops : List (Op ι)}

/-- A step that files nothing. -/
theorem Tracks.concat_quiet {op : Op ι} (h : Tracks p capacity ops)
    (hquiet : ∀ ok, pushedIn ok (after capacity ops) op = [])
    (hcapacity : (step (after capacity ops) op).store.capacity =
      (after capacity ops).store.capacity)
    (hmsgs : (step (after capacity ops) op).store.msgs = (after capacity ops).store.msgs)
    (hcovers : (step (after capacity ops) op).store.Covers)
    (hhanded : (step (after capacity ops) op).handed p = (after capacity ops).handed p) :
    Tracks p capacity (ops ++ [op]) := by
  have hsame : ∀ ok, pushedWhen ok capacity (ops ++ [op]) = pushedWhen ok capacity ops := by
    intro ok
    rw [pushedWhen_concat, hquiet, List.append_nil]
  refine ⟨?_, ?_, ?_, ?_⟩
  · rw [after_concat, hcapacity, h.capacity_eq]
  · rw [after_concat]
    exact hcovers
  · rw [after_concat, hmsgs, h.filed]
    exact (hsame _).symm
  · rw [after_concat, hhanded, h.handed]
    exact (hsame _).symm

/-- A push into a ring with room. -/
theorem Tracks.concat_push (h : Tracks p capacity ops) {round : Round} {payload : Bytes}
    (hroom : (pushed capacity ops).length < (max capacity 1).val) :
    Tracks p capacity (ops ++ [.push round payload]) := by
  have hlt : (after capacity ops).store.msgs.length < (after capacity ops).store.capacity.val := by
    rw [h.capacity_eq, h.filed]
    exact hroom
  refine ⟨?_, ?_, ?_, ?_⟩
  · rw [after_concat]
    exact h.capacity_eq
  · rw [after_concat]
    exact h.covers.push hlt
  · rw [after_concat, pushed_concat]
    exact (Store.Covers.push_msgs hlt).trans (congrArg (· ++ _) h.filed)
  · rw [after_concat, handed_push hlt, h.handed, met, met, pushedWhen_concat]

/-- **A step keeps what a run keeps**, as long as it evicts nothing. -/
theorem Tracks.concat {op : Op ι} (h : Tracks p capacity ops)
    (hroom : (pushed capacity (ops ++ [op])).length ≤ (max capacity 1).val) :
    Tracks p capacity (ops ++ [op]) := by
  cases op with
  | push round payload =>
    refine h.concat_push ?_
    rw [pushed_concat, List.length_append] at hroom
    exact hroom
  | observe round =>
    exact h.concat_quiet (fun _ => rfl) rfl rfl (h.covers.observeRound round)
      (handed_observe round)
  | range q =>
    refine h.concat_quiet (fun _ => rfl) ?_ ?_ ?_ (handed_range h.covers q)
    · rw [store_range]
    · rw [store_range]
    · rw [store_range]
      exact h.covers
  | last q =>
    refine h.concat_quiet (fun _ => rfl) ?_ ?_ ?_ (handed_last h.covers q)
    · rw [store_last]
    · rw [store_last]
    · rw [store_last]
      exact h.covers

/-- A run that evicts nothing. -/
theorem tracks : ∀ ops : List (Op ι), (pushed capacity ops).length ≤ (max capacity 1).val →
    Tracks p capacity ops := by
  intro ops
  induction ops using List.reverseRecOn with
  | nil =>
    intro _
    exact ⟨rfl, ⟨Nat.zero_le _, fun m hm => absurd hm (List.not_mem_nil)⟩, rfl, rfl⟩
  | append_singleton ops op ih =>
    intro hroom
    refine (ih (le_trans ?_ hroom)).concat hroom
    rw [pushed_concat, List.length_append]
    exact Nat.le_add_right ..

end Step

/-! ## What a poller receives -/

/-- A poll leaves nothing to come. -/
theorem received_polled {s : State ι} (hcovers : s.store.Covers) (p : ι) :
    ((step (step s (.range p)) (.last p)).pollers p).received = s.handed p := by
  rcases Option.eq_none_or_eq_some (s.pollers p).pending with hpending | ⟨msgs, hpending⟩
  · simp [step, State.handed, State.toCome, hpending, hcovers.visible_eq]
  · simp [step, State.handed, State.toCome, hpending]

/-- The round a step files a message under. -/
def Op.files : Op ι → Option Round
  | .push round _ => some round
  | .observe _ | .range _ | .last _ => none

omit [DecidableEq ι] in
theorem pushedIn_sublist (ok : State ι → Round → Bool) (s : State ι) (op : Op ι) :
    List.Sublist (pushedIn ok s op) (pushedIn (fun _ _ => true) s op) := by
  cases op with
  | push round payload =>
    cases hok : ok s round with
    | true => simp [pushedIn, hok]
    | false => simp [pushedIn, hok]
  | observe | range | last => exact List.Sublist.refl _

omit [DecidableEq ι] in
theorem pushedIn_eq_iff (ok : State ι → Round → Bool) (s : State ι) (op : Op ι) :
    pushedIn ok s op = pushedIn (fun _ _ => true) s op ↔ ∀ round ∈ op.files, ok s round = true := by
  cases op with
  | push round payload => simp [pushedIn, Op.files]
  | observe | range | last => simp [pushedIn, Op.files]

theorem pushedWhen_sublist (ok : State ι → Round → Bool) (capacity : U64) (ops : List (Op ι)) :
    List.Sublist (pushedWhen ok capacity ops) (pushed capacity ops) := by
  induction ops using List.reverseRecOn with
  | nil => exact List.Sublist.refl _
  | append_singleton ops op ih =>
    rw [pushed_concat, pushedWhen_concat]
    exact ih.append (pushedIn_sublist ..)

/-- The messages filed while `ok` are all the messages when it held at each filing. -/
theorem pushedWhen_eq_iff (ok : State ι → Round → Bool) (capacity : U64) (ops : List (Op ι)) :
    pushedWhen ok capacity ops = pushed capacity ops ↔
      ∀ σ ∈ Trace.steps ops, ∀ round ∈ σ.2.files, ok (after capacity σ.1) round = true := by
  induction ops using List.reverseRecOn with
  | nil => simp [pushed, pushedWhen, Trace.steps]
  | append_singleton ops op ih =>
    have hpre := (pushedWhen_sublist ok capacity ops).length_le
    rw [Trace.steps_concat, List.forall_mem_append, List.forall_mem_singleton, ← ih,
      ← pushedIn_eq_iff, pushed_concat, pushedWhen_concat]
    constructor
    · intro h
      have hlen := congrArg List.length h
      have hlast := (pushedIn_sublist ok (after capacity ops) op).length_le
      rw [List.length_append, List.length_append] at hlen
      exact List.append_inj h (by omega)
    · rintro ⟨h, hop⟩
      rw [h, hop]

/-- Every message has a number of its own. -/
theorem pushed_seq (capacity : U64) (ops : List (Op ι)) :
    (pushed capacity ops).map Message.seq = List.range (after capacity ops).store.seq := by
  induction ops using List.reverseRecOn with
  | nil => rfl
  | append_singleton ops op ih =>
    rw [pushed_concat, List.map_append, after_concat]
    cases op with
    | push round payload => simpa [pushedIn, step, Store.push, List.range_succ] using ih
    | observe round => simpa [pushedIn, step, Store.observeRound] using ih
    | range q => simpa [pushedIn, store_range] using ih
    | last q => simpa [pushedIn, store_last] using ih

theorem pushed_nodup (capacity : U64) (ops : List (Op ι)) : (pushed capacity ops).Nodup := by
  refine List.Nodup.of_map Message.seq ?_
  rw [pushed_seq]
  exact List.nodup_range

/-- **When polling loses nothing.**  While nothing is evicted, a poller that polls once more has
received every message ever pushed, each exactly once, if and only if each push met it. -/
theorem received_iff_meets (p : ι) (capacity : U64) (ops : List (Op ι))
    (hroom : (pushed capacity ops).length ≤ (max capacity 1).val) :
    (((after capacity (ops ++ [.range p, .last p])).pollers p).received.Nodup ∧
        ∀ m, m ∈ ((after capacity (ops ++ [.range p, .last p])).pollers p).received ↔
          m ∈ pushed capacity ops) ↔
      ∀ σ ∈ Trace.steps ops, ∀ round ∈ σ.2.files, Meets p (after capacity σ.1) round := by
  have hrun := tracks (p := p) ops hroom
  have hafter : after capacity (ops ++ [.range p, .last p]) =
      step (step (after capacity ops) (.range p)) (.last p) := by
    rw [← after_concat, ← after_concat, List.append_assoc]
    rfl
  have hall := pushedWhen_eq_iff (fun s round => decide (Meets p s round)) capacity ops
  simp only [decide_eq_true_eq] at hall
  rw [hafter, received_polled hrun.covers, hrun.handed, ← hall]
  constructor
  · rintro ⟨hnodup, hmem⟩
    have hperm := (List.perm_ext_iff_of_nodup hnodup (pushed_nodup capacity ops)).mpr hmem
    exact (pushedWhen_sublist ..).eq_of_length hperm.length_eq
  · intro h
    rw [met, h]
    exact ⟨pushed_nodup .., fun m => Iff.rfl⟩

/-- The condition of `received_iff_meets`, computed. -/
def meetsAll (p : ι) (capacity : U64) (ops : List (Op ι)) : Bool :=
  (Trace.steps ops).all (fun σ =>
    σ.2.files.all (fun round => decide (Meets p (after capacity σ.1) round)))

theorem meetsAll_eq_true {p : ι} {capacity : U64} {ops : List (Op ι)} :
    meetsAll p capacity ops = true ↔
      ∀ σ ∈ Trace.steps ops, ∀ round ∈ σ.2.files, Meets p (after capacity σ.1) round := by
  simp [meetsAll, Option.all_eq_true]

theorem received_iff_meets_two :
    (((after 8 [.push 3 [1], .range (), .last (), .push 5 [2], .range (), .last ()]).pollers
        ()).received.Nodup ∧
      ∀ m, m ∈ ((after 8 [.push 3 [1], .range (), .last (), .push 5 [2], .range (),
          .last ()]).pollers ()).received ↔
        m ∈ pushed 8 [.push 3 [1], .range (), .last (), .push 5 [2]]) :=
  (received_iff_meets () 8 [.push 3 [1], .range (), .last (), .push 5 [2]] (by decide)).mpr
    (meetsAll_eq_true.mp (by decide +kernel))

/-- The messages of a run, and what its one poller has received after another poll. -/
def outcome (ops : List (Op Unit)) : List Message × List Message :=
  (pushed 8 ops, ((after 8 (ops ++ [.range (), .last ()])).pollers ()).received)

/-- **A message filed late is never seen**: behind a round another stream has reported, behind the
front of the ring, or between the two sections of a request. -/
theorem late_push_lost :
    outcome [.observe 5, .range (), .last (), .push 5 [1]] = ([⟨0, 5, [1]⟩], []) ∧
      outcome [.push 5 [1], .push 4 [2]] = ([⟨0, 5, [1]⟩, ⟨1, 4, [2]⟩], [⟨0, 5, [1]⟩]) ∧
      outcome [.range (), .push 5 [1], .last ()] = ([⟨0, 5, [1]⟩], []) := by
  decide +kernel

end Anymone.Gateway
