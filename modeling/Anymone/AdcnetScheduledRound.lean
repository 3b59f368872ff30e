import Anymone.AdcnetScheduledServer
import Anymone.Guards

/-! # What a relay discloses in a round

Two partials of one relay in one round, over different sets of clients, would give the difference of
the sets away.  Whatever a relay receives and whoever signs it, it makes at most one partial in a
round, and over a set that its leader has signed for that round (`disclosed_after`).
-/

theorem U64.toI64_injective : Function.Injective U64.toI64 := by
  intro a b h
  have ha := a.isLt
  have hb := b.isLt
  refine Fin.ext ?_
  unfold U64.toI64 at h
  split at h <;> split at h <;> omega

namespace Anymone
namespace ScheduledAdcnet
variable {C : ServiceCrate} {cfg : ServerConfig C}

/-- A client whose submission is in order in a round. -/
structure InOrder (cfg : ServerConfig C) (round : Int) (client : C.Client) (pk : Pubkey) :
    Prop where
  message : C.recoverMessage client.message = some pk.val
  key : C.recoverKey client.key = some pk.val
  round : client.message.object.roundNumber = round
  servers : client.message.object.allServerIds = cfg.roster

/-- A set the leader has signed for a round, of clients in order, each once. -/
structure Sanctioned (cfg : ServerConfig C) (round : Int) (clients : List C.Client) : Prop where
  signed : ∃ signed : C.SignedSet, C.recoverSet signed = some cfg.leader.val ∧
    signed.object = ⟨round, clients⟩
  atMost : clients.length ≤ cfg.clientSetMax
  enough : clients = [] ∨ cfg.minClients ≤ clients.length
  clients : ∃ keys : List Pubkey, keys.Pairwise (· < ·) ∧
    List.Forall₂ (InOrder cfg round) clients keys

namespace ServerSession
variable {s : ServerSession C}

theorem inOrder_of_validClient {good : Pubkey → Bool} {client : C.Client} {round : Int}
    {key : Pubkey × C.ExchangePublicKey} (h : s.validClient cfg good client round = some key) :
    InOrder cfg round client key.1 := by
  unfold validClient at h
  split at h
  next signer keySigner hmessage hkey =>
    split at h
    next => cases h
    next pk hpk =>
      dsimp only at h
      split at h
      next => cases h
      next hchecks =>
        simp only [not_or, ne_eq, not_not] at hchecks
        obtain ⟨hsame, -, hround, hservers, -, -⟩ := hchecks
        obtain ⟨xpub, -, rfl⟩ := Option.map_eq_some_iff.mp h
        have hval : pk.val = signer := by
          unfold pubkeyOf at hpk
          split at hpk
          · rw [← Option.some.inj hpk]
          · cases hpk
        exact ⟨hval ▸ hmessage, by rw [hkey, ← hsame, hval], hround, hservers⟩
  next => cases h

/-- **What a set that is opened has passed.** -/
theorem sanctioned_of_openSet {good : Pubkey → Bool} {signed : C.SignedSet}
    {keys : List (Pubkey × C.ExchangePublicKey)} (h : s.openSet cfg good signed = some keys) :
    Sanctioned cfg s.currentRound signed.object.clients ∧
      C.recoverSet signed = some cfg.leader.val ∧ signed.object.round = s.currentRound := by
  unfold openSet at h
  split at h
  next => cases h
  next signer hsigner =>
    dsimp only at h
    split at h
    next => cases h
    next hchecks =>
      simp only [not_or, ne_eq, not_not, not_and, not_lt] at hchecks
      obtain ⟨hleader, hround, hmax, hmin⟩ := hchecks
      split at h
      next => cases h
      next keys' hkeys =>
        split at h
        next hchain =>
          cases h
          have hrecover : C.recoverSet signed = some cfg.leader.val := by rw [hsigner, hleader]
          refine ⟨⟨⟨signed, hrecover, ?_⟩, hmax, ?_, keys.map Prod.fst,
            List.isChain_iff_pairwise.mp hchain, ?_⟩, hrecover, hround⟩
          · rw [← hround]
          · by_cases hnil : signed.object.clients = []
            · exact Or.inl hnil
            · exact Or.inr (hmin hnil)
          · rw [List.forall₂_map_right_iff]
            exact (Guards.forall₂_of_mapM hkeys).imp
              (fun client key hvalid => inOrder_of_validClient hvalid)
        next => cases h

/-- A call that goes on with the round as it is. -/
structure SameRound (s s' : ServerSession C) : Prop where
  round : s'.currentRound = s.currentRound
  selected : s'.selected = s.selected

theorem SameRound.refl (s : ServerSession C) : SameRound s s := ⟨rfl, rfl⟩

theorem SameRound.trans {s s' s'' : ServerSession C} (h : SameRound s s') (h' : SameRound s' s'') :
    SameRound s s'' := ⟨h'.round.trans h.round, h'.selected.trans h.selected⟩

theorem sameRound_broadcastResult (s : ServerSession C) :
    SameRound s (s.broadcastResult cfg).1 ∧
      ∃ results : List C.SignedResult, (s.broadcastResult cfg).2 = results.map Sent.broadcast := by
  unfold broadcastResult
  split
  · exact ⟨.refl s, [], rfl⟩
  · exact ⟨⟨rfl, rfl⟩, [_], rfl⟩

theorem sameRound_onClient (s : ServerSession C) (good : Pubkey → Bool) (client : C.Client) :
    SameRound s (s.onClient cfg good client) := by
  unfold onClient
  dsimp only
  split
  · split
    · split
      · exact .refl s
      · exact ⟨rfl, rfl⟩
    · exact .refl s
  · split
    · split
      · exact .refl s
      · exact ⟨rfl, rfl⟩
    · exact .refl s

theorem sameRound_registerAll : ∀ (l : List (C.Client × Pubkey × C.ExchangePublicKey))
    (s : ServerSession C), SameRound s (registerAll s l).1
  | [], s => .refl s
  | (client, pk, xpub) :: rest, s => by
      unfold registerAll
      split
      · exact ⟨rfl, rfl⟩
      · split
        · exact ⟨rfl, rfl⟩
        next svc' _ =>
          have hrest := sameRound_registerAll rest
            { s with svc := svc', registeredClients := s.registeredClients ++ [pk.val] }
          exact ⟨hrest.round, hrest.selected⟩

theorem sameRound_disclose (s : ServerSession C) (round : Int) (clients : List C.Client) :
    SameRound s (s.disclose cfg round clients).1 ∧
      ((s.disclose cfg round clients).2 = [] ∨
        ∃ signed, (s.disclose cfg round clients).2 = [⟨round, clients, signed⟩]) := by
  unfold disclose
  split
  · exact ⟨.refl s, Or.inl rfl⟩
  · split
    next svc hfinal => exact ⟨⟨rfl, rfl⟩, Or.inl rfl⟩
    next svc share hfinal =>
      dsimp only
      refine ⟨?_, Or.inr ⟨_, rfl⟩⟩
      split
      · split
        · exact ⟨rfl, rfl⟩
        · exact ⟨rfl, rfl⟩
      · exact ⟨rfl, rfl⟩

theorem sameRound_onPartial (s : ServerSession C) (signed : Signed C.Sig C.Partial) :
    SameRound s (s.onPartial cfg signed).1 ∧
      ∃ results : List C.SignedResult, (s.onPartial cfg signed).2 = results.map Sent.broadcast := by
  unfold onPartial
  split
  · exact ⟨⟨rfl, rfl⟩, [], rfl⟩
  next svc broadcast hresult =>
    obtain ⟨hsame, hsent⟩ := @sameRound_broadcastResult _ cfg
      { s with svc := svc, pendingBroadcast := some broadcast }
    exact ⟨⟨hsame.round, hsame.selected⟩, hsent⟩

theorem sameRound_onBroadcast (s : ServerSession C) (signed : C.SignedResult) :
    SameRound s (s.onBroadcast cfg signed) := by
  unfold onBroadcast
  split
  · exact ⟨rfl, rfl⟩
  · exact .refl s

/-- What a set does to a relay: nothing, or it closes the round to any other, with at most one
partial over its clients. -/
inductive Opens (cfg : ServerConfig C) (s : ServerSession C) (signed : C.SignedSet)
    (s' : ServerSession C) : List (Disclosure C) → Prop where
  | ignored (hsame : SameRound s s') : Opens cfg s signed s' []
  | closed (hround : s'.currentRound = s.currentRound) (hfree : s.selected = false)
      (hselected : s'.selected = true) : Opens cfg s signed s' []
  | disclosed (hround : s'.currentRound = s.currentRound) (hfree : s.selected = false)
      (hselected : s'.selected = true) (hset : Sanctioned cfg s.currentRound signed.object.clients)
      (hsigner : C.recoverSet signed = some cfg.leader.val)
      (hsetround : signed.object.round = s.currentRound) (share : Signed C.Sig C.Partial) :
      Opens cfg s signed s' [⟨s.currentRound, signed.object.clients, share⟩]

theorem Opens.round {signed : C.SignedSet} {s' : ServerSession C} {ds : List (Disclosure C)}
    (h : Opens cfg s signed s' ds) : s'.currentRound = s.currentRound := by
  cases h with
  | ignored hsame => exact hsame.round
  | closed hround => exact hround
  | disclosed hround => exact hround

/-- What comes after a set leaves the round as it is. -/
theorem Opens.andThen {signed : C.SignedSet} {s' s'' : ServerSession C} {ds : List (Disclosure C)}
    (h : Opens cfg s signed s' ds) (hsame : SameRound s' s'') : Opens cfg s signed s'' ds := by
  cases h with
  | ignored h => exact .ignored (h.trans hsame)
  | closed hround hfree hselected =>
    exact .closed (hsame.round.trans hround) hfree (hsame.selected.trans hselected)
  | disclosed hround hfree hselected hset hsigner hsetround share =>
    exact .disclosed (hsame.round.trans hround) hfree (hsame.selected.trans hselected) hset hsigner
      hsetround share

theorem Opens.of_sameRound {s₀ s' : ServerSession C} {signed : C.SignedSet}
    {ds : List (Disclosure C)} (hsame : SameRound s₀ s) (h : Opens cfg s signed s' ds) :
    Opens cfg s₀ signed s' ds := by
  cases h with
  | ignored h => exact .ignored (hsame.trans h)
  | closed hround hfree hselected =>
    exact .closed (hround.trans hsame.round) (hsame.selected ▸ hfree) hselected
  | disclosed hround hfree hselected hset hsigner hsetround share =>
    rw [hsame.round] at hround hset hsetround ⊢
    exact .disclosed hround (hsame.selected ▸ hfree) hselected hset hsigner hsetround share

theorem opens_onClientSet (s : ServerSession C) (good : Pubkey → Bool) (signed : C.SignedSet) :
    Opens cfg s signed (s.onClientSet cfg good signed).1 (s.onClientSet cfg good signed).2 := by
  unfold onClientSet
  split
  next => exact .ignored (.refl s)
  next hfree =>
    have hfree : s.selected = false := by simpa using hfree
    split
    next => exact .ignored (.refl s)
    next keys hopen =>
      obtain ⟨hset, hsigner, hsetround⟩ := sanctioned_of_openSet hopen
      have hreg := sameRound_registerAll (signed.object.clients.zip keys)
        { s with selected := true }
      split
      next s' hall =>
        rw [hall] at hreg
        exact .closed hreg.round hfree hreg.selected
      next s' hall =>
        rw [hall] at hreg
        obtain ⟨hsame, hsent⟩ := @sameRound_disclose _ cfg s' s.currentRound signed.object.clients
        refine Opens.andThen ?_ hsame
        rcases hsent with hsent | ⟨share, hsent⟩
        · rw [hsent]
          exact .closed hreg.round hfree hreg.selected
        · rw [hsent]
          have hround : s'.currentRound = s.currentRound := hreg.round
          exact .disclosed hround hfree hreg.selected hset hsigner hsetround share

end ServerSession

/-! ## One call -/

/-- The round a call begins. -/
def ServerOp.beginning : ServerOp C → Option Round
  | begin round _ => some round
  | _ => none

namespace ServerSession
open ServerOp
variable {s : ServerSession C}

/-- The sets, the partials and the results that a call sends. -/
def setsOf (cfg : ServerConfig C) (s : ServerSession C) (op : ServerOp C) : List C.SignedSet :=
  (s.call cfg op).2.filterMap Sent.set?

def disclosuresOf (cfg : ServerConfig C) (s : ServerSession C) (op : ServerOp C) :
    List (Disclosure C) :=
  (s.call cfg op).2.filterMap Sent.disclosure?

def resultsOf (cfg : ServerConfig C) (s : ServerSession C) (op : ServerOp C) :
    List C.SignedResult :=
  (s.call cfg op).2.filterMap Sent.result?

/-- The set a call brings: the one that comes in, or the leader's own. -/
inductive Brings (cfg : ServerConfig C) (s : ServerSession C) :
    ServerOp C → C.SignedSet → Prop where
  | came (good : Pubkey → Bool) (signed : C.SignedSet) :
      Brings cfg s (.inbound good (some (.clientSet signed))) signed
  | own (k : Nat) (good : Pubkey → Bool) (signed : C.SignedSet)
      (hsigned : signed ∈ s.setsOf cfg (.checkpoint k good)) :
      Brings cfg s (.checkpoint k good) signed

section Filter
variable (ds : List (Disclosure C)) (results : List C.SignedResult)

theorem disclosures_decryption : (ds.map Sent.decryption).filterMap Sent.disclosure? = ds := by
  rw [List.filterMap_map]
  exact List.filterMap_some

theorem sets_decryption : (ds.map Sent.decryption).filterMap Sent.set? = [] := by
  rw [List.filterMap_map]
  exact List.filterMap_eq_nil_iff.mpr (fun _ _ => rfl)

theorem results_decryption : (ds.map Sent.decryption).filterMap Sent.result? = [] := by
  rw [List.filterMap_map]
  exact List.filterMap_eq_nil_iff.mpr (fun _ _ => rfl)

theorem disclosures_broadcast : (results.map Sent.broadcast).filterMap Sent.disclosure? = [] := by
  rw [List.filterMap_map]
  exact List.filterMap_eq_nil_iff.mpr (fun _ _ => rfl)

theorem sets_broadcast : (results.map Sent.broadcast).filterMap Sent.set? = [] := by
  rw [List.filterMap_map]
  exact List.filterMap_eq_nil_iff.mpr (fun _ _ => rfl)

end Filter

/-- The leader's session once the clients are in its set. -/
def emptied (cfg : ServerConfig C) (s : ServerSession C) : ServerSession C :=
  if cfg.minClients ≤ s.clients.size then { s with clients := .empty } else s

theorem sameRound_emptied (s : ServerSession C) : SameRound s (s.emptied cfg) := by
  unfold emptied
  split
  · exact ⟨rfl, rfl⟩
  · exact .refl s

/-- The leader goes through its own set. -/
def opened (cfg : ServerConfig C) (s : ServerSession C) (good : Pubkey → Bool) :
    ServerSession C × List (Disclosure C) :=
  (s.emptied cfg).onClientSet cfg good (C.signSet cfg.signingKey (s.ownSet cfg))

/-- A result that waits is published. -/
def closing (cfg : ServerConfig C) (s : ServerSession C) : ServerSession C × List (Sent C) :=
  if s.pendingBroadcast.isSome then s.broadcastResult cfg else (s, [])

theorem sameRound_closing (s : ServerSession C) :
    SameRound s (s.closing cfg).1 ∧
      ∃ results : List C.SignedResult, (s.closing cfg).2 = results.map Sent.broadcast := by
  unfold closing
  split
  · exact sameRound_broadcastResult s
  · exact ⟨.refl s, [], rfl⟩

/-- A checkpoint does nothing, or it signs a set, goes through it and publishes what is there. -/
theorem checkpoint_eq (s : ServerSession C) (k : Nat) (good : Pubkey → Bool) :
    s.checkpoint cfg k good = (s, []) ∨
      (k = 1 ∧ isLeader cfg = true ∧ s.selected = false ∧ s.checkpoint cfg k good =
        (((s.opened cfg good).1.closing cfg).1,
          .clientSet (C.signSet cfg.signingKey (s.ownSet cfg)) ::
            ((s.opened cfg good).2.map .decryption ++ ((s.opened cfg good).1.closing cfg).2))) := by
  by_cases hskip : k ≠ 1 ∨ isLeader cfg = false ∨ s.selected = true
  · exact Or.inl (if_pos hskip)
  · have hgo : k = 1 ∧ isLeader cfg = true ∧ s.selected = false := by simpa using hskip
    exact Or.inr ⟨hgo.1, hgo.2.1, hgo.2.2, if_neg hskip⟩

/-- What a checkpoint discloses: what comes of its own set. -/
theorem disclosuresOf_checkpoint {k : Nat} {good : Pubkey → Bool}
    (h : s.checkpoint cfg k good = (((s.opened cfg good).1.closing cfg).1,
      .clientSet (C.signSet cfg.signingKey (s.ownSet cfg)) ::
        ((s.opened cfg good).2.map .decryption ++ ((s.opened cfg good).1.closing cfg).2))) :
    s.disclosuresOf cfg (.checkpoint k good) = (s.opened cfg good).2 := by
  obtain ⟨-, results, hresults⟩ := @sameRound_closing _ cfg (s.opened cfg good).1
  show (s.checkpoint cfg k good).2.filterMap Sent.disclosure? = _
  rw [h]
  show ((s.opened cfg good).2.map Sent.decryption ++ _).filterMap Sent.disclosure? = _
  rw [List.filterMap_append, disclosures_decryption, hresults, disclosures_broadcast,
    List.append_nil]

/-- **What a checkpoint signs, and what comes of it.** -/
theorem checkpoint_cases (s : ServerSession C) (k : Nat) (good : Pubkey → Bool) :
    s.checkpoint cfg k good = (s, []) ∨
      (k = 1 ∧ isLeader cfg = true ∧
        s.setsOf cfg (.checkpoint k good) = [C.signSet cfg.signingKey (s.ownSet cfg)] ∧
        Opens cfg s (C.signSet cfg.signingKey (s.ownSet cfg)) (s.checkpoint cfg k good).1
          (s.disclosuresOf cfg (.checkpoint k good))) := by
  rcases @checkpoint_eq _ cfg s k good with hnone | ⟨hk, hleads, -, heq⟩
  · exact Or.inl hnone
  · refine Or.inr ⟨hk, hleads, ?_⟩
    obtain ⟨hsame, results, hresults⟩ := @sameRound_closing _ cfg (s.opened cfg good).1
    have hopens : Opens cfg s (C.signSet cfg.signingKey (s.ownSet cfg)) (s.opened cfg good).1
        (s.opened cfg good).2 :=
      .of_sameRound (sameRound_emptied s) (opens_onClientSet (s.emptied cfg) good _)
    have hsets : s.setsOf cfg (.checkpoint k good) =
        [C.signSet cfg.signingKey (s.ownSet cfg)] := by
      show (s.checkpoint cfg k good).2.filterMap Sent.set? = _
      rw [heq]
      show _ :: ((s.opened cfg good).2.map Sent.decryption ++ _).filterMap Sent.set? = _
      rw [List.filterMap_append, sets_decryption, hresults, sets_broadcast]
      rfl
    rw [disclosuresOf_checkpoint heq, heq]
    exact ⟨hsets, hopens.andThen hsame⟩

/-- **What a call does to the round.** -/
theorem opens_call (s : ServerSession C) {op : ServerOp C} (hop : op.beginning = none) :
    SameRound s (s.call cfg op).1 ∧ s.disclosuresOf cfg op = [] ∨
      ∃ signed, Brings cfg s op signed ∧
        Opens cfg s signed (s.call cfg op).1 (s.disclosuresOf cfg op) := by
  cases op with
  | begin round good => cases hop
  | inbound good msg =>
    rcases msg with _ | client | signed | signed | signed
    · exact Or.inl ⟨.refl s, rfl⟩
    · refine Or.inl ⟨?_, rfl⟩
      show SameRound s (if isLeader cfg then s.onClient cfg good client else s)
      split
      · exact sameRound_onClient s good client
      · exact .refl s
    · refine Or.inr ⟨signed, .came good signed, ?_⟩
      have hds : s.disclosuresOf cfg (.inbound good (some (.clientSet signed))) =
          (s.onClientSet cfg good signed).2 := disclosures_decryption _
      rw [hds]
      exact opens_onClientSet s good signed
    · refine Or.inl ?_
      show SameRound s (if isLeader cfg then s.onPartial cfg signed else (s, [])).1 ∧
        (if isLeader cfg then s.onPartial cfg signed else (s, [])).2.filterMap Sent.disclosure? = []
      split
      · obtain ⟨hsame, results, hresults⟩ := @sameRound_onPartial _ cfg s signed
        rw [hresults]
        exact ⟨hsame, disclosures_broadcast results⟩
      · exact ⟨.refl s, rfl⟩
    · exact Or.inl ⟨sameRound_onBroadcast s signed, rfl⟩
  | checkpoint k good =>
    rcases @checkpoint_cases _ cfg s k good with hnone | ⟨-, -, hsets, hopens⟩
    · refine Or.inl ?_
      unfold disclosuresOf
      rw [show s.call cfg (.checkpoint k good) = (s, []) from hnone]
      exact ⟨.refl s, rfl⟩
    · exact Or.inr ⟨_, .own k good _ (hsets ▸ List.mem_singleton.mpr rfl), hopens⟩
  | finish =>
    obtain ⟨hsame, results, hresults⟩ := @sameRound_broadcastResult _ cfg s
    refine Or.inl ⟨hsame, ?_⟩
    show (s.broadcastResult cfg).2.filterMap Sent.disclosure? = []
    rw [hresults]
    exact disclosures_broadcast results
  | setMisbehavior mode => exact Or.inl ⟨⟨rfl, rfl⟩, rfl⟩

/-- Only a begin changes the round. -/
theorem round_call (s : ServerSession C) {op : ServerOp C} (hop : op.beginning = none) :
    (s.call cfg op).1.currentRound = s.currentRound := by
  rcases @opens_call _ cfg s op hop with ⟨hsame, -⟩ | ⟨signed, -, hopens⟩
  · exact hsame.round
  · exact hopens.round

/-! ## A run -/

/-- The rounds begun. -/
def begun (ops : List (ServerOp C)) : List Round := ops.filterMap beginning

theorem begun_concat (ops : List (ServerOp C)) (op : ServerOp C) :
    begun (ops ++ [op]) = begun ops ++ op.beginning.toList := by
  unfold begun
  rw [List.filterMap_append]
  cases h : op.beginning with
  | none => simp [h]
  | some r => simp [h]

/-- A relay is run as its worker runs it: it begins a round first, and no round twice. -/
structure Driven (ops : List (ServerOp C)) : Prop where
  first : ops.head?.all (fun op => op.beginning.isSome) = true
  once : (begun ops).Nodup

theorem Driven.of_isPrefix {l ops : List (ServerOp C)} (h : Driven ops) (hl : l <+: ops) :
    Driven l := by
  obtain ⟨rest, rfl⟩ := hl
  refine ⟨?_, ?_⟩
  · cases l with
    | nil => rfl
    | cons op l => exact h.first
  · have honce := h.once
    unfold begun at honce ⊢
    rw [List.filterMap_append] at honce
    exact (List.nodup_append.mp honce).1

/-- A call other than a begin has a round begun before it. -/
theorem Driven.begun_ne_nil {l : List (ServerOp C)} {op : ServerOp C} (h : Driven (l ++ [op]))
    (hop : op.beginning = none) : begun l ≠ [] := by
  cases l with
  | nil =>
    have hfirst : op.beginning.isSome = true := h.first
    rw [hop] at hfirst
    cases hfirst
  | cons first l =>
    have hfirst : first.beginning.isSome = true := h.first
    obtain ⟨r, hr⟩ := Option.isSome_iff_exists.mp hfirst
    unfold begun
    rw [List.filterMap_cons_some hr]
    exact List.cons_ne_nil _ _

/-- The round after a begun one, as the service counts. -/
def wireRound (round : Round) : Int := round.toI64 + 1

theorem wireRound_injective : Function.Injective wireRound := by
  intro a b h
  unfold wireRound at h
  exact U64.toI64_injective (by omega)

/-- A round that is begun is new. -/
theorem Driven.fresh {ops : List (ServerOp C)} {op : ServerOp C} {r : Round}
    (h : Driven (ops ++ [op])) (hop : op.beginning = some r) :
    wireRound r ∉ (begun ops).map wireRound := by
  intro hmem
  obtain ⟨r', hr', heq⟩ := List.mem_map.mp hmem
  have honce := h.once
  rw [begun_concat, hop] at honce
  exact (List.nodup_append.mp honce).2.2 r' hr' r (List.mem_singleton.mpr rfl)
    (wireRound_injective heq)

/-- The partials a relay makes in a run. -/
def disclosures (cfg : ServerConfig C) (svc : C.Svc) (ops : List (ServerOp C)) :
    List (Disclosure C) :=
  Trace.observed (new cfg svc 1) (fun s op => (call cfg s op).1) (disclosuresOf cfg) ops

/-- The round of a relay is the one begun last. -/
theorem currentRound_after (cfg : ServerConfig C) (svc : C.Svc) (ops : List (ServerOp C)) :
    begun ops ≠ [] → ∃ r, (begun ops).getLast? = some r ∧
      (after cfg svc ops).currentRound = wireRound r := by
  induction ops using List.reverseRecOn with
  | nil => exact fun h => absurd rfl h
  | append_singleton ops op ih =>
    intro hbegun
    unfold after at ih ⊢
    rw [Trace.run_concat, begun_concat]
    cases hop : op.beginning with
    | some round =>
      cases op with
      | begin r good =>
        cases hop
        exact ⟨round, by simp, rfl⟩
      | _ => cases hop
    | none =>
      rw [begun_concat, hop] at hbegun
      obtain ⟨r, hlast, hround⟩ := ih (by simpa using hbegun)
      exact ⟨r, by simpa using hlast, (round_call _ hop).trans hround⟩

/-- What the partials of a run keep. -/
structure Disclosed (cfg : ServerConfig C) (rounds : List Round) (s : ServerSession C)
    (ds : List (Disclosure C)) : Prop where
  once : (ds.map Disclosure.round).Nodup
  sanctioned : ∀ d ∈ ds, Sanctioned cfg d.round d.clients
  begun : ∀ d ∈ ds, d.round ∈ rounds.map wireRound
  /-- As long as the relay is open to a set, it has disclosed nothing in its round. -/
  free : s.selected = false → s.currentRound ∉ ds.map Disclosure.round

theorem Disclosed.sameRound {rounds : List Round} {s s' : ServerSession C}
    {ds : List (Disclosure C)} (h : Disclosed cfg rounds s ds) (hsame : SameRound s s') :
    Disclosed cfg rounds s' ds :=
  { h with free := fun hfree => hsame.round ▸ h.free (hsame.selected ▸ hfree) }

/-- A set that a relay opens takes its one partial of the round. -/
theorem Disclosed.opens {rounds : List Round} {s s' : ServerSession C}
    {ds new : List (Disclosure C)} {signed : C.SignedSet} (h : Disclosed cfg rounds s ds)
    (hround : s.currentRound ∈ rounds.map wireRound) (hopens : Opens cfg s signed s' new) :
    Disclosed cfg rounds s' (ds ++ new) := by
  cases hopens with
  | ignored hsame =>
    rw [List.append_nil]
    exact h.sameRound hsame
  | closed hround' hfree hselected =>
    rw [List.append_nil]
    exact { h with free := fun hnot => by rw [hselected] at hnot; cases hnot }
  | disclosed hround' hfree hselected hset hsigner hsetround share =>
    have hfresh := h.free hfree
    refine ⟨?_, ?_, ?_, fun hnot => by rw [hselected] at hnot; cases hnot⟩
    · rw [List.map_append, List.map_singleton]
      exact List.Nodup.append h.once (List.nodup_singleton _)
        (List.disjoint_singleton.mpr hfresh)
    · intro d hd
      rcases List.mem_append.mp hd with hd | hd
      · exact h.sanctioned d hd
      · rw [List.mem_singleton.mp hd]
        exact hset
    · intro d hd
      rcases List.mem_append.mp hd with hd | hd
      · exact h.begun d hd
      · rw [List.mem_singleton.mp hd]
        exact hround

theorem disclosed_after (cfg : ServerConfig C) (svc : C.Svc) {ops : List (ServerOp C)}
    (hdriven : Driven ops) :
    Disclosed cfg (begun ops) (after cfg svc ops) (disclosures cfg svc ops) := by
  induction ops using List.reverseRecOn with
  | nil => exact ⟨List.nodup_nil, nofun, nofun, fun _ => List.not_mem_nil⟩
  | append_singleton ops op ih =>
    have ih := ih (hdriven.of_isPrefix (List.prefix_append ops [op]))
    have hround := currentRound_after cfg svc ops
    unfold after at ih hround ⊢
    unfold disclosures at ih ⊢
    rw [Trace.run_concat, Trace.observed_concat, begun_concat]
    generalize Trace.run (new cfg svc 1) (fun s op => (call cfg s op).1) ops = s at ih hround ⊢
    cases hop : op.beginning with
    | some round =>
      cases op with
      | begin r good =>
        cases hop
        have hds : disclosuresOf cfg s (.begin round good) = [] := rfl
        rw [hds, List.append_nil]
        refine ⟨ih.once, ih.sanctioned, ?_, ?_⟩
        · intro d hd
          rw [List.map_append]
          exact List.mem_append_left _ (ih.begun d hd)
        · -- The round is new, so none of the partials is in it.
          intro _ hmem
          obtain ⟨d, hd, hdround⟩ := List.mem_map.mp hmem
          have hold := ih.begun d hd
          rw [hdround] at hold
          exact hdriven.fresh rfl hold
      | _ => cases hop
    | none =>
      obtain ⟨r, hlast, hround⟩ := hround (hdriven.begun_ne_nil hop)
      have hmem : s.currentRound ∈ (begun ops).map wireRound :=
        hround ▸ List.mem_map_of_mem (List.mem_of_getLast? hlast)
      have hbegun : begun ops ++ (none : Option Round).toList = begun ops := List.append_nil _
      rw [hbegun]
      rcases opens_call s hop with ⟨hsame, hnone⟩ | ⟨signed, -, hopens⟩
      · rw [hnone, List.append_nil]
        exact ih.sameRound hsame
      · exact ih.opens hmem hopens

end ServerSession

end ScheduledAdcnet
end Anymone
