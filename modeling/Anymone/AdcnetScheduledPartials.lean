import Anymone.AdcnetScheduledRound

/-! # What a partial is over

A relay's partial is what its service makes of the clients it holds then.  The service of a relay is
told of clients only when the relay opens a set, and has forgotten them when it enters the next
round, so a partial is over the clients of the set and over nobody else (`partialOver_after`).
-/

namespace Anymone
namespace ScheduledAdcnet
variable {C : ServiceCrate}

/-- The message of a client. -/
abbrev ServiceCrate.Message (C : ServiceCrate) := Signed C.Sig (ClientRoundMessage C.Word)

variable (C) in
/-- What a service was told since it was built: the round it is in, the clients that are registered
with their exchange keys, and the messages it has taken in that round. -/
inductive Fed (svc₀ : C.Svc) :
    C.Svc → Int → List (PublicKey × C.ExchangePublicKey) → List C.Message → Prop where
  | enter (round : Int) : Fed svc₀ (C.advanceToRound svc₀ round) round [] []
  | advance {svc round keys messages} (round' : Int) : Fed svc₀ svc round keys messages →
      Fed svc₀ (C.advanceToRound svc round') round' keys []
  | deregister {svc round keys messages} (pk : PublicKey) : Fed svc₀ svc round keys messages →
      Fed svc₀ (C.deregisterClient svc pk) round (keys.filter (fun key => key.1 ≠ pk)) messages
  | registered {svc svc' round keys messages pk xpub} : Fed svc₀ svc round keys messages →
      C.registerClient svc pk xpub = (svc', true) →
      Fed svc₀ svc' round (keys ++ [(pk, xpub)]) messages
  | unregistered {svc svc' round keys messages pk xpub} : Fed svc₀ svc round keys messages →
      C.registerClient svc pk xpub = (svc', false) → Fed svc₀ svc' round keys messages
  | processed {svc svc' round keys messages message} : Fed svc₀ svc round keys messages →
      C.processClientMessage svc message = (svc', true) →
      Fed svc₀ svc' round keys (messages ++ [message])
  | unprocessed {svc svc' round keys messages message} : Fed svc₀ svc round keys messages →
      C.processClientMessage svc message = (svc', false) → Fed svc₀ svc' round keys messages
  | finalized {svc svc' round keys messages share} : Fed svc₀ svc round keys messages →
      C.finalizePartial svc = (svc', share) → Fed svc₀ svc' round keys messages
  | combined {svc svc' round keys messages signed result} : Fed svc₀ svc round keys messages →
      C.processPartial svc signed = (svc', result) → Fed svc₀ svc' round keys messages

/-- Every key of a list is forgotten. -/
theorem Fed.deregisterAll {svc₀ : C.Svc} (pks : List PublicKey) :
    ∀ {svc : C.Svc} {round : Int} {keys : List (PublicKey × C.ExchangePublicKey)}
      {messages : List C.Message}, Fed C svc₀ svc round keys messages →
      Fed C svc₀ (pks.foldl C.deregisterClient svc) round
        (keys.filter (fun key => key.1 ∉ pks)) messages := by
  induction pks with
  | nil =>
    intro svc round keys messages h
    simpa using h
  | cons pk pks ih =>
    intro svc round keys messages h
    have hfilter : (keys.filter (fun key => key.1 ≠ pk)).filter (fun key => key.1 ∉ pks) =
        keys.filter (fun key => key.1 ∉ pk :: pks) := by
      rw [List.filter_filter]
      exact List.filter_congr (fun key _ => by simp [Bool.and_comm])
    rw [← hfilter]
    exact ih (h.deregister pk)

/-- The key of a client in a set: that of its signature, and its exchange key. -/
structure KeyOf (client : C.Client) (key : PublicKey × C.ExchangePublicKey) : Prop where
  signer : C.recoverMessage client.message = some key.1
  exchange : C.fromSec1Bytes client.key.object.xpub = some key.2

/-- **A partial over its clients**: the service was in the round, held these clients and no other,
each under its own keys, and had taken their messages and no other; what is signed is what the
service made of them, or a corruption of it. -/
def PartialOver (svc₀ : C.Svc) (d : Disclosure C) : Prop :=
  ∃ svc keys share, Fed C svc₀ svc d.round keys (d.clients.map ScheduledClient.message) ∧
    List.Forall₂ KeyOf d.clients keys ∧ (C.finalizePartial svc).2 = some share ∧
    (d.signed = C.signPartial (C.finalizePartial svc).1 share ∨
      d.signed = C.signPartial (C.finalizePartial svc).1 (C.corrupt share))

namespace ServerSession
variable {cfg : ServerConfig C} {s : ServerSession C} {svc₀ : C.Svc}

/-- The service of a relay holds the clients that the relay counts as registered, and none as long
as the relay is open to a set. -/
def Serves (svc₀ : C.Svc) (s : ServerSession C) : Prop :=
  ∃ keys messages, Fed C svc₀ s.svc s.currentRound keys messages ∧
    s.registeredClients = keys.map Prod.fst ∧ (s.selected = false → keys = [] ∧ messages = [])

/-- The service goes on with the clients it has. -/
theorem Serves.goOn {s' : ServerSession C} (h : Serves svc₀ s) (hsame : SameRound s s')
    (hregistered : s'.registeredClients = s.registeredClients)
    (hsvc : ∀ {keys messages}, Fed C svc₀ s.svc s.currentRound keys messages →
      Fed C svc₀ s'.svc s.currentRound keys messages) : Serves svc₀ s' := by
  obtain ⟨keys, messages, hfed, hkeys, hnone⟩ := h
  refine ⟨keys, messages, ?_, hregistered.trans hkeys, fun hfree => hnone (hsame.selected ▸ hfree)⟩
  rw [hsame.round]
  exact hsvc hfed

/-! ## Opening a set -/

theorem keyOf_of_validClient {good : Pubkey → Bool} {client : C.Client} {round : Int}
    {key : Pubkey × C.ExchangePublicKey} (h : s.validClient cfg good client round = some key) :
    KeyOf client (key.1.val, key.2) := by
  refine ⟨(inOrder_of_validClient h).message, ?_⟩
  unfold validClient at h
  split at h
  next =>
    split at h
    next => cases h
    next =>
      dsimp only at h
      split at h
      next => cases h
      next =>
        obtain ⟨xpub, hxpub, rfl⟩ := Option.map_eq_some_iff.mp h
        exact hxpub
  next => cases h

/-- The keys of a set that is opened are those of its clients. -/
theorem keysOf_openSet {good : Pubkey → Bool} {signed : C.SignedSet}
    {keys : List (Pubkey × C.ExchangePublicKey)} (h : s.openSet cfg good signed = some keys) :
    List.Forall₂ KeyOf signed.object.clients (keys.map (fun key => (key.1.val, key.2))) := by
  unfold openSet at h
  split at h
  next => cases h
  next =>
    dsimp only at h
    split at h
    next => cases h
    next =>
      split at h
      next => cases h
      next keys' hkeys =>
        split at h
        next =>
          cases h
          rw [List.forall₂_map_right_iff]
          exact (Guards.forall₂_of_mapM hkeys).imp
            (fun client key hvalid => keyOf_of_validClient hvalid)
        next => cases h

/-- **Clients go to the service**, all of them, or it has been closed to a set in vain. -/
theorem fed_registerAll : ∀ (l : List (C.Client × Pubkey × C.ExchangePublicKey))
    {s : ServerSession C} {keys : List (PublicKey × C.ExchangePublicKey)}
    {messages : List C.Message}, Fed C svc₀ s.svc s.currentRound keys messages →
    s.registeredClients = keys.map Prod.fst →
    ∃ keys' messages', Fed C svc₀ (registerAll s l).1.svc s.currentRound keys' messages' ∧
      (registerAll s l).1.registeredClients = keys'.map Prod.fst ∧
      ((registerAll s l).2 = true → keys' = keys ++ l.map (fun e => (e.2.1.val, e.2.2)) ∧
        messages' = messages ++ l.map (fun e => e.1.message))
  | [], s, keys, messages, hfed, hkeys =>
      ⟨keys, messages, hfed, hkeys, fun _ => ⟨(List.append_nil _).symm, (List.append_nil _).symm⟩⟩
  | (client, pk, xpub) :: rest, s, keys, messages, hfed, hkeys => by
      unfold registerAll
      split
      next svc' hregister =>
        exact ⟨keys, messages, hfed.unregistered hregister, hkeys, nofun⟩
      next svc' hregister =>
        have hadded : s.registeredClients ++ [pk.val] =
            (keys ++ [(pk.val, xpub)]).map Prod.fst := by
          rw [hkeys, List.map_append]
          rfl
        split
        next svc'' hprocess =>
          exact ⟨_, messages, (hfed.registered hregister).unprocessed hprocess, hadded, nofun⟩
        next svc'' hprocess =>
          obtain ⟨keys', messages', hfed', hkeys', hall⟩ := fed_registerAll rest
            (s := { s with svc := svc'', registeredClients := s.registeredClients ++ [pk.val] })
            ((hfed.registered hregister).processed hprocess) hadded
          refine ⟨keys', messages', hfed', hkeys', fun hok => ?_⟩
          obtain ⟨rfl, rfl⟩ := hall hok
          simp

theorem Serves.disclose (h : Serves svc₀ s) (round : Int) (clients : List C.Client) :
    Serves svc₀ (s.disclose cfg round clients).1 := by
  obtain ⟨hsame, -⟩ := @sameRound_disclose _ cfg s round clients
  refine h.goOn hsame ?_ (fun hfed => ?_)
  · unfold ServerSession.disclose
    split
    · rfl
    · split
      · rfl
      · dsimp only
        split
        · split <;> rfl
        · rfl
  · unfold ServerSession.disclose
    split
    · exact hfed
    · split
      next svc hfinal => exact hfed.finalized hfinal
      next svc share hfinal =>
        dsimp only
        split
        · split
          next hcombine => exact (hfed.finalized hfinal).combined hcombine
          next hcombine => exact (hfed.finalized hfinal).combined hcombine
        · exact hfed.finalized hfinal

/-- The partial of a service that holds the clients, and no other. -/
theorem partialOver_disclose (keys : List (PublicKey × C.ExchangePublicKey))
    {clients : List C.Client}
    (hfed : Fed C svc₀ s.svc s.currentRound keys (clients.map ScheduledClient.message))
    (hkeys : List.Forall₂ KeyOf clients keys) :
    ∀ d ∈ (s.disclose cfg s.currentRound clients).2, PartialOver svc₀ d := by
  intro d hd
  unfold ServerSession.disclose at hd
  split at hd
  · cases hd
  · split at hd
    next => cases hd
    next svc share hfinal =>
      obtain rfl := List.mem_singleton.mp hd
      refine ⟨s.svc, keys, share, hfed, hkeys, by rw [hfinal], ?_⟩
      rw [hfinal]
      dsimp only
      split
      · exact Or.inr rfl
      · exact Or.inl rfl

variable (cfg) in
/-- **A set that comes to a relay**: its service stays in order, and a partial is over the set. -/
theorem serves_onClientSet (h : Serves svc₀ s) (good : Pubkey → Bool) (signed : C.SignedSet) :
    Serves svc₀ (s.onClientSet cfg good signed).1 ∧
      ∀ d ∈ (s.onClientSet cfg good signed).2, PartialOver svc₀ d := by
  unfold onClientSet
  split
  next => exact ⟨h, nofun⟩
  next hfree =>
    have hfree : s.selected = false := by simpa using hfree
    split
    next => exact ⟨h, nofun⟩
    next keys hopen =>
      obtain ⟨held, taken, hfed, hheld, hnone⟩ := h
      -- nothing was registered before the first set of the round
      obtain ⟨rfl, rfl⟩ := hnone hfree
      have hforall := keysOf_openSet hopen
      have hlength : signed.object.clients.length = keys.length := by
        simpa using hforall.length_eq
      have hreg := sameRound_registerAll (signed.object.clients.zip keys)
        { s with selected := true }
      obtain ⟨keys', messages', hfed', hkeys', hall⟩ :=
        fed_registerAll (s := { s with selected := true }) (signed.object.clients.zip keys) hfed
          hheld
      split
      next s' heq =>
        rw [heq] at hreg hfed' hkeys'
        refine ⟨⟨keys', messages', hreg.round ▸ hfed', hkeys', fun hopen => ?_⟩, nofun⟩
        cases hreg.selected.symm.trans hopen
      next s' heq =>
        rw [heq] at hreg hfed' hkeys' hall
        -- every client of the set was registered and its message processed
        obtain ⟨rfl, rfl⟩ := hall rfl
        have hround : s'.currentRound = s.currentRound := hreg.round
        rw [← hround]
        refine ⟨Serves.disclose ⟨_, _, hround ▸ hfed', hkeys', fun hopen => ?_⟩ _ _,
          partialOver_disclose (keys.map (fun key => (key.1.val, key.2))) ?_ hforall⟩
        · cases hreg.selected.symm.trans hopen
        · rw [hround]
          have hclients := congrArg (List.map ScheduledClient.message)
            (List.map_fst_zip hlength.le)
          have hpairs := congrArg (List.map fun key => (key.1.val, key.2))
            (List.map_snd_zip hlength.ge)
          rw [List.map_map] at hclients hpairs
          rw [← hclients, ← hpairs]
          exact hfed'

/-! ## One call -/

theorem serves_new (cfg : ServerConfig C) (svc₀ : C.Svc) : Serves svc₀ (new cfg svc₀ 1) :=
  ⟨[], [], .enter 1, rfl, fun _ => ⟨rfl, rfl⟩⟩

/-- A round is begun with a service that holds nobody. -/
theorem Serves.beginRound (h : Serves svc₀ s) (round : Round) (good : Pubkey → Bool) :
    Serves svc₀ (s.beginRound cfg round good) := by
  obtain ⟨keys, messages, hfed, hkeys, -⟩ := h
  have hforgotten := (hfed.advance (round.toI64 + 1)).deregisterAll s.registeredClients
  have hnone : keys.filter (fun key => key.1 ∉ s.registeredClients) = [] := by
    rw [List.filter_eq_nil_iff, hkeys]
    intro key hkey
    simpa using List.mem_map_of_mem (f := Prod.fst) hkey
  rw [hnone] at hforgotten
  exact ⟨[], [], hforgotten, rfl, fun _ => ⟨rfl, rfl⟩⟩

theorem Serves.broadcastResult (h : Serves svc₀ s) : Serves svc₀ (s.broadcastResult cfg).1 := by
  obtain ⟨hsame, -⟩ := @sameRound_broadcastResult _ cfg s
  refine h.goOn hsame ?_ (fun hfed => ?_) <;> unfold ServerSession.broadcastResult <;> split
  · rfl
  · rfl
  · exact hfed
  · exact hfed

theorem Serves.onClient (h : Serves svc₀ s) (good : Pubkey → Bool) (client : C.Client) :
    Serves svc₀ (s.onClient cfg good client) := by
  refine h.goOn (sameRound_onClient s good client) ?_ (fun hfed => ?_) <;>
    unfold ServerSession.onClient <;> dsimp only <;> split <;> split <;> try split
  all_goals first | rfl | exact hfed

theorem Serves.onPartial (h : Serves svc₀ s) (signed : Signed C.Sig C.Partial) :
    Serves svc₀ (s.onPartial cfg signed).1 := by
  unfold ServerSession.onPartial
  split
  next svc hcombine => exact h.goOn ⟨rfl, rfl⟩ rfl (fun hfed => hfed.combined hcombine)
  next svc broadcast hcombine =>
    refine Serves.broadcastResult (h.goOn ⟨rfl, rfl⟩ rfl (fun hfed => ?_))
    exact hfed.combined hcombine

theorem Serves.onBroadcast (h : Serves svc₀ s) (signed : C.SignedResult) :
    Serves svc₀ (s.onBroadcast cfg signed) := by
  unfold ServerSession.onBroadcast
  split
  · exact h.goOn ⟨rfl, rfl⟩ rfl id
  · exact h

theorem Serves.emptied (h : Serves svc₀ s) : Serves svc₀ (s.emptied cfg) := by
  unfold ServerSession.emptied
  split
  · exact h.goOn ⟨rfl, rfl⟩ rfl id
  · exact h

theorem Serves.closing (h : Serves svc₀ s) : Serves svc₀ (s.closing cfg).1 := by
  unfold ServerSession.closing
  split
  · exact h.broadcastResult
  · exact h

/-- **One call** keeps the service in order, and its partials are over the clients they name. -/
theorem serves_call (h : Serves svc₀ s) (op : ServerOp C) :
    Serves svc₀ (s.call cfg op).1 ∧ ∀ d ∈ s.disclosuresOf cfg op, PartialOver svc₀ d := by
  cases op with
  | begin round good => exact ⟨h.beginRound round good, nofun⟩
  | inbound good msg =>
    rcases msg with _ | client | signed | signed | signed
    · exact ⟨h, nofun⟩
    · refine ⟨?_, nofun⟩
      show Serves svc₀ (if isLeader cfg then s.onClient cfg good client else s)
      split
      · exact h.onClient good client
      · exact h
    · have hds : s.disclosuresOf cfg (.inbound good (some (.clientSet signed))) =
          (s.onClientSet cfg good signed).2 := disclosures_decryption _
      rw [hds]
      exact serves_onClientSet cfg h good signed
    -- only a client set brings a disclosure
    · have hnone : s.disclosuresOf cfg (.inbound good (some (.decryption signed))) = [] := by
        rcases @opens_call _ cfg s (.inbound good (some (.decryption signed))) rfl with
          ⟨-, hnone⟩ | ⟨_, hbrings, -⟩
        · exact hnone
        · cases hbrings
      rw [hnone]
      refine ⟨?_, nofun⟩
      show Serves svc₀ (if isLeader cfg then s.onPartial cfg signed else (s, [])).1
      split
      · exact h.onPartial signed
      · exact h
    · exact ⟨h.onBroadcast signed, nofun⟩
  | checkpoint k good =>
    rcases @checkpoint_eq _ cfg s k good with hnone | ⟨-, -, -, heq⟩
    · rw [disclosuresOf, show s.call cfg (.checkpoint k good) = (s, []) from hnone]
      exact ⟨h, nofun⟩
    -- the leader takes its own set as the members do
    · obtain ⟨hopened, hover⟩ := serves_onClientSet cfg h.emptied good
        (C.signSet cfg.signingKey (s.ownSet cfg))
      rw [disclosuresOf_checkpoint heq, show s.call cfg (.checkpoint k good) = _ from heq]
      exact ⟨Serves.closing hopened, hover⟩
  | finish =>
    have hnone : s.disclosuresOf cfg .finish = [] := by
      rcases @opens_call _ cfg s .finish rfl with ⟨-, hnone⟩ | ⟨_, hbrings, -⟩
      · exact hnone
      · cases hbrings
    rw [hnone]
    exact ⟨h.broadcastResult, nofun⟩
  | setMisbehavior mode => exact ⟨h.goOn ⟨rfl, rfl⟩ rfl id, nofun⟩

/-! ## A run -/

theorem serves_after (cfg : ServerConfig C) (svc : C.Svc) (ops : List (ServerOp C)) :
    Serves svc (after cfg svc ops) := by
  induction ops using List.reverseRecOn with
  | nil => exact serves_new cfg svc
  | append_singleton ops op ih =>
    unfold after at ih ⊢
    rw [Trace.run_concat]
    exact (serves_call ih op).1

/-- **Every partial of a run is over its clients.** -/
theorem partialOver_after (cfg : ServerConfig C) (svc : C.Svc) (ops : List (ServerOp C)) :
    ∀ d ∈ disclosures cfg svc ops, PartialOver svc d := by
  intro d hd
  obtain ⟨⟨l, op⟩, -, hmem⟩ := List.mem_flatMap.mp hd
  exact (serves_call (serves_after cfg svc l) op).2 d hmem

/-- **One partial in a round**, whatever a relay receives and whoever signs it, and over a set that
the leader has signed for that round. -/
theorem one_partial_per_round (cfg : ServerConfig C) (svc : C.Svc) (ops : List (ServerOp C))
    (hdriven : Driven ops) :
    ((disclosures cfg svc ops).map Disclosure.round).Nodup ∧
      ∀ d ∈ disclosures cfg svc ops, Sanctioned cfg d.round d.clients ∧ PartialOver svc d :=
  ⟨(disclosed_after cfg svc hdriven).once, fun d hd =>
    ⟨(disclosed_after cfg svc hdriven).sanctioned d hd, partialOver_after cfg svc ops d hd⟩⟩

end ServerSession

/-! ## A relay to run -/

namespace Toy
open ScheduledAdcnet.ServerSession

/-- The identity whose bytes are all `n`. -/
def identity (n : U8) : Pubkey := .filled 32 n

/-- What is signed carries its signer.  A service is its round and the number of partials it has
seen; the second makes a result of one word, which names the round. -/
def crate : ServiceCrate where
  Sig := PublicKey
  Word := Nat
  Iblt := Nat
  Partial := Unit
  ExchangePublicKey := Bytes
  PrivateKey := PublicKey
  Winner := Unit
  Svc := Int × Nat
  recoverMessage signed := some signed.signature
  recoverKey signed := some signed.signature
  recoverSet signed := some signed.signature
  recoverResult signed := some signed.signature
  signSet key set := ⟨set, key⟩
  signResult key result := ⟨result, key⟩
  fromSec1Bytes := some
  ibltNew _ := 0
  ibltFieldElementCount _ := 1
  totalAllocated _ _ iblt := iblt
  decodeWinners iblt _ _ := some (List.replicate iblt ())
  readSlots words _ := words.map (fun w => [Fin.ofNat 256 w])
  advanceToRound _ round := (round, 0)
  registerClient svc _ _ := (svc, true)
  deregisterClient svc _ := svc
  processClientMessage svc _ := (svc, true)
  finalizePartial svc := (svc, some ())
  corrupt share := share
  signPartial _ share := ⟨share, []⟩
  processPartial svc _ :=
    if svc.2 = 1 then (svc, some ⟨svc.1, 1, [svc.1.toNat]⟩) else ((svc.1, svc.2 + 1), none)

/-- The relay of an identity; identity 1 leads. -/
def relay (identity : Pubkey) : ServerConfig crate where
  auctionSlots := 1
  messageLength := 1
  minClients := 1
  clientSetMax := 4
  signingKey := identity.1
  identity := identity
  leader := Toy.identity 1
  roster := [0]

/-- The submission of a client with so many words. -/
def client (round : Int) (words : List Nat) (n : U8) : crate.Client :=
  ⟨⟨⟨round, [0], ([0] : List Nat), words⟩, (identity n).1⟩, ⟨⟨[n]⟩, (identity n).1⟩⟩

def good : Pubkey → Bool := fun _ => true

/-- A message that comes in. -/
def came (msg : Wire crate) : ServerOp crate := .inbound good (some msg)

/-- A set that the leader has signed. -/
def signedSet (round : Int) (clients : List crate.Client) : Wire crate :=
  .clientSet ⟨⟨round, clients⟩, (identity 1).1⟩

/-- Two sets come for the first round, and one for the second. -/
def twoSets : List (ServerOp crate) :=
  [.begin 0 good, came (signedSet 1 [client 1 [] 5]),
    came (signedSet 1 [client 1 [] 5, client 1 [] 6]), .finish, .begin 1 good,
    came (signedSet 2 [client 2 [] 6]), came (signedSet 2 [])]

theorem one_partial_per_round_toy :
    (disclosures (relay (identity 2)) (0, 0) twoSets).map Disclosure.round = [1, 2] ∧
      ((disclosures (relay (identity 2)) (0, 0) twoSets).map Disclosure.round).Nodup ∧
      ∀ d ∈ disclosures (relay (identity 2)) (0, 0) twoSets,
        Sanctioned (relay (identity 2)) d.round d.clients ∧ PartialOver (0, 0) d :=
  ⟨by decide +kernel, one_partial_per_round (relay (identity 2)) (0, 0) twoSets
    ⟨by decide +kernel, by decide +kernel⟩⟩

end Toy
end ScheduledAdcnet
end Anymone
