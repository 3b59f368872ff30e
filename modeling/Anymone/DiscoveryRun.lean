import Anymone.Discovery
import Anymone.Guards
import Anymone.SigningDomains

/-! # What a client takes from a network it does not trust

Whatever the addresses answer, and wherever a write fails or the process stops, the configurations a
client acts on verify under the genesis it pinned first and never go back (`no_rollback`).  What
carries it over a stop is the order of a refresh: the state directory is behind what the process
holds, and what was acted on is behind the state directory.
-/

namespace Anymone
open Eth

variable {C : SchedulerCrate}

/-! ## When one configuration follows another -/

theorem f32Eq_trans {a b c : U32} (h : f32Eq a b = true) (h' : f32Eq b c = true) :
    f32Eq a c = true := by
  simp only [f32Eq, Bool.and_eq_true, Bool.or_eq_true, decide_eq_true_eq] at h h' ⊢
  obtain ⟨⟨ha, -⟩, hab⟩ := h
  obtain ⟨⟨-, hc⟩, hbc⟩ := h'
  refine ⟨⟨ha, hc⟩, ?_⟩
  rcases hab with rfl | ⟨hza, hzb⟩
  · exact hbc
  · rcases hbc with rfl | ⟨-, hzc⟩
    · exact Or.inr ⟨hza, hzb⟩
    · exact Or.inr ⟨hza, hzc⟩

theorem subnetEq_trans {a b c : Subnet} (h : subnetEq a b = true) (h' : subnetEq b c = true) :
    subnetEq a c = true := by
  simp only [subnetEq, Bool.and_eq_true, decide_eq_true_eq] at h h' ⊢
  obtain ⟨⟨⟨⟨hid, hrelays⟩, hproto⟩, hrate⟩, hatt⟩ := h
  obtain ⟨⟨⟨⟨hid', hrelays'⟩, hproto'⟩, hrate'⟩, hatt'⟩ := h'
  exact ⟨⟨⟨⟨hid.trans hid', hrelays.trans hrelays'⟩, hproto.trans hproto'⟩,
    f32Eq_trans hrate hrate'⟩, hatt.trans hatt'⟩

theorem isEqv_trans {α : Type} {eq : α → α → Bool}
    (htrans : ∀ a b c, eq a b = true → eq b c = true → eq a c = true) :
    ∀ {l l' l'' : List α}, l.isEqv l' eq = true → l'.isEqv l'' eq = true → l.isEqv l'' eq = true
  | [], [], [], _, _ => rfl
  | a :: l, b :: l', c :: l'', h, h' => by
      rw [List.isEqv, Bool.and_eq_true] at h h' ⊢
      exact ⟨htrans a b c h.1 h'.1, isEqv_trans htrans h.2 h'.2⟩

/-- What `==` on policies is, apart from reflexive. -/
def PolicyTrans (C : SchedulerCrate) : Prop :=
  ∀ p q r, C.policyEq p q = true → C.policyEq q r = true → C.policyEq p r = true

theorem bodyEq_trans (htrans : PolicyTrans C) {a b c : C.Body} (h : bodyEq a b = true)
    (h' : bodyEq b c = true) : bodyEq a c = true := by
  simp only [bodyEq, Bool.and_eq_true, decide_eq_true_eq] at h h' ⊢
  obtain ⟨⟨⟨⟨⟨⟨⟨⟨h1, h2⟩, h3⟩, h4⟩, h5⟩, h6⟩, h7⟩, h8⟩, h9⟩ := h
  obtain ⟨⟨⟨⟨⟨⟨⟨⟨g1, g2⟩, g3⟩, g4⟩, g5⟩, g6⟩, g7⟩, g8⟩, g9⟩ := h'
  exact ⟨⟨⟨⟨⟨⟨⟨⟨h1.trans g1, h2.trans g2⟩, h3.trans g3⟩, h4.trans g4⟩, h5.trans g5⟩,
    @isEqv_trans _ subnetEq (fun _ _ _ => subnetEq_trans) _ _ _ h6 g6⟩, h7.trans g7⟩, h8.trans g8⟩,
    htrans _ _ _ h9 g9⟩

/-- A configuration that may be taken after another. -/
def Follows (earlier later : C.Config) : Prop :=
  earlier.body.round < later.body.round ∨
    earlier.body.round = later.body.round ∧ bodyEq later.body earlier.body = true

/-- The same configuration, or one that may be taken after it. -/
def Succeeds (earlier later : C.Config) : Prop := earlier = later ∨ Follows earlier later

theorem Follows.trans (htrans : PolicyTrans C) {a b c : C.Config} (h : Follows a b)
    (h' : Follows b c) : Follows a c := by
  rcases h with hlt | ⟨heq, hbody⟩
  · rcases h' with hlt' | ⟨heq', -⟩
    · exact Or.inl (lt_trans hlt hlt')
    · exact Or.inl (heq' ▸ hlt)
  · rcases h' with hlt' | ⟨heq', hbody'⟩
    · exact Or.inl (heq ▸ hlt')
    · exact Or.inr ⟨heq.trans heq', bodyEq_trans htrans hbody' hbody⟩

theorem Succeeds.trans (htrans : PolicyTrans C) {a b c : C.Config} (h : Succeeds a b)
    (h' : Succeeds b c) : Succeeds a c := by
  rcases h with rfl | hf
  · exact h'
  · rcases h' with rfl | hf'
    · exact Or.inr hf
    · exact Or.inr (hf.trans htrans hf')

/-- **What `check_config` lets through.** -/
theorem checkConfig_eq_ok {genesis : Genesis} {config : C.Config} {previous : Option C.Config} :
    checkConfig genesis config previous = .ok () ↔
      genesis.verifyConfig config = .ok () ∧ ∀ p, previous = some p → Follows p config := by
  unfold checkConfig
  rw [Guards.seq_ok]
  cases previous with
  | none => exact ⟨fun ⟨_, h, _⟩ => ⟨h, nofun⟩, fun ⟨h, _⟩ => ⟨(), h, rfl⟩⟩
  | some p =>
    dsimp only
    simp only [Guards.guard_ok, not_or, not_and, not_not, not_lt, and_true, Option.some.injEq,
      forall_eq']
    constructor
    · rintro ⟨_, hverify, hle, hbody⟩
      refine ⟨hverify, ?_⟩
      rcases lt_or_eq_of_le hle with hlt | heq
      · exact Or.inl hlt
      · exact Or.inr ⟨heq, hbody heq.symm⟩
    · rintro ⟨hverify, hlt | ⟨heq, hbody⟩⟩
      · exact ⟨(), hverify, hlt.le, fun heq => absurd heq (ne_of_gt hlt)⟩
      · exact ⟨(), hverify, heq.le, fun _ => hbody⟩

/-! ## A refresh -/

namespace Discovery
variable (K : DiscoveryCrate) {d : Discovery C} {files : Files C}

theorem checkConfig_of_offer {net : Replies C} {endpoint : Text} {config : C.Config}
    (h : d.offer K net endpoint = some config) :
    checkConfig d.genesis config d.config = .ok () := by
  unfold offer at h
  split at h
  next => cases h
  next =>
    split at h
    next => cases h
    next info hinfo =>
      split at h
      next => cases h
      next =>
        split at h
        next hok =>
          cases h
          exact hok
        next => cases h

/-- The ways a refresh ends. -/
inductive Refreshed (d : Discovery C) (files : Files C) :
    Files C × Discovery C × Option C.Config → Prop where
  | kept : Refreshed d files (files, d, none)
  /-- The write of `network.json` failed. -/
  | held (config : C.Config) (h : checkConfig d.genesis config d.config = .ok ()) :
      Refreshed d files (files, { d with config := some config }, none)
  /-- There is no relay to dial, or the write of `bootstrap.toml` failed. -/
  | saved (config : C.Config) (h : checkConfig d.genesis config d.config = .ok ()) :
      Refreshed d files
        ({ files with network := some config }, { d with config := some config }, none)
  | done (config : C.Config) (h : checkConfig d.genesis config d.config = .ok ()) :
      Refreshed d files
        ({ files with network := some config, streams := some (streams K config) },
          { d with config := some config }, some config)

theorem refreshed_refresh (d : Discovery C) (files : Files C) (net : Replies C) (writes : Writes) :
    Refreshed K d files (d.refresh K files net writes) := by
  unfold refresh
  split
  next => exact .kept
  next config hfound =>
    have hcheck : checkConfig d.genesis config d.config = .ok () := by
      obtain ⟨endpoint, -, hoffer⟩ := List.exists_of_findSome?_eq_some hfound
      exact checkConfig_of_offer K hoffer
    dsimp only
    split
    next => exact .held config hcheck
    next =>
      split
      next => exact .saved config hcheck
      next => exact .done config hcheck

end Discovery

/-! ## What the files and the process hold -/

/-- The configurations acted on go forward, verify under the pinned genesis, and are behind the one
in the state directory. -/
structure Kept (adopted : List C.Config) (files : Files C) (genesis : Genesis) : Prop where
  pinned : files.genesis = some genesis
  order : adopted.Pairwise Succeeds
  verified : ∀ config ∈ adopted, genesis.verifyConfig config = .ok ()
  disk : ∀ config ∈ adopted, ∃ saved, files.network = some saved ∧ Succeeds config saved

/-- And the one in the state directory is behind the one the process holds. -/
structure Ready (adopted : List C.Config) (files : Files C) (d : Discovery C) : Prop
    extends Kept adopted files d.genesis where
  held : ∀ saved, files.network = some saved → ∃ held, d.config = some held ∧ Succeeds saved held

section
variable {K : DiscoveryCrate} {adopted : List C.Config} {files : Files C} {d : Discovery C}

/-- What the process takes follows everything that was acted on. -/
theorem Ready.succeeds (htrans : PolicyTrans C) (h : Ready adopted files d) {config : C.Config}
    (hcheck : checkConfig d.genesis config d.config = .ok ()) :
    (∀ saved, files.network = some saved → Succeeds saved config) ∧
      ∀ old ∈ adopted, Succeeds old config := by
  have hsaved : ∀ saved, files.network = some saved → Succeeds saved config := by
    intro saved hsaved
    obtain ⟨held, hheld, hsucc⟩ := h.held saved hsaved
    exact hsucc.trans htrans (Or.inr ((checkConfig_eq_ok.mp hcheck).2 held hheld))
  refine ⟨hsaved, fun old hold => ?_⟩
  obtain ⟨saved, hfile, hsucc⟩ := h.disk old hold
  exact hsucc.trans htrans (hsaved saved hfile)

/-- **A refresh keeps the order**, whichever of its writes fails. -/
theorem Ready.refreshed (htrans : PolicyTrans C) (h : Ready adopted files d)
    {r : Files C × Discovery C × Option C.Config} (hr : Discovery.Refreshed K d files r) :
    Ready (adopted ++ r.2.2.toList) r.1 r.2.1 := by
  cases hr with
  | kept =>
    rw [show (none : Option C.Config).toList = [] from rfl, List.append_nil]
    exact h
  | held config hcheck =>
    rw [show (none : Option C.Config).toList = [] from rfl, List.append_nil]
    refine ⟨⟨h.pinned, h.order, h.verified, h.disk⟩, fun saved hsaved => ?_⟩
    exact ⟨config, rfl, (h.succeeds htrans hcheck).1 saved hsaved⟩
  | saved config hcheck =>
    rw [show (none : Option C.Config).toList = [] from rfl, List.append_nil]
    refine ⟨⟨h.pinned, h.order, h.verified, fun old hold => ?_⟩, fun saved hsaved => ?_⟩
    · exact ⟨config, rfl, (h.succeeds htrans hcheck).2 old hold⟩
    · cases hsaved
      exact ⟨config, rfl, Or.inl rfl⟩
  | done config hcheck =>
    have hsucc := (h.succeeds htrans hcheck).2
    refine ⟨⟨h.pinned, ?_, fun c hc => ?_, fun old hold => ?_⟩, fun saved hsaved => ?_⟩
    · refine List.pairwise_append.mpr ⟨h.order, List.pairwise_singleton _ _, ?_⟩
      intro a ha b hb
      rw [List.mem_singleton.mp hb]
      exact hsucc a ha
    · rcases List.mem_append.mp hc with hold | hnew
      · exact h.verified c hold
      · rw [List.mem_singleton.mp hnew]
        exact (checkConfig_eq_ok.mp hcheck).1
    · rcases List.mem_append.mp hold with hold | hnew
      · exact ⟨config, rfl, hsucc old hold⟩
      · rw [List.mem_singleton.mp hnew]
        exact ⟨config, rfl, Or.inl rfl⟩
    · cases hsaved
      exact ⟨config, rfl, Or.inl rfl⟩

end

/-! ## A life of the client -/

namespace ClientState
variable {K : DiscoveryCrate} {s : ClientState C}

/-- The refresh of a start. -/
def opening (K : DiscoveryCrate) (s : ClientState C) (genesis : Genesis) (config : Option C.Config)
    (args : ServeArgs) (net : Replies C) (writes : Writes) :
    Files C × Discovery C × Option C.Config :=
  Discovery.refresh K ⟨genesis, config, args.endpoint⟩ { s.files with genesis := some genesis } net
    writes

/-- The process that comes out of a refresh that went well. -/
def opened (K : DiscoveryCrate) (r : Files C × Discovery C × Option C.Config) (net : Replies C)
    (writes : Writes) : Option (Client C) :=
  match r.2.2 with
  | none => none
  | some config =>
      match r.2.1.profile K config net with
      | none => none
      | some profile => if writes.connection then some ⟨r.2.1, profile⟩ else none

theorem begin_eq (hs : s.client = none) (genesis : Genesis) (config : Option C.Config)
    (args : ServeArgs) (net : Replies C) (writes : Writes) :
    s.begin K genesis config args net writes =
      let r := opening K s genesis config args net writes
      ⟨r.1, opened K r net writes, s.adopted ++ r.2.2.toList⟩ := by
  unfold begin opening opened
  dsimp only
  generalize Discovery.refresh K _ _ net writes = r
  obtain ⟨files, d, res⟩ := r
  cases res with
  | none =>
    rw [← hs]
    simp
  | some config => rfl

/-- The profile after a refresh. -/
def renewed (K : DiscoveryCrate) (client : Client C) (r : Files C × Discovery C × Option C.Config)
    (net : Replies C) (writes : Writes) : BrokerProfile :=
  match r.2.2 with
  | none => client.profile
  | some config =>
      let old := authorizeServices config client.profile
      match r.2.1.profile K config net with
      | none => old
      | some next =>
          if old.feedAndChain = next.feedAndChain ∧ writes.remote ∧ writes.connection then next
          else old

theorem tick_eq (client : Client C) (net : Replies C) (writes : Writes) :
    s.tick K client net writes =
      let r := client.discovery.refresh K s.files net writes
      ⟨r.1, some ⟨r.2.1, renewed K client r net writes⟩, s.adopted ++ r.2.2.toList⟩ := by
  unfold tick renewed
  dsimp only
  generalize client.discovery.refresh K s.files net writes = r
  obtain ⟨files, d, res⟩ := r
  cases res with
  | none => simp
  | some config => rfl

/-- The steps, each with what it needs and what it leaves. -/
inductive Effect (K : DiscoveryCrate) (s : ClientState C) :
    ClientStep C → ClientState C → Prop where
  | keep (op : ClientStep C) : Effect K s op s
  /-- The saved configuration cannot be read, or does not verify. -/
  | unread (args : ServeArgs) (net : Replies C) (writes : Writes) (genesis : Genesis)
      (hfor : s.genesisFor args net = some genesis) (hok : genesisOk C args genesis = true)
      (hclient : s.client = none) : Effect K s (.start args net writes)
        { s with files := { s.files with genesis := some genesis } }
  | start (args : ServeArgs) (net : Replies C) (writes : Writes) (genesis : Genesis)
      (config : Option C.Config) (hfor : s.genesisFor args net = some genesis)
      (hok : genesisOk C args genesis = true) (hclient : s.client = none)
      (hsaved : config = s.files.network)
      (r : Files C × Discovery C × Option C.Config)
      (hr : Discovery.Refreshed K ⟨genesis, config, args.endpoint⟩
        { s.files with genesis := some genesis } r) :
      Effect K s (.start args net writes)
        ⟨r.1, opened K r net writes, s.adopted ++ r.2.2.toList⟩
  | refresh (net : Replies C) (writes : Writes) (client : Client C)
      (hclient : s.client = some client) (r : Files C × Discovery C × Option C.Config)
      (hr : Discovery.Refreshed K client.discovery s.files r) :
      Effect K s (.refresh net writes)
        ⟨r.1, some ⟨r.2.1, renewed K client r net writes⟩, s.adopted ++ r.2.2.toList⟩
  | crash : Effect K s .crash { s with client := none }

theorem saved_eq {genesis : Genesis} {config : Option C.Config}
    (h : s.saved genesis = some config) : config = s.files.network := by
  unfold saved at h
  split at h
  next hnone =>
    rw [hnone]
    exact (Option.some.inj h).symm
  next saved hsome =>
    split at h
    next =>
      rw [hsome]
      exact (Option.some.inj h).symm
    next => cases h

/-- **What a step does.** -/
theorem effect_step (K : DiscoveryCrate) (s : ClientState C) (op : ClientStep C) :
    Effect K s op (s.step K op) := by
  cases op with
  | start args net writes =>
    unfold step
    dsimp only
    by_cases hclient : s.client.isSome = true
    · rw [if_pos hclient]
      exact .keep _
    · rw [if_neg hclient]
      have hnone : s.client = none := by simpa using hclient
      unfold start
      split
      next => exact .keep _
      next =>
        split
        next => exact .keep _
        next genesis hfor =>
          split
          next => exact .keep _
          next hgo =>
            simp only [Bool.or_eq_true, Bool.not_eq_true', not_or, Bool.not_eq_false] at hgo
            split
            next => exact .unread args net writes genesis hfor hgo.1 hnone
            next config hsaved =>
              rw [begin_eq hnone]
              exact .start args net writes genesis config hfor hgo.1 hnone (saved_eq hsaved) _
                (Discovery.refreshed_refresh K _ _ net writes)
  | refresh net writes =>
    unfold step
    dsimp only
    split
    next => exact .keep _
    next client hclient =>
      rw [tick_eq]
      exact .refresh net writes client hclient _
        (Discovery.refreshed_refresh K _ _ net writes)
  | crash => exact .crash

theorem after_concat (K : DiscoveryCrate) (steps : List (ClientStep C)) (op : ClientStep C) :
    after K (steps ++ [op]) = (after K steps).step K op :=
  Trace.run_concat _ _ steps op

/-- Where a genesis comes from: a user who imported it, or gave its hash. -/
def GivenBy (C : SchedulerCrate) (args : ServeArgs) (genesis : Genesis) : Prop :=
  args.imported = some genesis ∨ args.expected = some (genesis.hash C).val

/-- What a client keeps over its life. -/
structure Sound (s : ClientState C) : Prop where
  fresh : s.files.genesis = none → s.adopted = [] ∧ s.files.network = none ∧ s.client = none
  kept : ∀ genesis, s.files.genesis = some genesis → Kept s.adopted s.files genesis
  ready : ∀ client, s.client = some client → Ready s.adopted s.files client.discovery

theorem sound_empty : (empty : ClientState C).Sound :=
  ⟨fun _ => ⟨rfl, rfl, rfl⟩, nofun, nofun⟩

/-- A pinned genesis is the one a start goes on with. -/
theorem eq_of_genesisFor {args : ServeArgs} {net : Replies C} {pinned genesis : Genesis}
    (hpinned : s.files.genesis = some pinned) (h : s.genesisFor args net = some genesis) :
    genesis = pinned := by
  unfold genesisFor at h
  rw [hpinned] at h
  dsimp only at h
  split at h
  · exact (Option.some.inj h).symm
  · cases h

/-- The genesis of a first use is given by the user. -/
theorem givenBy_of_genesisFor {args : ServeArgs} {net : Replies C} {genesis : Genesis}
    (hfresh : s.files.genesis = none) (h : s.genesisFor args net = some genesis)
    (hok : genesisOk C args genesis = true) : GivenBy C args genesis := by
  unfold genesisFor at h
  rw [hfresh] at h
  dsimp only at h
  split at h
  next himported => exact Or.inl (himported.trans h)
  next =>
    unfold genesisOk at hok
    cases hexpected : args.expected with
    | none =>
      rw [hexpected] at h
      cases h
    | some expected =>
      rw [hexpected] at hok
      simp only [Option.all_some, Bool.and_eq_true, decide_eq_true_eq] at hok
      exact Or.inr (by rw [hexpected, hok.2])

/-- What a start has read is in order. -/
theorem Sound.ready_opening (h : s.Sound) {args : ServeArgs} {net : Replies C} {genesis : Genesis}
    (hfor : s.genesisFor args net = some genesis) :
    Ready s.adopted { s.files with genesis := some genesis }
      ⟨genesis, s.files.network, args.endpoint⟩ := by
  have hheld : ∀ saved, s.files.network = some saved →
      ∃ held, s.files.network = some held ∧ Succeeds saved held :=
    fun saved hsaved => ⟨saved, hsaved, Or.inl rfl⟩
  cases hpinned : s.files.genesis with
  | none =>
    obtain ⟨hadopted, hnetwork, -⟩ := h.fresh hpinned
    rw [hadopted]
    exact ⟨⟨rfl, List.Pairwise.nil, nofun, nofun⟩, hheld⟩
  | some pinned =>
    have hkept := h.kept pinned hpinned
    rw [eq_of_genesisFor hpinned hfor]
    exact ⟨⟨rfl, hkept.order, hkept.verified, hkept.disk⟩, hheld⟩

/-- A state whose files and configurations are in order. -/
theorem sound_of_ready {d : Discovery C} {files : Files C} {adopted : List C.Config}
    {client : Option (Client C)} (h : Ready adopted files d)
    (hclient : ∀ c, client = some c → c.discovery = d) :
    (⟨files, client, adopted⟩ : ClientState C).Sound := by
  refine ⟨fun hfresh => ?_, fun genesis hpinned => ?_, fun c hc => ?_⟩
  · have hpinned := h.pinned
    rw [show files.genesis = none from hfresh] at hpinned
    cases hpinned
  · have hsame := h.pinned.symm.trans hpinned
    exact Option.some.inj hsame ▸ h.toKept
  · rw [hclient c hc]
    exact h

theorem discovery_of_opened {r : Files C × Discovery C × Option C.Config} {net : Replies C}
    {writes : Writes} {c : Client C} (h : opened K r net writes = some c) :
    c.discovery = r.2.1 := by
  unfold opened at h
  split at h
  next => cases h
  next =>
    split at h
    next => cases h
    next =>
      split at h
      next =>
        cases h
        rfl
      next => cases h

/-- **No step breaks the order.** -/
theorem Sound.step (htrans : PolicyTrans C) {s' : ClientState C} {op : ClientStep C} (h : s.Sound)
    (he : Effect K s op s') : s'.Sound := by
  cases he with
  | keep => exact h
  | unread args net writes genesis hfor hok hclient =>
    have hready := h.ready_opening hfor
    refine ⟨nofun, fun g hg => ?_, fun client hsome => ?_⟩
    · cases hg
      exact hready.toKept
    · rw [show s.client = some client from hsome] at hclient
      cases hclient
  | start args net writes genesis config hfor hok hclient hsaved r hr =>
    rw [hsaved] at hr
    exact sound_of_ready ((h.ready_opening hfor).refreshed htrans hr)
      (fun c hc => discovery_of_opened hc)
  | refresh net writes client hclient r hr =>
    refine sound_of_ready ((h.ready client hclient).refreshed htrans hr) (fun c hc => ?_)
    cases hc
    rfl
  | crash => exact ⟨fun hfresh => ⟨(h.fresh hfresh).1, (h.fresh hfresh).2.1, rfl⟩, h.kept, nofun⟩

theorem genesis_of_refreshed {d : Discovery C} {files : Files C}
    {r : Files C × Discovery C × Option C.Config} (h : Discovery.Refreshed K d files r) :
    r.1.genesis = files.genesis := by
  cases h <;> rfl

/-- The genesis is written once, and with what the user gave. -/
theorem genesis_effect {s' : ClientState C} {op : ClientStep C} (he : Effect K s op s') :
    (∀ genesis, s.files.genesis = some genesis → s'.files.genesis = some genesis) ∧
      ∀ genesis, s.files.genesis = none → s'.files.genesis = some genesis →
        ∃ args net writes, op = .start args net writes ∧ GivenBy C args genesis := by
  cases he with
  | keep =>
    refine ⟨fun _ h => h, fun genesis hnone h => ?_⟩
    rw [hnone] at h
    cases h
  | unread args net writes genesis hfor hok hclient =>
    refine ⟨fun pinned hpinned => ?_, fun g hnone hg => ?_⟩
    · rw [eq_of_genesisFor hpinned hfor]
    · cases hg
      exact ⟨args, net, writes, rfl, givenBy_of_genesisFor hnone hfor hok⟩
  | start args net writes genesis config hfor hok hclient hsaved r hr =>
    have hr' : r.1.genesis = some genesis := genesis_of_refreshed hr
    refine ⟨fun pinned hpinned => ?_, fun g hnone hg => ?_⟩
    · rw [← eq_of_genesisFor hpinned hfor]
      exact hr'
    · cases hr'.symm.trans hg
      exact ⟨args, net, writes, rfl, givenBy_of_genesisFor hnone hfor hok⟩
  | refresh net writes client hclient r hr =>
    have hr' : r.1.genesis = s.files.genesis := genesis_of_refreshed hr
    refine ⟨fun pinned hpinned => hr'.trans hpinned, fun g hnone hg => ?_⟩
    cases (hr'.trans hnone).symm.trans hg
  | crash =>
    refine ⟨fun _ h => h, fun genesis hnone h => ?_⟩
    rw [show s.files.genesis = some genesis from h] at hnone
    cases hnone

theorem sound_after (htrans : PolicyTrans C) (K : DiscoveryCrate) (steps : List (ClientStep C)) :
    (after K steps).Sound := by
  induction steps using List.reverseRecOn with
  | nil => exact sound_empty
  | append_singleton l op ih =>
    rw [after_concat]
    exact ih.step htrans (effect_step K _ op)

theorem genesis_kept (K : DiscoveryCrate) (steps later : List (ClientStep C)) {genesis : Genesis}
    (h : (after K steps).files.genesis = some genesis) :
    (after K (steps ++ later)).files.genesis = some genesis := by
  induction later using List.reverseRecOn with
  | nil => rwa [List.append_nil]
  | append_singleton l op ih =>
    rw [← List.append_assoc, after_concat]
    exact (genesis_effect (effect_step K _ op)).1 genesis ih

theorem genesis_given (K : DiscoveryCrate) (steps : List (ClientStep C)) {genesis : Genesis}
    (h : (after K steps).files.genesis = some genesis) :
    ∃ args net writes, .start args net writes ∈ steps ∧ GivenBy C args genesis := by
  induction steps using List.reverseRecOn with
  | nil => cases h
  | append_singleton l op ih =>
    cases hold : (after K l).files.genesis with
    | some pinned =>
      have hkept := genesis_kept K l [op] hold
      cases hkept.symm.trans h
      obtain ⟨args, net, writes, hmem, hgiven⟩ := ih hold
      exact ⟨args, net, writes, List.mem_append_left _ hmem, hgiven⟩
    | none =>
      rw [after_concat] at h
      obtain ⟨args, net, writes, rfl, hgiven⟩ :=
        (genesis_effect (effect_step K _ op)).2 genesis hold h
      exact ⟨args, net, writes, List.mem_append_right _ (List.mem_singleton.mpr rfl), hgiven⟩

/-- **A client never goes back.**  Over every life of a state directory, with whatever answers,
writes that fail and stops anywhere between, the configurations a refresh ended well with go
forward: no later one has a lower round, and two of one round have equal bodies.  All of them verify
under one genesis, which a user gave and which never changes once it is written. -/
theorem no_rollback (htrans : PolicyTrans C) (K : DiscoveryCrate) (steps : List (ClientStep C)) :
    let s := after K steps
    s.adopted.Pairwise (fun earlier later => earlier.body.round ≤ later.body.round ∧
        (earlier.body.round = later.body.round →
          earlier = later ∨ bodyEq later.body earlier.body = true)) ∧
      ∀ config ∈ s.adopted, ∃ genesis, s.files.genesis = some genesis ∧
        genesis.verifyConfig config = .ok () ∧
        (∃ args net writes, .start args net writes ∈ steps ∧ GivenBy C args genesis) ∧
        ∀ later, (after K (steps ++ later)).files.genesis = some genesis := by
  intro s
  have hs : s.Sound := sound_after htrans K steps
  cases hpinned : s.files.genesis with
  | none =>
    rw [(hs.fresh hpinned).1]
    exact ⟨List.Pairwise.nil, nofun⟩
  | some genesis =>
    have hkept := hs.kept genesis hpinned
    refine ⟨hkept.order.imp (fun {a b} hab => ?_), fun config hconfig => ?_⟩
    · rcases hab with rfl | hlt | ⟨heq, hbody⟩
      · exact ⟨le_rfl, fun _ => Or.inl rfl⟩
      · exact ⟨hlt.le, fun heq => absurd heq (ne_of_lt hlt)⟩
      · exact ⟨heq.le, fun _ => Or.inr hbody⟩
    · exact ⟨genesis, rfl, hkept.verified config hconfig, genesis_given K steps hpinned,
        fun later => genesis_kept K steps later hpinned⟩

end ClientState

/-! ## A toy network -/

namespace DiscoveryToy

/-- Everything is a URL, and a descriptor is signed by its tag. -/
def crate : DiscoveryCrate :=
  ⟨fun d => some (utf8 d.tag), fun _ => true, fun _ => true, fun _ => true⟩

/-- The committee of `toyNode 1` and `toyNode 2`. -/
def genesis : Genesis :=
  ⟨1, ⟨[⟨toyNode 1, toyExchangeKeys⟩, ⟨toyNode 2, toyExchangeKeys⟩], 2⟩⟩

/-- The tag of the one service, of `toyNode 3`. -/
def tag : ServiceTag := ServiceTag.fromLabel toyScheduler "eth"

/-- A version of the configuration, as both members approve it. -/
def version (round : Round) : toyScheduler.Config :=
  SchedulerCore.toyPublished
    { toyBody round (toyPanetiere 8) [1] with
      services := [(tag, toyNode 3)], endpoints := ⟨[], [(tag, [2])]⟩ }

def descriptor : ServiceDescriptor where
  version := 0
  network := genesis.hash toyScheduler
  chain := 1
  serviceIdentity := toyNode 3
  signingKey := .filled 32 7
  requestKey := .filled 32 8
  tag := "eth"
  backendRoutes := ["execution"]
  limits := ⟨1024, 256, 4, 100, 60⟩
  feed := EpochsToy.descriptor
  feedMirrors := ["mirror"]
  expiresAt := 1000

def replies (round : Round) : Replies toyScheduler where
  first := some ⟨genesis, version round⟩
  network _ := some ⟨genesis, version round⟩
  descriptor _ := some ⟨descriptor, toySign (toyNode 3) (utf8 "eth")⟩
  clock _ := 10
  done := 10

/-- A first use that names the hash of the genesis. -/
def args : ServeArgs := ⟨[1], some (genesis.hash toyScheduler).val, none⟩

def writes : Writes := ⟨true, true, true, true, true⟩

/-- The client starts at version 5, is offered version 4, and goes on to version 6. -/
def life : List (ClientStep toyScheduler) :=
  [.start args (replies 5) writes, .refresh (replies 4) writes, .refresh (replies 6) writes]

example :
    (ClientState.after crate life).adopted.map (fun config => config.body.round) = [5, 6] := by
  decide +kernel

theorem no_rollback_toy :
    let s := ClientState.after crate life
    s.adopted.Pairwise (fun earlier later => earlier.body.round ≤ later.body.round ∧
        (earlier.body.round = later.body.round →
          earlier = later ∨ bodyEq later.body earlier.body = true)) ∧
      ∀ config ∈ s.adopted, ∃ genesis, s.files.genesis = some genesis ∧
        genesis.verifyConfig config = .ok () ∧
        (∃ args net writes, .start args net writes ∈ life ∧
          ClientState.GivenBy toyScheduler args genesis) ∧
        ∀ later, (ClientState.after crate (life ++ later)).files.genesis = some genesis :=
  ClientState.no_rollback (fun _ _ _ _ _ => rfl) crate life

end DiscoveryToy

end Anymone
