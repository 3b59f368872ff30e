import Anymone.DiscoveryRun

/-! # The services a client may send to

They are those the last configuration places, under descriptors their keys have signed
(`services_authorized`); and a process reads one feed of one chain (`feed_kept`).
-/

namespace Anymone
open Eth

variable {C : SchedulerCrate}

/-! ## What a profile lists -/

/-- A service that the committee of the genesis has placed, under a descriptor of its own. -/
structure Authorized (K : DiscoveryCrate) (genesis : Genesis) (config : C.Config)
    (target : ServiceTarget) : Prop where
  placed : (ServiceTag.fromLabel C target.signed.descriptor.tag, target.serviceIdentity) ∈
    config.body.services
  network : target.signed.descriptor.network = genesis.hash C
  identity : target.signed.descriptor.serviceIdentity = target.serviceIdentity
  signed : ∃ bytes, K.signingBytes target.signed.descriptor = some bytes ∧
    C.pubkeyVerify target.serviceIdentity bytes target.signed.signature = true

/-- Every service has the feed and the chain of the profile. -/
def BrokerProfile.Uniform (p : BrokerProfile) : Prop :=
  ∀ name target, p.services.get? name = some target →
    p.feedAndChain = some (target.signed.descriptor.feed, target.signed.descriptor.chain)

namespace Discovery
variable {K : DiscoveryCrate} {d : Discovery C} {config : C.Config} {net : Replies C}

theorem authorized_of_target {entry : ServiceTag × Text} {target : ServiceTarget}
    (h : d.target K config net entry = some (some target)) :
    Authorized K d.genesis config target := by
  unfold Discovery.target at h
  split at h
  next => cases h
  next placement hfind =>
    have hmem := List.mem_of_find?_eq_some hfind
    have htag : placement.1 = entry.1 := by simpa using List.find?_some hfind
    split at h
    next => cases h
    next =>
      split at h
      next => cases h
      next signed hreply =>
        dsimp only at h
        split at h
        next => cases h
        next hchecks =>
          simp only [not_or, ne_eq, not_not] at hchecks
          obtain ⟨hnetwork, hidentity, hlabel, -⟩ := hchecks
          split at h
          next => cases h
          next bytes hbytes =>
            split at h
            next hverify =>
              cases h
              refine ⟨?_, hnetwork, hidentity, bytes, hbytes, hverify⟩
              show (ServiceTag.fromLabel C signed.descriptor.tag, placement.2) ∈ _
              rw [hlabel, ← htag]
              exact hmem
            next => cases h

theorem authorized_of_addService {acc acc' : OrdMap String ServiceTarget × List String}
    {entry : ServiceTag × Text}
    (hacc : ∀ name target, acc.1.get? name = some target → Authorized K d.genesis config target)
    (h : d.addService K config net acc entry = some acc') :
    ∀ name target, acc'.1.get? name = some target → Authorized K d.genesis config target := by
  unfold addService at h
  split at h
  next => cases h
  next =>
    cases h
    exact hacc
  next target htarget =>
    dsimp only at h
    split at h
    next => cases h
    next =>
      cases h
      intro name' target' hget
      rw [OrdMap.get?_insert] at hget
      split at hget
      next =>
        cases hget
        exact authorized_of_target htarget
      next => exact hacc name' target' hget

theorem uniform_of_validate {p : BrokerProfile} {now : U64} (h : p.validate C K now = true) :
    p.Uniform := by
  unfold BrokerProfile.validate at h
  split at h
  next => cases h
  next first rest hvalues =>
    simp only [Bool.and_eq_true, List.all_eq_true, decide_eq_true_eq] at h
    intro name target hget
    obtain ⟨-, -, hchain, hfeed⟩ := h.1.1.1 (name, target) (OrdMap.get?_eq_some_iff.mp hget)
    unfold BrokerProfile.feedAndChain
    rw [hvalues, hchain, hfeed]
    rfl

/-- **What a new profile lists.** -/
theorem authorized_of_profile {p : BrokerProfile} (h : d.profile K config net = some p) :
    (∀ name target, p.services.get? name = some target → Authorized K d.genesis config target) ∧
      p.Uniform := by
  unfold profile at h
  split at h
  next => cases h
  next services mirrors hloop =>
    dsimp only at h
    split at h
    next hvalid =>
      cases h
      exact ⟨Guards.foldlM_induction
        (P := fun acc => ∀ name target, acc.1.get? name = some target →
          Authorized K d.genesis config target)
        (fun _ _ _ hacc => authorized_of_addService hacc) (fun name target hget => by cases hget)
        hloop, uniform_of_validate hvalid⟩
    next => cases h

end Discovery

/-- A service that is not revoked was not before, and is placed. -/
theorem get?_authorizeServices {config : C.Config} {p : BrokerProfile} {name : String}
    {target : ServiceTarget} (h : (authorizeServices config p).services.get? name = some target) :
    ∃ old, p.services.get? name = some old ∧ target.signed = old.signed ∧
      target.serviceIdentity = old.serviceIdentity ∧
      (target.revoked = false → old.revoked = false ∧
        (ServiceTag.fromLabel C old.signed.descriptor.tag, old.serviceIdentity) ∈
          config.body.services) := by
  unfold authorizeServices at h
  dsimp only at h
  rw [OrdMap.get?_mapVals, Option.map_eq_some_iff] at h
  obtain ⟨old, hold, rfl⟩ := h
  refine ⟨old, hold, ?_⟩
  split
  next hplaced =>
    refine ⟨rfl, rfl, fun hlive => ⟨hlive, ?_⟩⟩
    obtain ⟨entry, hmem, hentry⟩ := List.any_eq_true.mp hplaced
    obtain ⟨htag, hpk⟩ := of_decide_eq_true hentry
    rw [← htag, ← hpk]
    exact hmem
  next => exact ⟨rfl, rfl, fun hlive => by cases hlive⟩

theorem feedAndChain_authorizeServices (config : C.Config) (p : BrokerProfile) :
    (authorizeServices config p).feedAndChain = p.feedAndChain := by
  unfold authorizeServices BrokerProfile.feedAndChain OrdMap.values OrdMap.mapVals
  dsimp only
  cases p.services.entries with
  | nil => rfl
  | cons e l =>
    simp only [List.map_cons, List.head?_cons, Option.map_some]
    split <;> rfl

theorem uniform_authorizeServices {p : BrokerProfile} (h : p.Uniform) (config : C.Config) :
    (authorizeServices config p).Uniform := by
  intro name target hget
  obtain ⟨old, hold, hsigned, -, -⟩ := get?_authorizeServices hget
  rw [feedAndChain_authorizeServices, hsigned]
  exact h name old hold

namespace ClientState
variable {K : DiscoveryCrate} {s : ClientState C}

/-- The profile of a client lists, where it is not revoked, what the last configuration places. -/
structure Serves (K : DiscoveryCrate) (adopted : List C.Config) (client : Client C) : Prop where
  live : ∃ config, adopted.getLast? = some config ∧
    ∀ name target, client.profile.services.get? name = some target → target.revoked = false →
      Authorized K client.discovery.genesis config target
  uniform : client.profile.Uniform

/-- A refresh leaves the feed and the chain of the profile. -/
theorem feedAndChain_renewed (client : Client C) (r : Files C × Discovery C × Option C.Config)
    (net : Replies C) (writes : Writes) :
    (renewed K client r net writes).feedAndChain = client.profile.feedAndChain := by
  unfold renewed
  split
  next => rfl
  next config hres =>
    dsimp only
    split
    next => exact feedAndChain_authorizeServices config client.profile
    next next hnext =>
      split
      next hsame => rw [← hsame.1, feedAndChain_authorizeServices]
      next => exact feedAndChain_authorizeServices config client.profile

theorem Serves.refreshed {adopted : List C.Config} {client : Client C}
    (h : Serves K adopted client) {files : Files C}
    {r : Files C × Discovery C × Option C.Config}
    (hr : Discovery.Refreshed K client.discovery files r) (net : Replies C) (writes : Writes) :
    Serves K (adopted ++ r.2.2.toList) ⟨r.2.1, renewed K client r net writes⟩ := by
  have hgenesis : r.2.1.genesis = client.discovery.genesis := by cases hr <;> rfl
  obtain ⟨last, hlast, hlive⟩ := h.live
  cases hres : r.2.2 with
  | none =>
    have hsame : renewed K client r net writes = client.profile := by
      unfold renewed
      rw [hres]
    rw [hsame]
    refine ⟨⟨last, by simpa using hlast, fun name target hget hrev => ?_⟩, h.uniform⟩
    show Authorized K r.2.1.genesis last target
    rw [hgenesis]
    exact hlive name target hget hrev
  | some config =>
    -- the old profile, without what the new configuration has dropped
    have hold : ∀ name target,
        (authorizeServices config client.profile).services.get? name = some target →
        target.revoked = false → Authorized K r.2.1.genesis config target := by
      intro name target hget hrev
      obtain ⟨old, hget', hsigned, hident, hkept⟩ := get?_authorizeServices hget
      obtain ⟨hrev', hplaced⟩ := hkept hrev
      obtain ⟨-, hnetwork, hidentity, hverify⟩ := hlive name old hget' hrev'
      refine ⟨?_, ?_, ?_, ?_⟩
      · rw [hsigned, hident]
        exact hplaced
      · rw [hsigned, hgenesis]
        exact hnetwork
      · rw [hsigned, hident]
        exact hidentity
      · rw [hsigned, hident]
        exact hverify
    have huniform := uniform_authorizeServices h.uniform config
    have hlast' : (adopted ++ (some config).toList).getLast? = some config := by simp
    unfold renewed
    rw [hres]
    dsimp only
    split
    next => exact ⟨⟨config, hlast', hold⟩, huniform⟩
    next next hnext =>
      obtain ⟨hnew, hnewuniform⟩ := Discovery.authorized_of_profile hnext
      split
      next => exact ⟨⟨config, hlast', fun name target hget _ => hnew name target hget⟩, hnewuniform⟩
      next => exact ⟨⟨config, hlast', hold⟩, huniform⟩

theorem serves_opened {r : Files C × Discovery C × Option C.Config} {net : Replies C}
    {writes : Writes} {client : Client C} (h : opened K r net writes = some client)
    (adopted : List C.Config) : Serves K (adopted ++ r.2.2.toList) client := by
  unfold opened at h
  split at h
  next => cases h
  next config hres =>
    split at h
    next => cases h
    next profile hprofile =>
      split at h
      next =>
        cases h
        obtain ⟨hnew, huniform⟩ := Discovery.authorized_of_profile hprofile
        exact ⟨⟨config, by rw [hres]; simp, fun name target hget _ => hnew name target hget⟩,
          huniform⟩
      next => cases h

theorem serves_after (K : DiscoveryCrate) (steps : List (ClientStep C)) :
    ∀ client, (after K steps).client = some client →
      Serves K (after K steps).adopted client := by
  induction steps using List.reverseRecOn with
  | nil => exact nofun
  | append_singleton l op ih =>
    rw [after_concat]
    intro client hclient
    have he := effect_step K (after K l) op
    revert hclient
    generalize (after K l).step K op = s' at he
    cases he with
    | keep => exact ih client
    | unread args net writes genesis hfor hok hnone => exact ih client
    | start args net writes genesis config hfor hok hnone hsaved r hr =>
      exact fun hopened => serves_opened hopened _
    | refresh net writes old hold r hr =>
      intro hclient
      cases hclient
      exact (ih old hold).refreshed hr net writes
    | crash => exact nofun

/-- **A client sends to no service its committee has not placed.**  In every state of every life, a
service of the broker's profile that is not revoked is placed by the last configuration that a
refresh ended well with, under its own key, and its descriptor is for the pinned network and signed
by that key. -/
theorem services_authorized (K : DiscoveryCrate) (steps : List (ClientStep C)) (client : Client C)
    (hclient : (after K steps).client = some client) (name : String) (target : ServiceTarget)
    (hget : client.profile.services.get? name = some target) (hlive : target.revoked = false) :
    ∃ config, (after K steps).adopted.getLast? = some config ∧
      Authorized K client.discovery.genesis config target := by
  obtain ⟨config, hlast, h⟩ := (serves_after K steps client hclient).live
  exact ⟨config, hlast, h name target hget hlive⟩

/-- **A process reads one feed of one chain.**  Whatever refreshes bring, every service of its
profile, revoked or not, keeps the feed and the chain the process has started with. -/
theorem feed_kept (K : DiscoveryCrate) (steps later : List (ClientStep C)) (client : Client C)
    (hclient : (after K steps).client = some client)
    (hlater : ∀ op ∈ later, op ≠ .crash) :
    ∃ client', (after K (steps ++ later)).client = some client' ∧
      client'.discovery.genesis = client.discovery.genesis ∧
      client'.profile.feedAndChain = client.profile.feedAndChain ∧
      ∀ name target, client'.profile.services.get? name = some target →
        client.profile.feedAndChain =
          some (target.signed.descriptor.feed, target.signed.descriptor.chain) := by
  have hrun : ∃ client', (after K (steps ++ later)).client = some client' ∧
      client'.discovery.genesis = client.discovery.genesis ∧
      client'.profile.feedAndChain = client.profile.feedAndChain := by
    induction later using List.reverseRecOn with
    | nil => exact ⟨client, by rwa [List.append_nil], rfl, rfl⟩
    | append_singleton l op ih =>
      obtain ⟨mid, hmid, hgenesis, hfeed⟩ := ih (fun o ho => hlater o (List.mem_append_left _ ho))
      have hop : op ≠ .crash :=
        hlater op (List.mem_append_right _ (List.mem_singleton.mpr rfl))
      rw [← List.append_assoc, after_concat]
      have he := effect_step K (after K (steps ++ l)) op
      generalize (after K (steps ++ l)).step K op = s' at he ⊢
      cases he with
      | keep => exact ⟨mid, hmid, hgenesis, hfeed⟩
      | unread args net writes genesis hfor hok hnone => exact ⟨mid, hmid, hgenesis, hfeed⟩
      | start args net writes genesis config hfor hok hnone hsaved r hr =>
        rw [hnone] at hmid
        cases hmid
      | refresh net writes old hold r hr =>
        cases hold.symm.trans hmid
        refine ⟨_, rfl, ?_, (feedAndChain_renewed mid r net writes).trans hfeed⟩
        have hsame : r.2.1.genesis = mid.discovery.genesis := by cases hr <;> rfl
        exact hsame.trans hgenesis
      | crash => exact absurd rfl hop
  obtain ⟨client', hclient', hgenesis, hfeed⟩ := hrun
  refine ⟨client', hclient', hgenesis, hfeed, fun name target hget => ?_⟩
  rw [← hfeed]
  exact (serves_after K _ client' hclient').uniform name target hget

end ClientState

namespace DiscoveryToy
open ClientState

theorem alive : (after crate life).client.isSome = true := by decide +kernel

/-- The process at the end of the toy life. -/
def running : Client toyScheduler := (after crate life).client.get alive

/-- The one service. -/
def service : ServiceTarget := ⟨toyNode 3, ⟨descriptor, toySign (toyNode 3) (utf8 "eth")⟩, false⟩

theorem services_authorized_toy :
    ∃ config, (after crate life).adopted.getLast? = some config ∧
      Authorized crate running.discovery.genesis config service :=
  services_authorized crate life running (Option.some_get alive).symm "eth" service
    (by decide +kernel) rfl

theorem feed_kept_toy :
    ∃ client', (after crate (life ++ [.refresh (replies 7) writes])).client = some client' ∧
      client'.discovery.genesis = running.discovery.genesis ∧
      client'.profile.feedAndChain = running.profile.feedAndChain ∧
      ∀ name target, client'.profile.services.get? name = some target →
        running.profile.feedAndChain =
          some (target.signed.descriptor.feed, target.signed.descriptor.chain) :=
  feed_kept crate life [.refresh (replies 7) writes] running (Option.some_get alive).symm
    (fun op hop => by rw [List.mem_singleton.mp hop]; exact nofun)

end DiscoveryToy

end Anymone
