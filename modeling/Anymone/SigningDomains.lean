import Anymone.Contribution
import Anymone.RegistrationSignature
import Anymone.ScheduledCodec
import Anymone.SchedulerPublished

/-! # What an identity signs, told apart by its tags

One key of a node signs its registrations, the bodies it proposes and approves, its part of every
Panetière round, its reservations, its enrolments and its contributions.  Each of these kinds of
message puts a tag of its own before its fields, and no tag begins another.  So a signature made for
one message never serves for another (`IdentityMessage.bytes_inj`), and the approvals a published
configuration shows were given to that body and for that purpose (`multisig_approved`).

The aggregate of an ADCNet group is signed without a tag and is no message here.  Neither is the
descriptor that the identity of an Ethereum service signs, under a tag of its own.
-/

namespace Anymone

/-- The purposes a tag tells apart. -/
inductive SigningRole where
  | relay
  | watcher
  | service
  | propose
  | approve
  | serverPublic
  | clientPublic
  | clientOpening
  | clientBundle
  | clientFragment
  | clientSlice
  | reservations
  | enrolment
  | contribution
  deriving DecidableEq

/-- The tag of a purpose.  That of the reservations stands behind its length. -/
def SigningRole.tag : SigningRole → Bytes
  | relay => ascii "anymone-relay"
  | watcher => ascii "anymone-watcher"
  | service => ascii "anymone-service"
  | propose => ascii "anymone/config/propose"
  | approve => ascii "anymone/config/approve"
  | serverPublic => ascii "anymone/panetiere/server-public"
  | clientPublic => ascii "anymone/panetiere/client-public"
  | clientOpening => ascii "anymone/panetiere/client-opening"
  | clientBundle => ascii "anymone/panetiere/client-bundle"
  | clientFragment => ascii "anymone/panetiere/client-fragment"
  | clientSlice => ascii "anymone/panetiere/client-slice"
  | reservations => PanetiereWire.blob.write (ascii "anymone/panetiere/reservations/v1")
  | enrolment => Contribution.enrolmentDomain
  | contribution => Contribution.manifestDomain

/-- Every purpose. -/
def SigningRole.all : List SigningRole :=
  [relay, watcher, service, propose, approve, serverPublic, clientPublic, clientOpening,
    clientBundle, clientFragment, clientSlice, reservations, enrolment, contribution]

theorem SigningRole.mem_all (role : SigningRole) : role ∈ all := by
  cases role <;> decide

theorem SigningRole.tag_prefixFree : PrefixFree tag := by
  have htags : ∀ i ∈ all, ∀ j ∈ all, i ≠ j → ¬ tag i <+: tag j := by decide +kernel
  exact fun i j => htags i (mem_all i) j (mem_all j)

/-- A message an identity signs. -/
inductive IdentityMessage (C : SchedulerCrate) where
  | registration (reg : Registration)
  | propose (body : C.Body)
  | approve (body : C.Body)
  | serverPublic (round : Round) (serverId : U32) (clients : List U32)
      (aggOpen aggShare shareSum laneOpen : Bytes)
  | clientPublic (round : Round) (clientId : U32) (entry : Bytes)
  | clientOpening (round : Round) (clientId target : U32) (sealed : Bytes)
  | clientBundle (round : Round) (clientId lane : U32) (data : Bytes)
  | clientFragment (round : Round) (clientId target : U32) (data : Bytes)
  | clientSlice (round : Round) (clientId lane : U32) (share path : Bytes)
  | reservations (seed : ByteArr 32) (round : Round) (entries : List Entry)
  | enrolment (statement : Contribution.EnrolmentStatement)
  | contribution (manifest : Contribution.ContributionManifest)

namespace IdentityMessage
variable {C : SchedulerCrate}

/-- The bytes `Identity::sign` is called on. -/
def bytes : IdentityMessage C → Bytes
  | registration reg => reg.signMsg
  | propose body => body.proposeBytes
  | approve body => body.approveBytes
  | serverPublic round serverId clients aggOpen aggShare shareSum laneOpen =>
      serverPublicSigningBytes round serverId clients aggOpen aggShare shareSum laneOpen
  | clientPublic round clientId entry => clientPublicSigningBytes round clientId entry
  | clientOpening round clientId target sealed =>
      clientOpeningSigningBytes round clientId target sealed
  | clientBundle round clientId lane data => clientBundleSigningBytes round clientId lane data
  | clientFragment round clientId target data =>
      clientFragmentSigningBytes round clientId target data
  | clientSlice round clientId lane share path =>
      clientSliceSigningBytes round clientId lane share path
  | reservations seed round entries => reservationSigningBytes seed round entries
  | enrolment statement => statement.canonicalBytes
  | contribution manifest => manifest.signedBytes

/-- The purpose of a message. -/
def role : IdentityMessage C → SigningRole
  | registration (.relay ..) => .relay
  | registration (.service ..) => .service
  | registration (.watcher ..) => .watcher
  | propose _ => .propose
  | approve _ => .approve
  | serverPublic .. => .serverPublic
  | clientPublic .. => .clientPublic
  | clientOpening .. => .clientOpening
  | clientBundle .. => .clientBundle
  | clientFragment .. => .clientFragment
  | clientSlice .. => .clientSlice
  | reservations .. => .reservations
  | enrolment _ => .enrolment
  | contribution _ => .contribution

/-- The message without the signature a registration carries. -/
def unsigned : IdentityMessage C → IdentityMessage C
  | registration reg => registration reg.unsigned
  | m => m

/-- The lengths of the exchange keys, in a registration that carries them. -/
def keyLengths : IdentityMessage C → Option (Nat × Nat × Nat)
  | registration reg => reg.keyLengths
  | _ => none

/-! ## The fields behind the tags -/

section Fields
open Bincode PanetiereWire

/-- The fields of a server's public message. -/
def serverPublicFields : Bincode (Round × U32 × List U32 × Bytes × Bytes × Bytes × Bytes) :=
  pair long (pair word (pair (list .little word) (pair blob (pair blob (pair blob blob)))))

/-- The fields of a client's public message. -/
def clientPublicFields : Bincode (Round × U32 × Bytes) := pair long (pair word blob)

/-- The fields of a message to one server or lane. -/
def toServerFields : Bincode (Round × U32 × U32 × Bytes) := pair long (pair word (pair word blob))

/-- The fields of a slice. -/
def clientSliceFields : Bincode (Round × U32 × U32 × Bytes × Bytes) :=
  pair long (pair word (pair word (pair blob blob)))

/-- The fields of a list of reservations. -/
def reservationFields : Bincode (ByteArr 32 × Round × List Entry) :=
  pair (array 32) (pair long (list .little (pair (u16 .little) (u16 .little))))

end Fields

/-- The lengths of its lists and texts are machine words, and a manifest has no more payloads than
`canonical_bytes` takes. -/
def Fits : IdentityMessage C → Prop
  | registration reg => reg.Fits
  | propose body | approve body => (ConfigFormat.body C.policyFormat).Fits body
  | serverPublic round serverId clients aggOpen aggShare shareSum laneOpen =>
      serverPublicFields.Fits (round, serverId, clients, aggOpen, aggShare, shareSum, laneOpen)
  | clientPublic round clientId entry => clientPublicFields.Fits (round, clientId, entry)
  | clientOpening round clientId target data | clientBundle round clientId target data
  | clientFragment round clientId target data =>
      toServerFields.Fits (round, clientId, target, data)
  | clientSlice round clientId lane share path =>
      clientSliceFields.Fits (round, clientId, lane, share, path)
  | reservations seed round entries => reservationFields.Fits (seed, round, entries)
  | enrolment _ => True
  | contribution manifest => manifest.payloads.length ≤ Contribution.maxPayloads

/-- What follows the tag. -/
def fields : IdentityMessage C → Bytes
  | registration reg => reg.signMsg.drop (role (C := C) (registration reg)).tag.length
  | propose body | approve body => body.canonicalBytes
  | serverPublic round serverId clients aggOpen aggShare shareSum laneOpen =>
      serverPublicFields.write (round, serverId, clients, aggOpen, aggShare, shareSum, laneOpen)
  | clientPublic round clientId entry => clientPublicFields.write (round, clientId, entry)
  | clientOpening round clientId target data | clientBundle round clientId target data
  | clientFragment round clientId target data =>
      toServerFields.write (round, clientId, target, data)
  | clientSlice round clientId lane share path =>
      clientSliceFields.write (round, clientId, lane, share, path)
  | reservations seed round entries => reservationFields.write (seed, round, entries)
  | enrolment statement => Contribution.ContributionFormat.statement.write statement
  | contribution manifest => Contribution.ContributionFormat.manifest.write manifest

theorem bytes_eq (m : IdentityMessage C) : m.bytes = m.role.tag ++ m.fields := by
  cases m with
  | registration reg =>
    have hprefix : (role (C := C) (registration reg)).tag <+: reg.signMsg := by
      cases reg with
      | relay => exact ⟨_, by simp [Registration.signMsg, Registration.relaySignMsg, role,
          SigningRole.tag, List.append_assoc]; rfl⟩
      | service => exact ⟨_, by simp [Registration.signMsg, Registration.serviceSignMsg, role,
          SigningRole.tag, List.append_assoc]; rfl⟩
      | watcher => exact ⟨_, rfl⟩
    exact (List.prefix_append_drop hprefix)
  | enrolment s => exact Contribution.ContributionFormat.canonicalBytes_statement s
  | contribution m => exact Contribution.ContributionFormat.signedBytes_manifest m
  | _ => rfl

/-! ## A signature serves one message -/

variable {m m' : IdentityMessage C}

theorem keyLengths_unsigned (m : IdentityMessage C) : m.unsigned.keyLengths = m.keyLengths := by
  cases m with
  | registration reg => exact Registration.keyLengths_unsigned reg
  | _ => rfl

/-- Messages of one purpose that are no registrations have the same fields when these are written
alike. -/
theorem eq_of_fields (hm : m.Fits) (hm' : m'.Fits) (hrole : m.role = m'.role)
    (hplain : ∀ reg, m ≠ registration reg) (h : m.fields = m'.fields) : m = m' := by
  -- The purposes differ, or the fields are written in one format, which is injective.
  cases m with
  | registration reg => exact absurd rfl (hplain reg)
  | propose body =>
    cases m' with
    | propose body' => rw [Bincode.write_inj _ hm hm' h]
    | registration reg => cases reg <;> cases hrole
    | _ => cases hrole
  | approve body =>
    cases m' with
    | approve body' => rw [Bincode.write_inj _ hm hm' h]
    | registration reg => cases reg <;> cases hrole
    | _ => cases hrole
  | serverPublic =>
    cases m' with
    | serverPublic => cases Bincode.write_inj _ hm hm' h; rfl
    | registration reg => cases reg <;> cases hrole
    | _ => cases hrole
  | clientPublic =>
    cases m' with
    | clientPublic => cases Bincode.write_inj _ hm hm' h; rfl
    | registration reg => cases reg <;> cases hrole
    | _ => cases hrole
  | clientOpening =>
    cases m' with
    | clientOpening => cases Bincode.write_inj _ hm hm' h; rfl
    | registration reg => cases reg <;> cases hrole
    | _ => cases hrole
  | clientBundle =>
    cases m' with
    | clientBundle => cases Bincode.write_inj _ hm hm' h; rfl
    | registration reg => cases reg <;> cases hrole
    | _ => cases hrole
  | clientFragment =>
    cases m' with
    | clientFragment => cases Bincode.write_inj _ hm hm' h; rfl
    | registration reg => cases reg <;> cases hrole
    | _ => cases hrole
  | clientSlice =>
    cases m' with
    | clientSlice => cases Bincode.write_inj _ hm hm' h; rfl
    | registration reg => cases reg <;> cases hrole
    | _ => cases hrole
  | reservations =>
    cases m' with
    | reservations => cases Bincode.write_inj _ hm hm' h; rfl
    | registration reg => cases reg <;> cases hrole
    | _ => cases hrole
  | enrolment s =>
    cases m' with
    | enrolment s' =>
      rw [Bincode.write_inj _ (Contribution.ContributionFormat.fits_statement s)
        (Contribution.ContributionFormat.fits_statement s') h]
    | registration reg => cases reg <;> cases hrole
    | _ => cases hrole
  | contribution manifest =>
    cases m' with
    | contribution manifest' =>
      rw [Bincode.write_inj _ (Contribution.ContributionFormat.fits_manifest hm)
        (Contribution.ContributionFormat.fits_manifest hm') h]
    | registration reg => cases reg <;> cases hrole
    | _ => cases hrole

/-- A message of the purpose of a registration is a registration. -/
theorem exists_registration {reg : Registration}
    (hrole : role (C := C) (registration reg) = m'.role) : ∃ reg', m' = registration reg' := by
  cases m' with
  | registration reg' => exact ⟨reg', rfl⟩
  | _ => cases reg <;> cases hrole

/-- **The bytes of a message tell its purpose, and its fields except for the exchange keys of a
registration, which they tell as far as the lengths of the keys are known.** -/
theorem bytes_inj (hm : m.Fits) (hm' : m'.Fits) (h : m.bytes = m'.bytes) :
    m.role = m'.role ∧ (m.unsigned = m'.unsigned ↔ m.keyLengths = m'.keyLengths) := by
  have htags := h
  rw [bytes_eq, bytes_eq m'] at htags
  obtain ⟨hrole, hfields⟩ := SigningRole.tag_prefixFree.append_inj htags
  refine ⟨hrole, fun he => ?_, fun hl => ?_⟩
  · rw [← keyLengths_unsigned m, he, keyLengths_unsigned]
  · by_cases hplain : ∃ reg, m = registration reg
    · obtain ⟨reg, rfl⟩ := hplain
      obtain ⟨reg', rfl⟩ := exists_registration hrole
      exact congrArg registration ((Registration.unsigned_eq_iff hm hm' h).mpr hl)
    · rw [eq_of_fields hm hm' hrole (fun reg hreg => hplain ⟨reg, hreg⟩) hfields]

/-- The registration that is cut anew: the same bytes, and keys of other lengths. -/
theorem bytes_inj_cut :
    let m : IdentityMessage toyScheduler := registration (Registration.keyed Registration.nodeKeys)
    let m' : IdentityMessage toyScheduler := registration (Registration.keyed Registration.cutKeys)
    m.role = m'.role ∧ (m.unsigned = m'.unsigned ↔ m.keyLengths = m'.keyLengths) :=
  bytes_inj (by simp [Fits, Registration.Fits, Registration.keyed, Bincode.pair, Bincode.option])
    (by simp [Fits, Registration.Fits, Registration.keyed, Bincode.pair, Bincode.option])
    (by decide +kernel)

end IdentityMessage

/-! ## The approvals of a configuration -/

section Multisig
variable {C : SchedulerCrate} {committee : List Pubkey} {config : C.Config}

/-- Every signer that counts is another member, whose signature of the approval verifies. -/
theorem multisigSigners_spec (committee : List Pubkey) (config : C.Config) :
    (multisigSigners committee config).Nodup ∧ ∀ pk ∈ multisigSigners committee config,
      pk ∈ committee ∧ ∃ sig ∈ config.signatures, sig.signer = pk ∧
        C.pubkeyVerify sig.signer config.body.approveBytes sig.bytes = true := by
  obtain ⟨body, signatures⟩ := config
  unfold multisigSigners
  dsimp only
  induction signatures using List.reverseRecOn with
  | nil => exact ⟨List.nodup_nil, fun pk h => absurd h List.not_mem_nil⟩
  | append_singleton l sig ih =>
    obtain ⟨hnodup, hsigned⟩ := ih
    rw [List.foldl_append, List.foldl_cons, List.foldl_nil]
    generalize l.foldl _ [] = seen at hnodup hsigned ⊢
    have hgrown : ∀ pk ∈ seen, pk ∈ committee ∧ ∃ sig' ∈ l ++ [sig], sig'.signer = pk ∧
        C.pubkeyVerify sig'.signer body.approveBytes sig'.bytes = true := by
      intro pk hpk
      obtain ⟨hmem, sig', hsig', hver⟩ := hsigned pk hpk
      exact ⟨hmem, sig', List.mem_append_left _ hsig', hver⟩
    by_cases hnew : sig.signer ∈ seen
    · rw [if_neg (by simp [hnew])]
      exact ⟨hnodup, hgrown⟩
    · split
      next hcounts =>
        simp only [Bool.and_eq_true, List.contains_iff_mem] at hcounts
        refine ⟨?_, fun pk hpk => ?_⟩
        · rw [List.nodup_append]
          exact ⟨hnodup, List.nodup_singleton _, fun a ha b hb hab =>
            hnew (List.mem_singleton.mp hb ▸ hab ▸ ha)⟩
        · rcases List.mem_append.mp hpk with hold | hlast
          · exact hgrown pk hold
          · cases List.mem_singleton.mp hlast
            exact ⟨hcounts.1.1, sig, by simp, rfl, hcounts.2⟩
      next => exact ⟨hnodup, hgrown⟩

/-- **A configuration that passes the check was approved by enough members**: where a signature that
verifies was made over a message of its identity, each of the distinct members the check counts
signed the approval of this very body, and no proposal, registration or protocol message of theirs
stands in for it. -/
theorem multisig_approved (signed : Pubkey → IdentityMessage C → Prop) (committee : List Pubkey)
    (threshold : U32) (config : C.Config)
    (hfits : (ConfigFormat.body C.policyFormat).Fits config.body)
    (hunforged : ∀ sig ∈ config.signatures,
      C.pubkeyVerify sig.signer config.body.approveBytes sig.bytes = true →
        ∃ m, signed sig.signer m ∧ m.Fits ∧ m.bytes = config.body.approveBytes)
    (h : verifyMultisig committee threshold config = true) :
    ∃ members : List Pubkey, members.Nodup ∧ 0 < threshold.val ∧ threshold.val ≤ members.length ∧
      ∀ pk ∈ members, pk ∈ committee ∧ signed pk (.approve config.body) := by
  unfold verifyMultisig at h
  simp only [Bool.and_eq_true, decide_eq_true_eq] at h
  obtain ⟨⟨hzero, -⟩, hcount⟩ := h
  obtain ⟨hnodup, hsigners⟩ := multisigSigners_spec committee config
  refine ⟨multisigSigners committee config, hnodup, ?_, hcount, fun pk hpk => ?_⟩
  · exact Nat.pos_of_ne_zero fun hval => hzero (Fin.ext hval)
  · obtain ⟨hmem, sig, hsig, rfl, hver⟩ := hsigners pk hpk
    obtain ⟨m, hm, hmfits, hbytes⟩ := hunforged sig hsig hver
    obtain ⟨hrole, hfields⟩ :=
      @IdentityMessage.bytes_inj _ m (.approve config.body) hmfits hfits hbytes
    have hplain : m = .approve config.body := by
      cases m with
      | registration reg => cases reg <;> cases hrole
      | approve body => exact hfields.mpr rfl
      | _ => cases hrole
    exact ⟨hmem, hplain ▸ hm⟩

/-- Version 5 of the toy configuration fits its length words. -/
theorem fits_fifthVersion :
    (ConfigFormat.body toyScheduler.policyFormat).Fits SchedulerCore.fifthVersion := by
  have hsubnet : ∃ f, ConfigFormat.protocolVariants (ConfigFormat.protocolTag (toyPanetiere 8)) =
      some f ∧ f.Fits (toyPanetiere 8) :=
    ⟨_, rfl, _, rfl, trivial, trivial, trivial, trivial, trivial, trivial, trivial, trivial, trivial⟩
  have hkeys : ∀ e ∈ [(toyNode 9, toyExchangeKeys)],
      (Bincode.pair ConfigFormat.key ConfigFormat.exchangeKey).Fits e := by
    intro e he
    cases List.mem_singleton.mp he
    refine ⟨trivial, ?_, ?_, ?_⟩ <;> (show List.length _ < _) <;> decide +kernel
  have hone : ∀ {α : Type} (a : α), [a].length < 18446744073709551616 := fun _ => by simp
  refine ⟨trivial, ⟨⟨by decide, nofun⟩, by decide, nofun⟩, trivial, ⟨by decide, nofun⟩,
    ⟨hone _, hkeys⟩, ⟨hone _, ?_⟩, ⟨hone _, ?_⟩, ⟨by decide, nofun⟩, trivial⟩
  · intro sub hsub
    cases List.mem_singleton.mp hsub
    exact ⟨trivial, ⟨hone _, fun _ _ => trivial⟩, hsubnet, trivial, trivial⟩
  · intro e he
    cases List.mem_singleton.mp he
    exact ⟨trivial, hone _⟩

/-- What the two toy members signed. -/
def toySigned (pk : Pubkey) (m : IdentityMessage toyScheduler) : Prop :=
  (pk = toyNode 1 ∨ pk = toyNode 2) ∧ m = .approve SchedulerCore.fifthVersion

theorem multisig_approved_toy :
    ∃ members : List Pubkey, members.Nodup ∧ 0 < (toyMember 2).threshold.val ∧
      (toyMember 2).threshold.val ≤ members.length ∧ ∀ pk ∈ members,
        pk ∈ (toyMember 2).committee ∧ toySigned pk (.approve SchedulerCore.fifthVersion) :=
  multisig_approved toySigned (toyMember 2).committee (toyMember 2).threshold
    (SchedulerCore.toyPublished SchedulerCore.fifthVersion) fits_fifthVersion
    (fun sig hsig _ => ⟨.approve SchedulerCore.fifthVersion,
      ⟨by
        rcases List.mem_cons.mp hsig with rfl | hsig
        · exact Or.inl rfl
        · cases List.mem_singleton.mp hsig
          exact Or.inr rfl, rfl⟩, fits_fifthVersion, rfl⟩)
    (by decide +kernel)

end Multisig
end Anymone
