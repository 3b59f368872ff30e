import Anymone.SchedulerChannel

/-! # What a registration signature covers

A node signs its registration under a tag of the variant, then its fixed-width fields, its three
exchange keys one after another, and its endpoints.  The tags keep the variants apart and the
endpoints carry their lengths, but the keys do not: the signed bytes fix the keys put one after
another, and each key only as far as the lengths are known.
-/

namespace Anymone

/-- The lengths of the three keys. -/
def ExchangePublicKeyWire.lengths (xk : ExchangePublicKeyWire) : Nat × Nat × Nat :=
  (xk.ecdh.length, xk.kem.length, xk.setSig.length)

/-- Keys of the same lengths are read back from their concatenation and what follows it. -/
theorem ExchangePublicKeyWire.append_inj {a b : ExchangePublicKeyWire} {rest rest' : Bytes}
    (hl : a.lengths = b.lengths)
    (h : a.ecdh ++ (a.kem ++ (a.setSig ++ rest)) = b.ecdh ++ (b.kem ++ (b.setSig ++ rest'))) :
    a = b ∧ rest = rest' := by
  obtain ⟨aEcdh, aKem, aSetSig⟩ := a
  obtain ⟨bEcdh, bKem, bSetSig⟩ := b
  obtain ⟨hecdh, hkem, hset⟩ := by simpa [lengths] using hl
  obtain ⟨rfl, h1⟩ := append_eq_append_of_length hecdh h
  obtain ⟨rfl, h2⟩ := append_eq_append_of_length hkem h1
  obtain ⟨rfl, h3⟩ := append_eq_append_of_length hset h2
  exact ⟨rfl, h3⟩

namespace Registration

/-- The bytes the signature of a registration covers. -/
def signMsg : Registration → Bytes
  | relay pubkey xk clientAddr rpcUrl _ => relaySignMsg pubkey xk clientAddr rpcUrl
  | service tag pubkey xk descriptorUrl _ => serviceSignMsg tag pubkey xk descriptorUrl
  | watcher pubkey _ => watcherSignMsg pubkey

/-- The variant and the signed fields: all but the signature. -/
def unsigned : Registration → Registration
  | relay pubkey xk clientAddr rpcUrl _ => relay pubkey xk clientAddr rpcUrl []
  | service tag pubkey xk descriptorUrl _ => service tag pubkey xk descriptorUrl []
  | watcher pubkey _ => watcher pubkey []

/-- The lengths of the exchange keys of a registration that carries them. -/
def keyLengths : Registration → Option (Nat × Nat × Nat)
  | relay _ xk _ _ _ | service _ _ xk _ _ => some xk.lengths
  | watcher .. => none

/-- The lengths of its texts are machine words. -/
def Fits : Registration → Prop
  | relay _ _ clientAddr rpcUrl _ =>
      (Bincode.pair (Bincode.option (Bincode.bytes .little))
        (Bincode.option (Bincode.bytes .little))).Fits (clientAddr, rpcUrl)
  | service _ _ _ descriptorUrl _ => (Bincode.option (Bincode.bytes .little)).Fits descriptorUrl
  | watcher .. => True

/-- The letter of the tag that tells the variants apart. -/
def letter : Registration → U8
  | relay .. => 114
  | service .. => 115
  | watcher .. => 119

theorem signMsg_letter (reg : Registration) : reg.signMsg[8]? = some reg.letter := by
  cases reg with
  | relay =>
    simp only [signMsg, relaySignMsg, List.append_assoc]
    rw [List.getElem?_append_left (by decide)]
    rfl
  | service =>
    simp only [signMsg, serviceSignMsg, List.append_assoc]
    rw [List.getElem?_append_left (by decide)]
    rfl
  | watcher =>
    simp only [signMsg, watcherSignMsg]
    rw [List.getElem?_append_left (by decide)]
    rfl

section Signed
variable {a b : Registration}

/-- Signed bytes that agree are of one variant. -/
theorem letter_of_signMsg (h : a.signMsg = b.signMsg) : a.letter = b.letter := by
  have hletter := congrArg (fun bytes : Bytes => bytes[8]?) h
  rw [signMsg_letter, signMsg_letter] at hletter
  exact Option.some.inj hletter

theorem keyLengths_unsigned (a : Registration) : a.unsigned.keyLengths = a.keyLengths := by
  cases a <;> rfl

/-- **Signed bytes that agree are of one variant, and of the same fields exactly when the exchange
keys have the same lengths.** -/
theorem unsigned_eq_iff (ha : a.Fits) (hb : b.Fits) (h : a.signMsg = b.signMsg) :
    a.unsigned = b.unsigned ↔ a.keyLengths = b.keyLengths := by
  constructor
  · intro he
    rw [← keyLengths_unsigned a, he, keyLengths_unsigned]
  · intro hl
    -- the three kinds sign under different letters
    have hletter := letter_of_signMsg h
    cases a with
    | relay pubkey xk clientAddr rpcUrl sig =>
      cases b with
      | relay pubkey' xk' clientAddr' rpcUrl' sig' =>
        simp only [signMsg, relaySignMsg, List.append_assoc, List.append_cancel_left_eq] at h
        obtain ⟨hpk, hkeys⟩ := append_eq_append_of_length (pubkey.2.trans pubkey'.2.symm) h
        -- with the key lengths equal, the signed bytes split at the same places
        obtain ⟨rfl, hends⟩ := ExchangePublicKeyWire.append_inj (Option.some.inj hl) hkeys
        cases Bincode.write_inj _ ha hb hends
        cases Subtype.ext hpk
        rfl
      | service => exact absurd hletter (by simp [letter])
      | watcher => exact absurd hletter (by simp [letter])
    | service tag pubkey xk descriptorUrl sig =>
      cases b with
      | relay => exact absurd hletter (by simp [letter])
      | service tag' pubkey' xk' descriptorUrl' sig' =>
        simp only [signMsg, serviceSignMsg, List.append_assoc, List.append_cancel_left_eq] at h
        obtain ⟨htag, hrest⟩ := append_eq_append_of_length (tag.2.trans tag'.2.symm) h
        obtain ⟨hpk, hkeys⟩ := append_eq_append_of_length (pubkey.2.trans pubkey'.2.symm) hrest
        obtain ⟨rfl, hend⟩ := ExchangePublicKeyWire.append_inj (Option.some.inj hl) hkeys
        cases Bincode.write_inj _ ha hb hend
        cases Subtype.ext htag
        cases Subtype.ext hpk
        rfl
      | watcher => exact absurd hletter (by simp [letter])
    | watcher pubkey sig =>
      cases b with
      | relay => exact absurd hletter (by simp [letter])
      | service => exact absurd hletter (by simp [letter])
      | watcher pubkey' sig' =>
        simp only [signMsg, watcherSignMsg, List.append_cancel_left_eq] at h
        cases Subtype.ext h
        rfl

end Signed

/-! ## Keys cut elsewhere -/

/-- The key bytes of a node: an uncompressed point, an encapsulation key and a compressed point. -/
def nodeKeys : ExchangePublicKeyWire :=
  ⟨List.replicate 65 4, List.replicate 1184 7, List.replicate 33 2⟩

/-- The same bytes, with the last one of the first key given to the second. -/
def cutKeys : ExchangePublicKeyWire :=
  ⟨List.replicate 64 4, 4 :: List.replicate 1184 7, List.replicate 33 2⟩

/-- The registration of relay 9 with either keys, under its signature of its own. -/
def keyed (xk : ExchangePublicKeyWire) : Registration :=
  .relay (toyNode 9) xk none none
    (toySign (toyNode 9) (relaySignMsg (toyNode 9) nodeKeys none none))

theorem unsigned_eq_iff_keyed :
    (keyed nodeKeys).unsigned = (keyed cutKeys).unsigned ↔
      (keyed nodeKeys).keyLengths = (keyed cutKeys).keyLengths :=
  unsigned_eq_iff (by simp [Fits, keyed, Bincode.pair, Bincode.option])
    (by simp [Fits, keyed, Bincode.pair, Bincode.option]) (by decide +kernel)

/-- **A registration is cut anew under the same signature**: the signed bytes agree, the keys do
not, the signature verifies and the core takes the new keys. -/
theorem cutKeys_signed :
    (keyed nodeKeys).signMsg = (keyed cutKeys).signMsg ∧
      (keyed nodeKeys).unsigned ≠ (keyed cutKeys).unsigned ∧
      (keyed cutKeys).verify toyScheduler = true ∧
      (SchedulerCore.after toyObservers (toyMember 1)
        [.registration (keyed nodeKeys), .registration (keyed cutKeys)]).relayXpubs.get?
          (toyNode 9) = some cutKeys := by
  decide +kernel

end Registration
end Anymone
