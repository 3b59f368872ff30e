import Anymone.PanetiereWire

/-! # The ADCNet wire

The messages of a one-round ADCNet subnet.  The `adcnet` crate is a parameter
(`AdcnetCrate`): its signatures are known by what they recover to, its contributions
and shares by the functions that make, sum and combine them.  A public key is its bytes.
-/

/-- `u32::saturating_add`. -/
def U32.saturatingAdd (a : U32) (n : Nat) : U32 := ⟨min (a.val + n) 4294967295, by omega⟩

/-- `u32::saturating_sub`. -/
def U32.saturatingSub (a : U32) (n : Nat) : U32 := ⟨a.val - n, by omega⟩

/-- `u64 as u32`. -/
def U64.toU32 (n : U64) : U32 := Fin.ofNat _ n.val

namespace Anymone

/-- `adcnet::crypto::PublicKey`, by `as_bytes`. -/
abbrev PublicKey := Bytes

/-- `adcnet::crypto::SharedKey`. -/
abbrev SharedKey := Bytes

/-- `OneRoundConfig`, with the fields of its `IbltMsgParamsOwned`. -/
structure OneRoundConfig where
  estimatedMessages : U32
  maxPayloadBytes : U64
  deriving DecidableEq

/-- `ClientContribution`. -/
structure ClientContribution where
  round : U32
  blinded : List U64
  deriving DecidableEq

/-- `ServerShare`. -/
structure ServerShare where
  serverId : U32
  round : U32
  share : List U64
  deriving DecidableEq

/-- `KeyExchange`. -/
structure KeyExchange where
  xpub : Bytes
  deriving DecidableEq

/-- What the sessions use of the `adcnet` crate and of an identity's keys. -/
structure AdcnetCrate where
  PrivateKey : Type
  ExchangeIdentity : Type
  ExchangePublicKey : Type
  /-- `Signed<ClientContribution>`. -/
  SignedContribution : Type
  /-- `Signed<KeyExchange>`. -/
  SignedKey : Type
  /-- `Signed<ServerShare>`. -/
  SignedShare : Type
  recoverContribution : SignedContribution → Option (ClientContribution × PublicKey)
  recoverKey : SignedKey → Option (KeyExchange × PublicKey)
  recoverShare : SignedShare → Option (ServerShare × PublicKey)
  /-- `ExchangePublicKey::from_sec1_bytes`. -/
  fromSec1Bytes : Bytes → Option ExchangePublicKey
  ecdh : ExchangeIdentity → ExchangePublicKey → SharedKey
  serverContribute : OneRoundConfig → U32 → U32 → PrivateKey → OrdMap PublicKey SharedKey →
    Option SignedShare
  combineRound : OneRoundConfig → U32 → List ClientContribution → List ServerShare → Nat →
    Option (List Bytes)
  /-- `field_round::aggregate_clients`. -/
  aggregateClients : List (List U64) → List U64
  /-- `bincode` of a group's signed keys. -/
  keysBytes : List SignedKey → Bytes
  /-- `Pubkey::verify`. -/
  verify : Pubkey → Bytes → Bytes → Bool
  /-- `Identity::sign`, of an identity known by its public key. -/
  sign : Pubkey → Bytes → Bytes

/-- `AdcnetWire`. -/
inductive AdcnetWire (C : AdcnetCrate) where
  | client (contribution : C.SignedContribution) (key : C.SignedKey)
  | server (share : C.SignedShare)
  | clientSet (round : U32) (clients : List C.SignedKey)
  | decoded (round : U32) (payloads : List Bytes)
  | groupAggregate (round group : U32) (blinded : List U64) (clients : List C.SignedKey)
      (signer : Pubkey) (signature : Bytes)

/-- `[u8; 32]::try_from`. -/
def pubkeyOf (key : PublicKey) : Option Pubkey :=
  if h : key.length = 32 then some ⟨key, h⟩ else none

namespace Adcnet

/-- `ROUND_WINDOW`. -/
def roundWindow : Nat := 3

/-- `FUTURE_ROUND_SLACK`. -/
def futureRoundSlack : Nat := 64

/-- The round has left the window behind `cur`. -/
def tooOld (round cur : U32) : Bool := decide (round.saturatingAdd roundWindow < cur)

/-- The round is further ahead than the slack allows. -/
def tooFar (round cur : U32) : Bool := decide (cur.saturatingAdd futureRoundSlack < round)

/-- Pruning keeps what the window still holds. -/
theorem tooOld_iff {round cur : U32} :
    tooOld round cur = true ↔ round < cur.saturatingSub roundWindow := by
  rw [tooOld, decide_eq_true_iff]
  show min (round.val + 3) 4294967295 < cur.val ↔ round.val < cur.val - 3
  have := cur.isLt
  omega

/-- `group_aggregate_signing_bytes`. -/
def groupAggregateSigningBytes (C : AdcnetCrate) (round group : U32) (blinded : List U64)
    (clients : List C.SignedKey) : Bytes :=
  leBytes 4 round.val ++ leBytes 4 group.val ++ blinded.flatMap (fun v => leBytes 8 v.val) ++
    C.keysBytes clients

/-- `adcnet_client_group`. -/
def clientGroup (pubkey : PublicKey) (groupCount : U32) : Nat :=
  (((pubkey.getD 0 0).val * 256 + (pubkey.getD 1 0).val) * 256 + (pubkey.getD 2 0).val) * 256 +
    (pubkey.getD 3 0).val |> (· % max groupCount.val 1)

end Adcnet
end Anymone
