import Anymone.PanetiereLanes
import Anymone.SchedulerToy

/-! # Lanes to run the model on

The toy crate with share roots: a post's root is its boot key, a lane's sum is the sum of
the roots of its set, and a decode names the lanes whose sum is another.  A client that
posts under two keys has two roots.
-/

namespace Anymone

/-- The sum of the share roots. -/
def toyRootSum (roots : List (ClientId × Nat)) : Nat := (roots.map Prod.snd).sum

/-- Whether a toy lane's sum is the sum of the roots. -/
def toyLaneOpens (shareSum : List Nat) (roots : List (ClientId × Nat)) : Bool :=
  decide (shareSum.headD 0 = toyRootSum roots)

/-- The toy crate of a session, with lanes that are checked. -/
def toyLaneSession : SessionCrate where
  __ := toySession
  Identity := Pubkey
  Commitment := Unit
  CsPoly := Nat
  PackedOpening := Unit
  ShareOpening := Unit
  KahePoly := Nat
  ChannelParams := Unit
  bulletinFromBytes bytes := do
    let pubkey ← toArr? 1 (bytes.take 1)
    let sig ← toArr? 32 (bytes.drop 1)
    some ⟨(), ((pubkey.1.headD 0).val : Nat), pubkey, sig⟩
  runServerRound sid items clients :=
    if clients.all (fun c => (items.map Prod.fst).contains c) && decide (clients.length < 255) then
      some ⟨sid, clients, (), clients.length⟩
    else none
  runServerRound_over := by
    intro sid items clients sp h
    split at h
    · cases h
      exact ⟨rfl, rfl⟩
    · cases h
  runRsNodeRound scp node _ clients roots :=
    if scp.blockLen = 1 ∧ toyRootSum roots < 256 then
      some ⟨node, clients, ([toyRootSum roots] : List Nat), ()⟩
    else none
  aggregateAndDecryptRs pp _ _ entries _ lanes :=
    let roots := entries.map (fun e => (e.1, (e.2.shareRoot : Nat)))
    let bad := lanes.filter (fun l => pp.shareComm.isSome && !toyLaneOpens l.shareSum roots)
    if bad.isEmpty then .ok (lanes.map (fun l => l.shareSum.headD (0 : Nat)))
    else .error (.laneOpeningFailed (bad.map (fun l => l.nodeId)))

/-- The toy crate of a scheduler on top of it. -/
def toyLanes : SchedulerCrate where
  __ := toyScheduler
  toSessionCrate := toyLaneSession
  sharesOpen := fun (shares : List Nat) _ => decide (shares ≠ [255])

/-- Its lanes are checked as a relay relies on. -/
def toyLaneCheck : LaneCheck toyLanes.toSessionCrate where
  laneOpens _ lane roots := toyLaneOpens lane.shareSum roots
  made := by
    intro scp node items clients roots lane h
    simp only [toyLanes, toyLaneSession] at h
    split at h
    · cases h
      exact ⟨rfl, rfl⟩
    · cases h
  named := by
    intro pp scp sid set entries servers lanes ids hscp h id hid
    simp only [toyLanes, toyLaneSession] at h
    split at h
    · cases h
    · cases h
      obtain ⟨lane, hlane, rfl⟩ := List.mem_map.mp hid
      obtain ⟨hmem, hbad⟩ := List.mem_filter.mp hlane
      simp only [Bool.and_eq_true, Bool.not_eq_true'] at hbad
      exact ⟨lane, hmem, rfl, hbad.2⟩

theorem toyParams_shareComm : toyParams.shareComm = some ⟨1, 3⟩ := rfl

/-- Relay `i` of three. -/
def toyRelay (i : ServerId) (mode : SetMode) : ServerConfig toyLanes.toSessionCrate where
  pp := toyParams
  scp := ⟨1, 3⟩
  rs_mode := toyParams_shareComm
  mse := ()
  serverId := i
  identity := toyNode (Fin.ofNat 256 (100 + i.val))
  mode := mode
  serverPubkeys :=
    ((OrdMap.empty.insert 0 (toyNode 100)).insert 1 (toyNode 101)).insert 2 (toyNode 102)
  clientSetMax := 8
  setupSeed := toySid
  goodClients _ := true
  setKeys := some (toyKey i, toyPks)

/-- The sorted roster of the three relays. -/
def toyRoster : List Pubkey := [toyNode 100, toyNode 101, toyNode 102]

/-- Relay `i`'s signed share over `clients`, with its key share and its lane sum. -/
def PanetiereWire.toyPosted (round : Round) (i : U32) (clients : List U32) (aggShare shareSum : U8) :
    PanetiereWire :=
  .serverPublic round i clients [] [aggShare] [shareSum] []
    (toySign (toyNode (Fin.ofNat 256 (100 + i.val)))
      (serverPublicSigningBytes round i clients [] [aggShare] [shareSum] []))

end Anymone
