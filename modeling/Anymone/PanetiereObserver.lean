import Anymone.FaultTracker
import Anymone.SchedulerCore

/-! # The observer of a Panetière subnet

`PanetiereObserverSession`: it takes no part, counts the shares and outputs that pass
by, keeps the last rounds' sets and sizes, and reports a relay whose share does not
match its own opening, with the wire the relay signed.
-/

namespace Anymone
variable {C : SchedulerCrate}

/-- `PanetiereObserverSession`. -/
structure PanetiereObserverSession where
  tracker : OutputFaultTracker
  /-- Sorted; the index is the wire's `server_id`. -/
  roster : List PeerId
  /-- The leader, whose `ClientSet` and `Decoded` alone are trusted. -/
  leader : Option PeerId
  maxRound : Option Round
  curRound : Option Round
  anonSetByRound : OrdMap Round Nat
  demandByRound : OrdMap Round U32
  clientsByRound : OrdMap Round (List U32)
  decodedBytesByRound : OrdMap Round U64
  integrityPending : List Fault
  integritySeen : List (Round × U32)

namespace PanetiereObserverSession
variable (o : PanetiereObserverSession)

/-- `ANON_SET_HISTORY`. -/
def anonSetHistory : Nat := 16

/-- `PanetiereObserverSession::new`. -/
def new (roster : List PeerId) (leader : Option PeerId) (faultThreshold : U64) :
    PanetiereObserverSession :=
  ⟨.new roster faultThreshold, roster, leader, none, none, .empty, .empty, .empty, .empty, [], []⟩

/-- `record_anon`: the first announcement of a round wins. -/
def recordAnon (round : Round) (size : Nat) : PanetiereObserverSession :=
  { o with anonSetByRound := (o.anonSetByRound.orInsert round size).keepNewest anonSetHistory }

/-- `record_clients`. -/
def recordClients (round : Round) (clients : List U32) : PanetiereObserverSession :=
  { o with clientsByRound := (o.clientsByRound.orInsert round clients).keepNewest anonSetHistory }

/-- The entry `on_inbound` makes in `demand_by_round`. -/
def recordDemand (round : Round) (demand : U32) : PanetiereObserverSession :=
  { o with demandByRound := (o.demandByRound.orInsert round demand).keepNewest anonSetHistory }

/-- `record_decoded_bytes`. -/
def recordDecodedBytes (round : Round) (bytes : U64) : PanetiereObserverSession :=
  { o with
    decodedBytesByRound := (o.decodedBytesByRound.insert round bytes).keepNewest anonSetHistory }

/-- A set and its size, with the demand that stands for it. -/
def recordSet (round : Round) (clients : List U32) (demand : U32) : PanetiereObserverSession :=
  ((o.recordAnon round clients.length).recordClients round clients).recordDemand round demand

/-- `begin_round`.  A jump past the window means that the gap was not observable. -/
def beginRound (round : Round) : PanetiereObserverSession :=
  let jumped := o.curRound.any (fun c => decide (c.saturatingAdd panetiereRoundWindow < round))
  { o with
    tracker := if jumped then o.tracker.fastForward round else o.tracker
    curRound := some round }

/-- The integrity check on an authenticated share: one fault for each round and slot. -/
def checkShare (C : SchedulerCrate) (expected : PeerId) (payload : Bytes) (round : Round)
    (serverId : U32) (aggOpen aggShare : Bytes) : PanetiereObserverSession :=
  let seen := o.integritySeen.filter (fun e => decide (round ≤ e.1 + Fin.ofNat _ anonSetHistory))
  if !serverPublicConsistent C aggOpen aggShare && !seen.contains (round, serverId) then
    { o with
      integritySeen := (round, serverId) :: seen
      integrityPending := o.integrityPending ++ [⟨.integrity, .peers [expected], payload⟩] }
  else { o with integritySeen := seen }

/-- What an authenticated share is counted for.  With no leader to announce it, the
set it was made over stands for the round's. -/
def countShare (round : Round) (serverId : U32) (clients : List U32) : PanetiereObserverSession :=
  let o := { o with tracker := o.tracker.observeShare round serverId.val }
  if o.leader.isNone then o.recordSet round clients (Fin.ofNat _ clients.length) else o

/-- What `on_inbound` does with a message in its window. -/
def observe (C : SchedulerCrate) (sender : PeerId) (payload : Bytes) :
    PanetiereWire → PanetiereObserverSession
  | .serverPublic round serverId clients aggOpen aggShare shareSum laneOpen signature =>
      match o.roster[serverId.val]? with
      | none => o
      | some expected =>
          -- Liveness credit and attribution bind to the slot owner's key.
          if sender = expected ∧
              C.pubkeyVerify expected (serverPublicSigningBytes round serverId clients aggOpen
                aggShare shareSum laneOpen) signature = true then
            (o.countShare round serverId clients).checkShare C expected payload round serverId
              aggOpen aggShare
          else o
  | .clientSet round clients demand =>
      if o.leader = some sender then o.recordSet round clients demand else o
  | .decoded round payloads =>
      if o.leader.all (· = sender) then
        { o with tracker := o.tracker.observeOutput round }.recordDecodedBytes round
          (Fin.ofNat _ (payloads.map List.length).sum)
      else o
  | .reservations round _ _ =>
      if o.leader = some sender then { o with tracker := o.tracker.observeOutput round } else o
  | .clientPublic .. | .opening .. | .clientSlice .. | .bundle .. | .setBatch .. | .setFragment ..
  | .setRelay .. => o

/-- `on_inbound`. -/
def onInbound (C : SchedulerCrate) (sender : PeerId) (payload : Bytes) :
    PanetiereObserverSession :=
  match PanetiereWire.deserialize payload with
  | none => o
  | some msg =>
      if roundInWindow msg.round o.curRound then
        { o with maxRound := some (o.maxRound.elim msg.round (max · msg.round)) }.observe C sender
          payload msg
      else o

/-- `end_round`. -/
def endRound : PanetiereObserverSession × List Fault :=
  let judged := o.tracker.evaluate
  ({ o with tracker := judged.1, integrityPending := [] }, o.integrityPending ++ judged.2)

/-- `decoded_bytes_recent`: a mean over the last rounds up to the frontier. -/
def decodedBytesRecent (window : U64) : U64 :=
  let decodedLast := o.decodedBytesByRound.keys.getLast?
  match (o.tracker.shareFrontier.toList ++ decodedLast.toList).max? with
  | none => 0
  | some frontier =>
      let cutoff := frontier.saturatingSub (window.saturatingSub 1).val
      let total := ((o.decodedBytesByRound.retain
        (fun r _ => decide (cutoff ≤ r) && decide (r ≤ frontier))).values.map Fin.val).sum
      Fin.ofNat _ total / max (frontier - cutoff + 1) 1

end PanetiereObserverSession

/-- The Panetière observer, as the scheduling core drives it. -/
def panetiereObserver (C : SchedulerCrate) : ObserverSession where
  State := PanetiereObserverSession
  onInbound o sender payload := o.onInbound C sender payload
  beginRound := PanetiereObserverSession.beginRound
  endRound o _ := o.endRound
  round := PanetiereObserverSession.maxRound
  anonymitySet o := o.anonSetByRound.values.getLast?
  anonSetRound o := o.anonSetByRound.keys.getLast?
  shareFrontier o := o.tracker.shareFrontier

end Anymone
