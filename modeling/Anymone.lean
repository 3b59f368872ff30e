import Anymone.OrdMap
import Anymone.Trace
import Anymone.Bytes
import Anymone.ClientSetItems
import Anymone.ClientSetServer
import Anymone.ClientSetGrounded
import Anymone.ClientSetRelay
import Anymone.ClientSetRun
import Anymone.ClientSetAgreement
import Anymone.ClientSetToy
import Anymone.ClientSetClient
import Anymone.ClientSetEviction
import Anymone.ClientSetPack
import Anymone.PanetiereWire
import Anymone.PanetiereSession
import Anymone.PanetiereRun
import Anymone.PanetiereOnce
import Anymone.PanetiereToy
import Anymone.ConfigBounds
import Anymone.SchedulerCore
import Anymone.SchedulerTick
import Anymone.SchedulerRun
import Anymone.SchedulerApproval
import Anymone.SchedulerContent
import Anymone.SchedulerPublished
import Anymone.SchedulerFaults
import Anymone.SchedulerReports
import Anymone.SchedulerChannel
import Anymone.SchedulerOwn
import Anymone.FaultTracker
import Anymone.PanetiereObserver
import Anymone.PanetiereBucket
import Anymone.PanetiereLanes
import Anymone.PanetiereBlame
import Anymone.PanetiereLaneToy
import Anymone.PanetiereHonest
import Anymone.PanetierePost
import Anymone.ScheduledCodec
import Anymone.ScheduledClient
import Anymone.ScheduledConservation
import Anymone.ScheduledPayloads
import Anymone.ScheduledRelay
import Anymone.ScheduledSlots
import Anymone.Cutover
import Anymone.Participation
import Anymone.ParticipationOnce
import Anymone.AdcnetServer
import Anymone.AdcnetSteps
import Anymone.AdcnetOnce
import Anymone.AdcnetAggregator
import Anymone.AdcnetCombine
import Anymone.AdcnetScheduledClient
import Anymone.Backbone
import Anymone.BackboneVoice
import Anymone.RemoteLink
import Anymone.RemoteHost
import Anymone.RemoteOnce
import Anymone.ClientSetMembership
import Anymone.ClientSetBoots
import Anymone.ClientSetBlob
import Anymone.Traced
import Anymone.ClientSetCanonical
import Anymone.ClientSetRepair
import Anymone.AdcnetObserver
import Anymone.PanetiereOwners
import Anymone.FirstCome
import Anymone.Gateway
import Anymone.Enrolment
import Anymone.AttestationChain
import Anymone.OrdMapTotal
import Anymone.EthFragments
import Anymone.EthReassembly
import Anymone.PanetiereDelivery
import Anymone.PanetiereServable
import Anymone.BincodeCanonical
import Anymone.SchedulerAssembly
import Anymone.Quorum
import Anymone.EthCapability
import Anymone.EthFeed
import Anymone.EthBoard
import Anymone.EthEpochs
import Anymone.EthService
import Anymone.EthOnce
import Anymone.EthPackets
import Anymone.EthReplies
import Anymone.EthBroker
import Anymone.EthOperations
import Anymone.EthDelivery
import Anymone.LivenessStreak
import Anymone.SchedulerSizing
import Anymone.RegistrationSignature
import Anymone.RelayKeys
import Anymone.SchedulerObservers
import Anymone.PanetiereClock
import Anymone.PanetiereClient
import Anymone.PanetiereFrames
import Anymone.PanetiereIdle
import Anymone.PanetiereCrowd
import Anymone.WireLength
import Anymone.WireRelay
import Anymone.WireClient
import Anymone.WireEstimate
import Anymone.WireParty
import Anymone.Reissue
import Anymone.RemoteReconfigure
import Anymone.ContributionReplay
import Anymone.SigningDomains
import Anymone.SupervisionRun
import Anymone.PipeRun
import Anymone.PipeJoins
import Anymone.ClientPool
import Anymone.Discovery
import Anymone.DiscoveryRun
import Anymone.DiscoveryServices
import Anymone.AdcnetScheduledRound
import Anymone.AdcnetScheduledPartials
import Anymone.AdcnetScheduledSubnet
import Anymone.AdcnetScheduledReaders
import Anymone.PanetiereDriver
