import Hyperbahn.PartialRange
import Hyperbahn.Circuits

/-!
# The state of the service dispatch handler

`ServiceDispatchHandler` of `service-dispatch-handler.js` keeps, besides the service channels
of its root channel, the routing tables of its own constructor: `relaysFor`,
`partialRanges`, `exitServices`, the connected indices, `knownPeers`, `peersToReap` and
`peersToPrune`, the blocking tables and the rate limiter. This module gathers them in one
record, `Dispatcher`, together with the parts of the transport and the ring it reads: the root
peer table with each peer's drain, and the ring view `egressNodes`.

The transport, the ring and the rate limiter are not among the sources. Each is modelled by
what the dispatcher asks of it: a peer is its out-connection and its drain; the ring is the
exit host-ports of each service, with `isExitFor` true when this relay is among them; the
rate limiter is the sequence of calls made on it, with its answers a function of that
sequence (`RateLimiterAnswers`).
-/

namespace Hyperbahn

/-- The goal of a peer drain: `DRAIN_GOAL_CLOSE_DRAINED` or `DRAIN_GOAL_CLOSE_PEER`. -/
inductive DrainGoal
  | closeDrained
  | closePeer
deriving DecidableEq, Repr

/-- The connections a drain closes. -/
inductive DrainDirection
  | out
  | both
deriving DecidableEq, Repr

/-- The options of a drain in progress (`peer.draining`). -/
structure PeerDrain where
  /-- What happens when the drain ends: the peer is deleted, or its drain is cleared. -/
  goal : DrainGoal
  /-- The reason, read back by the drain guards. -/
  reason : String
  /-- Which connections close. -/
  direction : DrainDirection
deriving DecidableEq, Repr

/-- A peer of the root peer table. -/
structure Peer where
  /-- `peer.isConnected('out')`. -/
  outConnected : Bool
  /-- `peer.draining`, or `none` when the peer is not draining. -/
  draining : Option PeerDrain
deriving DecidableEq, Repr

/-- A peer as `peers.add` creates it. -/
def Peer.fresh : Peer := ⟨false, none⟩

/-- The `serviceProxyMode` punched onto a service channel. -/
inductive ServiceProxyMode
  | exit
  | forward
deriving DecidableEq, Repr

/-- The handler of a sub channel. -/
inductive Handler
  /-- A `RelayHandler`, with or without the circuit registry. -/
  | relay (circuitsAttached : Bool)
  /-- Any other handler, such as the endpoints of the `hyperbahn` sub channel. -/
  | other
deriving DecidableEq, Repr

/-- A sub channel of the root channel. -/
structure SubChannel where
  /-- `serviceProxyMode`: set on service channels, `undefined` on the others. -/
  serviceProxyMode : Option ServiceProxyMode
  /-- The host-ports of `peers`, in the order `peers.keys()` lists them. -/
  peers : List String
  /-- `handler`. -/
  handler : Handler
deriving DecidableEq, Repr

/-- A sub channel made by the application before the dispatcher, with no service mode. -/
def SubChannel.bootstrap : SubChannel := ⟨none, [], .other⟩

/-- An entry of `peersToPrune`. -/
structure PruneInfo where
  /-- When the prune was scheduled. -/
  lastRefresh : Nat
  /-- Why. -/
  reason : String
deriving DecidableEq, Repr

/-- The ring view `egressNodes`: `Object.keys(egressNodes.exitsFor(serviceName))`. -/
structure Ring where
  /-- The exit host-ports of a service. -/
  exitsFor : String → List String

/-- A call the dispatcher, or the remote-config updaters, make on the rate limiter. -/
inductive RateLimiterCall
  | incrementEdgeCounter (key : String)
  | createServiceCounter (serviceName : String)
  | createKillSwitchServiceCounter (serviceName : String)
  | incrementKillSwitchTotalCounter (serviceName : String)
  | incrementKillSwitchServiceCounter (serviceName : String)
  | incrementTotalCounter (serviceName : String)
  | incrementServiceCounter (serviceName : String)
  | removeServiceCounter (serviceName : String)
  | removeKillSwitchCounter (serviceName : String)
  | updateTotalLimit (limit : Nat)
  | updateExemptServices (serviceNames : List String)
  | updateRpsLimitForAllServices (limits : List (String × Nat))
deriving DecidableEq, Repr

/-- A question the dispatcher asks the rate limiter about a service. -/
inductive RateLimiterQuery
  | shouldKillSwitchTotalRequest
  | shouldKillSwitchService
  | shouldRateLimitTotalRequest
  | shouldRateLimitService
deriving DecidableEq, Repr

/-- Modelled from the spec: the answers of the `RateLimiter` of the missing `rate_limiter.js`,
as functions of the timed calls made on it so far (oldest first) and of the time asked. -/
structure RateLimiterAnswers where
  /-- The four `should...` decisions for a service name. -/
  decide : List (Nat × RateLimiterCall) → Nat → RateLimiterQuery → String → Bool
  /-- `totalRequestCounter.rpsLimit`. -/
  totalRpsLimit : List (Nat × RateLimiterCall) → Nat
  /-- `getRpsLimitForService(serviceName)`. -/
  rpsLimitForService : List (Nat × RateLimiterCall) → String → Nat

/-- How many passes `for (i = 0; i < subChanKeys; i++)` makes when `subChanKeys` is the one-key
array `[k]`: the comparison turns `[k]` into `Number(k)`. -/
inductive KeyBound
  /-- `Number(k)` is `NaN` or at most `0`: no pass. -/
  | none
  /-- `0 < Number(k) ≤ 1`: one pass, over `k`. -/
  | one
  /-- `1 < Number(k)`: a second pass, over the missing index `1`. -/
  | more
deriving DecidableEq, Repr

/-- What the dispatcher takes from its surroundings and never changes. -/
structure Config where
  /-- `channel.hostPort`, which is also the ring's `whoami`. -/
  hostPort : String
  /-- `minPeersPerWorker`. -/
  minPeersPerWorker : Nat
  /-- `minPeersPerRelay`. -/
  minPeersPerRelay : Nat
  /-- The rate limiter's answers. -/
  rateLimiter : RateLimiterAnswers
  /-- The engine's `Number(k)` for a one-key array `[k]`, as a loop bound. -/
  keyBound : String → KeyBound
  /-- `Number('undefined')` is `NaN`. -/
  keyBound_undefined : keyBound "undefined" = .none
  /-- Modelled from the spec: the ring view after `egressNodes.setDefaultKValue(k)` of the
  missing `egress-nodes.js`, which makes `k` the number of exits of the services with no K
  value of their own. -/
  setDefaultKValue : Ring → Nat → Ring
  /-- Modelled from the spec: the ring view after `egressNodes.setKValueFor(serviceName, k)`,
  which makes `k` the number of exits of `serviceName`. -/
  setKValueFor : Ring → String → Nat → Ring

/-- `DEFAULT_MIN_PEERS_PER_WORKER` and `DEFAULT_MIN_PEERS_PER_RELAY`. -/
def defaultMinPeers : Nat := 5

/-- A relay at `hostPort` with the default peer minimums, a rate limiter that never limits and
reports limits of `0`, an engine for which no service name is a positive number, and a ring
whose K value of a service, when set, keeps that many of its exits. -/
def Config.sample (hostPort : String) : Config where
  hostPort := hostPort
  minPeersPerWorker := defaultMinPeers
  minPeersPerRelay := defaultMinPeers
  rateLimiter := ⟨fun _ _ _ _ => false, fun _ => 0, fun _ _ => 0⟩
  keyBound := fun _ => .none
  keyBound_undefined := rfl
  setDefaultKValue ring _ := ring
  setKValueFor ring serviceName k :=
    ⟨fun s => if s = serviceName then (ring.exitsFor s).take k else ring.exitsFor s⟩

/-- The ring of the one relay `hostPort`, the exit of every service. -/
def Ring.single (hostPort : String) : Ring := ⟨fun _ => [hostPort]⟩

/-- `egressNodes.isExitFor(serviceName)`, modelled from the spec: this relay is one of the
exits of the service. -/
def Config.isExitFor (cfg : Config) (ring : Ring) (serviceName : String) : Bool :=
  (ring.exitsFor serviceName).contains cfg.hostPort

/-- The state of the dispatcher, of the peers of its root channel and of its ring view. -/
structure Dispatcher where
  /-- `egressNodes`, which changes on a membership change. -/
  egressNodes : Ring
  /-- `channel.subChannels`. -/
  subChannels : JsMap SubChannel
  /-- `channel.peers`, the root peer table. -/
  rootPeers : JsMap Peer
  /-- `relaysFor`: the sorted exit host-ports of each service. -/
  relaysFor : JsMap (List String)
  /-- `partialRanges`. -/
  partialRanges : JsMap PartialRange
  /-- `exitServices`: the last refresh of each service this relay exits for. -/
  exitServices : JsMap Nat
  /-- `connectedServicePeers`: service, then host-port, to the last refresh. -/
  connectedServicePeers : JsMap (JsMap Nat)
  /-- `connectedPeerServices`: host-port, then service, to the last refresh. -/
  connectedPeerServices : JsMap (JsMap Nat)
  /-- `peersToReap`: host-port, then service, to the last refresh. -/
  peersToReap : JsMap (JsMap Nat)
  /-- `knownPeers`: host-port, then service, to the last refresh. -/
  knownPeers : JsMap (JsMap Nat)
  /-- `peersToPrune`. -/
  peersToPrune : JsMap PruneInfo
  /-- `partialAffinityEnabled`. -/
  partialAffinityEnabled : Bool
  /-- `circuitsEnabled`. -/
  circuitsEnabled : Bool
  /-- `circuits`, `null` until `initCircuits`. -/
  circuits : Option Circuits
  /-- `rateLimiterEnabled`. -/
  rateLimiterEnabled : Bool
  /-- The calls made on `rateLimiter`, oldest first, each with its time. -/
  rateLimiter : List (Nat × RateLimiterCall)
  /-- `blockingTable`, `null` when empty. -/
  blockingTable : Option (JsMap Nat)
  /-- `blockingTableRemoteConfig`. -/
  blockingTableRemoteConfig : Option (JsMap Nat)
  /-- `servicePurgePeriod`, which the constructor never assigns. -/
  servicePurgePeriod : Option Nat

namespace Dispatcher

/-- The dispatcher as the application constructs it: the root channel already has the
`autobahn`, `ringpop` and `hyperbahn` sub channels, every table is empty, partial affinity,
circuits and rate limiting are off. -/
def init (ring : Ring) : Dispatcher where
  egressNodes := ring
  subChannels := ((∅ : JsMap SubChannel).set "autobahn" .bootstrap |>.set "ringpop" .bootstrap
    |>.set "hyperbahn" .bootstrap)
  rootPeers := ∅
  relaysFor := ∅
  partialRanges := ∅
  exitServices := ∅
  connectedServicePeers := ∅
  connectedPeerServices := ∅
  peersToReap := ∅
  knownPeers := ∅
  peersToPrune := ∅
  partialAffinityEnabled := false
  circuitsEnabled := false
  circuits := none
  rateLimiterEnabled := false
  rateLimiter := []
  blockingTable := none
  blockingTableRemoteConfig := none
  servicePurgePeriod := none

/-- `isExitFor(serviceName)` of the dispatcher: the mode of the service channel when there is
one, the ring otherwise. -/
def isExitFor (cfg : Config) (d : Dispatcher) (serviceName : String) : Bool :=
  match d.subChannels.get serviceName with
  | some ch => ch.serviceProxyMode = some .exit
  | none => cfg.isExitFor d.egressNodes serviceName

/-- Apply `f` to the service channel of `serviceName`, if there is one. -/
def modifyChannel (d : Dispatcher) (serviceName : String) (f : SubChannel → SubChannel) :
    Dispatcher :=
  match d.subChannels.get serviceName with
  | some ch => { d with subChannels := d.subChannels.set serviceName (f ch) }
  | none => d

/-- Apply `f` to the root peer `hostPort`, if there is one. -/
def modifyPeer (d : Dispatcher) (hostPort : String) (f : Peer → Peer) : Dispatcher :=
  match d.rootPeers.get hostPort with
  | some p => { d with rootPeers := d.rootPeers.set hostPort (f p) }
  | none => d

/-- The drain of the root peer `hostPort`, if it is draining. -/
def peerDraining (d : Dispatcher) (hostPort : String) : Option PeerDrain :=
  (d.rootPeers.get hostPort).bind (·.draining)

/-- Whether the service channel of `serviceName` holds `hostPort`. -/
def channelHolds (d : Dispatcher) (serviceName hostPort : String) : Bool :=
  (d.subChannels.get serviceName).any fun ch => ch.peers.contains hostPort

/-- The relay handler of the service channel of `serviceName`, if there is one. -/
def channelHandler (d : Dispatcher) (serviceName : String) : Option Handler :=
  (d.subChannels.get serviceName).map (·.handler)

/-- A change of a channel that keeps its handler keeps the handler of every channel. -/
theorem channelHandler_modifyChannel {f : SubChannel → SubChannel}
    (hf : ∀ ch, (f ch).handler = ch.handler) (d : Dispatcher) (s s' : String) :
    (d.modifyChannel s f).channelHandler s' = d.channelHandler s' := by
  unfold modifyChannel channelHandler
  split
  · rename_i ch hch
    simp only [JsMap.get_set]
    split
    · subst s'; simp [hch, hf]
    · rfl
  · rfl

/-- A fold of steps that keep a property keeps it. -/
theorem foldl_keeps {α : Type} {P : Dispatcher → Prop} {f : Dispatcher → α → Dispatcher}
    (l : List α) {d : Dispatcher} (hd : P d) (hf : ∀ d a, a ∈ l → P d → P (f d a)) :
    P (l.foldl f d) :=
  List.foldlRecOn l f d hd fun d hd a ha => hf d a ha hd

end Dispatcher

end Hyperbahn
