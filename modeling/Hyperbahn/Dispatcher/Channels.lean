import Hyperbahn.Dispatcher.State

/-!
# Service channels and peer connections

The helpers of `ServiceDispatchHandler` that every path through the dispatcher goes through:
creating a service channel for a service name (`createServiceChannel`), adding a peer to a
service channel (`_getServicePeer`), and keeping a peer connected or scheduling it for
pruning (`ensurePeerConnected`, `ensurePeerDisconnected`), each with its updates of the
connected indices.

A service channel is named by its service name: every call site passes
`channel.subChannels[serviceName]`, so the model passes the name.
-/

namespace Hyperbahn

namespace Dispatcher

variable (cfg : Config)

/-- `_getServicePeer(serviceChannel, hostPort)`: the channel's `peers.add(hostPort)` when it
does not hold the peer yet, which also adds the peer to the root table if missing. -/
def _getServicePeer (d : Dispatcher) (serviceName hostPort : String) : Dispatcher :=
  match d.subChannels.get serviceName with
  | some ch =>
    if ch.peers.contains hostPort then d
    else
      { d with
        subChannels := d.subChannels.set serviceName { ch with peers := ch.peers ++ [hostPort] }
        rootPeers := if d.rootPeers.contains hostPort then d.rootPeers
          else d.rootPeers.set hostPort .fresh }
  | none => d

/-- Adding a peer keeps the handler of every channel. -/
@[simp]
theorem channelHandler__getServicePeer (d : Dispatcher) (s hp s' : String) :
    (d._getServicePeer s hp).channelHandler s' = d.channelHandler s' := by
  unfold _getServicePeer
  split
  · split
    · rfl
    · rename_i ch hch _
      simp only [channelHandler, JsMap.get_set]
      split
      · subst s'; simp [hch]
      · rfl
  · rfl

/-- `relaysFor[serviceName]`, computed from the ring and stored when missing. -/
def ensureRelays (d : Dispatcher) (serviceName : String) : Dispatcher :=
  match d.relaysFor.get serviceName with
  | some _ => d
  | none =>
    { d with
      relaysFor := d.relaysFor.set serviceName (sortStrings (d.egressNodes.exitsFor serviceName)) }

/-- `createServiceChannel(serviceName)`: take the relays from `relaysFor`, or from the ring when
missing; make a sub channel in exit mode when the ring names this relay an exit, in forward mode
with the relays as peers otherwise; attach a relay handler, with the circuit registry in exit
mode when circuits are enabled. -/
def createServiceChannel (d : Dispatcher) (serviceName : String) : Dispatcher :=
  let d := d.ensureRelays serviceName
  let isExit := cfg.isExitFor d.egressNodes serviceName
  let d := { d with
    subChannels := d.subChannels.set serviceName
      ⟨some (if isExit then .exit else .forward), [], .other⟩ }
  let d := if isExit then d
    else ((d.relaysFor.get serviceName).getD []).foldl
      (fun d exitName => d._getServicePeer serviceName exitName) d
  d.modifyChannel serviceName fun ch =>
    { ch with handler := .relay (isExit && d.circuitsEnabled && d.circuits.isSome) }

/-- `getServiceChannel(serviceName, true)`: the existing channel, or a new one. -/
def getOrCreateServiceChannel (d : Dispatcher) (serviceName : String) : Dispatcher :=
  if d.subChannels.contains serviceName then d else createServiceChannel cfg d serviceName

/-- `getServicePeer(serviceName, hostPort)`. -/
def getServicePeer (d : Dispatcher) (serviceName hostPort : String) : Dispatcher :=
  (getOrCreateServiceChannel cfg d serviceName)._getServicePeer serviceName hostPort

/-- Record the pair in both connected indices, as partial affinity does. -/
def addConnected (d : Dispatcher) (serviceName hostPort : String) (now : Nat) : Dispatcher :=
  { d with
    connectedServicePeers := addIndexEntry d.connectedServicePeers serviceName hostPort now
    connectedPeerServices := addIndexEntry d.connectedPeerServices hostPort serviceName now }

/-- Drop the pair from both connected indices. -/
def deleteConnected (d : Dispatcher) (serviceName hostPort : String) : Dispatcher :=
  { d with
    connectedServicePeers := deleteIndexEntry d.connectedServicePeers serviceName hostPort
    connectedPeerServices := deleteIndexEntry d.connectedPeerServices hostPort serviceName }

/-- `delete peersToPrune[hostPort]`. -/
def cancelPrune (d : Dispatcher) (hostPort : String) : Dispatcher :=
  { d with peersToPrune := d.peersToPrune.delete hostPort }

/-- Record the pair in the connected indices under partial affinity. -/
def connectIfPartial (d : Dispatcher) (serviceName hostPort : String) (now : Nat) :
    Dispatcher :=
  if d.partialAffinityEnabled then d.addConnected serviceName hostPort now else d

/-- Drop the pair from the connected indices under partial affinity. -/
def disconnectIfPartial (d : Dispatcher) (serviceName hostPort : String) : Dispatcher :=
  if d.partialAffinityEnabled then d.deleteConnected serviceName hostPort else d

/-- Unless the peer has an out-connection, cancel its drain and connect to it. -/
def connectPeer (d : Dispatcher) (hostPort : String) : Dispatcher :=
  d.modifyPeer hostPort fun p =>
    if p.outConnected then p else { p with draining := none, outConnected := true }

/-- `ensurePeerConnected(serviceName, peer, reason, now)`: index the pair (partial affinity
only), cancel any prune, and connect to the peer. -/
def ensurePeerConnected (d : Dispatcher) (serviceName hostPort : String) (now : Nat) :
    Dispatcher :=
  ((d.connectIfPartial serviceName hostPort now).cancelPrune hostPort).connectPeer hostPort

/-- Schedule the peer for pruning if `connectedPeerServices` lists no service for it. -/
def pruneIfIdle (d : Dispatcher) (hostPort reason : String) (now : Nat) : Dispatcher :=
  if (d.connectedPeerServices.get hostPort).all (·.isEmpty) then
    { d with peersToPrune := d.peersToPrune.set hostPort ⟨now, reason⟩ }
  else d

/-- `ensurePeerDisconnected(serviceName, peer, reason, now)`: drop the pair from the indices
(partial affinity only), then schedule the peer for pruning if no service is left for it. -/
def ensurePeerDisconnected (d : Dispatcher) (serviceName hostPort reason : String)
    (now : Nat) : Dispatcher :=
  (d.disconnectIfPartial serviceName hostPort).pruneIfIdle hostPort reason now

/-- `ensurePeerDisconnected` leaves the sub channels alone. -/
@[simp]
theorem subChannels_ensurePeerDisconnected (d : Dispatcher) (s hp reason : String) (now : Nat) :
    (d.ensurePeerDisconnected s hp reason now).subChannels = d.subChannels := by
  simp only [ensurePeerDisconnected, pruneIfIdle, disconnectIfPartial, deleteConnected]
  split_ifs <;> rfl

/-- `deleteIndexEntry(knownPeers, hostPort, serviceName)`. -/
def forgetKnown (d : Dispatcher) (serviceName hostPort : String) : Dispatcher :=
  { d with knownPeers := deleteIndexEntry d.knownPeers hostPort serviceName }

/-- `deletePeerIndex(serviceName, hostPort)`. -/
def deletePeerIndex (d : Dispatcher) (serviceName hostPort : String) : Dispatcher :=
  (d.disconnectIfPartial serviceName hostPort).forgetKnown serviceName hostPort

end Dispatcher

end Hyperbahn
