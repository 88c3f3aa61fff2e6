import Hyperbahn.Dispatcher.Channels

/-!
# Advertisement and unadvertisement

`refreshServicePeer` is what a `relay-ad` does on an exit relay, and `removeServicePeer` what
a `relay-unad` does. In legacy mode an advertisement keeps the worker connected; under partial
affinity it only records the worker, and `ensurePartialConnections` connects this relay to the
affine window of workers of the service and schedules the workers that fell out of it for
pruning. An unadvertisement removes the worker from the service channel and, unless another
sub channel still holds it, drains it in both directions and deletes it.
-/

namespace Hyperbahn

namespace Dispatcher

variable (cfg : Config)

/-- The host-ports of the peers of a service channel, as `peers.keys()` lists them. -/
def channelPeers (d : Dispatcher) (serviceName : String) : List String :=
  ((d.subChannels.get serviceName).map (·.peers)).getD []

/-- The range `getPartialRange` makes when the service has none: computed from `relaysFor` and
the sorted peers of the service channel. -/
def newPartialRange (d : Dispatcher) (serviceName : String) : PartialRange :=
  (PartialRange.create cfg.hostPort cfg.minPeersPerWorker cfg.minPeersPerRelay).compute
    (d.relaysFor.get serviceName) (some (sortStrings (d.channelPeers serviceName)))

/-- The first half of `getPartialRange`: store a new range, on a service channel created if
missing, when the service has none. -/
def ensurePartialRange (d : Dispatcher) (serviceName : String) : Dispatcher :=
  match d.partialRanges.get serviceName with
  | some _ => d
  | none =>
    let d := getOrCreateServiceChannel cfg d serviceName
    { d with partialRanges := d.partialRanges.set serviceName (newPartialRange cfg d serviceName) }

/-- The stored range of the service when it is valid. -/
def validRange (d : Dispatcher) (serviceName : String) : Option PartialRange :=
  (d.partialRanges.get serviceName).filter (·.isValid)

/-- `getPartialRange(serviceName, reason, now)`: the stored or new range, `none` when it is not
valid. -/
def getPartialRange (d : Dispatcher) (serviceName : String) : Option PartialRange × Dispatcher :=
  let d := ensurePartialRange cfg d serviceName
  (d.validRange serviceName, d)

/-- The result object of `ensurePartialConnections`. -/
structure PartialConnections where
  /-- `noop`: there was nothing to connect or disconnect. -/
  noop : Bool
  /-- `toConnect`: the affine workers. -/
  toConnect : List String
  /-- The own keys of the plain object `isAffine`. -/
  isAffine : List String

/-- `ensurePartialConnections(serviceChannel, serviceName, hostPort, reason, now)`: add every
affine worker to the channel; the workers to disconnect are the connected ones that are not
affine (as the plain object `isAffine` answers) and not pending prune; unless both lists are
empty, connect the affine workers and disconnect the others, each fetched again through
`_getServicePeer`. `none` when the range is not valid. -/
def ensurePartialConnections (d : Dispatcher) (serviceName : String) (now : Nat) :
    Option PartialConnections × Dispatcher :=
  let d := ensurePartialRange cfg d serviceName
  match d.validRange serviceName with
  | none => (none, d)
  | some r =>
    let affine := r.affineWorkers
    let connectedPeerKeys := ((d.connectedServicePeers.get serviceName).map JsMap.keys).getD []
    let d := affine.foldl (fun d w => d._getServicePeer serviceName w) d
    let toDisconnect := connectedPeerKeys.filter fun w =>
      !plainObjectHas affine w && !d.peersToPrune.contains w
    if affine.isEmpty && toDisconnect.isEmpty then (some ⟨true, affine, affine⟩, d)
    else
      let d := affine.foldl (fun d w =>
        (d._getServicePeer serviceName w).ensurePeerConnected serviceName w now) d
      let d := toDisconnect.foldl (fun d w =>
        (d._getServicePeer serviceName w).ensurePeerDisconnected serviceName w
          "service peer affinity change" now) d
      (some ⟨false, affine, affine⟩, d)

/-- Unmark a refreshed pair for reaping and mark it as seen this reap round. -/
def markKnown (d : Dispatcher) (serviceName hostPort : String) (now : Nat) : Dispatcher :=
  { d with
    peersToReap := deleteIndexEntry d.peersToReap hostPort serviceName
    knownPeers := addIndexEntry d.knownPeers hostPort serviceName now }

/-- `freshenPartialPeer(peer, serviceName, now)`: refresh the indices of a known worker as
they stand, then let a valid range correct whether the worker should be connected. -/
def freshenPartialPeer (d : Dispatcher) (serviceName hostPort : String) (now : Nat) :
    Dispatcher :=
  let isConnected := (indexGet d.connectedServicePeers serviceName hostPort).any (· ≠ 0)
  let d := if isConnected then (d.addConnected serviceName hostPort now).cancelPrune hostPort
    else d.deleteConnected serviceName hostPort
  let d := ensurePartialRange cfg (d.markKnown serviceName hostPort now) serviceName
  let connected := match d.validRange serviceName with
    | some r =>
      let shouldConnect := r.affineWorkers.contains hostPort
      if isConnected ≠ shouldConnect then shouldConnect && now ≠ 0 else isConnected
    | none => isConnected
  if connected then d.ensurePeerConnected serviceName hostPort now
  else d.ensurePeerDisconnected serviceName hostPort "service peer affinity refresh" now

/-- `partialRange.addWorker(hostPort, now)` on the stored range of the service, if any. -/
def addRangeWorker (d : Dispatcher) (serviceName hostPort : String) : Dispatcher :=
  match d.partialRanges.get serviceName with
  | some r => { d with partialRanges := d.partialRanges.set serviceName (r.addWorker hostPort) }
  | none => d

/-- `refreshServicePeerPartially(serviceName, hostPort, now)`: freshen a worker the channel
holds; add a new one to the range and the channel, mark it known, and rerun
`ensurePartialConnections`, refreshing the worker's indices directly when that was a noop. -/
def refreshServicePeerPartially (d : Dispatcher) (serviceName hostPort : String) (now : Nat) :
    Dispatcher :=
  if d.channelHolds serviceName hostPort then freshenPartialPeer cfg d serviceName hostPort now
  else
    let d := (d.addRangeWorker serviceName hostPort)._getServicePeer serviceName hostPort
    match ensurePartialConnections cfg (d.markKnown serviceName hostPort now) serviceName now with
    | (some result, d) =>
      if result.noop then
        if plainObjectHas result.isAffine hostPort then
          (d.addConnected serviceName hostPort now).cancelPrune hostPort
        else d.deleteConnected serviceName hostPort
      else d
    | (none, d) => d

/-- The mode of the service channel of `serviceName`, if it has one. -/
def channelMode (d : Dispatcher) (serviceName : String) : Option ServiceProxyMode :=
  (d.subChannels.get serviceName).bind (·.serviceProxyMode)

/-- A change of a channel that keeps its mode keeps the mode of every channel. -/
theorem channelMode_modifyChannel {f : SubChannel → SubChannel}
    (hf : ∀ ch, (f ch).serviceProxyMode = ch.serviceProxyMode) (d : Dispatcher) (s s' : String) :
    (d.modifyChannel s f).channelMode s' = d.channelMode s' := by
  unfold modifyChannel channelMode
  split
  · rename_i ch hch
    simp only [JsMap.get_set]
    split
    · subst s'; simp [hch, hf]
    · rfl
  · rfl

/-- `getPartialRange` leaves a range stored for the service, and keeps the mode of a channel the
service has: it stores a range for a forward channel too. -/
theorem ensurePartialRange_stores_range (d : Dispatcher) (s : String) :
    ((ensurePartialRange cfg d s).partialRanges.get s).isSome ∧
      (d.subChannels.contains s → (ensurePartialRange cfg d s).channelMode s = d.channelMode s) := by
  unfold ensurePartialRange
  split
  · rename_i r hr
    exact ⟨by simp [hr], fun _ => rfl⟩
  · exact ⟨by simp, fun hs => by simp [getOrCreateServiceChannel, hs, channelMode]⟩

/-- `refreshServicePeer(serviceName, hostPort)`: an advertisement, effective in exit mode only:
stamp `exitServices`, then take the partial-affinity path, or cancel any prune, mark the pair
known, add the worker and keep it connected. -/
def refreshServicePeer (d : Dispatcher) (serviceName hostPort : String) (now : Nat) :
    Dispatcher :=
  let d := getOrCreateServiceChannel cfg d serviceName
  if d.channelMode serviceName ≠ some .exit then d
  else
    let d := { d with exitServices := d.exitServices.set serviceName now }
    if d.partialAffinityEnabled then refreshServicePeerPartially cfg d serviceName hostPort now
    else
      let d := (d.cancelPrune hostPort).markKnown serviceName hostPort now
      (getServicePeer cfg d serviceName hostPort).ensurePeerConnected serviceName hostPort now

/-- The loop `for (i = 0; i < subChanKeys; i++)` of `removeServicePeer`, which collects the
sub channels that still hold the peer. The bound is the array `subChanKeys` itself, which the
comparison turns into `Number(subChanKeys.join(','))`: with two or more keys the string holds a
comma and the number is `NaN`, so the loop makes no pass; with one key `k` it is `Number(k)`,
and a second pass reads `subChannels[undefined]`, which is missing, and throws. -/
def remainingServices (d : Dispatcher) (hostPort : String) : Except String (List String) :=
  match d.subChannels.keys with
  | [k] =>
    match cfg.keyBound k with
    | .none => .ok []
    | .one => .ok (if d.channelHolds k hostPort then [k] else [])
    | .more => .error "TypeError: Cannot read property 'peers' of undefined"
  | _ => .ok []

/-- `partialRange.compute(null, serviceChannel.peers.keys().sort(), now)` on the stored range
of the service, if any. -/
def recomputeWorkers (d : Dispatcher) (serviceName : String) : Dispatcher :=
  match d.partialRanges.get serviceName with
  | some r =>
    { d with
      partialRanges := d.partialRanges.set serviceName
        (r.compute none (some (sortStrings (d.channelPeers serviceName)))) }
  | none => d

/-- The drain of an unadvertised peer. -/
def unadvertisementDrain : PeerDrain := ⟨.closePeer, "closing due to unadvertisement", .both⟩

/-- The partial-affinity part of `removeServicePeer`: recompute the range from the remaining
peers and rerun `ensurePartialConnections`, dropping the pair from the indices directly when
that was a noop. -/
def unadvertisePartially (d : Dispatcher) (serviceName hostPort : String) (now : Nat) :
    Dispatcher :=
  match ensurePartialConnections cfg (d.recomputeWorkers serviceName) serviceName now with
  | (some result, d) => if result.noop then d.deleteConnected serviceName hostPort else d
  | (none, d) => d

/-- The end of `removeServicePeer`: unless another sub channel holds the peer or a reap drain is
under way, drain it in both directions. -/
def drainUnadvertised (d : Dispatcher) (hostPort : String) : Except String Dispatcher :=
  match remainingServices cfg d hostPort with
  | .error e => .error e
  | .ok remain =>
    if !remain.isEmpty then .ok d
    else if (d.peerDraining hostPort).any (fun drain => startsWith drain.reason "reaped") then
      .ok d
    else .ok (d.modifyPeer hostPort fun p => { p with draining := some unadvertisementDrain })

/-- `removeServicePeer(serviceName, hostPort)`: an unadvertisement. Delete the peer from the
service channel, update the partial-affinity connections, and drain the peer unless it is
still in use. -/
def removeServicePeer (d : Dispatcher) (serviceName hostPort : String) (now : Nat) :
    Except String Dispatcher :=
  if !d.subChannels.contains serviceName || !d.rootPeers.contains hostPort then .ok d
  else
    let d := d.modifyChannel serviceName fun ch => { ch with peers := ch.peers.erase hostPort }
    let d := if d.partialAffinityEnabled then unadvertisePartially cfg d serviceName hostPort now
      else d
    drainUnadvertised cfg d hostPort

end Dispatcher

end Hyperbahn
