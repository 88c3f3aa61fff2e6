import Hyperbahn.Dispatcher.Membership

/-!
# Periodic scans and the end of drains

Three `IntervalScan`s of the dispatcher touch its tables. Each tick takes a collection and runs
a callback on every entry of it, in `Object.keys` order:

* the peer pruner swaps `peersToPrune` for an empty object and drains the outbound
  connections of every peer it took (`pruneSinglePeer`);
* the peer reaper takes `peersToReap`, moves `knownPeers` into its place and empties
  `knownPeers`, then reaps every peer it took (`reapSinglePeer`);
* the service purger walks `exitServices` and drops the services whose last advertisement is
  older than `servicePurgePeriod`.

A drain ends when the transport closes its connections or its timeout fires; its callback then
deletes the peer from the root table (a close-peer drain) or clears the drain (a prune).
-/

namespace Hyperbahn

namespace Dispatcher

/-- The drain of a pruned peer. -/
def pruneDrain (info : PruneInfo) : PeerDrain :=
  ⟨.closeDrained, "peer pruned because " ++ info.reason, .out⟩

/-- The drain of a reaped peer. -/
def reapDrain : PeerDrain := ⟨.closePeer, "reaped for expired advertisement", .both⟩

/-- `pruneSinglePeer(hostPort, pruneInfo)`: drain the outbound connections of a root peer that
is not draining already. -/
def pruneSinglePeer (d : Dispatcher) (hostPort : String) (info : PruneInfo) : Dispatcher :=
  match d.rootPeers.get hostPort with
  | some p => if p.draining.isSome then d
    else d.modifyPeer hostPort fun p => { p with draining := some (pruneDrain info) }
  | none => d

/-- A tick of the peer pruner. -/
def prunePeers (d : Dispatcher) : Dispatcher :=
  let collection := d.peersToPrune
  collection.keys.foldl (fun d hostPort =>
    match collection.get hostPort with
    | some info => d.pruneSinglePeer hostPort info
    | none => d) { d with peersToPrune := ∅ }

/-- One pass of the loop of `reapSinglePeer`, over the service name `serviceName`: delete the
peer from that service channel, from the indices, and from its range, which throws when the
service has no range. -/
def reapService (d : Dispatcher) (hostPort serviceName : String) : Except String Dispatcher :=
  let d := (d.modifyChannel serviceName fun ch => { ch with peers := ch.peers.erase hostPort })
    |>.deletePeerIndex serviceName hostPort
  match d.partialRanges.get serviceName with
  | some r =>
    .ok { d with partialRanges := d.partialRanges.set serviceName (r.removeWorker hostPort) }
  | none => .error "TypeError: Cannot read property 'removeWorker' of undefined"

/-- `reapSinglePeer(hostPort, serviceNames, now)`: unless the peer was seen again or is draining
for another reason than a prune, run the loop `for (i = 0; i < serviceNames.length; i++)` and
drain the peer in both directions. `serviceNames` is the entry of `peersToReap`, an object, so
its `length` is the value of a service named `length`, and its `i`-th service name is the
value stored under the key `i`, turned back into a key. -/
def reapSinglePeer (d : Dispatcher) (hostPort : String) (serviceNames : JsMap Nat) :
    Except String Dispatcher :=
  if d.knownPeers.contains hostPort then .ok d
  else match d.rootPeers.get hostPort with
  | none => .ok d
  | some p =>
    if p.draining.any (fun drain => !startsWith drain.reason "peer pruned") then .ok d
    else
      let d := d.modifyPeer hostPort fun p => { p with draining := none }
      match (List.range ((serviceNames.get "length").getD 0)).foldlM (fun d i =>
          d.reapService hostPort (numberKey (serviceNames.get (toString i)))) d with
      | .ok d => .ok (d.modifyPeer hostPort fun p => { p with draining := some reapDrain })
      | .error e => .error e

/-- What a `reapSinglePeer` that returns did: nothing, or clear the peer's prune drain, run the
loop, and drain the peer for the reap. -/
theorem reapSinglePeer_cases {d d' : Dispatcher} {hostPort : String} {serviceNames : JsMap Nat}
    (he : d.reapSinglePeer hostPort serviceNames = .ok d') :
    d' = d ∨ ∃ d₁, (List.range ((serviceNames.get "length").getD 0)).foldlM (fun d i =>
        d.reapService hostPort (numberKey (serviceNames.get (toString i))))
        (d.modifyPeer hostPort fun p => { p with draining := none }) = .ok d₁ ∧
      d' = d₁.modifyPeer hostPort fun p => { p with draining := some reapDrain } := by
  simp only [reapSinglePeer] at he
  split at he
  · exact .inl (Except.ok.inj he).symm
  · split at he
    · exact .inl (Except.ok.inj he).symm
    · split at he
      · exact .inl (Except.ok.inj he).symm
      · split at he
        · exact .inr ⟨_, ‹_›, (Except.ok.inj he).symm⟩
        · cases he

/-- A tick of the peer reaper. -/
def reapPeers (d : Dispatcher) : Except String Dispatcher :=
  let collection := d.peersToReap
  collection.keys.foldlM (fun d hostPort =>
    match collection.get hostPort with
    | some serviceNames => d.reapSinglePeer hostPort serviceNames
    | none => .ok d) { d with peersToReap := d.knownPeers, knownPeers := ∅ }

/-- `now - lastRefresh > self.servicePurgePeriod`, where a missing period makes the comparison
with `undefined` false. -/
def purgeExpired (d : Dispatcher) (lastRefresh now : Nat) : Bool :=
  match d.servicePurgePeriod with
  | some period => decide ((now : Int) - lastRefresh > period)
  | none => false

/-- `maybePurgeEachService(serviceName, lastRefresh)`: drop an expired service, and its service
channel and rate-limiter counters. -/
def maybePurgeEachService (d : Dispatcher) (serviceName : String) (lastRefresh now : Nat) :
    Dispatcher :=
  if !d.purgeExpired lastRefresh now then d
  else
    let d := { d with exitServices := d.exitServices.delete serviceName }
    if d.subChannels.contains serviceName then
      { d with
        subChannels := d.subChannels.delete serviceName
        rateLimiter := d.rateLimiter ++
          [(now, .removeServiceCounter serviceName), (now, .removeKillSwitchCounter serviceName)] }
    else d

/-- A tick of the service purger, over `exitServices` itself. -/
def purgeServices (d : Dispatcher) (now : Nat) : Dispatcher :=
  let collection := d.exitServices
  collection.keys.foldl (fun d serviceName =>
    match collection.get serviceName with
    | some lastRefresh => d.maybePurgeEachService serviceName lastRefresh now
    | none => d) d

/-- `channel.peers.delete(hostPort)` on the root table, which takes the peer out of every sub
channel as well. -/
def deleteRootPeer (d : Dispatcher) (hostPort : String) : Dispatcher :=
  { d with
    rootPeers := d.rootPeers.delete hostPort
    subChannels := d.subChannels.mapValues fun ch => { ch with peers := ch.peers.erase hostPort } }

/-- The end of the drain of a root peer: a close-peer drain closes every connection and its
callback deletes the peer; a prune drain closes the outbound connections and its callback
clears the drain. -/
def drainDone (d : Dispatcher) (hostPort : String) : Dispatcher :=
  match d.peerDraining hostPort with
  | some drain =>
    match drain.goal with
    | .closePeer => d.deleteRootPeer hostPort
    | .closeDrained => d.modifyPeer hostPort fun _ => ⟨false, none⟩
  | none => d

end Dispatcher

end Hyperbahn
