import Hyperbahn.Dispatcher.State

/-!
# The advertisement fan-out

`HyperbahnHandler` answers an `ad` or `unad` request of a worker by relaying it to the exit
nodes of each service it names. `sendRelays` tags every service with the requester's host-port,
buckets the services by exit host in the plain object `servicesByExitNode = {}`, starts one
`sendRelay` per bucket, and answers the requester once every `sendRelay` has called back, counting
down `counter` from `1 + exitNodeKeys.length`. Each `sendRelay` sends its bucket to its exit host
and retries after a network error or a timeout, up to `maxRelayAdAttempts` times; on any other
outcome it logs and calls back.

The relays run concurrently with the network and the timers. A `Fanout` is the state of one call
of `sendRelays` after its buckets are made, and `Fanout.step` takes one event: the synchronous
code's next step, an attempt that ends (`onResponse`), or a retry timer that fires. A run takes
them in any order, so an attempt may end before the loop has started the next `sendRelay`, as a
synchronous failure of `waitForIdentified` does.

`waitForIdentified`, `request`, `send`, `setTimeout` and `Errors.classify` are the transport's
and are not among the sources: an attempt is modelled by how it ends, one `AttemptResult` per
attempt, chosen by the environment.
-/

namespace Hyperbahn

/-- An entry of the `services` of an `ad` or `unad` request. -/
structure Service where
  /-- `serviceName`. -/
  serviceName : String
  /-- `hostPort`, which `sendRelays` sets to the requester's host-port. -/
  hostPort : Option String
deriving DecidableEq, Repr

/-- `MAX_RELAY_AD_ATTEMPTS`. -/
def defaultMaxRelayAdAttempts : Nat := 2

/-- What `HyperbahnHandler` reads on an advertisement. -/
structure HyperbahnHandler where
  /-- `egressNodes`: the exit hosts of a service are `Object.keys(egressNodes.exitsFor(name))`. -/
  egressNodes : Ring
  /-- Keys of an object are distinct. -/
  exitsFor_nodup : ∀ serviceName, (egressNodes.exitsFor serviceName).Nodup
  /-- `maxRelayAdAttempts`. -/
  maxRelayAdAttempts : Nat

/-- `new HyperbahnHandler(options)`: `options.maxRelayAdAttempts || MAX_RELAY_AD_ATTEMPTS`, so a
missing or zero option takes the default. -/
def HyperbahnHandler.create (egressNodes : Ring)
    (exitsFor_nodup : ∀ serviceName, (egressNodes.exitsFor serviceName).Nodup)
    (maxRelayAdAttempts : Option Nat) : HyperbahnHandler :=
  ⟨egressNodes, exitsFor_nodup, match maxRelayAdAttempts with
    | some n => if n = 0 then defaultMaxRelayAdAttempts else n
    | none => defaultMaxRelayAdAttempts⟩

/-- A handler whose ring has the one exit `hostPort`, with the default attempts. -/
def HyperbahnHandler.sample (hostPort : String) : HyperbahnHandler :=
  create (Ring.single hostPort) (fun _ => List.nodup_singleton _) none

/-- The ring of two services with a shared exit: `s1` has the exits `x` and `y`, `s2` has `y`
and `z`, and no other service has any. -/
def Ring.overlapping : Ring :=
  ⟨fun s => if s = "s1" then ["x", "y"] else if s = "s2" then ["y", "z"] else []⟩

/-- A handler with the ring `Ring.overlapping` and three attempts per relay. -/
def HyperbahnHandler.overlapping : HyperbahnHandler :=
  create Ring.overlapping (fun s => by unfold Ring.overlapping; dsimp only; split_ifs <;> decide)
    (some 3)

/-! ## Bucketing the services -/

/-- `relayReq.push(service)` on `servicesByExitNode[exitNode]`, made `[]` when it is falsy. A
missing key named after a property of `Object.prototype` reads the inherited value, a truthy
function or object with no `push`, and the call throws. -/
def pushService (service : Service) (servicesByExitNode : JsMap (List Service))
    (exitNode : String) : Except String (JsMap (List Service)) :=
  match servicesByExitNode.get exitNode with
  | some relayReq => .ok (servicesByExitNode.set exitNode (relayReq ++ [service]))
  | none =>
    if objectPrototypeKeys.contains exitNode then
      .error "TypeError: relayReq.push is not a function"
    else .ok (servicesByExitNode.set exitNode [service])

/-- The first loop of `sendRelays`: set `service.hostPort = req.connection.remoteName`, skip a
service with the empty name, and push it to the bucket of each of its exit hosts. -/
def bucketServices (egressNodes : Ring) (remoteName : String) :
    List Service → JsMap (List Service) → Except String (JsMap (List Service))
  | [], servicesByExitNode => .ok servicesByExitNode
  | service :: services, servicesByExitNode =>
    let service := { service with hostPort := some remoteName }
    if service.serviceName = "" then
      bucketServices egressNodes remoteName services servicesByExitNode
    else
      match (egressNodes.exitsFor service.serviceName).foldlM (pushService service)
          servicesByExitNode with
      | .ok servicesByExitNode => bucketServices egressNodes remoteName services servicesByExitNode
      | .error e => .error e

/-! ## One `sendRelay` -/

/-- The `opts` of a `sendRelay`. -/
structure RelayOpts where
  /-- The exit host. -/
  hostPort : String
  /-- Its bucket. -/
  services : List Service
  /-- `relay-ad` or `relay-unad`. -/
  endpoint : String
deriving DecidableEq, Repr

/-- Where a `sendRelay` stands. -/
inductive RelayPhase
  /-- An attempt waits for `onIdentified` and `onResponse`. -/
  | inFlight
  /-- `setTimeout(tryRequest, relayAdRetryTime)` is pending. -/
  | retrying
  /-- `callback(null, null)` has run. -/
  | calledBack
deriving DecidableEq, Repr

/-- How an attempt ends, as `onResponse(err, response)` sees it; an error of `waitForIdentified`
reaches it with no response. -/
structure AttemptResult where
  /-- `err` is set. -/
  err : Bool
  /-- `Errors.classify(err)`. -/
  codeName : Option String
  /-- `response && response.ok`. -/
  ok : Bool
deriving DecidableEq, Repr

/-- One `sendRelay(opts, callback)`. -/
structure Relay where
  /-- `opts`. -/
  opts : RelayOpts
  /-- `attempts`. -/
  attempts : Nat
  /-- Where it stands. -/
  phase : RelayPhase
deriving DecidableEq, Repr

namespace Relay

/-- `tryRequest()`: count one more attempt and send it. -/
def tryRequest (r : Relay) : Relay := { r with attempts := r.attempts + 1, phase := .inFlight }

/-- `sendRelay(opts, callback)`: `attempts = 0`, then the first `tryRequest()`. -/
def start (opts : RelayOpts) : Relay := tryRequest ⟨opts, 0, .inFlight⟩

/-- `onResponse(err, response)`: call back on an ok response; retry after a network error or a
timeout while `attempts <= maxRelayAdAttempts`; otherwise log the error and call back. -/
def onResponse (maxRelayAdAttempts : Nat) (r : Relay) (result : AttemptResult) : Relay :=
  if result.ok then { r with phase := .calledBack }
  else if r.attempts ≤ maxRelayAdAttempts ∧ result.err ∧
      (result.codeName = some "NetworkError" ∨ result.codeName = some "Timeout") then
    { r with phase := .retrying }
  else { r with phase := .calledBack }

/-- The number of times the relay has called back. -/
def callbacks (r : Relay) : Nat := if r.phase = .calledBack then 1 else 0

end Relay

/-! ## The fan-out -/

/-- One call of `sendRelays` once its buckets are made. -/
structure Fanout where
  /-- The buckets the loop over `exitNodeKeys` has still to pass to `sendRelay`. -/
  toStart : List RelayOpts
  /-- The `sendRelay` calls made so far, in the order of the loop. -/
  relays : List Relay
  /-- The `onFinish()` after the loop has run. -/
  loopDone : Bool
  /-- `counter`. -/
  counter : Int
  /-- `exitNodeKeys`. -/
  exitNodeKeys : List String
  /-- The `connectionCount` of each call of the endpoint callback `cb`, in order. -/
  answers : List Nat
deriving DecidableEq, Repr

/-- `sendRelays(req, arg2, arg3, endpoint, cb)` up to the loop that starts the relays. -/
def sendRelays (h : HyperbahnHandler) (remoteName : String) (services : List Service)
    (endpoint : String) : Except String Fanout := do
  let servicesByExitNode ← bucketServices h.egressNodes remoteName services ∅
  let exitNodeKeys := servicesByExitNode.keys
  pure { toStart := exitNodeKeys.map fun hostPort =>
          ⟨hostPort, (servicesByExitNode.get hostPort).getD [], endpoint⟩
         relays := [], loopDone := false, counter := 1 + exitNodeKeys.length, exitNodeKeys,
         answers := [] }

/-- `handleAdvertise`. -/
def handleAdvertise (h : HyperbahnHandler) (remoteName : String) (services : List Service) :
    Except String Fanout :=
  sendRelays h remoteName services "relay-ad"

/-- `handleUnadvertise`. -/
def handleUnadvertise (h : HyperbahnHandler) (remoteName : String) (services : List Service) :
    Except String Fanout :=
  sendRelays h remoteName services "relay-unad"

namespace Fanout

/-- `onFinish()`: count down, and answer `{connectionCount: exitNodeKeys.length}` at `0`. -/
def onFinish (f : Fanout) : Fanout :=
  if f.counter - 1 = 0 then
    { f with counter := f.counter - 1, answers := f.answers ++ [f.exitNodeKeys.length] }
  else { f with counter := f.counter - 1 }

/-- What can happen next during a `sendRelays`. -/
inductive Event
  /-- The synchronous code goes on: the next `sendRelay` of the loop, or the `onFinish()` after
  it. -/
  | next
  /-- The attempt of the `i`-th `sendRelay` ends. -/
  | respond (i : Nat) (result : AttemptResult)
  /-- The retry timer of the `i`-th `sendRelay` fires. -/
  | retry (i : Nat)
deriving DecidableEq, Repr

/-- One event, or `none` when it cannot happen. -/
def step (h : HyperbahnHandler) (f : Fanout) : Fanout.Event → Option Fanout
  | .next =>
    match f.toStart with
    | opts :: rest => some { f with toStart := rest, relays := f.relays ++ [Relay.start opts] }
    | [] => if f.loopDone then none else some (onFinish { f with loopDone := true })
  | .respond i result =>
    match f.relays[i]? with
    | some r =>
      if r.phase = .inFlight then
        let r := r.onResponse h.maxRelayAdAttempts result
        let f := { f with relays := f.relays.set i r }
        some (if r.phase = .calledBack then onFinish f else f)
      else none
    | none => none
  | .retry i =>
    match f.relays[i]? with
    | some r => if r.phase = .retrying then some { f with relays := f.relays.set i r.tryRequest }
      else none
    | none => none

/-- Take events in order, stopping at the first that cannot happen. -/
def run (h : HyperbahnHandler) : Fanout → List Fanout.Event → Option Fanout
  | f, [] => some f
  | f, e :: events => (f.step h e).bind fun f => run h f events

end Fanout

end Hyperbahn
