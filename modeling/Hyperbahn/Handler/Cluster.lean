import Hyperbahn.Handler.Advertise
import Hyperbahn.Dispatcher.Step

/-!
# The exit side of an advertisement, and the cluster

An exit relay answers a `relay-ad` with `handleRelayAdvertise` and a `relay-unad` with
`handleRelayUnadvertise`. Both run `handleRelay`, whose loop hands each service of the request to
`advertise` or `unadvertise`, that is to `refreshServicePeer` or `removeServicePeer` of the
relay's dispatcher, in order and at one time, then answers `{ok: true}`.

A `Cluster` is the system one advertisement runs in: the fan-out of one `sendRelays` on the entry
relay, the dispatcher of the relay at every host-port, and what the network has delivered. An
attempt of a `sendRelay` that has been sent may reach its exit host at any later time, also
after its `onResponse` has run on a timeout, and reaches it at most once; an `ok` response
answers an attempt that has reached its host. Every relay also keeps handling its own events
in between, so a run interleaves the fan-out, the deliveries and everything each dispatcher
does, in any order.

This models what the relays and the network do to the dispatchers. The transport is not among
the sources; `delivered` and `acked` record what it has done, not state of the code.
-/

namespace Hyperbahn

/-- `service.hostPort` as the key of the dispatcher's objects: `sendRelays` sets it on every
service it relays, and an unset one reads as the key `undefined`. -/
def Service.hostPortKey (service : Service) : String := service.hostPort.getD "undefined"

namespace Dispatcher

variable (cfg : Config)

/-- `advertise(service)`: `refreshServicePeer(service.serviceName, service.hostPort)`. -/
def advertise (d : Dispatcher) (service : Service) (now : Nat) : Dispatcher :=
  refreshServicePeer cfg d service.serviceName service.hostPortKey now

/-- `unadvertise(service)`: `removeServicePeer(service.serviceName, service.hostPort)`. -/
def unadvertise (d : Dispatcher) (service : Service) (now : Nat) : Except String Dispatcher :=
  removeServicePeer cfg d service.serviceName service.hostPortKey now

/-- `handleRelay(endpoint, req, arg2, arg3, cb)`: advertise or unadvertise each service of the
request, or log it for any other endpoint, then call back `{ok: true}`. -/
def handleRelay (d : Dispatcher) (endpoint : String) (services : List Service) (now : Nat) :
    Except String Dispatcher :=
  services.foldlM (fun d service =>
    if endpoint = "ad" then .ok (advertise cfg d service now)
    else if endpoint = "unad" then unadvertise cfg d service now
    else .ok d) d

/-- `handleRelayAdvertise`: `handleRelay('ad', ...)`. -/
def handleRelayAdvertise (d : Dispatcher) (services : List Service) (now : Nat) :
    Except String Dispatcher :=
  handleRelay cfg d "ad" services now

/-- `handleRelayUnadvertise`: `handleRelay('unad', ...)`. -/
def handleRelayUnadvertise (d : Dispatcher) (services : List Service) (now : Nat) :
    Except String Dispatcher :=
  handleRelay cfg d "unad" services now

/-- The handler `tchannelJSON.register` gives a relayed endpoint: `relay-ad` and `relay-unad`;
any other endpoint of a relay request reaches no handler of the dispatcher. -/
def handleRelayRequest (d : Dispatcher) (endpoint : String) (services : List Service)
    (now : Nat) : Option (Except String Dispatcher) :=
  if endpoint = "relay-ad" then some (handleRelayAdvertise cfg d services now)
  else if endpoint = "relay-unad" then some (handleRelayUnadvertise cfg d services now)
  else none

end Dispatcher

/-- The relays of a cluster while the entry relay runs one `sendRelays`. -/
structure Cluster where
  /-- The fan-out of the entry relay. -/
  fanout : Fanout
  /-- The dispatcher of the relay at each host-port. -/
  exits : String → Dispatcher
  /-- The attempts that have reached their exit host, as the index of their `sendRelay` and the
  number of the attempt. -/
  delivered : List (Nat × Nat)
  /-- The `sendRelay`s that called back on an `ok` response. -/
  acked : List Nat

/-- What can happen next in the cluster. -/
inductive Cluster.Event
  /-- An event of the fan-out on the entry relay. -/
  | fanout (e : Fanout.Event)
  /-- Attempt `k` of the `i`-th `sendRelay` reaches its exit host, at the time `now` there. -/
  | deliver (i k now : Nat)
  /-- Another event of the relay at `hostPort`, at the time `now` there. -/
  | exit (hostPort : String) (now : Nat) (e : Hyperbahn.Event)

namespace Cluster

variable (cfg : Config) (h : HyperbahnHandler)

/-- The cluster before the first event: the fan-out `f` as `sendRelays` made it, nothing sent
yet. -/
def init (f : Fanout) (exits : String → Dispatcher) : Cluster := ⟨f, exits, [], []⟩

/-- Whether the attempt of the `i`-th `sendRelay` now in flight has reached its exit host. -/
def currentDelivered (c : Cluster) (i : Nat) : Bool :=
  match c.fanout.relays[i]? with
  | some r => c.delivered.contains (i, r.attempts)
  | none => false

/-- One event, or `none` when it cannot happen: a response is `ok` only to an attempt that has
reached its host, an attempt reaches its host at most once, and a handler that throws takes its
relay down. -/
def step (c : Cluster) : Cluster.Event → Option Cluster
  | .fanout (.respond i result) =>
    if result.ok ∧ c.currentDelivered i = false then none
    else (c.fanout.step h (.respond i result)).map fun f =>
      { c with fanout := f, acked := if result.ok then c.acked ++ [i] else c.acked }
  | .fanout e => (c.fanout.step h e).map fun f => { c with fanout := f }
  | .deliver i k now =>
    match c.fanout.relays[i]? with
    | some r =>
      if 0 < now ∧ 1 ≤ k ∧ k ≤ r.attempts ∧ (i, k) ∉ c.delivered then
        match Dispatcher.handleRelayRequest cfg (c.exits r.opts.hostPort) r.opts.endpoint
            r.opts.services now with
        | some (.ok d) =>
          some { c with exits := Function.update c.exits r.opts.hostPort d,
                        delivered := c.delivered ++ [(i, k)] }
        | _ => none
      else none
    | none => none
  | .exit hostPort now e =>
    if 0 < now then
      match Dispatcher.step cfg (c.exits hostPort) now e with
      | .ok d => some { c with exits := Function.update c.exits hostPort d }
      | .error _ => none
    else none

/-- Take events in order, stopping at the first that cannot happen. -/
def run : Cluster → List Cluster.Event → Option Cluster
  | c, [] => some c
  | c, e :: events => (c.step cfg h e).bind fun c => run c events

end Cluster

end Hyperbahn
