import Hyperbahn.Dispatcher.Scans
import Hyperbahn.Dispatcher.Admission

/-!
# The dispatcher as a state machine

Everything that happens to the dispatcher is an `Event`: an advertisement or unadvertisement
relayed to it, a membership change of the ring and the reconciliation scheduled after it, a
tick of one of its scans, the end of a peer drain or another transport event, a remote-config
toggle, or a call request. `step` runs the handler of one event at a time `now`; an event
whose handler throws has no successor state, as the exception takes the process down.

`Reachable` is the set of states the dispatcher reaches from its construction by any sequence
of events at positive times, in any order: the scans, the reconciliation and the transport
events may come at any point, which covers every schedule the timers and the network allow.
-/

namespace Hyperbahn

/-- An event the dispatcher handles. -/
inductive Event
  /-- A `relay-ad` for one service: `refreshServicePeer`. -/
  | refreshServicePeer (serviceName hostPort : String)
  /-- A `relay-unad` for one service: `removeServicePeer`. -/
  | removeServicePeer (serviceName hostPort : String)
  /-- The ring changed membership. -/
  | egressNodesChanged (ring : Ring)
  /-- The `updateServiceChannels` scheduled after a membership change. -/
  | updateServiceChannels
  /-- A tick of the peer pruner. -/
  | prunePeers
  /-- A tick of the peer reaper. -/
  | reapPeers
  /-- A tick of the service purger. -/
  | purgeServices
  /-- The drain of a root peer ended, or timed out. -/
  | drainDone (hostPort : String)
  /-- An incoming connection added a root peer. -/
  | peerConnected (hostPort : String)
  /-- The outbound connection of a root peer closed. -/
  | connectionLost (hostPort : String)
  /-- `setPartialAffinityEnabled(enabled)`. -/
  | setPartialAffinityEnabled (enabled : Bool)
  /-- `enableCircuits()`. -/
  | enableCircuits
  /-- `disableCircuits()`. -/
  | disableCircuits
  /-- `enableRateLimiter()` or `disableRateLimiter()`. -/
  | setRateLimiterEnabled (enabled : Bool)
  /-- A remote-config update of the rate limiter's limits. -/
  | updateRateLimiter (call : RateLimiterCall)
  /-- The relay handler of an exit channel looked up a circuit. -/
  | getCircuit (callerName serviceName endpointName : String)
  /-- A parsed call request. -/
  | handleRequest (req : CallRequest)
  /-- A lazily relayed call request frame. -/
  | handleLazily (frame : LazyFrame)
  /-- `block(cn, serviceName)`. -/
  | block (cn serviceName : Option String)
  /-- `unblock(cn, serviceName)`. -/
  | unblock (cn serviceName : Option String)
  /-- `blockRemoteConfig(cn, serviceName)`. -/
  | blockRemoteConfig (cn serviceName : Option String)
  /-- `unblockAllRemoteConfig()`. -/
  | unblockAllRemoteConfig

namespace Dispatcher

variable (cfg : Config)

/-- Handle one event at time `now`. -/
def step (d : Dispatcher) (now : Nat) : Event → Except String Dispatcher
  | .refreshServicePeer serviceName hostPort =>
    .ok (refreshServicePeer cfg d serviceName hostPort now)
  | .removeServicePeer serviceName hostPort => removeServicePeer cfg d serviceName hostPort now
  | .egressNodesChanged ring => .ok { d with egressNodes := ring }
  | .updateServiceChannels => .ok (updateServiceChannels cfg d now)
  | .prunePeers => .ok d.prunePeers
  | .reapPeers => d.reapPeers
  | .purgeServices => .ok (d.purgeServices now)
  | .drainDone hostPort => .ok (d.drainDone hostPort)
  | .peerConnected hostPort =>
    .ok (if d.rootPeers.contains hostPort then d
      else { d with rootPeers := d.rootPeers.set hostPort .fresh })
  | .connectionLost hostPort => .ok (d.modifyPeer hostPort fun p => { p with outConnected := false })
  | .setPartialAffinityEnabled enabled => .ok (d.setPartialAffinityEnabled enabled)
  | .enableCircuits => .ok d.enableCircuits
  | .disableCircuits => .ok d.disableCircuits
  | .setRateLimiterEnabled enabled => .ok { d with rateLimiterEnabled := enabled }
  | .updateRateLimiter call => .ok (d.callRateLimiter now call)
  | .getCircuit callerName serviceName endpointName =>
    .ok { d with circuits := d.circuits.map fun c =>
      (c.getCircuit callerName serviceName endpointName).2 }
  | .handleRequest req => .ok (handleRequest cfg d req now).2
  | .handleLazily frame => .ok (handleLazily cfg d frame now).2
  | .block cn serviceName => d.block cn serviceName now
  | .unblock cn serviceName => .ok (d.unblock cn serviceName)
  | .blockRemoteConfig cn serviceName => d.blockRemoteConfig cn serviceName now
  | .unblockAllRemoteConfig => .ok d.unblockAllRemoteConfig

/-- The states reachable from the construction of the dispatcher. -/
inductive Reachable : Dispatcher → Prop
  | init (ring : Ring) : Reachable (init ring)
  | step {d d' : Dispatcher} {now : Nat} {e : Event} :
      Reachable d → 0 < now → step cfg d now e = .ok d' → Reachable d'

/-- Run timed events in order, stopping at the first that throws. -/
def run : Dispatcher → List (Nat × Event) → Except String Dispatcher
  | d, [] => .ok d
  | d, (now, e) :: rest =>
    match step cfg d now e with
    | .ok d => run d rest
    | .error err => .error err

/-- A run of events at positive times from a reachable state ends in a reachable state. -/
theorem reachable_run {d d' : Dispatcher} {events : List (Nat × Event)}
    (hd : Reachable cfg d) (hpos : ∀ e ∈ events, 0 < e.1)
    (hrun : run cfg d events = .ok d') : Reachable cfg d' := by
  induction events generalizing d with
  | nil => cases hrun; exact hd
  | cons e rest ih =>
    obtain ⟨now, e⟩ := e
    simp only [run] at hrun
    split at hrun
    · exact ih (hd.step (hpos _ (List.mem_cons_self _ _)) ‹_›)
        (fun e he => hpos e (List.mem_cons_of_mem _ he)) hrun
    · cases hrun

/-- Run `events`, then the event `e` at `now`, and test the states before and after `e`;
`false` when a handler throws. -/
def runThenStep (p : Dispatcher → Dispatcher → Bool) (d : Dispatcher)
    (events : List (Nat × Event)) (now : Nat) (e : Event) : Bool :=
  match run cfg d events with
  | .ok d₁ =>
    match step cfg d₁ now e with
    | .ok d₂ => p d₁ d₂
    | .error _ => false
  | .error _ => false

/-- A run that passes `runThenStep` exhibits a step from a reachable state whose states before
and after pass the test. -/
theorem exists_step_of_runThenStep (events : List (Nat × Event))
    {p : Dispatcher → Dispatcher → Bool} {d : Dispatcher} {now : Nat} {e : Event} (hd : Reachable cfg d)
    (hpos : ∀ e ∈ events, 0 < e.1) (h : runThenStep cfg p d events now e = true) :
    ∃ d₁ d₂, Reachable cfg d₁ ∧ step cfg d₁ now e = .ok d₂ ∧ p d₁ d₂ = true := by
  unfold runThenStep at h
  split at h
  · rename_i d₁ hrun
    split at h
    · exact ⟨d₁, _, reachable_run cfg hd hpos hrun, ‹_›, h⟩
    · cases h
  · cases h

/-- Run `events`, then the event `e` at `now`, and test that its handler throws `err`. -/
def runThenThrows (d : Dispatcher) (events : List (Nat × Event)) (now : Nat) (e : Event)
    (err : String) : Bool :=
  match run cfg d events with
  | .ok d₁ =>
    match step cfg d₁ now e with
    | .ok _ => false
    | .error err' => err' == err
  | .error _ => false

/-- A run that passes `runThenThrows` exhibits a reachable state whose handler of `e` throws. -/
theorem exists_throw_of_runThenThrows (events : List (Nat × Event)) {d : Dispatcher} {now : Nat}
    {e : Event} {err : String} (hd : Reachable cfg d) (hpos : ∀ e ∈ events, 0 < e.1)
    (h : runThenThrows cfg d events now e err = true) :
    ∃ d₁, Reachable cfg d₁ ∧ step cfg d₁ now e = .error err := by
  unfold runThenThrows at h
  split at h
  · rename_i d₁ hrun
    split at h
    · cases h
    · rename_i he
      exact ⟨d₁, reachable_run cfg hd hpos hrun, by rw [he, eq_of_beq h]⟩
  · cases h

/-- Induction over reachable states: an invariant that holds initially and that every step
keeps holds of every reachable state. -/
theorem Reachable.induct_inv {P : Dispatcher → Prop} (hinit : ∀ ring, P (Dispatcher.init ring))
    (hstep : ∀ d d' now e, Reachable cfg d → P d → 0 < now →
      Dispatcher.step cfg d now e = .ok d' → P d')
    {d : Dispatcher} (hd : Reachable cfg d) : P d := by
  induction hd with
  | init ring => exact hinit ring
  | step hd hnow hstep' ih => exact hstep _ _ _ _ hd ih hnow hstep'

end Dispatcher

end Hyperbahn
