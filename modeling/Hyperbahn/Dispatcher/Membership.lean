import Hyperbahn.Dispatcher.Affinity

/-!
# Membership changes and remote-config toggles

When the ring changes, `updateServiceChannels` re-derives every service channel from the ring:
its relays, its mode, and in forward mode its peers, the exits of the service. A channel that
becomes an exit drops its forward peers (`changeToExit`); one that stops being an exit
schedules its workers for pruning and takes the exits as peers (`changeToForward`). Then the
circuit registry drops the services this relay no longer exits for.

The remote-config toggles `enableCircuits`, `disableCircuits` and `setPartialAffinityEnabled`
live here as well: the first two attach the circuit registry to the relay handlers of the
exit-mode channels, or detach it.
-/

namespace Hyperbahn

namespace Dispatcher

variable (cfg : Config)

/-- `changeToExit(serviceChannel)`: exit mode, with no peers. -/
def changeToExit (d : Dispatcher) (serviceName : String) : Dispatcher :=
  d.modifyChannel serviceName fun ch => { ch with serviceProxyMode := some .exit, peers := [] }

/-- `updateServiceNodes(serviceChannel, now)`: rerun `ensurePartialConnections` under partial
affinity. -/
def updateServiceNodes (d : Dispatcher) (serviceName : String) (now : Nat) : Dispatcher :=
  if d.partialAffinityEnabled then (ensurePartialConnections cfg d serviceName now).2 else d

/-- `changeToForward(exitNodes, serviceChannel, now)`: forward mode; every former peer goes
through `ensurePeerDisconnected`, and the exits become the peers. -/
def changeToForward (d : Dispatcher) (exitNames : List String) (serviceName : String)
    (now : Nat) : Dispatcher :=
  let peers := d.channelPeers serviceName
  let d := d.modifyChannel serviceName fun ch =>
    { ch with serviceProxyMode := some .forward, peers := [] }
  let d := peers.foldl (fun d hostPort =>
    d.ensurePeerDisconnected serviceName hostPort "hyperbahn membership change" now) d
  exitNames.foldl (fun d exitName => d._getServicePeer serviceName exitName) d

/-- `updateExitNodes(exitNodes, serviceChannel)`: drop the peers that are no longer exits and
add the new exits. -/
def updateExitNodes (d : Dispatcher) (exitNames : List String) (serviceName : String) :
    Dispatcher :=
  let d := d.modifyChannel serviceName fun ch =>
    { ch with peers := ch.peers.filter (exitNames.contains ·) }
  exitNames.foldl (fun d exitName => d._getServicePeer serviceName exitName) d

/-- `partialRange.compute(relays, null, now)` on the stored range of the service, if any. -/
def setRangeRelays (d : Dispatcher) (serviceName : String) (relays : List String) : Dispatcher :=
  match d.partialRanges.get serviceName with
  | some r => { d with partialRanges := d.partialRanges.set serviceName (r.compute (some relays) none) }
  | none => d

/-- `updateServiceChannel(serviceChannel, now)`: store the sorted exits in `relaysFor`; as an
exit, give a stored range the new relays and change to exit mode or update the connections; as
a forward, drop the stored range and change to forward mode or update the exits. -/
def updateServiceChannel (d : Dispatcher) (serviceName : String) (now : Nat) : Dispatcher :=
  let exitNames := d.egressNodes.exitsFor serviceName
  let d := { d with relaysFor := d.relaysFor.set serviceName (sortStrings exitNames) }
  if cfg.isExitFor d.egressNodes serviceName then
    let d := if d.partialAffinityEnabled then d.setRangeRelays serviceName (sortStrings exitNames)
      else d
    if d.channelMode serviceName = some .forward then d.changeToExit serviceName
    else updateServiceNodes cfg d serviceName now
  else
    let d := if d.partialAffinityEnabled then
        { d with partialRanges := d.partialRanges.delete serviceName } else d
    if d.channelMode serviceName = some .exit then d.changeToForward exitNames serviceName now
    else d.updateExitNodes exitNames serviceName

/-- `updateServiceChannels()`: update every sub channel with a service mode, then let the
circuit registry drop the services this relay no longer exits for. -/
def updateServiceChannels (d : Dispatcher) (now : Nat) : Dispatcher :=
  let d := d.subChannels.keys.foldl (fun d serviceName =>
    if (d.channelMode serviceName).isSome then updateServiceChannel cfg d serviceName now
    else d) d
  { d with circuits := d.circuits.map (·.updateServices (cfg.isExitFor d.egressNodes)) }

/-- Set `handler.circuits` on the relay handler of a channel in exit mode. -/
def attachCircuits (attached : Bool) (ch : SubChannel) : SubChannel :=
  match ch.handler, ch.serviceProxyMode with
  | .relay _, some .exit => { ch with handler := .relay attached }
  | _, _ => ch

/-- `enableCircuits()`: make the registry if needed and attach it to the relay handlers of
the exit-mode channels. -/
def enableCircuits (d : Dispatcher) : Dispatcher :=
  if d.circuitsEnabled then d
  else
    let d := { d with circuitsEnabled := true, circuits := some (d.circuits.getD .empty) }
    d.subChannels.keys.foldl (fun d serviceName =>
      d.modifyChannel serviceName (attachCircuits true)) d

/-- `disableCircuits()`: detach the registry from the relay handlers of the exit-mode
channels. -/
def disableCircuits (d : Dispatcher) : Dispatcher :=
  if !d.circuitsEnabled then d
  else
    let d := { d with circuitsEnabled := false }
    d.subChannels.keys.foldl (fun d serviceName =>
      d.modifyChannel serviceName (attachCircuits false)) d

/-! ## The relay handler

A membership change and the circuit toggles leave the relay handler of a channel alone, except
that the toggles attach or detach the registry on exit-mode channels. -/

/-- `changeToForward` leaves the relay handler of every channel as it was: a registry attached
to an exit channel stays attached once the channel is a forward. -/
theorem channelHandler_changeToForward (d : Dispatcher) (l : List String) (s : String)
    (now : Nat) (s' : String) :
    (d.changeToForward l s now).channelHandler s' = d.channelHandler s' := by
  simp only [changeToForward]
  rw [foldl_keeps (P := fun d' => d'.channelHandler s' = d.channelHandler s') l ?_
    fun d hp _ h => by simp [h]]
  refine foldl_keeps (P := fun d' => d'.channelHandler s' = d.channelHandler s') _
    (channelHandler_modifyChannel (by intro; rfl) d s s') fun d w _ h => ?_
  simpa only [channelHandler, subChannels_ensurePeerDisconnected] using h

/-- `changeToExit` leaves the relay handler of every channel as it was: a channel that becomes
an exit while circuits are enabled gets no registry. -/
theorem channelHandler_changeToExit (d : Dispatcher) (s s' : String) :
    (d.changeToExit s).channelHandler s' = d.channelHandler s' :=
  channelHandler_modifyChannel (by intro; rfl) d s s'

/-- Attaching the registry keeps the mode. -/
@[simp]
theorem serviceProxyMode_attachCircuits (b : Bool) (ch : SubChannel) :
    (attachCircuits b ch).serviceProxyMode = ch.serviceProxyMode := by
  unfold attachCircuits; split <;> rfl

/-- Attaching or detaching the registry touches exit-mode channels only. -/
theorem channelHandler_modifyChannel_attachCircuits {d : Dispatcher} {s : String}
    (hs : d.channelMode s ≠ some .exit) (b : Bool) (s' : String) :
    (d.modifyChannel s' (attachCircuits b)).channelHandler s = d.channelHandler s := by
  unfold modifyChannel channelHandler
  split
  · rename_i ch hch
    simp only [JsMap.get_set]
    split
    · subst s'
      simp only [channelMode, hch, Option.some_bind] at hs
      simp only [hch, Option.map_some', Option.some.injEq]
      unfold attachCircuits
      split
      · exact absurd ‹ch.serviceProxyMode = some .exit› hs
      · rfl
    · rfl
  · rfl

/-- The loops of `enableCircuits` and `disableCircuits` leave the relay handler of a channel
that is not in exit mode as it was. -/
theorem channelHandler_foldl_attachCircuits {d : Dispatcher} {s : String}
    (hs : d.channelMode s ≠ some .exit) (b : Bool) (l : List String) :
    (l.foldl (fun d s' => d.modifyChannel s' (attachCircuits b)) d).channelHandler s =
      d.channelHandler s :=
  (foldl_keeps (P := fun d' => d'.channelMode s = d.channelMode s ∧
      d'.channelHandler s = d.channelHandler s) l ⟨rfl, rfl⟩ fun d' s' _ h =>
    ⟨(channelMode_modifyChannel (serviceProxyMode_attachCircuits b) d' s' s).trans h.1,
      (channelHandler_modifyChannel_attachCircuits (h.1 ▸ hs) b s').trans h.2⟩).2

/-- `enableCircuits` attaches the registry to no channel outside exit mode, and
`disableCircuits` detaches it from none: a forward channel keeps whatever relay handler it
had. -/
theorem circuitToggles_keep_handler_of_non_exit {d : Dispatcher} {s : String}
    (hs : d.channelMode s ≠ some .exit) :
    d.enableCircuits.channelHandler s = d.channelHandler s ∧
      d.disableCircuits.channelHandler s = d.channelHandler s := by
  constructor
  · unfold enableCircuits; split
    · rfl
    · exact channelHandler_foldl_attachCircuits (by exact hs) true _
  · unfold disableCircuits; split
    · rfl
    · exact channelHandler_foldl_attachCircuits (by exact hs) false _

/-- `setPartialAffinityEnabled(enabled)`: set the mode and forget every range and both
connected indices. -/
def setPartialAffinityEnabled (d : Dispatcher) (enabled : Bool) : Dispatcher :=
  { d with
    partialAffinityEnabled := enabled
    partialRanges := ∅
    connectedServicePeers := ∅
    connectedPeerServices := ∅ }

end Dispatcher

end Hyperbahn
