import Hyperbahn.Dispatcher.Correctness.Channels

/-!
# What a membership change does to the channels it flips

When the ring stops naming this relay an exit of a service, `changeToForward` switches the
service channel to forward mode and sends every former peer through `ensurePeerDisconnected`;
when the ring names it an exit again, `changeToExit` switches it back. Neither touches the relay
handler of the channel (`channelHandler_changeToForward`, `channelHandler_changeToExit`), so a
run that enables circuits, makes an exit channel and then moves the service to another relay
leaves the circuit registry attached to a forward channel
(`updateServiceChannels_keeps_circuits_on_forward_channel`). And `ensurePeerDisconnected`
decides whether to prune a peer from `connectedPeerServices` only, an index that legacy mode
never fills: in legacy mode every former peer is scheduled for pruning, whatever other exit
channel still holds it (`changeToForward_schedules_prune`).

The circuit registry is keyed by `'$' + serviceName`, and the loop of `updateServices` asks
the ring about those keys (`Circuits.get_updateServices`): with a ring that answers differently
for `s` and `$s`, a membership change drops the circuits of a service this relay still exits
for, or keeps those of one it left (`updateServiceChannels_keeps_circuits_by_prefixed_key`).
-/

namespace Hyperbahn

namespace Dispatcher

/-! ## The relay handler stays -/

section Handler

/-- A run that enables circuits, makes an exit channel for `s` and then moves `s` to another
relay ends with the registry attached to the forward channel of `s`. -/
theorem updateServiceChannels_keeps_circuits_on_forward_channel :
    ∃ d₁ d₂, Reachable (Config.sample "r") d₁ ∧
      step (Config.sample "r") d₁ 4 .updateServiceChannels = .ok d₂ ∧
      (d₂.circuitsEnabled && d₂.channelMode "s" == some .forward &&
        d₂.channelHandler "s" == some (.relay true)) = true :=
  exists_step_of_runThenStep _
    [(1, .enableCircuits), (2, .refreshServicePeer "s" "w"), (3, .egressNodesChanged ⟨fun _ => ["q"]⟩)]
    (.init (Ring.single "r")) (by decide) (by decide)

end Handler

/-! ## The circuits a membership change keeps -/

section Circuits

/-- The circuit subtree of a service, under its `'$'`-prefixed key, if the registry exists. -/
def circuitSubtree (d : Dispatcher) (serviceName : String) : Option (JsMap (JsMap Circuit)) :=
  d.circuits.bind (·.circuitsByServiceName.get ("$" ++ serviceName))

/-- With a ring that answers differently for `s` and for `$s`, the reconciliation after a
membership change drops the circuits of a service this relay still exits for, and keeps those
of a service it no longer exits for. -/
theorem updateServiceChannels_keeps_circuits_by_prefixed_key :
    (∃ d₁ d₂, Reachable (Config.sample "r") d₁ ∧
      step (Config.sample "r") d₁ 5 .updateServiceChannels = .ok d₂ ∧
      ((Config.sample "r").isExitFor d₂.egressNodes "s" && (d₁.circuitSubtree "s").isSome &&
        (d₂.circuitSubtree "s").isNone) = true) ∧
    (∃ d₁ d₂, Reachable (Config.sample "r") d₁ ∧
      step (Config.sample "r") d₁ 5 .updateServiceChannels = .ok d₂ ∧
      (!(Config.sample "r").isExitFor d₂.egressNodes "s" && (d₂.circuitSubtree "s").isSome) =
        true) :=
  ⟨exists_step_of_runThenStep _
    [(1, .enableCircuits), (2, .refreshServicePeer "s" "w"), (3, .getCircuit "c" "s" "e"),
      (4, .egressNodesChanged ⟨fun n => if n = "$s" then ["q"] else ["r"]⟩)]
    (.init (Ring.single "r")) (by decide) (by decide),
  exists_step_of_runThenStep _
    [(1, .enableCircuits), (2, .refreshServicePeer "s" "w"), (3, .getCircuit "c" "s" "e"),
      (4, .egressNodesChanged ⟨fun n => if n = "$s" then ["r"] else ["q"]⟩)]
    (.init (Ring.single "r")) (by decide) (by decide)⟩

end Circuits

/-! ## Legacy mode prunes every former peer -/

section Prune

/-- `ensurePeerDisconnected` keeps the mode. -/
@[simp]
theorem partialAffinityEnabled_ensurePeerDisconnected (d : Dispatcher) (s hp reason : String)
    (now : Nat) :
    (d.ensurePeerDisconnected s hp reason now).partialAffinityEnabled = d.partialAffinityEnabled := by
  simp only [ensurePeerDisconnected, pruneIfIdle, disconnectIfPartial]
  split_ifs <;> rfl

/-- In legacy mode `ensurePeerDisconnected` leaves `connectedPeerServices` alone. -/
theorem connectedPeerServices_ensurePeerDisconnected {d : Dispatcher}
    (hlegacy : d.partialAffinityEnabled = false) (s hp reason : String) (now : Nat) :
    (d.ensurePeerDisconnected s hp reason now).connectedPeerServices = d.connectedPeerServices := by
  simp only [ensurePeerDisconnected, pruneIfIdle, disconnectIfPartial, hlegacy,
    Bool.false_eq_true, ↓reduceIte]
  split_ifs <;> rfl

/-- `ensurePeerDisconnected` keeps every scheduled prune, and in legacy mode schedules one for a
peer with no connected service. -/
theorem peersToPrune_ensurePeerDisconnected {d : Dispatcher}
    (hlegacy : d.partialAffinityEnabled = false) {hp' : String} (s hp reason : String) (now : Nat)
    (h : (hp' = hp ∧ (d.connectedPeerServices.get hp).all (·.isEmpty)) ∨
      d.peersToPrune.contains hp') :
    (d.ensurePeerDisconnected s hp reason now).peersToPrune.contains hp' := by
  simp only [ensurePeerDisconnected, pruneIfIdle, disconnectIfPartial, hlegacy, Bool.false_eq_true,
    ↓reduceIte]
  split
  · rcases h with ⟨rfl, -⟩ | h
    · exact JsMap.contains_set_self _ _ _
    · exact JsMap.contains_set_of_contains _ _ h
  · rcases h with ⟨rfl, hc⟩ | h
    · simp_all
    · exact h

/-- In legacy mode, a run of `ensurePeerDisconnected` over a list of peers schedules every one
of them with no connected service for pruning. -/
theorem peersToPrune_foldl_ensurePeerDisconnected {d : Dispatcher}
    (hlegacy : d.partialAffinityEnabled = false) {hp : String}
    (hc : (d.connectedPeerServices.get hp).all (·.isEmpty)) (s reason : String) (now : Nat)
    (l : List String)
    (hin : hp ∈ l ∨ d.peersToPrune.contains hp) :
    (l.foldl (fun d w => d.ensurePeerDisconnected s w reason now) d).peersToPrune.contains hp := by
  induction l generalizing d with
  | nil => exact hin.resolve_left (List.not_mem_nil hp)
  | cons a l ih =>
    refine ih (by simpa using hlegacy)
      (by rw [connectedPeerServices_ensurePeerDisconnected hlegacy]; exact hc) ?_
    by_cases ha : hp = a
    · exact .inr (peersToPrune_ensurePeerDisconnected hlegacy s a reason now (.inl ⟨ha, ha ▸ hc⟩))
    · rcases hin with h | h
      · exact .inl ((List.mem_cons.mp h).resolve_left ha)
      · exact .inr (peersToPrune_ensurePeerDisconnected hlegacy s a reason now (.inr h))

/-- In legacy mode, `changeToForward` schedules every former peer of the channel with no
connected service for pruning. -/
theorem changeToForward_schedules_prune {d : Dispatcher} (hlegacy : d.partialAffinityEnabled = false)
    {hp : String} (hc : (d.connectedPeerServices.get hp).all (·.isEmpty)) (l : List String)
    (s : String) (now : Nat) (hin : hp ∈ d.channelPeers s) :
    (d.changeToForward l s now).peersToPrune.contains hp := by
  have hind := indices_modifyChannel d s
    fun ch => { ch with serviceProxyMode := some .forward, peers := [] }
  simp only [indices, Prod.mk.injEq] at hind
  simp only [changeToForward]
  rw [show ∀ d', (l.foldl (fun d exitName => d._getServicePeer s exitName) d').peersToPrune =
      d'.peersToPrune from fun d' => congrArg (·.2.2) (indices_foldl__getServicePeer d' s l)]
  exact peersToPrune_foldl_ensurePeerDisconnected (by simpa using hlegacy) (hind.2.1 ▸ hc) _ _ now
    _ (.inl hin)

/-- In legacy mode, a run that advertises `w` for `s1` and `s2` and then moves `s1` to
another relay schedules `w` for pruning while the exit channel of `s2` still holds it. -/
theorem updateServiceChannels_prunes_peer_of_exit_channel :
    ∃ d₁ d₂, Reachable (Config.sample "r") d₁ ∧
      step (Config.sample "r") d₁ 4 .updateServiceChannels = .ok d₂ ∧
      (!d₂.partialAffinityEnabled && d₂.peersToPrune.contains "w" &&
        d₂.channelMode "s2" == some .exit && d₂.channelHolds "s2" "w") = true :=
  exists_step_of_runThenStep _
    [(1, .refreshServicePeer "s1" "w"), (2, .refreshServicePeer "s2" "w"),
      (3, .egressNodesChanged ⟨fun s => if s = "s1" then ["q"] else ["r"]⟩)]
    (.init (Ring.single "r")) (by decide) (by decide)

end Prune

end Dispatcher

end Hyperbahn
