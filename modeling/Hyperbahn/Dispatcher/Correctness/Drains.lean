import Hyperbahn.Dispatcher.Correctness.Channels

/-!
# An advertisement leaves the drain of a connected peer running

`ensurePeerConnected` cancels a drain only on its way to `connectTo`: it returns first when the
peer already has an out-connection. A prune drain closes exactly such a connection, and a reap
drain closes every connection of the peer, so both can be waiting on one when the peer is
advertised again. The advertisement then leaves the drain running, and when it ends it closes
the outbound connection (a prune) or deletes the peer (a reap) that was just advertised.

`KeepsConnectedPeer hp d d'` says a step leaves the root-peer entry of `hp` as it is while `hp`
has an out-connection. Every helper of `refreshServicePeer` keeps it, so for every state an
advertisement leaves the entry of an out-connected peer, its drain included, unchanged
(`refreshServicePeer_keeps_connected_peer`). `refreshServicePeer_keeps_earlier_drain` gives two
reachable runs in which the drain then closes or deletes the re-advertised peer.
-/

namespace Hyperbahn

namespace Dispatcher

variable (cfg : Config)

section Keeps

/-- The step from `d` to `d'` leaves the root-peer entry of `hp` as it is while that peer has an
out-connection. -/
def KeepsConnectedPeer (hp : String) (d d' : Dispatcher) : Prop :=
  ∀ p, d.rootPeers.get hp = some p → p.outConnected = true → d'.rootPeers.get hp = some p

variable {hp : String}

/-- Every state keeps its own connected peer. -/
theorem KeepsConnectedPeer.refl (d : Dispatcher) : KeepsConnectedPeer hp d d := fun _ h _ => h

/-- Two steps that keep a connected peer keep it. -/
theorem KeepsConnectedPeer.trans {d₁ d₂ d₃ : Dispatcher} (h₁ : KeepsConnectedPeer hp d₁ d₂)
    (h₂ : KeepsConnectedPeer hp d₂ d₃) : KeepsConnectedPeer hp d₁ d₃ :=
  fun p h hc => h₂ p (h₁ p h hc) hc

/-- A step that keeps the root-peer table keeps every peer. -/
theorem KeepsConnectedPeer.of_eq {d d' : Dispatcher} (h : d'.rootPeers = d.rootPeers) :
    KeepsConnectedPeer hp d d' :=
  fun _ hg _ => h ▸ hg

/-- A fold of steps that keep a connected peer keeps it. -/
theorem KeepsConnectedPeer.foldl {α : Type} {f : Dispatcher → α → Dispatcher} (l : List α)
    {d₀ d : Dispatcher} (h : KeepsConnectedPeer hp d₀ d)
    (hf : ∀ d a, KeepsConnectedPeer hp d (f d a)) : KeepsConnectedPeer hp d₀ (l.foldl f d) :=
  foldl_keeps (P := KeepsConnectedPeer hp d₀) l h fun d a _ hd => hd.trans (hf d a)

/-- Adding a peer to a channel adds it to the root table only when it is missing there. -/
theorem KeepsConnectedPeer._getServicePeer (d : Dispatcher) (s w : String) :
    KeepsConnectedPeer hp d (d._getServicePeer s w) := by
  unfold Dispatcher._getServicePeer
  split
  · split
    · exact .refl d
    · intro p hg _
      show (if d.rootPeers.contains w then d.rootPeers else d.rootPeers.set w .fresh).get hp = _
      split
      · exact hg
      · rename_i hw
        have hne : hp ≠ w := fun h => hw (h ▸ by simp [JsMap.contains, hg])
        simpa [hne] using hg
  · exact .refl d

/-- `connectTo` is not reached for a peer with an out-connection. -/
theorem KeepsConnectedPeer.ensurePeerConnected (d : Dispatcher) (s w : String) (now : Nat) :
    KeepsConnectedPeer hp d (d.ensurePeerConnected s w now) := by
  unfold Dispatcher.ensurePeerConnected connectPeer modifyPeer
  have h₀ : ((d.connectIfPartial s w now).cancelPrune w).rootPeers = d.rootPeers := by
    unfold connectIfPartial; split <;> rfl
  split
  · intro p hg hc
    rename_i q hq
    rw [h₀] at hq ⊢
    by_cases hw : hp = w
    · subst hw
      rw [hg] at hq
      cases hq
      simp [hc, hg]
    · simpa [hw] using hg
  · exact .of_eq h₀

/-- `ensurePeerDisconnected` keeps the root-peer entry of an out-connected peer. -/
theorem KeepsConnectedPeer.ensurePeerDisconnected (d : Dispatcher) (s w reason : String)
    (now : Nat) : KeepsConnectedPeer hp d (d.ensurePeerDisconnected s w reason now) := by
  refine .of_eq ?_
  simp only [Dispatcher.ensurePeerDisconnected, pruneIfIdle, disconnectIfPartial, deleteConnected]
  split_ifs <;> rfl

/-- `cancelPrune` keeps the root-peer entry of an out-connected peer. -/
theorem KeepsConnectedPeer.cancelPrune (d : Dispatcher) (w : String) :
    KeepsConnectedPeer hp d (d.cancelPrune w) :=
  .of_eq rfl

/-- `markKnown` keeps the root-peer entry of an out-connected peer. -/
theorem KeepsConnectedPeer.markKnown (d : Dispatcher) (s w : String) (now : Nat) :
    KeepsConnectedPeer hp d (d.markKnown s w now) :=
  .of_eq rfl

/-- `setChannel` keeps the root-peer entry of an out-connected peer. -/
theorem KeepsConnectedPeer.setChannel (d : Dispatcher) (s : String) (ch : SubChannel) :
    KeepsConnectedPeer hp d { d with subChannels := d.subChannels.set s ch } :=
  .of_eq rfl

/-- `createServiceChannel` keeps the root-peer entry of an out-connected peer. -/
theorem KeepsConnectedPeer.createServiceChannel (d : Dispatcher) (s : String) :
    KeepsConnectedPeer hp d (createServiceChannel cfg d s) := by
  have h₀ : KeepsConnectedPeer hp d (d.ensureRelays s) :=
    .of_eq (by unfold Dispatcher.ensureRelays; split <;> rfl)
  simp only [Dispatcher.createServiceChannel]
  refine KeepsConnectedPeer.trans ?_ (.of_eq (rootPeers_modifyChannel _ s _))
  split
  · exact h₀.trans (.setChannel _ s _)
  · exact (h₀.trans (.setChannel _ s _)).foldl _ fun d w => ._getServicePeer d s w

/-- `getOrCreateServiceChannel` keeps the root-peer entry of an out-connected peer. -/
theorem KeepsConnectedPeer.getOrCreateServiceChannel (d : Dispatcher) (s : String) :
    KeepsConnectedPeer hp d (getOrCreateServiceChannel cfg d s) := by
  unfold Dispatcher.getOrCreateServiceChannel
  split
  · exact .refl d
  · exact .createServiceChannel cfg d s

/-- `getServicePeer` keeps the root-peer entry of an out-connected peer. -/
theorem KeepsConnectedPeer.getServicePeer (d : Dispatcher) (s w : String) :
    KeepsConnectedPeer hp d (getServicePeer cfg d s w) :=
  (KeepsConnectedPeer.getOrCreateServiceChannel cfg d s).trans (._getServicePeer _ s w)

/-- `ensurePartialRange` keeps the root-peer entry of an out-connected peer. -/
theorem KeepsConnectedPeer.ensurePartialRange (d : Dispatcher) (s : String) :
    KeepsConnectedPeer hp d (ensurePartialRange cfg d s) := by
  unfold Dispatcher.ensurePartialRange
  split
  · exact .refl d
  · exact (KeepsConnectedPeer.getOrCreateServiceChannel cfg d s).trans (.of_eq rfl)

/-- `ensurePartialConnections` keeps the root-peer entry of an out-connected peer. -/
theorem KeepsConnectedPeer.ensurePartialConnections (d : Dispatcher) (s : String) (now : Nat) :
    KeepsConnectedPeer hp d (ensurePartialConnections cfg d s now).2 := by
  have h₀ : KeepsConnectedPeer hp d (Dispatcher.ensurePartialRange cfg d s) :=
    .ensurePartialRange cfg d s
  simp only [Dispatcher.ensurePartialConnections]
  split
  · exact h₀
  · rename_i r _
    have h₁ := h₀.foldl r.affineWorkers fun d w => ._getServicePeer d s w
    split
    · exact h₁
    · refine KeepsConnectedPeer.foldl _ (KeepsConnectedPeer.foldl _ h₁ fun d w => ?_) fun d w => ?_
      · exact (KeepsConnectedPeer._getServicePeer d s w).trans (.ensurePeerConnected _ s w now)
      · exact (KeepsConnectedPeer._getServicePeer d s w).trans (.ensurePeerDisconnected _ s w _ now)

/-- `refreshConnected` keeps the root-peer entry of an out-connected peer. -/
theorem KeepsConnectedPeer.refreshConnected (d : Dispatcher) (b : Bool) (s w : String)
    (now : Nat) : KeepsConnectedPeer hp d
      (if b then (d.addConnected s w now).cancelPrune w else d.deleteConnected s w) :=
  .of_eq (by split <;> rfl)

/-- `ensurePeerConnectedIf` keeps the root-peer entry of an out-connected peer. -/
theorem KeepsConnectedPeer.ensurePeerConnectedIf (d : Dispatcher) (b : Bool) (s w reason : String)
    (now : Nat) : KeepsConnectedPeer hp d (if b then d.ensurePeerConnected s w now
      else d.ensurePeerDisconnected s w reason now) := by
  split
  · exact .ensurePeerConnected d s w now
  · exact .ensurePeerDisconnected d s w reason now

/-- `freshenPartialPeer` keeps the root-peer entry of an out-connected peer. -/
theorem KeepsConnectedPeer.freshenPartialPeer (d : Dispatcher) (s w : String) (now : Nat) :
    KeepsConnectedPeer hp d (freshenPartialPeer cfg d s w now) := by
  simp only [Dispatcher.freshenPartialPeer]
  exact (((KeepsConnectedPeer.refreshConnected d _ s w now).trans (.markKnown _ s w now)).trans
    (.ensurePartialRange cfg _ s)).trans (.ensurePeerConnectedIf _ _ s w _ now)

/-- `refreshServicePeerPartially` keeps the root-peer entry of an out-connected peer. -/
theorem KeepsConnectedPeer.refreshServicePeerPartially (d : Dispatcher) (s w : String)
    (now : Nat) : KeepsConnectedPeer hp d (refreshServicePeerPartially cfg d s w now) := by
  simp only [Dispatcher.refreshServicePeerPartially]
  split
  · exact .freshenPartialPeer cfg d s w now
  · have hr : KeepsConnectedPeer hp d (d.addRangeWorker s w) :=
      .of_eq (by unfold addRangeWorker; split <;> rfl)
    have h₁ := ((hr.trans (._getServicePeer _ s w)).trans (.markKnown _ s w now)).trans
      (.ensurePartialConnections cfg _ s now)
    split
    · rename_i heq
      rw [heq] at h₁
      refine h₁.trans (.of_eq ?_)
      split_ifs <;> rfl
    · rename_i heq
      rw [heq] at h₁
      exact h₁

/-- For every dispatcher state, an advertisement leaves the root-peer entry of a peer with an
out-connection, its drain included, as it is. -/
theorem refreshServicePeer_keeps_connected_peer (d : Dispatcher) (s hp : String) (now : Nat)
    {p : Peer} (hget : d.rootPeers.get hp = some p) (hc : p.outConnected = true) :
    (refreshServicePeer cfg d s hp now).rootPeers.get hp = some p := by
  have h₀ : KeepsConnectedPeer hp d (getOrCreateServiceChannel cfg d s) :=
    .getOrCreateServiceChannel cfg d s
  revert p
  show KeepsConnectedPeer hp d _
  simp only [Dispatcher.refreshServicePeer]
  split
  · exact h₀
  · have h₁ : KeepsConnectedPeer hp d { Dispatcher.getOrCreateServiceChannel cfg d s with
        exitServices := (Dispatcher.getOrCreateServiceChannel cfg d s).exitServices.set s now } :=
      h₀.trans (.of_eq rfl)
    split
    · exact h₁.trans (.refreshServicePeerPartially cfg _ s hp now)
    · exact (((h₁.trans (.cancelPrune _ hp)).trans (.markKnown _ s hp now)).trans
        (.getServicePeer cfg _ s hp)).trans (.ensurePeerConnected _ s hp now)

/-- A reap drain on an out-connected worker survives its next advertisement. -/
theorem refreshServicePeer_keeps_connected_peer_reaping :
    ((refreshServicePeer (Config.sample "r") (init (Ring.single "r")) "s" "w" 1).modifyPeer "w"
        (fun p => { p with draining := some reapDrain })).rootPeers.get "w" =
      some ⟨true, some reapDrain⟩ ∧
    (refreshServicePeer (Config.sample "r")
        ((refreshServicePeer (Config.sample "r") (init (Ring.single "r")) "s" "w" 1).modifyPeer "w"
          fun p => { p with draining := some reapDrain }) "s" "w" 2).rootPeers.get "w" =
      some ⟨true, some reapDrain⟩ :=
  ⟨by decide, refreshServicePeer_keeps_connected_peer _ _ "s" "w" 2 (by decide) rfl⟩

end Keeps

/-! ## Runs that close or delete a re-advertised peer -/

section Runs

/-- A reap drain and a prune drain, each begun on a peer with an out-connection, survive a new
advertisement of the peer on its exit channel; when the reap drain ends it deletes the peer,
and when the prune drain ends it closes the peer's outbound connection. -/
theorem refreshServicePeer_keeps_earlier_drain :
    (∃ d₁ d₂, Reachable (Config.sample "r") d₁ ∧
      step (Config.sample "r") d₁ 4 (.refreshServicePeer "s" "w") = .ok d₂ ∧
      (d₁.peerDraining "w" == some reapDrain && d₂.channelMode "s" == some .exit &&
        d₂.channelHolds "s" "w" && d₂.peerDraining "w" == some reapDrain &&
        !(d₂.drainDone "w").rootPeers.contains "w" && !(d₂.drainDone "w").channelHolds "s" "w") =
        true) ∧
    (∃ d₁ d₂, Reachable (Config.sample "r") d₁ ∧
      step (Config.sample "r") d₁ 7 (.refreshServicePeer "s" "w") = .ok d₂ ∧
      ((d₁.peerDraining "w").any (·.goal == .closeDrained) && d₂.channelMode "s" == some .exit &&
        d₂.channelHolds "s" "w" && d₂.peerDraining "w" == d₁.peerDraining "w" &&
        (d₂.drainDone "w").channelHolds "s" "w" &&
        (d₂.drainDone "w").rootPeers.get "w" == some ⟨false, none⟩) = true) :=
  ⟨exists_step_of_runThenStep _ [(1, .refreshServicePeer "s" "w"), (2, .reapPeers), (3, .reapPeers)]
    (.init (Ring.single "r")) (by decide) (by decide),
  exists_step_of_runThenStep _
    [(1, .refreshServicePeer "s" "w"), (2, .egressNodesChanged (Ring.single "q")),
      (3, .updateServiceChannels), (4, .prunePeers), (5, .egressNodesChanged (Ring.single "r")),
      (6, .updateServiceChannels)]
    (.init (Ring.single "r")) (by decide) (by decide)⟩

end Runs

end Dispatcher

end Hyperbahn
