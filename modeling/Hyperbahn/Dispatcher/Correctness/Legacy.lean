import Hyperbahn.Dispatcher.Correctness.Affinity

/-!
# Legacy mode never fills the connected indices

`connectedServicePeers` and `connectedPeerServices` record the pairs partial affinity keeps
connected. Every write to them outside the partial-affinity paths goes through
`connectIfPartial` or `disconnectIfPartial`, which do nothing in legacy mode, and
`setPartialAffinityEnabled`, the only step that sets the mode, empties both. So in every
reachable state where partial affinity is off both indices are empty (`legacyInv_of_reachable`).

`ensurePeerDisconnected` decides whether to prune a peer from `connectedPeerServices` alone. In
legacy mode, from every reachable state, `changeToForward` therefore schedules every former peer
of the channel for pruning (`changeToForward_prunes_every_peer_of_reachable`), whatever other
exit channel still holds it.
-/

namespace Hyperbahn

namespace Dispatcher

variable (cfg : Config)

/-! ## Only the toggle sets the mode -/

section Flag

/-- A fold of steps that keep the partial-affinity flag keeps it. -/
theorem partialAffinityEnabled_foldl {α : Type} {f : Dispatcher → α → Dispatcher}
    (hf : ∀ d a, (f d a).partialAffinityEnabled = d.partialAffinityEnabled) (l : List α)
    (d : Dispatcher) : (l.foldl f d).partialAffinityEnabled = d.partialAffinityEnabled :=
  foldl_keeps (P := fun d' => d'.partialAffinityEnabled = d.partialAffinityEnabled) l rfl
    fun d a _ h => (hf d a).trans h

/-- `modifyPeer` keeps the partial-affinity flag. -/
@[simp]
theorem partialAffinityEnabled_modifyPeer (d : Dispatcher) (hp : String) (f : Peer → Peer) :
    (d.modifyPeer hp f).partialAffinityEnabled = d.partialAffinityEnabled := by
  unfold modifyPeer; split <;> rfl

/-- `_getServicePeer` keeps the partial-affinity flag. -/
@[simp]
theorem partialAffinityEnabled__getServicePeer (d : Dispatcher) (s hp : String) :
    (d._getServicePeer s hp).partialAffinityEnabled = d.partialAffinityEnabled := by
  unfold _getServicePeer; split
  · split <;> rfl
  · rfl

/-- `ensureRelays` keeps the partial-affinity flag. -/
@[simp]
theorem partialAffinityEnabled_ensureRelays (d : Dispatcher) (s : String) :
    (d.ensureRelays s).partialAffinityEnabled = d.partialAffinityEnabled := by
  unfold ensureRelays; split <;> rfl

/-- `createServiceChannel` keeps the partial-affinity flag. -/
@[simp]
theorem partialAffinityEnabled_createServiceChannel (d : Dispatcher) (s : String) :
    (createServiceChannel cfg d s).partialAffinityEnabled = d.partialAffinityEnabled := by
  simp only [createServiceChannel, partialAffinityEnabled_modifyChannel]
  split
  · exact partialAffinityEnabled_ensureRelays d s
  · rw [partialAffinityEnabled_foldl fun _ _ => partialAffinityEnabled__getServicePeer _ _ _]
    exact partialAffinityEnabled_ensureRelays d s

/-- `getOrCreateServiceChannel` keeps the partial-affinity flag. -/
@[simp]
theorem partialAffinityEnabled_getOrCreateServiceChannel (d : Dispatcher) (s : String) :
    (getOrCreateServiceChannel cfg d s).partialAffinityEnabled = d.partialAffinityEnabled := by
  unfold getOrCreateServiceChannel; split <;> simp

/-- `ensurePeerConnected` keeps the partial-affinity flag. -/
@[simp]
theorem partialAffinityEnabled_ensurePeerConnected (d : Dispatcher) (s hp : String) (now : Nat) :
    (d.ensurePeerConnected s hp now).partialAffinityEnabled = d.partialAffinityEnabled := by
  simp only [ensurePeerConnected, connectPeer, partialAffinityEnabled_modifyPeer, cancelPrune,
    connectIfPartial]
  split <;> rfl

/-- `ensurePartialRange` keeps the partial-affinity flag. -/
@[simp]
theorem partialAffinityEnabled_ensurePartialRange (d : Dispatcher) (s : String) :
    (ensurePartialRange cfg d s).partialAffinityEnabled = d.partialAffinityEnabled := by
  unfold ensurePartialRange; split <;> simp

/-- `ensurePartialConnections` keeps the partial-affinity flag. -/
@[simp]
theorem partialAffinityEnabled_ensurePartialConnections (d : Dispatcher) (s : String)
    (now : Nat) :
    (ensurePartialConnections cfg d s now).2.partialAffinityEnabled = d.partialAffinityEnabled := by
  simp only [ensurePartialConnections]
  split
  · simp
  · split <;> simp [partialAffinityEnabled_foldl]

/-- `freshenPartialPeer` keeps the partial-affinity flag. -/
@[simp]
theorem partialAffinityEnabled_freshenPartialPeer (d : Dispatcher) (s hp : String) (now : Nat) :
    (freshenPartialPeer cfg d s hp now).partialAffinityEnabled = d.partialAffinityEnabled := by
  simp only [freshenPartialPeer, apply_ite partialAffinityEnabled,
    partialAffinityEnabled_ensurePeerConnected, partialAffinityEnabled_ensurePeerDisconnected,
    partialAffinityEnabled_ensurePartialRange, markKnown, addConnected, cancelPrune, deleteConnected,
    ite_self]

/-- `addRangeWorker` keeps the partial-affinity flag. -/
@[simp]
theorem partialAffinityEnabled_addRangeWorker (d : Dispatcher) (s hp : String) :
    (d.addRangeWorker s hp).partialAffinityEnabled = d.partialAffinityEnabled := by
  unfold addRangeWorker; split <;> rfl

/-- `refreshServicePeerPartially` keeps the partial-affinity flag. -/
@[simp]
theorem partialAffinityEnabled_refreshServicePeerPartially (d : Dispatcher) (s hp : String)
    (now : Nat) :
    (refreshServicePeerPartially cfg d s hp now).partialAffinityEnabled =
      d.partialAffinityEnabled := by
  simp only [refreshServicePeerPartially]
  split
  · simp
  · split <;> rename_i heq
    · have h := congrArg (·.2.partialAffinityEnabled) heq
      simp only [partialAffinityEnabled_ensurePartialConnections] at h
      split_ifs <;> simp [addConnected, cancelPrune, deleteConnected, ← h, markKnown]
    · have h := congrArg (·.2.partialAffinityEnabled) heq
      simpa [markKnown] using h.symm

/-- `refreshServicePeer` keeps the partial-affinity flag. -/
@[simp]
theorem partialAffinityEnabled_refreshServicePeer (d : Dispatcher) (s hp : String) (now : Nat) :
    (refreshServicePeer cfg d s hp now).partialAffinityEnabled = d.partialAffinityEnabled := by
  simp only [refreshServicePeer]
  split_ifs <;> simp [markKnown, cancelPrune, getServicePeer]

/-- `recomputeWorkers` keeps the partial-affinity flag. -/
@[simp]
theorem partialAffinityEnabled_recomputeWorkers (d : Dispatcher) (s : String) :
    (d.recomputeWorkers s).partialAffinityEnabled = d.partialAffinityEnabled := by
  unfold recomputeWorkers; split <;> rfl

/-- `unadvertisePartially` keeps the partial-affinity flag. -/
@[simp]
theorem partialAffinityEnabled_unadvertisePartially (d : Dispatcher) (s hp : String) (now : Nat) :
    (unadvertisePartially cfg d s hp now).partialAffinityEnabled = d.partialAffinityEnabled := by
  unfold unadvertisePartially
  split <;> rename_i heq <;> have h := congrArg (·.2.partialAffinityEnabled) heq <;>
    simp only [partialAffinityEnabled_ensurePartialConnections,
      partialAffinityEnabled_recomputeWorkers] at h
  · split <;> simp [deleteConnected, h]
  · exact h.symm

/-- `drainUnadvertised` keeps the partial-affinity flag. -/
theorem partialAffinityEnabled_drainUnadvertised {d d' : Dispatcher} {hp : String}
    (he : drainUnadvertised cfg d hp = .ok d') :
    d'.partialAffinityEnabled = d.partialAffinityEnabled := by
  unfold drainUnadvertised at he
  split at he
  · cases he
  · split at he
    · cases he; rfl
    · split at he <;> cases he <;> simp

/-- `removeServicePeer` keeps the partial-affinity flag. -/
theorem partialAffinityEnabled_removeServicePeer {d d' : Dispatcher} {s hp : String} {now : Nat}
    (he : removeServicePeer cfg d s hp now = .ok d') :
    d'.partialAffinityEnabled = d.partialAffinityEnabled := by
  simp only [removeServicePeer] at he
  split at he
  · cases he; rfl
  · rw [partialAffinityEnabled_drainUnadvertised cfg he]
    split <;> simp

/-- `updateServiceNodes` keeps the partial-affinity flag. -/
@[simp]
theorem partialAffinityEnabled_updateServiceNodes (d : Dispatcher) (s : String) (now : Nat) :
    (updateServiceNodes cfg d s now).partialAffinityEnabled = d.partialAffinityEnabled := by
  unfold updateServiceNodes; split <;> simp

/-- `changeToForward` keeps the partial-affinity flag. -/
@[simp]
theorem partialAffinityEnabled_changeToForward (d : Dispatcher) (l : List String) (s : String)
    (now : Nat) : (d.changeToForward l s now).partialAffinityEnabled = d.partialAffinityEnabled := by
  simp [changeToForward, partialAffinityEnabled_foldl]

/-- `updateExitNodes` keeps the partial-affinity flag. -/
@[simp]
theorem partialAffinityEnabled_updateExitNodes (d : Dispatcher) (l : List String) (s : String) :
    (d.updateExitNodes l s).partialAffinityEnabled = d.partialAffinityEnabled := by
  simp [updateExitNodes, partialAffinityEnabled_foldl]

/-- `setRangeRelays` keeps the partial-affinity flag. -/
@[simp]
theorem partialAffinityEnabled_setRangeRelays (d : Dispatcher) (s : String) (l : List String) :
    (d.setRangeRelays s l).partialAffinityEnabled = d.partialAffinityEnabled := by
  unfold setRangeRelays; split <;> rfl

/-- `updateServiceChannel` keeps the partial-affinity flag. -/
@[simp]
theorem partialAffinityEnabled_updateServiceChannel (d : Dispatcher) (s : String) (now : Nat) :
    (updateServiceChannel cfg d s now).partialAffinityEnabled = d.partialAffinityEnabled := by
  simp only [updateServiceChannel, apply_ite partialAffinityEnabled, changeToExit,
    partialAffinityEnabled_modifyChannel, partialAffinityEnabled_updateServiceNodes,
    partialAffinityEnabled_setRangeRelays, partialAffinityEnabled_changeToForward,
    partialAffinityEnabled_updateExitNodes, ite_self]

/-- `updateServiceChannels` keeps the partial-affinity flag. -/
@[simp]
theorem partialAffinityEnabled_updateServiceChannels (d : Dispatcher) (now : Nat) :
    (updateServiceChannels cfg d now).partialAffinityEnabled = d.partialAffinityEnabled :=
  partialAffinityEnabled_foldl (fun d s => by split <;> simp) _ d

/-- `enableCircuits` keeps the partial-affinity flag. -/
@[simp]
theorem partialAffinityEnabled_enableCircuits (d : Dispatcher) :
    d.enableCircuits.partialAffinityEnabled = d.partialAffinityEnabled := by
  unfold enableCircuits; split
  · rfl
  · exact partialAffinityEnabled_foldl (fun _ _ => partialAffinityEnabled_modifyChannel _ _ _) _ _

/-- `disableCircuits` keeps the partial-affinity flag. -/
@[simp]
theorem partialAffinityEnabled_disableCircuits (d : Dispatcher) :
    d.disableCircuits.partialAffinityEnabled = d.partialAffinityEnabled := by
  unfold disableCircuits; split
  · rfl
  · exact partialAffinityEnabled_foldl (fun _ _ => partialAffinityEnabled_modifyChannel _ _ _) _ _

/-- `prunePeers` keeps the partial-affinity flag. -/
@[simp]
theorem partialAffinityEnabled_prunePeers (d : Dispatcher) :
    d.prunePeers.partialAffinityEnabled = d.partialAffinityEnabled :=
  partialAffinityEnabled_foldl (fun d hp => by
    split
    · unfold pruneSinglePeer; split
      · split <;> simp
      · rfl
    · rfl) _ _

/-- `reapSinglePeer` keeps the partial-affinity flag. -/
theorem partialAffinityEnabled_reapSinglePeer {d d' : Dispatcher} {hp : String}
    {serviceNames : JsMap Nat} (he : d.reapSinglePeer hp serviceNames = .ok d') :
    d'.partialAffinityEnabled = d.partialAffinityEnabled := by
  rcases reapSinglePeer_cases he with rfl | ⟨_, hloop, rfl⟩
  · rfl
  · rw [partialAffinityEnabled_modifyPeer]
    refine foldlM_keeps (P := fun d' => d'.partialAffinityEnabled = d.partialAffinityEnabled)
      _ (partialAffinityEnabled_modifyPeer _ _ _) (fun d₁ d₂ s h he => ?_) hloop
    simp only [reapService] at he
    split at he <;> cases he
    simpa [deletePeerIndex, forgetKnown, disconnectIfPartial, apply_ite, deleteConnected] using h

/-- `reapPeers` keeps the partial-affinity flag. -/
theorem partialAffinityEnabled_reapPeers {d d' : Dispatcher} (he : d.reapPeers = .ok d') :
    d'.partialAffinityEnabled = d.partialAffinityEnabled := by
  simp only [reapPeers] at he
  refine foldlM_keeps (P := fun d' => d'.partialAffinityEnabled = d.partialAffinityEnabled) _ ?_
    (fun d₁ d₂ hp h he => ?_) he
  · rfl
  · split at he
    · exact (partialAffinityEnabled_reapSinglePeer he).trans h
    · cases he; exact h

/-- `purgeServices` keeps the partial-affinity flag. -/
@[simp]
theorem partialAffinityEnabled_purgeServices (d : Dispatcher) (now : Nat) :
    (d.purgeServices now).partialAffinityEnabled = d.partialAffinityEnabled :=
  partialAffinityEnabled_foldl (fun d s => by
    split
    · simp only [maybePurgeEachService]; split_ifs <;> rfl
    · rfl) _ _

/-- `drainDone` keeps the partial-affinity flag. -/
@[simp]
theorem partialAffinityEnabled_drainDone (d : Dispatcher) (hp : String) :
    (d.drainDone hp).partialAffinityEnabled = d.partialAffinityEnabled := by
  unfold drainDone; split
  · split
    · rfl
    · exact partialAffinityEnabled_modifyPeer _ _ _
  · rfl

/-- `rateLimit` keeps the partial-affinity flag. -/
@[simp]
theorem partialAffinityEnabled_rateLimit (d : Dispatcher) (cn : Option String) (s : String)
    (now : Nat) :
    (rateLimit cfg d cn s now).2.partialAffinityEnabled = d.partialAffinityEnabled :=
  rateLimit_frame cfg partialAffinityEnabled (fun _ _ _ => rfl) d cn s now

/-- `rateLimitAndDispatch` keeps the partial-affinity flag. -/
@[simp]
theorem partialAffinityEnabled_rateLimitAndDispatch (d : Dispatcher) (cn rd : Option String)
    (s s' : String) (popped : Bool) (now : Nat) :
    (rateLimitAndDispatch cfg d cn rd s s' popped now).2.partialAffinityEnabled =
      d.partialAffinityEnabled := by
  simp only [rateLimitAndDispatch]
  split <;> split <;> simp_all

/-- `handleRequest` keeps the partial-affinity flag. -/
@[simp]
theorem partialAffinityEnabled_handleRequest (d : Dispatcher) (req : CallRequest) (now : Nat) :
    (handleRequest cfg d req now).2.partialAffinityEnabled = d.partialAffinityEnabled := by
  simp only [handleRequest]; split_ifs <;> simp

/-- `handleLazily` keeps the partial-affinity flag. -/
@[simp]
theorem partialAffinityEnabled_handleLazily (d : Dispatcher) (frame : LazyFrame) (now : Nat) :
    (handleLazily cfg d frame now).2.partialAffinityEnabled = d.partialAffinityEnabled := by
  simp only [handleLazily]
  repeat' split
  all_goals simp

/-- Every step but `setPartialAffinityEnabled` keeps the mode. -/
theorem partialAffinityEnabled_step {d d' : Dispatcher} {now : Nat} {e : Event}
    (he : step cfg d now e = .ok d') (hne : ∀ b, e ≠ .setPartialAffinityEnabled b) :
    d'.partialAffinityEnabled = d.partialAffinityEnabled := by
  cases e <;> simp only [step] at he
  case removeServicePeer => exact partialAffinityEnabled_removeServicePeer cfg he
  case reapPeers => exact partialAffinityEnabled_reapPeers he
  case setPartialAffinityEnabled b => exact absurd rfl (hne b)
  case block => unfold block at he; split at he <;> cases he; rfl
  case blockRemoteConfig => unfold blockRemoteConfig at he; split at he <;> cases he; rfl
  case peerConnected => cases he; split <;> rfl
  case unblock => cases he; unfold unblock; split <;> rfl
  all_goals cases he; first | rfl | simp

end Flag

/-! ## Legacy mode keeps the connected indices -/

/-- The two connected indices. -/
def connected (d : Dispatcher) : JsMap (JsMap Nat) × JsMap (JsMap Nat) :=
  (d.connectedServicePeers, d.connectedPeerServices)

/-- A step that keeps the three tables keeps the connected indices. -/
theorem connected_of_indices_eq {d d' : Dispatcher} (h : d'.indices = d.indices) :
    d'.connected = d.connected := by
  simp only [indices, Prod.mk.injEq] at h
  simp [connected, h.1, h.2.1]

section Connected

variable {d : Dispatcher} (hl : d.partialAffinityEnabled = false)
include hl

/-- In legacy mode `ensurePeerConnected` keeps the connected indices. -/
theorem connected_ensurePeerConnected (s hp : String) (now : Nat) :
    (d.ensurePeerConnected s hp now).connected = d.connected := by
  simp only [ensurePeerConnected, connectIfPartial, hl, Bool.false_eq_true, ↓reduceIte]
  exact connected_of_indices_eq (d := d.cancelPrune hp) (indices_connectPeer _ _)

/-- In legacy mode `ensurePeerDisconnected` keeps the connected indices. -/
theorem connected_ensurePeerDisconnected (s hp reason : String) (now : Nat) :
    (d.ensurePeerDisconnected s hp reason now).connected = d.connected := by
  simp only [ensurePeerDisconnected, disconnectIfPartial, hl, Bool.false_eq_true, ↓reduceIte,
    pruneIfIdle]
  split <;> rfl

/-- In legacy mode `refreshServicePeer` keeps the connected indices. -/
theorem connected_refreshServicePeer (s hp : String) (now : Nat) :
    (refreshServicePeer cfg d s hp now).connected = d.connected := by
  have h₀ := connected_of_indices_eq (indices_getOrCreateServiceChannel cfg d s)
  simp only [refreshServicePeer]
  split_ifs with _ hp'
  · exact h₀
  · simp [hl] at hp'
  · rw [connected_ensurePeerConnected (by simpa [getServicePeer, markKnown, cancelPrune] using hl),
      connected_of_indices_eq (indices_getServicePeer cfg _ s hp)]
    exact h₀

/-- In legacy mode `removeServicePeer` keeps the connected indices. -/
theorem connected_removeServicePeer {d' : Dispatcher} {s hp : String} {now : Nat}
    (he : removeServicePeer cfg d s hp now = .ok d') : d'.connected = d.connected := by
  simp only [removeServicePeer] at he
  split at he
  · cases he; rfl
  · rw [connected_of_indices_eq (indices_drainUnadvertised cfg he)]
    simp only [partialAffinityEnabled_modifyChannel, hl, Bool.false_eq_true, ↓reduceIte]
    exact connected_of_indices_eq (indices_modifyChannel _ _ _)

/-- In legacy mode `changeToForward` keeps the connected indices. -/
theorem connected_changeToForward (l : List String) (s : String) (now : Nat) :
    (d.changeToForward l s now).connected = d.connected := by
  simp only [changeToForward]
  rw [connected_of_indices_eq (indices_foldl__getServicePeer _ s l)]
  refine (foldl_keeps (P := fun d' => d'.partialAffinityEnabled = false ∧ d'.connected = d.connected)
    _ ⟨by simpa using hl, connected_of_indices_eq (indices_modifyChannel _ _ _)⟩
    fun d' w _ h => ⟨by simpa using h.1, (connected_ensurePeerDisconnected h.1 s w _ now).trans h.2⟩).2

/-- In legacy mode `updateServiceChannel` keeps the connected indices. -/
theorem connected_updateServiceChannel (s : String) (now : Nat) :
    (updateServiceChannel cfg d s now).connected = d.connected := by
  simp only [updateServiceChannel, hl, Bool.false_eq_true, ↓reduceIte]
  split_ifs
  · exact connected_of_indices_eq (indices_changeToExit _ s)
  · simp [updateServiceNodes, hl]; rfl
  · exact connected_changeToForward (by rfl) _ s now
  · exact connected_of_indices_eq (indices_updateExitNodes _ _ s)

/-- In legacy mode `updateServiceChannels` keeps the connected indices. -/
theorem connected_updateServiceChannels (now : Nat) :
    (updateServiceChannels cfg d now).connected = d.connected :=
  (foldl_keeps (P := fun d' => d'.partialAffinityEnabled = false ∧ d'.connected = d.connected) _
    ⟨hl, rfl⟩ fun d' s _ h => by
      split
      · exact ⟨by simpa using h.1, (connected_updateServiceChannel cfg h.1 s now).trans h.2⟩
      · exact h).2

/-- In legacy mode `reapSinglePeer` keeps the connected indices. -/
theorem connected_reapSinglePeer {d' : Dispatcher} {hp : String} {serviceNames : JsMap Nat}
    (he : d.reapSinglePeer hp serviceNames = .ok d') : d'.connected = d.connected := by
  rcases reapSinglePeer_cases he with rfl | ⟨_, hloop, rfl⟩
  · rfl
  · rw [connected_of_indices_eq (indices_modifyPeer _ _ _)]
    refine (foldlM_keeps (P := fun d' => d'.partialAffinityEnabled = false ∧
      d'.connected = d.connected) _ ⟨by simpa using hl, connected_of_indices_eq
        (indices_modifyPeer _ _ _)⟩ (fun d₁ d₂ s h he => ?_) hloop).2
    simp only [reapService] at he
    split at he <;> cases he
    simp only [deletePeerIndex, disconnectIfPartial, partialAffinityEnabled_modifyChannel,
      h.1, Bool.false_eq_true, ↓reduceIte]
    exact ⟨by simp [forgetKnown, h.1],
      (connected_of_indices_eq (indices_modifyChannel _ _ _)).trans h.2⟩

/-- In legacy mode `reapPeers` keeps the connected indices. -/
theorem connected_reapPeers {d' : Dispatcher} (he : d.reapPeers = .ok d') :
    d'.connected = d.connected := by
  simp only [reapPeers] at he
  refine (foldlM_keeps (P := fun d' => d'.partialAffinityEnabled = false ∧
    d'.connected = d.connected) _ ?_ (fun d₁ d₂ hp h he => ?_) he).2
  · exact ⟨hl, rfl⟩
  · split at he
    · exact ⟨(partialAffinityEnabled_reapSinglePeer he).trans h.1,
        (connected_reapSinglePeer h.1 he).trans h.2⟩
    · cases he; exact h

/-- In legacy mode every step but the toggle keeps the connected indices. -/
theorem connected_step {d' : Dispatcher} {now : Nat} {e : Event}
    (he : step cfg d now e = .ok d') (hne : ∀ b, e ≠ .setPartialAffinityEnabled b) :
    d'.connected = d.connected := by
  cases e <;> simp only [step] at he
  case refreshServicePeer s hp => cases he; exact connected_refreshServicePeer cfg hl s hp now
  case removeServicePeer => exact connected_removeServicePeer cfg hl he
  case updateServiceChannels => cases he; exact connected_updateServiceChannels cfg hl now
  case prunePeers =>
    cases he
    exact connected_of_indices_eq (d := { d with peersToPrune := ∅ })
      (foldl_indices _ _ fun _ _ => by split <;> simp)
  case reapPeers => exact connected_reapPeers hl he
  case setPartialAffinityEnabled b => exact absurd rfl (hne b)
  case block => exact connected_of_indices_eq (indices_block he)
  case blockRemoteConfig => exact connected_of_indices_eq (indices_blockRemoteConfig he)
  case purgeServices => cases he; exact connected_of_indices_eq (indices_purgeServices d now)
  case drainDone hp => cases he; exact connected_of_indices_eq (indices_drainDone d hp)
  case peerConnected => cases he; split <;> rfl
  case connectionLost hp => cases he; exact connected_of_indices_eq (indices_modifyPeer d hp _)
  case enableCircuits => cases he; exact connected_of_indices_eq (indices_enableCircuits d)
  case disableCircuits => cases he; exact connected_of_indices_eq (indices_disableCircuits d)
  case handleRequest req => cases he; exact connected_of_indices_eq (indices_handleRequest cfg d req now)
  case handleLazily frame => cases he; exact connected_of_indices_eq (indices_handleLazily cfg d frame now)
  case unblock cn s => cases he; exact connected_of_indices_eq (indices_unblock d cn s)
  all_goals cases he; rfl

end Connected

/-! ## Every reachable legacy state -/

/-- In legacy mode both connected indices are empty. -/
def LegacyInv (d : Dispatcher) : Prop :=
  d.partialAffinityEnabled = false → d.connectedServicePeers = ∅ ∧ d.connectedPeerServices = ∅

/-- Every step keeps the invariant: the toggle empties the indices, and every other step keeps
the mode, and in legacy mode the indices. -/
theorem LegacyInv.step {d d' : Dispatcher} (h : LegacyInv d) {now : Nat} {e : Event}
    (he : step cfg d now e = .ok d') : LegacyInv d' := by
  by_cases ht : ∃ b, e = .setPartialAffinityEnabled b
  · obtain ⟨b, rfl⟩ := ht
    cases he
    exact fun _ => ⟨rfl, rfl⟩
  · have hne : ∀ b, e ≠ .setPartialAffinityEnabled b := fun b hb => ht ⟨b, hb⟩
    intro hl'
    have hl : d.partialAffinityEnabled = false :=
      (partialAffinityEnabled_step cfg he hne).symm.trans hl'
    have hc := connected_step cfg hl he hne
    simp only [connected, Prod.mk.injEq] at hc
    rw [hc.1, hc.2]
    exact h hl

/-- Every reachable state satisfies the legacy invariant. -/
theorem legacyInv_of_reachable {d : Dispatcher} (hd : Reachable cfg d) : LegacyInv d :=
  Reachable.induct_inv cfg (fun _ _ => ⟨rfl, rfl⟩) (fun _ _ _ _ _ h _ he => h.step cfg he) hd

/-- In every reachable state with partial affinity off, both connected indices are empty. -/
theorem connectedIndices_empty_of_legacy {d : Dispatcher} (hd : Reachable cfg d)
    (hl : d.partialAffinityEnabled = false) :
    d.connectedServicePeers = ∅ ∧ d.connectedPeerServices = ∅ :=
  legacyInv_of_reachable cfg hd hl

/-- After one advertisement in legacy mode both indices are still empty. -/
theorem connectedIndices_empty_of_legacy_advertised :
    (refreshServicePeer (Config.sample "r") (init (Ring.single "r")) "s" "w" 1).connectedServicePeers =
        ∅ ∧
      (refreshServicePeer (Config.sample "r") (init (Ring.single "r")) "s" "w"
        1).connectedPeerServices = ∅ :=
  connectedIndices_empty_of_legacy (Config.sample "r")
    (@Reachable.step _ _ _ 1 (.refreshServicePeer "s" "w") (.init (Ring.single "r")) (by decide) rfl)
    (by rfl)

/-- In every reachable legacy-mode state, `changeToForward` schedules every former peer of the
channel for pruning. -/
theorem changeToForward_prunes_every_peer_of_reachable {d : Dispatcher} (hd : Reachable cfg d)
    (hl : d.partialAffinityEnabled = false) {hp s : String} (hin : hp ∈ d.channelPeers s)
    (l : List String) (now : Nat) : (d.changeToForward l s now).peersToPrune.contains hp :=
  changeToForward_schedules_prune hl (by rw [(legacyInv_of_reachable cfg hd hl).2]; rfl) l s now hin

/-- After one advertisement in legacy mode, moving the service to `q` schedules its worker for pruning. -/
theorem changeToForward_prunes_every_peer_of_reachable_advertised :
    ((refreshServicePeer (Config.sample "r") (init (Ring.single "r")) "s" "w" 1).changeToForward
      ["q"] "s" 2).peersToPrune.contains "w" :=
  changeToForward_prunes_every_peer_of_reachable (Config.sample "r")
    (@Reachable.step _ _ _ 1 (.refreshServicePeer "s" "w") (.init (Ring.single "r")) (by decide) rfl)
    (by rfl) (by decide) _ 2

end Dispatcher

end Hyperbahn
