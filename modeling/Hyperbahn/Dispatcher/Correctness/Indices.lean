import Hyperbahn.Dispatcher.Step

/-!
# The connected indices stay transposes of each other

`connectedServicePeers` and `connectedPeerServices` record the same pairs from both sides:
`connectedServicePeers[s][hp] = t` exactly when `connectedPeerServices[hp][s] = t`. Every
operation that touches them goes through `addIndexEntry` and `deleteIndexEntry` on both at
once, with the same keys and the same time, and a peer is scheduled for pruning only when
`connectedPeerServices` lists no service for it, while every path that records a service for a
peer also cancels its prune.

`IndexInv` states these facts of the three tables, together with the two that make
`deleteIndexEntry` act on both sides alike: the recorded times are positive (a time of `0`
would be falsy, and its entry would survive a delete) and no level is an empty object. The
main result, `connectedIndices_transpose`, is that `IndexInv` holds in every reachable state.
-/

namespace Hyperbahn

namespace Dispatcher

/-- The invariant of the connected indices and the prune table. -/
structure IndexInv (d : Dispatcher) : Prop where
  /-- Both indices record the same pairs, with the same time. -/
  transpose : ∀ s hp,
    indexGet d.connectedServicePeers s hp = indexGet d.connectedPeerServices hp s
  /-- Every recorded time is positive. -/
  positive : ∀ s hp t, indexGet d.connectedServicePeers s hp = some t → 0 < t
  /-- No service level is empty. -/
  servicesNonempty : LevelsNonempty d.connectedServicePeers
  /-- No peer level is empty. -/
  peersNonempty : LevelsNonempty d.connectedPeerServices
  /-- A peer pending prune has no connected service. -/
  pruned : ∀ hp, d.peersToPrune.contains hp → d.connectedPeerServices.get hp = none

/-- The three tables `IndexInv` reads. -/
def indices (d : Dispatcher) : JsMap (JsMap Nat) × JsMap (JsMap Nat) × JsMap PruneInfo :=
  (d.connectedServicePeers, d.connectedPeerServices, d.peersToPrune)

/-- `IndexInv` depends on the three tables only. -/
theorem IndexInv.of_indices_eq {d d' : Dispatcher} (h : IndexInv d)
    (he : d'.indices = d.indices) : IndexInv d' := by
  simp only [indices, Prod.mk.injEq] at he
  obtain ⟨h1, h2, h3⟩ := he
  exact ⟨by rw [h1, h2]; exact h.transpose, by rw [h1]; exact h.positive,
    by rw [h1]; exact h.servicesNonempty, by rw [h2]; exact h.peersNonempty,
    by rw [h2, h3]; exact h.pruned⟩

/-- A fold of steps that may throw keeps a property that every successful step keeps. -/
theorem foldlM_keeps {α : Type} {P : Dispatcher → Prop}
    {f : Dispatcher → α → Except String Dispatcher} (l : List α) {d d' : Dispatcher}
    (hd : P d) (hf : ∀ d d' a, P d → f d a = .ok d' → P d')
    (h : l.foldlM f d = .ok d') : P d' := by
  induction l generalizing d with
  | nil => cases h; exact hd
  | cons a l ih =>
    simp only [List.foldlM_cons, bind, Except.bind] at h
    split at h
    · cases h
    · exact ih (hf _ _ _ hd ‹_›) h

/-- A fold of steps that leave the three tables alone leaves them alone. -/
theorem foldl_indices {α : Type} {f : Dispatcher → α → Dispatcher} (l : List α) (d : Dispatcher)
    (hf : ∀ d a, (f d a).indices = d.indices) : (l.foldl f d).indices = d.indices :=
  foldl_keeps (P := fun d' => d'.indices = d.indices) l rfl fun d a _ hd => (hf d a).trans hd

/-! ## The primitive updates -/

section Primitives

variable {d : Dispatcher} (h : IndexInv d)
include h

/-- Dropping a pair from both indices keeps the invariant. -/
theorem IndexInv.deleteConnected (s hp : String) : IndexInv (d.deleteConnected s hp) where
  transpose s' hp' := by
    simp only [Dispatcher.deleteConnected, indexGet_deleteIndexEntry, h.transpose s hp]
    by_cases hs : s' = s <;> by_cases hh : hp' = hp <;> simp [hs, hh, h.transpose]
  positive s' hp' t ht := by
    simp only [Dispatcher.deleteConnected, indexGet_deleteIndexEntry] at ht
    split at ht
    · cases ht
    · exact h.positive s' hp' t ht
  servicesNonempty := levelsNonempty_deleteIndexEntry h.servicesNonempty _ _
  peersNonempty := levelsNonempty_deleteIndexEntry h.peersNonempty _ _
  pruned hp' hc := get_deleteIndexEntry_of_eq_none _ _ (h.pruned hp' hc)

/-- Cancelling a prune keeps the invariant. -/
theorem IndexInv.cancelPrune (hp : String) : IndexInv (d.cancelPrune hp) :=
  { h with
    pruned := fun hp' hc => h.pruned hp' (by
      simp only [Dispatcher.cancelPrune, JsMap.contains, JsMap.get_delete] at hc ⊢
      split at hc
      · cases hc
      · exact hc) }

/-- Recording a pair at a positive time and cancelling the peer's prune keeps the invariant. -/
theorem IndexInv.addConnected_cancelPrune (s hp : String) {now : Nat} (hnow : 0 < now) :
    IndexInv ((d.addConnected s hp now).cancelPrune hp) where
  transpose s' hp' := by
    simp only [Dispatcher.cancelPrune, Dispatcher.addConnected, indexGet_addIndexEntry]
    by_cases hs : s' = s <;> by_cases hh : hp' = hp <;> simp [hs, hh, h.transpose]
  positive s' hp' t ht := by
    simp only [Dispatcher.cancelPrune, Dispatcher.addConnected, indexGet_addIndexEntry] at ht
    split at ht
    · cases ht; exact hnow
    · exact h.positive s' hp' t ht
  servicesNonempty := levelsNonempty_addIndexEntry h.servicesNonempty _ _ _
  peersNonempty := levelsNonempty_addIndexEntry h.peersNonempty _ _ _
  pruned hp' hc := by
    simp only [Dispatcher.cancelPrune, Dispatcher.addConnected, JsMap.contains,
      JsMap.get_delete] at hc ⊢
    split at hc
    · cases hc
    · rw [get_addIndexEntry_of_ne _ _ ‹_›]; exact h.pruned hp' hc

/-- Storing ranges keeps the invariant. -/
theorem IndexInv.setPartialRanges (ranges : JsMap PartialRange) :
    IndexInv { d with partialRanges := ranges } := h.of_indices_eq rfl

/-- Emptying the prune table keeps the invariant. -/
theorem IndexInv.clearPrune : IndexInv { d with peersToPrune := ∅ } :=
  { h with pruned := fun _ hc => by simp [JsMap.contains] at hc }

/-- Scheduling a prune for a peer with no connected service keeps the invariant. -/
theorem IndexInv.schedulePrune {hp : String} (info : PruneInfo)
    (hc : (d.connectedPeerServices.get hp).all (·.isEmpty)) :
    IndexInv { d with peersToPrune := d.peersToPrune.set hp info } :=
  { h with
    pruned := fun hp' hc' => by
      simp only [JsMap.contains, JsMap.get_set] at hc'
      split at hc'
      · subst hp'
        cases hl : d.connectedPeerServices.get hp with
        | none => rfl
        | some l => simp [hl, h.peersNonempty hp l hl] at hc
      · exact h.pruned hp' hc' }

end Primitives

/-- Empty indices and any prune table satisfy the invariant. -/
theorem indexInv_of_empty {d : Dispatcher} (hs : d.connectedServicePeers = ∅)
    (hp : d.connectedPeerServices = ∅) : IndexInv d where
  transpose _ _ := by simp [indexGet, hs, hp]
  positive _ _ _ ht := by simp [indexGet, hs] at ht
  servicesNonempty _ _ hl := by simp [hs] at hl
  peersNonempty _ _ hl := by simp [hp] at hl
  pruned _ _ := by simp [hp]

/-! ## The helpers of every path -/

/-- `modifyChannel` leaves the connected indices and the prune table alone. -/
@[simp]
theorem indices_modifyChannel (d : Dispatcher) (s : String) (f : SubChannel → SubChannel) :
    (d.modifyChannel s f).indices = d.indices := by
  unfold modifyChannel; split <;> rfl

/-- `modifyPeer` leaves the connected indices and the prune table alone. -/
@[simp]
theorem indices_modifyPeer (d : Dispatcher) (hp : String) (f : Peer → Peer) :
    (d.modifyPeer hp f).indices = d.indices := by
  unfold modifyPeer; split <;> rfl

/-- `_getServicePeer` leaves the connected indices and the prune table alone. -/
@[simp]
theorem indices__getServicePeer (d : Dispatcher) (s hp : String) :
    (d._getServicePeer s hp).indices = d.indices := by
  unfold _getServicePeer; split
  · split <;> rfl
  · rfl

/-- A run of `_getServicePeer` leaves the connected indices and the prune table alone. -/
theorem indices_foldl__getServicePeer (d : Dispatcher) (s : String) (l : List String) :
    (l.foldl (fun d hp => d._getServicePeer s hp) d).indices = d.indices :=
  foldl_indices l d fun _ _ => indices__getServicePeer _ _ _

/-- `ensureRelays` leaves the connected indices and the prune table alone. -/
@[simp]
theorem indices_ensureRelays (d : Dispatcher) (s : String) :
    (d.ensureRelays s).indices = d.indices := by
  unfold ensureRelays; split <;> rfl

/-- `createServiceChannel` leaves the connected indices and the prune table alone. -/
@[simp]
theorem indices_createServiceChannel (cfg : Config) (d : Dispatcher) (s : String) :
    (createServiceChannel cfg d s).indices = d.indices := by
  simp only [createServiceChannel, indices_modifyChannel]
  split
  · exact indices_ensureRelays d s
  · rw [indices_foldl__getServicePeer]; exact indices_ensureRelays d s

/-- `getOrCreateServiceChannel` leaves the connected indices and the prune table alone. -/
@[simp]
theorem indices_getOrCreateServiceChannel (cfg : Config) (d : Dispatcher) (s : String) :
    (getOrCreateServiceChannel cfg d s).indices = d.indices := by
  unfold getOrCreateServiceChannel; split <;> simp

/-- `getServicePeer` leaves the connected indices and the prune table alone. -/
@[simp]
theorem indices_getServicePeer (cfg : Config) (d : Dispatcher) (s hp : String) :
    (getServicePeer cfg d s hp).indices = d.indices := by
  simp [getServicePeer]

/-- `connectPeer` leaves the connected indices and the prune table alone. -/
@[simp]
theorem indices_connectPeer (d : Dispatcher) (hp : String) :
    (d.connectPeer hp).indices = d.indices := indices_modifyPeer _ _ _

/-- `ensurePeerConnected` keeps the invariant of the indices. -/
theorem IndexInv.ensurePeerConnected {d : Dispatcher} (h : IndexInv d) (s hp : String)
    {now : Nat} (hnow : 0 < now) : IndexInv (d.ensurePeerConnected s hp now) := by
  refine IndexInv.of_indices_eq ?_ (indices_connectPeer _ _)
  unfold connectIfPartial
  split
  · exact h.addConnected_cancelPrune s hp hnow
  · exact h.cancelPrune hp

/-- `disconnectIfPartial` keeps the invariant of the indices. -/
theorem IndexInv.disconnectIfPartial {d : Dispatcher} (h : IndexInv d) (s hp : String) :
    IndexInv (d.disconnectIfPartial s hp) := by
  unfold Dispatcher.disconnectIfPartial
  split
  · exact h.deleteConnected s hp
  · exact h

/-- `pruneIfIdle` keeps the invariant of the indices. -/
theorem IndexInv.pruneIfIdle {d : Dispatcher} (h : IndexInv d) (hp reason : String)
    (now : Nat) : IndexInv (d.pruneIfIdle hp reason now) := by
  unfold Dispatcher.pruneIfIdle
  split
  · exact h.schedulePrune _ ‹_›
  · exact h

/-- `ensurePeerDisconnected` keeps the invariant of the indices. -/
theorem IndexInv.ensurePeerDisconnected {d : Dispatcher} (h : IndexInv d)
    (s hp reason : String) (now : Nat) : IndexInv (d.ensurePeerDisconnected s hp reason now) :=
  (h.disconnectIfPartial s hp).pruneIfIdle hp reason now

/-- `deletePeerIndex` keeps the invariant of the indices. -/
theorem IndexInv.deletePeerIndex {d : Dispatcher} (h : IndexInv d) (s hp : String) :
    IndexInv (d.deletePeerIndex s hp) :=
  (h.disconnectIfPartial s hp).of_indices_eq rfl

section Steps

variable (cfg : Config)

/-! ## Advertisement and unadvertisement -/

/-- `ensurePartialRange` leaves the connected indices and the prune table alone. -/
@[simp]
theorem indices_ensurePartialRange (d : Dispatcher) (s : String) :
    (ensurePartialRange cfg d s).indices = d.indices := by
  unfold ensurePartialRange; split
  · rfl
  · exact indices_getOrCreateServiceChannel cfg d s

/-- `_getServicePeer` keeps the invariant of the indices. -/
theorem IndexInv._getServicePeer {d : Dispatcher} (h : IndexInv d) (s hp : String) :
    IndexInv (d._getServicePeer s hp) := h.of_indices_eq (indices__getServicePeer _ _ _)

/-- A run of `_getServicePeer` keeps the invariant of the indices. -/
theorem IndexInv.foldl__getServicePeer {d : Dispatcher} (h : IndexInv d) (s : String)
    (l : List String) : IndexInv (l.foldl (fun d hp => d._getServicePeer s hp) d) :=
  h.of_indices_eq (indices_foldl__getServicePeer _ _ _)

/-- `ensurePartialConnections` keeps the invariant of the indices. -/
theorem IndexInv.ensurePartialConnections {d : Dispatcher} (h : IndexInv d) (s : String)
    {now : Nat} (hnow : 0 < now) : IndexInv (ensurePartialConnections cfg d s now).2 := by
  have h0 := h.of_indices_eq (indices_ensurePartialRange cfg d s)
  simp only [Dispatcher.ensurePartialConnections]
  split
  · exact h0
  · rename_i r _
    have h1 := h0.foldl__getServicePeer s r.affineWorkers
    split
    · exact h1
    · refine foldl_keeps _ (foldl_keeps _ h1 fun d w _ hd => ?_) fun d w _ hd => ?_
      · exact (hd._getServicePeer s w).ensurePeerConnected s w hnow
      · exact (hd._getServicePeer s w).ensurePeerDisconnected s w _ now

/-- `markKnown` leaves the connected indices and the prune table alone. -/
@[simp]
theorem indices_markKnown (d : Dispatcher) (s hp : String) (now : Nat) :
    (d.markKnown s hp now).indices = d.indices := rfl

/-- `addRangeWorker` leaves the connected indices and the prune table alone. -/
@[simp]
theorem indices_addRangeWorker (d : Dispatcher) (s hp : String) :
    (d.addRangeWorker s hp).indices = d.indices := by
  unfold addRangeWorker; split <;> rfl

/-- `recomputeWorkers` leaves the connected indices and the prune table alone. -/
@[simp]
theorem indices_recomputeWorkers (d : Dispatcher) (s : String) :
    (d.recomputeWorkers s).indices = d.indices := by
  unfold recomputeWorkers; split <;> rfl

/-- Refreshing a pair in the indices, recorded or dropped, keeps the invariant. -/
theorem IndexInv.refreshConnected {d : Dispatcher} (h : IndexInv d) (b : Bool) (s hp : String)
    {now : Nat} (hnow : 0 < now) :
    IndexInv (if b then (d.addConnected s hp now).cancelPrune hp else d.deleteConnected s hp) := by
  cases b
  · exact h.deleteConnected s hp
  · exact h.addConnected_cancelPrune s hp hnow

/-- Connecting or disconnecting a peer keeps the invariant. -/
theorem IndexInv.ensurePeerConnectedIf {d : Dispatcher} (h : IndexInv d) (b : Bool)
    (s hp reason : String) {now : Nat} (hnow : 0 < now) :
    IndexInv (if b then d.ensurePeerConnected s hp now
      else d.ensurePeerDisconnected s hp reason now) := by
  cases b
  · exact h.ensurePeerDisconnected s hp reason now
  · exact h.ensurePeerConnected s hp hnow

/-- `freshenPartialPeer` keeps the invariant of the indices. -/
theorem IndexInv.freshenPartialPeer {d : Dispatcher} (h : IndexInv d) (s hp : String)
    {now : Nat} (hnow : 0 < now) : IndexInv (freshenPartialPeer cfg d s hp now) := by
  simp only [Dispatcher.freshenPartialPeer]
  exact IndexInv.ensurePeerConnectedIf
    (((h.refreshConnected _ s hp hnow).of_indices_eq (indices_markKnown _ s hp now)).of_indices_eq
      (indices_ensurePartialRange cfg _ s)) _ s hp _ hnow

/-- `refreshServicePeerPartially` keeps the invariant of the indices. -/
theorem IndexInv.refreshServicePeerPartially {d : Dispatcher} (h : IndexInv d) (s hp : String)
    {now : Nat} (hnow : 0 < now) : IndexInv (refreshServicePeerPartially cfg d s hp now) := by
  simp only [Dispatcher.refreshServicePeerPartially]
  split
  · exact h.freshenPartialPeer cfg s hp hnow
  · have h1 := ((((h.of_indices_eq (indices_addRangeWorker d s hp))._getServicePeer s hp).of_indices_eq
      (indices_markKnown _ s hp now)).ensurePartialConnections cfg s hnow)
    split
    · rename_i heq
      rw [heq] at h1
      split
      · exact h1.refreshConnected _ s hp hnow
      · exact h1
    · rename_i heq
      rw [heq] at h1
      exact h1

/-- `refreshServicePeer` keeps the invariant of the indices. -/
theorem IndexInv.refreshServicePeer {d : Dispatcher} (h : IndexInv d) (s hp : String)
    {now : Nat} (hnow : 0 < now) : IndexInv (refreshServicePeer cfg d s hp now) := by
  have h0 := h.of_indices_eq (indices_getOrCreateServiceChannel cfg d s)
  simp only [Dispatcher.refreshServicePeer]
  split
  · exact h0
  · have h1 : IndexInv { getOrCreateServiceChannel cfg d s with
      exitServices := (getOrCreateServiceChannel cfg d s).exitServices.set s now } :=
      h0.of_indices_eq rfl
    split
    · exact h1.refreshServicePeerPartially cfg s hp hnow
    · exact (((h1.cancelPrune hp).of_indices_eq (indices_markKnown _ s hp now)).of_indices_eq
        (indices_getServicePeer cfg _ s hp)).ensurePeerConnected s hp hnow

/-- `unadvertisePartially` keeps the invariant of the indices. -/
theorem IndexInv.unadvertisePartially {d : Dispatcher} (h : IndexInv d) (s hp : String)
    {now : Nat} (hnow : 0 < now) : IndexInv (unadvertisePartially cfg d s hp now) := by
  have h1 := (h.of_indices_eq (indices_recomputeWorkers d s)).ensurePartialConnections cfg s hnow
  unfold Dispatcher.unadvertisePartially
  split
  · rename_i heq
    rw [heq] at h1
    split
    · exact h1.deleteConnected s hp
    · exact h1
  · rename_i heq
    rw [heq] at h1
    exact h1

/-- `drainUnadvertised` leaves the connected indices and the prune table alone. -/
theorem indices_drainUnadvertised {d d' : Dispatcher} {hp : String}
    (he : drainUnadvertised cfg d hp = .ok d') : d'.indices = d.indices := by
  unfold drainUnadvertised at he
  split at he
  · cases he
  · split at he
    · cases he; rfl
    · split at he <;> cases he
      · rfl
      · exact indices_modifyPeer _ _ _

/-- `removeServicePeer` keeps the invariant of the indices. -/
theorem IndexInv.removeServicePeer {d d' : Dispatcher} (h : IndexInv d) {s hp : String}
    {now : Nat} (hnow : 0 < now) (he : removeServicePeer cfg d s hp now = .ok d') :
    IndexInv d' := by
  simp only [Dispatcher.removeServicePeer] at he
  split at he
  · cases he; exact h
  · refine IndexInv.of_indices_eq ?_ (indices_drainUnadvertised cfg he)
    split
    · exact (h.of_indices_eq (indices_modifyChannel _ _ _)).unadvertisePartially cfg s hp hnow
    · exact h.of_indices_eq (indices_modifyChannel _ _ _)

/-! ## Membership changes and remote-config toggles -/

/-- `changeToExit` leaves the connected indices and the prune table alone. -/
@[simp]
theorem indices_changeToExit (d : Dispatcher) (s : String) :
    (d.changeToExit s).indices = d.indices := indices_modifyChannel _ _ _

/-- `updateExitNodes` leaves the connected indices and the prune table alone. -/
@[simp]
theorem indices_updateExitNodes (d : Dispatcher) (l : List String) (s : String) :
    (d.updateExitNodes l s).indices = d.indices := by
  simp [Dispatcher.updateExitNodes, indices_foldl__getServicePeer]

/-- `setRangeRelays` leaves the connected indices and the prune table alone. -/
@[simp]
theorem indices_setRangeRelays (d : Dispatcher) (s : String) (l : List String) :
    (d.setRangeRelays s l).indices = d.indices := by
  unfold setRangeRelays; split <;> rfl

/-- `updateServiceNodes` keeps the invariant of the indices. -/
theorem IndexInv.updateServiceNodes {d : Dispatcher} (h : IndexInv d) (s : String)
    {now : Nat} (hnow : 0 < now) : IndexInv (updateServiceNodes cfg d s now) := by
  unfold Dispatcher.updateServiceNodes
  split
  · exact h.ensurePartialConnections cfg s hnow
  · exact h

/-- `changeToForward` keeps the invariant of the indices. -/
theorem IndexInv.changeToForward {d : Dispatcher} (h : IndexInv d) (l : List String) (s : String)
    (now : Nat) : IndexInv (d.changeToForward l s now) := by
  simp only [Dispatcher.changeToForward]
  exact (foldl_keeps _ (h.of_indices_eq (indices_modifyChannel _ _ _)) fun d w _ hd =>
    hd.ensurePeerDisconnected s w _ now).foldl__getServicePeer s l

/-- `updateServiceChannel` keeps the invariant of the indices. -/
theorem IndexInv.updateServiceChannel {d : Dispatcher} (h : IndexInv d) (s : String)
    {now : Nat} (hnow : 0 < now) : IndexInv (updateServiceChannel cfg d s now) := by
  have h0 : IndexInv
      { d with relaysFor := d.relaysFor.set s (sortStrings (d.egressNodes.exitsFor s)) } :=
    h.of_indices_eq rfl
  simp only [Dispatcher.updateServiceChannel]
  refine iteInduction (motive := IndexInv)
    (fun _ => iteInduction (motive := IndexInv) (fun _ => ?_) (fun _ => ?_))
    (fun _ => iteInduction (motive := IndexInv) (fun _ => ?_) (fun _ => ?_))
  · exact h0.of_indices_eq (by simp only [indices_changeToExit, apply_ite indices,
      indices_setRangeRelays, ite_self])
  · exact (h0.of_indices_eq (by simp only [apply_ite indices, indices_setRangeRelays,
      ite_self])).updateServiceNodes cfg s hnow
  · refine IndexInv.changeToForward ?_ _ s now
    exact h0.of_indices_eq (by split <;> rfl)
  · exact h0.of_indices_eq (by rw [indices_updateExitNodes]; split <;> rfl)

/-- `updateServiceChannels` keeps the invariant of the indices. -/
theorem IndexInv.updateServiceChannels {d : Dispatcher} (h : IndexInv d) {now : Nat}
    (hnow : 0 < now) : IndexInv (updateServiceChannels cfg d now) := by
  refine (foldl_keeps _ h fun d s _ hd => ?_).of_indices_eq rfl
  split
  · exact hd.updateServiceChannel cfg s hnow
  · exact hd

/-- The loop of the circuit toggles leaves the connected indices and the prune table alone. -/
theorem indices_foldl_attachCircuits (d : Dispatcher) (b : Bool) (l : List String) :
    (l.foldl (fun d s => d.modifyChannel s (attachCircuits b)) d).indices = d.indices :=
  foldl_indices l d fun _ _ => indices_modifyChannel _ _ _

/-- `enableCircuits` leaves the connected indices and the prune table alone. -/
@[simp]
theorem indices_enableCircuits (d : Dispatcher) : d.enableCircuits.indices = d.indices := by
  unfold enableCircuits; split
  · rfl
  · exact indices_foldl_attachCircuits _ true _

/-- `disableCircuits` leaves the connected indices and the prune table alone. -/
@[simp]
theorem indices_disableCircuits (d : Dispatcher) : d.disableCircuits.indices = d.indices := by
  unfold disableCircuits; split
  · rfl
  · exact indices_foldl_attachCircuits _ false _

/-- `setPartialAffinityEnabled` keeps the invariant of the indices. -/
theorem IndexInv.setPartialAffinityEnabled (d : Dispatcher) (b : Bool) :
    IndexInv (d.setPartialAffinityEnabled b) := indexInv_of_empty rfl rfl

/-! ## Scans and drains -/

/-- `pruneSinglePeer` leaves the connected indices and the prune table alone. -/
@[simp]
theorem indices_pruneSinglePeer (d : Dispatcher) (hp : String) (info : PruneInfo) :
    (d.pruneSinglePeer hp info).indices = d.indices := by
  unfold pruneSinglePeer; split
  · split
    · rfl
    · exact indices_modifyPeer _ _ _
  · rfl

/-- `prunePeers` keeps the invariant of the indices. -/
theorem IndexInv.prunePeers {d : Dispatcher} (h : IndexInv d) : IndexInv d.prunePeers :=
  h.clearPrune.of_indices_eq <| foldl_indices _ _ fun _ _ => by split <;> simp

/-- `reapService` keeps the invariant of the indices. -/
theorem IndexInv.reapService {d d' : Dispatcher} (h : IndexInv d) {hp s : String}
    (he : d.reapService hp s = .ok d') : IndexInv d' := by
  simp only [Dispatcher.reapService] at he
  split at he <;> cases he
  exact ((h.of_indices_eq (indices_modifyChannel _ _ _)).deletePeerIndex s hp).setPartialRanges _

/-- `reapSinglePeer` keeps the invariant of the indices. -/
theorem IndexInv.reapSinglePeer {d d' : Dispatcher} (h : IndexInv d) {hp : String}
    {serviceNames : JsMap Nat} (he : d.reapSinglePeer hp serviceNames = .ok d') :
    IndexInv d' := by
  rcases reapSinglePeer_cases he with rfl | ⟨_, hloop, rfl⟩
  · exact h
  · exact (foldlM_keeps _ (h.of_indices_eq (indices_modifyPeer _ _ _))
      (fun _ _ _ hd he => hd.reapService he) hloop).of_indices_eq (indices_modifyPeer _ _ _)

/-- `reapPeers` keeps the invariant of the indices. -/
theorem IndexInv.reapPeers {d d' : Dispatcher} (h : IndexInv d) (he : d.reapPeers = .ok d') :
    IndexInv d' := by
  simp only [Dispatcher.reapPeers] at he
  refine foldlM_keeps _ ?_ (fun _ _ _ hd he => ?_) he
  · exact h.of_indices_eq rfl
  · split at he
    · exact hd.reapSinglePeer he
    · cases he; exact hd

/-- `maybePurgeEachService` leaves the connected indices and the prune table alone. -/
@[simp]
theorem indices_maybePurgeEachService (d : Dispatcher) (s : String) (t now : Nat) :
    (d.maybePurgeEachService s t now).indices = d.indices := by
  simp only [maybePurgeEachService]; split_ifs <;> rfl

/-- `purgeServices` leaves the connected indices and the prune table alone. -/
@[simp]
theorem indices_purgeServices (d : Dispatcher) (now : Nat) :
    (d.purgeServices now).indices = d.indices :=
  foldl_indices _ _ fun _ _ => by split <;> simp

/-- `drainDone` leaves the connected indices and the prune table alone. -/
@[simp]
theorem indices_drainDone (d : Dispatcher) (hp : String) :
    (d.drainDone hp).indices = d.indices := by
  unfold drainDone; split
  · split
    · rfl
    · exact indices_modifyPeer _ _ _
  · rfl

/-! ## Request admission -/

/-- `callRateLimiter` leaves the connected indices and the prune table alone. -/
@[simp]
theorem indices_callRateLimiter (d : Dispatcher) (now : Nat) (c : RateLimiterCall) :
    (d.callRateLimiter now c).indices = d.indices := rfl

/-- `rateLimit` leaves the connected indices and the prune table alone. -/
@[simp]
theorem indices_rateLimit (d : Dispatcher) (cn : Option String) (s : String) (now : Nat) :
    (rateLimit cfg d cn s now).2.indices = d.indices :=
  rateLimit_frame cfg indices (fun _ _ _ => rfl) d cn s now

/-- `rateLimitAndDispatch` leaves the connected indices and the prune table alone. -/
@[simp]
theorem indices_rateLimitAndDispatch (d : Dispatcher) (cn rd : Option String) (s s' : String)
    (popped : Bool) (now : Nat) :
    (rateLimitAndDispatch cfg d cn rd s s' popped now).2.indices = d.indices := by
  simp only [rateLimitAndDispatch]
  split <;> split <;> simp_all

/-- `handleRequest` leaves the connected indices and the prune table alone. -/
@[simp]
theorem indices_handleRequest (d : Dispatcher) (req : CallRequest) (now : Nat) :
    (handleRequest cfg d req now).2.indices = d.indices := by
  simp only [handleRequest]; split_ifs <;> simp

/-- `handleLazily` leaves the connected indices and the prune table alone. -/
@[simp]
theorem indices_handleLazily (d : Dispatcher) (frame : LazyFrame) (now : Nat) :
    (handleLazily cfg d frame now).2.indices = d.indices := by
  simp only [handleLazily]
  repeat' split
  all_goals simp

/-- `unblock` leaves the connected indices and the prune table alone. -/
@[simp]
theorem indices_unblock (d : Dispatcher) (cn s : Option String) :
    (d.unblock cn s).indices = d.indices := by
  unfold unblock; split <;> rfl

/-- `block` leaves the connected indices and the prune table alone. -/
theorem indices_block {d d' : Dispatcher} {cn s : Option String} {now : Nat}
    (he : d.block cn s now = .ok d') : d'.indices = d.indices := by
  unfold block at he; split at he <;> cases he; rfl

/-- `blockRemoteConfig` leaves the connected indices and the prune table alone. -/
theorem indices_blockRemoteConfig {d d' : Dispatcher} {cn s : Option String} {now : Nat}
    (he : d.blockRemoteConfig cn s now = .ok d') : d'.indices = d.indices := by
  unfold blockRemoteConfig at he; split at he <;> cases he; rfl

/-! ## Every step, and every reachable state -/

/-- Every step keeps the invariant. -/
theorem IndexInv.step {d d' : Dispatcher} (h : IndexInv d) {now : Nat} (hnow : 0 < now)
    {e : Event} (he : step cfg d now e = .ok d') : IndexInv d' := by
  cases e <;> simp only [Dispatcher.step] at he
  case refreshServicePeer s hp => cases he; exact h.refreshServicePeer cfg s hp hnow
  case removeServicePeer => exact h.removeServicePeer cfg hnow he
  case updateServiceChannels => cases he; exact h.updateServiceChannels cfg hnow
  case prunePeers => cases he; exact h.prunePeers
  case reapPeers => exact h.reapPeers he
  case setPartialAffinityEnabled b => cases he; exact IndexInv.setPartialAffinityEnabled d b
  case block => exact h.of_indices_eq (indices_block he)
  case blockRemoteConfig => exact h.of_indices_eq (indices_blockRemoteConfig he)
  case purgeServices => cases he; exact h.of_indices_eq (indices_purgeServices d now)
  case drainDone hp => cases he; exact h.of_indices_eq (indices_drainDone d hp)
  case peerConnected => cases he; exact h.of_indices_eq (by split <;> rfl)
  case connectionLost hp => cases he; exact h.of_indices_eq (indices_modifyPeer d hp _)
  case enableCircuits => cases he; exact h.of_indices_eq (indices_enableCircuits d)
  case disableCircuits => cases he; exact h.of_indices_eq (indices_disableCircuits d)
  case handleRequest req => cases he; exact h.of_indices_eq (indices_handleRequest cfg d req now)
  case handleLazily frame => cases he; exact h.of_indices_eq (indices_handleLazily cfg d frame now)
  case unblock cn s => cases he; exact h.of_indices_eq (indices_unblock d cn s)
  all_goals cases he; exact h.of_indices_eq rfl

/-- The invariant holds in every reachable state. -/
theorem indexInv_of_reachable {d : Dispatcher} (hd : Reachable cfg d) : IndexInv d :=
  Reachable.induct_inv cfg (fun _ => indexInv_of_empty rfl rfl)
    (fun _ _ _ _ _ h hnow he => h.step cfg hnow he) hd

/-- In every reachable state the connected indices record the same pairs with the same times,
neither has an empty level, and no peer pending prune has a connected service. -/
theorem connectedIndices_transpose {d : Dispatcher} (hd : Reachable cfg d) :
    (∀ s hp t, indexGet d.connectedServicePeers s hp = some t ↔
      indexGet d.connectedPeerServices hp s = some t) ∧
    LevelsNonempty d.connectedServicePeers ∧ LevelsNonempty d.connectedPeerServices ∧
    ∀ hp, d.peersToPrune.contains hp → d.connectedPeerServices.get hp = none :=
  have h := indexInv_of_reachable cfg hd
  ⟨fun s hp _ => by rw [h.transpose s hp], h.servicesNonempty, h.peersNonempty, h.pruned⟩

/-- A partial-affinity run in which `v` and `w` serve `s`, `w` also serves `t`, and the ring
then moves `s` to another relay: `w` stays connected for `t`, and `v` is pending prune. -/
theorem connectedIndices_transpose_flipped :
    ∃ d, run (Config.sample "r") (init (Ring.single "r"))
        [(1, .setPartialAffinityEnabled true), (2, .refreshServicePeer "s" "v"),
          (3, .refreshServicePeer "s" "w"), (4, .refreshServicePeer "t" "w"),
          (5, .egressNodesChanged ⟨fun s => if s = "s" then ["q"] else ["r"]⟩),
          (6, .updateServiceChannels)] = .ok d ∧
      ((indexGet d.connectedServicePeers "t" "w").isSome && d.peersToPrune.contains "v") = true ∧
      (∀ s hp t, indexGet d.connectedServicePeers s hp = some t ↔
        indexGet d.connectedPeerServices hp s = some t) ∧
      LevelsNonempty d.connectedServicePeers ∧ LevelsNonempty d.connectedPeerServices ∧
      ∀ hp, d.peersToPrune.contains hp → d.connectedPeerServices.get hp = none := by
  obtain ⟨d, hrun, hc⟩ : ∃ d, run (Config.sample "r") (init (Ring.single "r"))
      [(1, .setPartialAffinityEnabled true), (2, .refreshServicePeer "s" "v"),
        (3, .refreshServicePeer "s" "w"), (4, .refreshServicePeer "t" "w"),
        (5, .egressNodesChanged ⟨fun s => if s = "s" then ["q"] else ["r"]⟩),
        (6, .updateServiceChannels)] = .ok d ∧
      ((indexGet d.connectedServicePeers "t" "w").isSome && d.peersToPrune.contains "v") = true :=
    ⟨_, rfl, by decide⟩
  exact ⟨d, hrun, hc, connectedIndices_transpose _ (reachable_run _ (.init _) (by decide) hrun)⟩

end Steps

end Dispatcher

end Hyperbahn
