import Hyperbahn.Dispatcher.Correctness.Indices

/-!
# Service channels are never removed

Only the service purger deletes a service channel, and it compares the age of a service with
`self.servicePurgePeriod`, which the constructor never assigns: the comparison with `undefined`
is false and the purger never deletes anything. Every other step keeps every service channel,
and stores relays in `relaysFor` only for a service whose channel exists once the step is
done. `Extends d d'` states these facts of one step from `d` to `d'`; `extends_step` proves it
of every step, and `routingInv_of_reachable` concludes that in every reachable state the purge
period is unset, the `autobahn`, `ringpop` and `hyperbahn` channels exist, and every service
with stored relays has a channel. So a tick of the purger is a no-op in every reachable state
(`purgeServices_of_reachable`).

Two results follow. A service channel made on first use (`createServiceChannel`) takes its
mode, forward peers and relays from the current ring, since no stale relays of a former
channel can be left (`createServiceChannel_of_reachable`). And the loop of `removeServicePeer`
that looks for the other channels still holding an unadvertised peer never runs, since there
are always at least two channels: the peer is drained whatever other channel holds it
(`removeServicePeer_drains_of_reachable`).
-/

namespace Hyperbahn

namespace Dispatcher

/-- What a step may do to the channel table: keep every service channel, store relays only for
a service that has a channel afterwards, and keep the purge period. -/
structure Extends (d d' : Dispatcher) : Prop where
  /-- Every channel stays. -/
  channels : ∀ s, d.subChannels.contains s → d'.subChannels.contains s
  /-- New relays come with a channel. -/
  relays : ∀ s, d'.relaysFor.contains s → d.relaysFor.contains s ∨ d'.subChannels.contains s
  /-- The purge period stays. -/
  purge : d'.servicePurgePeriod = d.servicePurgePeriod

/-- Every state extends itself. -/
theorem Extends.refl (d : Dispatcher) : Extends d d := ⟨fun _ h => h, fun _ h => .inl h, rfl⟩

/-- Two steps that extend make a step that extends. -/
theorem Extends.trans {d₁ d₂ d₃ : Dispatcher} (h₁ : Extends d₁ d₂) (h₂ : Extends d₂ d₃) :
    Extends d₁ d₃ where
  channels s h := h₂.channels s (h₁.channels s h)
  relays s h := (h₂.relays s h).elim (fun h' => (h₁.relays s h').imp_right (h₂.channels s)) .inr
  purge := h₂.purge.trans h₁.purge

/-- The three fields `Extends` reads. -/
def routing (d : Dispatcher) : JsMap SubChannel × JsMap (List String) × Option Nat :=
  (d.subChannels, d.relaysFor, d.servicePurgePeriod)

/-- A step that leaves the three fields alone extends. -/
theorem Extends.of_routing_eq {d d' : Dispatcher} (h : d'.routing = d.routing) : Extends d d' := by
  simp only [routing, Prod.mk.injEq] at h
  obtain ⟨h₁, h₂, h₃⟩ := h
  exact ⟨fun s hs => h₁ ▸ hs, fun s hs => .inl (h₂ ▸ hs), h₃⟩

/-- A fold of steps that extend extends. -/
theorem Extends.foldl {α : Type} {f : Dispatcher → α → Dispatcher} (l : List α)
    {d₀ d : Dispatcher} (h : Extends d₀ d) (hf : ∀ d a, Extends d (f d a)) :
    Extends d₀ (l.foldl f d) :=
  foldl_keeps (P := Extends d₀) l h fun d a _ hd => hd.trans (hf d a)

/-- A fold of steps that may throw, each extending when it succeeds, extends when it
succeeds. -/
theorem Extends.foldlM {α : Type} {f : Dispatcher → α → Except String Dispatcher} (l : List α)
    {d₀ d d' : Dispatcher} (h : Extends d₀ d) (hf : ∀ d d' a, f d a = .ok d' → Extends d d')
    (he : l.foldlM f d = .ok d') : Extends d₀ d' :=
  foldlM_keeps (P := Extends d₀) l h (fun _ _ a hd ha => hd.trans (hf _ _ a ha)) he

/-! ## Steps that leave the channel table alone -/

section Frames

/-- `modifyPeer` leaves the channel table, the stored relays and the purge period alone. -/
@[simp]
theorem routing_modifyPeer (d : Dispatcher) (hp : String) (f : Peer → Peer) :
    (d.modifyPeer hp f).routing = d.routing := by
  unfold modifyPeer; split <;> rfl

/-- `connectIfPartial` leaves the channel table, the stored relays and the purge period alone. -/
@[simp]
theorem routing_connectIfPartial (d : Dispatcher) (s hp : String) (now : Nat) :
    (d.connectIfPartial s hp now).routing = d.routing := by
  unfold connectIfPartial; split <;> rfl

/-- `disconnectIfPartial` leaves the channel table, the stored relays and the purge period alone. -/
@[simp]
theorem routing_disconnectIfPartial (d : Dispatcher) (s hp : String) :
    (d.disconnectIfPartial s hp).routing = d.routing := by
  unfold disconnectIfPartial; split <;> rfl

/-- `ensurePeerConnected` leaves the channel table, the stored relays and the purge period alone. -/
@[simp]
theorem routing_ensurePeerConnected (d : Dispatcher) (s hp : String) (now : Nat) :
    (d.ensurePeerConnected s hp now).routing = d.routing := by
  simp only [ensurePeerConnected, connectPeer, routing_modifyPeer]
  exact routing_connectIfPartial d s hp now

/-- `ensurePeerDisconnected` leaves the channel table, the stored relays and the purge period alone. -/
@[simp]
theorem routing_ensurePeerDisconnected (d : Dispatcher) (s hp reason : String) (now : Nat) :
    (d.ensurePeerDisconnected s hp reason now).routing = d.routing := by
  simp only [ensurePeerDisconnected, pruneIfIdle]
  split <;> exact routing_disconnectIfPartial d s hp

/-- `deletePeerIndex` leaves the channel table, the stored relays and the purge period alone. -/
@[simp]
theorem routing_deletePeerIndex (d : Dispatcher) (s hp : String) :
    (d.deletePeerIndex s hp).routing = d.routing := routing_disconnectIfPartial d s hp

/-- `addRangeWorker` leaves the channel table, the stored relays and the purge period alone. -/
@[simp]
theorem routing_addRangeWorker (d : Dispatcher) (s hp : String) :
    (d.addRangeWorker s hp).routing = d.routing := by
  unfold addRangeWorker; split <;> rfl

/-- `recomputeWorkers` leaves the channel table, the stored relays and the purge period alone. -/
@[simp]
theorem routing_recomputeWorkers (d : Dispatcher) (s : String) :
    (d.recomputeWorkers s).routing = d.routing := by
  unfold recomputeWorkers; split <;> rfl

/-- `setRangeRelays` leaves the channel table, the stored relays and the purge period alone. -/
@[simp]
theorem routing_setRangeRelays (d : Dispatcher) (s : String) (l : List String) :
    (d.setRangeRelays s l).routing = d.routing := by
  unfold setRangeRelays; split <;> rfl

/-- `pruneSinglePeer` leaves the channel table, the stored relays and the purge period alone. -/
@[simp]
theorem routing_pruneSinglePeer (d : Dispatcher) (hp : String) (info : PruneInfo) :
    (d.pruneSinglePeer hp info).routing = d.routing := by
  unfold pruneSinglePeer; split
  · split
    · rfl
    · exact routing_modifyPeer _ _ _
  · rfl

/-- `callRateLimiter` leaves the channel table, the stored relays and the purge period alone. -/
@[simp]
theorem routing_callRateLimiter (d : Dispatcher) (now : Nat) (c : RateLimiterCall) :
    (d.callRateLimiter now c).routing = d.routing := rfl

/-- `rateLimit` leaves the channel table, the stored relays and the purge period alone. -/
@[simp]
theorem routing_rateLimit (cfg : Config) (d : Dispatcher) (cn : Option String) (s : String)
    (now : Nat) : (rateLimit cfg d cn s now).2.routing = d.routing :=
  rateLimit_frame cfg routing (fun _ _ _ => rfl) d cn s now

/-- `drainUnadvertised` leaves the channel table, the stored relays and the purge period alone. -/
theorem routing_drainUnadvertised {cfg : Config} {d d' : Dispatcher} {hp : String}
    (he : drainUnadvertised cfg d hp = .ok d') : d'.routing = d.routing := by
  unfold drainUnadvertised at he
  split at he
  · cases he
  · split at he
    · cases he; rfl
    · split at he <;> cases he
      · rfl
      · exact routing_modifyPeer _ _ _

end Frames

/-! ## Steps on the channel table -/

section Channels

variable (cfg : Config)

/-- `modifyChannel` extends: it keeps every channel and stores relays only for a service with a channel. -/
theorem Extends.modifyChannel (d : Dispatcher) (s : String) (f : SubChannel → SubChannel) :
    Extends d (d.modifyChannel s f) := by
  unfold Dispatcher.modifyChannel
  split
  · exact ⟨fun _ h => JsMap.contains_set_of_contains _ _ h, fun _ h => .inl h, rfl⟩
  · exact Extends.refl d

/-- `_getServicePeer` extends: it keeps every channel and stores relays only for a service with a channel. -/
theorem Extends._getServicePeer (d : Dispatcher) (s hp : String) :
    Extends d (d._getServicePeer s hp) := by
  unfold Dispatcher._getServicePeer
  split
  · split
    · exact Extends.refl d
    · exact ⟨fun _ h => JsMap.contains_set_of_contains _ _ h, fun _ h => .inl h, rfl⟩
  · exact Extends.refl d

/-- A run of `_getServicePeer` after a step that extends extends. -/
theorem Extends.foldl__getServicePeer {d₀ d : Dispatcher} (h : Extends d₀ d) (s : String)
    (l : List String) : Extends d₀ (l.foldl (fun d hp => d._getServicePeer s hp) d) :=
  Extends.foldl l h fun d hp => Extends._getServicePeer d s hp

/-- The relays `ensureRelays` stores are the service's own. -/
theorem relaysFor_contains_ensureRelays {d : Dispatcher} {s s' : String}
    (h : (d.ensureRelays s).relaysFor.contains s') : s' = s ∨ d.relaysFor.contains s' := by
  unfold ensureRelays at h
  split at h
  · exact .inr h
  · exact JsMap.contains_of_contains_set h

/-- `createServiceChannel` extends: it keeps every channel and stores relays only for a service with a channel. -/
theorem Extends.createServiceChannel (d : Dispatcher) (s : String) :
    Extends d (createServiceChannel cfg d s) := by
  have h₀ : ∀ ch, Extends d
      { d.ensureRelays s with subChannels := (d.ensureRelays s).subChannels.set s ch } := fun _ =>
    ⟨fun _ h => JsMap.contains_set_of_contains _ _ (by unfold ensureRelays; split <;> exact h),
      fun _ h => (relaysFor_contains_ensureRelays h).elim
        (fun he => .inr (he ▸ JsMap.contains_set_self _ _ _)) .inl,
      by unfold ensureRelays; split <;> rfl⟩
  simp only [Dispatcher.createServiceChannel]
  refine Extends.trans ?_ (Extends.modifyChannel _ s _)
  split
  · exact h₀ _
  · exact (h₀ _).foldl__getServicePeer s _

/-- `getOrCreateServiceChannel` extends: it keeps every channel and stores relays only for a service with a channel. -/
theorem Extends.getOrCreateServiceChannel (d : Dispatcher) (s : String) :
    Extends d (getOrCreateServiceChannel cfg d s) := by
  unfold Dispatcher.getOrCreateServiceChannel
  split
  · exact Extends.refl d
  · exact Extends.createServiceChannel cfg d s

/-- `getServicePeer` extends: it keeps every channel and stores relays only for a service with a channel. -/
theorem Extends.getServicePeer (d : Dispatcher) (s hp : String) :
    Extends d (getServicePeer cfg d s hp) :=
  (Extends.getOrCreateServiceChannel cfg d s).trans (Extends._getServicePeer _ s hp)

/-- `getOrCreateServiceChannel` leaves the service with a channel. -/
theorem contains_getOrCreateServiceChannel (d : Dispatcher) (s : String) :
    (getOrCreateServiceChannel cfg d s).subChannels.contains s := by
  unfold getOrCreateServiceChannel
  split
  · assumption
  · simp only [createServiceChannel]
    refine (Extends.modifyChannel _ s _).channels s ?_
    split
    · exact JsMap.contains_set_self _ _ _
    · exact (Extends.foldl__getServicePeer (Extends.refl _) s _).channels s
        (JsMap.contains_set_self _ _ _)

end Channels

/-! ## Advertisement and unadvertisement -/

section Affinity

variable (cfg : Config)

/-- `ensurePartialRange` extends: it keeps every channel and stores relays only for a service with a channel. -/
theorem Extends.ensurePartialRange (d : Dispatcher) (s : String) :
    Extends d (ensurePartialRange cfg d s) := by
  unfold Dispatcher.ensurePartialRange
  split
  · exact Extends.refl d
  · exact (Extends.getOrCreateServiceChannel cfg d s).trans (Extends.of_routing_eq rfl)

/-- `ensurePartialConnections` extends: it keeps every channel and stores relays only for a service with a channel. -/
theorem Extends.ensurePartialConnections (d : Dispatcher) (s : String) (now : Nat) :
    Extends d (ensurePartialConnections cfg d s now).2 := by
  have h₀ := Extends.ensurePartialRange cfg d s
  simp only [Dispatcher.ensurePartialConnections]
  split
  · exact h₀
  · rename_i r _
    have h₁ := h₀.foldl__getServicePeer s r.affineWorkers
    split
    · exact h₁
    · refine Extends.foldl _ (Extends.foldl _ h₁ fun d w => ?_) fun d w => ?_
      · exact (Extends._getServicePeer d s w).trans (Extends.of_routing_eq (by simp))
      · exact (Extends._getServicePeer d s w).trans (Extends.of_routing_eq (by simp))

/-- `cancelPrune` extends: it keeps every channel and stores relays only for a service with a channel. -/
theorem Extends.cancelPrune (d : Dispatcher) (hp : String) : Extends d (d.cancelPrune hp) :=
  Extends.of_routing_eq rfl

/-- `markKnown` extends: it keeps every channel and stores relays only for a service with a channel. -/
theorem Extends.markKnown (d : Dispatcher) (s hp : String) (now : Nat) :
    Extends d (d.markKnown s hp now) := Extends.of_routing_eq rfl

/-- `refreshConnected` extends: it keeps every channel and stores relays only for a service with a channel. -/
theorem Extends.refreshConnected (d : Dispatcher) (b : Bool) (s hp : String) (now : Nat) :
    Extends d (if b then (d.addConnected s hp now).cancelPrune hp else d.deleteConnected s hp) :=
  Extends.of_routing_eq (by split <;> rfl)

/-- `ensurePeerConnectedIf` extends: it keeps every channel and stores relays only for a service with a channel. -/
theorem Extends.ensurePeerConnectedIf (d : Dispatcher) (b : Bool) (s hp reason : String)
    (now : Nat) : Extends d (if b then d.ensurePeerConnected s hp now
      else d.ensurePeerDisconnected s hp reason now) :=
  Extends.of_routing_eq (by split <;> simp)

/-- `freshenPartialPeer` extends: it keeps every channel and stores relays only for a service with a channel. -/
theorem Extends.freshenPartialPeer (d : Dispatcher) (s hp : String) (now : Nat) :
    Extends d (freshenPartialPeer cfg d s hp now) := by
  simp only [Dispatcher.freshenPartialPeer]
  exact (((Extends.refreshConnected d _ s hp now).trans (Extends.markKnown _ s hp now)).trans
    (Extends.ensurePartialRange cfg _ s)).trans (Extends.ensurePeerConnectedIf _ _ s hp _ now)

/-- `refreshServicePeerPartially` extends: it keeps every channel and stores relays only for a service with a channel. -/
theorem Extends.refreshServicePeerPartially (d : Dispatcher) (s hp : String) (now : Nat) :
    Extends d (refreshServicePeerPartially cfg d s hp now) := by
  simp only [Dispatcher.refreshServicePeerPartially]
  split
  · exact Extends.freshenPartialPeer cfg d s hp now
  · have h₁ := (((Extends.of_routing_eq (routing_addRangeWorker d s hp)).trans
      (Extends._getServicePeer _ s hp)).trans (Extends.markKnown _ s hp now)).trans
      (Extends.ensurePartialConnections cfg _ s now)
    split
    · rename_i heq
      rw [heq] at h₁
      refine h₁.trans (Extends.of_routing_eq ?_)
      split_ifs <;> rfl
    · rename_i heq
      rw [heq] at h₁
      exact h₁

/-- `refreshServicePeer` extends: it keeps every channel and stores relays only for a service with a channel. -/
theorem Extends.refreshServicePeer (d : Dispatcher) (s hp : String) (now : Nat) :
    Extends d (refreshServicePeer cfg d s hp now) := by
  have h₀ := Extends.getOrCreateServiceChannel cfg d s
  simp only [Dispatcher.refreshServicePeer]
  split
  · exact h₀
  · have h₁ : Extends d { Dispatcher.getOrCreateServiceChannel cfg d s with
        exitServices := (Dispatcher.getOrCreateServiceChannel cfg d s).exitServices.set s now } :=
      h₀.trans (Extends.of_routing_eq rfl)
    split
    · exact h₁.trans (Extends.refreshServicePeerPartially cfg _ s hp now)
    · exact (((h₁.trans (Extends.cancelPrune _ hp)).trans (Extends.markKnown _ s hp now)).trans
        (Extends.getServicePeer cfg _ s hp)).trans
        (Extends.of_routing_eq (routing_ensurePeerConnected _ s hp now))

/-- `unadvertisePartially` extends: it keeps every channel and stores relays only for a service with a channel. -/
theorem Extends.unadvertisePartially (d : Dispatcher) (s hp : String) (now : Nat) :
    Extends d (unadvertisePartially cfg d s hp now) := by
  have h₁ := (Extends.of_routing_eq (routing_recomputeWorkers d s)).trans
    (Extends.ensurePartialConnections cfg _ s now)
  unfold Dispatcher.unadvertisePartially
  split
  · rename_i heq
    rw [heq] at h₁
    refine h₁.trans (Extends.of_routing_eq ?_)
    split <;> rfl
  · rename_i heq
    rw [heq] at h₁
    exact h₁

/-- `removeServicePeer` extends: it keeps every channel and stores relays only for a service with a channel. -/
theorem Extends.removeServicePeer {d d' : Dispatcher} {s hp : String} {now : Nat}
    (he : removeServicePeer cfg d s hp now = .ok d') : Extends d d' := by
  simp only [Dispatcher.removeServicePeer] at he
  split at he
  · cases he; exact Extends.refl d
  · refine Extends.trans ?_ (Extends.of_routing_eq (routing_drainUnadvertised he))
    split
    · exact (Extends.modifyChannel d s _).trans (Extends.unadvertisePartially cfg _ s hp now)
    · exact Extends.modifyChannel d s _

end Affinity

/-! ## Membership changes and remote-config toggles -/

section Membership

variable (cfg : Config)

/-- `updateServiceNodes` extends: it keeps every channel and stores relays only for a service with a channel. -/
theorem Extends.updateServiceNodes (d : Dispatcher) (s : String) (now : Nat) :
    Extends d (updateServiceNodes cfg d s now) := by
  unfold Dispatcher.updateServiceNodes
  split
  · exact Extends.ensurePartialConnections cfg d s now
  · exact Extends.refl d

/-- `changeToForward` extends: it keeps every channel and stores relays only for a service with a channel. -/
theorem Extends.changeToForward (d : Dispatcher) (l : List String) (s : String) (now : Nat) :
    Extends d (d.changeToForward l s now) := by
  simp only [Dispatcher.changeToForward]
  exact (Extends.foldl _ (Extends.modifyChannel d s _) fun d w =>
    Extends.of_routing_eq (routing_ensurePeerDisconnected d s w _ now)).foldl__getServicePeer s l

/-- `updateExitNodes` extends: it keeps every channel and stores relays only for a service with a channel. -/
theorem Extends.updateExitNodes (d : Dispatcher) (l : List String) (s : String) :
    Extends d (d.updateExitNodes l s) :=
  (Extends.modifyChannel d s _).foldl__getServicePeer s l

/-- `updateServiceChannel` stores relays for its own service only, so it extends when that
service has a channel. -/
theorem Extends.updateServiceChannel {d : Dispatcher} {s : String}
    (hs : d.subChannels.contains s) (now : Nat) :
    Extends d (updateServiceChannel cfg d s now) := by
  have h₀ : Extends d
      { d with relaysFor := d.relaysFor.set s (sortStrings (d.egressNodes.exitsFor s)) } :=
    ⟨fun _ h => h, fun _ h => (JsMap.contains_of_contains_set h).elim (fun he => .inr (he ▸ hs))
      .inl, rfl⟩
  simp only [Dispatcher.updateServiceChannel]
  refine iteInduction (motive := Extends d)
    (fun _ => iteInduction (motive := Extends d) (fun _ => ?_) (fun _ => ?_))
    (fun _ => iteInduction (motive := Extends d) (fun _ => ?_) (fun _ => ?_))
  · exact (h₀.trans (Extends.of_routing_eq (by simp only [apply_ite routing,
      routing_setRangeRelays, ite_self]))).trans (Extends.modifyChannel _ s _)
  · exact (h₀.trans (Extends.of_routing_eq (by simp only [apply_ite routing,
      routing_setRangeRelays, ite_self]))).trans (Extends.updateServiceNodes cfg _ s now)
  · exact (h₀.trans (Extends.of_routing_eq (by split <;> rfl))).trans
      (Extends.changeToForward _ _ s now)
  · exact (h₀.trans (Extends.of_routing_eq (by split <;> rfl))).trans (Extends.updateExitNodes _ _ s)

/-- A service with a channel mode has a channel. -/
theorem contains_of_channelMode_isSome {d : Dispatcher} {s : String}
    (h : (d.channelMode s).isSome) : d.subChannels.contains s := by
  simp only [channelMode, JsMap.contains] at h ⊢
  cases hc : d.subChannels.get s <;> simp_all

/-- `updateServiceChannels` extends: it keeps every channel and stores relays only for a service with a channel. -/
theorem Extends.updateServiceChannels (d : Dispatcher) (now : Nat) :
    Extends d (updateServiceChannels cfg d now) := by
  refine (Extends.foldl _ (Extends.refl d) fun d s => ?_).trans (Extends.of_routing_eq rfl)
  split
  · exact Extends.updateServiceChannel cfg (contains_of_channelMode_isSome ‹_›) now
  · exact Extends.refl d

/-- `enableCircuits` extends: it keeps every channel and stores relays only for a service with a channel. -/
theorem Extends.enableCircuits (d : Dispatcher) : Extends d d.enableCircuits := by
  unfold Dispatcher.enableCircuits
  split
  · exact Extends.refl d
  · exact Extends.foldl _ (Extends.of_routing_eq rfl) fun d s => Extends.modifyChannel d s _

/-- `disableCircuits` extends: it keeps every channel and stores relays only for a service with a channel. -/
theorem Extends.disableCircuits (d : Dispatcher) : Extends d d.disableCircuits := by
  unfold Dispatcher.disableCircuits
  split
  · exact Extends.refl d
  · exact Extends.foldl _ (Extends.of_routing_eq rfl) fun d s => Extends.modifyChannel d s _

end Membership

/-! ## Scans, drains and request admission -/

section Scans

variable (cfg : Config)

/-- `reapService` extends: it keeps every channel and stores relays only for a service with a channel. -/
theorem Extends.reapService {d d' : Dispatcher} {hp s : String}
    (he : d.reapService hp s = .ok d') : Extends d d' := by
  simp only [Dispatcher.reapService] at he
  split at he <;> cases he
  exact ((Extends.modifyChannel d s _).trans
    (Extends.of_routing_eq (routing_deletePeerIndex _ s hp))).trans (Extends.of_routing_eq rfl)

/-- `reapSinglePeer` extends: it keeps every channel and stores relays only for a service with a channel. -/
theorem Extends.reapSinglePeer {d d' : Dispatcher} {hp : String} {serviceNames : JsMap Nat}
    (he : d.reapSinglePeer hp serviceNames = .ok d') : Extends d d' := by
  rcases reapSinglePeer_cases he with rfl | ⟨_, hloop, rfl⟩
  · exact Extends.refl _
  · exact (Extends.foldlM _ (Extends.of_routing_eq (routing_modifyPeer _ _ _))
      (fun _ _ _ => Extends.reapService) hloop).trans (Extends.of_routing_eq (routing_modifyPeer _ _ _))

/-- `reapPeers` extends: it keeps every channel and stores relays only for a service with a channel. -/
theorem Extends.reapPeers {d d' : Dispatcher} (he : d.reapPeers = .ok d') : Extends d d' := by
  simp only [Dispatcher.reapPeers] at he
  refine Extends.foldlM _ ?_ (fun _ _ _ he => ?_) he
  · exact Extends.of_routing_eq rfl
  · split at he
    · exact Extends.reapSinglePeer he
    · cases he; exact Extends.refl _

/-- `prunePeers` extends: it keeps every channel and stores relays only for a service with a channel. -/
theorem Extends.prunePeers (d : Dispatcher) : Extends d d.prunePeers :=
  Extends.foldl _ (Extends.of_routing_eq rfl) fun d hp => Extends.of_routing_eq (by split <;> simp)

/-- With the purge period unset, no service expires and a purge tick changes nothing. -/
theorem purgeServices_eq_self {d : Dispatcher} (hp : d.servicePurgePeriod = none) (now : Nat) :
    d.purgeServices now = d := by
  refine foldl_keeps (P := (· = d)) _ rfl fun d' s _ hd => ?_
  split
  · subst hd
    simp [maybePurgeEachService, purgeExpired, hp]
  · exact hd

/-- `deleteRootPeer` extends: it keeps every channel and stores relays only for a service with a channel. -/
theorem Extends.deleteRootPeer (d : Dispatcher) (hp : String) : Extends d (d.deleteRootPeer hp) :=
  ⟨fun s h => by simpa [Dispatcher.deleteRootPeer, JsMap.contains] using h, fun _ h => .inl h,
    rfl⟩

/-- `drainDone` extends: it keeps every channel and stores relays only for a service with a channel. -/
theorem Extends.drainDone (d : Dispatcher) (hp : String) : Extends d (d.drainDone hp) := by
  unfold Dispatcher.drainDone
  split
  · split
    · exact Extends.deleteRootPeer d hp
    · exact Extends.of_routing_eq (routing_modifyPeer _ _ _)
  · exact Extends.refl d

/-- `rateLimitAndDispatch` extends: it keeps every channel and stores relays only for a service with a channel. -/
theorem Extends.rateLimitAndDispatch (d : Dispatcher) (cn rd : Option String) (s s' : String)
    (popped : Bool) (now : Nat) : Extends d (rateLimitAndDispatch cfg d cn rd s s' popped now).2 := by
  simp only [Dispatcher.rateLimitAndDispatch]
  have h₀ : Extends d (if d.rateLimiterEnabled then rateLimit cfg d cn s' now else (.none, d)).2 :=
    Extends.of_routing_eq (by split <;> simp)
  split <;> first
    | exact h₀
    | exact h₀.trans (Extends.getOrCreateServiceChannel cfg _ s')

/-- `handleRequest` extends: it keeps every channel and stores relays only for a service with a channel. -/
theorem Extends.handleRequest (d : Dispatcher) (req : CallRequest) (now : Nat) :
    Extends d (handleRequest cfg d req now).2 := by
  simp only [Dispatcher.handleRequest]
  split_ifs
  · exact Extends.refl d
  · exact Extends.refl d
  · exact Extends.rateLimitAndDispatch cfg d _ _ _ _ _ now

/-- `handleLazily` extends: it keeps every channel and stores relays only for a service with a channel. -/
theorem Extends.handleLazily (d : Dispatcher) (frame : LazyFrame) (now : Nat) :
    Extends d (handleLazily cfg d frame now).2 := by
  simp only [Dispatcher.handleLazily]
  repeat' split
  all_goals first
    | exact Extends.refl d
    | rw [lazyHandOff_snd]; exact Extends.rateLimitAndDispatch cfg d _ _ _ _ _ now

/-- `block` leaves the channel table, the stored relays and the purge period alone. -/
theorem routing_block {d d' : Dispatcher} {cn s : Option String} {now : Nat}
    (he : d.block cn s now = .ok d') : d'.routing = d.routing := by
  unfold block at he; split at he <;> cases he; rfl

/-- `blockRemoteConfig` leaves the channel table, the stored relays and the purge period alone. -/
theorem routing_blockRemoteConfig {d d' : Dispatcher} {cn s : Option String} {now : Nat}
    (he : d.blockRemoteConfig cn s now = .ok d') : d'.routing = d.routing := by
  unfold blockRemoteConfig at he; split at he <;> cases he; rfl

end Scans

/-! ## Every step, and every reachable state -/

section Steps

variable (cfg : Config)

/-- With the purge period unset, every step extends. -/
theorem extends_step {d d' : Dispatcher} (hp : d.servicePurgePeriod = none) {now : Nat}
    {e : Event} (he : step cfg d now e = .ok d') : Extends d d' := by
  cases e <;> simp only [Dispatcher.step] at he
  case refreshServicePeer s hp => cases he; exact Extends.refreshServicePeer cfg d s hp now
  case removeServicePeer => exact Extends.removeServicePeer cfg he
  case updateServiceChannels => cases he; exact Extends.updateServiceChannels cfg d now
  case prunePeers => cases he; exact Extends.prunePeers d
  case reapPeers => exact Extends.reapPeers he
  case purgeServices => cases he; rw [purgeServices_eq_self hp now]; exact Extends.refl _
  case drainDone hp => cases he; exact Extends.drainDone d hp
  case enableCircuits => cases he; exact Extends.enableCircuits d
  case disableCircuits => cases he; exact Extends.disableCircuits d
  case handleRequest req => cases he; exact Extends.handleRequest cfg d req now
  case handleLazily frame => cases he; exact Extends.handleLazily cfg d frame now
  case block => exact Extends.of_routing_eq (routing_block he)
  case blockRemoteConfig => exact Extends.of_routing_eq (routing_blockRemoteConfig he)
  case peerConnected hp => cases he; exact Extends.of_routing_eq (by split <;> rfl)
  case connectionLost hp => cases he; exact Extends.of_routing_eq (routing_modifyPeer _ _ _)
  case unblock cn s => cases he; exact Extends.of_routing_eq (by unfold unblock; split <;> rfl)
  all_goals cases he; exact Extends.of_routing_eq rfl

/-- The sub channels the application makes before the dispatcher starts. -/
def bootstrapChannels : List String := ["autobahn", "ringpop", "hyperbahn"]

/-- The facts of the channel table that hold in every reachable state. -/
structure RoutingInv (d : Dispatcher) : Prop where
  /-- `servicePurgePeriod` is never assigned. -/
  purgeOff : d.servicePurgePeriod = none
  /-- The bootstrap channels exist. -/
  bootstrap : ∀ s ∈ bootstrapChannels, d.subChannels.contains s
  /-- A service with stored relays has a channel. -/
  relays : ∀ s, d.relaysFor.contains s → d.subChannels.contains s

/-- A step that extends keeps the facts of the channel table. -/
theorem RoutingInv.of_extends {d d' : Dispatcher} (h : RoutingInv d) (he : Extends d d') :
    RoutingInv d' where
  purgeOff := he.purge.trans h.purgeOff
  bootstrap s hs := he.channels s (h.bootstrap s hs)
  relays s hs := (he.relays s hs).elim (fun h' => he.channels s (h.relays s h')) id

/-- The dispatcher as constructed satisfies the facts of the channel table. -/
theorem routingInv_init (ring : Ring) : RoutingInv (init ring) where
  purgeOff := rfl
  bootstrap s hs := by simp only [bootstrapChannels, List.mem_cons] at hs; rcases hs with rfl | rfl | rfl | h <;> first | rfl | simp at h
  relays s hs := by simp [init, JsMap.contains] at hs

/-- Every reachable state satisfies the facts of the channel table. -/
theorem routingInv_of_reachable {d : Dispatcher} (hd : Reachable cfg d) : RoutingInv d :=
  Reachable.induct_inv cfg routingInv_init
    (fun _ _ _ _ _ h _ he => h.of_extends (extends_step cfg h.purgeOff he)) hd

/-- Along every run from a reachable state, every service channel stays, relays are stored
only for services with a channel, and the purge period stays unset. -/
theorem extends_of_run {d d' : Dispatcher} (events : List (Nat × Event)) (hd : Reachable cfg d)
    (hpos : ∀ e ∈ events, 0 < e.1) (hrun : run cfg d events = .ok d') : Extends d d' := by
  induction events generalizing d with
  | nil => cases hrun; exact Extends.refl _
  | cons e rest ih =>
    obtain ⟨now, e⟩ := e
    simp only [run] at hrun
    split at hrun
    · rename_i d₁ he
      have hnow := hpos _ (List.mem_cons_self _ _)
      exact (extends_step cfg (routingInv_of_reachable cfg hd).purgeOff he).trans
        (ih (hd.step hnow he) (fun e he => hpos e (List.mem_cons_of_mem _ he)) hrun)
    · cases hrun

/-- One advertisement extends the dispatcher as constructed. -/
theorem extends_of_run_advertised :
    Extends (init (Ring.single "r"))
      (refreshServicePeer (Config.sample "r") (init (Ring.single "r")) "s" "w" 1) :=
  extends_of_run (Config.sample "r") [(1, .refreshServicePeer "s" "w")] (.init _) (by decide) rfl

/-- The three bootstrap channels exist in every reachable state. -/
theorem bootstrapChannels_of_reachable {d : Dispatcher} (hd : Reachable cfg d) :
    ∀ s ∈ bootstrapChannels, d.subChannels.contains s :=
  (routingInv_of_reachable cfg hd).bootstrap

/-- After a run of advertisements, unadvertisements, purger ticks and a ring change, the
`hyperbahn` channel is still there. -/
theorem bootstrapChannels_of_reachable_advertised :
    ∃ d, run (Config.sample "r") (init (Ring.single "r"))
        [(1, .refreshServicePeer "hyperbahn" "w"), (2, .removeServicePeer "hyperbahn" "w"),
          (3, .purgeServices), (4, .egressNodesChanged ⟨fun _ => ["q"]⟩),
          (5, .updateServiceChannels)] = .ok d ∧
      d.subChannels.contains "hyperbahn" := by
  obtain ⟨d, hrun⟩ : ∃ d, run (Config.sample "r") (init (Ring.single "r"))
      [(1, .refreshServicePeer "hyperbahn" "w"), (2, .removeServicePeer "hyperbahn" "w"),
        (3, .purgeServices), (4, .egressNodesChanged ⟨fun _ => ["q"]⟩),
        (5, .updateServiceChannels)] = .ok d := ⟨_, rfl⟩
  exact ⟨d, hrun, bootstrapChannels_of_reachable _ (reachable_run _ (.init _) (by decide) hrun)
    "hyperbahn" (by decide)⟩

end Steps

/-! ## A channel made on first use follows the ring -/

section Create

variable (cfg : Config)

/-- `modifyChannel` leaves the stored relays alone. -/
@[simp]
theorem relaysFor_modifyChannel (d : Dispatcher) (s : String) (f : SubChannel → SubChannel) :
    (d.modifyChannel s f).relaysFor = d.relaysFor := by
  unfold modifyChannel; split <;> rfl

/-- `_getServicePeer` leaves the stored relays alone. -/
@[simp]
theorem relaysFor__getServicePeer (d : Dispatcher) (s hp : String) :
    (d._getServicePeer s hp).relaysFor = d.relaysFor := by
  unfold _getServicePeer; split
  · split <;> rfl
  · rfl

/-- A run of `_getServicePeer` leaves the stored relays alone. -/
theorem relaysFor_foldl__getServicePeer (d : Dispatcher) (s : String) (l : List String) :
    (l.foldl (fun d hp => d._getServicePeer s hp) d).relaysFor = d.relaysFor :=
  foldl_keeps (P := fun d' => d'.relaysFor = d.relaysFor) l rfl fun d hp _ h => by simp [h]

/-- `ensureRelays` keeps the ring. -/
@[simp]
theorem egressNodes_ensureRelays (d : Dispatcher) (s : String) :
    (d.ensureRelays s).egressNodes = d.egressNodes := by
  unfold ensureRelays; split <;> rfl

/-- A change of a channel that keeps its peers keeps the peers of every channel. -/
theorem channelHolds_modifyChannel {f : SubChannel → SubChannel}
    (hf : ∀ ch, (f ch).peers = ch.peers) (d : Dispatcher) (s s' hp : String) :
    (d.modifyChannel s f).channelHolds s' hp = d.channelHolds s' hp := by
  unfold modifyChannel channelHolds
  split
  · rename_i ch hch
    simp only [JsMap.get_set]
    split
    · subst s'; simp [hch, hf]
    · rfl
  · rfl

/-- Adding a peer keeps every mode. -/
@[simp]
theorem channelMode__getServicePeer (d : Dispatcher) (s hp s' : String) :
    (d._getServicePeer s hp).channelMode s' = d.channelMode s' := by
  unfold _getServicePeer
  split
  · split
    · rfl
    · rename_i ch hch _
      simp only [channelMode, JsMap.get_set]
      split
      · subst s'; simp [hch]
      · rfl
  · rfl

/-- Adding a peer to a channel that exists adds it and keeps the others. -/
theorem channelHolds__getServicePeer {d : Dispatcher} {s : String} (hs : d.subChannels.contains s)
    (hp hp' : String) :
    (d._getServicePeer s hp).channelHolds s hp' ↔ d.channelHolds s hp' ∨ hp' = hp := by
  obtain ⟨ch, hch⟩ := Option.isSome_iff_exists.mp hs
  unfold _getServicePeer
  simp only [hch]
  split
  · rename_i hin
    simp only [channelHolds, hch, Option.any_some, List.elem_iff, List.contains] at hin ⊢
    constructor
    · exact .inl
    · rintro (h | rfl) <;> simpa using ‹_›
  · simp [channelHolds, hch]

/-- A run of `_getServicePeer` on an existing channel adds exactly the peers of the run. -/
theorem channelHolds_foldl__getServicePeer {d : Dispatcher} {s : String}
    (hs : d.subChannels.contains s) (l : List String) (hp : String) :
    (l.foldl (fun d hp => d._getServicePeer s hp) d).channelHolds s hp ↔
      d.channelHolds s hp ∨ hp ∈ l := by
  induction l generalizing d with
  | nil => simp
  | cons a l ih =>
    rw [List.foldl_cons, ih ((Extends._getServicePeer d s a).channels s hs),
      channelHolds__getServicePeer hs, List.mem_cons]
    exact or_assoc

/-- A run of `_getServicePeer` keeps every mode. -/
theorem channelMode_foldl__getServicePeer (d : Dispatcher) (s : String) (l : List String)
    (s' : String) : (l.foldl (fun d hp => d._getServicePeer s hp) d).channelMode s' =
      d.channelMode s' :=
  foldl_keeps (P := fun d' => d'.channelMode s' = d.channelMode s') l rfl fun d hp _ h => by
    simp [h]

/-- A service channel made where the service has no stored relays takes its mode, its forward
peers and its relays from the ring. -/
theorem createServiceChannel_follows_ring {d : Dispatcher} {s : String}
    (hr : d.relaysFor.get s = none) :
    (createServiceChannel cfg d s).channelMode s =
      some (if cfg.isExitFor d.egressNodes s then .exit else .forward) ∧
    (∀ hp, (createServiceChannel cfg d s).channelHolds s hp ↔
      cfg.isExitFor d.egressNodes s = false ∧ hp ∈ d.egressNodes.exitsFor s) ∧
    (createServiceChannel cfg d s).relaysFor.get s =
      some (sortStrings (d.egressNodes.exitsFor s)) := by
  have hrel : (d.ensureRelays s).relaysFor.get s = some (sortStrings (d.egressNodes.exitsFor s)) := by
    simp [ensureRelays, hr]
  simp only [createServiceChannel, egressNodes_ensureRelays]
  refine ⟨?_, fun hp => ?_, ?_⟩
  · rw [channelMode_modifyChannel (by intro; rfl)]
    split
    · simp [channelMode, *]
    · rw [channelMode_foldl__getServicePeer]; simp [channelMode, *]
  · rw [channelHolds_modifyChannel (by intro; rfl)]
    split
    · simp [channelHolds, *]
    · rw [channelHolds_foldl__getServicePeer (JsMap.contains_set_self _ _ _)]
      simp [channelHolds, hrel, sortStrings, (List.perm_insertionSort _ _).mem_iff, *]
  · rw [relaysFor_modifyChannel]
    split
    · exact hrel
    · rw [relaysFor_foldl__getServicePeer]; exact hrel

/-- In every reachable state a service channel made for a service that has none takes its mode
from the ring, in forward mode exactly the ring's exits as its peers, and the ring's sorted exits
as its relays: what `updateServiceChannel` derives for an existing channel. -/
theorem createServiceChannel_of_reachable {d : Dispatcher} (hd : Reachable cfg d) {s : String}
    (hs : d.subChannels.get s = none) :
    (createServiceChannel cfg d s).channelMode s =
      some (if cfg.isExitFor d.egressNodes s then .exit else .forward) ∧
    (∀ hp, (createServiceChannel cfg d s).channelHolds s hp ↔
      cfg.isExitFor d.egressNodes s = false ∧ hp ∈ d.egressNodes.exitsFor s) ∧
    (createServiceChannel cfg d s).relaysFor.get s =
      some (sortStrings (d.egressNodes.exitsFor s)) := by
  have hr : d.relaysFor.get s = none := by
    by_contra hne
    have := (routingInv_of_reachable cfg hd).relays s (Option.ne_none_iff_isSome.mp hne)
    simp [JsMap.contains, hs] at this
  exact createServiceChannel_follows_ring cfg hr

/-- A run that advertises `w` for `s`, ticks the purger, then changes the ring so that `q` and
`p` are the exits of `s2` and this relay is not: the channel made for `s2` is a forward with
`q` and `p`. -/
theorem createServiceChannel_of_reachable_ring_change :
    ∃ d, run (Config.sample "r") (init (Ring.single "r"))
        [(1, .refreshServicePeer "s" "w"), (2, .purgeServices),
          (3, .egressNodesChanged ⟨fun s => if s = "s2" then ["q", "p"] else ["r"]⟩),
          (4, .updateServiceChannels)] = .ok d ∧
      d.subChannels.get "s2" = none ∧
      (createServiceChannel (Config.sample "r") d "s2").channelMode "s2" =
        some (if (Config.sample "r").isExitFor d.egressNodes "s2" then .exit else .forward) ∧
      (∀ hp, (createServiceChannel (Config.sample "r") d "s2").channelHolds "s2" hp ↔
        (Config.sample "r").isExitFor d.egressNodes "s2" = false ∧
          hp ∈ d.egressNodes.exitsFor "s2") ∧
      (createServiceChannel (Config.sample "r") d "s2").relaysFor.get "s2" =
        some (sortStrings (d.egressNodes.exitsFor "s2")) := by
  obtain ⟨d, hrun, hs⟩ : ∃ d, run (Config.sample "r") (init (Ring.single "r"))
      [(1, .refreshServicePeer "s" "w"), (2, .purgeServices),
        (3, .egressNodesChanged ⟨fun s => if s = "s2" then ["q", "p"] else ["r"]⟩),
        (4, .updateServiceChannels)] = .ok d ∧ d.subChannels.get "s2" = none :=
    ⟨_, rfl, by decide⟩
  exact ⟨d, hrun, hs,
    createServiceChannel_of_reachable _ (reachable_run _ (.init _) (by decide) hrun) hs⟩

end Create

/-! ## An unadvertised peer is drained whatever channel still holds it -/

section Unadvertise

variable (cfg : Config)

/-- With two channels or more, the loop of `removeServicePeer` makes no pass. -/
theorem remainingServices_of_two_channels {d : Dispatcher} {s₁ s₂ : String} (hne : s₁ ≠ s₂)
    (h₁ : d.subChannels.contains s₁) (h₂ : d.subChannels.contains s₂) (hp : String) :
    remainingServices cfg d hp = .ok [] := by
  unfold remainingServices
  split
  · rename_i k hk
    have e₁ : s₁ ∈ [k] := hk ▸ JsMap.mem_keys.mpr h₁
    have e₂ : s₂ ∈ [k] := hk ▸ JsMap.mem_keys.mpr h₂
    simp only [List.mem_singleton] at e₁ e₂
    exact absurd (e₁.trans e₂.symm) hne
  · rfl

/-- A state that extends a reachable one finds no other channel holding any peer. -/
theorem remainingServices_of_extends {d d' : Dispatcher} (hd : Reachable cfg d)
    (he : Extends d d') (hp : String) : remainingServices cfg d' hp = .ok [] :=
  have h := (routingInv_of_reachable cfg hd).of_extends he
  remainingServices_of_two_channels cfg (by decide : "autobahn" ≠ "ringpop")
    (h.bootstrap _ (by simp [bootstrapChannels])) (h.bootstrap _ (by simp [bootstrapChannels])) hp

/-- Changing a channel leaves the root peers alone. -/
@[simp]
theorem rootPeers_modifyChannel (d : Dispatcher) (s : String) (f : SubChannel → SubChannel) :
    (d.modifyChannel s f).rootPeers = d.rootPeers := by
  unfold modifyChannel; split <;> rfl

/-- `modifyChannel` keeps the partial-affinity flag. -/
@[simp]
theorem partialAffinityEnabled_modifyChannel (d : Dispatcher) (s : String)
    (f : SubChannel → SubChannel) :
    (d.modifyChannel s f).partialAffinityEnabled = d.partialAffinityEnabled := by
  unfold modifyChannel; split <;> rfl

/-- In legacy mode, from every reachable state, unadvertising a root peer from a service with a
channel drains the peer in both directions unless a reap drain is under way, whatever other
channel still holds it. -/
theorem removeServicePeer_drains_of_reachable {d : Dispatcher} (hd : Reachable cfg d)
    {s hp : String} (hs : d.subChannels.contains s) (hr : d.rootPeers.contains hp)
    (hlegacy : d.partialAffinityEnabled = false)
    (hreap : (d.peerDraining hp).all (fun drain => !startsWith drain.reason "reaped")) (now : Nat) :
    ∃ d', removeServicePeer cfg d s hp now = .ok d' ∧
      d'.peerDraining hp = some unadvertisementDrain := by
  obtain ⟨p, hp'⟩ := Option.isSome_iff_exists.mp hr
  have hremain := remainingServices_of_extends cfg hd (Extends.modifyChannel d s
    fun ch => { ch with peers := ch.peers.erase hp }) hp
  simp only [Dispatcher.removeServicePeer, hs, hr, Bool.not_true, Bool.or_false,
    Bool.false_eq_true, ↓reduceIte, partialAffinityEnabled_modifyChannel, hlegacy,
    drainUnadvertised, hremain, List.isEmpty_nil, Bool.not_true]
  have hnot : ((d.modifyChannel s fun ch => { ch with peers := ch.peers.erase hp }).peerDraining
      hp).any (fun drain => startsWith drain.reason "reaped") = false := by
    simp only [peerDraining, rootPeers_modifyChannel] at hreap ⊢
    cases h : (d.rootPeers.get hp).bind (·.draining) <;> simp_all
  simp only [hnot]
  refine ⟨_, rfl, ?_⟩
  simp [peerDraining, modifyPeer, hp']

/-- Unadvertising the worker just advertised drains it. -/
theorem removeServicePeer_drains_of_reachable_advertised :
    ∃ d', removeServicePeer (Config.sample "r")
        (refreshServicePeer (Config.sample "r") (init (Ring.single "r")) "s" "w" 1) "s" "w" 2 =
        .ok d' ∧ d'.peerDraining "w" = some unadvertisementDrain :=
  removeServicePeer_drains_of_reachable _
    (@Reachable.step _ _ _ 1 (.refreshServicePeer "s" "w") (.init _) (by decide) rfl) (by decide)
    (by decide) (by decide) (by decide) 2

/-- The end of an unadvertisement returns from any state that extends a reachable one. -/
theorem drainUnadvertised_ok {d d' : Dispatcher} (hd : Reachable cfg d) (he : Extends d d')
    (hp : String) : ∃ d'', drainUnadvertised cfg d' hp = .ok d'' := by
  simp only [drainUnadvertised, remainingServices_of_extends cfg hd he hp, List.isEmpty_nil,
    Bool.not_true, Bool.false_eq_true, ↓reduceIte]
  split
  · exact ⟨_, rfl⟩
  · exact ⟨_, rfl⟩

/-- From every reachable state an unadvertisement returns: the one loop that could throw, over
a single sub channel, never runs. -/
theorem removeServicePeer_ok_of_reachable {d : Dispatcher} (hd : Reachable cfg d) (s hp : String)
    (now : Nat) : ∃ d', removeServicePeer cfg d s hp now = .ok d' := by
  simp only [Dispatcher.removeServicePeer]
  split
  · exact ⟨d, rfl⟩
  · exact drainUnadvertised_ok cfg hd (iteInduction (motive := Extends d)
      (fun _ => (Extends.modifyChannel d s _).trans (Extends.unadvertisePartially cfg _ s hp now))
      (fun _ => Extends.modifyChannel d s _)) hp

/-- From every reachable state every event returns, except a tick of the reaper and the two
calls that assert a caller or a service name. -/
theorem step_ok_of_reachable {d : Dispatcher} (hd : Reachable cfg d) (now : Nat) {e : Event}
    (hreap : e ≠ .reapPeers) (hblock : ∀ cn s, e ≠ .block cn s)
    (hremote : ∀ cn s, e ≠ .blockRemoteConfig cn s) : ∃ d', step cfg d now e = .ok d' := by
  cases e
  case removeServicePeer s hp => exact removeServicePeer_ok_of_reachable cfg hd s hp now
  case reapPeers => exact absurd rfl hreap
  case block cn s => exact absurd rfl (hblock cn s)
  case blockRemoteConfig cn s => exact absurd rfl (hremote cn s)
  all_goals exact ⟨_, rfl⟩

/-- After `w` is advertised for `s1` and `s2`, unadvertising it from `s1` returns: the scan for
the other channels that hold it never runs. -/
theorem step_ok_of_reachable_unadvertise :
    ∃ d, run (Config.sample "r") (init (Ring.single "r"))
        [(1, .refreshServicePeer "s1" "w"), (2, .refreshServicePeer "s2" "w")] = .ok d ∧
      ∃ d', step (Config.sample "r") d 3 (.removeServicePeer "s1" "w") = .ok d' := by
  obtain ⟨d, hrun⟩ : ∃ d, run (Config.sample "r") (init (Ring.single "r"))
      [(1, .refreshServicePeer "s1" "w"), (2, .refreshServicePeer "s2" "w")] = .ok d := ⟨_, rfl⟩
  exact ⟨d, hrun, step_ok_of_reachable _ (reachable_run _ (.init _) (by decide) hrun) 3
    (fun h => by cases h) (fun _ _ h => by cases h) (fun _ _ h => by cases h)⟩

/-- In legacy mode, unadvertising `w` from `s1` drains it while the channel of `s2` still holds it. -/
theorem removeServicePeer_drains_peer_held_by_other_channel :
    ∃ d₁ d₂, Reachable (Config.sample "r") d₁ ∧
      step (Config.sample "r") d₁ 3 (.removeServicePeer "s1" "w") = .ok d₂ ∧
      (d₂.channelHolds "s2" "w" && d₂.peerDraining "w" == some unadvertisementDrain) = true :=
  exists_step_of_runThenStep _ [(1, .refreshServicePeer "s1" "w"), (2, .refreshServicePeer "s2" "w")]
    (.init (Ring.single "r")) (by decide) (by decide)

end Unadvertise

end Dispatcher

end Hyperbahn
