import Hyperbahn.Dispatcher.Step

/-!
# What the blocking tables block

The operator table and the remote-config table map keys `cn~~sn` to the time of the block.
This module says what a sequence of calls of the blocking API leaves blocked, read two ways.

* `BlockedKeys` holds the keys each table blocks: `block` and `blockRemoteConfig` add the joined
  key of a pair, `unblock` removes the joined key of a pair from the operator table, and
  `unblockAllRemoteConfig` empties the remote-config table. `Refines` relates a dispatcher to it:
  a key has a truthy time stamp in a table exactly when the abstract table holds it. Every call
  at a positive time keeps the relation (`Refines.step`), so every run of calls does
  (`Refines.run`), and `isBlocked` reads the three keys of a query in the abstract tables
  (`Refines.isBlocked_eq`). From tables that are both `null`, `isBlocked_eq_blocks_of_run` is the
  result.
* `BlockedPairs` reads the same history pair by pair, as the pairs `(c, s)` blocked and not since
  lifted. The two readings part on caller names that contain `~`, since joining the names around
  `~~` sends distinct pairs to one key (`isBlocked_of_colliding_key`). When no caller name has a
  `~`, a key names one pair (`pairKey_inj`), and the two readings agree
  (`isBlocked_eq_pairBlocks_of_run`).
-/

namespace Hyperbahn

/-- A call of the blocking API of the dispatcher. -/
inductive BlockCall
  | block (cn serviceName : Option String)
  | unblock (cn serviceName : Option String)
  | blockRemoteConfig (cn serviceName : Option String)
  | unblockAllRemoteConfig
deriving DecidableEq, Repr

namespace BlockCall

/-- The event of the dispatcher that makes the call. -/
def toEvent : BlockCall → Event
  | .block cn serviceName => .block cn serviceName
  | .unblock cn serviceName => .unblock cn serviceName
  | .blockRemoteConfig cn serviceName => .blockRemoteConfig cn serviceName
  | .unblockAllRemoteConfig => .unblockAllRemoteConfig

/-- The caller name of a call, with a missing name read as `*`; `unblockAllRemoteConfig` names
none. -/
def callerName : BlockCall → Option String
  | .block cn _ | .unblock cn _ | .blockRemoteConfig cn _ => some (orWildcard cn)
  | .unblockAllRemoteConfig => none

end BlockCall

/-- The key of a pair in the blocking tables. -/
def pairKey (p : String × String) : String := p.1 ++ "~~" ++ p.2

/-- The pair a call names, with a missing or empty name read as `*`. -/
def blockPair (cn serviceName : Option String) : String × String :=
  (orWildcard cn, orWildcard serviceName)

/-- The pair `(*, *)`, which `block` and `blockRemoteConfig` refuse. -/
def IsWildcardPair (p : String × String) : Prop := p.1 = "*" ∧ p.2 = "*"

instance (p : String × String) : Decidable (IsWildcardPair p) := inferInstanceAs (Decidable (_ ∧ _))

/-- The three keys `isBlocked` looks up for a query: `cn~~sn`, `*~~sn` and `cn~~*`. -/
def queryKeys (cn serviceName : Option String) : List String :=
  [orWildcard cn ++ "~~" ++ orWildcard serviceName, "*~~" ++ orWildcard serviceName,
    orWildcard cn ++ "~~*"]

theorem queryKeys_eq (cn serviceName : Option String) :
    queryKeys cn serviceName = [pairKey (blockPair cn serviceName),
      pairKey ("*", orWildcard serviceName), pairKey (orWildcard cn, "*")] := by
  simp only [queryKeys, pairKey, blockPair, String.append_assoc]
  rfl

/-! ## The abstract tables -/

/-- The keys the operator table and the remote-config table block. -/
structure BlockedKeys where
  /-- The keys of the operator table. -/
  operator : List String
  /-- The keys of the remote-config table. -/
  remote : List String
deriving DecidableEq, Repr

namespace BlockedKeys

/-- The keys blocked after one call; a refused call blocks nothing. -/
def apply (b : BlockedKeys) : BlockCall → BlockedKeys
  | .block cn sn =>
    if IsWildcardPair (blockPair cn sn) then b
    else { b with operator := pairKey (blockPair cn sn) :: b.operator }
  | .unblock cn sn => { b with operator := b.operator.filter (· ≠ pairKey (blockPair cn sn)) }
  | .blockRemoteConfig cn sn =>
    if IsWildcardPair (blockPair cn sn) then b
    else { b with remote := pairKey (blockPair cn sn) :: b.remote }
  | .unblockAllRemoteConfig => { b with remote := [] }

/-- The keys blocked after a history of calls, from two empty tables. -/
def replay (calls : List BlockCall) : BlockedKeys := calls.foldl apply ⟨[], []⟩

/-- Whether the operator table, or else the remote-config table, blocks one of the keys of the
query. -/
def blocks (b : BlockedKeys) (cn serviceName : Option String) : Bool :=
  (queryKeys cn serviceName).any b.operator.contains ||
    (queryKeys cn serviceName).any b.remote.contains

end BlockedKeys

/-- The pairs the operator table and the remote-config table block. -/
structure BlockedPairs where
  /-- The pairs of the operator table. -/
  operator : List (String × String)
  /-- The pairs of the remote-config table. -/
  remote : List (String × String)
deriving DecidableEq, Repr

namespace BlockedPairs

/-- The pairs blocked after one call: `unblock` lifts the pair it names; a refused call blocks
nothing. -/
def apply (b : BlockedPairs) : BlockCall → BlockedPairs
  | .block cn sn =>
    if IsWildcardPair (blockPair cn sn) then b
    else { b with operator := blockPair cn sn :: b.operator }
  | .unblock cn sn => { b with operator := b.operator.filter (· ≠ blockPair cn sn) }
  | .blockRemoteConfig cn sn =>
    if IsWildcardPair (blockPair cn sn) then b
    else { b with remote := blockPair cn sn :: b.remote }
  | .unblockAllRemoteConfig => { b with remote := [] }

/-- The pairs blocked after a history of calls, from two empty tables. -/
def replay (calls : List BlockCall) : BlockedPairs := calls.foldl apply ⟨[], []⟩

/-- Whether a blocked pair `(c, s)` has `c` the caller of the query or `*`, and `s` its service
or `*`. -/
def blocks (b : BlockedPairs) (cn serviceName : Option String) : Bool :=
  (b.operator ++ b.remote).any fun p =>
    (p.1 == orWildcard cn || p.1 == "*") && (p.2 == orWildcard serviceName || p.2 == "*")

/-- The keys of the blocked pairs. -/
def keys (b : BlockedPairs) : BlockedKeys := ⟨b.operator.map pairKey, b.remote.map pairKey⟩

end BlockedPairs

namespace Dispatcher

variable (cfg : Config)

/-! ## The dispatcher refines the abstract tables -/

section Refinement

/-- Whether a table holds a truthy time stamp at a key. -/
def tableHolds (table : Option (JsMap Nat)) (k : String) : Bool :=
  (table.bind (·.get k)).any (· ≠ 0)

theorem tableBlocks_eq (table : Option (JsMap Nat)) (cn serviceName : String) :
    tableBlocks table cn serviceName =
      [cn ++ "~~" ++ serviceName, "*~~" ++ serviceName, cn ++ "~~*"].any (tableHolds table) := by
  cases table <;> rfl

theorem tableHolds_set {now : Nat} (hnow : 0 < now) (table : Option (JsMap Nat)) (key k : String) :
    tableHolds (some ((table.getD ∅).set key now)) k = (decide (k = key) || tableHolds table k) := by
  by_cases hk : k = key
  · simp [tableHolds, hk, hnow.ne']
  · cases table <;> simp [tableHolds, hk]

theorem tableHolds_delete (table : JsMap Nat) (key k : String) :
    tableHolds (if (table.delete key).isEmpty then none else some (table.delete key)) k =
      (!decide (k = key) && tableHolds (some table) k) := by
  have hdel : tableHolds (some (table.delete key)) k =
      (!decide (k = key) && tableHolds (some table) k) := by
    by_cases hk : k = key <;> simp [tableHolds, hk]
  split
  · rename_i hempty
    rw [← hdel]
    simp [tableHolds, JsMap.isEmpty_iff.mp hempty k]
  · exact hdel

/-- A dispatcher whose tables block exactly the keys of `b`, each with a truthy time stamp. -/
structure Refines (d : Dispatcher) (b : BlockedKeys) : Prop where
  /-- The operator table. -/
  operator : ∀ k, tableHolds d.blockingTable k = b.operator.contains k
  /-- The remote-config table. -/
  remote : ∀ k, tableHolds d.blockingTableRemoteConfig k = b.remote.contains k

/-- `isBlocked` reads the three keys of the query in the abstract tables. -/
theorem Refines.isBlocked_eq {d : Dispatcher} {b : BlockedKeys} (h : Refines d b)
    (cn serviceName : Option String) : d.isBlocked cn serviceName = b.blocks cn serviceName := by
  rw [isBlocked, tableBlocks_eq, tableBlocks_eq, funext h.operator, funext h.remote]
  rfl

/-- Every call of the blocking API that returns keeps the relation. -/
theorem Refines.step {d d' : Dispatcher} {b : BlockedKeys} (h : Refines d b) {now : Nat}
    (hnow : 0 < now) {c : BlockCall} (he : Dispatcher.step cfg d now c.toEvent = .ok d') :
    Refines d' (b.apply c) := by
  cases c with
  | block cn sn =>
    simp only [BlockCall.toEvent, Dispatcher.step, block] at he
    split at he
    · cases he
    · rename_i hw
      cases he
      have hw' : ¬IsWildcardPair (blockPair cn sn) := by simpa [IsWildcardPair, blockPair] using hw
      rw [BlockedKeys.apply, if_neg hw']
      exact ⟨fun k => by simp [tableHolds_set hnow, h.operator, blockPair, pairKey], h.remote⟩
  | unblock cn sn =>
    simp only [BlockCall.toEvent, Dispatcher.step, Except.ok.injEq] at he
    subst he
    rw [BlockedKeys.apply]
    refine ⟨fun k => ?_, fun k => ?_⟩
    · unfold unblock
      split
      · rename_i table htable
        dsimp only
        rw [tableHolds_delete, ← htable, h.operator]
        simp [blockPair, pairKey, Bool.and_comm]
      · rename_i htable
        have hk : k ∉ b.operator := by simpa [htable, tableHolds] using (h.operator k).symm
        simp [htable, tableHolds, hk]
    · unfold unblock
      split <;> exact h.remote k
  | blockRemoteConfig cn sn =>
    simp only [BlockCall.toEvent, Dispatcher.step, blockRemoteConfig] at he
    split at he
    · cases he
    · rename_i hw
      cases he
      have hw' : ¬IsWildcardPair (blockPair cn sn) := by simpa [IsWildcardPair, blockPair] using hw
      rw [BlockedKeys.apply, if_neg hw']
      exact ⟨h.operator, fun k => by simp [tableHolds_set hnow, h.remote, blockPair, pairKey]⟩
  | unblockAllRemoteConfig =>
    simp only [BlockCall.toEvent, Dispatcher.step, Except.ok.injEq] at he
    subst he
    exact ⟨h.operator, fun k => rfl⟩

/-- A run of calls at positive times keeps the relation. -/
theorem Refines.run {d d' : Dispatcher} {b : BlockedKeys} (h : Refines d b)
    (calls : List (Nat × BlockCall)) (hpos : ∀ c ∈ calls, 0 < c.1)
    (hrun : Dispatcher.run cfg d (calls.map fun c => (c.1, c.2.toEvent)) = .ok d') :
    Refines d' ((calls.map (·.2)).foldl BlockedKeys.apply b) := by
  induction calls generalizing d b with
  | nil => cases hrun; exact h
  | cons c calls ih =>
    simp only [List.map_cons, Dispatcher.run] at hrun
    split at hrun
    · exact ih (h.step cfg (hpos c (List.mem_cons_self _ _)) ‹_›)
        (fun c hc => hpos c (List.mem_cons_of_mem _ hc)) hrun
    · cases hrun

/-- `blockRemoteConfig` returns exactly when the pair it names is not `(*, *)`. -/
theorem blockRemoteConfig_ok_iff (d : Dispatcher) (cn sn : Option String) (now : Nat) :
    (∃ d', d.blockRemoteConfig cn sn now = .ok d') ↔ ¬IsWildcardPair (blockPair cn sn) := by
  unfold blockRemoteConfig
  split <;> rename_i h <;> simp only [Bool.and_eq_true, decide_eq_true_eq] at h <;>
    simp [IsWildcardPair, blockPair, h]

theorem refines_of_null {d : Dispatcher} (h : d.blockingTable = none)
    (h' : d.blockingTableRemoteConfig = none) : Refines d ⟨[], []⟩ :=
  ⟨fun k => by simp [tableHolds, h], fun k => by simp [tableHolds, h']⟩

/-- From two `null` tables, after any run of calls of the blocking API at positive times,
`isBlocked` is true exactly when one of the keys `cn'~~sn'`, `*~~sn'`, `cn'~~*` of the query
was blocked and not since lifted. -/
theorem isBlocked_eq_blocks_of_run {d d' : Dispatcher} (h : d.blockingTable = none)
    (h' : d.blockingTableRemoteConfig = none) (calls : List (Nat × BlockCall))
    (hpos : ∀ c ∈ calls, 0 < c.1)
    (hrun : run cfg d (calls.map fun c => (c.1, c.2.toEvent)) = .ok d')
    (cn serviceName : Option String) :
    d'.isBlocked cn serviceName = (BlockedKeys.replay (calls.map (·.2))).blocks cn serviceName :=
  ((refines_of_null h h').run cfg calls hpos hrun).isBlocked_eq cn serviceName

/-- A history of six calls on both tables, with a block lifted and the remote-config table
cleared and refilled, asked about a pair blocked twice. -/
theorem isBlocked_eq_blocks_of_run_history :
    ∃ d', run (Config.sample "r") (init (Ring.single "r"))
        ([(1, BlockCall.block (some "a") none), (2, .blockRemoteConfig none (some "b")),
          (3, .block (some "c") (some "b")), (4, .unblock (some "a") none),
          (5, .unblockAllRemoteConfig), (6, .blockRemoteConfig (some "c") none)].map fun c => (c.1, c.2.toEvent)) = .ok d' ∧
      d'.isBlocked (some "c") (some "b") =
        (BlockedKeys.replay ([(1, BlockCall.block (some "a") none), (2, .blockRemoteConfig none (some "b")),
          (3, .block (some "c") (some "b")), (4, .unblock (some "a") none),
          (5, .unblockAllRemoteConfig), (6, .blockRemoteConfig (some "c") none)].map (·.2))).blocks (some "c") (some "b") := by
  obtain ⟨d', hrun⟩ : ∃ d', run (Config.sample "r") (init (Ring.single "r"))
      ([(1, BlockCall.block (some "a") none), (2, .blockRemoteConfig none (some "b")),
          (3, .block (some "c") (some "b")), (4, .unblock (some "a") none),
          (5, .unblockAllRemoteConfig), (6, .blockRemoteConfig (some "c") none)].map fun c => (c.1, c.2.toEvent)) = .ok d' := ⟨_, rfl⟩
  exact ⟨d', hrun, isBlocked_eq_blocks_of_run _ rfl rfl _ (by decide) hrun _ _⟩

end Refinement

/-! ## Keys against pairs -/

section Pairs

theorem append_cons_inj_of_not_mem {a : Char} :
    ∀ {l₁ l₂ r₁ r₂ : List Char}, a ∉ l₁ → a ∉ l₂ → l₁ ++ a :: r₁ = l₂ ++ a :: r₂ →
      l₁ = l₂ ∧ r₁ = r₂
  | [], [], _, _, _, _, h => ⟨rfl, (List.cons.inj h).2⟩
  | [], b :: _, _, _, _, h₂, h => absurd ((List.cons.inj h).1 ▸ List.mem_cons_self _ _) h₂
  | b :: _, [], _, _, h₁, _, h => absurd ((List.cons.inj h).1 ▸ List.mem_cons_self _ _) h₁
  | b :: l₁, c :: l₂, _, _, h₁, h₂, h => by
    rw [List.cons_append, List.cons_append, List.cons.injEq] at h
    obtain ⟨rfl, h⟩ := h
    obtain ⟨rfl, rfl⟩ := append_cons_inj_of_not_mem (fun hm => h₁ (List.mem_cons_of_mem _ hm))
      (fun hm => h₂ (List.mem_cons_of_mem _ hm)) h
    exact ⟨rfl, rfl⟩

/-- When the callers have no `~`, the key of a pair names that pair only. -/
theorem pairKey_inj {p q : String × String} (hp : '~' ∉ p.1.data) (hq : '~' ∉ q.1.data) :
    pairKey p = pairKey q ↔ p = q := by
  refine ⟨fun h => ?_, congrArg pairKey⟩
  have h := congrArg String.data h
  simp only [pairKey, String.data_append, List.append_assoc] at h
  obtain ⟨h₁, h₂⟩ := append_cons_inj_of_not_mem hp hq h
  exact Prod.ext (String.ext h₁) (String.ext (List.cons.inj h₂).2)

/-- Pairs whose callers have no `~`, none of them `(*, *)`. -/
def PlainPairs (l : List (String × String)) : Prop :=
  ∀ p ∈ l, '~' ∉ p.1.data ∧ ¬IsWildcardPair p

/-- A call whose caller has no `~`. -/
def PlainCall (c : BlockCall) : Prop := ∀ n ∈ c.callerName, '~' ∉ n.data

instance : DecidablePred PlainCall := fun c =>
  inferInstanceAs (Decidable (∀ n ∈ c.callerName, '~' ∉ n.data))

theorem filter_map_pairKey {l : List (String × String)} (hl : PlainPairs l) {q : String × String}
    (hq : '~' ∉ q.1.data) :
    (l.filter (· ≠ q)).map pairKey = (l.map pairKey).filter (· ≠ pairKey q) := by
  rw [List.filter_map]
  congr 1
  refine List.filter_congr fun p hp => ?_
  simp [pairKey_inj (hl p hp).1 hq]

/-- On plain pairs, a call of the blocking API acts on the keys as on the pairs. -/
theorem BlockedPairs.keys_apply {b : BlockedPairs} (hop : PlainPairs b.operator)
    (hrem : PlainPairs b.remote) {c : BlockCall} (hc : PlainCall c) :
    (b.apply c).keys = b.keys.apply c ∧ PlainPairs (b.apply c).operator ∧
      PlainPairs (b.apply c).remote := by
  cases c with
  | block cn sn =>
    have hcn : '~' ∉ (blockPair cn sn).1.data := hc _ rfl
    by_cases hw : IsWildcardPair (blockPair cn sn)
    · rw [BlockedPairs.apply, BlockedKeys.apply, if_pos hw, if_pos hw]
      exact ⟨rfl, hop, hrem⟩
    · rw [BlockedPairs.apply, BlockedKeys.apply, if_neg hw, if_neg hw]
      refine ⟨rfl, ?_, hrem⟩
      simpa [PlainPairs, hcn, hw] using hop
  | unblock cn sn =>
    have hcn : '~' ∉ (blockPair cn sn).1.data := hc _ rfl
    refine ⟨?_, fun p hp => hop p (List.mem_of_mem_filter hp), hrem⟩
    simp only [BlockedPairs.apply, BlockedKeys.apply, BlockedPairs.keys]
    rw [filter_map_pairKey hop hcn]
  | blockRemoteConfig cn sn =>
    have hcn : '~' ∉ (blockPair cn sn).1.data := hc _ rfl
    by_cases hw : IsWildcardPair (blockPair cn sn)
    · rw [BlockedPairs.apply, BlockedKeys.apply, if_pos hw, if_pos hw]
      exact ⟨rfl, hop, hrem⟩
    · rw [BlockedPairs.apply, BlockedKeys.apply, if_neg hw, if_neg hw]
      refine ⟨rfl, hop, ?_⟩
      simpa [PlainPairs, hcn, hw] using hrem
  | unblockAllRemoteConfig => exact ⟨rfl, hop, by simp [BlockedPairs.apply, PlainPairs]⟩

theorem BlockedPairs.keys_foldl {b : BlockedPairs} (hop : PlainPairs b.operator)
    (hrem : PlainPairs b.remote) (calls : List BlockCall) (hc : ∀ c ∈ calls, PlainCall c) :
    (calls.foldl BlockedPairs.apply b).keys = calls.foldl BlockedKeys.apply b.keys ∧
      PlainPairs (calls.foldl BlockedPairs.apply b).operator ∧
      PlainPairs (calls.foldl BlockedPairs.apply b).remote := by
  induction calls generalizing b with
  | nil => exact ⟨rfl, hop, hrem⟩
  | cons c calls ih =>
    obtain ⟨hkeys, hop', hrem'⟩ := keys_apply hop hrem (hc c (List.mem_cons_self _ _))
    simp only [List.foldl_cons, ← hkeys]
    exact ih hop' hrem' fun c hmem => hc c (List.mem_cons_of_mem _ hmem)

/-- A query blocks on the keys of plain pairs exactly when it matches one of the pairs. -/
theorem any_pairKey_iff {l : List (String × String)} (hl : PlainPairs l) {cn : Option String}
    (hcn : '~' ∉ (orWildcard cn).data) (serviceName : Option String) :
    (queryKeys cn serviceName).any (l.map pairKey).contains =
      l.any fun p => (p.1 == orWildcard cn || p.1 == "*") &&
        (p.2 == orWildcard serviceName || p.2 == "*") := by
  have hstar : '~' ∉ "*".data := by decide
  rw [Bool.eq_iff_iff, queryKeys_eq]
  simp only [blockPair, List.any_cons, List.any_nil, Bool.or_false, Bool.or_eq_true,
    List.elem_iff, List.contains, List.mem_map, List.any_eq_true, Bool.and_eq_true, beq_iff_eq]
  constructor
  · rintro (⟨p, hp, hk⟩ | ⟨p, hp, hk⟩ | ⟨p, hp, hk⟩)
    · obtain rfl := (pairKey_inj (hl p hp).1 hcn).mp hk
      exact ⟨_, hp, .inl rfl, .inl rfl⟩
    · obtain rfl := (pairKey_inj (hl p hp).1 hstar).mp hk
      exact ⟨_, hp, .inr rfl, .inl rfl⟩
    · obtain rfl := (pairKey_inj (hl p hp).1 hcn).mp hk
      exact ⟨_, hp, .inl rfl, .inr rfl⟩
  · rintro ⟨⟨c, s⟩, hp, hc, hs⟩
    have hw := (hl _ hp).2
    simp only at hc hs
    rcases hc with rfl | rfl <;> rcases hs with rfl | rfl
    · exact .inl ⟨_, hp, rfl⟩
    · exact .inr (.inr ⟨_, hp, rfl⟩)
    · exact .inr (.inl ⟨_, hp, rfl⟩)
    · exact absurd ⟨rfl, rfl⟩ hw

theorem BlockedPairs.blocks_eq {b : BlockedPairs} (hop : PlainPairs b.operator)
    (hrem : PlainPairs b.remote) {cn : Option String} (hcn : '~' ∉ (orWildcard cn).data)
    (serviceName : Option String) :
    b.keys.blocks cn serviceName = b.blocks cn serviceName := by
  rw [BlockedKeys.blocks, BlockedPairs.keys, BlockedPairs.blocks, List.any_append]
  exact congrArg₂ (· || ·) (any_pairKey_iff hop hcn serviceName) (any_pairKey_iff hrem hcn serviceName)

/-- From two `null` tables, after any run of calls of the blocking API at positive times whose
callers have no `~`, `isBlocked` is true exactly when a blocked pair `(c, s)` has `c` the caller
of the query or `*`, and `s` its service or `*`. -/
theorem isBlocked_eq_pairBlocks_of_run {d d' : Dispatcher} (h : d.blockingTable = none)
    (h' : d.blockingTableRemoteConfig = none) (calls : List (Nat × BlockCall))
    (hpos : ∀ c ∈ calls, 0 < c.1) (hplain : ∀ c ∈ calls, PlainCall c.2)
    (hrun : run cfg d (calls.map fun c => (c.1, c.2.toEvent)) = .ok d')
    {cn : Option String} (hcn : '~' ∉ (orWildcard cn).data) (serviceName : Option String) :
    d'.isBlocked cn serviceName =
      (BlockedPairs.replay (calls.map (·.2))).blocks cn serviceName := by
  have hnil : PlainPairs [] := fun _ h => absurd h (List.not_mem_nil _)
  obtain ⟨hkeys, hop, hrem⟩ := BlockedPairs.keys_foldl (b := ⟨[], []⟩) hnil hnil
    (calls.map (·.2)) fun c hc => by
      obtain ⟨_, hmem, rfl⟩ := List.mem_map.mp hc
      exact hplain _ hmem
  rw [((refines_of_null h h').run cfg calls hpos hrun).isBlocked_eq, BlockedPairs.replay,
    ← BlockedPairs.blocks_eq hop hrem hcn, hkeys]
  rfl

/-- The same history, asked about a caller the lifted block named. -/
theorem isBlocked_eq_pairBlocks_of_run_history :
    ∃ d', run (Config.sample "r") (init (Ring.single "r"))
        ([(1, BlockCall.block (some "a") none), (2, .blockRemoteConfig none (some "b")),
          (3, .block (some "c") (some "b")), (4, .unblock (some "a") none),
          (5, .unblockAllRemoteConfig), (6, .blockRemoteConfig (some "c") none)].map fun c => (c.1, c.2.toEvent)) = .ok d' ∧
      d'.isBlocked (some "a") (some "b") =
        (BlockedPairs.replay ([(1, BlockCall.block (some "a") none), (2, .blockRemoteConfig none (some "b")),
          (3, .block (some "c") (some "b")), (4, .unblock (some "a") none),
          (5, .unblockAllRemoteConfig), (6, .blockRemoteConfig (some "c") none)].map (·.2))).blocks (some "a") (some "b") := by
  obtain ⟨d', hrun⟩ : ∃ d', run (Config.sample "r") (init (Ring.single "r"))
      ([(1, BlockCall.block (some "a") none), (2, .blockRemoteConfig none (some "b")),
          (3, .block (some "c") (some "b")), (4, .unblock (some "a") none),
          (5, .unblockAllRemoteConfig), (6, .blockRemoteConfig (some "c") none)].map fun c => (c.1, c.2.toEvent)) = .ok d' := ⟨_, rfl⟩
  exact ⟨d', hrun, isBlocked_eq_pairBlocks_of_run _ rfl rfl _ (by decide) (by decide) hrun
    (by decide) _⟩

/-- A caller name with `~` joins into the key of another pair: a block on `(a~~b, c)` blocks the
query `(a, b~~c)`, and an unblock of `(a, b~~c)` lifts the block on `(a~~b, c)`. -/
theorem isBlocked_of_colliding_key :
    (∃ d, run (Config.sample "r") (init (Ring.single "r"))
        [(1, .block (some "a~~b") (some "c"))] = .ok d ∧
      d.isBlocked (some "a") (some "b~~c") = true ∧
      (BlockedPairs.replay [.block (some "a~~b") (some "c")]).blocks (some "a") (some "b~~c") =
        false) ∧
    (∃ d, run (Config.sample "r") (init (Ring.single "r"))
        [(1, .block (some "a~~b") (some "c")), (2, .unblock (some "a") (some "b~~c"))] = .ok d ∧
      d.isBlocked (some "a~~b") (some "c") = false ∧
      (BlockedPairs.replay [.block (some "a~~b") (some "c"), .unblock (some "a") (some "b~~c")]).blocks
        (some "a~~b") (some "c") = true) :=
  ⟨⟨_, rfl, by decide, by decide⟩, ⟨_, rfl, by decide, by decide⟩⟩

end Pairs

end Dispatcher

end Hyperbahn
