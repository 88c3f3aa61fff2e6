import Mathlib

/-!
# JavaScript objects, strings and sorting

The dispatcher keeps its state in JavaScript objects made by `Object.create(null)` and keyed by
strings. This module models such an object as its list of own properties in insertion order
(`JsMap`), with the key order of `Object.keys`, the truthiness tests the source applies to
property values, and the two-level index helpers `addIndexEntry` and `deleteIndexEntry` of the
dispatcher. It also models the default `Array.prototype.sort` on strings, which compares UTF-16
code units, and the few string operations the dispatcher uses.
-/

namespace Hyperbahn

/-- A JavaScript object used as a string-keyed map: its own properties in insertion order. -/
structure JsMap (α : Type) where
  /-- The own properties, oldest first. -/
  entries : List (String × α)
  /-- An object holds each key once. -/
  nodup : (entries.map Prod.fst).Nodup

namespace JsMap

variable {α : Type}

/-- The empty object `Object.create(null)`. -/
def empty : JsMap α := ⟨[], List.nodup_nil⟩

instance : EmptyCollection (JsMap α) := ⟨empty⟩

/-- The value of the first entry with key `k`. -/
def lookupKey (k : String) : List (String × α) → Option α
  | [] => none
  | p :: ps => if p.1 = k then some p.2 else lookupKey k ps

/-- `obj[k]`, with `none` for `undefined`. -/
def get (m : JsMap α) (k : String) : Option α := lookupKey k m.entries

/-- Whether `obj` has the own property `k`. -/
def contains (m : JsMap α) (k : String) : Bool := (m.get k).isSome

/-- `obj[k] = v`: an existing property keeps its place, a new one goes last. -/
def set (m : JsMap α) (k : String) (v : α) : JsMap α :=
  if h : m.entries.any (fun p => p.1 = k) then
    ⟨m.entries.map (fun p => if p.1 = k then (k, v) else p), by
      rw [List.map_map]
      convert m.nodup using 2
      funext p
      by_cases hp : p.1 = k <;> simp [hp]⟩
  else
    ⟨m.entries ++ [(k, v)], by
      rw [List.map_append, List.nodup_append]
      refine ⟨m.nodup, List.nodup_singleton _, ?_⟩
      simp only [List.any_eq_true, decide_eq_true_eq, not_exists, not_and] at h
      simpa using fun x hx => h (k, x) hx rfl⟩

/-- `delete obj[k]`. -/
def delete (m : JsMap α) (k : String) : JsMap α :=
  ⟨m.entries.filter (fun p => p.1 ≠ k), m.nodup.sublist ((List.filter_sublist _).map _)⟩

/-- Whether the object has no own property: `isObjectEmpty` of the source. -/
def isEmpty (m : JsMap α) : Bool := m.entries.isEmpty

@[simp]
theorem get_empty (k : String) : (∅ : JsMap α).get k = none := rfl

private theorem lookupKey_filter (k k' : String) (l : List (String × α)) :
    lookupKey k' (l.filter fun p => p.1 ≠ k) = if k' = k then none else lookupKey k' l := by
  induction l with
  | nil => simp [lookupKey]
  | cons p ps ih =>
    by_cases hp : p.1 = k <;> by_cases hp' : p.1 = k' <;>
      simp_all [lookupKey, List.filter_cons]

private theorem lookupKey_map_ne {k k' : String} (v : α) (l : List (String × α))
    (hk' : k' ≠ k) :
    lookupKey k' (l.map fun p => if p.1 = k then (k, v) else p) = lookupKey k' l := by
  induction l with
  | nil => rfl
  | cons p ps ih =>
    by_cases hp : p.1 = k
    · have : p.1 ≠ k' := fun h => hk' (h.symm.trans hp)
      simp [lookupKey, hp, Ne.symm hk', this, ih]
    · simp [lookupKey, hp, ih]

private theorem lookupKey_map (k k' : String) (v : α) (l : List (String × α))
    (hk : l.any (fun p => p.1 = k)) :
    lookupKey k' (l.map fun p => if p.1 = k then (k, v) else p) =
      if k' = k then some v else lookupKey k' l := by
  split
  · subst k'
    induction l with
    | nil => simp at hk
    | cons p ps ih =>
      by_cases hp : p.1 = k
      · simp [lookupKey, hp]
      · simp only [List.any_cons, hp, decide_False, Bool.false_or] at hk
        simp [lookupKey, hp, ih hk]
  · exact lookupKey_map_ne v l ‹_›

private theorem lookupKey_append (k k' : String) (v : α) (l : List (String × α))
    (hk : ¬ l.any (fun p => p.1 = k)) :
    lookupKey k' (l ++ [(k, v)]) = if k' = k then some v else lookupKey k' l := by
  induction l with
  | nil => by_cases h : k = k' <;> simp [lookupKey, h, eq_comm]
  | cons p ps ih =>
    simp only [List.any_cons, Bool.or_eq_true, decide_eq_true_eq, not_or] at hk
    by_cases hp' : p.1 = k'
    · have : k' ≠ k := fun h => hk.1 (hp'.trans h)
      simp [lookupKey, hp', this]
    · simp [lookupKey, hp', ih hk.2]

@[simp]
theorem get_set (m : JsMap α) (k k' : String) (v : α) :
    (m.set k v).get k' = if k' = k then some v else m.get k' := by
  unfold set get
  split
  · exact lookupKey_map k k' v _ ‹_›
  · exact lookupKey_append k k' v _ ‹_›

theorem contains_set_self (m : JsMap α) (k : String) (v : α) : (m.set k v).contains k := by
  simp [contains]

theorem contains_set_of_contains {m : JsMap α} {k' : String} (k : String) (v : α)
    (h : m.contains k') : (m.set k v).contains k' := by
  simp only [contains, get_set] at h ⊢
  split <;> simp_all

theorem contains_of_contains_set {m : JsMap α} {k k' : String} {v : α}
    (h : (m.set k v).contains k') : k' = k ∨ m.contains k' := by
  simp only [contains, get_set] at h ⊢
  split at h
  · exact .inl ‹_›
  · exact .inr h

@[simp]
theorem get_delete (m : JsMap α) (k k' : String) :
    (m.delete k).get k' = if k' = k then none else m.get k' :=
  lookupKey_filter k k' m.entries

/-- An object is empty exactly when every property reads `undefined`. -/
theorem isEmpty_iff {m : JsMap α} : m.isEmpty ↔ ∀ k, m.get k = none := by
  obtain ⟨l, hl⟩ := m
  simp only [isEmpty, get, List.isEmpty_iff]
  constructor
  · rintro rfl k; rfl
  · intro h
    cases l with
    | nil => rfl
    | cons p ps => simpa [lookupKey] using h p.1

@[simp]
theorem isEmpty_empty : (∅ : JsMap α).isEmpty := rfl

/-- The object with `f` applied to every value. -/
def mapValues {β : Type} (m : JsMap α) (f : α → β) : JsMap β :=
  ⟨m.entries.map fun p => (p.1, f p.2), by rw [List.map_map]; exact m.nodup⟩

@[simp]
theorem get_mapValues {β : Type} (m : JsMap α) (f : α → β) (k : String) :
    (m.mapValues f).get k = (m.get k).map f := by
  obtain ⟨l, hl⟩ := m
  simp only [mapValues, get]
  induction l with
  | nil => rfl
  | cons p ps ih =>
    by_cases h : p.1 = k <;> simp_all [lookupKey]

/-- The number a key denotes when it is an array index: the canonical decimal form of a
number below `2^32 - 1`. -/
def arrayIndex? (k : String) : Option Nat :=
  match k.data with
  | [] => none
  | ['0'] => some 0
  | '0' :: _ => none
  | cs => (cs.foldl (fun acc c => acc.bind fun n =>
      if c.isDigit then some (10 * n + (c.toNat - '0'.toNat)) else none) (some 0)).filter
      (· < 2 ^ 32 - 1)

/-- `Object.keys(obj)`: the array-index keys in ascending numeric order, then the other keys
in insertion order. -/
def keys (m : JsMap α) : List String :=
  ((m.entries.map Prod.fst).filter fun k => (arrayIndex? k).isSome).insertionSort
      (fun a b => (arrayIndex? a).getD 0 ≤ (arrayIndex? b).getD 0) ++
    (m.entries.map Prod.fst).filter fun k => (arrayIndex? k).isNone

private theorem exists_mem_iff_lookupKey {k : String} {l : List (String × α)} :
    (∃ x, (k, x) ∈ l) ↔ (lookupKey k l).isSome := by
  induction l with
  | nil => simp [lookupKey]
  | cons p ps ih =>
    by_cases h : p.1 = k
    · subst h; simpa [lookupKey] using ⟨p.2, .inl rfl⟩
    · have : ∀ x, (k, x) ≠ p := fun x hx => h (hx ▸ rfl)
      simp [lookupKey, h, ← ih, this]

@[simp]
theorem mem_keys {m : JsMap α} {k : String} : k ∈ m.keys ↔ m.contains k := by
  simp only [keys, List.mem_append, (List.perm_insertionSort _ _).mem_iff, List.mem_filter,
    List.mem_map, Prod.exists, exists_and_right, exists_eq_right, contains, get,
    ← exists_mem_iff_lookupKey]
  cases h : arrayIndex? k <;> simp [h]

/-- `Object.keys` lists each key once. -/
theorem keys_nodup (m : JsMap α) : m.keys.Nodup := by
  rw [keys, List.nodup_append, (List.perm_insertionSort _ _).nodup_iff]
  refine ⟨m.nodup.filter _, m.nodup.filter _, fun k h₁ h₂ => ?_⟩
  rw [(List.perm_insertionSort _ _).mem_iff, List.mem_filter] at h₁
  rw [List.mem_filter] at h₂
  cases h : arrayIndex? k <;> simp_all

end JsMap

/-- The properties a plain object `{}` inherits from `Object.prototype`; all of them hold
truthy values. -/
def objectPrototypeKeys : List String :=
  ["constructor", "hasOwnProperty", "isPrototypeOf", "propertyIsEnumerable", "toLocaleString",
    "toString", "valueOf", "__defineGetter__", "__defineSetter__", "__lookupGetter__",
    "__lookupSetter__", "__proto__"]

/-- `obj[k]` is truthy for a plain object `{}` whose own keys, all set to `true`, are `own`:
the key is own, or inherited from `Object.prototype`. -/
def plainObjectHas (own : List String) (k : String) : Bool :=
  own.contains k || objectPrototypeKeys.contains k

/-! ## Two-level indices -/

/-- `index[keya][keyb]` of a two-level index such as `connectedServicePeers`. -/
def indexGet (index : JsMap (JsMap Nat)) (keya keyb : String) : Option Nat :=
  (index.get keya).bind (·.get keyb)

/-- `addIndexEntry(index, keya, keyb, value)`: make the level `index[keya]` if missing, then
set `index[keya][keyb] = value`. -/
def addIndexEntry (index : JsMap (JsMap Nat)) (keya keyb : String) (value : Nat) :
    JsMap (JsMap Nat) :=
  index.set keya (((index.get keya).getD ∅).set keyb value)

/-- `deleteIndexEntry(index, keya, keyb)`: if `index[keya][keyb]` is truthy, delete it, and
delete the level once it is empty. A timestamp is truthy when it is not `0`. -/
def deleteIndexEntry (index : JsMap (JsMap Nat)) (keya keyb : String) : JsMap (JsMap Nat) :=
  match index.get keya with
  | some level =>
    if (level.get keyb).any (· ≠ 0) then
      if (level.delete keyb).isEmpty then index.delete keya else index.set keya (level.delete keyb)
    else index
  | none => index

@[simp]
theorem indexGet_addIndexEntry (index : JsMap (JsMap Nat)) (a b a' b' : String) (v : Nat) :
    indexGet (addIndexEntry index a b v) a' b' =
      if a' = a ∧ b' = b then some v else indexGet index a' b' := by
  by_cases ha : a' = a <;> by_cases hb : b' = b <;>
    simp [indexGet, addIndexEntry, ha, hb]
  cases index.get a <;> simp [hb]

@[simp]
theorem indexGet_deleteIndexEntry (index : JsMap (JsMap Nat)) (a b a' b' : String) :
    indexGet (deleteIndexEntry index a b) a' b' =
      if a' = a ∧ b' = b ∧ indexGet index a b ≠ some 0 then none else indexGet index a' b' := by
  unfold deleteIndexEntry indexGet
  cases hl : index.get a with
  | none => by_cases ha : a' = a <;> simp [ha, hl]
  | some level =>
    by_cases ha : a' = a
    · subst ha
      cases hv : level.get b with
      | none => by_cases hb : b' = b <;> simp [hl, hv, hb]
      | some v =>
        by_cases hv0 : v = 0
        · simp [hl, hv, hv0]
        · by_cases he : (level.delete b).isEmpty
          · have hempty := (JsMap.isEmpty_iff (m := level.delete b)).mp he b'
            by_cases hb : b' = b <;> simp_all
          · by_cases hb : b' = b <;> simp [hl, hv, hv0, he, hb, JsMap.get_delete]
    · simp only [Option.any_some, ha, false_and, if_false]
      split_ifs <;> simp [JsMap.get_delete, JsMap.get_set, ha]

/-- After `deleteIndexEntry` its pair holds no truthy stamp. -/
theorem indexGet_deleteIndexEntry_self (index : JsMap (JsMap Nat)) (a b : String) :
    (indexGet (deleteIndexEntry index a b) a b).any (· ≠ 0) = false := by
  rw [indexGet_deleteIndexEntry]
  split
  · rfl
  · rename_i h
    simp only [true_and, not_not] at h
    simp [h]

theorem get_addIndexEntry_of_ne {index : JsMap (JsMap Nat)} {a a' : String} (b : String)
    (v : Nat) (h : a' ≠ a) : (addIndexEntry index a b v).get a' = index.get a' := by
  simp [addIndexEntry, h]

theorem get_deleteIndexEntry_of_eq_none {index : JsMap (JsMap Nat)} {a' : String} (a b : String)
    (h : index.get a' = none) : (deleteIndexEntry index a b).get a' = none := by
  unfold deleteIndexEntry
  split
  · split
    · split
      · simp [h]
      · by_cases ha : a' = a
        · subst ha; simp_all
        · simp [ha, h]
    · exact h
  · exact h

theorem get_deleteIndexEntry_of_ne {index : JsMap (JsMap Nat)} {a a' : String} (b : String)
    (h : a' ≠ a) : (deleteIndexEntry index a b).get a' = index.get a' := by
  unfold deleteIndexEntry
  split
  · split
    · split <;> simp [JsMap.get_delete, JsMap.get_set, h]
    · rfl
  · rfl

/-- After `addIndexEntry` the level of its first key is not empty. -/
theorem all_isEmpty_addIndexEntry (index : JsMap (JsMap Nat)) (a b : String) (v : Nat) :
    ((addIndexEntry index a b v).get a).all (·.isEmpty) = false := by
  cases hs : (((index.get a).getD ∅).set b v).isEmpty
  · simp [addIndexEntry, hs]
  · simpa using JsMap.isEmpty_iff.mp hs b

/-- No level of an index is an empty object. -/
def LevelsNonempty (index : JsMap (JsMap Nat)) : Prop :=
  ∀ a level, index.get a = some level → level.isEmpty = false

theorem levelsNonempty_addIndexEntry {index : JsMap (JsMap Nat)} (h : LevelsNonempty index)
    (a b : String) (v : Nat) : LevelsNonempty (addIndexEntry index a b v) := by
  intro a' level hl
  simp only [addIndexEntry, JsMap.get_set] at hl
  split at hl
  · cases hl
    cases hs : ((((index.get a).getD ∅).set b v)).isEmpty
    · rfl
    · simpa using JsMap.isEmpty_iff.mp hs b
  · exact h a' level hl

theorem levelsNonempty_deleteIndexEntry {index : JsMap (JsMap Nat)} (h : LevelsNonempty index)
    (a b : String) : LevelsNonempty (deleteIndexEntry index a b) := by
  intro a' level hl
  unfold deleteIndexEntry at hl
  split at hl
  · split at hl
    · split at hl
      · simp only [JsMap.get_delete] at hl
        split at hl
        · cases hl
        · exact h a' level hl
      · simp only [JsMap.get_set] at hl
        split at hl
        · cases hl; exact Bool.eq_false_iff.mpr ‹_›
        · exact h a' level hl
    · exact h a' level hl
  · exact h a' level hl

/-! ## Strings -/

/-- The UTF-16 code units of a string: one unit below `U+10000`, a surrogate pair above. -/
def utf16Units (s : String) : List Nat :=
  s.data.flatMap fun c =>
    if c.toNat < 0x10000 then [c.toNat]
    else [0xD800 + (c.toNat - 0x10000) / 0x400, 0xDC00 + (c.toNat - 0x10000) % 0x400]

/-- Lexicographic order on code-unit sequences, where a prefix comes first. -/
def unitsLe : List Nat → List Nat → Bool
  | [], _ => true
  | _ :: _, [] => false
  | a :: as, b :: bs => a < b || (a == b && unitsLe as bs)

/-- The order in which the default `Array.prototype.sort` puts two strings. -/
def jsStringLe (a b : String) : Bool := unitsLe (utf16Units a) (utf16Units b)

/-- `array.sort()` on an array of distinct strings. -/
def sortStrings (l : List String) : List String := l.insertionSort fun a b => jsStringLe a b

/-- `s.indexOf(p) === 0`. -/
def startsWith (s p : String) : Bool := p.data.isPrefixOf s.data

/-- The property key a value read from an object turns into: the decimal form of a number,
and `"undefined"` for a missing value. -/
def numberKey : Option Nat → String
  | none => "undefined"
  | some n => toString n

end Hyperbahn
