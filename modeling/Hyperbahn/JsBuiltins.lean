import Hyperbahn.JsObject

/-!
# `split`, `parseInt` and the 32-bit shifts

Three JavaScript built-ins the relay applies to host-ports and to remote-config strings.

* `split`: `String.prototype.split` with a string separator, which scans from the left and cuts
  at each occurrence of the separator that does not overlap an earlier one. With a
  one-character separator, a piece without that character is cut off whole
  (`split_append_of_not_mem`), and a string without it is not cut (`split_of_not_mem`).
* `parseInt`: `parseInt(s, 10)`: leading white space, an optional sign, then the longest run of
  decimal digits, and `NaN` (here `none`) when there is none. It reads the decimal numeral of a
  number back (`parseInt_repr`).
* `toInt32`, `shiftLeft` and `unsignedShiftRight`: the 32-bit signed integer of a number,
  `x << n` and `x >>> n`. A number is modelled by an integer, exact at every size, where the
  source has a double; `NaN` shifts as `0`.
-/

namespace Hyperbahn

namespace Js

/-! ## `split` -/

/-- The loop of `split` with the separator `sep`: `piece` holds the current piece, reversed, and
`skip` the characters of a matched separator still to pass over. -/
def splitAux (sep : List Char) : Nat → List Char → List Char → List (List Char)
  | _, [], piece => [piece.reverse]
  | skip + 1, _ :: cs, piece => splitAux sep skip cs piece
  | 0, c :: cs, piece =>
    if sep.isPrefixOf (c :: cs) then piece.reverse :: splitAux sep (sep.length - 1) cs []
    else splitAux sep 0 cs (c :: piece)

/-- `s.split(separator)`; with an empty separator, the characters of `s` one by one. -/
def split (s separator : String) : List String :=
  if separator = "" then s.data.map String.singleton
  else (splitAux separator.data 0 s.data []).map String.mk

theorem splitAux_append_of_not_mem {c : Char} {p : List Char} (hp : c ∉ p) (rest piece : List Char) :
    splitAux [c] 0 (p ++ rest) piece = splitAux [c] 0 rest (p.reverse ++ piece) := by
  induction p generalizing piece with
  | nil => rfl
  | cons x p ih =>
    have hx : (c == x) = false := beq_false_of_ne fun h => hp (h ▸ List.mem_cons_self _ _)
    rw [List.cons_append, splitAux]
    simp only [List.isPrefixOf, hx, Bool.false_and, Bool.false_eq_true, if_false]
    rw [ih fun h => hp (List.mem_cons_of_mem _ h)]
    simp

theorem splitAux_cons_self (c : Char) (rest piece : List Char) :
    splitAux [c] 0 (c :: rest) piece = piece.reverse :: splitAux [c] 0 rest [] := by
  simp [splitAux, List.isPrefixOf]

/-- With a one-character separator, a piece without that character is cut off whole. -/
theorem split_append_of_not_mem {c : Char} {sep s : String} (hsep : sep.data = [c])
    (hs : c ∉ s.data) (t : String) : split (s ++ (sep ++ t)) sep = s :: split t sep := by
  have hne : sep ≠ "" := fun h => List.cons_ne_nil c [] (hsep.symm.trans (congrArg String.data h))
  simp only [split, hne, if_false, String.data_append, hsep]
  rw [List.singleton_append, splitAux_append_of_not_mem hs, splitAux_cons_self, List.append_nil,
    List.reverse_reverse, List.map_cons]

/-- With a one-character separator, a string without that character is not cut. -/
theorem split_of_not_mem {c : Char} {sep t : String} (hsep : sep.data = [c]) (ht : c ∉ t.data) :
    split t sep = [t] := by
  have hne : sep ≠ "" := fun h => List.cons_ne_nil c [] (hsep.symm.trans (congrArg String.data h))
  simp only [split, hne, if_false, hsep]
  rw [← List.append_nil t.data, splitAux_append_of_not_mem ht]
  simp [splitAux]

/-! ## `parseInt` -/

/-- The white space and line terminators `parseInt` skips. -/
def isStrWhiteSpaceChar (c : Char) : Bool :=
  [0x9, 0xA, 0xB, 0xC, 0xD, 0x20, 0xA0, 0x1680, 0x2028, 0x2029, 0x202F, 0x205F, 0x3000,
    0xFEFF].contains c.toNat || (0x2000 ≤ c.toNat && c.toNat ≤ 0x200A)

/-- The number a run of decimal digits denotes. -/
def digitsValue (ds : List Char) : Nat := ds.foldl (fun n c => 10 * n + (c.toNat - '0'.toNat)) 0

/-- The sign of a numeral and the characters after it. -/
def readSign : List Char → Int × List Char
  | '-' :: cs => (-1, cs)
  | '+' :: cs => (1, cs)
  | cs => (1, cs)

/-- `parseInt(s, 10)`, with `none` for `NaN`. -/
def parseInt (s : String) : Option Int :=
  let (sign, cs) := readSign (s.data.dropWhile isStrWhiteSpaceChar)
  let digits := cs.takeWhile Char.isDigit
  if digits.isEmpty then none else some (sign * digitsValue digits)

/-- A decimal digit is a digit of `isDigit` with the value it stands for, and neither white
space nor a sign. -/
theorem digitChar_of_lt : ∀ k < 10,
    (Nat.digitChar k).isDigit ∧ (Nat.digitChar k).toNat - '0'.toNat = k ∧
      isStrWhiteSpaceChar (Nat.digitChar k) = false ∧ Nat.digitChar k ≠ '-' ∧
      Nat.digitChar k ≠ '+' := by
  decide

theorem toDigitsCore_append (fuel n : Nat) (ds ds' : List Char) :
    Nat.toDigitsCore 10 fuel n (ds ++ ds') = Nat.toDigitsCore 10 fuel n ds ++ ds' := by
  induction fuel generalizing n ds with
  | zero => rfl
  | succ fuel ih =>
    simp only [Nat.toDigitsCore]
    split
    · rfl
    · rw [← List.cons_append, ih]

/-- With enough fuel, the digits of `n` are decimal digits, at least one, that denote `n`. -/
theorem toDigitsCore_spec : ∀ fuel n, n < fuel →
    (∀ c ∈ Nat.toDigitsCore 10 fuel n [], ∃ k < 10, c = Nat.digitChar k) ∧
      digitsValue (Nat.toDigitsCore 10 fuel n []) = n ∧ Nat.toDigitsCore 10 fuel n [] ≠ []
  | 0, _, h => absurd h (Nat.not_lt_zero _)
  | fuel + 1, n, h => by
    have hk : n % 10 < 10 := Nat.mod_lt _ (by decide)
    have hd := (digitChar_of_lt (n % 10) hk).2.1
    simp only [Nat.toDigitsCore]
    split
    · refine ⟨fun c hc => ⟨_, hk, List.mem_singleton.mp hc⟩, ?_, List.cons_ne_nil _ _⟩
      simp only [digitsValue, List.foldl_cons, List.foldl_nil, hd]
      omega
    · obtain ⟨hdig, hval, -⟩ := toDigitsCore_spec fuel (n / 10) (by omega)
      rw [show [Nat.digitChar (n % 10)] = [] ++ [Nat.digitChar (n % 10)] from rfl,
        toDigitsCore_append]
      refine ⟨fun c hc => ?_, ?_, by simp⟩
      · rcases List.mem_append.mp hc with hc | hc
        · exact hdig c hc
        · exact ⟨_, hk, List.mem_singleton.mp hc⟩
      · rw [digitsValue, List.foldl_append, ← digitsValue, hval]
        simp only [List.foldl_cons, List.foldl_nil, hd]
        omega

theorem takeWhile_of_all {p : Char → Bool} : ∀ {l : List Char}, (∀ c ∈ l, p c) →
    l.takeWhile p = l
  | [], _ => rfl
  | c :: l, h => by
    rw [List.takeWhile_cons_of_pos (h c (List.mem_cons_self _ _)),
      takeWhile_of_all fun c hc => h c (List.mem_cons_of_mem _ hc)]

/-- `parseInt` reads the decimal numeral of a number back. -/
theorem parseInt_repr (n : Nat) : parseInt (Nat.repr n) = some (n : Int) := by
  obtain ⟨hdig, hval, hne⟩ := toDigitsCore_spec (n + 1) n (Nat.lt_succ_self n)
  obtain ⟨c, cs, hcs⟩ := List.exists_cons_of_ne_nil hne
  obtain ⟨k, hk, rfl⟩ := hdig _ (hcs ▸ List.mem_cons_self _ _)
  obtain ⟨-, -, hws, hminus, hplus⟩ := digitChar_of_lt k hk
  have hdata : (Nat.repr n).data = Nat.digitChar k :: cs := hcs
  have hdrop : (Nat.digitChar k :: cs).dropWhile isStrWhiteSpaceChar = Nat.digitChar k :: cs :=
    List.dropWhile_cons_of_neg (by simp [hws])
  have hsign : readSign (Nat.digitChar k :: cs) = (1, Nat.digitChar k :: cs) := by
    unfold readSign; split <;> simp_all
  have htake : (Nat.digitChar k :: cs).takeWhile Char.isDigit = Nat.digitChar k :: cs :=
    takeWhile_of_all fun c hc => by
      obtain ⟨j, hj, rfl⟩ := hdig c (hcs ▸ hc)
      exact (digitChar_of_lt j hj).1
  have hv : digitsValue (Nat.digitChar k :: cs) = n := hcs ▸ hval
  simp [parseInt, hdata, hdrop, hsign, htake, hv]

/-! ## 32-bit integers -/

/-- `ToInt32`: the integer in `[-2^31, 2^31)` congruent to `x` modulo `2^32`. -/
def toInt32 (x : Int) : Int := (x + 2 ^ 31) % 2 ^ 32 - 2 ^ 31

/-- `x << n`: the 32-bit signed integer of `x`, shifted left by `n % 32` bits with the bits past
the 32nd dropped; `NaN` (`none`) shifts as `0`. -/
def shiftLeft (x : Option Int) (n : Nat) : Int := toInt32 (toInt32 (x.getD 0) * 2 ^ (n % 32))

/-- `x >>> n`: the 32-bit unsigned integer of `x`, shifted right by `n % 32` bits. -/
def unsignedShiftRight (x : Int) (n : Nat) : Nat := (x % 2 ^ 32).toNat / 2 ^ (n % 32)

/-- `x & 0xff` on a non-negative 32-bit integer: its low byte. -/
def lowByte (x : Nat) : Nat := x % 2 ^ 8

theorem toInt32_of_lt {x : Int} (h₁ : -2 ^ 31 ≤ x) (h₂ : x < 2 ^ 31) : toInt32 x = x := by
  unfold toInt32; omega

theorem toInt32_of_ge {x : Int} (h₁ : 2 ^ 31 ≤ x) (h₂ : x < 2 ^ 32 + 2 ^ 31) :
    toInt32 x = x - 2 ^ 32 := by
  unfold toInt32; omega

theorem toInt32_bounds (x : Int) : -2 ^ 31 ≤ toInt32 x ∧ toInt32 x < 2 ^ 31 := by
  unfold toInt32; omega

theorem toInt32_emod (x : Int) : toInt32 x % 2 ^ 32 = x % 2 ^ 32 := by
  unfold toInt32; omega

end Js

end Hyperbahn
