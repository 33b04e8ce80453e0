import Mathlib.Algebra.GroupWithZero.Nat
import Mathlib.Algebra.Ring.Int.Defs
import Mathlib.Data.List.Basic

/-!
# Reading a number at the front of a text (`std::stoul` with base 0)

White space, a sign, then the longest numeral: hexadecimal behind `0x`, octal behind `0`, decimal
otherwise. What follows the numeral is ignored, and a minus sign negates modulo `2 ^ 64`. `front` is
the number at the front with its sign, and `denotes` that of a text that is a numeral as a whole.

* `stoul_of_readable`, `stoul_of_unreadable`: the texts that are read, and what is read.
* `denotes_eq_front`: a numeral stands at its own front.
-/

namespace Strtoul

/-- `isspace` of the C locale. -/
def isSpace (c : Char) : Bool := c.toNat = 32 || (9 ≤ c.toNat && c.toNat ≤ 13)

def digitValue (c : Char) : Option Nat :=
  if 48 ≤ c.toNat ∧ c.toNat ≤ 57 then some (c.toNat - 48)
  else if 97 ≤ c.toNat ∧ c.toNat ≤ 122 then some (c.toNat - 97 + 10)
  else if 65 ≤ c.toNat ∧ c.toNat ≤ 90 then some (c.toNat - 65 + 10)
  else none

def isDigit (base : Nat) (c : Char) : Bool := (digitValue c).any (· < base)

/-- The longest run of digits, as a number; `none` where there is no digit. -/
def number (base : Nat) (cs : List Char) : Option (Nat × List Char) :=
  match cs.takeWhile (isDigit base) with
  | [] => none
  | ds => some (ds.foldl (fun n c => n * base + (digitValue c).getD 0) 0, cs.dropWhile (isDigit base))

/-- A number whose base its own first characters give. -/
def magnitude (cs : List Char) : Option (Nat × List Char) :=
  match cs with
  | '0' :: x :: d :: rest =>
    if (x = 'x' ∨ x = 'X') ∧ isDigit 16 d then number 16 (d :: rest) else number 8 cs
  | '0' :: _ => number 8 cs
  | _ => number 10 cs

/-- Whether there is a minus sign, the number, and what follows it. -/
def scan (text : String) : Option (Bool × Nat × List Char) :=
  match text.toList.dropWhile isSpace with
  | '-' :: cs => (magnitude cs).map fun (n, rest) => (true, n, rest)
  | '+' :: cs => (magnitude cs).map fun (n, rest) => (false, n, rest)
  | cs => (magnitude cs).map fun (n, rest) => (false, n, rest)

inductive StdException where
  | invalidArgument
  | outOfRange
  deriving DecidableEq, Repr

/-- `std::stoul(text, nullptr, 0)`. -/
def stoul (text : String) : Except StdException Nat :=
  match scan text with
  | none => .error .invalidArgument
  | some (negative, n, _) =>
    if 2 ^ 64 ≤ n then .error .outOfRange
    else .ok (if negative then (2 ^ 64 - n) % 2 ^ 64 else n)

/-- The number of a text that is nothing but a numeral. -/
def denotes (text : String) : Option Int :=
  match scan text with
  | some (negative, n, []) => some (if negative then -n else n)
  | _ => none

/-- The number at the front of a text. -/
def front (text : String) : Option Int :=
  (scan text).map fun (negative, n, _) => if negative then -n else n

/-- A number of at most 64 bits stands at the front of the text, behind white space and a sign. -/
def Readable (text : String) : Prop :=
  ∃ negative n rest, scan text = some (negative, n, rest) ∧ n < 2 ^ 64

section
variable {text : String}

/-- **What is read**: the number at the front, modulo `2 ^ 64`. -/
theorem stoul_of_readable (h : Readable text) :
    ∃ (k : Int) (n : Nat), front text = some k ∧ stoul text = .ok n ∧ (n : Int) = k % 2 ^ 64 := by
  obtain ⟨negative, n, rest, hscan, hn⟩ := h
  unfold front stoul
  rw [hscan]
  simp only [if_neg (Nat.not_le.2 hn)]
  cases negative with
  | false => exact ⟨n, n, rfl, rfl, by omega⟩
  | true => exact ⟨-n, (2 ^ 64 - n) % 2 ^ 64, rfl, rfl, by omega⟩

/-- The others are refused. -/
theorem stoul_of_unreadable (h : ¬ Readable text) : ∃ e, stoul text = .error e := by
  unfold stoul
  split
  case h_1 => exact ⟨_, rfl⟩
  case h_2 negative n rest hscan =>
    have hlarge : 2 ^ 64 ≤ n := Nat.not_lt.1 fun hn => h ⟨negative, n, rest, hscan, hn⟩
    exact ⟨_, if_pos hlarge⟩

theorem denotes_eq_front {k : Int} (h : denotes text = some k) : front text = some k := by
  unfold denotes at h
  unfold front
  split at h
  case h_1 negative n hscan =>
    rw [hscan]
    exact h
  case h_2 => cases h

end

/-- Hexadecimal, octal and decimal; a trailing letter; a sign; an empty text. -/
example : (stoul "0x1F").toOption = some 31 ∧ (stoul "017").toOption = some 15 ∧
    (stoul "12abc").toOption = some 12 ∧ denotes "12abc" = none ∧
    (stoul " -1").toOption = some (2 ^ 64 - 1) ∧ (stoul "").toOption = none := by
  decide +kernel

end Strtoul
