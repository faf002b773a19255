import NumberBaseball.Lib.Machine
import Mathlib.Data.List.Infix

/-!
# `Game.Engine` — the parts of the engine the game code calls

Strings, arrays, random numbers and the two ways an access can fail, as the game sources use them.
Each definition carries the engine's word for it and its documented behaviour: array and string
subscripts are range-checked, `RightChop` clamps its argument, string comparison and `Contains` ignore
ASCII case by default, `RandRange` is inclusive at both ends. An `int32` is an `Int`: no counter of the
game gets near the limits of the type.
-/

namespace NumberBaseball

/-! ## Faults -/

/-- What a handler can die of: a member access through a pointer that is null or not `IsValid`, a
    subscript out of range, or a zero modulus. -/
inductive Fault where
  | invalidPointer
  | rangeCheck
  | divideByZero
deriving DecidableEq, Repr

/-- What a member access through a destroyed controller does. The source checks `IsValid` on some
    paths and not on others; `faults` makes every unchecked access visible, `yieldsNull` is the reading
    in which a destroyed controller hands out a null player state. -/
inductive DeadAccess where
  | yieldsNull
  | faults
deriving DecidableEq, Repr

/-! ## Strings -/

/-- A character of an `FString`. -/
abbrev TCHAR := Char

/-- An `FString`, as the sequence of its characters. -/
abbrev FString := List TCHAR

/-- `TEXT("…")`. -/
def text (s : String) : FString := s.toList

/-- `FString::FromInt`, also `%d` in a format string. -/
def fromInt (n : Int) : FString := (toString n).toList

/-- `FString::RightChop`: all but the first `count` characters, `count` clamped to `[0, Len]`. -/
def rightChop (s : FString) (count : Int) : FString :=
  s.drop (max 0 (min count s.length)).toNat

/-- `FString::operator==`, which ignores case. -/
def equals (a b : FString) : Bool := a.map Char.toLower == b.map Char.toLower

/-- `FString::Contains` with its default arguments, which ignore case. -/
def contains (s sub : FString) : Bool :=
  decide (sub.map Char.toLower <:+: s.map Char.toLower)

/-- `FChar::IsDigit`. -/
def isDigit (c : TCHAR) : Bool := '0' ≤ c && c ≤ '9'

/-! ## Arrays -/

/-- `TArray::IsValidIndex`. -/
def isValidIndex {α : Type} (l : List α) (i : Int) : Bool := 0 ≤ i && i < l.length

/-- `TArray::operator[]` and `FString::operator[]`, with their range check. -/
def arrayAt {α : Type} (l : List α) (i : Int) : Except Fault α :=
  if 0 ≤ i then
    match l[i.toNat]? with
    | some a => .ok a
    | none   => .error .rangeCheck
  else .error .rangeCheck

/-- `TArray::RemoveAt`, at an index its caller has subscripted before. -/
def removeAt {α : Type} (l : List α) (i : Int) : List α := l.eraseIdx i.toNat

/-- `a % b` on `int32`. -/
def intMod (a b : Int) : Except Fault Int :=
  if b = 0 then .error .divideByZero else .ok (a.tmod b)

theorem arrayAt_natCast {α : Type} {l : List α} {i : Nat} {a : α} (h : l[i]? = some a) :
    arrayAt l (i : Int) = .ok a := by
  simp [arrayAt, h]

theorem isValidIndex_natCast {α : Type} {l : List α} {i : Nat} :
    isValidIndex l (i : Int) = true ↔ i < l.length := by
  simp [isValidIndex]

/-! ## Random numbers -/

/-- The values the generator will return, raw; `randRange` folds each into the range asked for. -/
abbrev RandomStream := Nat → Nat

/-- `FMath::RandRange(min, max)`, and the stream that is left. -/
def randRange (random : RandomStream) (min max : Int) : Int × RandomStream :=
  (min + (random 0 : Int) % (max - min + 1), fun k => random (k + 1))

/-- `RandRange` is inclusive at both ends. -/
theorem randRange_mem (random : RandomStream) {min max : Int} (h : min ≤ max) :
    min ≤ (randRange random min max).1 ∧ (randRange random min max).1 ≤ max := by
  have h0 := Int.emod_nonneg (random 0 : Int) (show max - min + 1 ≠ 0 by omega)
  have h1 := Int.emod_lt_of_pos (random 0 : Int) (show 0 < max - min + 1 by omega)
  simp only [randRange]
  omega

/-- It returns any value between them, whatever the stream goes on with. -/
theorem exists_randRange {min max v : Int} (hmin : min ≤ v) (hmax : v ≤ max) (rest : RandomStream) :
    ∃ random, randRange random min max = (v, rest) := by
  refine ⟨fun | 0 => (v - min).toNat | k + 1 => rest k, ?_⟩
  simp only [randRange, Prod.mk.injEq, and_true]
  rw [Int.toNat_of_nonneg (by omega), Int.emod_eq_of_lt (by omega) (by omega)]
  omega

end NumberBaseball
