import RainEngine.Floats.Rounding
import Mathlib.Algebra.Order.Floor.Defs
import Mathlib.Data.List.Infix

/-
  This file defines the value types the kernel takes from
  its language and libraries: 64-bit floats, JSON values and
  the string tests the kernel makes.

  Finite floats are rationals. The operations round to the
  nearest number with 53 binary digits, and what is too large
  becomes infinite; NaN behaves as the language documents.

  Key definitions include:
    * `F64`
    * `F64.round`
    * `F64.toU64`
    * `JsonNumber`
    * `Json`
    * `containsText`
-/

namespace RainEngine

------------------------------------------------------------
-- Floats
------------------------------------------------------------

/- A 64-bit float. -/
inductive F64 where
  | finite (value : ℚ)
  | posInf
  | negInf
  | nan
deriving DecidableEq

namespace F64

instance : Inhabited F64 := ⟨.finite 0⟩

def format : Floats.Format where
  digits := 53
  least := -1074
  digits_pos := by decide

/- The float nearest to a rational. -/
def round (q : ℚ) : F64 :=
  if 2 ^ 1024 ≤ format.round q then .posInf
  else if format.round q ≤ -2 ^ 1024 then .negInf
  else .finite (format.round q)

def ofNat (n : Nat) : F64 :=
  round n

def add : F64 → F64 → F64
| .nan, _ => .nan
| _, .nan => .nan
| .finite a, .finite b => round (a + b)
| .posInf, .negInf => .nan
| .negInf, .posInf => .nan
| .posInf, _ => .posInf
| _, .posInf => .posInf
| .negInf, _ => .negInf
| _, .negInf => .negInf

/- The infinity with the sign of a product. -/
def scaleInf
    (negative : Bool)
    (a : ℚ) :
    F64 :=
  if a = 0 then .nan
  else if (a < 0) = negative then .posInf
  else .negInf

def mul : F64 → F64 → F64
| .nan, _ => .nan
| _, .nan => .nan
| .finite a, .finite b => round (a * b)
| .finite a, .posInf => scaleInf false a
| .posInf, .finite a => scaleInf false a
| .finite a, .negInf => scaleInf true a
| .negInf, .finite a => scaleInf true a
| .posInf, .posInf => .posInf
| .negInf, .negInf => .posInf
| .posInf, .negInf => .negInf
| .negInf, .posInf => .negInf

def div : F64 → F64 → F64
| .nan, _ => .nan
| _, .nan => .nan
| .finite a, .finite b =>
    if b = 0 then scaleInf false a else round (a / b)
| .finite _, .posInf => .finite 0
| .finite _, .negInf => .finite 0
| .posInf, .finite b => if b < 0 then .negInf else .posInf
| .negInf, .finite b => if b < 0 then .posInf else .negInf
| .posInf, .posInf => .nan
| .posInf, .negInf => .nan
| .negInf, .posInf => .nan
| .negInf, .negInf => .nan

/- The order test `a <= b`, false as soon as one is NaN. -/
def le : F64 → F64 → Bool
| .nan, _ => false
| _, .nan => false
| .negInf, _ => true
| _, .posInf => true
| .finite a, .finite b => decide (a ≤ b)
| .posInf, _ => false
| _, .negInf => false

/- The order test `a < b`. -/
def lt (a b : F64) : Bool :=
  a.le b && !b.le a

/- The larger value; a NaN operand is ignored. -/
def max (a b : F64) : F64 :=
  if a = .nan then b
  else if b = .nan then a
  else if a.le b then b else a

/- The smaller value; a NaN operand is ignored. -/
def min (a b : F64) : F64 :=
  if a = .nan then b
  else if b = .nan then a
  else if a.le b then a else b

def clamp (a low high : F64) : F64 :=
  if a.lt low then low
  else if high.lt a then high
  else a

def ceil : F64 → F64
| .finite a => .finite ⌈a⌉
| a => a

/- The largest 64-bit unsigned integer. -/
def maxU64 : Nat :=
  2 ^ 64 - 1

/- The saturating conversion to an unsigned integer. -/
def toU64 : F64 → Nat
| .finite a => Nat.min ⌊a⌋.toNat maxU64
| .posInf => maxU64
| .negInf => 0
| .nan => 0

/- The sum of a list of floats. -/
def sum (xs : List F64) : F64 :=
  xs.foldl add (.finite 0)

end F64

------------------------------------------------------------
-- JSON
------------------------------------------------------------

/- A JSON number keeps whether it was an integer. -/
inductive JsonNumber where
  | posInt (value : Nat)
  | negInt (value : Int)
  | float (value : F64)
deriving DecidableEq

/- A JSON value. -/
inductive Json where
  | null
  | bool (value : Bool)
  | number (value : JsonNumber)
  | string (value : String)
  | array (items : List Json)
  | object (fields : List (String × Json))
deriving Inhabited

namespace Json

def nat (n : Nat) : Json :=
  .number (.posInt n)

def int (n : Int) : Json :=
  if 0 ≤ n then .number (.posInt n.toNat)
  else .number (.negInt n)

/- A non-finite float has no JSON number. -/
def float : F64 → Json
| .finite value => .number (.float (.finite value))
| _ => .null

def strings (xs : List String) : Json :=
  .array (xs.map .string)

end Json

------------------------------------------------------------
-- Strings
------------------------------------------------------------

/- Whether `text` contains `pattern`. -/
def containsText
    (text pattern : String) :
    Bool :=
  decide (pattern.toList <:+: text.toList)

end RainEngine
