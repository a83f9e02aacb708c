import Pytusk.Lib.Dict
import Pytusk.Lib.PyStr
import Pytusk.Types.Errors

/-!
# JSON as Python holds it

What `response.json()` and `protobuf_json_to_python` give back. A `dict` has
each key once (of two members with one name the decoder keeps the last), which
nothing here depends on: a lookup finds the first.
-/

namespace Pytusk

open Pytusk.Lib

/-- A `float`, by its IEEE 754 bits. -/
structure PyFloat where
  bits : BitVec 64
  deriving DecidableEq, Repr

inductive Json where
  | none
  | bool (b : Bool)
  | int (n : Int)
  | float (x : PyFloat)
  | str (s : PyStr)
  | list (xs : List Json)
  | dict (items : List (PyStr × Json))

namespace PyFloat

/-- The biased exponent. -/
def exponent (x : PyFloat) : Nat := x.bits.toNat / 2 ^ 52 % 2 ^ 11

def fraction (x : PyFloat) : Nat := x.bits.toNat % 2 ^ 52

def isZero (x : PyFloat) : Bool := x.exponent = 0 && x.fraction = 0

/-- `int(x)`: the value without its fraction. -/
def toInt (x : PyFloat) : Except PyExn Int :=
  if x.exponent = 2047 then
    if x.fraction = 0 then .error (.overflowError "cannot convert float infinity to integer")
    else .error (.valueError "cannot convert float NaN to integer")
  else
    let significand := if x.exponent = 0 then x.fraction else 2 ^ 52 + x.fraction
    let magnitude := significand * 2 ^ (x.exponent - 1075) / 2 ^ (1075 - x.exponent)
    .ok (if x.bits.toNat < 2 ^ 63 then magnitude else -(magnitude : Int))

/-- `x.is_integer()` -/
def isInteger (x : PyFloat) : Bool :=
  let significand := if x.exponent = 0 then x.fraction else 2 ^ 52 + x.fraction
  x.exponent ≠ 2047 && significand * 2 ^ (x.exponent - 1075) % 2 ^ (1075 - x.exponent) = 0

end PyFloat

namespace Json

/-- The key a literal names. -/
def key (name : String) : PyStr := name.toList.map PyStr.ofChar

/-- `type(value).__name__` -/
def typeName : Json → String
  | .none => "NoneType"
  | .bool _ => "bool"
  | .int _ => "int"
  | .float _ => "float"
  | .str _ => "str"
  | .list _ => "list"
  | .dict _ => "dict"

/-- `bool(value)` -/
def truthy : Json → Bool
  | .none => false
  | .bool b => b
  | .int n => n ≠ 0
  | .float x => !x.isZero
  | .str s => s ≠ []
  | .list xs => !xs.isEmpty
  | .dict items => !items.isEmpty

end Json

end Pytusk
