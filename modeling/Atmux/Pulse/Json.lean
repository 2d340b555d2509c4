/-
JSON values as `serde_json` has them.

An object is its entries in the order of their keys, and a number the text that
it was read from. What a reader finds under one key of an object that another
was filed in is said by `get?_insert`.
-/
import Atmux.Lib.SortedMap
import Atmux.Lib.Text
import Mathlib.Algebra.Group.Int.Defs
import Mathlib.Data.String.Basic

namespace Atmux.Pulse

open Lib

/-- A JSON value; a number is the text that it was read from. -/
inductive Json
  | null
  | bool (value : Bool)
  | number (text : String)
  | string (text : String)
  | array (items : List Json)
  | object (entries : List (String × Json))

namespace Json

variable {entries : List (String × Json)} {key key' : String} {value : Json}

/-- `Value::get` by a key. -/
def get? (key : String) : Json → Option Json
  | .object entries => Entries.find? key entries
  | _ => none

def asStr : Json → Option String
  | .string text => some text
  | _ => none

def asBool : Json → Option Bool
  | .bool value => some value
  | _ => none

/-- A number that is a `u64`. -/
def asU64 : Json → Option Nat
  | .number text => Text.parseUnsigned (2 ^ 64) text.toList
  | _ => none

/-- A number that is an `i64`; `-0` is read as a float. -/
def asI64 : Json → Option Int
  | .number text => if text = "-0" then none else Text.parseSigned (2 ^ 63) text.toList
  | _ => none

theorem get?_insert :
    (object (Entries.insert key value entries)).get? key' = if key' = key then some value else (object entries).get? key' :=
  Entries.find?_insert

/-- A printed `i64` is read back. -/
theorem asI64_toString {n : Int} (hlow : -2 ^ 63 ≤ n) (hhigh : n < 2 ^ 63) :
    asI64 (.number (toString n)) = some n := by
  have hparse : Text.parseSigned (2 ^ 63) (toString n).toList = some n :=
    Text.parseSigned_toString_int (by omega) (by omega)
  change (if toString n = "-0" then none else Text.parseSigned (2 ^ 63) (toString n).toList) = some n
  rw [if_neg, hparse]
  intro htext
  rw [htext] at hparse
  obtain rfl := Option.some.inj ((show Text.parseSigned (2 ^ 63) "-0".toList = some 0 from rfl).symm.trans hparse)
  have hlength : (toString (0 : Int)).length = "-0".length := congrArg String.length htext
  exact absurd hlength (show 1 ≠ 2 by omega)

end Json

end Atmux.Pulse
