import Mathlib.Tactic

/-!
# Python values of the MCP server

What `json.load` gives and the tools return: `Py`, a dictionary `Dict` with string keys, and the
built-in functions `Python` that the results never look into.

* `get`           `d.get(key)`;
* `Py.truthy`     `bool(value)`, and `Py.orElse` for `value or other`.
-/

namespace Dtj.Mcp

/-- code points; a lone surrogate is one -/
abbrev Str := List UInt32

instance : LawfulBEq Str := inferInstance

def lit (s : String) : Str := s.toList.map Char.val

instance : Coe String Str := ⟨lit⟩

inductive Py where
  | none
  | bool (b : Bool)
  | int (n : Int)
  | float (bits : UInt64)
  | str (s : Str)
  | list (xs : List Py)
  | dict (items : List (Str × Py))

abbrev Dict := List (Str × Py)

/-- the exceptions that the modelled code raises or lets through -/
inductive Exc where
  | AttributeError
  | KeyError
  | NameError
  | OSError
  | OverflowError
  | RecursionError
  | RuntimeError
  | TypeError
  | UnicodeDecodeError
  | UnicodeEncodeError
  | ValueError
deriving DecidableEq, Repr

theorem bind_eq_ok {ε α β : Type} {x : Except ε α} {f : α → Except ε β} {b : β}
    (h : (x >>= f) = .ok b) : ∃ a, x = .ok a ∧ f a = .ok b := by
  cases x with
  | error e => cases h
  | ok a => exact ⟨a, rfl, h⟩

namespace Py

def isNone : Py → Bool
  | none => true
  | _ => false

def isStr : Py → Bool
  | str _ => true
  | _ => false

/-- `value == ""` -/
def isEmptyStr : Py → Bool
  | str s => s.isEmpty
  | _ => false

/-- `type(value).__name__` -/
def typeName : Py → Str
  | none => "NoneType"
  | bool _ => "bool"
  | int _ => "int"
  | float _ => "float"
  | str _ => "str"
  | list _ => "list"
  | dict _ => "dict"

/-- `bool(value)` -/
def truthy : Py → Bool
  | none => false
  | bool b => b
  | int n => n != 0
  | float bits => bits &&& 0x7fffffffffffffff != 0
  | str s => !s.isEmpty
  | list xs => !xs.isEmpty
  | dict items => !items.isEmpty

/-- `value or other` -/
def orElse (v other : Py) : Py := if v.truthy then v else other

def ofOption : Option Int → Py
  | Option.none => none
  | some n => int n

end Py

/-- `d.get(key, default)` -/
def getD (d : Dict) (key : Str) (default : Py) : Py := (d.lookup key).getD default

/-- `d.get(key)` -/
def get (d : Dict) (key : Str) : Py := getD d key .none

/-- `d[key] = value`, for a dictionary of any values -/
def assign {α : Type} (key : Str) (value : α) : List (Str × α) → List (Str × α)
  | [] => [(key, value)]
  | (k, v) :: rest => if k = key then (key, value) :: rest else (k, v) :: assign key value rest

/-- built-in functions -/
structure Python where
  casefold : Str → Str
  eq : Py → Py → Bool
  str : Py → Str
  repr : Py → Str
  int_of_str : Str → Except Exc Int
  int_of_float : UInt64 → Except Exc Int
  float_eq : UInt64 → Int → Bool
  rstrip : Str → Str

/-- `int(value)` -/
def Python.toInt (python : Python) : Py → Except Exc Int
  | .int n => .ok n
  | .bool b => .ok (if b then 1 else 0)
  | .str s => python.int_of_str s
  | .float bits => python.int_of_float bits
  | _ => .error .TypeError

/-- `value == n` -/
def Python.isInt (python : Python) (value : Py) (n : Int) : Bool :=
  match value with
  | .int m => m == n
  | .bool b => (if b then 1 else 0) == n
  | .float bits => python.float_eq bits n
  | _ => false

/-- `value.casefold()` -/
def Python.casefolded (python : Python) : Py → Except Exc Str
  | .str s => .ok (python.casefold s)
  | _ => .error .AttributeError

/-- `value == s` -/
def Py.isText (value : Py) (s : Str) : Bool :=
  match value with
  | .str t => t == s
  | _ => false

/-- `needle in text` -/
def Str.within (needle text : Str) : Bool := decide (needle <:+: text)

def Str.ofInt (n : Int) : Str := lit (toString n)

end Dtj.Mcp
