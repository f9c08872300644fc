import Mathlib.Data.Int.Basic
import Mathlib.Data.Rat.Defs

/-! # Python values

What `json.loads` returns, and what the built-in functions that read such a
value do with it; a result `none` stands for the exception they raise. The
functions of the interpreter whose bodies do not matter are the fields of one
structure.
-/

/-- A float: a rational number or one of the values that are none. -/
inductive PyFloat
  | finite (q : ℚ)
  | infinity (negative : Bool)
  | nan
  deriving DecidableEq, Repr

inductive Json
  | null
  | bool (b : Bool)
  | int (n : ℤ)
  | float (x : PyFloat)
  | str (s : String)
  | list (items : List Json)
  | dict (entries : List (String × Json))

def truthy (s : Option String) : Option String := s.filter fun s => s ≠ ""

theorem truthy_eq_some {s : Option String} {text : String} :
    truthy s = some text ↔ s = some text ∧ text ≠ "" := by
  unfold truthy
  rw [Option.filter_eq_some_iff]
  simp

/-- `int` of a rational number. -/
def truncate (q : ℚ) : ℤ := q.num.tdiv q.den

namespace Json

/-- `bool(v)`. -/
def truthy : Json → Bool
  | .null => false
  | .bool b => b
  | .int n => n ≠ 0
  | .float x => x ≠ .finite 0
  | .str s => s ≠ ""
  | .list items => !items.isEmpty
  | .dict entries => !entries.isEmpty

/-- `v.get(key)`, with `None` for a missing key. -/
def get : Json → String → Option Json
  | .dict entries, key => some ((entries.lookup key).getD .null)
  | _, _ => none

/-- `v.get(key, default)` of a dict. -/
def field (v : Json) (key : String) (default : Json) : Json :=
  match v with
  | .dict entries => (entries.lookup key).getD default
  | _ => default

/-- The values a `for` loop over `v` visits. -/
def items : Json → Option (List Json)
  | .list items => some items
  | .dict entries => some (entries.map fun entry => .str entry.1)
  | .str s => some (s.toList.map fun c => .str c.toString)
  | _ => none

/-- `isinstance(v, dict)`. -/
def isDict : Json → Bool
  | .dict _ => true
  | _ => false

def str? : Json → Option String
  | .str s => some s
  | _ => none

/-- `str(v)`, given `repr`. -/
def toStr (repr : Json → String) : Json → String
  | .str s => s
  | v => repr v

/-- `int(v)`, given the parser of integer literals. -/
def toInt (parseInt : String → Option ℤ) : Json → Option ℤ
  | .bool b => some (if b then 1 else 0)
  | .int n => some n
  | .float (.finite q) => some (truncate q)
  | .str s => parseInt s
  | _ => none

end Json

/-- `sep.join(values)`. -/
def joinStrings (sep : String) (values : List Json) : Option String :=
  (values.mapM Json.str?).map (String.intercalate sep)

/-- The characters `str.strip` removes. -/
def isSpace (c : Char) : Bool :=
  c.toNat ∈ [0x09, 0x0a, 0x0b, 0x0c, 0x0d, 0x1c, 0x1d, 0x1e, 0x1f, 0x20, 0x85, 0xa0, 0x1680,
    0x2000, 0x2001, 0x2002, 0x2003, 0x2004, 0x2005, 0x2006, 0x2007, 0x2008, 0x2009, 0x200a,
    0x2028, 0x2029, 0x202f, 0x205f, 0x3000]

/-- `s.strip()`. -/
def strip (s : String) : String :=
  String.ofList ((s.toList.dropWhile isSpace).reverse.dropWhile isSpace).reverse

abbrev Bytes := List UInt8

inductive LoadsError | decode | other
  deriving DecidableEq, Repr

/-- Functions of the interpreter and its standard library: `hashlib`, `hmac`, `json`,
`os.environ`, the readers of literals, `repr` and `str.isdigit`. -/
structure Python where
  sha256 : Bytes → String
  hmacSha256 : Bytes → Bytes → String
  loads : Bytes → Except LoadsError Json
  parseInt : String → Option ℤ
  parseFloat : String → Option PyFloat
  repr : Json → String
  environ : String → Option String
  isDigit : String → Bool

def encode (s : String) : Bytes := s.toUTF8.toList
