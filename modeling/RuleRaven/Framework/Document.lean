import RuleRaven.Framework.Binary64
import RuleRaven.Framework.StrMap
import RuleRaven.Framework.Text
import Mathlib.Algebra.Order.Field.Rat

namespace RuleRaven.Framework

/-- A JSON number: its value, and the integer it spells where it has neither a fraction nor an
exponent. -/
structure Numeral where
  value : ℚ
  integer : Option Int
  integer_eq : ∀ n, integer = some n → value = n
  deriving DecidableEq

def Numeral.ofInt (n : Int) : Numeral where
  value := n
  integer := some n
  integer_eq := fun m h => by rw [Option.some.inj h]

/-- A number that is written with a fraction or an exponent. -/
def Numeral.decimal (value : ℚ) : Numeral where
  value := value
  integer := none
  integer_eq := fun _ h => by cases h

/-- A JSON document as it is read. Members stand in their order, repetitions included. -/
inductive Document where
  | null
  | bool (b : Bool)
  | num (n : Numeral)
  | str (s : String)
  | arr (items : List Document)
  | obj (members : List (String × Document))

/-- How `encoding/json` stores a document into a destination that already holds a value. A
document that does not fit, anywhere in it, makes the whole decoding fail. -/
abbrev Into (α : Type) : Type := Document → α → Option α

section Into

variable {α σ : Type}

/-- `null` leaves a string alone. -/
def intoString : Into String
  | .str s, _ => some s
  | .null, old => some old
  | _, _ => none

/-- An `int` of 64 bits takes only integers that are spelled as such. -/
def intoInt : Into Int
  | .num n, _ => n.integer.filter fun i => decide (-2 ^ 63 ≤ i ∧ i < 2 ^ 63)
  | .null, old => some old
  | _, _ => none

/-- The nearest `float64`. A number that would be rounded to infinity is out of range. -/
def intoFloat : Into ℚ
  | .num n, _ => if |n.value| < Binary64.limit then some (Binary64.rounded n.value) else none
  | .null, old => some old
  | _, _ => none

/-- A pointer, or a map that may be nil: `null` makes it nil, anything else goes into what it
points to, or into a new zero value. -/
def intoPointer (zero : α) (into : Into α) : Into (Option α)
  | .null, _ => some none
  | document, old => (into document (old.getD zero)).map some

/-- A map keeps the entries it has. Each member is decoded from zero, and the last of several
with one key wins. -/
def intoMap (zero : α) (into : Into α) : Into (StrMap α)
  | .null, _ => some StrMap.empty
  | .obj members, old => members.foldlM
      (fun entries member => (into member.2 zero).map (entries.insert member.1)) old
  | _, _ => none

/-- The items of an array, each into the element that was at its place. -/
def intoItems (zero : α) (into : Into α) : List Document → List α → Option (List α)
  | [], _ => some []
  | item :: items, old => do
    let first ← into item (old.headD zero)
    let rest ← intoItems zero into items old.tail
    pure (first :: rest)

def intoSlice (zero : α) (into : Into α) : Into (List α)
  | .null, _ => some []
  | .arr items, old => intoItems zero into items old
  | _, _ => none

/-- A `json.RawMessage` keeps the document. -/
def intoRaw : Into (Option Document) := fun document _ => some (some document)

/-- A field of a struct: its name, and how a document goes into it. -/
structure StructField (σ : Type) where
  name : String
  into : Into σ

def StructField.of (name : String) (get : σ → α) (set : σ → α → σ) (into : Into α) :
    StructField σ where
  name := name
  into document s := (into document (get s)).map (set s)

/-- A field by its exact name, or else by its name in any case. -/
def findField (fields : List (StructField σ)) (key : String) : Option (StructField σ) :=
  match fields.find? fun f => f.name == key with
  | some f => some f
  | none => fields.find? fun f => equalFold key f.name

/-- A struct takes the members it has fields for, and refuses others if it is decoded under
`DisallowUnknownFields`. -/
def intoStruct (strict : Bool) (fields : List (StructField σ)) : Into σ
  | .null, s => some s
  | .obj members, s => members.foldlM (fun s member =>
      match findField fields member.1 with
      | some f => f.into member.2 s
      | none => if strict then none else some s) s
  | _, _ => none

end Into

end RuleRaven.Framework
