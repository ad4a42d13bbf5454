/-! JSON values. Members of an object keep their order and repetitions, so that a reader can decide
what a repetition means. -/

namespace CollectionSync

inductive Json where
  | null
  | bool (b : Bool)
  | int (n : Int)
  /-- A number with a fraction or an exponent, or negative zero, as written. -/
  | real (text : String)
  | str (s : String)
  | arr (items : List Json)
  | obj (members : List (String × Json))
  deriving Inhabited

namespace Json

def str? : Json → Option String
  | str s => some s
  | _ => none

def bool? : Json → Option Bool
  | bool b => some b
  | _ => none

def int? : Json → Option Int
  | int n => some n
  | _ => none

/-- A whole number that a word of 64 bits holds. -/
def word? : Json → Option Nat
  | int n => if 0 ≤ n ∧ n.toNat < UInt64.size then some n.toNat else none
  | _ => none

def arr? : Json → Option (List Json)
  | arr items => some items
  | _ => none

def obj? : Json → Option (List (String × Json))
  | obj members => some members
  | _ => none

/-- The value of the last member of that name. -/
def member? (name : String) : Json → Option Json
  | obj members => (members.reverse.find? fun m => m.1 = name).map (·.2)
  | _ => none

def nat (n : Nat) : Json := int n

/-- A value, or null in its absence. -/
def ofOption {α : Type} (f : α → Json) : Option α → Json
  | some a => f a
  | none => null

end Json

end CollectionSync
