import CollectionSync.Json.Basic

/-! Reading typed values out of JSON values. A structure comes as an object, each member at most
once and unknown ones ignored, or as an array of its members in order. -/

namespace CollectionSync.Json

/-- The values under `names`, in that order, absent ones as none. -/
def membersNamed? {α : Type} (names : List String) (members : List (String × α)) :
    Option (List (Option α)) :=
  if names.all fun n => (members.filter fun m => m.1 = n).length ≤ 1 then
    some (names.map fun n => (members.find? fun m => m.1 = n).map (·.2))
  else none

/-- The values of the members called `names`, in that order, absent ones as none. -/
def fields? (names : List String) : Json → Option (List (Option Json))
  | obj members => membersNamed? names members
  | arr items => if items.length = names.length then some (items.map some) else none
  | _ => none

/-- The value of a member that may be absent or null. -/
def optional? {α : Type} (read : Json → Option α) : Option Json → Option (Option α)
  | none | some null => some none
  | some j => (read j).map some

/-- The value of a member that has to be there. -/
def required? {α : Type} (read : Json → Option α) : Option Json → Option α
  | none => none
  | some j => read j

/-- One of the names of an enumeration, bare or as the only member of an object, its value null. -/
def variant? {α : Type} (ofText? : String → Option α) : Json → Option α
  | str s => ofText? s
  | obj [(s, null)] => ofText? s
  | _ => none

/-- The value of a result, if there is one. -/
def okay? {ε α : Type} : Except ε α → Option α
  | .ok a => some a
  | .error _ => none

end CollectionSync.Json
