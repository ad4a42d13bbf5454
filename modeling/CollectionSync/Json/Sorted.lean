import CollectionSync.Json.Basic

/-! JSON with the members of each object in the order of their names, for documents that are
compared as text. -/

namespace CollectionSync.Json

def byName (members : List (String × Json)) : List (String × Json) :=
  members.mergeSort fun a b => !(b.1 < a.1)

mutual

def sorted : Json → Json
  | arr items => arr (sortedItems items)
  | obj members => obj (byName (sortedMembers members))
  | null => null
  | bool b => bool b
  | int n => int n
  | real text => real text
  | str s => str s

def sortedItems : List Json → List Json
  | [] => []
  | j :: rest => j.sorted :: sortedItems rest

def sortedMembers : List (String × Json) → List (String × Json)
  | [] => []
  | (name, j) :: rest => (name, j.sorted) :: sortedMembers rest

end

end CollectionSync.Json
