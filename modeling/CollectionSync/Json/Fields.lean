import CollectionSync.Json.Basic

/-! Reading members with a default. A member that is absent, null or of another kind reads as the
default. -/

namespace CollectionSync.Json

def field (j : Json) (name : String) : Json := (j.member? name).getD .null

def strField (j : Json) (name : String) (default : String := "") : String :=
  (j.field name).str?.getD default

def natField (j : Json) (name : String) (default : Nat := 0) : Nat :=
  (j.field name).word?.getD default

def natField? (j : Json) (name : String) : Option Nat := (j.field name).word?

def listField (j : Json) (name : String) : List Json := (j.field name).arr?.getD []

def membersField (j : Json) (name : String) : List (String × Json) := (j.field name).obj?.getD []

def optStr (j : Json) (name : String) : Option String := (j.field name).str?

end CollectionSync.Json
