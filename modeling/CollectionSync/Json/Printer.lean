import CollectionSync.Json.Basic

/-! Writing JSON text without gaps. -/

namespace CollectionSync.Json

/-- How a character stands inside a string. -/
def escape (c : Char) : List Char :=
  if c = '"' then ['\\', '"']
  else if c = '\\' then ['\\', '\\']
  else if c = '\x08' then ['\\', 'b']
  else if c = '\x0c' then ['\\', 'f']
  else if c = '\n' then ['\\', 'n']
  else if c = '\r' then ['\\', 'r']
  else if c = '\t' then ['\\', 't']
  else if c.toNat < 32 then
    ['\\', 'u', '0', '0', Nat.digitChar (c.toNat / 16), Nat.digitChar (c.toNat % 16)]
  else [c]

def stringText (s : String) : List Char := '"' :: s.toList.flatMap escape ++ ['"']

mutual

def chars : Json → List Char
  | null => "null".toList
  | bool true => "true".toList
  | bool false => "false".toList
  | int n => (toString n).toList
  | real text => text.toList
  | str s => stringText s
  | arr [] => ['[', ']']
  | arr (j :: rest) => '[' :: chars j ++ itemChars rest ++ [']']
  | obj [] => ['\x7b', '\x7d']
  | obj ((name, j) :: rest) =>
    '\x7b' :: stringText name ++ ':' :: chars j ++ memberChars rest ++ ['\x7d']

/-- The items after the first, each with its comma. -/
def itemChars : List Json → List Char
  | [] => []
  | j :: rest => ',' :: chars j ++ itemChars rest

/-- The members after the first, each with its comma. -/
def memberChars : List (String × Json) → List Char
  | [] => []
  | (name, j) :: rest => ',' :: stringText name ++ ':' :: chars j ++ memberChars rest

end

def render (j : Json) : String := String.ofList (chars j)

end CollectionSync.Json
