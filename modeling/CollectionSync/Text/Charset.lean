import CollectionSync.Text.Blank
import CollectionSync.Text.Utf16

/-! Texts in the encoding that a server names: UTF-8, UTF-16, or the single bytes of Western Europe.
Any other name counts as UTF-8. -/

namespace CollectionSync.Text

inductive Charset where
  | utf8
  | utf16Little
  | utf16Big
  | western
  deriving DecidableEq

/-- What the bytes from 0x80 to 0x9F stand for in Western Europe. -/
def westernMarks : List Nat :=
  [0x20AC, 0x81, 0x201A, 0x192, 0x201E, 0x2026, 0x2020, 0x2021, 0x2C6, 0x2030, 0x160, 0x2039, 0x152,
    0x8D, 0x17D, 0x8F, 0x90, 0x2018, 0x2019, 0x201C, 0x201D, 0x2022, 0x2013, 0x2014, 0x2DC, 0x2122,
    0x161, 0x203A, 0x153, 0x9D, 0x17E, 0x178]

def westernChar (b : UInt8) : Char :=
  Char.ofNat (if b < 0x80 then b.toNat else (westernMarks[b.toNat - 0x80]?).getD b.toNat)

namespace Charset

/-- The encoding of a name. -/
def named (name : String) : Charset :=
  let name := String.ofList ((trim name.toList).map Char.toLower)
  if name ∈ ["ansi_x3.4-1968", "ascii", "cp1252", "cp819", "csisolatin1", "ibm819", "iso-8859-1",
      "iso-ir-100", "iso8859-1", "iso88591", "iso_8859-1", "iso_8859-1:1987", "l1", "latin1",
      "us-ascii", "windows-1252", "x-cp1252"] then western
  else if name ∈ ["csunicode", "iso-10646-ucs-2", "ucs-2", "unicode", "unicodefeff", "utf-16",
      "utf-16le"] then utf16Little
  else if name ∈ ["unicodefffe", "utf-16be"] then utf16Big
  else utf8

/-- The name that one parameter of a content type gives. -/
def parameter? (text : String) : Option String :=
  match text.splitOn "=" with
  | [name, value] =>
    if String.ofList ((trim name.toList).map Char.toLower) = "charset" then
      some (String.ofList ((trim value.toList).filter (· != '"')))
    else none
  | _ => none

/-- The encoding that a content type names. -/
def ofContentType (text : String) : Charset :=
  (((text.splitOn ";").drop 1).findSome? parameter?).elim utf8 named

/-- The characters that the bytes encode. -/
def decode : Charset → List UInt8 → List Char
  | utf8, bytes => decodeLossy bytes
  | utf16Little, bytes => decodePairs (fun a b => a.toNat + b.toNat * 256) bytes
  | utf16Big, bytes => decodePairs (fun a b => a.toNat * 256 + b.toNat) bytes
  | western, bytes => bytes.map westernChar

/-- The characters that the bytes encode. A mark at their front counts for more than the name. -/
def decodeMarked (charset : Charset) : List UInt8 → List Char
  | 0xEF :: 0xBB :: 0xBF :: rest => decode utf8 rest
  | 0xFF :: 0xFE :: rest => decode utf16Little rest
  | 0xFE :: 0xFF :: rest => decode utf16Big rest
  | bytes => decode charset bytes

end Charset

end CollectionSync.Text
