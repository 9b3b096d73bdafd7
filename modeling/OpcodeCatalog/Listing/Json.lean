import OpcodeCatalog.Listing.Basic

/-!
# Listings as JSON

A line is an object with the members `name` and `code`, a listing an array of such objects.  In a
string, the quotation mark and the backslash are escaped, and so are the control characters below
the space, by a letter where JSON has one and by their number elsewhere.  All other characters
stand for themselves.

Main definitions:

* `Listing.Json.quote` — a text as a JSON string;
* `Listing.Json.compact` — a line without white space;
* `Listing.Json.pretty` — a listing over several lines, indented by two spaces a level.
-/

set_option autoImplicit false

namespace OpcodeCatalog

namespace Listing

namespace Json

/-- A character inside a string. -/
def escape (c : Char) : Text :=
  if c = '"' then ['\\', '"']
  else if c = '\\' then ['\\', '\\']
  else if c.toNat = 0x08 then ['\\', 'b']
  else if c.toNat = 0x09 then ['\\', 't']
  else if c.toNat = 0x0A then ['\\', 'n']
  else if c.toNat = 0x0C then ['\\', 'f']
  else if c.toNat = 0x0D then ['\\', 'r']
  else if c.toNat < 0x20 then ['\\', 'u'] ++ Text.fixedDigits 16 4 c.toNat
  else [c]

/-- The text as a string. -/
def quote (t : Text) : Text := ['"'] ++ t.flatMap escape ++ ['"']

/-- The line as an object without white space. -/
def compact (line : Line) : Text :=
  "\x7b\"name\":".toList ++ quote line.name ++ ",\"code\":".toList ++ Text.decimal line.code.val
    ++ "\x7d".toList

/-- The line as an object inside an array, piece by piece. -/
def prettyLine (line : Line) : List Text :=
  ["  \x7b\n".toList, "    \"name\": ".toList, quote line.name, ",\n".toList,
   "    \"code\": ".toList, Text.decimal line.code.val, "\n  \x7d".toList]

/-- The listing as an array, piece by piece. -/
def pretty : List Line → List Text
  | [] => ["[]".toList]
  | line :: rest =>
    "[\n".toList :: prettyLine line ++
      (rest.flatMap fun line => ",\n".toList :: prettyLine line) ++ ["\n]".toList]

end Json

end Listing

end OpcodeCatalog
