import FacetQuery.Decimal.Notation

/-!
# JSON values

The tree of a JSON text.  Whole numbers of the 64-bit range, signed or unsigned, are
kept apart from doubles, so `1` and `1.0` differ; an object is a list of fields in the
order in which they are visited, which is the order of the keys when the object was
read from a text.

`compact` writes a value without any layout.
-/

namespace FacetQuery

/-- A value of a JSON text.  An object may list its fields in any order and twice; one that was read
from a text is sorted and has each key once. -/
inductive Json where
  | null
  | bool (b : Bool)
  | int (i : Int)
  | float (x : Binary64)
  | text (s : String)
  | array (items : List Json)
  | object (fields : List (String × Json))
deriving Inhabited

namespace Json

def field? (key : String) : Json → Option Json
  | object fields => (fields.find? (·.1 == key)).map (·.2)
  | _ => none

def hasField (key : String) (j : Json) : Bool :=
  (j.field? key).isSome

/-- The fields with one more, at its place in the order of the keys; a field with the same
key gives way. -/
def insertField (key : String) (value : Json) :
    List (String × Json) → List (String × Json)
  | [] => [(key, value)]
  | (k, v) :: rest =>
    if key < k then (key, value) :: (k, v) :: rest
    else if key == k then (key, value) :: rest
    else (k, v) :: insertField key value rest

/-- The object of a sequence of fields: sorted by key, and of fields with the same key the
last one. -/
def ofFields (fields : List (String × Json)) : Json :=
  object (fields.foldl (fun sorted f => insertField f.1 f.2 sorted) [])

def escapeChar (c : Char) : List Char :=
  if c == '"' then ['\\', '"']
  else if c == '\\' then ['\\', '\\']
  else if c == '\x08' then ['\\', 'b']
  else if c == '\x0c' then ['\\', 'f']
  else if c == '\n' then ['\\', 'n']
  else if c == '\r' then ['\\', 'r']
  else if c == '\t' then ['\\', 't']
  else if c.toNat < 0x20 then
    '\\' :: 'u' :: '0' :: '0' :: (if c.toNat < 0x10 then ['0'] else []) ++
      Text.hexNumeral c.toNat
  else [c]

def quoted (s : String) : String :=
  String.ofList ('"' :: (s.toList.flatMap escapeChar ++ ['"']))

mutual

/-- The text of a value, without layout.  A double that is not finite has no text and is
written as `null`. -/
def compact : Json → String
  | null => "null"
  | bool b => if b then "true" else "false"
  | int i => String.ofList (Text.signedNumeral i)
  | float x => if x.isFinite then x.jsonText else "null"
  | text s => quoted s
  | array items => "[" ++ ",".intercalate (compactItems items) ++ "]"
  | object fields => "\x7b" ++ ",".intercalate (compactFields fields) ++ "\x7d"

def compactItems : List Json → List String
  | [] => []
  | j :: rest => compact j :: compactItems rest

def compactFields : List (String × Json) → List String
  | [] => []
  | (key, j) :: rest => (quoted key ++ ":" ++ compact j) :: compactFields rest

end

end Json
end FacetQuery
