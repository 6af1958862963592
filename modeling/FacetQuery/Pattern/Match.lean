import FacetQuery.Pattern.RangeText

/-!
# What a predicate value matches

How a value is looked up is decided by its form alone.  A text with the form of a range
is a range; a text that begins or ends with a star is a pattern for the end, the
beginning or the inside of a text; every other value is matched by equal values only.

`ValueMatch.accepts` is the meaning of the four kinds of lookup on one value.
-/

namespace FacetQuery

/-- What a predicate value matches: the values equal to a value, the texts with a beginning, an
end or a part, or the values in a range. -/
inductive ValueMatch where
  | exact (v : Value)
  | startsWith (s : String)
  | endsWith (s : String)
  | contains (s : String)
  | range (r : ValueRange)
deriving DecidableEq

namespace ValueMatch

def wildcard : Char :=
  '*'

def dropLastWildcard (cs : List Char) : List Char :=
  if cs.getLast? = some wildcard then cs.dropLast else cs

/-- What a text that is not a range matches.  Between two stars all stars at the beginning
are dropped, but only one at the end; a single star is both. -/
def ofPattern (s : String) : ValueMatch :=
  let cs := s.toList
  match decide (cs.head? = some wildcard), decide (cs.getLast? = some wildcard) with
  | true, true => .contains (String.ofList (dropLastWildcard (cs.dropWhile (· == wildcard))))
  | true, false => .endsWith (String.ofList (cs.drop 1))
  | false, true => .startsWith (String.ofList cs.dropLast)
  | false, false => .exact (.text s)

/-- What a predicate value matches.  Only texts have forms to tell apart; a range comes before a
pattern, and a text with the form of a range that is none is an error, not a pattern. -/
def classify : Value → Except RangeError ValueMatch
  | .text s =>
    match RangeText.ofText? s.toList with
    | some parts => (parts.toRange s).map .range
    | none => .ok (ofPattern s)
  | v => .ok (.exact v)

def occursIn (inner : List Char) : List Char → Bool
  | [] => inner.isEmpty
  | c :: rest => inner.isPrefixOf (c :: rest) || occursIn inner rest

def textSatisfies (p : List Char → Bool) (v : Value) : Bool :=
  v.asText?.any fun s => p s.toList

def accepts (m : ValueMatch) (v : Value) : Bool :=
  match m with
  | exact w => w == v
  | startsWith s => textSatisfies s.toList.isPrefixOf v
  | endsWith s => textSatisfies s.toList.isSuffixOf v
  | contains s => textSatisfies (occursIn s.toList) v
  | range r => r.contains v

end ValueMatch
end FacetQuery
