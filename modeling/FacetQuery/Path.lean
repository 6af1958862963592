import FacetQuery.Formula.Expr
import FacetQuery.Text.Blank
import FacetQuery.Text.Numeral

/-!
# Paths

A path is a conjunction of literals, each a variable or its negation; the empty path
always holds.  A list of paths is read as their disjunction and is called a cover.

The text of a path joins its literals with `&` and marks a negated one with `!`, as in
`3&!5&7`.
-/

namespace FacetQuery

structure Literal where
  var : Nat
  negated : Bool
deriving DecidableEq

/-- A conjunction of literals, in the order in which they are written.  A variable may occur
twice; where it occurs with both signs, the path never holds. -/
structure Path where
  literals : List Literal
deriving DecidableEq

namespace Literal

def holds (l : Literal) (a : Assignment) : Bool :=
  a.value l.var != l.negated

/-- The order of literals: by variable, and a variable before its negation. -/
def compare (l m : Literal) : Ordering :=
  (Ord.compare l.var m.var).then (Ord.compare l.negated m.negated)

def toChars (l : Literal) : List Char :=
  if l.negated then '!' :: Text.numeral l.var else Text.numeral l.var

/-- Reads a literal; blanks may stand around it and behind the sign of the negation. -/
def read? (cs : List Char) : Option Literal :=
  match Text.trim cs with
  | '!' :: rest => (Text.readWord? (Text.trim rest)).map fun v => ⟨v, true⟩
  | digits => (Text.readWord? digits).map fun v => ⟨v, false⟩

end Literal

namespace Path

def holds (p : Path) (a : Assignment) : Bool :=
  p.literals.all (·.holds a)

/-- The variables that must be true, in the order of the literals. -/
def mustHave (p : Path) : List Nat :=
  (p.literals.filter (!·.negated)).map (·.var)

def mustNot (p : Path) : List Nat :=
  (p.literals.filter (·.negated)).map (·.var)

/-- The order of lists of literals: literal by literal, and a list before its extensions. -/
def compareLiterals : List Literal → List Literal → Ordering
  | [], [] => .eq
  | [], _ :: _ => .lt
  | _ :: _, [] => .gt
  | l :: ls, m :: ms => (l.compare m).then (compareLiterals ls ms)

/-- The order of paths. -/
def compare (p q : Path) : Ordering :=
  compareLiterals p.literals q.literals

def le (p q : Path) : Bool :=
  p.compare q != .gt

def behindText : List Literal → List Char
  | [] => []
  | l :: rest => '&' :: l.toChars ++ behindText rest

def toChars (p : Path) : List Char :=
  match p.literals with
  | [] => []
  | l :: rest => l.toChars ++ behindText rest

def toText (p : Path) : String :=
  String.ofList p.toChars

instance : ToString Path := ⟨toText⟩

def splitAtSigns : List Char → List (List Char)
  | [] => [[]]
  | c :: rest =>
    if c = '&' then [] :: splitAtSigns rest
    else
      match splitAtSigns rest with
      | part :: parts => (c :: part) :: parts
      | [] => [[c]]

def readLiterals? (parts : List (List Char)) : Option (List Literal) :=
  parts.mapM Literal.read?

end Path

/-- A text that is not a path, without the blanks around it. -/
structure PathError where
  text : String
deriving DecidableEq

def PathError.message (e : PathError) : String :=
  "invalid path expression `" ++ e.text ++ "`"

/-- Reads a path.  A text of blanks is the empty path, which always holds; blanks between two
signs are an error. -/
def Path.read (s : String) : Except PathError Path :=
  let cs := Text.trim s.toList
  if cs.isEmpty then .ok ⟨[]⟩
  else
    match readLiterals? (splitAtSigns cs) with
    | some literals => .ok ⟨literals⟩
    | none => .error ⟨String.ofList cs⟩

/-- Whether a cover holds: some of its paths does. -/
def coverHolds (cover : List Path) (a : Assignment) : Bool :=
  cover.any (·.holds a)

end FacetQuery
