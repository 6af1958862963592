import FacetQuery.Text.Blank
import FacetQuery.Text.Numeral

/-!
# The tokens of a JSON text

Every text has tokens: where a token is not well formed, the list ends with a token
that says so.  What is wrong with a text is either that it ends too early (`unfinished`)
or that a character is out of place (`malformed`).

A value can be read or skipped, and skipping looks less closely: an unpaired surrogate
is malformed only for a reader, and a number cut off by the end of the text is
unfinished for a reader and malformed for a skipper.  A token therefore carries both
findings, and whoever consumes it picks one.
-/

namespace FacetQuery

/-- What is wrong with a text that is not JSON: it ended while something was still open, or a
character is out of place or a number out of range. -/
inductive JsonFault where
  | unfinished
  | malformed
deriving DecidableEq

namespace JsonText

/-- A defect, as it is found by a reader that wants the value and by one that skips it.  The two
differ where a number is cut off, and for surrogates. -/
structure Defect where
  read : JsonFault
  skip : JsonFault

def Defect.both (fault : JsonFault) : Defect :=
  ⟨fault, fault⟩

/-- The parts of a well-formed number: its sign, the digits before and after the point, and the
sign and the digits of the power of ten. -/
structure NumberText where
  negative : Bool
  whole : List Char
  fraction : Option (List Char)
  exponent : Option (Bool × List Char)

/-- The smallest unit of a JSON text.  A text that is terminated is a token even if its content
is malformed, since a reader may come upon another defect first. -/
inductive Token where
  | openArray
  | closeArray
  | openObject
  | closeObject
  | comma
  | colon
  | null
  | bool (b : Bool)
  | number (n : NumberText)
  | text (content : Except JsonFault String)
  | brokenText (defect : Defect)
  | broken (defect : Defect)

/-! ### Numbers -/

/-- The power of ten of a number, behind the letter that announces it. -/
def scanExponent (cs : List Char) : Except Defect ((Bool × List Char) × List Char) :=
  let (negative, rest) := match cs with
    | '+' :: rest => (false, rest)
    | '-' :: rest => (true, rest)
    | _ => (false, cs)
  match rest.takeWhile Char.isDigit, rest with
  | [], [] => .error ⟨.unfinished, .malformed⟩
  | [], _ => .error (.both .malformed)
  | digits, _ => .ok ((negative, digits), rest.dropWhile Char.isDigit)

def scanOptionalExponent (cs : List Char) :
    Except Defect (Option (Bool × List Char) × List Char) :=
  match cs with
  | 'e' :: rest => (scanExponent rest).map fun r => (some r.1, r.2)
  | 'E' :: rest => (scanExponent rest).map fun r => (some r.1, r.2)
  | _ => .ok (none, cs)

def scanFraction (cs : List Char) : Except Defect (Option (List Char) × List Char) :=
  match cs with
  | '.' :: rest =>
    match rest.takeWhile Char.isDigit, rest with
    | [], [] => .error ⟨.unfinished, .malformed⟩
    | [], _ => .error (.both .malformed)
    | digits, _ => .ok (some digits, rest.dropWhile Char.isDigit)
  | _ => .ok (none, cs)

/-- A number without its sign.  A zero at the start is the only digit before the point. -/
def scanMagnitude (negative : Bool) (cs : List Char) :
    Except Defect (NumberText × List Char) := do
  match cs.takeWhile Char.isDigit, cs with
  | [], [] => .error ⟨.unfinished, .malformed⟩
  | [], _ => .error (.both .malformed)
  | '0' :: _ :: _, _ => .error (.both .malformed)
  | whole, _ =>
    let (fraction, rest) ← scanFraction (cs.dropWhile Char.isDigit)
    let (exponent, rest) ← scanOptionalExponent rest
    pure (⟨negative, whole, fraction, exponent⟩, rest)

/-! ### Texts -/

/-- A part of the content of a text: a character, or a code unit given by its number.  Code
units are put together only when all pieces are known. -/
inductive Piece where
  | char (c : Char)
  | unit (n : Nat)

def hexUnit? (a b c d : Char) : Option Nat := do
  let a ← Text.hexDigitValue? a
  let b ← Text.hexDigitValue? b
  let c ← Text.hexDigitValue? c
  let d ← Text.hexDigitValue? d
  pure (((a * 16 + b) * 16 + c) * 16 + d)

def escaped? : Char → Option Char
  | '"' => some '"'
  | '\\' => some '\\'
  | '/' => some '/'
  | 'b' => some '\x08'
  | 'f' => some '\x0c'
  | 'n' => some '\n'
  | 'r' => some '\r'
  | 't' => some '\t'
  | _ => none

def byteLength : List Char → Nat
  | [] => 0
  | c :: rest => c.utf8Size + byteLength rest

/-- The pieces of a text behind its opening quote, the last one first, and either the rest
behind the closing quote or what is wrong.  A code unit that is followed by fewer than
four bytes is unfinished, whatever these bytes are. -/
def scanPieces (pieces : List Piece) : List Char → List Piece × Except JsonFault (List Char)
  | [] => (pieces, .error .unfinished)
  | '"' :: rest => (pieces, .ok rest)
  | '\\' :: 'u' :: rest =>
    match rest with
    | a :: b :: c :: d :: rest =>
      match hexUnit? a b c d with
      | some n => scanPieces (.unit n :: pieces) rest
      | none => (pieces, .error .malformed)
    | short => (pieces, .error (if byteLength short < 4 then .unfinished else .malformed))
  | '\\' :: c :: rest =>
    match escaped? c with
    | some c => scanPieces (.char c :: pieces) rest
    | none => (pieces, .error .malformed)
  | ['\\'] => (pieces, .error .unfinished)
  | c :: rest =>
    if c.toNat < 0x20 then (pieces, .error .malformed)
    else scanPieces (.char c :: pieces) rest

/-- Puts the pieces of a text together behind the characters before them, the last one
first.  Code units from `D800` to `DFFF` are surrogates, which stand only in pairs; `atEnd`
is what is wrong when the pieces end within a pair. -/
def joinPieces (atEnd : JsonFault) (before : List Char) : List Piece → Except JsonFault String
  | [] => .ok (String.ofList before.reverse)
  | .char c :: rest => joinPieces atEnd (c :: before) rest
  | .unit n :: rest =>
    if 0xDC00 ≤ n ∧ n ≤ 0xDFFF then .error .malformed
    else if n < 0xD800 ∨ 0xDFFF < n then joinPieces atEnd (Char.ofNat n :: before) rest
    else match rest with
      | .unit m :: rest =>
        if 0xDC00 ≤ m ∧ m ≤ 0xDFFF then
          let c := Char.ofNat (0x10000 + (n - 0xD800) * 0x400 + (m - 0xDC00))
          joinPieces atEnd (c :: before) rest
        else .error .malformed
      | .char _ :: _ => .error .malformed
      | [] => .error atEnd

def scanText (cs : List Char) : Token × List Char :=
  match scanPieces [] cs with
  | (pieces, .ok rest) => (.text (joinPieces .malformed [] pieces.reverse), rest)
  | (pieces, .error fault) =>
    match joinPieces fault [] pieces.reverse with
    | .ok _ => (.brokenText (.both fault), [])
    | .error read => (.brokenText ⟨read, fault⟩, [])

/-! ### All tokens -/

def scanWord (token : Token) : List Char → List Char → Token × List Char
  | [], rest => (token, rest)
  | _ :: _, [] => (.broken (.both .unfinished), [])
  | e :: expected, c :: rest =>
    if c == e then scanWord token expected rest else (.broken (.both .malformed), [])

def scanNumber (negative : Bool) (cs : List Char) : Token × List Char :=
  match scanMagnitude negative cs with
  | .ok (number, rest) => (.number number, rest)
  | .error defect => (.broken defect, [])

/-- The token that starts with a given character, and the rest; behind a token that is not
well formed there is no rest. -/
def scanToken (c : Char) (rest : List Char) : Token × List Char :=
  match c with
  | '[' => (.openArray, rest)
  | ']' => (.closeArray, rest)
  | '\x7b' => (.openObject, rest)
  | '\x7d' => (.closeObject, rest)
  | ',' => (.comma, rest)
  | ':' => (.colon, rest)
  | '"' => scanText rest
  | '-' => scanNumber true rest
  | 'n' => scanWord .null ['u', 'l', 'l'] rest
  | 't' => scanWord (.bool true) ['r', 'u', 'e'] rest
  | 'f' => scanWord (.bool false) ['a', 'l', 's', 'e'] rest
  | c => if c.isDigit then scanNumber false (c :: rest) else (.broken (.both .malformed), [])

/-- The tokens of a text behind the tokens before them, the last one first.  Every token
takes at least one character, so the length of the text bounds the number of steps. -/
def scanTokens (before : List Token) : Nat → List Char → List Token
  | 0, _ => before.reverse
  | _ + 1, [] => before.reverse
  | steps + 1, c :: rest =>
    if Text.isLayout c then scanTokens before steps rest
    else
      let (token, rest) := scanToken c rest
      scanTokens (token :: before) steps rest

def tokens (cs : List Char) : List Token :=
  scanTokens [] cs.length cs

end JsonText
end FacetQuery
