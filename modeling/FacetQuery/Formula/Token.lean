import FacetQuery.Text.Blank
import FacetQuery.Text.Numeral

/-!
# The tokens of a formula

A formula is written with the signs `!`, `&`, `|`, `(` and `)` and with numerals for the
variables.  Layout may stand between tokens and has no meaning, except that it ends a
numeral.  A numeral is as long as it can be and must be below `2 ^ 64`.
-/

namespace FacetQuery.Formula

inductive Token where
  | not
  | and
  | or
  | opening
  | closing
  | var (v : Nat)
deriving DecidableEq

def Token.ofSign? : Char → Option Token
  | '!' => some not
  | '&' => some and
  | '|' => some or
  | '(' => some opening
  | ')' => some closing
  | _ => none

/-- The tokens behind a numeral whose value is known, with the numeral in front.  A numeral that
is too large spoils the whole text. -/
def endNumeral (pending : Option Nat) (tokens : List Token) : Option (List Token) :=
  match pending with
  | none => some tokens
  | some v => if v < UInt64.size then some (.var v :: tokens) else none

/-- The tokens of a text; `pending` is the value of the numeral that ends where the text
begins. -/
def scan (pending : Option Nat) : List Char → Option (List Token)
  | [] => endNumeral pending []
  | c :: rest =>
    if c.isDigit then scan (some (10 * pending.getD 0 + Text.digitValue c)) rest
    else do
      let tokens ← scan none rest
      if Text.isLayout c then endNumeral pending tokens
      else endNumeral pending ((← Token.ofSign? c) :: tokens)

def tokens? (cs : List Char) : Option (List Token) :=
  scan none cs

end FacetQuery.Formula
