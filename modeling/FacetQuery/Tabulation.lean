import FacetQuery.Implicant
import Std.Data.HashSet

/-!
# Prime implicants

An implicant of a function holds in no row in which the function is false; it is prime
when no variable that it forces can be left open.  The prime implicants are found by
rounds of merging.  A round starts from all implicants with the same number of open
variables.  Those of them that merge with another one are not prime, and what they merge
into makes up the next round; the others are prime.

Two implicants that merge differ in the value of one variable, so the partners of an
implicant are found by looking up in a hash set what it becomes when one of its variables
is flipped, instead of trying all pairs.  The one of the two that forces the variable to be
false is where the merge is found (`Implicant.upperNeighbours`), and it speaks for both.
-/

namespace FacetQuery

def Expr.trueRows (e : Expr) (numVars : Nat) : List Assignment :=
  ((List.range (Nat.pow 2 numVars)).map (BitVec.ofNat 64)).filter e.eval

namespace Tabulation

def distinct (ps : List Implicant) : List Implicant :=
  (Std.HashSet.ofList ps).toList

/-- What a round has found so far: what members of the round merge into, and the members that
merge with another one. -/
structure Merges where
  merged : Std.HashSet Implicant
  combined : Std.HashSet Implicant

/-- One more merge, of a member with an upper neighbour of it.  Both of them are marked, though
only one has been visited. -/
def Merges.add (p : Implicant) (found : Merges) (n : Implicant × Implicant) : Merges :=
  { merged := found.merged.insert n.2
    combined := (found.combined.insert p).insert n.1 }

/-- The merges of one more member: with those of its upper neighbours that are in the set. -/
def Merges.visit (known : Std.HashSet Implicant) (found : Merges) (p : Implicant) : Merges :=
  (p.upperNeighbours.filter fun n => known.contains n.1).foldl (add p) found

def merges (current : List Implicant) : Merges :=
  current.foldl (Merges.visit (Std.HashSet.ofList current)) ⟨∅, ∅⟩

/-- What comes out of one round: the implicants of the next one, and the members that do not
merge and so are prime. -/
structure Round where
  next : List Implicant
  primes : List Implicant

/-- One round of merging.  The order of the next round is that of a hash set and means nothing;
the prime implicants are sorted in the end. -/
def round (current : List Implicant) : Round :=
  let found := merges current
  { next := found.merged.toList
    primes := current.filter fun p => !found.combined.contains p }

def primesWithin : Nat → List Implicant → List Implicant
  | 0, _ => []
  | rounds + 1, current =>
    if current.isEmpty then []
    else
      let r := round current
      r.primes ++ primesWithin rounds r.next

/-- The prime implicants of the function that is true in the given rows, ascending.  Each
round opens one variable more, so there is one round more than there are variables. -/
def primeImplicants (rows : List Assignment) (numVars : Nat) : List Implicant :=
  let start := distinct (rows.map (Implicant.ofRow · numVars))
  (primesWithin (numVars + 1) start).mergeSort Implicant.le

end Tabulation
end FacetQuery
