import FacetQuery.Implicant

/-!
# Choosing a cover

A cover chooses some of a list of implicants such that every row of a list is covered by
one of them.  The choice is made among positions in the list, so that an implicant that
is listed twice can be told apart; a set of positions is the ascending list of its
members.

A row that only one position covers makes this position *essential*: every cover
contains it.  For the rows that the essential positions leave uncovered, all minimal
sets of positions that meet every row are expanded as a product of sums, where a set
that contains another one is dropped at once (`absorb`).  Of these sets the one with the
fewest members is taken, then the one with the fewest literals, then the first one in
lexicographic order.
-/

namespace FacetQuery

/-- A set of positions, as the ascending list of its members.  The choice is made among
positions, not among implicants, so an implicant that is listed twice is two choices. -/
abbrev PositionSet := List Nat

namespace PositionSet

def insert (i : Nat) : PositionSet → PositionSet
  | [] => [i]
  | j :: rest =>
    if i < j then i :: j :: rest
    else if i = j then j :: rest
    else j :: insert i rest

def union (s t : PositionSet) : PositionSet :=
  s.foldl (fun u i => insert i u) t

def subset (s t : PositionSet) : Bool :=
  s.all fun i => t.contains i

def disjoint (s t : PositionSet) : Bool :=
  s.all fun i => !t.contains i

/-- The lexicographic order of the ascending lists of members. -/
def compareMembers : PositionSet → PositionSet → Ordering
  | [], [] => .eq
  | [], _ :: _ => .lt
  | _ :: _, [] => .gt
  | i :: s, j :: t => (Ord.compare i j).then (compareMembers s t)

def compareSize (s t : PositionSet) : Ordering :=
  (Ord.compare s.length t.length).then (compareMembers s t)

end PositionSet

namespace Cover

open PositionSet

/-! ### Products of sums -/

def keepMinimal (kept : List PositionSet) (s : PositionSet) : List PositionSet :=
  if kept.any (subset · s) then kept else kept ++ [s]

/-- The sets of a list that contain no other set of the list, each once, by size.  After sorting
by size no set is a proper part of an earlier one, so one pass suffices. -/
def absorb (sets : List PositionSet) : List PositionSet :=
  (sets.mergeSort fun s t => compareSize s t != .gt).foldl keepMinimal []

/-- The sets that come out of a set when it has to meet one more sum: the set itself if it does,
and otherwise the set with one member of the sum, in every way. -/
def extend (sum product : PositionSet) : List PositionSet :=
  if disjoint product sum then sum.map fun i => PositionSet.insert i product
  else [product]

def multiply (products : List PositionSet) (sum : PositionSet) : List PositionSet :=
  absorb (products.flatMap (extend sum))

/-- The minimal sets of positions that meet every sum.  Absorbing after each sum keeps the
intermediate products small and loses none of the minimal sets. -/
def expand (sums : List PositionSet) : List PositionSet :=
  (absorb sums).foldl multiply [[]]

/-! ### The choice -/

/-- The number of literals of the implicants at the given positions. -/
def literalTotal (primes : List Implicant) : PositionSet → Nat
  | [] => 0
  | i :: rest => (primes[i]?.map Implicant.literalCount).getD 0 + literalTotal primes rest

/-- The order in which sets are preferred: by size, by the number of literals, and by
members. -/
def comparePreference (primes : List Implicant) (s t : PositionSet) : Ordering :=
  (Ord.compare s.length t.length).then
    ((Ord.compare (literalTotal primes s) (literalTotal primes t)).then (compareMembers s t))

/-- The preferred one of two sets, the first one if there is no difference.  So the outcome of a
choice depends on the order of the sets only where they are equal. -/
def prefer (primes : List Implicant) (s t : PositionSet) : PositionSet :=
  if comparePreference primes t s = .lt then t else s

def meetAll (primes : List Implicant) (sums : List PositionSet) : PositionSet :=
  match expand sums with
  | [] => []
  | s :: rest => rest.foldl (prefer primes) s

def covering (primes : List Implicant) (row : Assignment) : PositionSet :=
  primes.zipIdx.filterMap fun (p, i) => if p.covers row then some i else none

def single? : PositionSet → Option Nat
  | [i] => some i
  | _ => none

/-- A choice of positions, with those among them that no cover can do without. -/
structure Choice where
  essential : PositionSet
  chosen : PositionSet

/-- The choice of a cover, by positions.  The essential positions are taken first, and only the
rows that they leave uncovered are expanded. -/
def choose (primes : List Implicant) (rows : List Assignment) : Choice :=
  let coverings := rows.map (covering primes)
  let essential := (coverings.filterMap single?).foldl (fun s i => PositionSet.insert i s) []
  let remaining := coverings.filter (disjoint · essential)
  { essential
    chosen := if remaining.isEmpty then essential else union (meetAll primes remaining) essential }

structure Selection where
  essential : List Implicant
  cover : List Implicant

def select (primes : List Implicant) (rows : List Assignment) : Selection :=
  let choice := choose primes rows
  { essential := choice.essential.filterMap (primes[·]?)
    cover := choice.chosen.filterMap (primes[·]?) }

end Cover
end FacetQuery
