import FacetQuery.IdSet
import FacetQuery.Path
import FacetQuery.Query.Registry

/-!
# Evaluating a cover

A cover is evaluated as set algebra: a path is the intersection of the records of the
atoms it must have, less the records of the atoms it must not have, and the cover is the
union of its paths.  A path without an atom it must have starts from all records.

## What is asked, and when

The sets come from a `BitmapSource`, whose answers may change from one question to the
next, so it matters what is asked of it.  The records of an atom are those of any of its
values, each asked for once; they are remembered (`Snapshot`), so that an atom means the
same wherever the cover mentions it.  All atoms that a path must have are asked for, the
atoms it must not have only as long as there are records left.  All records are asked for
anew by each path that starts from them.

A cover that mentions an atom which is not registered is refused before anything is asked.
The evaluation of a path refuses such an atom once more, when it comes to it.
-/

namespace FacetQuery

/-- Where the sets of records come from.  Both questions are steps on a state of type `σ`, so an
answer may depend on what was asked before. -/
structure BitmapSource (σ : Type) where
  resolve (property : String) (value : Value) : StateM σ IdSet
  allRecords : StateM σ IdSet

inductive EvaluateError where
  | unknownPredicate (id : Nat)
deriving DecidableEq

def EvaluateError.message : EvaluateError → String
  | unknownPredicate id =>
    "path references predicate id " ++ String.ofList (Text.numeral id) ++
      " missing from the registry"

namespace Evaluation

variable {σ : Type}

/-- The records of the atoms that have been asked for, by the number of the atom.  What is
remembered is not asked for again, and this is what makes an atom mean the same wherever a cover
mentions it. -/
abbrev Snapshot := List (Nat × IdSet)

/-- An evaluation in progress.  What has been asked and remembered before it fails stays so. -/
abbrev EvaluateM (σ : Type) := ExceptT EvaluateError (StateM (Snapshot × σ))

def firstUnknown? (registry : Registry) (cover : List Path) : Option Nat :=
  ((cover.flatMap Path.literals).map Literal.var).find? fun id => (registry.atom? id).isNone

def resolveEach (source : BitmapSource σ) (property : String) : List Value → StateM σ (List IdSet)
  | [] => pure []
  | v :: rest => do
    let ids ← source.resolve property v
    let sets ← resolveEach source property rest
    pure (ids :: sets)

/-- The records of an atom: those that match any of its values, each of which is asked for. -/
def resolveAtom (source : BitmapSource σ) (a : Atom) : StateM σ IdSet :=
  match a.values with
  -- The answer for a single value is taken as it is.
  | [v] => source.resolve a.property v
  | values => IdSet.unionAll <$> resolveEach source a.property values

/-- The records of the atom with a number, which are asked for when they are not remembered.  A
number that is not registered is an error here too, although a cover with such a number is
refused before. -/
def atomRecords (source : BitmapSource σ) (registry : Registry) (id : Nat) : EvaluateM σ IdSet :=
  ExceptT.mk fun (known, s) =>
    match known.lookup id with
    | some ids => (.ok ids, known, s)
    | none =>
      match registry.atom? id with
      | none => (.error (.unknownPredicate id), known, s)
      | some a =>
        let (ids, s) := (resolveAtom source a).run s
        (.ok ids, (id, ids) :: known, s)

def atomsRecords (source : BitmapSource σ) (registry : Registry) :
    List Nat → EvaluateM σ (List IdSet)
  | [] => pure []
  | id :: rest => do
    let ids ← atomRecords source registry id
    let sets ← atomsRecords source registry rest
    pure (ids :: sets)

def narrow (ids : IdSet) : List IdSet → IdSet
  | [] => ids
  | t :: rest =>
    -- Once there are no members, the other sets do not matter.
    if ids.isEmpty then ids else narrow (ids.inter t) rest

/-- All records, or the common ones of the sets of a list if there are any sets.  The smallest
set comes first, so that few members are left as early as possible. -/
def common (source : BitmapSource σ) (sets : List IdSet) : EvaluateM σ IdSet :=
  match sets.mergeSort fun s t => s.size ≤ t.size with
  | [] => ExceptT.mk fun (known, s) =>
    let (ids, s) := source.allRecords.run s
    (.ok ids, known, s)
  | smallest :: rest => pure (narrow smallest rest)

def without (source : BitmapSource σ) (registry : Registry) (ids : IdSet) :
    List Nat → EvaluateM σ IdSet
  | [] => pure ids
  | id :: rest =>
    -- Nothing can be taken from no records, so nothing is asked.
    if ids.isEmpty then pure ids
    else do
      let excluded ← atomRecords source registry id
      without source registry (ids.diff excluded) rest

def pathRecords (source : BitmapSource σ) (registry : Registry) (p : Path) :
    EvaluateM σ IdSet := do
  let sets ← atomsRecords source registry p.mustHave
  let ids ← common source sets
  without source registry ids p.mustNot

def coverRecords (source : BitmapSource σ) (registry : Registry) (ids : IdSet) :
    List Path → EvaluateM σ IdSet
  | [] => pure ids
  | p :: rest => do
    let matched ← pathRecords source registry p
    coverRecords source registry (ids.union matched) rest

end Evaluation

/-- The records of a cover, whose variables are the numbers of atoms.  A cover with an
unregistered number is refused before anything is asked, whatever comes before the number. -/
def evaluateCover {σ : Type} (source : BitmapSource σ) (registry : Registry) (cover : List Path) :
    StateM σ (Except EvaluateError IdSet) :=
  match Evaluation.firstUnknown? registry cover with
  | some id => pure (.error (.unknownPredicate id))
  | none => fun s =>
    let (result, _, s) := (Evaluation.coverRecords source registry ∅ cover).run.run ([], s)
    (result, s)

/-- The members of a set at the positions from `offset` on, so many at most. -/
def IdSet.page (ids : IdSet) (offset limit : Nat) : List RecordId :=
  (ids.toList.drop offset).take limit

end FacetQuery
