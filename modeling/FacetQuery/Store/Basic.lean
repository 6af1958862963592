import FacetQuery.Pattern.Match
import FacetQuery.Store.RangeIndex
import Std.Data.HashMap

/-!
# A store of records

A store holds records of several types.  For each type there is a table: the set of the
record numbers, a column for each property, which maps a value to the records that have
it, and for some properties a range index.

A record is a number and may be extended at any time; nothing is ever taken out.  A range
index may be asked for before or after the records are there: it is filled from the
column when it is created and kept up to date from then on, so the order of the two makes
no difference to any lookup.

Numbers are equal to a lookup when they are the same number, whichever kind they are of
(`numericTwins`).
-/

namespace FacetQuery

abbrev Column := Std.HashMap Value IdSet

/-- The records of one type.  A value of a record is filed in the column of its property and,
where there is one, in the range index; the set of the records is kept apart, since a record
need not have any values. -/
structure Table where
  records : IdSet
  columns : Std.HashMap String Column
  indexes : Std.HashMap String RangeIndex

structure Store where
  tables : Std.HashMap String Table

inductive LookupError where
  | missingRangeIndex (entityType property : String)
  | invalidValue (error : RangeError)
  | backend (message : String)
deriving DecidableEq

def LookupError.message : LookupError → String
  | missingRangeIndex entityType property =>
    "no orderable index on `" ++ entityType ++ "." ++ property ++ "` for range lookup"
  | invalidValue error => error.message
  | backend message => "lookup backend failed: " ++ message

namespace Table

def empty : Table :=
  ⟨∅, ∅, ∅⟩

def addToColumn (id : RecordId) (v : Value) (column : Option Column) : Option Column :=
  some ((column.getD ∅).alter v fun ids => some ((ids.getD ∅).insert id))

/-- The table with one more value of a record.  Both places are written, the column and the
index, whichever of the two came first. -/
def addValue (id : RecordId) (t : Table) (property : String) (v : Value) : Table :=
  { t with
    columns := t.columns.alter property (addToColumn id v)
    indexes := t.indexes.modify property fun index => index.add v id }

/-- The table with one more record, or with more values of a record that it has.  A property may
be given several times; all of its values count. -/
def insert (t : Table) (id : RecordId) (properties : List (String × Value)) : Table :=
  properties.foldl (fun t p => addValue id t p.1 p.2) { t with records := t.records.insert id }

/-- The range index of a column, filled with what the column has at this moment. -/
def indexOf (column : Column) : RangeIndex :=
  column.toList.foldl
    (fun index e => e.2.toList.foldl (fun index id => index.add e.1 id) index) .empty

def createRangeIndex (t : Table) (property : String) : Table :=
  { t with indexes := t.indexes.insert property (indexOf (t.columns.getD property ∅)) }

end Table

/-- The numbers that are equal to a number, as values: a whole number and the double of the
same size.  Beyond `2 ^ 63` a double has no such partner. -/
def numericTwins : Value → List Value
  | .int i => [.int i, .float (Binary64.ofInt i.toInt)]
  | .float x =>
    match x.toInt? with
    | some i =>
      if i.natAbs < Nat.pow 2 63 then [.float x, .int (Int64.ofInt i)] else [.float x]
    | none => [.float x]
  | v => [v]

/-- The records of a column that a match other than a range finds.  An equal value is looked up,
and so is its numeric twin; the other matches go through the whole column. -/
def Column.lookup (column : Column) : ValueMatch → IdSet
  | .exact v => IdSet.unionAll ((numericTwins v).filterMap (column[·]?))
  | m => IdSet.unionAll ((column.toList.filter fun e => m.accepts e.1).map (·.2))

namespace Store

def empty : Store :=
  ⟨∅⟩

def insert (s : Store) (entityType : String) (id : RecordId)
    (properties : List (String × Value)) : Store :=
  ⟨s.tables.alter entityType fun t => some ((t.getD .empty).insert id properties)⟩

def createRangeIndex (s : Store) (entityType property : String) : Store :=
  ⟨s.tables.alter entityType fun t => some ((t.getD .empty).createRangeIndex property)⟩

/-- The records of a type; a type of which nothing is known has none. -/
def allRecords (s : Store) (entityType : String) : IdSet :=
  (s.tables[entityType]?.map Table.records).getD ∅

def size (s : Store) (entityType : String) : Nat :=
  (s.allRecords entityType).size

def isEmpty (s : Store) : Bool :=
  s.tables.toList.all fun t => t.2.records.isEmpty

/-- The records of a type that have a matching value of a property.  A type of which there
is no table has no records, and ranges need an index. -/
def lookup (s : Store) (entityType property : String) (m : ValueMatch) :
    Except LookupError IdSet :=
  match s.tables[entityType]? with
  | none => .ok ∅
  | some t =>
    match m with
    | .range r =>
      match t.indexes[property]? with
      | none => .error (.missingRangeIndex entityType property)
      | some index => .ok (index.lookup r)
    | m => .ok ((t.columns[property]?.map (Column.lookup · m)).getD ∅)

end Store
end FacetQuery
