import FacetQuery.Json.Reader
import FacetQuery.Wire.Query

/-!
# Requests in the wire form

A request asks for one page of the records of one type that match a query.  Its own
shape, and that of the root of its query, is checked before the query is read.
-/

namespace FacetQuery

/-- A query for the records of one type, and the page of the result that is wanted. -/
structure FilterRequest where
  entityType : String
  query : QueryTree
  limit : UInt64
  offset : UInt64

/-- The number of records on a page when a request does not say. -/
def FilterRequest.defaultLimit : UInt64 :=
  50

namespace Wire

structure RequestFields where
  entityType : String
  query : QueryFields
  limit : UInt64
  offset : UInt64

structure RequestParts where
  entityType : Option String
  query : Option QueryFields
  limit : Option UInt64
  offset : Option UInt64

def requestShape : RecordShape :=
  ⟨"WireRequest", ["entity_type", "query", "limit", "offset"]⟩

def RequestParts.add (p : RequestParts) (name : String) (value : Json) :
    Except Mismatch RequestParts :=
  if name = "entity_type" then do
    pure { p with entityType := ← enter name p.entityType (readText value) }
  else if name = "query" then do
    pure { p with query := ← enter name p.query (QueryFields.ofJson value) }
  else if name = "limit" then do
    pure { p with limit := ← enter name p.limit (readWord value) }
  else if name = "offset" then do
    pure { p with offset := ← enter name p.offset (readWord value) }
  else throw (.unknownField name requestShape)

def RequestFields.ofObject (fields : List (String × Json)) : Except Mismatch RequestFields := do
  let p ← addFields RequestParts.add ⟨none, none, none, none⟩ fields
  let entityType ← required "entity_type" p.entityType
  let query ← required "query" p.query
  pure ⟨entityType, query, p.limit.getD FilterRequest.defaultLimit, p.offset.getD 0⟩

def RequestFields.ofArray : List Json → Except Mismatch RequestFields
  | [] => throw (.tooShort 0 requestShape)
  | [entityType] => do
    let _ ← readText entityType
    throw (.tooShort 1 requestShape)
  | entityType :: query :: more => do
    let entityType ← readText entityType
    let query ← QueryFields.ofJson query
    match more with
    | [] => pure ⟨entityType, query, FilterRequest.defaultLimit, 0⟩
    | [limit] => pure ⟨entityType, query, ← readWord limit, 0⟩
    | limit :: offset :: excess =>
      let limit ← readWord limit
      let offset ← readWord offset
      if excess.isEmpty then pure ⟨entityType, query, limit, offset⟩
      else throw (.tooLong (excess.length + 4))

def RequestFields.ofJson : Json → Except Mismatch RequestFields
  | .object fields => ofObject fields
  | .array items => ofArray items
  | j => .error (wrongKind j (.record requestShape))

/-- Reads a request.  Its own fields come first: a query of the right shape is read only when
the rest of the request is right. -/
def readRequest (j : Json) : Except QueryError FilterRequest :=
  match RequestFields.ofJson j with
  | .error mismatch => .error (.shape mismatch)
  | .ok r => do pure ⟨r.entityType, ← r.query.toTree, r.limit, r.offset⟩

inductive RequestTextError where
  | json (fault : JsonFault)
  | query (error : QueryError)

/-- Reads a request from its text. -/
def readRequestText (s : String) : Except RequestTextError FilterRequest :=
  match Json.read s with
  | .error fault => .error (.json fault)
  | .ok j => (readRequest j).mapError .query

end Wire
end FacetQuery
