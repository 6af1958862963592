import FacetQuery.Config.Basic
import FacetQuery.Json.Draft
import FacetQuery.Json.Number
import FacetQuery.Wire.Mismatch

/-!
# Reading a configuration

A configuration is read from its text in one pass.  Fields are taken in the order of the
text; a field that is not known is skipped, a field that is there twice is an error, and
a field that is missing keeps its default.  A record may also be written as the array of
its fields, of which those at the end may be missing.

The first thing that is wrong is reported, be it with the text or with its content.
-/

namespace FacetQuery

inductive ConfigError where
  | json (fault : JsonFault)
  | mismatch (mismatch : Wire.Mismatch)
  /-- A number of seconds is not a span of time. -/
  | duration (error : DurationError)
deriving DecidableEq

/-- The wording of a `ConfigError`; a text that is not JSON has none. -/
def ConfigError.message? : ConfigError → Option String
  | json _ => none
  | mismatch m => some m.message
  | duration e => some e.message

namespace JsonText.Draft

mutual

/-- What is wrong with a value that is skipped, if something is.  Its numbers and texts are not
looked at, so a number out of range passes here; but the text has to go on being JSON. -/
def skip : Draft → Except JsonFault Unit
  | array items defect => do
    skipItems items
    defect.elim (pure ()) fun d => throw d.skip
  | object fields defect => do
    skipFields fields
    defect.elim (pure ()) fun d => throw d.skip
  | broken defect => throw defect.skip
  | _ => pure ()

def skipItems : List Draft → Except JsonFault Unit
  | [] => pure ()
  | item :: rest => do
    skip item
    skipItems rest

def skipFields : List (Except JsonFault String × Draft) → Except JsonFault Unit
  | [] => pure ()
  | (_, value) :: rest => do
    skip value
    skipFields rest

end

/-- What a value is.  Arrays and objects are named without looking inside. -/
def found : Draft → Except JsonFault Wire.Found
  | null => pure .null
  | bool b => pure (.bool b)
  | number n => return .ofJson (← n.toJson)
  | text content => return .text (← content)
  | array _ _ => pure .sequence
  | object _ _ => pure .map
  | broken defect => throw defect.read

end JsonText.Draft

namespace Config

open JsonText (Draft Defect)

def ofJson {α : Type} (result : Except JsonFault α) : Except ConfigError α :=
  result.mapError .json

def refuse {α : Type} (wanted : Wire.Wanted) (d : Draft) : Except ConfigError α := do
  throw (.mismatch (.wrongKind (← ofJson d.found) wanted))

def readWord (wanted : Wire.Wanted) (d : Draft) : Except ConfigError UInt64 := do
  match d with
  | .number n =>
    match ← ofJson n.toJson with
    | .int i =>
      if i < 0 then throw (.mismatch (.negative i wanted)) else pure (UInt64.ofNat i.toNat)
    | _ => refuse wanted d
  | _ => refuse wanted d

def readOptionalWord (wanted : Wire.Wanted) : Draft → Except ConfigError (Option UInt64)
  | .null => pure none
  | d => return some (← readWord wanted d)

def readDuration (d : Draft) : Except ConfigError Duration := do
  match d with
  | .number n =>
    match ← ofJson n.toJson with
    | .int i => (Duration.ofBinary64 (Binary64.ofInt i)).mapError .duration
    | .float x => (Duration.ofBinary64 x).mapError .duration
    | _ => refuse .number d
  | _ => refuse .number d

/-! ### Records -/

/-- How a record is read: the names of its fields, whether a field has been entered, and how its
value is.  The records of a configuration differ in nothing else. -/
structure RecordReader (ρ : Type) where
  shape : Wire.RecordShape
  isEntered : ρ → String → Bool
  enter : ρ → String → Draft → Except ConfigError ρ

variable {ρ : Type}

def endWith (defect : Option Defect) (r : ρ) : Except ConfigError ρ :=
  match defect with
  | none => pure r
  | some d => throw (.json d.read)

/-- Reads the fields of an object, in the order of the text.  A field that is not known is
skipped, and one that is there twice is an error even if both are the same. -/
def RecordReader.readFields (reader : RecordReader ρ) (r : ρ) :
    List (Except JsonFault String × Draft) → Except ConfigError ρ
  | [] => pure r
  | (key, value) :: rest => do
    let name ← ofJson key
    if reader.shape.fields.contains name then
      if reader.isEntered r name then throw (.mismatch (.repeatedField name))
      else readFields reader (← reader.enter r name value) rest
    else
      ofJson value.skip
      readFields reader r rest

/-- Reads the items of an array as the fields with the given names.  Fields at the end may be
missing; more items than fields are a defect of the text. -/
def RecordReader.readItems (reader : RecordReader ρ) (r : ρ) :
    List String → List Draft → Except ConfigError ρ
  | _, [] => pure r
  | [], _ :: _ => throw (.json .malformed)
  | name :: names, item :: rest => do
    readItems reader (← reader.enter r name item) names rest

def RecordReader.read (reader : RecordReader ρ) (start : ρ) (d : Draft) : Except ConfigError ρ :=
  match d with
  | .object fields defect => do endWith defect (← reader.readFields start fields)
  | .array items defect => do
    endWith defect (← reader.readItems start reader.shape.fields items)
  | d => refuse (.record reader.shape) d

/-- The settings of the cache that have been read.  A capacity that has been read may be the
absence of a limit, hence two options. -/
structure CacheParts where
  idleTtl : Option Duration
  refreshAfter : Option Duration
  maxCapacity : Option (Option UInt64)

def cacheReader : RecordReader CacheParts where
  shape := ⟨"CacheConfig", ["idle_ttl_secs", "refresh_after_secs", "max_capacity"]⟩
  isEntered p name :=
    if name = "idle_ttl_secs" then p.idleTtl.isSome
    else if name = "refresh_after_secs" then p.refreshAfter.isSome
    else p.maxCapacity.isSome
  enter p name d :=
    if name = "idle_ttl_secs" then return { p with idleTtl := some (← readDuration d) }
    else if name = "refresh_after_secs" then
      return { p with refreshAfter := some (← readDuration d) }
    else return { p with maxCapacity := some (← readOptionalWord .word d) }

/-- Reads the settings of the cache.  What has not been said keeps its default, field by field. -/
def readCache (d : Draft) : Except ConfigError CacheConfig := do
  let p ← cacheReader.read ⟨none, none, none⟩ d
  let standard := CacheConfig.standard
  pure ⟨p.idleTtl.getD standard.idleTtl, p.refreshAfter.getD standard.refreshAfter,
    p.maxCapacity.getD standard.maxCapacity⟩

structure EngineParts where
  cache : Option CacheConfig
  maxPredicates : Option UInt64

def engineReader : RecordReader EngineParts where
  shape := ⟨"EngineConfig", ["cache", "max_predicates"]⟩
  isEntered p name := if name = "cache" then p.cache.isSome else p.maxPredicates.isSome
  enter p name d :=
    if name = "cache" then return { p with cache := some (← readCache d) }
    else return { p with maxPredicates := some (← readWord .size d) }

end Config

namespace EngineConfig

open Config

/-- Reads the settings of a filter from their text.  What follows the value is noticed last,
when the value has been found to be right. -/
def read (s : String) : Except ConfigError EngineConfig := do
  let (draft, more) := JsonText.Draft.ofText s
  let p ← engineReader.read ⟨none, none⟩ draft
  if more then throw (.json .malformed)
  pure ⟨p.cache.getD standard.cache, p.maxPredicates.getD standard.maxPredicates⟩

/-- Why there is no configuration in a file. -/
inductive FileError where
  | unreadable (path reason : String)
  | config (error : ConfigError)
deriving DecidableEq

/-- The wording of a `FileError`. -/
def FileError.message? : FileError → Option String
  | unreadable path reason => some ("failed to read config " ++ path ++ ": " ++ reason)
  | config error => error.message?

/-- Reads the settings of a filter from a file, given its text or why it cannot be read. -/
def load (path : String) (text : Except String String) : Except FileError EngineConfig :=
  match text with
  | .error reason => .error (.unreadable path reason)
  | .ok s => (read s).mapError .config

end EngineConfig
end FacetQuery
