import FacetQuery.Duration
import FacetQuery.Json.Basic

/-!
# Configuration

The settings of a filter and of its cache, with their defaults, and how they are written
in JSON: spans of time as numbers of seconds, fields in the order of their declaration.
-/

namespace FacetQuery

/-- The settings of the cache: how long an entry is kept that nobody reads, the age from which
on an entry is computed again when it is read, and the largest number of entries, if there is a
limit.  The first and the last one are for the container of the entries, which drops entries by
itself. -/
structure CacheConfig where
  idleTtl : Duration
  refreshAfter : Duration
  maxCapacity : Option UInt64
deriving DecidableEq

structure EngineConfig where
  cache : CacheConfig
  /-- The largest number of distinct atoms of a query. -/
  maxPredicates : UInt64
deriving DecidableEq

/-- Entries are dropped after an hour and computed again after ten minutes. -/
def CacheConfig.standard : CacheConfig :=
  ⟨.ofSeconds (60 * 60), .ofSeconds (10 * 60), none⟩

/-- The cache has its standard settings, and a query has at most twelve atoms. -/
def EngineConfig.standard : EngineConfig :=
  ⟨.standard, 12⟩

def Duration.toJson (d : Duration) : Json :=
  .float d.toBinary64

def CacheConfig.toJson (c : CacheConfig) : Json :=
  .object [("idle_ttl_secs", c.idleTtl.toJson), ("refresh_after_secs", c.refreshAfter.toJson),
    ("max_capacity", match c.maxCapacity with
      | some n => .int n.toNat
      | none => .null)]

def EngineConfig.toJson (c : EngineConfig) : Json :=
  .object [("cache", c.cache.toJson), ("max_predicates", .int c.maxPredicates.toNat)]

end FacetQuery
