import FacetQuery.Cache.Refresh

/-!
# Steps of the cache

Everything that can happen to a cache is one of the steps of `CacheStep`.  What several callers,
refreshes and invalidations do side by side is some list of these steps, and each list of steps
is something they can do; a step that does not apply, such as advancing a refresh that is not
there, leaves the cache as it is.

`Steady` says that a backend gives the same answer to the same key at any time.
-/

namespace FacetQuery

inductive CacheStep where
  /-- A key is asked for, with the load that this may need. -/
  | fetch (now : Nat) (key : CacheKey)
  | startRefresh (key : CacheKey)
  | advance (now : Nat) (i : Nat)
  | beginEpoch
  | dropEntries

namespace CacheStep

variable {σ : Type}

def run (b : Backend σ) : CacheStep → CacheM σ Unit
  | fetch now key => fun st => ((), ((PredicateCache.fetch b now key).run st).2)
  | startRefresh key => modify fun (c, s) => (c.startRefresh key, s)
  | advance now i => PredicateCache.advance b now i
  | beginEpoch => modify fun (c, s) => (c.beginEpoch, s)
  | dropEntries => modify fun (c, s) => (c.dropEntries, s)

end CacheStep

/-! ### What advancing a refresh does -/

namespace PredicateCache

variable {σ : Type} {b : Backend σ} {c : PredicateCache} {s : σ} {now i : Nat} {r : Refresh}

theorem advance_of_none (h : c.running[i]? = none) :
    (advance b now i).run (c, s) = ((), c, s) := by
  rw [advance, StateT.run_modify]
  simp only [h]
  rfl

theorem advance_of_waiting (h : c.running[i]? = some r) (hphase : r.phase = .waiting) :
    (advance b now i).run (c, s) =
      ((), c.setPhase i r (.answered ((b.answer r.key).run s).1), ((b.answer r.key).run s).2) := by
  rw [advance, StateT.run_modify]
  simp only [h, hphase]
  rfl

theorem advance_of_not_waiting (h : c.running[i]? = some r) (hphase : r.phase ≠ .waiting) :
    (advance b now i).run (c, s) = ((), c.advanceAlone now i r, s) := by
  rw [advance, StateT.run_modify]
  simp only [h]
  rfl

end PredicateCache

/-! ### Steady backends -/

namespace Backend

variable {σ : Type}

/-- The backend gives the same answer to the same key at any time. -/
def Steady (b : Backend σ) (answers : CacheKey → Except LookupError IdSet) : Prop :=
  ∀ key s, ((b.answer key).run s).1 = answers key

/-- The answer of a store for a key. -/
def storeAnswer (store : Store) : CacheKey → Except LookupError IdSet
  | .predicate entityType property value =>
    match ValueMatch.classify value with
    | .error e => .error (.invalidValue e)
    | .ok m => store.lookup entityType property m
  | .all entityType => .ok (store.allRecords entityType)

/-- A store that does not change is a steady backend. -/
theorem steady_ofStore (store : Store) : (ofStore store).Steady (storeAnswer store) := by
  intro key s
  cases key with
  | predicate entityType property value =>
      simp only [answer, storeAnswer]
      cases ValueMatch.classify value with
      | error e => rfl
      | ok m => rfl
  | all entityType => rfl

end Backend
end FacetQuery
