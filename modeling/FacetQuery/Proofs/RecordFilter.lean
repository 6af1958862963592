import FacetQuery.Proofs.Cache.Faithful
import FacetQuery.Proofs.Evaluation
import FacetQuery.Proofs.Plan
import FacetQuery.Proofs.Store.Runs

/-!
# A filter returns the records that satisfy the query

The two sides of `evaluate_eq_reading` share nothing.  One walks the query for each record and
looks up the values of each leaf in the store (`Store.satisfies`).  The other goes through the
text of the normal form, its truth table and its cover, and evaluates the cover on what the cache
says, which is whatever earlier queries, refreshes and invalidations have left there.

### What is load-bearing

* The store does not change, so the cache is invisible (`PredicateCache.Faithful`).
* Whoever matches a value is a record (`Store.Consistent.mem_allRecords`).  Only therefore is a
  path that starts from the records of its atoms the same as one that starts from all records,
  and only therefore is a negation the complement among the records of the type.
* The bits of one assignment say for one record which atoms it matches; the cover and the query
  have the same truth value there (`QueryTree.Fits.coverHolds_cover`).
-/

namespace FacetQuery

variable {σ : Type} {b : Backend σ} {answers : CacheKey → Except LookupError IdSet}
  {query : QueryTree} {config : EngineConfig} {entityType : String}

/-! ### The direct reading of a query -/

namespace Store

/-- Whether a record is found by looking up a value.  A value that cannot be classified and a
lookup that fails find nothing. -/
def finds (store : Store) (entityType property : String) (v : Value) (id : RecordId) : Bool :=
  match ValueMatch.classify v with
  | .error _ => false
  | .ok m =>
    match store.lookup entityType property m with
    | .error _ => false
    | .ok ids => decide (id ∈ ids)

/-- Whether a record satisfies a query: a leaf holds for it when some value of the leaf finds
it. -/
def satisfies (store : Store) (entityType : String) (query : QueryTree) (id : RecordId) : Bool :=
  query.holds fun atom => atom.values.any fun v => store.finds entityType atom.property v id

/-- Finding a record is being given it by the backend that the store is. -/
theorem finds_iff (store : Store) {property : String} {v : Value} {id : RecordId} :
    store.finds entityType property v id = true ↔
      id ∈ answeredIds (Backend.storeAnswer store (.predicate entityType property v)) := by
  rw [finds, Backend.storeAnswer]
  cases ValueMatch.classify v with
  | error e => exact iff_of_false Bool.false_ne_true (IdSet.not_mem_empty id)
  | ok m =>
      dsimp only
      cases store.lookup entityType property m with
      | error e => exact iff_of_false Bool.false_ne_true (IdSet.not_mem_empty id)
      | ok ids => exact decide_eq_true_iff

/-- Whoever is found is a record. -/
theorem Consistent.mem_allRecords_of_finds {store : Store} (h : store.Consistent)
    {property : String} {v : Value} {id : RecordId}
    (hfinds : store.finds entityType property v id = true) : id ∈ store.allRecords entityType := by
  rw [finds] at hfinds
  split at hfinds
  · cases hfinds
  · split at hfinds
    · cases hfinds
    · rename_i hlookup
      exact h.mem_allRecords hlookup (of_decide_eq_true hfinds)

end Store

/-! ### The cache as a source -/

/-- The records of a value of a property, as a steady backend answers them. -/
def steadyRecords (answers : CacheKey → Except LookupError IdSet) (entityType property : String)
    (v : Value) : IdSet :=
  answeredIds (answers (.predicate entityType property v))

/-- **A faithful cache is a source whose answers do not change.** -/
theorem PredicateCache.meets_source (steady : b.Steady answers) (now : Nat)
    (entityType : String) :
    (source b now entityType).Meets
      (.fixed (fun st => st.1.Faithful answers) (steadyRecords answers entityType)
        (answeredIds (answers (.all entityType)))) := by
  constructor
  · intro property v st hfaithful
    exact Faithful.get steady hfaithful
  · intro st hfaithful
    exact Faithful.get steady hfaithful

/-! ### Histories -/

/-- What happens to the cache of a filter. -/
inductive FilterEvent where
  /-- A query is evaluated, successfully or not. -/
  | evaluate (now : Nat) (entityType : String) (query : QueryTree)
  /-- A step of the cache on its own: a lookup, a step of a refresh or of an invalidation. -/
  | step (step : CacheStep)
  /-- An entry that was not read for a long time, or was one too many, is dropped. -/
  | expire (key : CacheKey)

namespace RecordFilter

def handle (f : RecordFilter σ) : FilterEvent → CacheM σ Unit
  | .evaluate now entityType query => fun st => ((), ((f.evaluate now entityType query).run st).2)
  | .step step => step.run f.backend
  | .expire key => modify fun (c, s) => ({ c with entries := c.entries.erase key }, s)

def handleAll (f : RecordFilter σ) (events : List FilterEvent) : CacheM σ Unit :=
  fun st => ((), events.foldl (fun st event => ((f.handle event).run st).2) st)

/-- The state of the filter after some events, from the first query on. -/
def replay (f : RecordFilter σ) (s : σ) (events : List FilterEvent) : PredicateCache × σ :=
  events.foldl (fun st event => ((f.handle event).run st).2) (f.emptyCache, s)

theorem faithful_evaluate (f : RecordFilter σ) (steady : f.backend.Steady answers) (now : Nat)
    (entityType : String) (query : QueryTree) {st : PredicateCache × σ}
    (h : st.1.Faithful answers) :
    ((f.evaluate now entityType query).run st).2.1.Faithful answers := by
  rw [evaluate]
  cases QueryPlan.ofQuery f.config query with
  | error e => exact h
  | ok plan =>
      exact evaluateCover_inv (PredicateCache.meets_source steady now entityType) h

/-- **No event makes the cache unfaithful.** -/
theorem faithful_handle (f : RecordFilter σ) (steady : f.backend.Steady answers)
    (event : FilterEvent) {st : PredicateCache × σ} (h : st.1.Faithful answers) :
    ((f.handle event).run st).2.1.Faithful answers := by
  cases event with
  | evaluate now entityType query => exact f.faithful_evaluate steady now entityType query h
  | step step => exact h.step steady step
  | expire key => exact h.erase key

theorem faithful_handleAll (f : RecordFilter σ) (steady : f.backend.Steady answers)
    (events : List FilterEvent) {st : PredicateCache × σ} (h : st.1.Faithful answers) :
    ((f.handleAll events).run st).2.1.Faithful answers := by
  show (events.foldl (fun st event => ((f.handle event).run st).2) st).1.Faithful answers
  induction events generalizing st with
  | nil => exact h
  | cons event events ih => exact ih (f.faithful_handle steady event h)

theorem faithful_replay (f : RecordFilter σ) (steady : f.backend.Steady answers) (s : σ)
    (events : List FilterEvent) : (f.replay s events).1.Faithful answers := by
  have hempty : (f.emptyCache, s).1.Faithful answers :=
    PredicateCache.faithful_empty answers f.config.cache
  exact f.faithful_handleAll steady events hempty

end RecordFilter

/-! ### Reading a cover for one record -/

/-- A path holds when the variables that it must have are true and those that it must not have
are false. -/
theorem Path.holds_iff {p : Path} {a : Assignment} :
    p.holds a = true ↔
      (∀ v ∈ p.mustHave, a.value v = true) ∧ ∀ v ∈ p.mustNot, a.value v = false := by
  rw [holds, List.all_eq_true, mustHave, mustNot, List.forall_mem_map, List.forall_mem_map]
  simp only [List.mem_filter, Literal.holds, bne_iff_ne, Bool.not_eq_true']
  constructor
  · intro h
    refine ⟨fun l hl => ?_, fun l hl => ?_⟩
    · have := h l hl.1
      rwa [hl.2, Ne, Bool.not_eq_false] at this
    · have := h l hl.1
      rwa [hl.2, Ne, Bool.not_eq_true] at this
  · rintro ⟨hmust, hnot⟩ l hl
    cases hsign : l.negated with
    | false => rw [hmust l ⟨hl, hsign⟩]; exact Bool.false_ne_true.symm
    | true => rw [hnot l ⟨hl, hsign⟩]; exact Bool.false_ne_true

/-- The assignment that says which atoms a record matches. -/
def membership (B : Nat → IdSet) (id : RecordId) : Assignment :=
  .ofFn fun v => decide (id ∈ B v)

theorem value_membership {B : Nat → IdSet} {id : RecordId} {v : Nat} (hv : v < 64) :
    (membership B id).value v = decide (id ∈ B v) := by
  rw [membership, Assignment.value_ofFn, decide_eq_true hv, Bool.true_and]

section Cover

variable {B : Nat → IdSet} {all : IdSet} {p : Path} {cover : List Path} {id : RecordId}

/-- **A path matches a record when it holds under its assignment**, provided that whoever matches
an atom is a record. -/
theorem pathMatches_iff (among : ∀ v, id ∈ B v → id ∈ all)
    (below : ∀ l ∈ p.literals, l.var < 64) :
    Evaluation.PathMatches B all p id ↔ id ∈ all ∧ p.holds (membership B id) = true := by
  have value (keep : Literal → Bool) :
      ∀ v ∈ (p.literals.filter keep).map Literal.var,
        (membership B id).value v = decide (id ∈ B v) := by
    rintro v hv
    obtain ⟨l, hl, rfl⟩ := List.mem_map.mp hv
    exact value_membership (below l (List.mem_filter.mp hl).1)
  have holds : p.holds (membership B id) = true ↔
      (∀ v ∈ p.mustHave, id ∈ B v) ∧ ∀ v ∈ p.mustNot, id ∉ B v := by
    rw [Path.holds_iff]
    refine and_congr (forall₂_congr fun v hv => ?_) (forall₂_congr fun v hv => ?_)
    · rw [value _ v hv, decide_eq_true_iff]
    · rw [value _ v hv, decide_eq_false_iff_not]
  rw [Evaluation.PathMatches, ← holds]
  refine and_congr_left fun hholds => ⟨fun hall => ?_, fun hid _ => hid⟩
  -- Either the path starts from all records, or the record matches an atom.
  cases hmust : p.mustHave with
  | nil => exact hall hmust
  | cons v rest => exact among v ((holds.mp hholds).1 v (hmust ▸ List.mem_cons_self))

/-- A cover finds the records under whose assignment it holds. -/
theorem exists_pathMatches_iff (among : ∀ v, id ∈ B v → id ∈ all)
    (below : ∀ p ∈ cover, ∀ l ∈ p.literals, l.var < 64) :
    (∃ p ∈ cover, Evaluation.PathMatches B all p id) ↔
      id ∈ all ∧ coverHolds cover (membership B id) = true := by
  rw [coverHolds, List.any_eq_true]
  constructor
  · rintro ⟨p, hp, hmatches⟩
    obtain ⟨hid, hholds⟩ := (pathMatches_iff among (below p hp)).mp hmatches
    exact ⟨hid, p, hp, hholds⟩
  · rintro ⟨hid, p, hp, hholds⟩
    exact ⟨p, hp, (pathMatches_iff among (below p hp)).mpr ⟨hid, hholds⟩⟩

end Cover

/-! ### Evaluating a query -/

private theorem fst_run_map {τ α β : Type} (g : α → β) (x : StateM τ α) (s : τ) :
    ((g <$> x).run s).1 = g (x.run s).1 :=
  rfl

/-- A query that fits is evaluated by evaluating its cover. -/
theorem RecordFilter.fst_run_evaluate (f : RecordFilter σ) (fits : query.Fits f.config) (now : Nat)
    (entityType : String) (st : PredicateCache × σ) :
    ((f.evaluate now entityType query).run st).1 =
      ((f.evaluatePlan now entityType ⟨query.normalize.registry, query.cover⟩).run st).1.mapError
        .evaluate := by
  rw [evaluate, QueryPlan.ofQuery_eq fits]
  exact fst_run_map _ _ st

/-- The bit of an atom of the query says whether a record matches one of its values. -/
theorem value_membership_idxOf (fits : query.Fits config) (records : String → Value → IdSet)
    {atom : Atom} (hatom : atom ∈ query.labels) (id : RecordId) :
    (membership (atomSet query.normalize.registry records) id).value
        (query.normalize.registry.atoms.idxOf atom) =
      atom.values.any fun v => decide (id ∈ records atom.property v) := by
  have registered := QueryTree.mem_registry_normalize.mpr hatom
  have word : query.normalize.registry.atoms.idxOf atom < 64 :=
    (Registry.idxOf_lt_size registered).trans_le (Nat.le_succ_of_le fits.size_le)
  rw [value_membership word, Bool.eq_iff_iff, decide_eq_true_iff, List.any_eq_true, mem_atomSet,
    Registry.atom?, List.getElem?_idxOf registered]
  simp only [Option.some.injEq, exists_eq_left', decide_eq_true_iff]

/-- **A query over a steady backend** is answered with the records that satisfy it, if whoever
matches a value is among all records. -/
theorem RecordFilter.evaluate_of_steady (f : RecordFilter σ) (steady : f.backend.Steady answers)
    (fits : query.Fits f.config) (now : Nat)
    (among : ∀ property v id, id ∈ steadyRecords answers entityType property v →
      id ∈ answeredIds (answers (.all entityType)))
    {st : PredicateCache × σ} (h : st.1.Faithful answers) :
    ∃ ids, ((f.evaluate now entityType query).run st).1 = .ok ids ∧
      ∀ id, id ∈ ids ↔ id ∈ answeredIds (answers (.all entityType)) ∧
        (query.holds fun atom => atom.values.any fun v =>
          decide (id ∈ steadyRecords answers entityType atom.property v)) = true := by
  obtain ⟨ids, hids, -, hmem⟩ := evaluateCover_of_fixed
    (PredicateCache.meets_source steady now entityType) fits.var_lt_of_mem_cover h
  -- A plan exists, so the only error of the evaluation is excluded.
  have hrun : ((f.evaluate now entityType query).run st).1 = .ok ids := by
    rw [f.fst_run_evaluate fits, RecordFilter.evaluatePlan, hids]
    rfl
  have below : ∀ p ∈ query.cover, ∀ l ∈ p.literals, l.var < 64 := fun p hp l hl =>
    (fits.var_lt_of_mem_cover p hp l hl).trans_le (Nat.le_succ_of_le fits.size_le)
  refine ⟨ids, hrun, fun id => ?_⟩
  have amongAtoms (v : Nat)
      (hid : id ∈ atomSet query.normalize.registry (steadyRecords answers entityType) v) :
      id ∈ answeredIds (answers (.all entityType)) := by
    obtain ⟨atom, -, value, -, hid⟩ := mem_atomSet.mp hid
    exact among atom.property value id hid
  rw [hmem, exists_pathMatches_iff amongAtoms below, fits.coverHolds_cover]
  rw [Tree.holds_congr query fun atom hatom => value_membership_idxOf fits _ hatom id]

/-- **A filter returns exactly the records that satisfy the query.**  The store is built up in any
way and does not change any more; the history is any list of earlier queries, lookups, steps of
refreshes and invalidations, and losses of entries. -/
theorem RecordFilter.evaluate_eq_reading (ops : List StoreOp) (config : EngineConfig)
    (events : List FilterEvent) (now : Nat) (entityType : String) (query : QueryTree)
    (nonempty : query.hasNoEmptyList = true)
    (allowed : query.labels.dedup.length ≤ min config.maxPredicates.toNat maxVariables) :
    let store := Store.build ops
    let f : RecordFilter Unit := ⟨config, .ofStore store⟩
    ∃ ids, ((f.evaluate now entityType query).run (f.replay () events)).1 = .ok ids ∧
      ∀ id, id ∈ ids ↔
        id ∈ store.allRecords entityType ∧ store.satisfies entityType query id = true := by
  intro store f
  have steady : f.backend.Steady (Backend.storeAnswer store) := Backend.steady_ofStore store
  obtain ⟨ids, hids, hmem⟩ := f.evaluate_of_steady steady
    ⟨nonempty, allowed⟩ now
    (fun property v id hid =>
      (Store.consistent_build ops).mem_allRecords_of_finds (store.finds_iff.mpr hid))
    (f.faithful_replay steady () events)
  refine ⟨ids, hids, fun id => (hmem id).trans (and_congr_right fun _ => ?_)⟩
  -- Finding a record with a value is the backend giving it for the value.
  rw [Store.satisfies, Tree.holds_congr query fun atom _ => ?_]
  congr 1
  funext v
  rw [Bool.eq_iff_iff, decide_eq_true_iff, Store.finds_iff]
  rfl

/-- A negated query with a range and a pattern, after a failed query, a refresh and half an
invalidation. -/
theorem RecordFilter.evaluate_eq_reading_after_invalidation :
    let cheap : Atom := ⟨"price", [.text "[0,10)", .int 99]⟩
    let red : Atom := ⟨"color", [.text "*red*"]⟩
    let query : QueryTree :=
      .all [.any [.leaf cheap false, .all [.leaf red true] false], .leaf red true] true
    let ops : List StoreOp :=
      [.createRangeIndex "shoe" "price", .insert "shoe" 7 [("price", .int 5)],
        .insert "shoe" 8 [("price", .int 12), ("color", .text "dark red")]]
    let events : List FilterEvent :=
      [.evaluate 0 "shoe" (.any []), .evaluate 1 "shoe" (.leaf red false),
        .step (.startRefresh (.all "shoe")), .step (.advance 2 0), .step .beginEpoch]
    let store := Store.build ops
    let f : RecordFilter Unit := ⟨.standard, .ofStore store⟩
    query.hasNoEmptyList = true ∧
      query.labels.dedup.length ≤ min EngineConfig.standard.maxPredicates.toNat maxVariables ∧
      ∃ ids, ((f.evaluate 3 "shoe" query).run (f.replay () events)).1 = .ok ids ∧
        ∀ id, id ∈ ids ↔
          id ∈ store.allRecords "shoe" ∧ store.satisfies "shoe" query id = true :=
  ⟨by decide, by decide,
    RecordFilter.evaluate_eq_reading _ _ _ _ _ _ (by decide) (by decide)⟩

end FacetQuery
