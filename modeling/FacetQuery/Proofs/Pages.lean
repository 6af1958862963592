import Mathlib.Algebra.Ring.Nat
import FacetQuery.Proofs.RecordFilter

/-!
# Pages that are taken at different times

A filter keeps no result between two requests: every page is cut out of an evaluation of its own.
Two pages fit together only because all evaluations of a query give the same set, whatever the cache
has been through in between (`RecordFilter.evaluate_eq_of_steady`).  From then on it is arithmetic.
Pages are *consecutive* when each starts where the one before it was to end, and consecutive pages
of an ascending list make up the beginning of the list (`flatMap_page_of_consecutive`).

Where a page is to end is counted without bound, while a request can only name a position of
64 bits; `Consecutive` compares the two, so a count that has left the 64 bits has no request.
-/

namespace FacetQuery

/-- A request for one page, and what happens to the cache before it. -/
structure PageRequest where
  before : List FilterEvent
  now : Nat
  offset : UInt64
  limit : UInt64

namespace PageRequest

/-- Each page starts where the page before it was to end, the first one at a position. -/
def Consecutive : Nat → List PageRequest → Prop
  | _, [] => True
  | start, r :: rest => r.offset.toNat = start ∧ Consecutive (start + r.limit.toNat) rest

def requested (requests : List PageRequest) : Nat :=
  (requests.map fun r => r.limit.toNat).sum

/-- The page of a set that a request asks for. -/
def page (ids : IdSet) (r : PageRequest) : FilterPage :=
  .ofIds ids r.offset.toNat r.limit.toNat

end PageRequest

open PageRequest

variable {σ : Type} {b : Backend σ} {answers : CacheKey → Except LookupError IdSet}
  {query : QueryTree} {entityType : String} {ids : IdSet}

namespace RecordFilter

/-- The pages that some requests are answered with, one after the other. -/
def pages (f : RecordFilter σ) (entityType : String) (query : QueryTree) :
    List PageRequest → CacheM σ (List (Except FilterError FilterPage))
  | [] => pure []
  | r :: rest => do
    f.handleAll r.before
    let page ← f.filter r.now entityType query r.offset r.limit
    let pages ← f.pages entityType query rest
    pure (page :: pages)

/-! ### One set for all pages -/

/-- **All evaluations of a query give the same set** as long as the cache is faithful. -/
theorem evaluate_eq_of_steady (f : RecordFilter σ) (steady : f.backend.Steady answers)
    (fits : query.Fits f.config)
    (among : ∀ property v id, id ∈ steadyRecords answers entityType property v →
      id ∈ answeredIds (answers (.all entityType))) (s : σ) :
    ∃ ids : IdSet, (∀ id, id ∈ ids ↔ id ∈ answeredIds (answers (.all entityType)) ∧
        (query.holds fun atom => atom.values.any fun v =>
          decide (id ∈ steadyRecords answers entityType atom.property v)) = true) ∧
      ∀ now (st : PredicateCache × σ), st.1.Faithful answers →
        ((f.evaluate now entityType query).run st).1 = .ok ids := by
  have hempty : (f.emptyCache, s).1.Faithful answers :=
    PredicateCache.faithful_empty answers f.config.cache
  obtain ⟨ids, -, hids⟩ := f.evaluate_of_steady steady fits 0 among hempty
  refine ⟨ids, hids, fun now st h => ?_⟩
  obtain ⟨found, hfound, hmem⟩ := f.evaluate_of_steady steady fits now among h
  have heq : found = ids := IdSet.ext fun id => (hmem id).trans (hids id).symm
  rw [hfound, heq]

/-- A page is cut out of the set that the query is evaluated to. -/
theorem fst_run_filter (f : RecordFilter σ) {now : Nat} {st : PredicateCache × σ}
    (h : ((f.evaluate now entityType query).run st).1 = .ok ids) (offset limit : UInt64) :
    ((f.filter now entityType query offset limit).run st).1 =
      .ok (.ofIds ids offset.toNat limit.toNat) := by
  show Except.map _ ((f.evaluate now entityType query).run st).1 = _
  rw [h]
  rfl

/-- Answering a request for a page does to the cache what evaluating the query does. -/
theorem snd_run_filter (f : RecordFilter σ) (now : Nat) (offset limit : UInt64)
    (st : PredicateCache × σ) :
    ((f.filter now entityType query offset limit).run st).2 =
      ((f.evaluate now entityType query).run st).2 :=
  rfl

/-- **All requests are answered with pages of one set**, whatever happens between them. -/
theorem fst_run_pages (f : RecordFilter σ) (steady : f.backend.Steady answers)
    (h : ∀ now (st : PredicateCache × σ), st.1.Faithful answers →
      ((f.evaluate now entityType query).run st).1 = .ok ids)
    (requests : List PageRequest) {st : PredicateCache × σ} (hst : st.1.Faithful answers) :
    ((f.pages entityType query requests).run st).1 =
      requests.map fun r => .ok (r.page ids) := by
  induction requests generalizing st with
  | nil => rfl
  | cons r requests ih =>
      have hbefore := f.faithful_handleAll steady r.before hst
      have hpage := f.fst_run_filter (h r.now _ hbefore) r.offset r.limit
      have hafter := f.faithful_evaluate steady r.now entityType query hbefore
      rw [← f.snd_run_filter r.now r.offset r.limit] at hafter
      rw [List.map_cons, ← ih hafter]
      exact congrArg (List.cons · _) hpage

end RecordFilter

/-! ### Consecutive pages -/

/-- **Consecutive pages make up the beginning of the set**, from where the first one starts. -/
theorem flatMap_page_of_consecutive {requests : List PageRequest} {start : Nat}
    (h : Consecutive start requests) (ids : IdSet) :
    requests.flatMap (fun r => (r.page ids).ids) =
      (ids.toList.drop start).take (requested requests) := by
  induction requests generalizing start with
  | nil => exact List.take_zero.symm
  | cons r requests ih =>
      obtain ⟨rfl, hrest⟩ := h
      have hsum : requested (r :: requests) = r.limit.toNat + requested requests := List.sum_cons
      rw [List.flatMap_cons, ih hrest, hsum, List.take_add, List.drop_drop]
      rfl

/-- A page that starts past the end is empty. -/
theorem IdSet.page_of_size_le {offset : Nat} (h : ids.size ≤ offset) (limit : Nat) :
    ids.page offset limit = [] := by
  unfold IdSet.page
  rw [List.drop_of_length_le h, List.take_nil]

/-- Satisfying a query is matching it with the answers of the backend that the store is. -/
theorem Store.satisfies_eq (store : Store) (entityType : String) (query : QueryTree)
    (id : RecordId) :
    store.satisfies entityType query id = query.holds fun atom => atom.values.any fun v =>
      decide (id ∈ steadyRecords (Backend.storeAnswer store) entityType atom.property v) := by
  have hfinds (property : String) (v : Value) : store.finds entityType property v id =
      decide (id ∈ steadyRecords (Backend.storeAnswer store) entityType property v) := by
    rw [Bool.eq_iff_iff, Store.finds_iff, decide_eq_true_iff]
    rfl
  unfold Store.satisfies
  simp only [hfinds]

namespace RecordFilter

/-- **Pages taken at different times fit together.**  The store is built up in any way and does not
change any more.  There is one ascending list of the records that satisfy the query, and

* whatever has happened to the cache, a request for a page is answered with the part of the list
  that it names, and with the length of the whole list;
* the pages for consecutive requests, with any events between them, make up the beginning of the
  list, as many records of it as are requested in all. -/
theorem pages_partition (ops : List StoreOp) (config : EngineConfig) (entityType : String)
    (query : QueryTree) (nonempty : query.hasNoEmptyList = true)
    (allowed : query.labels.dedup.length ≤ min config.maxPredicates.toNat maxVariables) :
    let store := Store.build ops
    let f : RecordFilter Unit := ⟨config, .ofStore store⟩
    ∃ matching : List RecordId,
      matching.Pairwise (· < ·) ∧
      (∀ id, id ∈ matching ↔
        id ∈ store.allRecords entityType ∧ store.satisfies entityType query id = true) ∧
      (∀ (events : List FilterEvent) (now : Nat) (offset limit : UInt64),
        ((f.filter now entityType query offset limit).run (f.replay () events)).1 =
            .ok ⟨(matching.drop offset.toNat).take limit.toNat, matching.length⟩ ∧
          (matching.length ≤ offset.toNat →
            ((f.filter now entityType query offset limit).run (f.replay () events)).1 =
              .ok ⟨[], matching.length⟩)) ∧
      ∀ (events : List FilterEvent) (requests : List PageRequest), Consecutive 0 requests →
        ∃ pages : List FilterPage,
          ((f.pages entityType query requests).run (f.replay () events)).1 = pages.map .ok ∧
          pages.flatMap FilterPage.ids = matching.take (requested requests) ∧
          ∀ page ∈ pages, page.total = matching.length := by
  intro store f
  have steady : f.backend.Steady (Backend.storeAnswer store) := Backend.steady_ofStore store
  obtain ⟨ids, hids, heval⟩ := f.evaluate_eq_of_steady steady ⟨nonempty, allowed⟩
    (fun property v id hid =>
      (Store.consistent_build ops).mem_allRecords_of_finds (store.finds_iff.mpr hid)) ()
  have hpage (events : List FilterEvent) (now : Nat) (offset limit : UInt64) :
      ((f.filter now entityType query offset limit).run (f.replay () events)).1 =
        .ok (.ofIds ids offset.toNat limit.toNat) :=
    f.fst_run_filter (heval now _ (f.faithful_replay steady () events)) offset limit
  refine ⟨ids.toList, ids.ascending, fun id => ?_, fun events now offset limit => ?_,
    fun events requests hconsecutive => ?_⟩
  · rw [Store.satisfies_eq]
    exact hids id
  · refine ⟨hpage events now offset limit, fun hend => ?_⟩
    rw [hpage, FilterPage.ofIds, IdSet.page_of_size_le hend]
    rfl
  · have hfaithful := f.faithful_replay steady () events
    refine ⟨requests.map (page ids), ?_, ?_, ?_⟩
    · rw [f.fst_run_pages steady heval requests hfaithful, List.map_map]
      rfl
    · rw [List.flatMap_map]
      exact flatMap_page_of_consecutive hconsecutive ids
    · rw [List.forall_mem_map]
      exact fun r _ => rfl

/-- Three pages of a disjunction.  Before the second page another query is evaluated, and everything
is invalidated while a refresh is under way.  The last page asks for as
many records as can be named. -/
theorem pages_partition_of_invalidated_cache :
    let cheap : Atom := ⟨"price", [.text "[0,10)"]⟩
    let red : Atom := ⟨"color", [.text "*red*"]⟩
    let query : QueryTree := .any [.leaf cheap false, .leaf red false]
    let ops : List StoreOp :=
      [.createRangeIndex "shoe" "price", .insert "shoe" 9 [("price", .int 5)],
        .insert "shoe" 7 [("price", .int 12)], .insert "shoe" 4 [("color", .text "dark red")],
        .insert "shoe" 2 [("price", .int 3), ("color", .text "red")]]
    let requests : List PageRequest :=
      [⟨[], 0, 0, 1⟩,
        ⟨[.evaluate 1 "shoe" (.leaf cheap true), .step (.startRefresh (.all "shoe")),
          .step .beginEpoch, .step (.advance 2 0), .step .dropEntries], 3, 1, 1⟩,
        ⟨[.expire (.all "shoe")], 4, 2, 18446744073709551615⟩]
    let store := Store.build ops
    let f : RecordFilter Unit := ⟨.standard, .ofStore store⟩
    query.hasNoEmptyList = true ∧
      query.labels.dedup.length ≤ min EngineConfig.standard.maxPredicates.toNat maxVariables ∧
      Consecutive 0 requests ∧
      ∃ matching : List RecordId, matching.Pairwise (· < ·) ∧
        (∀ id, id ∈ matching ↔
          id ∈ store.allRecords "shoe" ∧ store.satisfies "shoe" query id = true) ∧
        ∃ pages : List FilterPage,
          ((f.pages "shoe" query requests).run (f.replay () [])).1 = pages.map .ok ∧
          pages.flatMap FilterPage.ids = matching.take (requested requests) ∧
          ∀ page ∈ pages, page.total = matching.length := by
  intro cheap red query ops requests store f
  have consecutive : Consecutive 0 requests := ⟨rfl, rfl, rfl, trivial⟩
  obtain ⟨matching, hascending, hmatching, -, hpages⟩ :=
    pages_partition ops .standard "shoe" query (by decide) (by decide)
  exact ⟨by decide, by decide, consecutive, matching, hascending, hmatching,
    hpages [] requests consecutive⟩

end RecordFilter
end FacetQuery
