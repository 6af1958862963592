import FacetQuery.Proofs.Evaluation.Questions

/-!
# Evaluating over a source whose answers do not change

What is known of the answers of a source is a parameter (`SourceSpec`), and a source that meets it
keeps it through any questions (`BitmapSource.Meets.allowed`).  A source whose answers do not change
is the case in which only one answer is possible for each question.  The records of an atom are then
given before anything is asked (`atomSet`), and so is what a cover is evaluated to
(`evaluateCover_of_fixed`).
-/

namespace FacetQuery

structure SourceSpec (σ : Type) where
  inv : σ → Prop
  resolved : String → Value → IdSet → Prop
  everything : IdSet → Prop

/-- What is known of a source whose answers do not change. -/
def SourceSpec.fixed {σ : Type} (inv : σ → Prop) (records : String → Value → IdSet) (all : IdSet) :
    SourceSpec σ where
  inv := inv
  resolved property v ids := ids = records property v
  everything ids := ids = all

structure BitmapSource.Meets {σ : Type} (source : BitmapSource σ) (spec : SourceSpec σ) :
    Prop where
  resolve : ∀ property v s, spec.inv s →
    spec.resolved property v ((source.resolve property v).run s).1 ∧
      spec.inv ((source.resolve property v).run s).2
  allRecords : ∀ s, spec.inv s →
    spec.everything (source.allRecords.run s).1 ∧ spec.inv (source.allRecords.run s).2

/-- The answer is one that the source may give. -/
def Question.Allowed {σ : Type} (spec : SourceSpec σ) : Question → Prop
  | value property v answer => spec.resolved property v answer
  | everything answer => spec.everything answer

open Evaluation

variable {σ : Type} {source : BitmapSource σ} {spec : SourceSpec σ} {registry : Registry}
  {cover : List Path} {s s' : σ} {qs : List Question}

/-- What is known of a source stays true of it, whatever it is asked. -/
theorem BitmapSource.Meets.allowed (meets : source.Meets spec) (h : source.Answers s qs s')
    (hs : spec.inv s) : spec.inv s' ∧ ∀ q ∈ qs, q.Allowed spec := by
  induction h with
  | done => exact ⟨hs, fun q hq => absurd hq List.not_mem_nil⟩
  | value property v _ ih =>
      obtain ⟨hanswer, hnext⟩ := meets.resolve property v _ hs
      obtain ⟨hs', hqs⟩ := ih hnext
      exact ⟨hs', List.forall_mem_cons.mpr ⟨hanswer, hqs⟩⟩
  | everything _ ih =>
      obtain ⟨hanswer, hnext⟩ := meets.allRecords _ hs
      obtain ⟨hs', hqs⟩ := ih hnext
      exact ⟨hs', List.forall_mem_cons.mpr ⟨hanswer, hqs⟩⟩

/-- A cover is over registered atoms when it mentions no unknown one. -/
theorem firstUnknown?_eq_none_iff :
    firstUnknown? registry cover = none ↔
      ∀ p ∈ cover, ∀ l ∈ p.literals, l.var < registry.size := by
  have isSome (l : Literal) : ¬ (registry.atom? l.var).isNone = true ↔ l.var < registry.size := by
    rw [Registry.atom?, Option.isNone_iff_eq_none, List.getElem?_eq_none_iff, Nat.not_le]
    rfl
  rw [firstUnknown?, List.find?_eq_none, List.forall_mem_map]
  constructor
  · intro h p hp l hl
    exact (isSome l).mp (h l (List.mem_flatMap.mpr ⟨p, hp, hl⟩))
  · intro h l hl
    obtain ⟨p, hp, hl⟩ := List.mem_flatMap.mp hl
    exact (isSome l).mpr (h p hp l hl)

/-- **A cover over registered atoms is evaluated by asking some rounds**, and it is the union of its
paths for all sets that agree with the snapshot that is left behind. -/
theorem exists_evaluateCover_eq_ok (source : BitmapSource σ)
    (registered : ∀ p ∈ cover, ∀ l ∈ p.literals, l.var < registry.size) (s : σ) :
    ∃ ids s' known rounds, (evaluateCover source registry cover).run s = (.ok ids, s') ∧
      Asked registry [] rounds known ∧ source.Answers s (rounds.flatMap Round.questions) s' ∧
      ∀ B, Agrees known B → ∃ starts : List (Path × IdSet), starts.map Prod.fst = cover ∧
        rounds.filterMap Round.everything? = startingSets starts ∧
        ∀ x, x ∈ ids ↔ ∃ e ∈ starts, PathMatches B e.2 e.1 x := by
  obtain ⟨ids, known, s', rounds, hrun, hasked, hanswers, meaning⟩ :=
    asks_coverRecords source registered ∅ [] s
  refine ⟨ids, s', known, rounds, ?_, hasked, hanswers, fun B agrees => ?_⟩
  · rw [evaluateCover, firstUnknown?_eq_none_iff.mpr registered]
    show (((coverRecords source registry ∅ cover).run.run ([], s)).1,
      ((coverRecords source registry ∅ cover).run.run ([], s)).2.2) = _
    rw [hrun]
  · obtain ⟨starts, hpaths, hstarts, hids⟩ := meaning B agrees
    refine ⟨starts, hpaths, hstarts, fun x => (hids x).trans ?_⟩
    exact or_iff_right (IdSet.not_mem_empty x)

/-- The records of the atom with a number when the answers for values are given. -/
def atomSet (registry : Registry) (records : String → Value → IdSet) (id : Nat) : IdSet :=
  ((registry.atom? id).map fun a => IdSet.unionAll (a.values.map (records a.property))).getD ∅

theorem mem_atomSet {records : String → Value → IdSet} {id : Nat} {x : RecordId} :
    x ∈ atomSet registry records id ↔
      ∃ a, registry.atom? id = some a ∧ ∃ v ∈ a.values, x ∈ records a.property v := by
  rw [atomSet, IdSet.mem_getD_map]
  refine exists_congr fun a => and_congr_right fun _ => ?_
  rw [IdSet.mem_unionAll]
  constructor
  · rintro ⟨set, hset, hx⟩
    obtain ⟨v, hv, rfl⟩ := List.mem_map.mp hset
    exact ⟨v, hv, hx⟩
  · rintro ⟨v, hv, hx⟩
    exact ⟨_, List.mem_map.mpr ⟨v, hv, rfl⟩, hx⟩

variable {inv : σ → Prop} {records : String → Value → IdSet} {all : IdSet}

/-- When only one answer is possible for each value, the answers of a round are these. -/
theorem Evaluation.answers_eq {property : String} {values : List Value} {answers : List IdSet}
    (hlength : answers.length = values.length)
    (hallowed : ∀ q ∈ List.zipWith (Question.value property) values answers,
      q.Allowed (.fixed inv records all)) :
    answers = values.map (records property) := by
  induction values generalizing answers with
  | nil => exact List.length_eq_zero_iff.mp hlength
  | cons v values ih =>
      obtain ⟨answer, answers, rfl⟩ := List.exists_cons_of_length_eq_add_one hlength
      rw [List.zipWith_cons_cons] at hallowed
      obtain ⟨hanswer, hanswers⟩ := List.forall_mem_cons.mp hallowed
      have hanswer : answer = records property v := hanswer
      rw [List.map_cons, hanswer, ih (Nat.succ.inj hlength) hanswers]

/-- When only one answer is possible for each value, all sets that the snapshot has for atoms are
known before anything is asked. -/
theorem Evaluation.agrees_atomSet {known : Snapshot} {rounds : List Round}
    (hasked : Asked registry [] rounds known)
    (hallowed : ∀ q ∈ rounds.flatMap Round.questions, q.Allowed (.fixed inv records all)) :
    Agrees known (atomSet registry records) := by
  intro id ids hlookup
  rcases hasked.exists_of_lookup hlookup with hnone | ⟨a, answers, hround, rfl⟩
  · cases hnone
  · obtain ⟨registered, complete⟩ := hasked.proper hround
    have hanswers : answers = a.values.map (records a.property) :=
      answers_eq complete fun q hq => hallowed q (List.mem_flatMap.mpr ⟨_, hround, hq⟩)
    rw [atomSet, registered, Option.map_some, Option.getD_some, hanswers]

/-- When only one answer is possible for all records, every path that starts from all records
starts from this one. -/
theorem Evaluation.start_eq {rounds : List Round} {starts : List (Path × IdSet)}
    (hstarts : rounds.filterMap Round.everything? = startingSets starts)
    (hallowed : ∀ q ∈ rounds.flatMap Round.questions, q.Allowed (.fixed inv records all))
    {e : Path × IdSet} (he : e ∈ starts) (hempty : e.1.mustHave = []) : e.2 = all := by
  have hmem : e.2 ∈ rounds.filterMap Round.everything? := by
    rw [hstarts, startingSets]
    exact List.mem_map_of_mem (List.mem_filter.mpr ⟨he, List.isEmpty_iff.mpr hempty⟩)
  obtain ⟨round, hround, hanswer⟩ := List.mem_filterMap.mp hmem
  cases round with
  | atom id a answers => cases hanswer
  | everything answer =>
      have hanswer : answer = e.2 := Option.some.inj hanswer
      rw [← hanswer]
      exact hallowed (.everything answer) (List.mem_flatMap.mpr ⟨_, hround, List.mem_cons_self⟩)

/-- **Evaluating over a source whose answers do not change**: the source keeps its answers as long
as its state satisfies an invariant, which it keeps too. -/
theorem evaluateCover_of_fixed (meets : source.Meets (.fixed inv records all))
    (registered : ∀ p ∈ cover, ∀ l ∈ p.literals, l.var < registry.size) (hs : inv s) :
    ∃ ids, ((evaluateCover source registry cover).run s).1 = .ok ids ∧
      inv ((evaluateCover source registry cover).run s).2 ∧
      ∀ x, x ∈ ids ↔ ∃ p ∈ cover, PathMatches (atomSet registry records) all p x := by
  obtain ⟨ids, s', known, rounds, hrun, hasked, hanswers, meaning⟩ :=
    exists_evaluateCover_eq_ok source registered s
  obtain ⟨hs', hallowed⟩ := meets.allowed hanswers hs
  obtain ⟨starts, rfl, hstarts, hids⟩ := meaning _ (agrees_atomSet hasked hallowed)
  have matches_iff (e : Path × IdSet) (he : e ∈ starts) (x : RecordId) :
      PathMatches (atomSet registry records) e.2 e.1 x ↔
        PathMatches (atomSet registry records) all e.1 x := by
    unfold PathMatches
    refine and_congr_left fun _ => forall_congr' fun hempty => ?_
    rw [start_eq hstarts hallowed he hempty]
  rw [hrun]
  refine ⟨ids, rfl, hs', fun x => (hids x).trans ?_⟩
  constructor
  · rintro ⟨e, he, hx⟩
    exact ⟨e.1, List.mem_map_of_mem he, (matches_iff e he x).mp hx⟩
  · rintro ⟨p, hp, hx⟩
    obtain ⟨e, he, rfl⟩ := List.mem_map.mp hp
    exact ⟨e, he, (matches_iff e he x).mpr hx⟩

/-- Evaluating keeps the invariant, whether the cover is refused or not. -/
theorem evaluateCover_inv (meets : source.Meets (.fixed inv records all)) (hs : inv s) :
    inv ((evaluateCover source registry cover).run s).2 := by
  cases hunknown : firstUnknown? registry cover with
  | some id =>
      rw [evaluateCover, hunknown]
      exact hs
  | none =>
      obtain ⟨-, -, hs', -⟩ := evaluateCover_of_fixed meets
        (firstUnknown?_eq_none_iff.mp hunknown) hs
      exact hs'

end FacetQuery
