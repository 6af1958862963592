import Mathlib.Data.Set.Lattice
import FacetQuery.Proofs.Evaluation

/-!
# Evaluation is set algebra over one set for each atom

What an evaluation asks is read off a log: `BitmapSource.recorded` keeps one in the state of a
source, next to its own state.  The log does not disturb the source.  More generally, an evaluation
commutes with any map between the states of two sources that give the same answers (`Mirrors`), and
forgetting the log is such a map.

The log of an evaluation is cut into rounds.  The sets that the rounds give for atoms
(`FromAnswers`) are all that the result depends on, next to the answers that the paths without an
atom to have start from: a path stands for an intersection less a union (`pathSet`), and a cover for
the union of its paths (`evaluateCover_eq_iUnion_pathSet`).
-/

namespace FacetQuery

def IdSet.members (ids : IdSet) : Set RecordId :=
  {x | x ∈ ids}

/-- The source with a log of the questions, each with its answer. -/
def BitmapSource.recorded {σ : Type} (source : BitmapSource σ) : BitmapSource (σ × List Question) where
  resolve property v := fun (s, log) =>
    let (ids, s) := (source.resolve property v).run s
    (ids, s, log ++ [.value property v ids])
  allRecords := fun (s, log) =>
    let (ids, s) := source.allRecords.run s
    (ids, s, log ++ [.everything ids])

namespace Evaluation

variable {τ σ α β : Type} {f : τ → σ}

/-! ### Sources with the same answers -/

/-- The second computation gives the same result as the first one, and ends in the image of its
state, from the image of any state. -/
def Mirrors (f : τ → σ) (x : StateM τ α) (y : StateM σ α) : Prop :=
  ∀ t, y.run (f t) = ((x.run t).1, f (x.run t).2)

/-- The second source answers as the first one does. -/
structure SourceMirrors (f : τ → σ) (first : BitmapSource τ) (second : BitmapSource σ) : Prop where
  resolve : ∀ property v, Mirrors f (first.resolve property v) (second.resolve property v)
  allRecords : Mirrors f first.allRecords second.allRecords

theorem Mirrors.pure (a : α) : Mirrors f (pure a) (pure a) :=
  fun _ => rfl

theorem Mirrors.bind {x : StateM τ α} {y : StateM σ α} {g : α → StateM τ β} {h : α → StateM σ β}
    (hxy : Mirrors f x y) (hgh : ∀ a, Mirrors f (g a) (h a)) : Mirrors f (x >>= g) (y >>= h) := by
  intro t
  show (h (y.run (f t)).1).run (y.run (f t)).2 = _
  rw [hxy t]
  exact hgh (x.run t).1 (x.run t).2

theorem Mirrors.map {x : StateM τ α} {y : StateM σ α} (g : α → β) (hxy : Mirrors f x y) :
    Mirrors f (g <$> x) (g <$> y) := by
  intro t
  show (g (y.run (f t)).1, (y.run (f t)).2) = _
  rw [hxy t]
  rfl

variable {first : BitmapSource τ} {second : BitmapSource σ} {registry : Registry}

theorem mirrors_resolveEach (h : SourceMirrors f first second) (property : String)
    (values : List Value) :
    Mirrors f (resolveEach first property values) (resolveEach second property values) := by
  induction values with
  | nil => exact Mirrors.pure []
  | cons v values ih =>
      exact (h.resolve property v).bind fun ids => ih.bind fun sets => Mirrors.pure (ids :: sets)

theorem mirrors_resolveAtom (h : SourceMirrors f first second) (a : Atom) :
    Mirrors f (resolveAtom first a) (resolveAtom second a) := by
  rw [resolveAtom_eq, resolveAtom_eq]
  exact (mirrors_resolveEach h a.property a.values).map IdSet.unionAll

/-- The second evaluation ends as the first one does, successfully or not.  The snapshot is not part
of the state of a source, so it stays as it is. -/
def EvaluationMirrors (f : τ → σ) (x : EvaluateM τ α) (y : EvaluateM σ α) : Prop :=
  Mirrors (Prod.map (fun known : Snapshot => known) f) x.run y.run

theorem EvaluationMirrors.pure (a : α) :
    EvaluationMirrors f (pure a : EvaluateM τ α) (pure a : EvaluateM σ α) :=
  fun _ => rfl

theorem EvaluationMirrors.bind {x : EvaluateM τ α} {y : EvaluateM σ α} {g : α → EvaluateM τ β}
    {h : α → EvaluateM σ β} (hxy : EvaluationMirrors f x y)
    (hgh : ∀ a, EvaluationMirrors f (g a) (h a)) : EvaluationMirrors f (x >>= g) (y >>= h) := by
  unfold EvaluationMirrors
  rw [ExceptT.run_bind, ExceptT.run_bind]
  refine Mirrors.bind hxy fun outcome => ?_
  cases outcome with
  | ok a => exact hgh a
  | error e => exact Mirrors.pure (Except.error e)

theorem mirrors_atomRecords (h : SourceMirrors f first second) (id : Nat) :
    EvaluationMirrors f (atomRecords first registry id) (atomRecords second registry id) := by
  rintro ⟨known, t⟩
  show (atomRecords second registry id).run.run (known, f t) = _
  cases hknown : known.lookup id with
  | some ids =>
      rw [atomRecords_of_known hknown, atomRecords_of_known hknown]
      rfl
  | none =>
      cases ha : registry.atom? id with
      | none =>
          rw [atomRecords_of_unregistered hknown ha, atomRecords_of_unregistered hknown ha]
          rfl
      | some a =>
          rw [atomRecords_of_unknown hknown ha, atomRecords_of_unknown hknown ha,
            mirrors_resolveAtom h a t]
          rfl

theorem mirrors_atomsRecords (h : SourceMirrors f first second) (ids : List Nat) :
    EvaluationMirrors f (atomsRecords first registry ids) (atomsRecords second registry ids) := by
  induction ids with
  | nil => exact .pure []
  | cons id ids ih =>
      exact (mirrors_atomRecords h id).bind fun set => ih.bind fun sets => .pure (set :: sets)

theorem mirrors_common (h : SourceMirrors f first second) (sets : List IdSet) :
    EvaluationMirrors f (common first sets) (common second sets) := by
  unfold common
  split
  · rintro ⟨known, t⟩
    show ((.ok (second.allRecords.run (f t)).1, known, (second.allRecords.run (f t)).2) :
      Except EvaluateError IdSet × Snapshot × σ) = _
    rw [h.allRecords t]
    rfl
  · exact .pure _

theorem mirrors_without (h : SourceMirrors f first second) (start : IdSet) (ids : List Nat) :
    EvaluationMirrors f (without first registry start ids) (without second registry start ids) := by
  induction ids generalizing start with
  | nil => exact .pure start
  | cons id ids ih =>
      unfold without
      split
      · exact .pure start
      · exact (mirrors_atomRecords h id).bind fun excluded => ih (start.diff excluded)

theorem mirrors_pathRecords (h : SourceMirrors f first second) (p : Path) :
    EvaluationMirrors f (pathRecords first registry p) (pathRecords second registry p) :=
  (mirrors_atomsRecords h p.mustHave).bind fun sets =>
    (mirrors_common h sets).bind fun start => mirrors_without h start p.mustNot

theorem mirrors_coverRecords (h : SourceMirrors f first second) (start : IdSet)
    (cover : List Path) :
    EvaluationMirrors f (coverRecords first registry start cover)
      (coverRecords second registry start cover) := by
  induction cover generalizing start with
  | nil => exact .pure start
  | cons p cover ih =>
      exact (mirrors_pathRecords h p).bind fun matched => ih (start.union matched)

/-- **Evaluation commutes with the maps between the states of sources that answer alike.** -/
theorem mirrors_evaluateCover (h : SourceMirrors f first second) (cover : List Path) :
    Mirrors f (evaluateCover first registry cover) (evaluateCover second registry cover) := by
  unfold evaluateCover
  split
  · exact Mirrors.pure _
  · intro t
    have hrun : (coverRecords second registry ∅ cover).run.run ([], f t) =
        (((coverRecords first registry ∅ cover).run.run ([], t)).1,
          Prod.map (fun known : Snapshot => known) f
            ((coverRecords first registry ∅ cover).run.run ([], t)).2) :=
      mirrors_coverRecords h ∅ cover ([], t)
    show (((coverRecords second registry ∅ cover).run.run ([], f t)).1,
      ((coverRecords second registry ∅ cover).run.run ([], f t)).2.2) = _
    rw [hrun]
    rfl

/-! ### The log -/

variable {source : BitmapSource σ}

/-- Forgetting the log gives the source itself. -/
theorem recorded_mirrors (source : BitmapSource σ) :
    SourceMirrors Prod.fst source.recorded source where
  resolve _ _ := fun _ => rfl
  allRecords := fun _ => rfl

/-- The log has the questions in the order in which they are asked. -/
theorem log_of_answers {t t' : σ × List Question} {qs : List Question}
    (h : source.recorded.Answers t qs t') : t'.2 = t.2 ++ qs := by
  induction h with
  | done t => exact (List.append_nil t.2).symm
  | value property v _ ih =>
      rw [ih]
      exact List.append_assoc _ _ _
  | everything _ ih =>
      rw [ih]
      exact List.append_assoc _ _ _

/-! ### Set algebra -/

/-- The records that a path stands for: those that all atoms have in common that it must have, or
all records if there is no such atom, less those of any atom that it must not have. -/
def pathSet (B : Nat → IdSet) (everything : IdSet) (p : Path) : Set RecordId :=
  (if p.mustHave = [] then everything.members else ⋂ id ∈ p.mustHave, (B id).members) \
    ⋃ id ∈ p.mustNot, (B id).members

theorem mem_pathSet {B : Nat → IdSet} {everything : IdSet} {p : Path} {x : RecordId} :
    x ∈ pathSet B everything p ↔ PathMatches B everything p x := by
  have hnot : x ∉ ⋃ id ∈ p.mustNot, (B id).members ↔ ∀ id ∈ p.mustNot, x ∉ B id := by
    simp [IdSet.members]
  unfold pathSet PathMatches
  rw [Set.mem_sdiff, hnot, ← and_assoc]
  refine and_congr_left fun _ => ?_
  split
  · rename_i hempty
    rw [hempty]
    simp [IdSet.members]
  · rename_i hne
    simp [IdSet.members, hne]

/-- A path with an atom that it must have does not depend on the set that comes with it. -/
theorem pathSet_of_mustHave {p : Path} (h : p.mustHave ≠ []) (B : Nat → IdSet)
    (everything everything' : IdSet) : pathSet B everything p = pathSet B everything' p := by
  unfold pathSet
  rw [if_neg h, if_neg h]

/-- The union of the paths of a cover depends only on the answers that paths do start from. -/
theorem iUnion_pathSet_congr (B : Nat → IdSet) {starts starts' : List (Path × IdSet)}
    (hpaths : starts.map Prod.fst = starts'.map Prod.fst)
    (hstarted : startingSets starts = startingSets starts') :
    ⋃ e ∈ starts, pathSet B e.2 e.1 = ⋃ e ∈ starts', pathSet B e.2 e.1 := by
  induction starts generalizing starts' with
  | nil =>
      obtain rfl := List.map_eq_nil_iff.mp hpaths.symm
      rfl
  | cons e starts ih =>
      obtain ⟨p, everything⟩ := e
      obtain ⟨⟨p', everything'⟩, starts', rfl, hp, hrest⟩ := List.map_eq_cons_iff.mp hpaths.symm
      obtain rfl : p' = p := hp
      rw [startingSets_cons, startingSets_cons] at hstarted
      simp only [List.mem_cons, Set.iUnion_iUnion_eq_or_left]
      by_cases hempty : p'.mustHave = []
      · rw [if_pos hempty, if_pos hempty] at hstarted
        obtain ⟨rfl, hothers⟩ := List.cons.inj hstarted
        rw [ih hrest.symm hothers]
      · rw [if_neg hempty, if_neg hempty] at hstarted
        rw [ih hrest.symm hstarted, pathSet_of_mustHave hempty B everything everything']

/-- The rounds of an evaluation: each asks for a registered atom, with all of its values, or for all
records, and no atom is asked for twice. -/
structure Proper (registry : Registry) (rounds : List Round) : Prop where
  registered : ∀ id a answers, Round.atom id a answers ∈ rounds → registry.atom? id = some a
  complete : ∀ id a answers, Round.atom id a answers ∈ rounds → answers.length = a.values.length
  once : (rounds.filterMap Round.id?).Nodup

/-- For each atom that has been asked for, the set is the union of the answers.  For any other atom
it may be any set. -/
def FromAnswers (rounds : List Round) (B : Nat → IdSet) : Prop :=
  ∀ id a answers, Round.atom id a answers ∈ rounds → B id = IdSet.unionAll answers

variable {known : Snapshot} {rounds : List Round}

theorem Asked.toProper (h : Asked registry [] rounds known) : Proper registry rounds where
  registered _ _ _ hround := (h.proper hround).1
  complete _ _ _ hround := (h.proper hround).2
  once := h.nodup.1

/-- What the snapshot says afterwards comes from the answers. -/
theorem Asked.agrees (h : Asked registry [] rounds known) {B : Nat → IdSet}
    (hB : FromAnswers rounds B) : Agrees known B := by
  intro id ids hlookup
  rcases h.exists_of_lookup hlookup with hnone | ⟨a, answers, hround, rfl⟩
  · cases hnone
  · exact hB id a answers hround

/-- There are sets that come from the answers, since no atom is asked for twice. -/
theorem Asked.exists_fromAnswers (h : Asked registry [] rounds known) :
    ∃ B, FromAnswers rounds B := by
  refine ⟨fun id => (known.lookup id).getD ∅, fun id a answers hround => ?_⟩
  show (known.lookup id).getD ∅ = _
  rw [h.lookup_of_mem hround]
  rfl

end Evaluation

open Evaluation

variable {σ : Type}

variable {registry : Registry} {cover : List Path}

/-- The first literal of a cover that is not registered is the one that is reported. -/
theorem firstUnknown?_eq_some {before after : List Literal} {l : Literal}
    (hsplit : cover.flatMap Path.literals = before ++ l :: after)
    (hbefore : ∀ l' ∈ before, registry.atom? l'.var ≠ none) (hl : registry.atom? l.var = none) :
    firstUnknown? registry cover = some l.var := by
  have hnone : (before.map Literal.var).find? (fun id => (registry.atom? id).isNone) = none := by
    rw [List.find?_eq_none, List.forall_mem_map]
    intro l' hl' hunknown
    exact hbefore l' hl' (Option.isNone_iff_eq_none.mp hunknown)
  unfold firstUnknown?
  rw [hsplit, List.map_append, List.find?_append, hnone, List.map_cons,
    List.find?_cons_of_pos (by rw [hl]; rfl)]
  rfl

/-- A cover with a literal that is not registered is refused, and nothing is asked. -/
theorem evaluateCover_of_unknown (source : BitmapSource σ) {before after : List Literal}
    {l : Literal} (hsplit : cover.flatMap Path.literals = before ++ l :: after)
    (hbefore : ∀ l' ∈ before, registry.atom? l'.var ≠ none) (hl : registry.atom? l.var = none) :
    evaluateCover source registry cover = pure (.error (.unknownPredicate l.var)) := by
  unfold evaluateCover
  rw [firstUnknown?_eq_some hsplit hbefore hl]

namespace Evaluation

/-- **What the rounds of an evaluation say of its result**, where each path comes with the set of
all records that it starts from if there is no atom that it must have. -/
structure Evaluated (registry : Registry) (cover : List Path) (rounds : List Round)
    (starts : List (Path × IdSet)) (ids : IdSet) : Prop where
  proper : Proper registry rounds
  paths : starts.map Prod.fst = cover
  started : rounds.filterMap Round.everything? = startingSets starts
  answered : ∃ B, FromAnswers rounds B
  members : ∀ B, FromAnswers rounds B → ids.members = ⋃ e ∈ starts, pathSet B e.2 e.1

/-- A cover over registered atoms is evaluated to the union of its paths, and the log has the
questions of the rounds. -/
theorem exists_evaluated (source : BitmapSource σ)
    (registered : ∀ p ∈ cover, ∀ l ∈ p.literals, l.var < registry.size) (s : σ) :
    ∃ ids s' rounds starts, (evaluateCover source.recorded registry cover).run (s, []) =
        (.ok ids, s', rounds.flatMap Round.questions) ∧
      Evaluated registry cover rounds starts ids := by
  obtain ⟨ids, ⟨s', log⟩, known, rounds, hrun, hasked, hanswers, meaning⟩ :=
    exists_evaluateCover_eq_ok source.recorded registered (s, [])
  obtain ⟨B, hB⟩ := hasked.exists_fromAnswers
  obtain ⟨starts, hpaths, hstarted, -⟩ := meaning B (hasked.agrees hB)
  obtain rfl : log = rounds.flatMap Round.questions := log_of_answers hanswers
  have members : ∀ B, FromAnswers rounds B →
      ids.members = ⋃ e ∈ starts, pathSet B e.2 e.1 := by
    intro B hB
    obtain ⟨starts', hpaths', hstarted', hids⟩ := meaning B (hasked.agrees hB)
    rw [iUnion_pathSet_congr B (hpaths.trans hpaths'.symm) (hstarted.symm.trans hstarted')]
    ext x
    rw [Set.mem_iUnion₂]
    refine (hids x).trans ?_
    simp only [mem_pathSet, exists_prop]
  exact ⟨ids, s', rounds, starts, hrun, hasked.toProper, hpaths, hstarted, ⟨B, hB⟩, members⟩

end Evaluation

/-- **Evaluation is set algebra over one set for each atom**, whatever the source answers and
however its answers change.

A log does not disturb an evaluation.  With a log that is empty at first, an evaluation is refused
for the first literal that is not registered, and then nothing is asked.  If there is no such
literal, the log has the questions of some rounds, no two of which ask for the same atom, and the
result is the union of the paths, with the union of the answers of its round for each atom. -/
theorem evaluateCover_eq_iUnion_pathSet (source : BitmapSource σ) (registry : Registry)
    (cover : List Path) (s : σ) :
    (∀ log, (evaluateCover source registry cover).run s =
      (((evaluateCover source.recorded registry cover).run (s, log)).1,
        ((evaluateCover source.recorded registry cover).run (s, log)).2.1)) ∧
    (∀ before l after, cover.flatMap Path.literals = before ++ l :: after →
      (∀ l' ∈ before, registry.atom? l'.var ≠ none) → registry.atom? l.var = none →
      (evaluateCover source.recorded registry cover).run (s, []) =
        (.error (.unknownPredicate l.var), s, [])) ∧
    ((∀ l ∈ cover.flatMap Path.literals, registry.atom? l.var ≠ none) →
      ∃ ids s' rounds starts, (evaluateCover source.recorded registry cover).run (s, []) =
          (.ok ids, s', rounds.flatMap Round.questions) ∧
        Evaluated registry cover rounds starts ids) := by
  refine ⟨fun log => ?_, fun before l after hsplit hbefore hl => ?_, fun hknown => ?_⟩
  · exact mirrors_evaluateCover (recorded_mirrors source) cover (s, log)
  · rw [evaluateCover_of_unknown source.recorded hsplit hbefore hl]
    rfl
  · have registered : ∀ p ∈ cover, ∀ l ∈ p.literals, l.var < registry.size := by
      intro p hp l hl
      by_contra hge
      exact hknown l (List.mem_flatMap.mpr ⟨p, hp, hl⟩)
        (List.getElem?_eq_none (Nat.le_of_not_lt hge))
    exact exists_evaluated source registered s

namespace Evaluation

/-- A source that counts the questions and never gives the same answer again. -/
def drifting : BitmapSource Nat where
  resolve _ _ := fun n => (IdSet.insert (UInt64.ofNat n) ∅, n + 1)
  allRecords := fun n => (IdSet.insert (UInt64.ofNat n) ∅, n + 1)

/-- An atom with two values and an atom with one value. -/
def shapeAndColour : Registry :=
  ((Registry.empty.intern ⟨"shape", [.text "round", .text "flat"]⟩).2.intern
    ⟨"colour", [.text "red"]⟩).2

theorem atom?_shapeAndColour (id : Nat) :
    shapeAndColour.atom? id =
      ([⟨"shape", [.text "round", .text "flat"]⟩, ⟨"colour", [.text "red"]⟩] : List Atom)[id]? := by
  simp [shapeAndColour, Registry.atom?, Registry.atoms_intern]

end Evaluation

/-- A source that never gives the same answer again: `0&!7&!9` is refused for the `7`, and
`0&0&!1`, `1&!1`, `!0` and `!1` are evaluated, with a literal twice, an atom both ways and two paths
that start from all records. -/
theorem evaluateCover_eq_iUnion_pathSet_of_drifting_source :
    (evaluateCover drifting.recorded shapeAndColour
        [⟨[⟨0, false⟩, ⟨7, true⟩, ⟨9, true⟩]⟩]).run (0, []) =
      (.error (.unknownPredicate 7), 0, []) ∧
    ∃ ids s' rounds starts, (evaluateCover drifting.recorded shapeAndColour
        [⟨[⟨0, false⟩, ⟨0, false⟩, ⟨1, true⟩]⟩, ⟨[⟨1, false⟩, ⟨1, true⟩]⟩, ⟨[⟨0, true⟩]⟩,
          ⟨[⟨1, true⟩]⟩]).run (0, []) = (.ok ids, s', rounds.flatMap Round.questions) ∧
      Evaluated shapeAndColour
        [⟨[⟨0, false⟩, ⟨0, false⟩, ⟨1, true⟩]⟩, ⟨[⟨1, false⟩, ⟨1, true⟩]⟩, ⟨[⟨0, true⟩]⟩,
          ⟨[⟨1, true⟩]⟩] rounds starts ids := by
  constructor
  · have hrefused := (evaluateCover_eq_iUnion_pathSet drifting shapeAndColour
      [⟨[⟨0, false⟩, ⟨7, true⟩, ⟨9, true⟩]⟩] 0).2.1
    simp only [atom?_shapeAndColour] at hrefused
    exact hrefused [⟨0, false⟩] ⟨7, true⟩ [⟨9, true⟩] rfl (by decide) rfl
  · have hevaluated := (evaluateCover_eq_iUnion_pathSet drifting shapeAndColour
      [⟨[⟨0, false⟩, ⟨0, false⟩, ⟨1, true⟩]⟩, ⟨[⟨1, false⟩, ⟨1, true⟩]⟩, ⟨[⟨0, true⟩]⟩,
        ⟨[⟨1, true⟩]⟩] 0).2.2
    simp only [atom?_shapeAndColour] at hevaluated
    exact hevaluated (by decide)

end FacetQuery
