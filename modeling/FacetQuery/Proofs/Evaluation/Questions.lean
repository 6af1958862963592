import Mathlib.Data.List.Basic
import FacetQuery.Evaluation
import FacetQuery.Proofs.IdSet

/-!
# What an evaluation asks, and what it makes of the answers

The answers of a source may change from one question to the next, so there is no set of records
that an atom stands for by itself.  What evaluation guarantees is that there is *one* such set for
each atom in a whole evaluation.  It asks in rounds (`Round`): a round goes through all values of
one atom, or asks for all records once, and no atom has two rounds (`Asked`).

`Asks` packs this up.  A computation succeeds, it asks some rounds, the source answers them in the
order in which they are asked, and the result has the stated meaning for every assignment of sets
that agrees with the snapshot *afterwards*.  Such computations can be chained (`Asks.bind`): a round
never changes what the snapshot says already, so to agree with the last snapshot is to agree with
all snapshots before it.  The rounds of a chain are those of its parts, one after the other, which
is what keeps the records that each path starts from in place (`asks_coverRecords`).

The size of the sets decides in which order they are intersected and which questions are left out,
but not what comes out (`common_of_ne_nil`, `asks_without`).
-/

namespace FacetQuery

/-- A question to a source, with its answer. -/
inductive Question where
  | value (property : String) (value : Value) (answer : IdSet)
  | everything (answer : IdSet)

/-- The source answers the questions in this order, which leads it from one state to another. -/
inductive BitmapSource.Answers {σ : Type} (source : BitmapSource σ) :
    σ → List Question → σ → Prop where
  | done (s : σ) : Answers source s [] s
  | value {s s' : σ} {rest : List Question} (property : String) (v : Value)
      (h : Answers source ((source.resolve property v).run s).2 rest s') :
      Answers source s (.value property v ((source.resolve property v).run s).1 :: rest) s'
  | everything {s s' : σ} {rest : List Question}
      (h : Answers source (source.allRecords.run s).2 rest s') :
      Answers source s (.everything (source.allRecords.run s).1 :: rest) s'

namespace Evaluation

/-! ### Rounds -/

/-- Questions that belong together. -/
inductive Round where
  /-- All values of an atom, with one answer for each. -/
  | atom (id : Nat) (a : Atom) (answers : List IdSet)
  | everything (answer : IdSet)

namespace Round

def questions : Round → List Question
  | atom _ a answers => List.zipWith (Question.value a.property) a.values answers
  | everything answer => [.everything answer]

def id? : Round → Option Nat
  | atom id _ _ => some id
  | everything _ => none

def everything? : Round → Option IdSet
  | atom _ _ _ => none
  | everything answer => some answer

end Round

/-- The rounds lead from one snapshot to another: each of them asks for a registered atom that is
not in the snapshot yet, and for all values of it, or for all records. -/
inductive Asked (registry : Registry) : Snapshot → List Round → Snapshot → Prop where
  | done (known : Snapshot) : Asked registry known [] known
  | atom {known known' : Snapshot} {rounds : List Round} {id : Nat} {a : Atom}
      {answers : List IdSet} (registered : registry.atom? id = some a)
      (complete : answers.length = a.values.length) (new : known.lookup id = none)
      (rest : Asked registry ((id, IdSet.unionAll answers) :: known) rounds known') :
      Asked registry known (.atom id a answers :: rounds) known'
  | everything {known known' : Snapshot} {rounds : List Round} (answer : IdSet)
      (rest : Asked registry known rounds known') :
      Asked registry known (.everything answer :: rounds) known'

variable {σ α β : Type} {source : BitmapSource σ} {registry : Registry}
  {known known' known'' : Snapshot} {rounds rounds' : List Round} {B : Nat → IdSet} {s s' s'' : σ}
  {qs qs' : List Question}

theorem answers_append (h : source.Answers s qs s') (h' : source.Answers s' qs' s'') :
    source.Answers s (qs ++ qs') s'' := by
  induction h with
  | done => exact h'
  | value property v _ ih => exact .value property v (ih h')
  | everything _ ih => exact .everything (ih h')

theorem Asked.append (h : Asked registry known rounds known')
    (h' : Asked registry known' rounds' known'') :
    Asked registry known (rounds ++ rounds') known'' := by
  induction h with
  | done => exact h'
  | atom registered complete new _ ih => exact .atom registered complete new (ih h')
  | everything answer _ ih => exact .everything answer (ih h')

/-- What is entered for an atom that was not there hides nothing. -/
theorem lookup_cons_of_lookup {id other : Nat} {found : IdSet} (ids : IdSet)
    (new : known.lookup id = none) (h : known.lookup other = some found) :
    ((id, ids) :: known).lookup other = some found := by
  have hne : other ≠ id := by
    intro heq
    rw [heq, new] at h
    cases h
  rw [List.lookup_cons, beq_false_of_ne hne]
  exact h

/-- **Rounds never change what a snapshot says.** -/
theorem Asked.lookup_eq (h : Asked registry known rounds known') {id : Nat} {ids : IdSet}
    (hlookup : known.lookup id = some ids) : known'.lookup id = some ids := by
  induction h with
  | done => exact hlookup
  | atom _ _ new _ ih => exact ih (lookup_cons_of_lookup _ new hlookup)
  | everything _ _ ih => exact ih hlookup

/-- What has been asked for is in the snapshot afterwards. -/
theorem Asked.lookup_of_mem (h : Asked registry known rounds known') {id : Nat} {a : Atom}
    {answers : List IdSet} (hmem : Round.atom id a answers ∈ rounds) :
    known'.lookup id = some (IdSet.unionAll answers) := by
  induction h with
  | done => exact absurd hmem List.not_mem_nil
  | atom _ _ _ rest ih =>
      rcases List.mem_cons.mp hmem with heq | hmem
      · cases heq
        exact rest.lookup_eq List.lookup_cons_self
      · exact ih hmem
  | everything _ _ ih =>
      rcases List.mem_cons.mp hmem with heq | hmem
      · cases heq
      · exact ih hmem

/-- The snapshot afterwards has nothing but what was there or has been asked for. -/
theorem Asked.exists_of_lookup (h : Asked registry known rounds known') {id : Nat} {ids : IdSet}
    (hlookup : known'.lookup id = some ids) : known.lookup id = some ids ∨
      ∃ a answers, Round.atom id a answers ∈ rounds ∧ ids = IdSet.unionAll answers := by
  induction h with
  | done => exact Or.inl hlookup
  | @atom _ _ _ other a answers _ _ _ _ ih =>
      rcases ih hlookup with hfound | ⟨a', answers', hmem, hids⟩
      · rw [List.lookup_cons] at hfound
        split at hfound
        · rename_i heq
          obtain rfl := eq_of_beq heq
          exact Or.inr ⟨a, answers, List.mem_cons_self, (Option.some.inj hfound).symm⟩
        · exact Or.inl hfound
      · exact Or.inr ⟨a', answers', List.mem_cons_of_mem _ hmem, hids⟩
  | everything _ _ ih =>
      rcases ih hlookup with hfound | ⟨a', answers', hmem, hids⟩
      · exact Or.inl hfound
      · exact Or.inr ⟨a', answers', List.mem_cons_of_mem _ hmem, hids⟩

theorem Asked.proper (h : Asked registry known rounds known') {id : Nat} {a : Atom}
    {answers : List IdSet} (hmem : Round.atom id a answers ∈ rounds) :
    registry.atom? id = some a ∧ answers.length = a.values.length := by
  induction h with
  | done => exact absurd hmem List.not_mem_nil
  | atom registered complete _ _ ih =>
      rcases List.mem_cons.mp hmem with heq | hmem
      · cases heq
        exact ⟨registered, complete⟩
      · exact ih hmem
  | everything _ _ ih =>
      rcases List.mem_cons.mp hmem with heq | hmem
      · cases heq
      · exact ih hmem

/-- **No atom is asked for twice**, and none that was in the snapshot before. -/
theorem Asked.nodup (h : Asked registry known rounds known') :
    (rounds.filterMap Round.id?).Nodup ∧
      ∀ id ∈ rounds.filterMap Round.id?, known.lookup id = none := by
  induction h with
  | done => exact ⟨List.nodup_nil, fun id hid => absurd hid List.not_mem_nil⟩
  | @atom known _ rounds id a answers _ _ new _ ih =>
      obtain ⟨hnodup, hnew⟩ := ih
      have hlater (other : Nat) (hother : other ∈ rounds.filterMap Round.id?) :
          other ≠ id ∧ known.lookup other = none := by
        have hnone := hnew other hother
        rw [List.lookup_cons] at hnone
        split at hnone
        · cases hnone
        · rename_i hne
          exact ⟨ne_of_beq_false hne, hnone⟩
      have hcons : (Round.atom id a answers :: rounds).filterMap Round.id? =
          id :: rounds.filterMap Round.id? := rfl
      rw [hcons]
      refine ⟨List.nodup_cons.mpr ⟨fun hmem => (hlater id hmem).1 rfl, hnodup⟩, ?_⟩
      intro other hother
      rcases List.mem_cons.mp hother with rfl | hother
      · exact new
      · exact (hlater other hother).2
  | everything answer _ ih =>
      rw [List.filterMap_cons_none rfl]
      exact ih

/-! ### Computations that ask -/

/-- The sets say of every atom in the snapshot what the snapshot says. -/
def Agrees (known : Snapshot) (B : Nat → IdSet) : Prop :=
  ∀ id ids, known.lookup id = some ids → B id = ids

/-- The computation succeeds.  It asks some rounds, which the source answers one after the other, and
its result has the stated meaning for all sets that agree with the snapshot afterwards. -/
def Asks (source : BitmapSource σ) (registry : Registry) (x : EvaluateM σ α)
    (meaning : List Round → α → (Nat → IdSet) → Prop) : Prop :=
  ∀ known s, ∃ a known' s' rounds, x.run.run (known, s) = (.ok a, known', s') ∧
    Asked registry known rounds known' ∧
    source.Answers s (rounds.flatMap Round.questions) s' ∧
    ∀ B, Agrees known' B → meaning rounds a B

theorem Asks.pure {a : α} {meaning : List Round → α → (Nat → IdSet) → Prop}
    (h : ∀ B, meaning [] a B) : Asks source registry (pure a) meaning :=
  fun known s => ⟨a, known, s, [], rfl, .done known, .done s, fun B _ => h B⟩

theorem Asks.mono {x : EvaluateM σ α} {P Q : List Round → α → (Nat → IdSet) → Prop}
    (hx : Asks source registry x P) (h : ∀ rounds a B, P rounds a B → Q rounds a B) :
    Asks source registry x Q := by
  intro known s
  obtain ⟨a, known', s', rounds, hrun, hasked, hanswers, hmeaning⟩ := hx known s
  exact ⟨a, known', s', rounds, hrun, hasked, hanswers, fun B agrees => h rounds a B (hmeaning B agrees)⟩

/-- After a success the rest goes on from the state that is left behind. -/
theorem run_bind_of_ok {x : EvaluateM σ α} {a : α} {st st' : Snapshot × σ}
    (h : x.run.run st = (.ok a, st')) (f : α → EvaluateM σ β) :
    (x >>= f).run.run st = (f a).run.run st' := by
  rw [ExceptT.run_bind, StateT.run_bind, h]
  rfl

/-- **Computations that ask can be chained**: the rounds of the second one follow those of the
first one. -/
theorem Asks.bind {x : EvaluateM σ α} {f : α → EvaluateM σ β}
    {P : List Round → α → (Nat → IdSet) → Prop} {Q : α → List Round → β → (Nat → IdSet) → Prop}
    (hx : Asks source registry x P) (hf : ∀ a, Asks source registry (f a) (Q a)) :
    Asks source registry (x >>= f) fun rounds b B => ∃ first second a,
      rounds = first ++ second ∧ P first a B ∧ Q a second b B := by
  intro known s
  obtain ⟨a, known₁, s₁, first, hrun₁, hasked₁, hanswers₁, hmeaning₁⟩ := hx known s
  obtain ⟨b, known₂, s₂, second, hrun₂, hasked₂, hanswers₂, hmeaning₂⟩ := hf a known₁ s₁
  refine ⟨b, known₂, s₂, first ++ second, (run_bind_of_ok hrun₁ f).trans hrun₂,
    hasked₁.append hasked₂, ?_, fun B agrees => ?_⟩
  · rw [List.flatMap_append]
    exact answers_append hanswers₁ hanswers₂
  · -- Sets that agree with the last snapshot agree with the one in the middle.
    have middle : Agrees known₁ B :=
      fun id ids hlookup => agrees id ids (hasked₂.lookup_eq hlookup)
    exact ⟨first, second, a, rfl, hmeaning₁ B middle, hmeaning₂ B agrees⟩

/-! ### Atoms -/

/-- The values of an atom are asked for in their order, each once. -/
theorem answers_resolveEach (source : BitmapSource σ) (property : String) (values : List Value)
    (s : σ) :
    ((resolveEach source property values).run s).1.length = values.length ∧
      source.Answers s
        (List.zipWith (Question.value property) values
          ((resolveEach source property values).run s).1)
        ((resolveEach source property values).run s).2 := by
  induction values generalizing s with
  | nil => exact ⟨rfl, .done s⟩
  | cons v values ih =>
      obtain ⟨hlength, hanswers⟩ := ih ((source.resolve property v).run s).2
      exact ⟨congrArg Nat.succ hlength, .value property v hanswers⟩

/-- Taking a single answer as it is changes nothing. -/
theorem resolveAtom_eq (source : BitmapSource σ) (a : Atom) :
    resolveAtom source a = IdSet.unionAll <$> resolveEach source a.property a.values := by
  unfold resolveAtom
  split
  · rename_i v hvalues
    rw [hvalues]
    funext s
    have hsingle (ids : IdSet) : IdSet.unionAll [ids] = ids :=
      IdSet.ext fun id => by simp
    exact Prod.ext (hsingle _).symm rfl
  · rfl

/-- An atom that is remembered is not asked for. -/
theorem atomRecords_of_known {id : Nat} {ids : IdSet} (h : known.lookup id = some ids) :
    (atomRecords source registry id).run.run (known, s) = (.ok ids, known, s) := by
  simp only [atomRecords, ExceptT.run_mk, StateT.run, h]

/-- Any other registered atom is asked for and remembered. -/
theorem atomRecords_of_unknown {id : Nat} {a : Atom} (h : known.lookup id = none)
    (ha : registry.atom? id = some a) :
    (atomRecords source registry id).run.run (known, s) =
      (.ok ((resolveAtom source a).run s).1,
        (id, ((resolveAtom source a).run s).1) :: known, ((resolveAtom source a).run s).2) := by
  simp only [atomRecords, ExceptT.run_mk, StateT.run, h, ha]
  rfl

/-- An atom that is neither remembered nor registered is refused, and nothing is asked. -/
theorem atomRecords_of_unregistered {id : Nat} (h : known.lookup id = none)
    (ha : registry.atom? id = none) :
    (atomRecords source registry id).run.run (known, s) =
      (.error (.unknownPredicate id), known, s) := by
  simp only [atomRecords, ExceptT.run_mk, StateT.run, h, ha]

/-- **Asking for an atom** gives the set that the snapshot has from then on. -/
theorem asks_atomRecords (source : BitmapSource σ) {id : Nat} (hid : id < registry.size) :
    Asks source registry (atomRecords source registry id) fun rounds ids B =>
      rounds.filterMap Round.everything? = [] ∧ B id = ids := by
  intro known s
  obtain ⟨a, ha⟩ : ∃ a, registry.atom? id = some a := ⟨_, List.getElem?_eq_getElem hid⟩
  cases hknown : known.lookup id with
  | some ids =>
      exact ⟨ids, known, s, [], atomRecords_of_known hknown, .done known, .done s,
        fun B agrees => ⟨rfl, agrees id ids hknown⟩⟩
  | none =>
      obtain ⟨hlength, hanswers⟩ := answers_resolveEach source a.property a.values s
      have hrun : (atomRecords source registry id).run.run (known, s) = _ :=
        atomRecords_of_unknown hknown ha
      rw [resolveAtom_eq] at hrun
      refine ⟨_, _, _, [.atom id a ((resolveEach source a.property a.values).run s).1], hrun,
        .atom ha hlength hknown (.done _), ?_, fun B agrees => ⟨rfl, ?_⟩⟩
      · rw [List.flatMap_singleton]
        exact hanswers
      · -- The answer is remembered, so every later snapshot gives the same one.
        exact agrees id _ List.lookup_cons_self

theorem asks_atomsRecords (source : BitmapSource σ) {ids : List Nat}
    (registered : ∀ id ∈ ids, id < registry.size) :
    Asks source registry (atomsRecords source registry ids) fun rounds sets B =>
      rounds.filterMap Round.everything? = [] ∧ sets = ids.map B := by
  induction ids with
  | nil => exact Asks.pure fun _ => ⟨rfl, rfl⟩
  | cons id ids ih =>
      obtain ⟨hid, hids⟩ := List.forall_mem_cons.mp registered
      have cons (first : IdSet) (sets : List IdSet) :
          Asks source registry (Pure.pure (first :: sets)) fun rounds all _ =>
            rounds = [] ∧ all = first :: sets :=
        Asks.pure fun _ => ⟨rfl, rfl⟩
      refine ((asks_atomRecords source hid).bind fun first =>
        (ih hids).bind fun sets => cons first sets).mono ?_
      rintro rounds all B ⟨first, later, set, rfl, ⟨hfirst, hset⟩, second, none, sets, rfl,
        ⟨hsecond, hsets⟩, rfl, rfl⟩
      rw [List.append_nil, List.filterMap_append, hfirst, hsecond, List.map_cons, hset, hsets]
      exact ⟨rfl, rfl⟩

/-! ### Paths -/

/-- **What a path means** for one record, given all records and the records of each atom. -/
def PathMatches (B : Nat → IdSet) (everything : IdSet) (p : Path) (x : RecordId) : Prop :=
  (p.mustHave = [] → x ∈ everything) ∧ (∀ id ∈ p.mustHave, x ∈ B id) ∧
    ∀ id ∈ p.mustNot, x ∉ B id

/-- What is left of a set, whether all sets of the list are looked at or not. -/
theorem mem_narrow {sets : List IdSet} {ids : IdSet} {x : RecordId} :
    x ∈ narrow ids sets ↔ x ∈ ids ∧ ∀ t ∈ sets, x ∈ t := by
  induction sets generalizing ids with
  | nil => simp [narrow]
  | cons t sets ih =>
      unfold narrow
      split
      · rename_i hempty
        have hnone : x ∉ ids := IdSet.not_mem_of_isEmpty hempty
        exact iff_of_false hnone fun h => hnone h.1
      · rw [ih, IdSet.mem_inter, List.forall_mem_cons, and_assoc]

/-- **The order of the sets does not matter**, and nothing is asked when there are sets to
intersect. -/
theorem common_of_ne_nil (source : BitmapSource σ) {sets : List IdSet} (h : sets ≠ []) :
    ∃ ids, common source sets = pure ids ∧ ∀ x, x ∈ ids ↔ ∀ t ∈ sets, x ∈ t := by
  unfold common
  have hperm := List.mergeSort_perm sets fun s t => s.size ≤ t.size
  split
  · rename_i hsorted
    rw [hsorted] at hperm
    exact absurd hperm.nil_eq.symm h
  · rename_i smallest rest hsorted
    rw [hsorted] at hperm
    refine ⟨_, rfl, fun x => ?_⟩
    rw [mem_narrow, ← List.forall_mem_cons (p := fun t => x ∈ t)]
    exact forall_congr' fun t => imp_congr_left hperm.mem_iff

/-- Without any sets, all records are asked for and nothing is remembered of them. -/
theorem run_common_nil (source : BitmapSource σ) (known : Snapshot) (s : σ) :
    (common source []).run.run (known, s) =
      (.ok (source.allRecords.run s).1, known, (source.allRecords.run s).2) := by
  unfold common
  rw [List.mergeSort_nil]
  rfl

/-- All records are asked for only when there are no sets to intersect. -/
theorem asks_common (source : BitmapSource σ) (sets : List IdSet) :
    Asks source registry (common source sets) fun rounds ids _ =>
      ∃ everything, rounds.filterMap Round.everything? =
          (if sets = [] then [everything] else []) ∧
        ∀ x, x ∈ ids ↔ (sets = [] → x ∈ everything) ∧ ∀ t ∈ sets, x ∈ t := by
  by_cases hsets : sets = []
  · subst hsets
    intro known s
    refine ⟨_, _, _, [.everything (source.allRecords.run s).1], run_common_nil source known s,
      .everything _ (.done known), .everything (.done _),
      fun B _ => ⟨(source.allRecords.run s).1, rfl, fun x => ?_⟩⟩
    simp only [List.not_mem_nil, false_implies, implies_true, and_true, forall_const]
  · obtain ⟨ids, hcommon, hmem⟩ := common_of_ne_nil source hsets
    rw [hcommon]
    refine Asks.pure fun _ => ⟨∅, (if_neg hsets).symm, fun x => ?_⟩
    rw [hmem]
    exact (and_iff_right fun h => absurd h hsets).symm

/-- **Leaving questions out changes nothing**: what is not asked for could take nothing away. -/
theorem asks_without (source : BitmapSource σ) {ids : List Nat}
    (registered : ∀ id ∈ ids, id < registry.size) (start : IdSet) :
    Asks source registry (without source registry start ids) fun rounds rest B =>
      rounds.filterMap Round.everything? = [] ∧
        ∀ x, x ∈ rest ↔ x ∈ start ∧ ∀ id ∈ ids, x ∉ B id := by
  induction ids generalizing start with
  | nil => exact Asks.pure fun _ => ⟨rfl, fun x => by simp⟩
  | cons id ids ih =>
      obtain ⟨hid, hids⟩ := List.forall_mem_cons.mp registered
      unfold without
      split
      · -- No records are left, so the atoms that are not asked for do not matter.
        rename_i hempty
        refine Asks.pure fun _ => ⟨rfl, fun x => ?_⟩
        exact ⟨fun hx => absurd hx (IdSet.not_mem_of_isEmpty hempty), fun h => h.1⟩
      · refine ((asks_atomRecords source hid).bind fun excluded =>
          ih hids (start.diff excluded)).mono ?_
        rintro rounds rest B ⟨first, second, excluded, rfl, ⟨hfirst, rfl⟩, hsecond, hrest⟩
        refine ⟨by rw [List.filterMap_append, hfirst, hsecond]; rfl, fun x => ?_⟩
        rw [hrest, IdSet.mem_diff, List.forall_mem_cons, and_assoc]

/-- What the source has answered to the paths that start from all records, if every path comes with
the set that it starts from. -/
def startingSets (starts : List (Path × IdSet)) : List IdSet :=
  (starts.filter fun e => e.1.mustHave.isEmpty).map Prod.snd

theorem startingSets_cons (p : Path) (everything : IdSet) (starts : List (Path × IdSet)) :
    startingSets ((p, everything) :: starts) =
      (if p.mustHave = [] then [everything] else []) ++ startingSets starts := by
  unfold startingSets
  rw [List.filter_cons]
  by_cases h : p.mustHave = []
  · rw [if_pos h, if_pos (List.isEmpty_iff.mpr h)]
    rfl
  · rw [if_neg h, if_neg fun hempty => h (List.isEmpty_iff.mp hempty)]
    rfl

/-- **The records of a path** are those that it matches. -/
theorem asks_pathRecords (source : BitmapSource σ) {p : Path}
    (registered : ∀ l ∈ p.literals, l.var < registry.size) :
    Asks source registry (pathRecords source registry p) fun rounds ids B =>
      ∃ everything, rounds.filterMap Round.everything? = startingSets [(p, everything)] ∧
        ∀ x, x ∈ ids ↔ PathMatches B everything p x := by
  have among (keep : Literal → Bool) :
      ∀ id ∈ (p.literals.filter keep).map Literal.var, id < registry.size := by
    intro id hid
    obtain ⟨l, hl, rfl⟩ := List.mem_map.mp hid
    exact registered l (List.mem_filter.mp hl).1
  have required : ∀ id ∈ p.mustHave, id < registry.size := among _
  have excluded : ∀ id ∈ p.mustNot, id < registry.size := among _
  refine ((asks_atomsRecords source required).bind fun sets =>
    (asks_common source sets).bind fun start => asks_without source excluded start).mono ?_
  rintro rounds ids B ⟨first, later, sets, rfl, ⟨hfirst, rfl⟩, second, third, start, rfl,
    ⟨everything, hsecond, hstart⟩, hthird, hids⟩
  -- There are no sets to intersect when there is no atom that the path must have.
  simp only [List.map_eq_nil_iff] at hsecond hstart
  refine ⟨everything, ?_, fun x => ?_⟩
  · rw [List.filterMap_append, List.filterMap_append, hfirst, hsecond, hthird, List.nil_append,
      List.append_nil, startingSets_cons]
    exact (List.append_nil _).symm
  · rw [hids, hstart, List.forall_mem_map, and_assoc]
    rfl

/-- **The records of a cover** are those that some path matches, where each path that starts from
all records has an answer of its own for these. -/
theorem asks_coverRecords (source : BitmapSource σ) {cover : List Path}
    (registered : ∀ p ∈ cover, ∀ l ∈ p.literals, l.var < registry.size) (start : IdSet) :
    Asks source registry (coverRecords source registry start cover) fun rounds ids B =>
      ∃ starts : List (Path × IdSet), starts.map Prod.fst = cover ∧
        rounds.filterMap Round.everything? = startingSets starts ∧
        ∀ x, x ∈ ids ↔ x ∈ start ∨ ∃ e ∈ starts, PathMatches B e.2 e.1 x := by
  induction cover generalizing start with
  | nil => exact Asks.pure fun _ => ⟨[], rfl, rfl, fun x => by simp⟩
  | cons p cover ih =>
      obtain ⟨hp, hcover⟩ := List.forall_mem_cons.mp registered
      refine ((asks_pathRecords source hp).bind fun matched =>
        ih hcover (start.union matched)).mono ?_
      rintro rounds ids B ⟨first, second, matched, rfl, ⟨everything, hfirst, hmatched⟩,
        starts, rfl, hsecond, hids⟩
      refine ⟨(p, everything) :: starts, rfl, ?_, fun x => ?_⟩
      · rw [List.filterMap_append, hfirst, hsecond, startingSets_cons, startingSets_cons,
          List.append_assoc]
        rfl
      · simp only [hids, IdSet.mem_union, hmatched, List.mem_cons, exists_eq_or_imp, or_assoc]

end Evaluation
end FacetQuery
