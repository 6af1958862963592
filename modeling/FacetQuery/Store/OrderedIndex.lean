import FacetQuery.IdSet

/-!
# Ordered indexes

An ordered index maps integer keys to sets of record numbers and lists them by key.  A
window of the keys is given by two bounds, either of which may be missing.

`slice?` walks from the first key in the window to the last one.  It is partial: a window
that starts above its end, or that lies strictly between two equal bounds, has no
first key to start from, and asking for it is an error of the caller.

A lookup makes a test of its own beforehand (`Window.isVacuous`), which is not the test of
the walk (`Window.isProper`), and walks only through windows that pass it.  So a lookup is
partial too (`lookup?`), and that it always has an answer is a fact about the two tests
(`isProper_of_not_isVacuous`).
-/

namespace FacetQuery

inductive Bound where
  | unbounded
  | included (key : Int)
  | excluded (key : Int)
deriving DecidableEq

def Bound.key? : Bound → Option Int
  | unbounded => none
  | included key => some key
  | excluded key => some key

def Bound.isIncluded : Bound → Bool
  | included _ => true
  | _ => false

def Bound.at (key : Option Int) (isIncluded : Bool) : Bound :=
  match key with
  | none => unbounded
  | some key => if isIncluded then included key else excluded key

def Bound.admitsAbove : Bound → Int → Bool
  | unbounded, _ => true
  | included b, key => b ≤ key
  | excluded b, key => b < key

def Bound.admitsBelow : Bound → Int → Bool
  | unbounded, _ => true
  | included b, key => key ≤ b
  | excluded b, key => key < b

structure Window where
  lower : Bound
  upper : Bound
deriving DecidableEq

namespace Window

def contains (w : Window) (key : Int) : Bool :=
  w.lower.admitsAbove key && w.upper.admitsBelow key

/-- Whether an index can be walked through in this window: it does not start above its end,
and does not lie strictly between two equal bounds. -/
def isProper (w : Window) : Bool :=
  match w.lower, w.upper with
  | .excluded b, .excluded c => b < c
  | lower, upper =>
    match lower.key?, upper.key? with
    | some b, some c => b ≤ c
    | _, _ => true

/-- Whether the two bounds leave no key between them. -/
def isVacuous (w : Window) : Bool :=
  match w.lower.key?, w.upper.key? with
  | some b, some c =>
    match compare b c with
    | .gt => true
    | .eq => !(w.lower.isIncluded && w.upper.isIncluded)
    | .lt => false
  | _, _ => false

variable {w : Window} {b c : Int}

/-- A window between two keys is vacuous when it is upside down, or when the keys are the same and
one of them is left out. -/
theorem isVacuous_iff (hb : w.lower.key? = some b) (hc : w.upper.key? = some c) :
    w.isVacuous = true ↔
      c < b ∨ (b = c ∧ (w.lower.isIncluded && w.upper.isIncluded) = false) := by
  rw [isVacuous, hb, hc]
  dsimp only
  rcases Int.lt_trichotomy b c with hlt | rfl | hgt
  · rw [Int.compare_eq_lt.mpr hlt]
    refine iff_of_false Bool.false_ne_true ?_
    omega
  · rw [Int.compare_eq_eq.mpr rfl, or_iff_right (Int.lt_irrefl b)]
    simp only [true_and, Bool.not_eq_true']
  · rw [Int.compare_eq_gt.mpr hgt]
    exact iff_of_true rfl (Or.inl hgt)

/-- **Whatever is walked through can be walked through**: a window that is not vacuous is proper. -/
theorem isProper_of_not_isVacuous (h : ¬ w.isVacuous = true) : w.isProper = true := by
  obtain ⟨lower, upper⟩ := w
  cases lower with
  | unbounded => cases upper <;> rfl
  | included b =>
      cases upper with
      | unbounded => rfl
      | included c =>
          rw [isVacuous_iff rfl rfl] at h
          exact decide_eq_true (by omega)
      | excluded c =>
          rw [isVacuous_iff rfl rfl] at h
          exact decide_eq_true (by omega)
  | excluded b =>
      cases upper with
      | unbounded => rfl
      | included c =>
          rw [isVacuous_iff rfl rfl] at h
          exact decide_eq_true (by omega)
      | excluded c =>
          rw [isVacuous_iff rfl rfl] at h
          simp only [Bound.isIncluded, Bool.and_false, and_true] at h
          exact decide_eq_true (by omega)

end Window

/-- A map from integer keys to sets of record numbers, as the list of its entries by ascending
keys.  What is ordered outside, numbers and dates, is filed under keys that are ordered in the
same way. -/
structure OrderedIndex where
  entries : List (Int × IdSet)
  ascending : entries.Pairwise (·.1 < ·.1)

namespace OrderedIndex

def empty : OrderedIndex :=
  ⟨[], .nil⟩

def insertEntry (key : Int) (id : RecordId) : List (Int × IdSet) → List (Int × IdSet)
  | [] => [(key, IdSet.empty.insert id)]
  | (k, ids) :: rest =>
    if key < k then (key, IdSet.empty.insert id) :: (k, ids) :: rest
    else if key = k then (k, ids.insert id) :: rest
    else (k, ids) :: insertEntry key id rest

theorem key_mem_insertEntry {key : Int} {id : RecordId} {entries : List (Int × IdSet)}
    {e : Int × IdSet} (h : e ∈ insertEntry key id entries) :
    e.1 = key ∨ ∃ f ∈ entries, f.1 = e.1 := by
  induction entries with
  | nil => simp_all [insertEntry]
  | cons f rest ih =>
    obtain ⟨k, ids⟩ := f
    simp only [insertEntry] at h
    split at h
    · grind
    · split at h <;> grind

theorem pairwise_insertEntry {key : Int} {id : RecordId} {entries : List (Int × IdSet)}
    (h : entries.Pairwise (·.1 < ·.1)) :
    (insertEntry key id entries).Pairwise (·.1 < ·.1) := by
  induction entries with
  | nil => simp [insertEntry]
  | cons f rest ih =>
    obtain ⟨k, ids⟩ := f
    have h' := List.pairwise_cons.1 h
    simp only [insertEntry]
    split
    · rename_i hlt
      refine List.pairwise_cons.2 ⟨?_, h⟩
      intro e he
      rcases List.mem_cons.1 he with rfl | he
      · exact hlt
      · exact Int.lt_trans hlt (h'.1 e he)
    · split
      · exact List.pairwise_cons.2 ⟨h'.1, h'.2⟩
      · refine List.pairwise_cons.2 ⟨?_, ih h'.2⟩
        intro e he
        rcases key_mem_insertEntry he with e' | ⟨f, hf, e'⟩
        · simp only [e']
          omega
        · exact e' ▸ h'.1 f hf

def insert (index : OrderedIndex) (key : Int) (id : RecordId) : OrderedIndex :=
  ⟨insertEntry key id index.entries, pairwise_insertEntry index.ascending⟩

/-- The entries in a window that can be walked through. -/
def slice? (index : OrderedIndex) (w : Window) : Option (List (Int × IdSet)) :=
  if w.isProper then
    some ((index.entries.dropWhile fun e => !w.lower.admitsAbove e.1).takeWhile fun e =>
      w.upper.admitsBelow e.1)
  else none

/-- The records under the keys in a window; there is no answer where the walk is refused. -/
def lookup? (index : OrderedIndex) (w : Window) : Option IdSet :=
  if w.isVacuous then some ∅
  else (index.slice? w).map fun entries => IdSet.unionAll (entries.map (·.2))

theorem isSome_lookup? (index : OrderedIndex) (w : Window) : (index.lookup? w).isSome = true := by
  unfold lookup?
  split
  · rfl
  · rename_i hvacuous
    rw [slice?, if_pos (Window.isProper_of_not_isVacuous hvacuous)]
    rfl

end OrderedIndex
end FacetQuery
