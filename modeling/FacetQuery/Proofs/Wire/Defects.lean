import FacetQuery.Proofs.Formula.Lexing
import FacetQuery.Proofs.Wire.Grammar
import Mathlib.Data.List.Lex

/-!
# The first defect of a query

When a value is no query, where does the error point?  This module describes the items of a query
and their defects without a word about how they are read.  The value as a whole is an item, and so
is whatever stands in the list of an item of the right shape (`Within`).  An item is defective on
its own when it does not have the shape that its keys announce, or when it has and its list is empty
(`OwnDefect`).  An item comes before what is inside of it, and the items of a list come from left to
right (`Location.Precedes`).

`readQuery_first_defect` says that the error names the first defective item in this order, and its
defect.

### What is load-bearing

That an item is read says something about everything inside of it: none of it is defective.  Only
with that does an error further to the right say anything about what comes before.  So both outcomes
are carried through the recursion at once, for the items within an item and for those within a list
alike (`Outcome`).  How one item is read is said once, for the root and for the items of both kinds
of lists (`ItemReading`).
-/

namespace FacetQuery.Wire

/-! ### The order of locations -/

def Step.index : Step → Nat
  | .entry index => index
  | .alternative index => index

def ListKind.step (kind : ListKind) (index : Nat) : Step :=
  match kind with
  | .entries => .entry index
  | .alternatives => .alternative index

theorem ListKind.index_step (kind : ListKind) (index : Nat) : (kind.step index).index = index := by
  cases kind <;> rfl

namespace Location

/-- **The order in which items are met**: a location precedes what is inside of it, and at the first
step in which two locations differ the one further to the left comes first. -/
def Precedes (a b : Location) : Prop :=
  List.Lex (fun s t : Step => s.index < t.index) a.steps b.steps

variable {a b location : Location} {i k : Nat} {kind : ListKind}

theorem steps_item (location : Location) (index : Nat) (kind : ListKind) :
    (location.item index kind).steps = location.steps ++ [kind.step index] := by
  cases kind <;> rfl

/-- Common first steps make no difference. -/
private theorem lex_of_append {steps ss ts : List Step}
    (h : List.Lex (fun s t : Step => s.index < t.index) (steps ++ ss) (steps ++ ts)) :
    List.Lex (fun s t : Step => s.index < t.index) ss ts := by
  induction steps with
  | nil => exact h
  | cons s steps ih =>
      cases h with
      | rel hlt => exact absurd hlt (Nat.lt_irrefl _)
      | cons h => exact ih h

/-- Nothing inside of an item precedes it. -/
theorem not_precedes_of_prefix (inside : a.steps <+: b.steps) : ¬ b.Precedes a := by
  obtain ⟨more, hsteps⟩ := inside
  intro h
  rw [Precedes, ← hsteps, ← List.append_nil a.steps, List.append_assoc] at h
  cases lex_of_append h

/-- What is inside of an item does not precede what is inside of an item further to the left. -/
theorem le_of_precedes (ha : (location.item i kind).steps <+: a.steps)
    (hb : (location.item k kind).steps <+: b.steps) (h : a.Precedes b) : i ≤ k := by
  obtain ⟨more, hsteps⟩ := ha
  obtain ⟨more', hsteps'⟩ := hb
  rw [Precedes, ← hsteps, ← hsteps', steps_item, steps_item, List.append_assoc,
    List.append_assoc] at h
  generalize hs : kind.step i = s at h
  generalize ht : kind.step k = t at h
  rw [← kind.index_step i, ← kind.index_step k, hs, ht]
  cases lex_of_append h with
  | rel hlt => exact Nat.le_of_lt hlt
  | cons => exact Nat.le_refl _

/-- A location precedes whatever is inside of one of its items. -/
theorem precedes_item (h : (location.item i kind).steps <+: b.steps) : location.Precedes b := by
  obtain ⟨more, hsteps⟩ := h
  rw [Precedes, ← hsteps, steps_item, List.append_assoc]
  simpa using List.Lex.append_left _ List.Lex.nil location.steps

/-- What is inside of an item precedes what is inside of an item further to the right. -/
theorem precedes_of_lt (h : i < k) (ha : (location.item i kind).steps <+: a.steps)
    (hb : (location.item k kind).steps <+: b.steps) : a.Precedes b := by
  obtain ⟨more, hsteps⟩ := ha
  obtain ⟨more', hsteps'⟩ := hb
  rw [Precedes, ← hsteps, ← hsteps', steps_item, steps_item, List.append_assoc,
    List.append_assoc]
  refine List.Lex.append_left _ (.rel ?_) _
  rwa [ListKind.index_step, ListKind.index_step]

/-! ### The text of a location -/

/-- The text of a step can be told from what follows it. -/
theorem stepText_append_inj {s t : Step} {cs ds : List Char}
    (h : stepText s ++ cs = stepText t ++ ds) : s = t ∧ cs = ds := by
  have numeral (i : Nat) (cs : List Char) :
      (Text.numeral i ++ ']' :: cs).takeWhile Char.isDigit = Text.numeral i := by
    rw [List.takeWhile_append_of_pos fun _ => Text.isDigit_of_mem_numeral,
      List.takeWhile_cons_of_neg (by decide), List.append_nil]
  have indices {i k : Nat}
      (h : Text.numeral i ++ ']' :: cs = Text.numeral k ++ ']' :: ds) : i = k ∧ cs = ds := by
    have same : Text.numeral i = Text.numeral k := by
      rw [← numeral i cs, h, numeral k ds]
    rw [same, List.append_cancel_left_eq] at h
    refine ⟨?_, (List.cons.inj h).2⟩
    rw [← Text.numeralValue_numeral i, same, Text.numeralValue_numeral]
  cases s <;> cases t <;>
    simp only [stepText, List.cons_append, List.nil_append, List.append_assoc, List.cons.injEq,
      Char.reduceEq, true_and, false_and, and_false] at h
  · obtain ⟨rfl, rfl⟩ := indices h
    exact ⟨rfl, rfl⟩
  · obtain ⟨rfl, rfl⟩ := indices h
    exact ⟨rfl, rfl⟩

/-- **A location is known by its text.** -/
theorem toText_injective {a b : Location} (h : a.toText = b.toText) : a = b := by
  have steps (ss ts : List Step) (h : ss.flatMap stepText = ts.flatMap stepText) : ss = ts := by
    induction ss generalizing ts with
    | nil =>
        cases ts with
        | nil => rfl
        | cons t ts => cases t <;> simp [stepText] at h
    | cons s ss ih =>
        cases ts with
        | nil => cases s <;> simp [stepText] at h
        | cons t ts =>
            obtain ⟨rfl, behind⟩ := stepText_append_inj h
            rw [ih ts behind]
  rw [toText, toText, String.append_right_inj, String.ofList_inj] at h
  exact congrArg Location.mk (steps _ _ h)

end Location

/-! ### Items -/

/-- What an item is to be read as. -/
inductive Form where
  /-- A conjunction: the root, or an alternative that is an object with the key `and`. -/
  | query
  /-- An entry that is an object with the key `or`. -/
  | disjunction
  /-- Every other item. -/
  | predicate
deriving DecidableEq

namespace Form

def of (kind : ListKind) (j : Json) : Form :=
  match EntryKind.of kind.key j, kind with
  | .predicate, _ => .predicate
  | .nested _, .entries => .disjunction
  | .nested _, .alternatives => .query

def list : Form → ListName
  | query => .and
  | disjunction => .or
  | predicate => .values

end Form

/-- **The shape of an item**: its own fields are those of its form, and its own list has so many
items.  Nothing is asked of these items. -/
inductive HasShape : Form → Json → Nat → Prop where
  | query {j : Json} {q : QueryFields} (h : SpellsQueryRecord j q) :
      HasShape .query j q.entries.length
  | disjunction (items : List Json) :
      HasShape .disjunction (.object [("or", .array items)]) items.length
  | predicate {j : Json} {p : PredicateFields} (h : SpellsPredicate j p) :
      HasShape .predicate j p.values.length

/-- The items inside of an item of the right shape. -/
inductive Contains : Form → Json → ListKind → List Json → Prop where
  | query {j : Json} {q : QueryFields} (h : SpellsQueryRecord j q) :
      Contains .query j .entries q.entries
  | disjunction (items : List Json) :
      Contains .disjunction (.object [("or", .array items)]) .alternatives items

/-- An item of a query: a value with its location, and with what it is to be read as. -/
structure Item where
  location : Location
  form : Form
  value : Json

namespace Item

def root (j : Json) : Item := ⟨.root, .query, j⟩

def child (location : Location) (kind : ListKind) (index : Nat) (j : Json) : Item :=
  ⟨location.item index kind, .of kind j, j⟩

end Item

/-- **What there is within an item**: the item itself, and whatever is within the items that it
contains. -/
inductive Within : Item → Item → Prop where
  | self (x : Item) : Within x x
  | inside {x y : Item} {kind : ListKind} {js : List Json} {index : Nat} {j : Json}
      (contains : Contains x.form x.value kind js) (item : js[index]? = some j)
      (rest : Within (.child x.location kind index j) y) : Within x y

/-- What there is within the items of a list that begins at the given position. -/
def WithinList (location : Location) (index : Nat) (kind : ListKind) (js : List Json)
    (x : Item) : Prop :=
  ∃ i j, js[i]? = some j ∧ Within (.child location kind (index + i) j) x

/-- What can be wrong with an item on its own. -/
inductive Defect where
  | shape
  | emptyList
deriving DecidableEq

/-- **The defect of an item**: it does not have its shape, or failing that, its list is empty. -/
inductive OwnDefect (form : Form) (j : Json) : Defect → Prop where
  | shape (h : ∀ n, ¬ HasShape form j n) : OwnDefect form j .shape
  | emptyList (h : HasShape form j 0) : OwnDefect form j .emptyList

/-- Why an item does not have its shape. -/
inductive Refuses : Form → Json → Mismatch → Prop where
  | query {j : Json} {m : Mismatch} (h : QueryFields.ofJson j = .error m) : Refuses .query j m
  | disjunction {fields : List (String × Json)} {m : Mismatch}
      (h : alternativesOfObject fields = .error m) : Refuses .disjunction (.object fields) m
  | predicate {j : Json} {m : Mismatch} (h : PredicateFields.ofJson j = .error m) :
      Refuses .predicate j m

/-- The error that names a defect of an item. -/
inductive Reports (x : Item) : Defect → QueryError → Prop where
  | shape {m : Mismatch} (h : Refuses x.form x.value m) :
      Reports x .shape (.entry x.location m)
  | emptyList : Reports x .emptyList (.emptyList x.form.list x.location)

def Item.Sound (x : Item) : Prop :=
  ∀ defect, ¬ OwnDefect x.form x.value defect

/-- **The error names the first defective one** of some items, and its defect. -/
def FirstDefect (items : Item → Prop) (error : QueryError) : Prop :=
  ∃ x defect, items x ∧ OwnDefect x.form x.value defect ∧ Reports x defect error ∧
    ∀ y, items y → y.location.Precedes x.location → y.Sound

/-- What an outcome says about the items that have been read: none of them is defective, or the
error is about the first one that is. -/
def Outcome {α : Type} (items : Item → Prop) : Except QueryError α → Prop
  | .ok _ => ∀ x, items x → x.Sound
  | .error error => FirstDefect items error

section

variable {here location : Location} {form : Form} {j : Json} {kind : ListKind}
  {js : List Json} {m n index : Nat} {error : QueryError} {x y : Item}

theorem SpellsQueryRecord.unique {q r : QueryFields} (h : SpellsQueryRecord j q)
    (h' : SpellsQueryRecord j r) : q = r := by
  rw [← QueryFields.ofJson_eq_ok] at h h'
  exact Except.ok.inj (h.symm.trans h')

theorem SpellsPredicate.unique {p q : PredicateFields} (h : SpellsPredicate j p)
    (h' : SpellsPredicate j q) : p = q := by
  rw [← PredicateFields.ofJson_eq_ok] at h h'
  exact Except.ok.inj (h.symm.trans h')

theorem HasShape.unique (h : HasShape form j m) (h' : HasShape form j n) : m = n := by
  cases h with
  | query h =>
      cases h' with
      | query h' => rw [h.unique h']
  | disjunction items =>
      cases h'
      rfl
  | predicate h =>
      cases h' with
      | predicate h' => rw [h.unique h']

theorem Contains.unique {kind' : ListKind} {js' : List Json} (h : Contains form j kind js)
    (h' : Contains form j kind' js') : kind = kind' ∧ js = js' := by
  cases h with
  | query h =>
      cases h' with
      | query h' =>
          obtain rfl := h.unique h'
          exact ⟨rfl, rfl⟩
  | disjunction items =>
      cases h'
      exact ⟨rfl, rfl⟩

/-- An item that contains others has its shape. -/
theorem Contains.hasShape (h : Contains form j kind js) : HasShape form j js.length := by
  cases h with
  | query h => exact .query h
  | disjunction => exact .disjunction js

theorem Contains.sizeOf_lt (h : Contains form j kind js) : sizeOf js < sizeOf j := by
  cases h with
  | query h =>
      cases h with
      | object h =>
          have := sizeOf_value_lt h.entries
          simp only [Json.object.sizeOf_spec, Json.array.sizeOf_spec] at this ⊢
          omega
      | array negated entries =>
          simp only [Json.array.sizeOf_spec, List.cons.sizeOf_spec]
          omega
  | disjunction items =>
      simp only [Json.object.sizeOf_spec, List.cons.sizeOf_spec, Prod.mk.sizeOf_spec,
        Json.array.sizeOf_spec]
      omega

/-- What is refused does not have its shape. -/
theorem Refuses.ownDefect {mismatch : Mismatch} (h : Refuses form j mismatch) :
    OwnDefect form j .shape := by
  refine .shape fun n hn => ?_
  cases h with
  | query h =>
      cases hn with
      | query spelled => rw [QueryFields.ofJson_eq_ok.mpr spelled] at h; cases h
  | disjunction h =>
      cases hn with
      | disjunction items => rw [alternativesOfObject_eq_ok.mpr rfl] at h; cases h
  | predicate h =>
      cases hn with
      | predicate spelled => rw [PredicateFields.ofJson_eq_ok.mpr spelled] at h; cases h

/-- An item has no defect of its own when it has its shape and its list is not empty. -/
theorem HasShape.not_ownDefect (h : HasShape form j n) (nonempty : n ≠ 0) (defect : Defect) :
    ¬ OwnDefect form j defect := by
  rintro (noShape | empty)
  · exact noShape n h
  · exact nonempty (h.unique empty)

/-- What there is within an item is at locations inside of its own. -/
theorem Within.steps_prefix (h : Within x y) : x.location.steps <+: y.location.steps := by
  induction h with
  | self => exact List.prefix_refl _
  | inside _ _ _ ih =>
      rw [Item.child, Location.steps_item] at ih
      exact (List.prefix_append _ _).trans ih

/-- **Of two different items within an item, one comes first.** -/
theorem Within.precedes_or_precedes {z : Item} (hy : Within x y) (hz : Within x z) (h : y ≠ z) :
    y.location.Precedes z.location ∨ z.location.Precedes y.location := by
  induction hy with
  | self x =>
      cases hz with
      | self => exact absurd rfl h
      | inside _ _ within => exact .inl (Location.precedes_item within.steps_prefix)
  | @inside x y kind js i j contains item within ih =>
      cases hz with
      | self => exact .inr (Location.precedes_item within.steps_prefix)
      | @inside _ _ _ _ k _ contains' item' within' =>
          obtain ⟨rfl, rfl⟩ := contains.unique contains'
          rcases Nat.lt_trichotomy i k with hlt | rfl | hlt
          · exact .inl (Location.precedes_of_lt hlt within.steps_prefix within'.steps_prefix)
          · rw [item, Option.some.injEq] at item'
            subst item'
            exact ih within' h
          · exact .inr (Location.precedes_of_lt hlt within'.steps_prefix within.steps_prefix)

/-- Different items within an item are at different locations, and the texts of these differ. -/
theorem Within.toText_ne {z : Item} (hy : Within x y) (hz : Within x z) (h : y ≠ z) :
    y.location.toText ≠ z.location.toText := by
  intro same
  have same := Location.toText_injective same
  have irrefl := Location.not_precedes_of_prefix (List.prefix_refl z.location.steps)
  rcases hy.precedes_or_precedes hz h with precedes | precedes <;> rw [same] at precedes <;>
    exact irrefl precedes

/-! ### Reading one item -/

/-- **How an item is read**: its shape is looked at first, then whether its list is empty, and then
the items inside of it are read in turn. -/
inductive ItemReading (x : Item) : Except QueryError QueryTree → Prop where
  | refused {m : Mismatch} (h : Refuses x.form x.value m) :
      ItemReading x (.error (.entry x.location m))
  | empty (h : HasShape x.form x.value 0) :
      ItemReading x (.error (.emptyList x.form.list x.location))
  | predicate {n : Nat} (isPredicate : x.form = .predicate) (h : HasShape x.form x.value n)
      (nonempty : n ≠ 0) (t : QueryTree) : ItemReading x (.ok t)
  | inside {kind : ListKind} {js : List Json} (contains : Contains x.form x.value kind js)
      (nonempty : js ≠ []) (wrap : List QueryTree → QueryTree) :
      ItemReading x ((readList x.location 0 js kind).map wrap)

theorem itemReading_readPredicate : ItemReading ⟨here, .predicate, j⟩ (readPredicate here j) := by
  rw [readPredicate]
  cases h : PredicateFields.ofJson j with
  | error m => exact .refused (.predicate h)
  | ok p =>
      have shape := HasShape.predicate (PredicateFields.ofJson_eq_ok.mp h)
      dsimp only
      split
      · rename_i empty
        rw [List.isEmpty_iff.mp empty] at shape
        exact .empty shape
      · rename_i nonempty
        rw [List.isEmpty_iff, ← List.length_eq_zero_iff] at nonempty
        exact .predicate rfl shape nonempty _

theorem itemReading_query {q : QueryFields} (h : SpellsQueryRecord j q)
    (wrap : List QueryTree → QueryTree) :
    ItemReading ⟨here, .query, j⟩
      (if q.entries.isEmpty then .error (.emptyList .and here)
        else (readEntries here 0 q.entries).map wrap) := by
  have shape := HasShape.query h
  split
  · rename_i empty
    rw [List.isEmpty_iff.mp empty] at shape
    exact .empty shape
  · rename_i nonempty
    exact .inside (x := ⟨here, .query, j⟩) (.query h) (mt List.isEmpty_iff.mpr nonempty) wrap

theorem itemReading_readItem : ItemReading ⟨here, .of kind j, j⟩ (readItem here j kind) := by
  rcases EntryKind.eq_predicate_or_nested kind.key j with hk | ⟨fields, hk⟩
  · have form : Form.of kind j = .predicate := by simp only [Form.of, hk]
    rw [form]
    cases kind with
    | entries =>
        rw [readItem, show EntryKind.of "or" j = .predicate from hk]
        exact itemReading_readPredicate
    | alternatives =>
        rw [readItem, show EntryKind.of "and" j = .predicate from hk]
        exact itemReading_readPredicate
  · obtain rfl := EntryKind.eq_object_of_nested hk
    cases kind with
    | entries =>
        have form : Form.of .entries (.object fields) = .disjunction := by simp only [Form.of, hk]
        rw [readItem, show EntryKind.of "or" (.object fields) = .nested fields from hk, form]
        dsimp only
        cases h : alternativesOfObject fields with
        | error m => exact .refused (.disjunction h)
        | ok items =>
            obtain rfl := alternativesOfObject_eq_ok.mp h
            cases items with
            | nil => exact .empty (.disjunction [])
            | cons item items =>
                exact .inside (x := ⟨here, .disjunction, _⟩) (.disjunction _)
                  (List.cons_ne_nil item items) .any
    | alternatives =>
        have form : Form.of .alternatives (.object fields) = .query := by simp only [Form.of, hk]
        rw [readItem, show EntryKind.of "and" (.object fields) = .nested fields from hk, form]
        dsimp only
        cases h : QueryFields.ofObject fields with
        | error m => exact .refused (.query h)
        | ok q =>
            exact itemReading_query (.object (QueryFields.ofObject_eq_ok.mp h)) (.all · q.negated)

/-! ### Outcomes -/

variable {α : Type} {items items' : Item → Prop} {r : Except QueryError α}

/-- More items without defects of their own make no difference. -/
theorem Outcome.extend (h : Outcome items r) (sub : ∀ x, items x → items' x)
    (rest : ∀ x, items' x → items x ∨ x.Sound) : Outcome items' r := by
  cases r with
  | ok => exact fun x hx => (rest x hx).elim (h x) id
  | error e =>
      obtain ⟨x, defect, hx, own, reports, before⟩ := h
      exact ⟨x, defect, sub x hx, own, reports,
        fun y hy precedes => (rest y hy).elim (before y · precedes) id⟩

theorem Outcome.map {β : Type} (h : Outcome items r) (f : α → β) : Outcome items (r.map f) := by
  cases r <;> exact h

/-- A defect of an item itself comes before all that is inside of it. -/
theorem firstDefect_self {defect : Defect} (own : OwnDefect x.form x.value defect)
    (reports : Reports x defect error) : FirstDefect (Within x) error :=
  ⟨x, defect, .self x, own, reports,
    fun _ hy precedes => absurd precedes (Location.not_precedes_of_prefix hy.steps_prefix)⟩

/-- What there is within an item that contains others. -/
theorem within_of_contains (h : Contains x.form x.value kind js) :
    Within x y ↔ y = x ∨ WithinList x.location 0 kind js y := by
  constructor
  · intro hy
    cases hy with
    | self => exact .inl rfl
    | inside contains item rest =>
        obtain ⟨rfl, rfl⟩ := h.unique contains
        exact .inr ⟨_, _, item, by rwa [Nat.zero_add]⟩
  · rintro (rfl | ⟨i, j, item, rest⟩)
    · exact .self y
    · rw [Nat.zero_add] at rest
      exact .inside h item rest

theorem withinList_cons : WithinList here index kind (j :: js) y ↔
    Within (.child here kind index j) y ∨ WithinList here (index + 1) kind js y := by
  constructor
  · rintro ⟨i, k, item, within⟩
    cases i with
    | zero =>
        obtain rfl := Option.some.inj item
        exact .inl within
    | succ i => exact .inr ⟨i, k, item, by rwa [Nat.add_right_comm]⟩
  · rintro (within | ⟨i, k, item, within⟩)
    · exact ⟨0, j, rfl, within⟩
    · exact ⟨i + 1, k, item, by rwa [Nat.add_right_comm] at within⟩

/-- **The outcome for an item**, given that for the items inside of it. -/
theorem ItemReading.outcome {r : Except QueryError QueryTree} (h : ItemReading x r)
    (inside : ∀ kind js, Contains x.form x.value kind js →
      Outcome (WithinList x.location 0 kind js) (readList x.location 0 js kind)) :
    Outcome (Within x) r := by
  cases h with
  | refused h => exact firstDefect_self h.ownDefect (.shape h)
  | empty h => exact firstDefect_self (.emptyList h) .emptyList
  | predicate isPredicate h nonempty =>
      intro y hy
      cases hy with
      | self => exact h.not_ownDefect nonempty
      | inside contains =>
          rw [isPredicate] at contains
          cases contains
  | inside contains nonempty wrap =>
      have sound : x.Sound :=
        contains.hasShape.not_ownDefect (mt List.length_eq_zero_iff.mp nonempty)
      refine ((inside _ _ contains).map wrap).extend (fun y hy => ?_) fun y hy => ?_
      · exact (within_of_contains contains).mpr (.inr hy)
      · rcases (within_of_contains contains).mp hy with rfl | hy
        · exact .inr sound
        · exact .inl hy

/-- **The outcome for a list**, given that for its first item and that for the others. -/
theorem Outcome.cons {first : Except QueryError QueryTree}
    {rest : Except QueryError (List QueryTree)}
    (hfirst : Outcome (Within (.child here kind index j)) first)
    (hrest : Outcome (WithinList here (index + 1) kind js) rest) :
    Outcome (WithinList here index kind (j :: js)) (do
      let child ← first
      let rest ← rest
      pure (child :: rest)) := by
  cases first with
  | error e =>
      obtain ⟨x, defect, hx, own, reports, before⟩ := hfirst
      refine ⟨x, defect, withinList_cons.mpr (.inl hx), own, reports, fun y hy precedes => ?_⟩
      rcases withinList_cons.mp hy with hy | ⟨i, k, -, hy⟩
      · exact before y hy precedes
      · have := Location.le_of_precedes hy.steps_prefix hx.steps_prefix precedes
        omega
  | ok t =>
      refine (hrest.map (t :: ·)).extend (fun y hy => ?_) fun y hy => ?_
      · exact withinList_cons.mpr (.inr hy)
      · exact (withinList_cons.mp hy).elim (fun hy => .inr (hfirst y hy)) .inl

-- By induction on the size of the list: both what is inside of the first item and what comes behind
-- it is smaller.
/-- **The outcome for every list.** -/
theorem outcome_readList :
    Outcome (WithinList here index kind js) (readList here index js kind) := by
  induction hn : sizeOf js using Nat.strongRecOn generalizing js kind here index with
  | ind n ih =>
      subst hn
      cases js with
      | nil =>
          rw [readList_nil]
          rintro x ⟨i, j, item, -⟩
          cases item
      | cons j js =>
          rw [readList_cons]
          refine .cons (itemReading_readItem.outcome fun inner ks contains => ih _ ?_ rfl)
            (ih _ ?_ rfl)
          · have := contains.sizeOf_lt
            rw [List.cons.sizeOf_spec]
            dsimp only at this
            omega
          · rw [List.cons.sizeOf_spec]
            omega

/-- **The error of a value that is no query.**  When the value as a whole does not have the shape of
a query, the error says so.  Otherwise it names the first defective item and its defect; and to say
the first is to say which one, since any two items are told apart by the texts of their locations,
and one of them precedes the other. -/
theorem readQuery_first_defect (h : readQuery j = .error error) :
    ((¬ ∃ n, HasShape .query j n) → ∃ m, Refuses .query j m ∧ error = .shape m) ∧
    ((∃ n, HasShape .query j n) → FirstDefect (Within (.root j)) error) ∧
    ∀ x y, Within (.root j) x → Within (.root j) y → x ≠ y →
      x.location.toText ≠ y.location.toText ∧
        (x.location.Precedes y.location ∨ y.location.Precedes x.location) := by
  refine ⟨fun noShape => ?_, fun ⟨n, shape⟩ => ?_,
    fun x y hx hy ne => ⟨hx.toText_ne hy ne, hx.precedes_or_precedes hy ne⟩⟩
  · rw [readQuery] at h
    cases hq : QueryFields.ofJson j with
    | error m =>
        rw [hq] at h
        cases h
        exact ⟨m, .query hq, rfl⟩
    | ok q => exact absurd ⟨_, .query (QueryFields.ofJson_eq_ok.mp hq)⟩ noShape
  · cases shape with
    | @query _ q spelled =>
        have read : readQuery j = q.toTree := by
          rw [readQuery, QueryFields.ofJson_eq_ok.mpr spelled]
        have outcome : Outcome (Within (.root j)) (readQuery j) := by
          rw [read]
          exact (itemReading_query spelled (.all · q.negated)).outcome
            fun _ _ _ => outcome_readList
        rw [h] at outcome
        exact outcome

/-- Four items of this query are defective.  The error is not about the alternative with the empty
list `and`, which is less deep, nor about one of the others further to the right. -/
theorem readQuery_first_defect_of_scattered_defects :
    let j := Json.object [("and", .array [
      .object [("property", .text "status"), ("values", .array [.text "open"])],
      .object [("or", .array [
        .object [("property", .text "priority"), ("values", .array [.text "high"])],
        .object [("and", .array [.object [("or", .array [])], .null])],
        .object [("and", .array [])]])],
      .int 7])]
    let error := QueryError.emptyList .or ⟨[.entry 1, .alternative 1, .entry 0]⟩
    readQuery j = .error error ∧ (∃ n, HasShape .query j n) ∧
      FirstDefect (Within (.root j)) error := by
  intro j error
  have read : readQuery j = .error error := by cbv
  have shape : HasShape .query j _ := .query (QueryFields.ofJson_eq_ok.mp rfl)
  exact ⟨read, ⟨_, shape⟩, (readQuery_first_defect read).2.1 ⟨_, shape⟩⟩

end

end FacetQuery.Wire
