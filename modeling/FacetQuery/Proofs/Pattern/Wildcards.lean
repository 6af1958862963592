import FacetQuery.Proofs.Pattern.RangeReading

/-!
# What stars mean

A text that begins or ends with a star is never a range, because a range begins and ends with a
bracket, apart from blanks (`classify_of_wildcard`).  So the stars at the two ends decide
what a text matches, and what stands between them may hold anything: stars, brackets and commas
included.

Between two stars the leading stars of the inner text are lost (`classify_between_wildcards`); every
other inner text is searched for as it stands (`classify_contains`).  Behind a single star and
before one nothing is lost.
-/

namespace FacetQuery

open RangeText Text

namespace ValueMatch

variable {cs inner : List Char} {s t : String} {reading : RangeReading}

/-! ### Stars and ranges -/

theorem isBlank_wildcard : isBlank wildcard = false := by
  decide

/-- A range does not begin with a star. -/
theorem head?_ne_wildcard_of_spellsRange (h : SpellsRange cs reading) :
    cs.head? ≠ some wildcard := by
  intro hhead
  cases h with
  | @intro lowerText upperText lower upper m includeLower includeUpper _ _ =>
      rw [write] at hhead
      cases hbefore : m.before.1 with
      | nil =>
          rw [hbefore] at hhead
          cases includeLower <;> cases hhead
      | cons c before =>
          rw [hbefore] at hhead
          cases hhead
          have := m.before.2 wildcard (hbefore ▸ List.mem_cons_self)
          rw [isBlank_wildcard] at this
          cases this

/-- A range does not end with a star. -/
theorem getLast?_ne_wildcard_of_spellsRange (h : SpellsRange cs reading) :
    cs.getLast? ≠ some wildcard := by
  intro hlast
  cases h with
  | @intro lowerText upperText lower upper m includeLower includeUpper _ _ =>
      have text : write m ⟨includeLower, lowerText, upperText, includeUpper⟩ =
          m.before.1 ++ (openingSign includeLower :: writeEnds m lowerText upperText) ++
            closingSign includeUpper :: m.after.1 := by
        simp [write]
      rw [text, List.getLast?_append_of_ne_nil _ (List.cons_ne_nil _ _)] at hlast
      rcases List.mem_cons.mp (List.mem_of_getLast? hlast) with h | h
      · cases includeUpper <;> cases h
      · have := m.after.2 wildcard h
        rw [isBlank_wildcard] at this
        cases this

/-- **A text that begins or ends with a star** is a pattern. -/
theorem classify_of_wildcard
    (h : s.toList.head? = some wildcard ∨ s.toList.getLast? = some wildcard) :
    classify (.text s) = .ok (ofPattern s) := by
  refine classify_of_not_spelled ?_
  rintro ⟨reading, hreading⟩
  rcases h with h | h
  · exact head?_ne_wildcard_of_spellsRange hreading h
  · exact getLast?_ne_wildcard_of_spellsRange hreading h

/-! ### The three shapes -/

theorem dropLastWildcard_concat (cs : List Char) : dropLastWildcard (cs ++ [wildcard]) = cs := by
  rw [dropLastWildcard, List.getLast?_concat, if_pos rfl, List.dropLast_concat]

theorem ofPattern_between_wildcards (inner : List Char) :
    ofPattern (String.ofList (wildcard :: (inner ++ [wildcard]))) =
      .contains (String.ofList (inner.dropWhile (· == wildcard))) := by
  have first : (wildcard :: (inner ++ [wildcard])).head? = some wildcard := rfl
  have last : (wildcard :: (inner ++ [wildcard])).getLast? = some wildcard := by
    rw [← List.cons_append, List.getLast?_concat]
  have kept : dropLastWildcard ((wildcard :: (inner ++ [wildcard])).dropWhile (· == wildcard)) =
      inner.dropWhile (· == wildcard) := by
    rw [List.dropWhile_cons_of_pos (p := (· == wildcard)) (beq_self_eq_true wildcard),
      List.dropWhile_append]
    split
    · -- There are only stars, and the one at the end is lost with the others.
      rename_i stars
      rw [List.isEmpty_iff.mp stars]
      rfl
    · exact dropLastWildcard_concat _
  simp only [ofPattern, String.toList_ofList, decide_eq_true first, decide_eq_true last, kept]

theorem ofPattern_cons_wildcard (nonempty : inner ≠ []) (last : inner.getLast? ≠ some wildcard) :
    ofPattern (String.ofList (wildcard :: inner)) = .endsWith (String.ofList inner) := by
  have first : (wildcard :: inner).head? = some wildcard := rfl
  have last' : (wildcard :: inner).getLast? ≠ some wildcard := by
    cases inner with
    | nil => exact absurd rfl nonempty
    | cons c inner => rwa [List.getLast?_cons_cons]
  simp only [ofPattern, String.toList_ofList, decide_eq_true first, decide_eq_false last',
    List.drop_succ_cons, List.drop_zero]

theorem ofPattern_append_wildcard (nonempty : inner ≠ []) (first : inner.head? ≠ some wildcard) :
    ofPattern (String.ofList (inner ++ [wildcard])) = .startsWith (String.ofList inner) := by
  have first' : (inner ++ [wildcard]).head? ≠ some wildcard := by
    cases inner with
    | nil => exact absurd rfl nonempty
    | cons c inner => exact first
  have last : (inner ++ [wildcard]).getLast? = some wildcard := List.getLast?_concat
  simp only [ofPattern, String.toList_ofList, decide_eq_false first', decide_eq_true last,
    List.dropLast_concat]

theorem ofPattern_of_no_wildcard (first : s.toList.head? ≠ some wildcard)
    (last : s.toList.getLast? ≠ some wildcard) : ofPattern s = .exact (.text s) := by
  simp only [ofPattern, decide_eq_false first, decide_eq_false last]

/-! ### What patterns match -/

/-- Searching finds a text exactly where it occurs. -/
theorem occursIn_iff : occursIn inner cs = true ↔ inner <:+: cs := by
  induction cs with
  | nil => simp [occursIn]
  | cons c cs ih =>
      rw [occursIn, Bool.or_eq_true, ih, List.isPrefixOf_iff_prefix, List.infix_cons_iff]

theorem accepts_contains : (contains t).accepts (.text s) = true ↔ t.toList <:+: s.toList :=
  occursIn_iff

theorem accepts_endsWith : (endsWith t).accepts (.text s) = true ↔ t.toList <:+ s.toList :=
  List.isSuffixOf_iff_suffix

theorem accepts_startsWith : (startsWith t).accepts (.text s) = true ↔ t.toList <+: s.toList :=
  List.isPrefixOf_iff_prefix

/-! ### The four shapes as texts -/

private theorem toList_star : "*".toList = [wildcard] := by
  decide

/-- **Between two stars** the leading stars are lost. -/
theorem classify_between_wildcards (t : String) :
    classify (.text ("*" ++ t ++ "*")) =
      .ok (.contains (String.ofList (t.toList.dropWhile (· == wildcard)))) := by
  have text : "*" ++ t ++ "*" = String.ofList (wildcard :: (t.toList ++ [wildcard])) := by
    rw [← String.toList_inj, String.toList_ofList]
    simp [toList_star]
  rw [text, classify_of_wildcard (Or.inl (by rw [String.toList_ofList]; rfl)),
    ofPattern_between_wildcards]

/-- Between two stars a text that does not begin with a star is searched for as it stands. -/
theorem classify_contains (first : t.toList.head? ≠ some wildcard) :
    classify (.text ("*" ++ t ++ "*")) = .ok (.contains t) := by
  have kept : t.toList.dropWhile (· == wildcard) = t.toList := by
    cases ht : t.toList with
    | nil => rfl
    | cons c rest =>
        rw [ht] at first
        exact List.dropWhile_cons_of_neg (by simpa using first)
  rw [classify_between_wildcards, kept, String.ofList_toList]

theorem classify_endsWith (nonempty : t ≠ "") (last : t.toList.getLast? ≠ some wildcard) :
    classify (.text ("*" ++ t)) = .ok (.endsWith t) := by
  have text : "*" ++ t = String.ofList (wildcard :: t.toList) := by
    rw [← String.toList_inj, String.toList_ofList]
    simp [toList_star]
  have inner : t.toList ≠ [] := by simpa using nonempty
  rw [text, classify_of_wildcard (Or.inl (by rw [String.toList_ofList]; rfl)),
    ofPattern_cons_wildcard inner last, String.ofList_toList]

theorem classify_startsWith (nonempty : t ≠ "") (first : t.toList.head? ≠ some wildcard) :
    classify (.text (t ++ "*")) = .ok (.startsWith t) := by
  have text : t ++ "*" = String.ofList (t.toList ++ [wildcard]) := by
    rw [← String.toList_inj, String.toList_ofList]
    simp [toList_star]
  have inner : t.toList ≠ [] := by simpa using nonempty
  rw [text, classify_of_wildcard (Or.inr (by rw [String.toList_ofList, List.getLast?_concat])),
    ofPattern_append_wildcard inner first, String.ofList_toList]

/-- **What a text with stars at its ends matches.**  Between two stars, the texts in which the inner
text occurs, without the stars that it begins with.  Behind a star, the texts that end with it;
before a star, the texts that begin with it; and a star on its own matches every text.  A text with
no star at either end that is not written as a range matches itself. -/
theorem classify_wildcards (s t : String) :
    classify (.text ("*" ++ t ++ "*")) =
        .ok (.contains (String.ofList (t.toList.dropWhile (· == wildcard)))) ∧
    (t.toList.head? ≠ some wildcard →
      classify (.text ("*" ++ t ++ "*")) = .ok (.contains t) ∧
        ((contains t).accepts (.text s) = true ↔ t.toList <:+: s.toList)) ∧
    (t ≠ "" → t.toList.getLast? ≠ some wildcard →
      classify (.text ("*" ++ t)) = .ok (.endsWith t) ∧
        ((endsWith t).accepts (.text s) = true ↔ t.toList <:+ s.toList)) ∧
    (t ≠ "" → t.toList.head? ≠ some wildcard →
      classify (.text (t ++ "*")) = .ok (.startsWith t) ∧
        ((startsWith t).accepts (.text s) = true ↔ t.toList <+: s.toList)) ∧
    (∃ m, classify (.text "*") = .ok m ∧ m.accepts (.text s) = true) ∧
    (t.toList.head? ≠ some wildcard → t.toList.getLast? ≠ some wildcard →
      (¬ ∃ reading, SpellsRange t.toList reading) →
        classify (.text t) = .ok (.exact (.text t))) := by
  refine ⟨classify_between_wildcards t, ?_, ?_, ?_, ?_, ?_⟩
  · intro first
    exact ⟨classify_contains first, accepts_contains⟩
  · intro nonempty last
    exact ⟨classify_endsWith nonempty last, accepts_endsWith⟩
  · intro nonempty first
    exact ⟨classify_startsWith nonempty first, accepts_startsWith⟩
  · refine ⟨contains "", by decide, ?_⟩
    rw [accepts_contains]
    exact List.nil_infix
  · intro first last hno
    rw [classify_of_not_spelled hno, ofPattern_of_no_wildcard first last]

/-- A text that looks like a range, but for a star in the place of an end. -/
theorem classify_wildcards_of_star_in_brackets :
    let t := "[*,1]"
    let s := "a[*,1]"
    t ≠ "" ∧ t.toList.head? ≠ some wildcard ∧ t.toList.getLast? ≠ some wildcard ∧
      (¬ ∃ reading, SpellsRange t.toList reading) ∧
      classify (.text "*[*,1]*") = .ok (.contains t) ∧
      (classify (.text "*[*,1]") = .ok (.endsWith t) ∧
        ((endsWith t).accepts (.text s) = true ↔ t.toList <:+ s.toList)) ∧
      (classify (.text "[*,1]*") = .ok (.startsWith t) ∧
        ((startsWith t).accepts (.text s) = true ↔ t.toList <+: s.toList)) ∧
      classify (.text t) = .ok (.exact (.text t)) := by
  intro t s
  have nonempty : t ≠ "" := by decide
  have first : t.toList.head? ≠ some wildcard := by decide
  have last : t.toList.getLast? ≠ some wildcard := by decide
  have hno : ¬ ∃ reading, SpellsRange t.toList reading := by
    have pattern : classify (.text t) = .ok (.exact (.text t)) := by decide
    rw [← exists_range_or_error_iff, pattern]
    simp
  obtain ⟨-, hcontains, hends, hstarts, -, hexact⟩ := classify_wildcards s t
  exact ⟨nonempty, first, last, hno, (hcontains first).1, hends nonempty last,
    hstarts nonempty first, hexact first last hno⟩

/-- **A star at the beginning of the inner text is not searched for**, though one at its end is. -/
theorem classify_loses_inner_star :
    ¬ ∀ t : String, classify (.text ("*" ++ t ++ "*")) = .ok (.contains t) :=
  fun h => absurd (h "*a") (by decide)

end ValueMatch
end FacetQuery
