import FacetQuery.Proofs.Formula.Grammar

/-!
# What the reader of formulas accepts

`ofText?_of_spells` says that the reader finds what the grammar derives.  Here is the other
direction: the reader accepts nothing else, so a text is read as a formula if and only if it
spells the formula (`ofText?_eq_some_iff`).  A sign with nothing behind it, a parenthesis that
is left open, two factors side by side or a numeral that is too long have no derivation, at any
depth, and all of them are refused.

### What is load-bearing

The reader never looks back, and its levels are no derivation.  What it accepts is therefore
taken apart from the front: as long as a factor is awaited, the tokens that are left begin
with a factor, with a whole list of factors, and with a whole list of terms (`begins_factor`,
`begins_factors`, `begins_terms`).  Behind such a part the reader stands where `Spells.readsAs`
says, so that the next token alone decides how to go on.  The three facts need each other, with
fewer tokens left inside of parentheses and behind a sign.
-/

namespace FacetQuery
namespace Formula

/-! ### Parts of a formula -/

/-- What is spelled as a factor is a single formula. -/
theorem Spells.eq_singleton {tokens : List Token} {es : List Expr}
    (h : Spells .factor tokens es) : ∃ e, es = [e] := by
  cases h with
  | var v => exact ⟨_, rfl⟩
  | not => exact ⟨_, rfl⟩
  | group => exact ⟨_, rfl⟩

/-- Whether a part of a formula is complete in front of the given tokens: there is no sign behind
it that would continue it. -/
def Complete : Part → List Token → Prop
  | .factor, _ => True
  | .factors, rest => ∀ t ∈ rest.head?, t ≠ .and
  | .terms, rest => ∀ t ∈ rest.head?, t ≠ .and ∧ t ≠ .or

/-- Some first tokens spell a part of a formula, which is complete in front of the others. -/
def Begins (part : Part) (tokens : List Token) : Prop :=
  ∃ first rest es, tokens = first ++ rest ∧ Spells part first es ∧ Complete part rest

/-! ### What is accepted begins with what the grammar derives -/

mutual

/-- Where a factor is awaited, a factor comes. -/
theorem begins_factor {level : Level} {outer : List Level} {e : Expr} :
    ∀ tokens, readTokens .factor level outer tokens = some e → Begins .factor tokens
  | [], h => by simp [readTokens] at h
  | .var v :: rest, _ => ⟨[.var v], rest, _, rfl, .var v, trivial⟩
  | .not :: rest, h => by
      rw [readTokens] at h
      obtain ⟨first, behind, es, rfl, spelled, -⟩ := begins_factor rest h
      obtain ⟨f, rfl⟩ := spelled.eq_singleton
      exact ⟨.not :: first, behind, _, rfl, .not spelled, trivial⟩
  | .opening :: rest, h => by
      rw [readTokens] at h
      obtain ⟨inside, behind, es, rfl, spelled, complete⟩ := begins_terms rest h
      obtain ⟨level', reads, -⟩ := spelled.readsAs .empty (level :: outer) behind rfl rfl
      rw [reads] at h
      -- Of all tokens only the closing parenthesis can follow the terms.
      match behind with
      | .closing :: behind =>
          refine ⟨.opening :: inside ++ [.closing], behind, _, ?_, .group spelled, trivial⟩
          rw [List.cons_append, List.cons_append, List.append_assoc, List.singleton_append]
      | .and :: _ => exact absurd rfl (complete .and rfl).1
      | .or :: _ => exact absurd rfl (complete .or rfl).2
      | [] | .var _ :: _ | .not :: _ | .opening :: _ => simp [readTokens] at h
  | .and :: _, h => by simp [readTokens] at h
  | .or :: _, h => by simp [readTokens] at h
  | .closing :: _, h => by simp [readTokens] at h
termination_by tokens => (tokens.length, 0)

theorem begins_factors {level : Level} {outer : List Level} {e : Expr} (tokens : List Token)
    (h : readTokens .factor level outer tokens = some e) : Begins .factors tokens := by
  obtain ⟨first, behind, es, split, spelled, -⟩ := begins_factor tokens h
  obtain ⟨f, rfl⟩ := spelled.eq_singleton
  rw [split, spelled.readsAs level outer behind] at h
  by_cases more : ∃ rest, behind = .and :: rest
  · obtain ⟨rest, rfl⟩ := more
    have shorter : rest.length < tokens.length := by
      rw [split, List.length_append, List.length_cons]
      omega
    rw [readTokens] at h
    obtain ⟨others, behind, fs, rfl, tail, complete⟩ := begins_factors rest h
    refine ⟨first ++ .and :: others, behind, _, ?_, .and spelled tail, complete⟩
    rw [split, List.append_assoc, List.cons_append]
  · refine ⟨first, behind, _, split, .factor spelled, ?_⟩
    rintro t ht rfl
    exact more ⟨behind.tail, List.eq_cons_of_mem_head? ht⟩
termination_by (tokens.length, 1)

theorem begins_terms {level : Level} {outer : List Level} {e : Expr} (tokens : List Token)
    (h : readTokens .factor level outer tokens = some e) : Begins .terms tokens := by
  obtain ⟨first, behind, es, split, spelled, complete⟩ := begins_factors tokens h
  rw [split, spelled.readsAs level outer behind] at h
  by_cases more : ∃ rest, behind = .or :: rest
  · obtain ⟨rest, rfl⟩ := more
    have shorter : rest.length < tokens.length := by
      rw [split, List.length_append, List.length_cons]
      omega
    rw [readTokens] at h
    obtain ⟨others, behind, fs, rfl, tail, complete⟩ := begins_terms rest h
    refine ⟨first ++ .or :: others, behind, _, ?_, .or spelled tail, complete⟩
    rw [split, List.append_assoc, List.cons_append]
  · refine ⟨first, behind, _, split, .term spelled, fun t ht => ⟨complete t ht, ?_⟩⟩
    rintro rfl
    exact more ⟨behind.tail, List.eq_cons_of_mem_head? ht⟩
termination_by (tokens.length, 2)

end

/-! ### The reader is exact -/

/-- **What a text spells as a formula**: the text writes tokens, and the tokens spell terms, which
are joined. -/
def SpellsFormula (cs : List Char) (e : Expr) : Prop :=
  ∃ tokens es, Written tokens cs ∧ Spells .terms tokens es ∧ join .or es = e

/-- Tokens that are read as a formula spell it. -/
theorem spells_of_readTokens {tokens : List Token} {e : Expr}
    (h : readTokens .factor .empty [] tokens = some e) :
    ∃ es, Spells .terms tokens es ∧ join .or es = e := by
  obtain ⟨first, behind, es, rfl, spelled, complete⟩ := begins_terms tokens h
  obtain ⟨level, reads, formula⟩ := spelled.readsAs .empty [] behind rfl rfl
  rw [reads] at h
  -- At the outermost level the end alone can follow the terms.
  match behind with
  | [] =>
      rw [readTokens] at h
      cases h
      rw [List.append_nil]
      exact ⟨es, spelled, formula.symm⟩
  | .and :: _ => exact absurd rfl (complete .and rfl).1
  | .or :: _ => exact absurd rfl (complete .or rfl).2
  | .var _ :: _ | .not :: _ | .opening :: _ | .closing :: _ => simp [readTokens] at h

/-- **The reader is exact**: a text is read as a formula if and only if it spells the formula. -/
theorem ofText?_eq_some_iff {cs : List Char} {e : Expr} :
    ofText? cs = some e ↔ SpellsFormula cs e := by
  constructor
  · intro h
    obtain ⟨tokens, htokens, hread⟩ := Option.bind_eq_some_iff.mp h
    obtain ⟨es, spelled, joined⟩ := spells_of_readTokens hread
    exact ⟨tokens, es, written_of_tokens? htokens, spelled, joined⟩
  · rintro ⟨tokens, es, written, spelled, rfl⟩
    exact ofText?_of_spells written spelled

end Formula
end FacetQuery
