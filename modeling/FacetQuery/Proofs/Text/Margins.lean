import Mathlib.Data.List.TakeWhile
import FacetQuery.Text.Blank

/-!
# Margins of texts

A text with blanks around it is a text that begins and ends visibly, between two margins
(`exists_margins`), and trimming takes the margins away (`trim_append`).  So whatever is allowed to
stand around a text can be carried along as two texts of blanks, and no proof has to look into
`trim`.
-/

namespace FacetQuery
namespace Text

variable {before core cs : List Char} {c : Char}

abbrev Blanks : Type :=
  { cs : List Char // ∀ c ∈ cs, isBlank c = true }

def noBlanks : Blanks :=
  ⟨[], by simp⟩

def oneBlank (c : Char) (h : isBlank c = true) : Blanks :=
  ⟨[c], List.forall_mem_singleton.mpr h⟩

theorem trimStart_append (blank : ∀ c ∈ before, isBlank c = true)
    (visible : ∀ c ∈ core.head?, isBlank c = false) : trimStart (before ++ core) = core := by
  rw [trimStart, List.dropWhile_append_of_pos blank]
  cases core with
  | nil => rfl
  | cons c core => exact List.dropWhile_cons_of_neg (by simp [visible c rfl])

/-- **Trimming takes the margins away** from a text that begins and ends visibly. -/
theorem trim_append (before after : Blanks) (first : ∀ c ∈ core.head?, isBlank c = false)
    (last : ∀ c ∈ core.getLast?, isBlank c = false) :
    trim (before.1 ++ (core ++ after.1)) = core := by
  have starts : trimStart (before.1 ++ (core ++ after.1)) = trimStart (core ++ after.1) :=
    List.dropWhile_append_of_pos before.2
  have ends {cs : List Char} (hlast : ∀ c ∈ cs.getLast?, isBlank c = false) :
      trimEnd (cs ++ after.1) = cs := by
    rw [trimEnd, List.reverse_append, trimStart_append, List.reverse_reverse]
    · intro c hc
      exact after.2 c (List.mem_reverse.mp hc)
    · rwa [List.head?_reverse]
  rw [trim, starts]
  cases core with
  | nil =>
      -- Without anything visible all margins go at once.
      have : trimStart after.1 = [] := List.dropWhile_eq_nil_iff.mpr after.2
      rw [List.nil_append, this]
      rfl
  | cons c core =>
      rw [List.cons_append, trimStart, List.dropWhile_cons_of_neg (by simp [first c rfl]),
        ← List.cons_append]
      exact ends last

/-- Every text is what trimming leaves of it, between two margins. -/
theorem exists_margins (cs : List Char) :
    ∃ before after : Blanks, cs = before.1 ++ (trim cs ++ after.1) := by
  have starts (ds : List Char) : ∃ before : Blanks, ds = before.1 ++ trimStart ds :=
    ⟨⟨ds.takeWhile isBlank, fun _ hc => List.mem_takeWhile_imp hc⟩,
      List.takeWhile_append_dropWhile.symm⟩
  obtain ⟨before, hbefore⟩ := starts cs
  obtain ⟨after, hafter⟩ := starts (trimStart cs).reverse
  refine ⟨before, ⟨after.1.reverse, fun c hc => after.2 c (List.mem_reverse.mp hc)⟩, ?_⟩
  have := congrArg List.reverse hafter
  rw [List.reverse_reverse, List.reverse_append] at this
  rw [trim, trimEnd, ← this]
  exact hbefore

/-- A text without blanks is its own core. -/
theorem trim_of_visible (visible : ∀ c ∈ cs, isBlank c = false) : trim cs = cs := by
  have h := trim_append noBlanks noBlanks (fun c hc => visible c (List.mem_of_mem_head? hc))
    fun c hc => visible c (List.mem_of_mem_getLast? hc)
  rwa [noBlanks, List.nil_append, List.append_nil] at h

/-- Trimming keeps what is not blank. -/
theorem mem_trim (hc : c ∈ cs) (visible : isBlank c = false) : c ∈ trim cs := by
  obtain ⟨before, after, hcs⟩ := exists_margins cs
  rw [hcs, List.mem_append, List.mem_append] at hc
  rcases hc with hc | hc | hc
  · rw [before.2 c hc] at visible
    cases visible
  · exact hc
  · rw [after.2 c hc] at visible
    cases visible

end Text
end FacetQuery
