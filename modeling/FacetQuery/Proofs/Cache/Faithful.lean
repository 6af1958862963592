import FacetQuery.Proofs.Cache.Steps

/-!
# A cache over a steady backend is invisible

Over a backend that gives the same answer to the same key at any time, every entry is the answer
for its key, and so is what any refresh has in hand (`Faithful`).  All steps keep this so, in any
order; hence whoever asks for a key gets the answer of the backend, whatever happened before
(`Faithful.get`).

Epochs play no part here.  They matter only when answers change, so the two checks of a refresh
may go either way without harm.
-/

namespace FacetQuery

variable {σ : Type} {b : Backend σ} {answers : CacheKey → Except LookupError IdSet}
  {c : PredicateCache} {s : σ} {key : CacheKey} {now i : Nat} {r : Refresh}

/-- The records of an answer: a failure stands for none. -/
def answeredIds : Except LookupError IdSet → IdSet
  | .ok ids => ids
  | .error _ => ∅

/-- What a refresh has in hand is the answer for its key. -/
def Refresh.Faithful (answers : CacheKey → Except LookupError IdSet) (r : Refresh) : Prop :=
  match r.phase with
  | .answered answer => answer = answers r.key
  | .accepted ids => answers r.key = .ok ids
  | _ => True

namespace PredicateCache

/-- Entries and refreshes under way agree with the answers. -/
structure Faithful (answers : CacheKey → Except LookupError IdSet) (c : PredicateCache) :
    Prop where
  entries : ∀ (key : CacheKey) (entry : CachedSet),
    c.entries[key]? = some entry → answers key = .ok entry.ids
  running : ∀ r ∈ c.running, r.Faithful answers

theorem faithful_empty (answers : CacheKey → Except LookupError IdSet) (config : CacheConfig) :
    (empty config).Faithful answers := by
  refine ⟨fun key entry hentry => ?_, fun r hr => absurd hr List.not_mem_nil⟩
  change (∅ : Std.HashMap CacheKey CachedSet)[key]? = some entry at hentry
  rw [Std.HashMap.getElem?_empty] at hentry
  cases hentry

/-! ### Entries -/

theorem Faithful.insert (h : c.Faithful answers) (entry : CachedSet)
    (hentry : answers key = .ok entry.ids) :
    Faithful answers { c with entries := c.entries.insert key entry } := by
  refine ⟨fun other found hfound => ?_, h.running⟩
  change (c.entries.insert key entry)[other]? = some found at hfound
  rw [Std.HashMap.getElem?_insert] at hfound
  split at hfound
  · rename_i hkey
    obtain rfl := eq_of_beq hkey
    obtain rfl := Option.some.inj hfound
    exact hentry
  · exact h.entries other found hfound

theorem Faithful.erase (h : c.Faithful answers) (key : CacheKey) :
    Faithful answers { c with entries := c.entries.erase key } := by
  refine ⟨fun other found hfound => ?_, h.running⟩
  change (c.entries.erase key)[other]? = some found at hfound
  rw [Std.HashMap.getElem?_erase] at hfound
  split at hfound
  · cases hfound
  · exact h.entries other found hfound

theorem Faithful.dropEntries (h : c.Faithful answers) : c.dropEntries.Faithful answers := by
  refine ⟨fun key entry hentry => ?_, h.running⟩
  change (∅ : Std.HashMap CacheKey CachedSet)[key]? = some entry at hentry
  rw [Std.HashMap.getElem?_empty] at hentry
  cases hentry

theorem Faithful.beginEpoch (h : c.Faithful answers) : c.beginEpoch.Faithful answers :=
  ⟨h.entries, h.running⟩

/-! ### Reading -/

/-- **Asking for a key** gives the answer of the backend, from an entry or from a load. -/
theorem Faithful.fetch (steady : b.Steady answers) (h : c.Faithful answers) :
    ((fetch b now key).run (c, s)).1.ids = answeredIds (answers key) ∧
      ((fetch b now key).run (c, s)).2.1.Faithful answers := by
  have hanswer := steady key s
  unfold PredicateCache.fetch
  cases hentry : c.entries[key]? with
  | some entry =>
      refine ⟨?_, ?_⟩
      · simp only [StateT.run, hentry, h.entries key entry hentry]
        rfl
      · simp only [StateT.run, hentry]
        exact h
  | none =>
      -- A load enters what the backend says; a failure enters nothing.
      simp only [StateT.run, hentry]
      rcases hrun : b.answer key s with ⟨answer, s'⟩
      rw [StateT.run, hrun] at hanswer
      dsimp only at hanswer ⊢
      rw [← hanswer]
      cases answer with
      | ok ids => exact ⟨rfl, (h.insert ⟨ids, now, c.epoch⟩ hanswer.symm).entries, h.running⟩
      | error e => exact ⟨rfl, h.entries, h.running⟩

theorem Faithful.startRefresh (h : c.Faithful answers) (key : CacheKey) :
    (c.startRefresh key).Faithful answers := by
  rw [PredicateCache.startRefresh]
  split
  · exact h
  · refine ⟨h.entries, fun r hr => ?_⟩
    rcases List.mem_append.mp hr with hr | hr
    · exact h.running r hr
    · rw [List.mem_singleton.mp hr]
      trivial

theorem Faithful.startIfDue (h : c.Faithful answers) (now : Nat) (key : CacheKey)
    (fetched : Fetched) : (c.startIfDue now key fetched).Faithful answers := by
  cases fetched with
  | hit entry =>
      rw [PredicateCache.startIfDue]
      split
      · exact h.startRefresh key
      · exact h
  | loaded ids => exact h
  | failed error => exact h

/-- **Reading a key** gives the answer of the backend, whatever happened before. -/
theorem Faithful.get (steady : b.Steady answers) (h : c.Faithful answers) :
    ((get b now key).run (c, s)).1.ids = answeredIds (answers key) ∧
      ((get b now key).run (c, s)).2.1.Faithful answers := by
  obtain ⟨hids, hfaithful⟩ : ((PredicateCache.fetch b now key).run (c, s)).1.ids = _ ∧ _ :=
    h.fetch steady
  exact ⟨hids, hfaithful.startIfDue now key _⟩

/-! ### Refreshes -/

theorem Faithful.setPhase (h : c.Faithful answers) (i : Nat) {phase : RefreshPhase}
    (hphase : Refresh.Faithful answers { r with phase }) :
    (c.setPhase i r phase).Faithful answers := by
  refine ⟨h.entries, fun other hother => ?_⟩
  rcases List.mem_or_eq_of_mem_set hother with hother | rfl
  · exact h.running other hother
  · exact hphase

theorem Faithful.advanceAlone (h : c.Faithful answers) (hr : r.Faithful answers) (now i : Nat) :
    (c.advanceAlone now i r).Faithful answers := by
  rw [PredicateCache.advanceAlone]
  split
  · exact h
  · rename_i answer hphase
    rw [Refresh.Faithful, hphase] at hr
    cases answer with
    | error e =>
        have hfail : (c.fail .refresh r.key e).Faithful answers := ⟨h.entries, h.running⟩
        exact hfail.setPhase i trivial
    | ok ids =>
        refine Faithful.setPhase ⟨h.entries, h.running⟩ i ?_
        -- The first check decides whether the answer is still needed, not what it is.
        by_cases hcurrent : c.isCurrent r = true
        · rw [if_pos hcurrent]
          exact hr.symm
        · rw [if_neg hcurrent]
          trivial
  · -- Late or not, what is entered is the answer for the key.
    rename_i ids hphase
    rw [Refresh.Faithful, hphase] at hr
    refine Faithful.setPhase (h.insert ⟨ids, now, r.startedIn⟩ hr) i ?_
    trivial
  · have hcount : c.countRefresh.Faithful answers := ⟨h.entries, h.running⟩
    by_cases hcurrent : c.isCurrent r = true
    · rw [confirm, if_pos hcurrent]
      exact hcount.setPhase i trivial
    · rw [confirm, if_neg hcurrent]
      exact (h.erase r.key).setPhase i trivial
  · exact ⟨h.entries, fun other hother => h.running other (List.mem_of_mem_eraseIdx hother)⟩

/-- **Any step of any refresh** keeps the cache faithful. -/
theorem Faithful.advance (steady : b.Steady answers) (h : c.Faithful answers) :
    ((advance b now i).run (c, s)).2.1.Faithful answers := by
  cases hr : c.running[i]? with
  | none =>
      rw [advance_of_none hr]
      exact h
  | some r =>
      by_cases hwaiting : r.phase = .waiting
      · rw [advance_of_waiting hr hwaiting]
        exact h.setPhase i (steady r.key s)
      · rw [advance_of_not_waiting hr hwaiting]
        exact h.advanceAlone (h.running r (List.mem_of_getElem? hr)) now i

/-! ### Runs -/

/-- **Every step keeps the cache faithful.** -/
theorem Faithful.step (steady : b.Steady answers) (h : c.Faithful answers) (step : CacheStep) :
    ((step.run b).run (c, s)).2.1.Faithful answers := by
  cases step with
  | fetch now key => exact (h.fetch steady).2
  | startRefresh key => exact h.startRefresh key
  | advance now i => exact h.advance steady
  | beginEpoch => exact h.beginEpoch
  | dropEntries => exact h.dropEntries

end PredicateCache
end FacetQuery
