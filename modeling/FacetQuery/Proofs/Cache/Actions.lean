import FacetQuery.Proofs.Cache.InFlight
import Mathlib.Logic.Function.Iterate

/-!
# Undisturbed operations

Most of what is done with a cache takes more than one step: reading a key may start a refresh, an
invalidation has two halves, and a refresh that has been answered still checks its epoch, enters
its answer, checks again and lets go of its key.  A `CacheAction` is such an operation with nothing
else between its steps.

An operation on a refresh names its key, of which there is one refresh at most.  Finishing a
refresh takes as many steps as the refresh needs, and then the refresh is gone whatever its answer
was and however often the cache has been invalidated (`Runs.finish_running`).  What one that has
been answered leaves behind is said by `PredicateCache.conclude` (`Runs.finish_of_answered`).
-/

namespace FacetQuery

inductive CacheAction where
  | get (now : Nat) (key : CacheKey)
  | startRefresh (key : CacheKey)
  /-- The backend answers the refresh of a key that still waits. -/
  | answerRefresh (key : CacheKey)
  /-- The refresh of a key goes on until it lets go of the key. -/
  | finishRefresh (now : Nat) (key : CacheKey)
  | invalidateAll

def RefreshPhase.stepsLeft : RefreshPhase → Nat
  | waiting => 5
  | answered _ => 4
  | accepted _ => 3
  | entered => 2
  | ended _ => 1

theorem RefreshPhase.stepsLeft_le (phase : RefreshPhase) :
    phase.stepsLeft ≤ PredicateCache.refreshSteps := by
  cases phase <;> exact Nat.le_of_ble_eq_true rfl

namespace PredicateCache

/-- Whether reading a key is a reason to refresh it. -/
def Fetched.isDue (c : PredicateCache) (now : Nat) : Fetched → Bool
  | .hit entry => c.isDue now entry
  | _ => false

/-- What an answered refresh leaves behind if nothing comes between its steps, with the events of
these steps. -/
def conclude (c : PredicateCache) (now : Nat) (r : Refresh) :
    Except LookupError IdSet → PredicateCache × List CacheEvent
  | .error error => (c.fail .refresh r.key error, [.refreshFailed r.key error])
  | .ok ids =>
    if c.isCurrent r then ((c.enter now r ids).countRefresh, [.kept r.key, .entered r.key ids])
    else (c, [.overtaken r.key])

/-- The cache with other refreshes running, and with a key free again. -/
def letGo (c : PredicateCache) (running : List Refresh) (key : CacheKey) : PredicateCache :=
  { c with running, inFlight := c.inFlight.erase key }

/-- Neither the phase of a refresh nor the other refreshes matter. -/
theorem conclude_withRunning (c : PredicateCache) (running : List Refresh) (now : Nat) (r : Refresh)
    (phase : RefreshPhase) (answer : Except LookupError IdSet) :
    (c.withRunning running).conclude now (r.inPhase phase) answer =
      ((c.conclude now r answer).1.withRunning running, (c.conclude now r answer).2) := by
  cases answer with
  | error error => rfl
  | ok ids =>
      rw [conclude, conclude]
      by_cases current : c.isCurrent r = true
      · rw [if_pos current]
        exact if_pos current
      · rw [if_neg current]
        exact if_neg current

theorem setPhase_length {c : PredicateCache} {before behind : List Refresh} {r : Refresh}
    (running : c.running = before ++ r :: behind) (phase : RefreshPhase) :
    c.setPhase before.length r phase = c.withRunning (before ++ r.inPhase phase :: behind) := by
  rw [setPhase, running, List.set_append_right _ _ (Nat.le_refl _), Nat.sub_self,
    List.set_cons_zero]
  rfl

end PredicateCache

namespace Chronicle

variable {σ : Type} {b : Backend σ} {config : CacheConfig} {ch : Chronicle} {s : σ} {now : Nat}
  {key : CacheKey} {before behind : List Refresh} {r : Refresh}

/-! ### Operations -/

/-- Reading a key, with the start of the refresh that is due then. -/
def get (b : Backend σ) (s : σ) (now : Nat) (key : CacheKey) (ch : Chronicle) : Chronicle :=
  let fetched := ((PredicateCache.fetch b now key).run (ch.cache, s)).1
  let ch := ch.next b ⟨s, .fetch now key⟩
  if fetched.isDue ch.cache now then ch.next b ⟨s, .startRefresh key⟩ else ch

/-- The next step of the refresh of a key, if there is one. -/
def advanceRefresh (b : Backend σ) (s : σ) (now : Nat) (key : CacheKey) (ch : Chronicle) :
    Chronicle :=
  match ch.cache.running.findIdx? (·.key == key) with
  | some i => ch.next b ⟨s, .advance now i⟩
  | none => ch

/-- The answer for the refresh of a key that waits for one. -/
def answerRefresh (b : Backend σ) (s : σ) (key : CacheKey) (ch : Chronicle) : Chronicle :=
  match (ch.cache.running.find? (·.key == key)).map Refresh.phase with
  | some .waiting => ch.advanceRefresh b s 0 key
  | _ => ch

/-- All steps that the refresh of a key still takes. -/
def finishRefresh (b : Backend σ) (s : σ) (now : Nat) (key : CacheKey) (ch : Chronicle) :
    Chronicle :=
  (advanceRefresh b s now key)^[PredicateCache.refreshSteps] ch

def invalidateAll (b : Backend σ) (s : σ) (ch : Chronicle) : Chronicle :=
  (ch.next b ⟨s, .beginEpoch⟩).next b ⟨s, .dropEntries⟩

/-- What an action does that finds the backend in a state. -/
def act (b : Backend σ) (ch : Chronicle) : σ × CacheAction → Chronicle
  | (s, .get now key) => ch.get b s now key
  | (s, .startRefresh key) => ch.next b ⟨s, .startRefresh key⟩
  | (s, .answerRefresh key) => ch.answerRefresh b s key
  | (s, .finishRefresh now key) => ch.finishRefresh b s now key
  | (s, .invalidateAll) => ch.invalidateAll b s

/-- Some actions after the start. -/
def acted (b : Backend σ) (config : CacheConfig) (run : List (σ × CacheAction)) : Chronicle :=
  run.foldl (act b) (start config)

/-- Reading a key changes the cache as it does outside of a history. -/
theorem get_cache : (ch.get b s now key).cache =
    ((PredicateCache.get b now key).run (ch.cache, s)).2.1 := by
  change _ = ((PredicateCache.fetch b now key).run (ch.cache, s)).2.1.startIfDue now key
    ((PredicateCache.fetch b now key).run (ch.cache, s)).1
  rw [get, apply_ite Chronicle.cache]
  cases ((PredicateCache.fetch b now key).run (ch.cache, s)).1 with
  | hit entry => rfl
  | loaded ids => rfl
  | failed error => rfl

/-- A refresh runs, and no other one with its key. -/
structure Runs (ch : Chronicle) (before : List Refresh) (r : Refresh) (behind : List Refresh) :
    Prop where
  running : ch.cache.running = before ++ r :: behind
  other : ∀ q ∈ before ++ behind, q.key ≠ r.key

/-- Every refresh that runs is the only one with its key. -/
theorem Reachable.exists_runs (h : ch.Reachable b) (hr : r ∈ ch.cache.running) :
    ∃ before behind, ch.Runs before r behind := by
  obtain ⟨before, behind, hrunning⟩ := List.append_of_mem hr
  exact ⟨before, behind, hrunning, h.inFlight.key_ne hrunning⟩

/-! ### Single steps -/

theorem advanceRefresh_of_absent (h : ∀ q ∈ ch.cache.running, q.key ≠ key) :
    ch.advanceRefresh b s now key = ch := by
  rw [advanceRefresh, List.findIdx?_eq_none_iff.mpr fun q hq => by simpa using h q hq]

theorem iterate_advanceRefresh_of_absent (h : ∀ q ∈ ch.cache.running, q.key ≠ key) (n : Nat) :
    (advanceRefresh b s now key)^[n] ch = ch :=
  Function.iterate_fixed (advanceRefresh_of_absent h) n

namespace Runs

theorem advanceRefresh_eq (h : ch.Runs before r behind) :
    ch.advanceRefresh b s now r.key = ch.next b ⟨s, .advance now before.length⟩ := by
  have hfind : ch.cache.running.findIdx? (·.key == r.key) = some before.length := by
    rw [h.running, List.findIdx?_append, List.findIdx?_eq_none_iff.mpr fun q hq => by
      simpa using h.other q (List.mem_append_left _ hq)]
    simp [List.findIdx?_cons]
  rw [advanceRefresh, hfind]

theorem getElem?_running (h : ch.Runs before r behind) :
    ch.cache.running[before.length]? = some r := by
  rw [h.running, List.getElem?_append_right (Nat.le_refl _), Nat.sub_self, List.getElem?_cons_zero]

theorem advance_waiting (h : ch.Runs before r behind) (phase : r.phase = .waiting) :
    ch.advanceRefresh b s now r.key =
      ⟨ch.cache.withRunning
        (before ++ r.inPhase (.answered ((b.answer r.key).run s).1) :: behind), ch.history⟩ := by
  change _ = Chronicle.mk _ ((none : Option CacheEvent).toList ++ ch.history)
  rw [h.advanceRefresh_eq, Chronicle.next, CacheStep.event?, h.getElem?_running, CacheStep.run,
    PredicateCache.advance_of_waiting h.getElem?_running phase,
    PredicateCache.setPhase_length h.running, Option.bind_some, CacheStep.advanceEvent?, phase]

theorem advance_alone (h : ch.Runs before r behind) (phase : r.phase ≠ .waiting) :
    ch.advanceRefresh b s now r.key =
      ⟨ch.cache.advanceAlone now before.length r,
        (CacheStep.advanceEvent? ch.cache r).toList ++ ch.history⟩ := by
  rw [h.advanceRefresh_eq, Chronicle.next, CacheStep.event?, h.getElem?_running, CacheStep.run,
    PredicateCache.advance_of_not_waiting h.getElem?_running phase, Option.bind_some]

theorem advance_failed {error : LookupError} (h : ch.Runs before r behind)
    (phase : r.phase = .answered (.error error)) :
    ch.advanceRefresh b s now r.key =
      ⟨(ch.cache.fail .refresh r.key error).withRunning
        (before ++ r.inPhase (.ended (.failed error)) :: behind),
        .refreshFailed r.key error :: ch.history⟩ := by
  rw [h.advance_alone (by simp [phase]), PredicateCache.advanceAlone, CacheStep.advanceEvent?,
    phase]
  dsimp only [PredicateCache.check]
  rw [PredicateCache.setPhase_length (c := ch.cache.fail .refresh r.key error) h.running]
  rfl

theorem advance_accepted {ids : IdSet} (h : ch.Runs before r behind)
    (phase : r.phase = .answered (.ok ids)) (current : ch.cache.isCurrent r = true) :
    ch.advanceRefresh b s now r.key =
      ⟨ch.cache.withRunning (before ++ r.inPhase (.accepted ids) :: behind), ch.history⟩ := by
  rw [h.advance_alone (by simp [phase]), PredicateCache.advanceAlone, CacheStep.advanceEvent?,
    phase]
  dsimp only [PredicateCache.check]
  rw [if_pos current, PredicateCache.setPhase_length h.running]
  rfl

theorem advance_overtaken {ids : IdSet} (h : ch.Runs before r behind)
    (phase : r.phase = .answered (.ok ids)) (late : ¬ ch.cache.isCurrent r = true) :
    ch.advanceRefresh b s now r.key =
      ⟨ch.cache.withRunning (before ++ r.inPhase (.ended .dropped) :: behind),
        .overtaken r.key :: ch.history⟩ := by
  rw [h.advance_alone (by simp [phase]), PredicateCache.advanceAlone, CacheStep.advanceEvent?,
    phase]
  dsimp only [PredicateCache.check]
  rw [if_neg late, PredicateCache.setPhase_length h.running]
  rfl

theorem advance_entering {ids : IdSet} (h : ch.Runs before r behind)
    (phase : r.phase = .accepted ids) :
    ch.advanceRefresh b s now r.key =
      ⟨(ch.cache.enter now r ids).withRunning (before ++ r.inPhase .entered :: behind),
        .entered r.key ids :: ch.history⟩ := by
  rw [h.advance_alone (by simp [phase]), PredicateCache.advanceAlone, CacheStep.advanceEvent?,
    phase]
  dsimp only
  rw [PredicateCache.setPhase_length (c := ch.cache.enter now r ids) h.running]
  rfl

theorem advance_kept (h : ch.Runs before r behind) (phase : r.phase = .entered)
    (current : ch.cache.isCurrent r = true) :
    ch.advanceRefresh b s now r.key =
      ⟨ch.cache.countRefresh.withRunning (before ++ r.inPhase (.ended .kept) :: behind),
        .kept r.key :: ch.history⟩ := by
  rw [h.advance_alone (by simp [phase]), PredicateCache.advanceAlone, CacheStep.advanceEvent?,
    phase]
  dsimp only [PredicateCache.confirm]
  rw [if_pos current]
  dsimp only
  rw [PredicateCache.setPhase_length (c := ch.cache.countRefresh) h.running]
  rfl

theorem advance_withdrawn (h : ch.Runs before r behind) (phase : r.phase = .entered)
    (late : ¬ ch.cache.isCurrent r = true) :
    ch.advanceRefresh b s now r.key =
      ⟨PredicateCache.withRunning { ch.cache with entries := ch.cache.entries.erase r.key }
        (before ++ r.inPhase (.ended .dropped) :: behind), .withdrawn r.key :: ch.history⟩ := by
  rw [h.advance_alone (by simp [phase]), PredicateCache.advanceAlone, CacheStep.advanceEvent?,
    phase]
  dsimp only [PredicateCache.confirm]
  rw [if_neg late]
  dsimp only
  rw [PredicateCache.setPhase_length
    (c := { ch.cache with entries := ch.cache.entries.erase r.key }) h.running]
  rfl

theorem advance_ended {result : RefreshEnd} (h : ch.Runs before r behind)
    (phase : r.phase = .ended result) :
    ch.advanceRefresh b s now r.key =
      ⟨ch.cache.letGo (before ++ behind) r.key, .released r.key :: ch.history⟩ := by
  rw [h.advance_alone (by simp [phase]), PredicateCache.advanceAlone, CacheStep.advanceEvent?,
    phase]
  dsimp only [PredicateCache.release]
  rw [h.running, List.eraseIdx_append_of_length_le (Nat.le_refl _), Nat.sub_self,
    List.eraseIdx_cons_zero]
  rfl

/-! ### All steps -/

/-- After the last step of a refresh there is nothing more to do. -/
theorem iterate_of_ended {result : RefreshEnd} (h : ch.Runs before r behind)
    (phase : r.phase = .ended result) (n : Nat) :
    (advanceRefresh b s now r.key)^[n + 1] ch =
      ⟨ch.cache.letGo (before ++ behind) r.key, .released r.key :: ch.history⟩ := by
  rw [Function.iterate_succ_apply, h.advance_ended phase,
    iterate_advanceRefresh_of_absent h.other]

theorem iterate_of_entered (h : ch.Runs before r behind) (phase : r.phase = .entered)
    (current : ch.cache.isCurrent r = true) (n : Nat) :
    (advanceRefresh b s now r.key)^[n + 2] ch =
      ⟨ch.cache.countRefresh.letGo (before ++ behind) r.key,
        .released r.key :: .kept r.key :: ch.history⟩ := by
  rw [Function.iterate_succ_apply, h.advance_kept phase current]
  exact iterate_of_ended (r := r.inPhase (.ended .kept)) ⟨rfl, h.other⟩ rfl n

theorem iterate_of_accepted {ids : IdSet} (h : ch.Runs before r behind)
    (phase : r.phase = .accepted ids) (current : ch.cache.isCurrent r = true) (n : Nat) :
    (advanceRefresh b s now r.key)^[n + 3] ch =
      ⟨(ch.cache.enter now r ids).countRefresh.letGo (before ++ behind) r.key,
        .released r.key :: .kept r.key :: .entered r.key ids :: ch.history⟩ := by
  rw [Function.iterate_succ_apply, h.advance_entering phase]
  refine iterate_of_entered (r := r.inPhase .entered) ?_ rfl ?_ n
  · exact ⟨rfl, h.other⟩
  · exact current

/-- **What an answered refresh leaves behind** if nothing comes between its steps. -/
theorem iterate_of_answered {answer : Except LookupError IdSet} (h : ch.Runs before r behind)
    (phase : r.phase = .answered answer) (n : Nat) :
    (advanceRefresh b s now r.key)^[n + 4] ch =
      ⟨(ch.cache.conclude now r answer).1.letGo (before ++ behind) r.key,
        .released r.key :: ((ch.cache.conclude now r answer).2 ++ ch.history)⟩ := by
  rw [Function.iterate_succ_apply]
  cases answer with
  | error error =>
      rw [h.advance_failed phase]
      exact iterate_of_ended (r := r.inPhase (.ended (.failed error))) ⟨rfl, h.other⟩ rfl (n + 2)
  | ok ids =>
      rw [PredicateCache.conclude]
      by_cases current : ch.cache.isCurrent r = true
      · rw [h.advance_accepted phase current, if_pos current]
        refine iterate_of_accepted (r := r.inPhase (.accepted ids)) ?_ rfl ?_ n
        · exact ⟨rfl, h.other⟩
        · exact current
      · rw [h.advance_overtaken phase current, if_neg current]
        exact iterate_of_ended (r := r.inPhase (.ended .dropped)) ⟨rfl, h.other⟩ rfl (n + 2)

theorem finish_of_answered {answer : Except LookupError IdSet} (h : ch.Runs before r behind)
    (phase : r.phase = .answered answer) :
    ch.finishRefresh b s now r.key =
      ⟨(ch.cache.conclude now r answer).1.letGo (before ++ behind) r.key,
        .released r.key :: ((ch.cache.conclude now r answer).2 ++ ch.history)⟩ :=
  h.iterate_of_answered phase 1

theorem finish_of_waiting (h : ch.Runs before r behind) (phase : r.phase = .waiting) :
    ch.finishRefresh b s now r.key =
      ⟨(ch.cache.conclude now r ((b.answer r.key).run s).1).1.letGo (before ++ behind) r.key,
        .released r.key :: ((ch.cache.conclude now r ((b.answer r.key).run s).1).2 ++
          ch.history)⟩ := by
  rw [finishRefresh, PredicateCache.refreshSteps, Function.iterate_succ_apply,
    h.advance_waiting phase]
  have answered : Runs ⟨ch.cache.withRunning (before ++
      r.inPhase (.answered ((b.answer r.key).run s).1) :: behind), ch.history⟩
      before (r.inPhase (.answered ((b.answer r.key).run s).1)) behind := ⟨rfl, h.other⟩
  refine (answered.iterate_of_answered rfl 0).trans ?_
  rw [PredicateCache.conclude_withRunning]
  rfl

/-- A step brings a refresh nearer to its end, or lets go of its key. -/
theorem advance_or_release (b : Backend σ) (s : σ) (now : Nat) (h : ch.Runs before r behind) :
    (∃ phase : RefreshPhase, phase.stepsLeft < r.phase.stepsLeft ∧
        (ch.advanceRefresh b s now r.key).Runs before (r.inPhase phase) behind) ∨
      (ch.advanceRefresh b s now r.key).cache.running = before ++ behind := by
  cases hp : r.phase with
  | waiting =>
      rw [h.advance_waiting hp]
      exact .inl ⟨.answered _, Nat.lt_succ_self 4, rfl, h.other⟩
  | answered answer =>
      cases answer with
      | error error =>
          rw [h.advance_failed hp]
          exact .inl ⟨.ended _, Nat.le_of_ble_eq_true rfl, rfl, h.other⟩
      | ok ids =>
          by_cases current : ch.cache.isCurrent r = true
          · rw [h.advance_accepted hp current]
            exact .inl ⟨.accepted ids, Nat.lt_succ_self 3, rfl, h.other⟩
          · rw [h.advance_overtaken hp current]
            exact .inl ⟨.ended _, Nat.le_of_ble_eq_true rfl, rfl, h.other⟩
  | accepted ids =>
      rw [h.advance_entering hp]
      exact .inl ⟨.entered, Nat.lt_succ_self 2, rfl, h.other⟩
  | entered =>
      by_cases current : ch.cache.isCurrent r = true
      · rw [h.advance_kept hp current]
        exact .inl ⟨.ended _, Nat.lt_succ_self 1, rfl, h.other⟩
      · rw [h.advance_withdrawn hp current]
        exact .inl ⟨.ended _, Nat.lt_succ_self 1, rfl, h.other⟩
  | ended result =>
      rw [h.advance_ended hp]
      exact .inr rfl

/-- The refresh is gone after so many steps as it still takes. -/
theorem iterate_running (b : Backend σ) (s : σ) (now : Nat) {n : Nat} (h : ch.Runs before r behind)
    (enough : r.phase.stepsLeft ≤ n) :
    ((advanceRefresh b s now r.key)^[n] ch).cache.running = before ++ behind := by
  induction n generalizing ch r with
  | zero => cases hp : r.phase <;> exact absurd enough (by simp [hp, RefreshPhase.stepsLeft])
  | succ n ih =>
      rw [Function.iterate_succ_apply]
      rcases h.advance_or_release b s now with ⟨phase, hless, hruns⟩ | hgone
      · exact ih (r := r.inPhase phase) hruns (Nat.le_of_lt_succ (Nat.lt_of_lt_of_le hless enough))
      · -- No other refresh has this key, so the steps that are left find nothing to do.
        have habsent : ∀ q ∈ (ch.advanceRefresh b s now r.key).cache.running, q.key ≠ r.key := by
          rw [hgone]
          exact h.other
        rw [iterate_advanceRefresh_of_absent habsent, hgone]

/-- **Finishing a refresh** ends it, whatever its phase, its answer and its epoch. -/
theorem finish_running (b : Backend σ) (s : σ) (now : Nat) (h : ch.Runs before r behind) :
    (ch.finishRefresh b s now r.key).cache.running = before ++ behind :=
  h.iterate_running b s now r.phase.stepsLeft_le

end Runs

/-! ### Runs of actions -/

theorem Reachable.advanceRefresh (h : ch.Reachable b) (s : σ) (now : Nat) (key : CacheKey) :
    (ch.advanceRefresh b s now key).Reachable b := by
  rw [Chronicle.advanceRefresh]
  split
  · exact h.next _
  · exact h

theorem Reachable.finishRefresh (h : ch.Reachable b) (s : σ) (now : Nat) (key : CacheKey) :
    (ch.finishRefresh b s now key).Reachable b :=
  Function.Iterate.rec (Reachable b) h (fun _ h => h.advanceRefresh s now key) _

theorem Reachable.act (h : ch.Reachable b) (action : σ × CacheAction) :
    (ch.act b action).Reachable b := by
  obtain ⟨s, action⟩ := action
  cases action with
  | get now key =>
      rw [Chronicle.act, Chronicle.get]
      split
      · exact (h.next _).next _
      · exact h.next _
  | startRefresh key => exact h.next _
  | answerRefresh key =>
      rw [Chronicle.act, Chronicle.answerRefresh]
      split
      · exact h.advanceRefresh s 0 key
      · exact h
  | finishRefresh now key => exact h.finishRefresh s now key
  | invalidateAll => exact (h.next _).next _

theorem reachable_acted (b : Backend σ) (config : CacheConfig) (run : List (σ × CacheAction)) :
    (acted b config run).Reachable b := by
  suffices ∀ ch : Chronicle, ch.Reachable b → (run.foldl (Chronicle.act b) ch).Reachable b from
    this _ (.start config)
  induction run with
  | nil => exact fun _ h => h
  | cons action run ih => exact fun ch h => ih _ (h.act action)

/-- **A finished refresh has let go of its key.** -/
theorem Reachable.finishRefresh_inFlight (h : ch.Reachable b) (s : σ) (now : Nat) (key : CacheKey) :
    key ∉ (ch.finishRefresh b s now key).cache.inFlight := by
  rw [(h.finishRefresh s now key).inFlight.perm.mem_iff, List.mem_map]
  rintro ⟨q, hq, hkey⟩
  by_cases habsent : ∀ q ∈ ch.cache.running, q.key ≠ key
  · rw [Chronicle.finishRefresh, iterate_advanceRefresh_of_absent habsent] at hq
    exact habsent q hq hkey
  · push Not at habsent
    obtain ⟨r, hr, rfl⟩ := habsent
    obtain ⟨before, behind, hruns⟩ := h.exists_runs hr
    rw [hruns.finish_running] at hq
    exact hruns.other q hq hkey

end Chronicle
end FacetQuery
