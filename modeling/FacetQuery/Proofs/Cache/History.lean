import FacetQuery.Proofs.Cache.Steps
import Mathlib.Data.List.Basic

/-!
# Histories of a cache

What happens in a cache is told by its history, a list of events with the newest one first.  Loads
and refreshes that begin, end, enter an answer or take it back are events, and so are the two
halves of an invalidation; being answered by the backend is not, since nobody can tell.

`Transition` lists everything that a single step can do, with the event by which it shows.  It is
the only place where the steps are taken apart: whatever is said of histories goes by cases over
its constructors (`PredicateCache.transition_run`).

Every step finds the backend in a state of its own (`Moment`).  So nothing is assumed about what
the backend answers, when its answers change, and when it fails.
-/

namespace FacetQuery

inductive CacheEvent where
  /-- A key without an entry has been asked for and loaded. -/
  | loaded (key : CacheKey) (ids : IdSet)
  /-- A key without an entry has been asked for and its load has failed. -/
  | loadFailed (key : CacheKey) (error : LookupError)
  | refreshStarted (key : CacheKey)
  | refreshFailed (key : CacheKey) (error : LookupError)
  /-- A refresh has ended because an invalidation came before its answer. -/
  | overtaken (key : CacheKey)
  /-- The answer of a refresh has become the entry of its key. -/
  | entered (key : CacheKey) (ids : IdSet)
  /-- A refresh has ended, and its answer stays. -/
  | kept (key : CacheKey)
  /-- A refresh has ended, and its answer has been taken back. -/
  | withdrawn (key : CacheKey)
  /-- A refresh that has ended has let go of its key. -/
  | released (key : CacheKey)
  | epochBegan
  | entriesDropped
deriving DecidableEq

/-! ### Events of steps -/

namespace CacheStep

variable {σ : Type}

/-- The event of asking for a key; being answered from an entry is none. -/
def fetchEvent? (key : CacheKey) : PredicateCache.Fetched → Option CacheEvent
  | .hit _ => none
  | .loaded ids => some (.loaded key ids)
  | .failed error => some (.loadFailed key error)

/-- The event of the next step of a refresh. -/
def advanceEvent? (c : PredicateCache) (r : Refresh) : Option CacheEvent :=
  match r.phase with
  | .waiting => none
  | .answered answer =>
    match (c.check r answer).1 with
    | .ended (.failed error) => some (.refreshFailed r.key error)
    | .ended _ => some (.overtaken r.key)
    | _ => none
  | .accepted ids => some (.entered r.key ids)
  | .entered =>
    match (c.confirm r).1 with
    | .ended .kept => some (.kept r.key)
    | _ => some (.withdrawn r.key)
  | .ended _ => some (.released r.key)

/-- The event of a step, if it has one. -/
def event? (b : Backend σ) (c : PredicateCache) (s : σ) : CacheStep → Option CacheEvent
  | fetch now key => fetchEvent? key ((PredicateCache.fetch b now key).run (c, s)).1
  | startRefresh key => if key ∈ c.inFlight then none else some (.refreshStarted key)
  | advance _ i => c.running[i]?.bind (advanceEvent? c)
  | beginEpoch => some .epochBegan
  | dropEntries => some .entriesDropped

end CacheStep

/-! ### What a step can do -/

def Refresh.inPhase (r : Refresh) (phase : RefreshPhase) : Refresh :=
  { r with phase }

def PredicateCache.withRunning (c : PredicateCache) (running : List Refresh) : PredicateCache :=
  { c with running }

/-- The backend gives the answer to the key, in some state. -/
def Backend.Answers {σ : Type} (b : Backend σ) (key : CacheKey)
    (answer : Except LookupError IdSet) : Prop :=
  ∃ s, ((b.answer key).run s).1 = answer

/-- Everything that one step can do to a cache over a backend, and the event by which it shows. -/
inductive Transition {σ : Type} (b : Backend σ) (c : PredicateCache) :
    Option CacheEvent → PredicateCache → Prop where
  | stay : Transition b c none c
  | load (now : Nat) (key : CacheKey) (ids : IdSet) (missing : c.entries[key]? = none)
      (answered : b.Answers key (.ok ids)) :
      Transition b c (some (.loaded key ids)) (c.finishLoad now key (.ok ids)).2
  | failLoad (now : Nat) (key : CacheKey) (error : LookupError)
      (missing : c.entries[key]? = none) (answered : b.Answers key (.error error)) :
      Transition b c (some (.loadFailed key error)) (c.finishLoad now key (.error error)).2
  | start (key : CacheKey) (free : key ∉ c.inFlight) :
      Transition b c (some (.refreshStarted key))
        { c with
          inFlight := key :: c.inFlight
          running := c.running ++ [⟨key, c.epoch, .waiting⟩] }
  | answer {before behind : List Refresh} {r : Refresh} (answer : Except LookupError IdSet)
      (running : c.running = before ++ r :: behind) (phase : r.phase = .waiting)
      (answered : b.Answers r.key answer) :
      Transition b c none (c.withRunning (before ++ r.inPhase (.answered answer) :: behind))
  | failRefresh {before behind : List Refresh} {r : Refresh} {error : LookupError}
      (running : c.running = before ++ r :: behind)
      (phase : r.phase = .answered (.error error)) :
      Transition b c (some (.refreshFailed r.key error))
        ((c.fail .refresh r.key error).withRunning
          (before ++ r.inPhase (.ended (.failed error)) :: behind))
  | overtake {before behind : List Refresh} {r : Refresh} {ids : IdSet}
      (running : c.running = before ++ r :: behind) (phase : r.phase = .answered (.ok ids))
      (late : c.epoch ≠ r.startedIn) :
      Transition b c (some (.overtaken r.key))
        (c.withRunning (before ++ r.inPhase (.ended .dropped) :: behind))
  | accept {before behind : List Refresh} {r : Refresh} {ids : IdSet}
      (running : c.running = before ++ r :: behind) (phase : r.phase = .answered (.ok ids))
      (current : c.epoch = r.startedIn) :
      Transition b c none (c.withRunning (before ++ r.inPhase (.accepted ids) :: behind))
  | enter (now : Nat) {before behind : List Refresh} {r : Refresh} {ids : IdSet}
      (running : c.running = before ++ r :: behind) (phase : r.phase = .accepted ids) :
      Transition b c (some (.entered r.key ids))
        ((c.enter now r ids).withRunning (before ++ r.inPhase .entered :: behind))
  | keep {before behind : List Refresh} {r : Refresh}
      (running : c.running = before ++ r :: behind) (phase : r.phase = .entered)
      (current : c.epoch = r.startedIn) :
      Transition b c (some (.kept r.key))
        (c.countRefresh.withRunning (before ++ r.inPhase (.ended .kept) :: behind))
  | withdraw {before behind : List Refresh} {r : Refresh}
      (running : c.running = before ++ r :: behind) (phase : r.phase = .entered)
      (late : c.epoch ≠ r.startedIn) :
      Transition b c (some (.withdrawn r.key))
        { c with
          entries := c.entries.erase r.key
          running := before ++ r.inPhase (.ended .dropped) :: behind }
  | release {before behind : List Refresh} {r : Refresh} {result : RefreshEnd}
      (running : c.running = before ++ r :: behind) (phase : r.phase = .ended result) :
      Transition b c (some (.released r.key))
        { c with
          running := before ++ behind
          inFlight := c.inFlight.erase r.key }
  | beginEpoch : Transition b c (some .epochBegan) c.beginEpoch
  | dropEntries : Transition b c (some .entriesDropped) c.dropEntries

namespace PredicateCache

variable {σ : Type} {b : Backend σ} {c : PredicateCache} {s : σ} {now i : Nat} {key : CacheKey}
  {r : Refresh}

theorem isCurrent_iff : c.isCurrent r = true ↔ c.epoch = r.startedIn :=
  beq_iff_eq

/-- A member of a list at a position, with what stands before and behind it. -/
private theorem exists_split {α : Type} {l : List α} {a : α} {i : Nat} (h : l[i]? = some a) :
    ∃ before behind, l = before ++ a :: behind ∧
      (∀ b, l.set i b = before ++ b :: behind) ∧ l.eraseIdx i = before ++ behind := by
  obtain ⟨hi, rfl⟩ := List.getElem?_eq_some_iff.mp h
  refine ⟨l.take i, l.drop (i + 1), ?_, fun b => ?_, List.eraseIdx_eq_take_drop_succ l i⟩
  · rw [← List.drop_eq_getElem_cons hi, List.take_append_drop]
  · rw [List.set_eq_take_append_cons_drop, if_pos hi]

theorem fetch_of_some {entry : CachedSet} (h : c.entries[key]? = some entry) :
    (fetch b now key).run (c, s) = (.hit entry, c, s) := by
  unfold fetch
  simp only [StateT.run, h]

theorem fetch_of_none (h : c.entries[key]? = none) :
    (fetch b now key).run (c, s) =
      ((c.finishLoad now key ((b.answer key).run s).1).1,
        (c.finishLoad now key ((b.answer key).run s).1).2, ((b.answer key).run s).2) := by
  unfold fetch
  simp only [StateT.run, h]
  rfl

theorem transition_fetch (b : Backend σ) (c : PredicateCache) (s : σ) (now : Nat)
    (key : CacheKey) :
    Transition b c (CacheStep.fetchEvent? key ((fetch b now key).run (c, s)).1)
      ((fetch b now key).run (c, s)).2.1 := by
  cases h : c.entries[key]? with
  | some entry =>
      rw [fetch_of_some h]
      exact .stay
  | none =>
      rw [fetch_of_none h]
      cases hanswer : ((b.answer key).run s).1 with
      | ok ids => exact .load now key ids h ⟨s, hanswer⟩
      | error error => exact .failLoad now key error h ⟨s, hanswer⟩

theorem transition_startRefresh (c : PredicateCache) (key : CacheKey) :
    Transition b c (if key ∈ c.inFlight then none else some (.refreshStarted key))
      (c.startRefresh key) := by
  rw [startRefresh]
  split
  · exact .stay
  · rename_i h
    exact .start key h

/-- What a refresh can do by itself, once the backend has answered. -/
theorem transition_advanceAlone (h : c.running[i]? = some r) (hphase : r.phase ≠ .waiting)
    (now : Nat) : Transition b c (CacheStep.advanceEvent? c r) (c.advanceAlone now i r) := by
  obtain ⟨before, behind, hrunning, hset, herase⟩ := exists_split h
  have setPhase (c' : PredicateCache) (same : c'.running = c.running) (phase : RefreshPhase) :
      c'.setPhase i r phase = c'.withRunning (before ++ r.inPhase phase :: behind) := by
    rw [PredicateCache.setPhase, same, hset]
    rfl
  rw [advanceAlone, CacheStep.advanceEvent?]
  cases hp : r.phase with
  | waiting => exact absurd hp hphase
  | answered answer =>
      cases answer with
      | error error =>
          dsimp only [check]
          rw [setPhase (c.fail .refresh r.key error) rfl]
          exact .failRefresh hrunning hp
      | ok ids =>
          dsimp only [check]
          by_cases hcurrent : c.isCurrent r = true
          · rw [if_pos hcurrent, setPhase c rfl]
            exact .accept hrunning hp (isCurrent_iff.mp hcurrent)
          · rw [if_neg hcurrent, setPhase c rfl]
            exact .overtake hrunning hp fun he => hcurrent (isCurrent_iff.mpr he)
  | accepted ids =>
      dsimp only
      rw [setPhase (c.enter now r ids) rfl]
      exact .enter now hrunning hp
  | entered =>
      dsimp only [confirm]
      by_cases hcurrent : c.isCurrent r = true
      · rw [if_pos hcurrent]
        dsimp only
        rw [setPhase c.countRefresh rfl]
        exact .keep hrunning hp (isCurrent_iff.mp hcurrent)
      · rw [if_neg hcurrent]
        dsimp only
        rw [setPhase { c with entries := c.entries.erase r.key } rfl]
        exact .withdraw hrunning hp fun he => hcurrent (isCurrent_iff.mpr he)
  | ended result =>
      dsimp only [PredicateCache.release]
      rw [herase]
      exact .release hrunning hp

theorem transition_advance (b : Backend σ) (c : PredicateCache) (s : σ) (now i : Nat) :
    Transition b c (c.running[i]?.bind (CacheStep.advanceEvent? c))
      ((advance b now i).run (c, s)).2.1 := by
  cases h : c.running[i]? with
  | none =>
      rw [advance_of_none h]
      exact .stay
  | some r =>
      by_cases hwaiting : r.phase = .waiting
      · obtain ⟨before, behind, hrunning, hset, -⟩ := exists_split h
        rw [advance_of_waiting h hwaiting, PredicateCache.setPhase, hset, Option.bind_some,
          CacheStep.advanceEvent?, hwaiting]
        exact .answer ((b.answer r.key).run s).1 hrunning hwaiting ⟨s, rfl⟩
      · rw [advance_of_not_waiting h hwaiting]
        exact transition_advanceAlone h hwaiting now

/-- **A single step** does one of the things that `Transition` lists. -/
theorem transition_run (b : Backend σ) (c : PredicateCache) (s : σ) (step : CacheStep) :
    Transition b c (step.event? b c s) ((step.run b).run (c, s)).2.1 := by
  cases step with
  | fetch now key => exact transition_fetch b c s now key
  | startRefresh key => exact transition_startRefresh c key
  | advance now i => exact transition_advance b c s now i
  | beginEpoch => exact .beginEpoch
  | dropEntries => exact .dropEntries

end PredicateCache

/-! ### Chronicles -/

/-- A step of the cache together with the state in which it finds the backend. -/
structure Moment (σ : Type) where
  backend : σ
  step : CacheStep

/-- A cache and what has happened in it, the newest event first. -/
structure Chronicle where
  cache : PredicateCache
  history : List CacheEvent

namespace Chronicle

variable {σ : Type} {b : Backend σ} {config : CacheConfig} {ch : Chronicle}

/-- The cache without entries, in which nothing has happened. -/
def start (config : CacheConfig) : Chronicle :=
  ⟨.empty config, []⟩

def next (b : Backend σ) (ch : Chronicle) (m : Moment σ) : Chronicle :=
  ⟨((m.step.run b).run (ch.cache, m.backend)).2.1,
    (m.step.event? b ch.cache m.backend).toList ++ ch.history⟩

theorem next_fetch_of_none {s : σ} {now : Nat} {key : CacheKey}
    (h : ch.cache.entries[key]? = none) :
    ch.next b ⟨s, .fetch now key⟩ =
      ⟨(ch.cache.finishLoad now key ((b.answer key).run s).1).2,
        (CacheStep.fetchEvent? key
          (ch.cache.finishLoad now key ((b.answer key).run s).1).1).toList ++ ch.history⟩ := by
  change Chronicle.mk ((PredicateCache.fetch b now key).run (ch.cache, s)).2.1
    ((CacheStep.fetchEvent? key
      ((PredicateCache.fetch b now key).run (ch.cache, s)).1).toList ++ ch.history) = _
  rw [PredicateCache.fetch_of_none h]

/-- Some steps after the start.  Any list of steps is an interleaving of what callers, refreshes
and invalidations do side by side. -/
def after (b : Backend σ) (config : CacheConfig) (run : List (Moment σ)) : Chronicle :=
  run.foldl (next b) (start config)

inductive Reachable (b : Backend σ) : Chronicle → Prop where
  | start (config : CacheConfig) : Reachable b (start config)
  | step {ch : Chronicle} {event : Option CacheEvent} {c : PredicateCache} (h : Reachable b ch)
      (t : Transition b ch.cache event c) : Reachable b ⟨c, event.toList ++ ch.history⟩

theorem Reachable.next (h : ch.Reachable b) (m : Moment σ) :
    (ch.next b m).Reachable b :=
  h.step (PredicateCache.transition_run b ch.cache m.backend m.step)

/-- **Every event of a history has been the event of a step**, of which there was a state to start
from. -/
theorem Reachable.exists_transition {e : CacheEvent} {newer older : List CacheEvent}
    (h : ch.Reachable b) (hhistory : ch.history = newer ++ e :: older) :
    ∃ (ch₀ : Chronicle) (c : PredicateCache), ch₀.Reachable b ∧ ch₀.history = older ∧
      Transition b ch₀.cache (some e) c := by
  induction h generalizing newer with
  | start config => exact absurd hhistory.symm (List.append_ne_nil_of_right_ne_nil _ nofun)
  | @step ch event c h t ih =>
      cases event with
      | none => exact ih hhistory
      | some e' =>
          cases newer with
          | nil =>
              obtain ⟨rfl, holder⟩ := List.cons.inj hhistory
              exact ⟨ch, c, h, holder, t⟩
          | cons e'' newer => exact ih (List.cons.inj hhistory).2

/-- Runs reach what is reachable. -/
theorem reachable_after (b : Backend σ) (config : CacheConfig) (run : List (Moment σ)) :
    (after b config run).Reachable b := by
  suffices ∀ ch : Chronicle, ch.Reachable b → (run.foldl (Chronicle.next b) ch).Reachable b from
    this _ (.start config)
  induction run with
  | nil => exact fun _ h => h
  | cons m run ih => exact fun ch h => ih _ (h.next m)

end Chronicle
end FacetQuery
