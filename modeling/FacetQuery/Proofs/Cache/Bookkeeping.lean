import FacetQuery.Proofs.Cache.Entries
import FacetQuery.Proofs.Cache.Replies
import Mathlib.Data.List.Count

/-!
# Bookkeeping

A cache counts what it does, and it knows which keys are being refreshed.  Both agree with its
history at any time (`Chronicle.Bookkeeping`, `Chronicle.bookkeeping_after`):

* each counter counts events of its kind (`Transition.loads`, `Transition.refreshes`,
  `Transition.failures`), and each refresh that has been started goes on or has ended in one of
  three ways (`Transition.underWay`), so no computation is lost;
* a failure is counted and reported, and changes no entry (`Transition.entries_of_failure`);
* a key that has been loaded is not loaded again as long as its entry is not taken away
  (`Reachable.taken_away_of_miss`).

The history itself is right as well: asking for a key without an entry is one miss, which is a
failure if the backend replies with an error (`next_fetch_of_replies`), and a refresh ends in the
way that its reply and the epoch call for (`Runs.finish_of_receives`).

This holds for any interleaving of the steps, over a backend that may fail at any time.
-/

namespace FacetQuery

/-! ### Kinds of events -/

namespace CacheEvent

def isMiss : CacheEvent → Bool
  | loaded _ _ | loadFailed _ _ => true
  | _ => false

def isLoadFailure : CacheEvent → Bool
  | loadFailed _ _ => true
  | _ => false

def isStart : CacheEvent → Bool
  | refreshStarted _ => true
  | _ => false

/-- A refresh has ended and its answer stays. -/
def isKept : CacheEvent → Bool
  | kept _ => true
  | _ => false

def isRefreshFailure : CacheEvent → Bool
  | refreshFailed _ _ => true
  | _ => false

/-- A refresh has ended and its answer has been dropped, before or after it was entered. -/
def isDropped : CacheEvent → Bool
  | overtaken _ | withdrawn _ => true
  | _ => false

end CacheEvent

def Refresh.isUnderWay (r : Refresh) : Bool :=
  match r.phase with
  | .ended _ => false
  | _ => true

def PredicateCache.underWay (c : PredicateCache) : Nat :=
  c.running.countP Refresh.isUnderWay

variable {σ : Type} {b : Backend σ} {c c' : PredicateCache} {event : Option CacheEvent}
  {key : CacheKey} {before behind : List Refresh} {r : Refresh}

/-! ### Counters -/

/-- Loads are counted whether they succeed or fail. -/
theorem Transition.loads (t : Transition b c event c') :
    c'.stats.loads = c.stats.loads + event.toList.countP CacheEvent.isMiss := by
  cases t <;> rfl

theorem Transition.refreshes (t : Transition b c event c') :
    c'.stats.refreshes = c.stats.refreshes + event.toList.countP CacheEvent.isKept := by
  cases t <;> rfl

theorem Transition.failures (t : Transition b c event c') :
    c'.stats.failures = c.stats.failures +
      (event.toList.countP CacheEvent.isLoadFailure +
        event.toList.countP CacheEvent.isRefreshFailure) := by
  cases t <;> rfl

theorem underWay_move (running : c.running = before ++ r :: behind) {phase : RefreshPhase}
    (now : r.isUnderWay = true) (next : (r.inPhase phase).isUnderWay = true) :
    (before ++ r.inPhase phase :: behind).countP Refresh.isUnderWay = c.underWay := by
  rw [PredicateCache.underWay, running, List.countP_append, List.countP_append,
    List.countP_cons_of_pos now, List.countP_cons_of_pos next]

theorem underWay_end (running : c.running = before ++ r :: behind) {phase : RefreshPhase}
    (now : r.isUnderWay = true) (next : ¬ (r.inPhase phase).isUnderWay = true) :
    (before ++ r.inPhase phase :: behind).countP Refresh.isUnderWay + 1 = c.underWay := by
  rw [PredicateCache.underWay, running, List.countP_append, List.countP_append,
    List.countP_cons_of_pos now, List.countP_cons_of_neg next, Nat.add_assoc]

/-- Refreshes that come to be under way have started, and those that no longer are have ended in
one way. -/
theorem Transition.underWay (t : Transition b c event c') :
    c'.underWay + (event.toList.countP CacheEvent.isKept +
      event.toList.countP CacheEvent.isRefreshFailure + event.toList.countP CacheEvent.isDropped) =
        c.underWay + event.toList.countP CacheEvent.isStart := by
  have isUnderWay {r : Refresh} {phase : RefreshPhase} (h : r.phase = phase)
      (ongoing : (r.inPhase phase).isUnderWay = true) : r.isUnderWay = true := by
    rw [Refresh.isUnderWay, h]
    exact ongoing
  cases t with
  | stay => rfl
  | load now key ids missing answered => rfl
  | failLoad now key error missing answered => rfl
  | start key free => exact List.countP_append
  | answer answer running phase answered => exact underWay_move running (isUnderWay phase rfl) rfl
  | failRefresh running phase => exact underWay_end running (isUnderWay phase rfl) nofun
  | overtake running phase late => exact underWay_end running (isUnderWay phase rfl) nofun
  | accept running phase current => exact underWay_move running (isUnderWay phase rfl) rfl
  | enter now running phase => exact underWay_move running (isUnderWay phase rfl) rfl
  | keep running phase current => exact underWay_end running (isUnderWay phase rfl) nofun
  | withdraw running phase late => exact underWay_end running (isUnderWay phase rfl) nofun
  | @release before behind r result running phase =>
      have hover : ¬ r.isUnderWay = true := by
        rw [Refresh.isUnderWay, phase]
        exact nofun
      change (before ++ behind).countP Refresh.isUnderWay = c.running.countP Refresh.isUnderWay
      rw [running, List.countP_append, List.countP_append, List.countP_cons_of_neg hover]
  | beginEpoch => rfl
  | dropEntries => rfl

/-! ### Failures -/

/-- **A failure changes no entry.** -/
theorem Transition.entries_of_failure {e : CacheEvent} (t : Transition b c (some e) c')
    (failure : (e.isLoadFailure || e.isRefreshFailure) = true) : c'.entries = c.entries := by
  cases t with
  | failLoad now key error missing answered => rfl
  | failRefresh running phase => rfl
  | _ => cases failure

/-- A key that is asked for in vain has no entry. -/
theorem Transition.missing {e : CacheEvent} (t : Transition b c (some e) c')
    (miss : (∃ ids, e = .loaded key ids) ∨ ∃ error, e = .loadFailed key error) :
    c.entries[key]? = none := by
  rcases miss with ⟨ids, rfl⟩ | ⟨error, rfl⟩
  · cases t with
    | load now key ids missing answered => exact missing
  · cases t with
    | failLoad now key error missing answered => exact missing

namespace Chronicle

variable {ch : Chronicle}

/-- **A key is not loaded twice**, unless its entry is taken away between. -/
theorem Reachable.taken_away_of_miss (h : ch.Reachable b) {ids : IdSet} {e : CacheEvent}
    {newer between older : List CacheEvent}
    (hhistory : ch.history = newer ++ e :: (between ++ .loaded key ids :: older))
    (miss : (∃ ids, e = .loaded key ids) ∨ ∃ error, e = .loadFailed key error) :
    .entriesDropped ∈ between ∨ .withdrawn key ∈ between := by
  obtain ⟨ch₀, c, hreachable, hbefore, t⟩ := h.exists_transition hhistory
  by_contra hstays
  push Not at hstays
  have hrecorded := hreachable.entry_ids key
  rw [t.missing miss, hbefore] at hrecorded
  have hloaded : recorded key (.loaded key ids :: older) = some ids := if_pos rfl
  exact recorded_append_ne_none (hloaded.trans_ne nofun) hstays.1 hstays.2 hrecorded.symm

/-- The counters count the events of the history, and each refresh that has been started is under
way or has ended in one way. -/
structure Counted (ch : Chronicle) : Prop where
  loads : ch.cache.stats.loads = ch.history.countP CacheEvent.isMiss
  refreshes : ch.cache.stats.refreshes = ch.history.countP CacheEvent.isKept
  failures : ch.cache.stats.failures = ch.history.countP CacheEvent.isLoadFailure +
    ch.history.countP CacheEvent.isRefreshFailure
  underWay : ch.cache.underWay + (ch.history.countP CacheEvent.isKept +
    ch.history.countP CacheEvent.isRefreshFailure + ch.history.countP CacheEvent.isDropped) =
      ch.history.countP CacheEvent.isStart

/-- **Every step** counts what it does. -/
theorem Counted.step (h : ch.Counted) (t : Transition b ch.cache event c) :
    Counted ⟨c, event.toList ++ ch.history⟩ := by
  refine ⟨?_, ?_, ?_, ?_⟩
  · rw [t.loads, h.loads, List.countP_append, Nat.add_comm]
  · rw [t.refreshes, h.refreshes, List.countP_append, Nat.add_comm]
  · rw [t.failures, h.failures, List.countP_append, List.countP_append]
    omega
  · have hstep := t.underWay
    have hbefore := h.underWay
    rw [List.countP_append, List.countP_append, List.countP_append, List.countP_append]
    dsimp only
    omega

theorem Reachable.counted (h : ch.Reachable b) : ch.Counted := by
  induction h with
  | start config => exact ⟨rfl, rfl, rfl, rfl⟩
  | step _ t ih => exact ih.step t

/-! ### Whole runs -/

/-- What a cache knows of itself, and what its history says.  The last fields say what the history
itself rests on: which events a load and a refresh leave in it, by what the backend has replied. -/
structure Bookkeeping (b : Backend σ) (ch : Chronicle) : Prop where
  /-- The keys in flight are those of the refreshes that run. -/
  running : ch.cache.inFlight.Perm (ch.cache.running.map Refresh.key)
  /-- No key is in flight twice. -/
  nodup : ch.cache.inFlight.Nodup
  /-- A key is in flight between the start of a refresh and its release. -/
  inFlight : ∀ key, ch.history.count (.refreshStarted key) =
    ch.history.count (.released key) + ch.cache.inFlight.count key
  /-- A refresh that goes on to its end lets go of its key, whatever comes of it. -/
  released : ∀ s now key, key ∉ (ch.finishRefresh b s now key).cache.inFlight
  /-- A step in which a load or a refresh fails changes no entry. -/
  failedStep : ∀ m e, m.step.event? b ch.cache m.backend = some e →
    (e.isLoadFailure || e.isRefreshFailure) = true → (ch.next b m).cache.entries = ch.cache.entries
  /-- A key is not loaded again before its entry has been taken away. -/
  loadedOnce : ∀ key ids e newer between older,
    ch.history = newer ++ e :: (between ++ .loaded key ids :: older) →
    ((∃ ids, e = .loaded key ids) ∨ ∃ error, e = .loadFailed key error) →
    .entriesDropped ∈ between ∨ .withdrawn key ∈ between
  loads : ch.cache.stats.loads = ch.history.countP CacheEvent.isMiss
  failures : ch.cache.stats.failures =
    ch.history.countP CacheEvent.isLoadFailure + ch.history.countP CacheEvent.isRefreshFailure
  /-- No computation is lost. -/
  balance : ch.cache.stats.loads + ch.cache.stats.refreshes +
      ch.history.countP CacheEvent.isRefreshFailure + ch.history.countP CacheEvent.isDropped +
        ch.cache.underWay =
    ch.history.countP CacheEvent.isMiss + ch.history.countP CacheEvent.isStart
  /-- A key without an entry that is asked for is one miss: the backend replies, and the load has
  failed if the reply is an error.  Only a reply with records makes an entry. -/
  miss : ∀ s now key, ch.cache.entries[key]? = none → ∃ reply s', b.Replies s key reply s' ∧
    (ch.next b ⟨s, .fetch now key⟩).history = .ofLoad key reply :: ch.history ∧
    (ch.next b ⟨s, .fetch now key⟩).cache.entries =
      reply.toOption.elim ch.cache.entries fun ids =>
        ch.cache.entries.insert key ⟨ids, now, ch.cache.epoch⟩
  /-- A key with an entry that is asked for is no event and changes nothing. -/
  hit : ∀ s now key entry, ch.cache.entries[key]? = some entry →
    ch.next b ⟨s, .fetch now key⟩ = ch
  /-- A refresh whose reply is an error fails and changes no entry. -/
  failedRefresh : ∀ s now, ∀ r ∈ ch.cache.running, ∀ error, r.Receives b s (.error error) →
    (ch.finishRefresh b s now r.key).history =
        .released r.key :: .refreshFailed r.key error :: ch.history ∧
      (ch.finishRefresh b s now r.key).cache.entries = ch.cache.entries
  /-- A refresh that has been overtaken by an invalidation drops its reply. -/
  lateRefresh : ∀ s now, ∀ r ∈ ch.cache.running, ∀ ids, r.Receives b s (.ok ids) →
    ch.cache.epoch ≠ r.startedIn →
    (ch.finishRefresh b s now r.key).history =
        .released r.key :: .overtaken r.key :: ch.history ∧
      (ch.finishRefresh b s now r.key).cache.entries = ch.cache.entries
  /-- Any other refresh makes its reply the entry of the key. -/
  keptRefresh : ∀ s now, ∀ r ∈ ch.cache.running, ∀ ids, r.Receives b s (.ok ids) →
    ch.cache.epoch = r.startedIn →
    (ch.finishRefresh b s now r.key).history =
        .released r.key :: .kept r.key :: .entered r.key ids :: ch.history ∧
      (ch.finishRefresh b s now r.key).cache.entries =
        ch.cache.entries.insert r.key ⟨ids, now, r.startedIn⟩

/-- **The books are right after any run**, whatever callers, refreshes and invalidations do side by
side, and whenever the backend fails. -/
theorem bookkeeping_after (b : Backend σ) (config : CacheConfig) (run : List (Moment σ)) :
    (after b config run).Bookkeeping b := by
  have h := reachable_after b config run
  exact {
    running := h.inFlight.perm
    nodup := h.inFlight.nodup
    inFlight := h.inFlight.count
    released := h.finishRefresh_inFlight
    failedStep := fun m e hevent failure =>
      Transition.entries_of_failure (hevent ▸ PredicateCache.transition_run b _ _ m.step) failure
    loadedOnce := fun _ _ _ _ _ _ hhistory miss => h.taken_away_of_miss hhistory miss
    loads := h.counted.loads
    failures := h.counted.failures
    balance := by
      rw [h.counted.loads, h.counted.refreshes, ← h.counted.underWay]
      omega
    miss := fun s now key missing => by
      refine ⟨_, _, b.replies_answer s key, ?_⟩
      rw [next_fetch_of_replies missing (b.replies_answer s key)]
      exact ⟨rfl, PredicateCache.entries_finishLoad _ now key _⟩
    hit := fun _ _ _ _ => next_fetch_of_some
    failedRefresh := fun s now r hr error received => by
      obtain ⟨before, behind, hruns⟩ := h.exists_runs hr
      rw [hruns.finish_of_receives received]
      exact ⟨rfl, rfl⟩
    lateRefresh := fun s now r hr ids received late => by
      obtain ⟨before, behind, hruns⟩ := h.exists_runs hr
      rw [hruns.finish_of_receives received, PredicateCache.conclude,
        if_neg (PredicateCache.isCurrent_iff.not.mpr late)]
      exact ⟨rfl, rfl⟩
    keptRefresh := fun s now r hr ids received current => by
      obtain ⟨before, behind, hruns⟩ := h.exists_runs hr
      rw [hruns.finish_of_receives received, PredicateCache.conclude,
        if_pos (PredicateCache.isCurrent_iff.mpr current)]
      exact ⟨rfl, rfl⟩ }

/-- A refresh that the backend fails keeps the entry and its age, and a load that it fails makes
none. -/
theorem bookkeeping_after_failed_answer :
    let b : Backend (Except LookupError IdSet) := ⟨fun _ _ _ s => (s, s), fun _ s => (s, s)⟩
    let key : CacheKey := .predicate "shoe" "color" (.text "red")
    let other : CacheKey := .predicate "shoe" "color" (.text "blu*")
    let ids : IdSet := IdSet.insert 7 ∅
    let error : LookupError := .backend "down"
    let ch := after b .standard
      [⟨.ok ids, .fetch 0 key⟩, ⟨.ok ids, .startRefresh key⟩, ⟨.error error, .advance 1 0⟩]
    ch.history = [.refreshStarted key, .loaded key ids] ∧
      ⟨key, 0, .answered (.error error)⟩ ∈ ch.cache.running ∧
      (ch.finishRefresh b (.ok ∅) 2 key).history =
        .released key :: .refreshFailed key error :: ch.history ∧
      (ch.finishRefresh b (.ok ∅) 2 key).cache.entries[key]? = some ⟨ids, 0, 0⟩ ∧
      (ch.next b ⟨.error error, .fetch 2 other⟩).history = .loadFailed other error :: ch.history ∧
      (ch.next b ⟨.error error, .fetch 2 other⟩).cache.entries[other]? = none := by
  intro b key other ids error ch
  have hch : ch =
      ⟨{ PredicateCache.empty .standard with
          entries := Std.HashMap.insert ∅ key ⟨ids, 0, 0⟩
          inFlight := [key]
          running := [⟨key, 0, .answered (.error error)⟩]
          stats := ⟨1, 0, 0⟩ },
        [.refreshStarted key, .loaded key ids]⟩ := by
    change after b .standard _ = _
    rw [after, List.foldl_cons, next_fetch_of_none (entries_start _ key)]
    rfl
  have hmem : ⟨key, 0, .answered (.error error)⟩ ∈ ch.cache.running := by
    rw [hch]
    exact List.mem_singleton_self _
  have hmissing : ch.cache.entries[other]? = none := by
    rw [hch, Std.HashMap.getElem?_insert, if_neg (by decide)]
    exact Std.HashMap.getElem?_empty
  have hbook : ch.Bookkeeping b := bookkeeping_after b .standard _
  obtain ⟨hhistory, hentries⟩ := hbook.failedRefresh (.ok ∅) 2 _ hmem error (.inl rfl)
  obtain ⟨reply, s', hreply, hmiss, hmade⟩ := hbook.miss (.error error) 2 other hmissing
  obtain ⟨rfl, -⟩ := hreply.unique (.lookup rfl rfl)
  refine ⟨by rw [hch], hmem, hhistory, ?_, hmiss, ?_⟩
  · rw [hentries, hch]
    exact Std.HashMap.getElem?_insert_self
  · rw [hmade]
    exact hmissing

end Chronicle
end FacetQuery
