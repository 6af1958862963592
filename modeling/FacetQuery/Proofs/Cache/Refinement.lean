import FacetQuery.Proofs.Cache.Entries
import FacetQuery.Proofs.Cache.Replies

/-!
# Reading a cache refines asking its backend

What a caller gets for a key is determined by the history and by the backend at that moment
(`Chronicle.get_refines_backend`).  If there has been a load or a kept refresh of the key since the
latest invalidation, then it is the set of the latest one (`latest`), and the backend is not asked.
Otherwise it is what the backend replies now (`Backend.Replies`), and a failure stands for no
records.

This is said of actions with nothing between their steps: then a refresh that enters its answer
also keeps it, and what is recorded as entered is what has been kept (`Chronicle.Undisturbed`).

Whatever is in the cache has been a reply of the backend to its own key (`Chronicle.Informed`).  So
over a fixed backend there is no difference to asking it, and a key that is nothing to look up never
has an entry.
-/

namespace FacetQuery

variable {σ : Type} {b : Backend σ} {c : PredicateCache} {event : Option CacheEvent}
  {key : CacheKey} {ch : Chronicle} {s s' : σ} {now : Nat} {r : Refresh}
  {reply : Except LookupError IdSet}

/-! ### What a history keeps of a key -/

/-- The set that has been entered last for a key. -/
def lastEntered (key : CacheKey) : List CacheEvent → Option IdSet
  | [] => none
  | .entered k ids :: older => if k = key then some ids else lastEntered key older
  | _ :: older => lastEntered key older

/-- The set of the latest load or kept refresh of a key since the latest invalidation. -/
def latest (key : CacheKey) : List CacheEvent → Option IdSet
  | [] => none
  | .loaded k ids :: older => if k = key then some ids else latest key older
  | .kept k :: older => if k = key then lastEntered key older else latest key older
  | .entriesDropped :: _ => none
  | _ :: older => latest key older

/-! ### Single readings -/

namespace PredicateCache

theorem get_of_some (b : Backend σ) (s : σ) (now : Nat) {entry : CachedSet}
    (h : c.entries[key]? = some entry) :
    (((get b now key).run (c, s)).1, ((get b now key).run (c, s)).2.2) = (.hit entry, s) := by
  change (((fetch b now key).run (c, s)).1, ((fetch b now key).run (c, s)).2.2) = _
  rw [fetch_of_some h]

theorem get_of_replies (now : Nat) (missing : c.entries[key]? = none)
    (h : b.Replies s key reply s') :
    (((get b now key).run (c, s)).1, ((get b now key).run (c, s)).2.2) =
      (.ofReply reply, s') := by
  change (((fetch b now key).run (c, s)).1, ((fetch b now key).run (c, s)).2.2) = _
  rw [fetch_of_replies missing h]

theorem running_fetch (b : Backend σ) (c : PredicateCache) (s : σ) (now : Nat) (key : CacheKey) :
    ((fetch b now key).run (c, s)).2.1.running = c.running := by
  cases h : c.entries[key]? with
  | some entry => rw [fetch_of_some h]
  | none =>
      rw [fetch_of_none h]
      cases ((b.answer key).run s).1 <;> rfl

/-- A refresh of a key that is nothing to look up does not ask the backend. -/
theorem state_advance_of_unclassified {i : Nat} (h : c.running[i]? = some r)
    (hkey : r.key.Unclassified) : ((advance b now i).run (c, s)).2.2 = s := by
  by_cases phase : r.phase = .waiting
  · rw [advance_of_waiting h phase]
    exact ((b.replies_answer s r.key).of_unclassified hkey).2
  · rw [advance_of_not_waiting h phase]

end PredicateCache

/-! ### Answers in the cache -/

/-- A step leaves refreshes with answers of the backend in their hands. -/
theorem RunningChange.informed {inFlight : List CacheKey} {running : List Refresh}
    (h : RunningChange b c event inFlight running) (hc : ∀ r ∈ c.running, r.Informed b) :
    ∀ r ∈ running, r.Informed b := by
  intro r hr
  rcases h.origin hr with hr | ⟨-, hstarted⟩ | ⟨r₀, hr₀, phase, rfl, hinformed⟩
  · exact hc r hr
  · rw [hstarted]
    trivial
  · exact hinformed (hc r₀ hr₀)

namespace Chronicle

/-- What is in the cache has been an answer of the backend for its key. -/
structure Informed (b : Backend σ) (ch : Chronicle) : Prop where
  running : ∀ r ∈ ch.cache.running, r.Informed b
  entries : ∀ key entry, ch.cache.entries[key]? = some entry → b.Answers key (.ok entry.ids)

theorem Informed.step (h : ch.Informed b) (t : Transition b ch.cache event c) :
    Informed b ⟨c, event.toList ++ ch.history⟩ := by
  refine ⟨t.runningChange.informed h.running, fun key entry hentry => ?_⟩
  have hchange := t.entryChange key
  rw [hentry] at hchange
  cases hchange with
  | stay untouched same => exact h.entries key entry same.symm
  | load now ids missing answered => exact answered
  | @enter now r ids running refreshed phase =>
      have hinformed := h.running r running
      rw [Refresh.Informed, phase, refreshed] at hinformed
      exact hinformed

theorem Reachable.informed (h : ch.Reachable b) : ch.Informed b := by
  induction h with
  | start config =>
      refine ⟨fun r hr => absurd hr List.not_mem_nil, fun key entry hentry => ?_⟩
      exact nomatch (entries_start config key).symm.trans hentry
  | step _ t ih => exact ih.step t

/-- A key that is nothing to look up has no entry. -/
theorem Reachable.no_entry_of_unclassified (h : ch.Reachable b) (hkey : key.Unclassified) :
    ch.cache.entries[key]? = none := by
  rw [Option.eq_none_iff_forall_ne_some]
  intro entry hentry
  obtain ⟨s, s', hreply⟩ := (h.informed.entries key entry hentry).exists_replies
  obtain ⟨⟨e, he⟩, -⟩ := hreply.of_unclassified hkey
  cases he

/-! ### Undisturbed histories -/

/-- Between actions a refresh waits or has been answered, and what is recorded of a key is the set
of its latest load or kept refresh. -/
structure Undisturbed (ch : Chronicle) : Prop where
  early : ∀ r ∈ ch.cache.running, r.phase = .waiting ∨ ∃ answer, r.phase = .answered answer
  recorded_eq : ∀ key, recorded key ch.history = latest key ch.history

theorem undisturbed_start (config : CacheConfig) : (start config).Undisturbed :=
  ⟨fun _ hr => absurd hr List.not_mem_nil, fun _ => rfl⟩

theorem Undisturbed.fetch (h : ch.Undisturbed) (b : Backend σ) (s : σ) (now : Nat)
    (key : CacheKey) : (ch.next b ⟨s, .fetch now key⟩).Undisturbed := by
  refine ⟨fun r hr => h.early r ?_, fun other => ?_⟩
  · rw [← PredicateCache.running_fetch b ch.cache s now key]
    exact hr
  · change recorded other ((CacheStep.fetchEvent? key
      ((PredicateCache.fetch b now key).run (ch.cache, s)).1).toList ++ ch.history) = latest other
        ((CacheStep.fetchEvent? key
          ((PredicateCache.fetch b now key).run (ch.cache, s)).1).toList ++ ch.history)
    cases ((PredicateCache.fetch b now key).run (ch.cache, s)).1 with
    | hit entry => exact h.recorded_eq other
    | loaded ids => exact congrArg (ite (key = other) (some ids)) (h.recorded_eq other)
    | failed error => exact h.recorded_eq other

theorem Undisturbed.startRefresh (h : ch.Undisturbed) (b : Backend σ) (s : σ) (key : CacheKey) :
    (ch.next b ⟨s, .startRefresh key⟩).Undisturbed := by
  change Undisturbed ⟨ch.cache.startRefresh key,
    (if key ∈ ch.cache.inFlight then none else some (.refreshStarted key)).toList ++ ch.history⟩
  rw [PredicateCache.startRefresh]
  split
  · exact h
  · refine ⟨fun r hr => ?_, h.recorded_eq⟩
    rcases List.mem_append.mp hr with hr | hr
    · exact h.early r hr
    · rw [List.mem_singleton.mp hr]
      exact .inl rfl

theorem Undisturbed.answerRefresh (h : ch.Undisturbed) (hreach : ch.Reachable b) (s : σ)
    (key : CacheKey) : (ch.answerRefresh b s key).Undisturbed := by
  rw [Chronicle.answerRefresh]
  split
  · rename_i hwaiting
    obtain ⟨r, hfind, phase⟩ := Option.map_eq_some_iff.mp hwaiting
    obtain rfl : r.key = key := by simpa using List.find?_some hfind
    obtain ⟨before, behind, hruns⟩ := hreach.exists_runs (List.mem_of_find?_eq_some hfind)
    rw [hruns.advance_waiting phase]
    refine ⟨fun q hq => ?_, h.recorded_eq⟩
    rcases List.mem_append.mp hq with hq | hq
    · exact h.early q (hruns.running ▸ List.mem_append_left _ hq)
    rcases List.mem_cons.mp hq with rfl | hq
    · exact .inr ⟨_, rfl⟩
    · exact h.early q (hruns.running ▸ List.mem_append_right _ (List.mem_cons_of_mem _ hq))
  · exact h

/-- The steps of a finished refresh record what it has kept. -/
theorem recorded_conclude (h : recorded key ch.history = latest key ch.history)
    (c : PredicateCache) (now : Nat) (r : Refresh) (answer : Except LookupError IdSet) :
    recorded key ((c.conclude now r answer).2 ++ ch.history) =
      latest key ((c.conclude now r answer).2 ++ ch.history) := by
  cases answer with
  | error error => exact h
  | ok ids =>
      rw [PredicateCache.conclude]
      split
      · change (if r.key = key then some ids else recorded key ch.history) =
          if r.key = key then if r.key = key then some ids else lastEntered key ch.history
            else latest key ch.history
        by_cases hkey : r.key = key
        · rw [if_pos hkey, if_pos hkey, if_pos hkey]
        · rw [if_neg hkey, if_neg hkey, h]
      · exact h

theorem Undisturbed.finishRefresh (h : ch.Undisturbed) (hreach : ch.Reachable b) (s : σ)
    (now : Nat) (key : CacheKey) : (ch.finishRefresh b s now key).Undisturbed := by
  by_cases habsent : ∀ q ∈ ch.cache.running, q.key ≠ key
  · rw [Chronicle.finishRefresh, iterate_advanceRefresh_of_absent habsent]
    exact h
  push Not at habsent
  obtain ⟨r, hr, rfl⟩ := habsent
  obtain ⟨before, behind, hruns⟩ := hreach.exists_runs hr
  have hothers : ∀ q ∈ before ++ behind,
      q.phase = .waiting ∨ ∃ answer, q.phase = .answered answer :=
    fun q hq => h.early q
      (hruns.running ▸ ((List.sublist_cons_self r behind).append_left before).subset hq)
  rcases h.early r hr with phase | ⟨answer, phase⟩
  · rw [hruns.finish_of_waiting phase]
    exact ⟨hothers, fun key => recorded_conclude (h.recorded_eq key) _ now r _⟩
  · rw [hruns.finish_of_answered phase]
    exact ⟨hothers, fun key => recorded_conclude (h.recorded_eq key) _ now r _⟩

/-- **Every action** leaves the history undisturbed. -/
theorem Undisturbed.act (h : ch.Undisturbed) (hreach : ch.Reachable b) (action : σ × CacheAction) :
    (ch.act b action).Undisturbed := by
  obtain ⟨s, action⟩ := action
  cases action with
  | get now key =>
      rw [Chronicle.act, Chronicle.get]
      split
      · exact (h.fetch b s now key).startRefresh b s key
      · exact h.fetch b s now key
  | startRefresh key => exact h.startRefresh b s key
  | answerRefresh key => exact h.answerRefresh hreach s key
  | finishRefresh now key => exact h.finishRefresh hreach s now key
  | invalidateAll => exact ⟨h.early, fun _ => rfl⟩

theorem undisturbed_acted (b : Backend σ) (config : CacheConfig) (run : List (σ × CacheAction)) :
    (acted b config run).Undisturbed := by
  suffices ∀ ch : Chronicle, ch.Reachable b → ch.Undisturbed →
      (run.foldl (Chronicle.act b) ch).Undisturbed from
    this _ (.start config) (undisturbed_start config)
  induction run with
  | nil => exact fun _ _ h => h
  | cons action run ih => exact fun ch hreach h => ih _ (hreach.act action) (h.act hreach action)

/-! ### Readings after any actions -/

theorem get_of_replies (now : Nat) (missing : ch.cache.entries[key]? = none)
    (h : b.Replies s key reply s') :
    ch.get b s now key =
      ⟨(ch.cache.finishLoad now key reply).2, .ofLoad key reply :: ch.history⟩ := by
  rw [Chronicle.get, next_fetch_of_replies missing h, PredicateCache.fetch_of_replies missing h]
  cases reply <;> rfl

theorem latest_ofLoad {history : List CacheEvent} (none : latest key history = none)
    (reply : Except LookupError IdSet) :
    latest key (.ofLoad key reply :: history) = reply.toOption := by
  cases reply with
  | ok ids => exact if_pos rfl
  | error error => exact none

/-- A finished refresh is the latest one that is kept if it is not overtaken and not failed. -/
theorem latest_conclude (c : PredicateCache) (now : Nat) (r : Refresh)
    (reply : Except LookupError IdSet) (history : List CacheEvent) :
    latest r.key ((c.conclude now r reply).2 ++ history) =
      if c.epoch = r.startedIn then reply.toOption.or (latest r.key history)
      else latest r.key history := by
  cases reply with
  | error error => exact (ite_self _).symm
  | ok ids =>
      rw [PredicateCache.conclude]
      by_cases current : c.epoch = r.startedIn
      · rw [if_pos current, if_pos (PredicateCache.isCurrent_iff.mpr current)]
        exact (if_pos rfl).trans (if_pos rfl)
      · rw [if_neg current, if_neg (PredicateCache.isCurrent_iff.not.mpr current)]
        rfl

/-- Between actions a refresh has a reply in hand, or waits for one. -/
theorem Undisturbed.exists_receives (h : ch.Undisturbed) (informed : ch.Informed b) (s : σ)
    (hr : r ∈ ch.cache.running) :
    ∃ reply, r.Receives b s reply ∧ ∃ t t', b.Replies t r.key reply t' := by
  rcases h.early r hr with phase | ⟨reply, phase⟩
  · have hreply := b.replies_answer s r.key
    exact ⟨_, .inr ⟨phase, _, hreply⟩, _, _, hreply⟩
  · have hinformed := informed.running r hr
    rw [Refresh.Informed, phase] at hinformed
    exact ⟨reply, .inl phase, hinformed.exists_replies⟩

/-- Between actions the entry of a key holds the set of its latest load or kept refresh. -/
theorem Undisturbed.entry_ids (h : ch.Undisturbed) (hreach : ch.Reachable b) (key : CacheKey) :
    ch.cache.entries[key]?.map CachedSet.ids = latest key ch.history := by
  rw [hreach.entry_ids, h.recorded_eq]

/-- This set has been a reply of the backend to the key. -/
theorem Undisturbed.exists_replies_of_latest (h : ch.Undisturbed) (hreach : ch.Reachable b)
    {ids : IdSet} (hlatest : latest key ch.history = some ids) :
    ∃ t t', b.Replies t key (.ok ids) t' := by
  obtain ⟨entry, hentry, rfl⟩ := Option.map_eq_some_iff.mp ((h.entry_ids hreach key).trans hlatest)
  exact (hreach.informed.entries key entry hentry).exists_replies

theorem Undisturbed.get_of_latest (h : ch.Undisturbed) (hreach : ch.Reachable b) (s : σ)
    (now : Nat) {ids : IdSet} (hlatest : latest key ch.history = some ids) :
    (∃ entry, ((PredicateCache.get b now key).run (ch.cache, s)).1 = .hit entry ∧
      entry.ids = ids) ∧ ((PredicateCache.get b now key).run (ch.cache, s)).2.2 = s := by
  obtain ⟨entry, hentry, hids⟩ :=
    Option.map_eq_some_iff.mp ((h.entry_ids hreach key).trans hlatest)
  obtain ⟨hfetched, hstate⟩ := Prod.mk.inj (PredicateCache.get_of_some b s now hentry)
  exact ⟨⟨entry, hfetched, hids⟩, hstate⟩

theorem Undisturbed.get_of_no_latest (h : ch.Undisturbed) (hreach : ch.Reachable b) (now : Nat)
    (hlatest : latest key ch.history = none) (hreply : b.Replies s key reply s') :
    ((PredicateCache.get b now key).run (ch.cache, s)).1 = .ofReply reply ∧
      ((PredicateCache.get b now key).run (ch.cache, s)).2.2 = s' ∧
      latest key (ch.act b (s, .get now key)).history = reply.toOption := by
  have missing : ch.cache.entries[key]? = none :=
    Option.map_eq_none_iff.mp ((h.entry_ids hreach key).trans hlatest)
  obtain ⟨hfetched, hstate⟩ := Prod.mk.inj (PredicateCache.get_of_replies now missing hreply)
  rw [Chronicle.act, get_of_replies now missing hreply]
  exact ⟨hfetched, hstate, latest_ofLoad hlatest reply⟩

/-- What a caller gets who reads a key, what becomes of the backend, and what is read from then
on. -/
structure RefinesBackend (b : Backend σ) (ch : Chronicle) (s : σ) (now : Nat) (key : CacheKey) :
    Prop where
  /-- Reading the key goes on with the run. -/
  action : (ch.act b (s, .get now key)).cache =
    ((PredicateCache.get b now key).run (ch.cache, s)).2.1
  /-- If there has been a load or a kept refresh of the key since the latest invalidation, then the
  caller gets the set of the latest one from its entry, and nobody asks the backend. -/
  hit : ∀ ids, latest key ch.history = some ids →
    (∃ entry, ((PredicateCache.get b now key).run (ch.cache, s)).1 = .hit entry ∧
      entry.ids = ids) ∧ ((PredicateCache.get b now key).run (ch.cache, s)).2.2 = s
  /-- If there has been none, then the caller gets what the backend replies now, which is the latest
  load if it is no failure. -/
  miss : latest key ch.history = none → ∃ reply s', b.Replies s key reply s' ∧
    ((PredicateCache.get b now key).run (ch.cache, s)).1 = .ofReply reply ∧
    ((PredicateCache.get b now key).run (ch.cache, s)).2.2 = s' ∧
    latest key (ch.act b (s, .get now key)).history = reply.toOption
  /-- A refresh of the key has in hand what the backend has replied to the key, or it waits for
  what the backend replies to the key now.  This is the latest kept refresh once it has finished, if
  it is no failure and has not been overtaken by an invalidation. -/
  refresh : ∀ r ∈ ch.cache.running, r.key = key → ∃ reply, r.Receives b s reply ∧
    (∃ t t', b.Replies t key reply t') ∧
    latest key (ch.act b (s, .finishRefresh now key)).history =
      if ch.cache.epoch = r.startedIn then reply.toOption.or (latest key ch.history)
      else latest key ch.history
  /-- Over a fixed backend the caller gets what the backend replies to the key at any time, whatever
  happened before. -/
  fixed : b.Fixed → ∀ t reply t', b.Replies t key reply t' →
    ((PredicateCache.get b now key).run (ch.cache, s)).1.ids = answeredIds reply
  /-- A key that is nothing to look up has no entry, -/
  entry : key.Unclassified → ch.cache.entries[key]? = none
  /-- and neither reading nor refreshing it is a reason to ask the backend, whose state might tell
  of any question. -/
  unasked : key.Unclassified →
    ((PredicateCache.get b now key).run (ch.cache, s)).1.ids = ∅ ∧
      ((PredicateCache.get b now key).run (ch.cache, s)).2.2 = s ∧
        ∀ i r, ch.cache.running[i]? = some r → r.key = key →
          ((PredicateCache.advance b now i).run (ch.cache, s)).2.2 = s

/-- **Reading a key refines asking the backend**, after any actions, over a backend whose answers
change and that fails at any time. -/
theorem get_refines_backend (b : Backend σ) (config : CacheConfig) (run : List (σ × CacheAction))
    (s : σ) (now : Nat) (key : CacheKey) :
    (acted b config run).RefinesBackend b s now key := by
  have hreach : (acted b config run).Reachable b := reachable_acted b config run
  have hundisturbed : (acted b config run).Undisturbed := undisturbed_acted b config run
  generalize acted b config run = ch at *
  have hanswer := b.replies_answer s key
  exact {
    action := get_cache
    hit := fun ids => hundisturbed.get_of_latest hreach s now
    miss := fun hlatest => ⟨_, _, hanswer, hundisturbed.get_of_no_latest hreach now hlatest hanswer⟩
    refresh := fun r hr hkey => by
      subst hkey
      obtain ⟨reply, received, hreply⟩ := hundisturbed.exists_receives hreach.informed s hr
      obtain ⟨before, behind, hruns⟩ := hreach.exists_runs hr
      refine ⟨reply, received, hreply, ?_⟩
      rw [act, hruns.finish_of_receives received]
      exact latest_conclude ch.cache now r reply ch.history
    fixed := fun fixed t reply t' hreply => by
      cases hlatest : latest key ch.history with
      | none =>
          obtain ⟨hfetched, -, -⟩ := hundisturbed.get_of_no_latest hreach now hlatest hanswer
          rw [hfetched, PredicateCache.Fetched.ids_ofReply, fixed.reply_eq hanswer hreply]
      | some ids =>
          -- What is kept has been a reply of the backend, and there is only one.
          obtain ⟨⟨entry, hfetched, hids⟩, -⟩ := hundisturbed.get_of_latest hreach s now hlatest
          obtain ⟨u, u', hkept⟩ := hundisturbed.exists_replies_of_latest hreach hlatest
          rw [hfetched, ← fixed.reply_eq hkept hreply]
          exact hids
    entry := hreach.no_entry_of_unclassified
    unasked := fun hkey => by
      have hlatest : latest key ch.history = none := by
        rw [← hundisturbed.entry_ids hreach, hreach.no_entry_of_unclassified hkey]
        rfl
      obtain ⟨⟨e, hdefect⟩, hstate⟩ := hanswer.of_unclassified hkey
      obtain ⟨hfetched, hunasked, -⟩ := hundisturbed.get_of_no_latest hreach now hlatest hanswer
      refine ⟨?_, hunasked.trans hstate, fun i r hr hrkey =>
        PredicateCache.state_advance_of_unclassified hr (hrkey ▸ hkey)⟩
      rw [hfetched, hdefect]
      rfl }

/-- A range that begins at no day. -/
theorem unclassified_of_no_day :
    (CacheKey.predicate "shoe" "price" (.text "[2020-13-01,)")).Unclassified :=
  ⟨.invalidBound .lower "2020-13-01" "[2020-13-01,)", rfl⟩

/-- A key is loaded and refreshed while the answers change, and then read from its entry; another
key is looked up, all records are asked for in vain, and a range that begins at no day is answered
with no records. -/
theorem get_refines_backend_after_kept_refresh :
    let b : Backend IdSet :=
      ⟨fun _ _ _ s => (.ok s, IdSet.insert 9 s), fun _ s => (.error (.backend "down"), s)⟩
    let key : CacheKey := .predicate "shoe" "color" (.text "red")
    let other : CacheKey := .predicate "shoe" "color" (.text "blu*")
    let all : CacheKey := .all "shoe"
    let broken : CacheKey := .predicate "shoe" "price" (.text "[2020-13-01,)")
    let old : IdSet := IdSet.insert 7 ∅
    let new : IdSet := IdSet.insert 8 ∅
    let run := [(old, .get 0 key), (old, .startRefresh key), (new, .finishRefresh 1 key)]
    let ch := acted b .standard run
    let read (key : CacheKey) := (PredicateCache.get b 2 key).run (ch.cache, old)
    latest key ch.history = some new ∧ (read key).1.ids = new ∧ (read key).2.2 = old ∧
      (read other).1 = .loaded old ∧ (read other).2.2 = IdSet.insert 9 old ∧
      (read all).1 = .failed (.backend "down") ∧ (read all).1.ids = ∅ ∧
      broken.Unclassified ∧ (read broken).1.ids = ∅ ∧ (read broken).2.2 = old := by
  intro b key other all broken old new run ch read
  have hloaded : (start .standard).get b old 0 key =
      ⟨((start .standard).cache.finishLoad 0 key (.ok old)).2, [.loaded key old]⟩ :=
    get_of_replies 0 (entries_start _ key) (.lookup rfl rfl)
  have hruns : Runs (((start .standard).get b old 0 key).next b ⟨old, .startRefresh key⟩) []
      ⟨key, 0, .waiting⟩ [] := by
    rw [hloaded]
    exact ⟨rfl, fun _ h => absurd h List.not_mem_nil⟩
  have hhistory : ch.history =
      [.released key, .kept key, .entered key new, .refreshStarted key, .loaded key old] := by
    change (acted b .standard run).history = _
    rw [acted, List.foldl_cons, List.foldl_cons, List.foldl_cons, List.foldl_nil, act, act, act,
      hruns.finish_of_waiting rfl, hloaded]
    rfl
  have hlatest : latest key ch.history = some new := by
    rw [hhistory]
    rfl
  have refines (key : CacheKey) : ch.RefinesBackend b old 2 key :=
    get_refines_backend b .standard run old 2 key
  have missed (key' : CacheKey) (hkey : key ≠ key') : latest key' ch.history = none := by
    rw [hhistory]
    simp [latest, hkey]
  -- From here on the cache is only known by its history.
  clear_value ch
  have found : b.Replies old other (.ok old) (IdSet.insert 9 old) := .lookup rfl rfl
  have failed : b.Replies old all (.error (.backend "down")) old := .allRecords rfl
  obtain ⟨⟨entry, hentry, hids⟩, hunasked⟩ := (refines key).hit new hlatest
  obtain ⟨_, _, hfound, hother, hasked, -⟩ := (refines other).miss (missed _ (by decide))
  obtain ⟨rfl, rfl⟩ := hfound.unique found
  obtain ⟨_, _, hfailed, hall, -, -⟩ := (refines all).miss (missed _ (by decide))
  obtain ⟨rfl, rfl⟩ := hfailed.unique failed
  obtain ⟨hbroken, hunaskedBroken, -⟩ := (refines broken).unasked unclassified_of_no_day
  exact ⟨hlatest, hentry ▸ hids, hunasked, hother, hasked, hall, hall ▸ rfl,
    unclassified_of_no_day, hbroken, hunaskedBroken⟩

end Chronicle
end FacetQuery
