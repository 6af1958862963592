import FacetQuery.Proofs.Cache.Entries
import FacetQuery.Proofs.Cache.InFlight

/-!
# Refreshes bring nothing back

A refresh that is overtaken by an invalidation may still enter its answer, between its two checks.
While it has not taken the answer back, and while an invalidation is half done, there may be
entries from before the invalidation.  As soon as all invalidations are done and no key is in
flight, there are none: each entry has been computed by a load or a refresh that began in the
epoch of the cache (`Chronicle.computed_in_current_epoch`).

Two things carry this.  An entry of another epoch is *doomed*: what will take it away is under way
already (`Chronicle.Doomed`, `Reachable.current_or_doomed`).  And the epoch that an entry bears is
the one in which its computation began, which can be found in the history (`Chronicle.Traced`).

Nothing is assumed about the order of the steps or about the backend.
-/

namespace FacetQuery

/-- The invalidations that are half done: a new epoch has begun, and the entries are still to be
dropped. -/
def pendingInvalidations : List CacheEvent → Nat
  | [] => 0
  | .epochBegan :: older => pendingInvalidations older + 1
  | .entriesDropped :: older => pendingInvalidations older - 1
  | _ :: older => pendingInvalidations older

/-- A computation of a set for a key, by the event with which it began and those that came after
it, the newest one first.  The entry of the key has not been touched since it was computed. -/
inductive Computes (key : CacheKey) (ids : IdSet) : CacheEvent → List CacheEvent → Prop where
  | load {since : List CacheEvent} (untouched : ∀ e ∈ since, ¬ e.Touches key) :
      Computes key ids (.loaded key ids) since
  /-- It is one refresh that begins and enters the set, for it has not let go of the key between. -/
  | refresh {since between : List CacheEvent} (untouched : ∀ e ∈ since, ¬ e.Touches key)
      (unreleased : .released key ∉ between) :
      Computes key ids (.refreshStarted key) (since ++ .entered key ids :: between)

variable {σ : Type} {b : Backend σ} {c c' : PredicateCache} {event : Option CacheEvent}
  {key : CacheKey} {ids : IdSet}

theorem Computes.cons {begun e : CacheEvent} {newer : List CacheEvent}
    (h : Computes key ids begun newer) (untouched : ¬ e.Touches key) :
    Computes key ids begun (e :: newer) := by
  cases h with
  | load since => exact .load (List.forall_mem_cons.mpr ⟨untouched, since⟩)
  | refresh since unreleased =>
      exact .refresh (List.forall_mem_cons.mpr ⟨untouched, since⟩) unreleased

/-- No entry is touched by what has happened since either. -/
theorem Computes.append {begun : CacheEvent} {newer : List CacheEvent}
    (h : Computes key ids begun newer) (untouched : ∀ e, event = some e → ¬ e.Touches key) :
    Computes key ids begun (event.toList ++ newer) := by
  cases event with
  | none => exact h
  | some e => exact h.cons (untouched e rfl)

/-! ### Epochs -/

/-- The epochs that begin in a step. -/
theorem Transition.epoch_eq (t : Transition b c event c') :
    c'.epoch = c.epoch + event.toList.count .epochBegan := by
  cases t <;> rfl

theorem Transition.epoch_eq_of_ne (t : Transition b c event c') (h : event ≠ some .epochBegan) :
    c'.epoch = c.epoch := by
  cases t with
  | beginEpoch => exact absurd rfl h
  | _ => rfl

theorem pendingInvalidations_of_other (began : event ≠ some .epochBegan)
    (dropped : event ≠ some .entriesDropped) (history : List CacheEvent) :
    pendingInvalidations (event.toList ++ history) = pendingInvalidations history := by
  cases event with
  | none => rfl
  | some e =>
      cases e with
      | epochBegan => exact absurd rfl began
      | entriesDropped => exact absurd rfl dropped
      | _ => rfl

/-! ### What a step does to a refresh -/

/-- A refresh that runs after a step bears the key and the epoch of one that ran before it, or has
just started. -/
theorem RunningChange.exists_of_mem {inFlight : List CacheKey} {running : List Refresh}
    {r : Refresh} (h : RunningChange b c event inFlight running) (hr : r ∈ running) :
    (∃ r₀ ∈ c.running, r₀.key = r.key ∧ r₀.startedIn = r.startedIn) ∨
      event = some (.refreshStarted r.key) ∧ r.startedIn = c.epoch := by
  rcases h.origin hr with hr | ⟨hevent, hstarted⟩ | ⟨r₀, hr₀, phase, rfl, -⟩
  · exact .inl ⟨r, hr, rfl, rfl⟩
  · exact .inr ⟨hevent, congrArg Refresh.startedIn hstarted⟩
  · exact .inl ⟨r₀, hr₀, rfl, rfl⟩

/-- A late refresh that has entered its answer runs on until it takes the answer back. -/
theorem RunningChange.late_mem {inFlight : List CacheKey} {running : List Refresh} {r : Refresh}
    (h : RunningChange b c event inFlight running) (hr : r ∈ c.running) (phase : r.phase = .entered)
    (late : c.epoch ≠ r.startedIn) (remains : event ≠ some (.withdrawn r.key)) : r ∈ running := by
  cases h with
  | stay other => exact hr
  | start k free => exact List.mem_append_left _ hr
  | @move _ before behind r₀ phase' running other entered informed =>
      rw [running] at hr
      rcases List.mem_append.mp hr with hr | hr
      · exact List.mem_append_left _ hr
      rcases List.mem_cons.mp hr with rfl | hr
      · exact absurd (entered phase late) remains
      · exact List.mem_append_right _ (List.mem_cons_of_mem _ hr)
  | @release before behind r₀ result running ended =>
      rw [running] at hr
      rcases List.mem_append.mp hr with hr | hr
      · exact List.mem_append_left _ hr
      rcases List.mem_cons.mp hr with rfl | hr
      · exact nomatch phase.symm.trans ended
      · exact List.mem_append_right _ hr

/-- A refresh that has just entered its answer. -/
theorem Transition.exists_entered {entry : CachedSet}
    (t : Transition b c (some (.entered key ids)) c') (hentry : c'.entries[key]? = some entry) :
    ∃ r ∈ c'.running, r.key = key ∧ r.phase = .entered ∧ entry.epoch = r.startedIn := by
  cases t with
  | @enter now before behind r _ running phase =>
      refine ⟨r.inPhase .entered, List.mem_append_cons_self, rfl, rfl, ?_⟩
      change (c.entries.insert r.key ⟨ids, now, r.startedIn⟩)[r.key]? = some entry at hentry
      rw [Std.HashMap.getElem?_insert_self] at hentry
      rw [← Option.some.inj hentry]
      rfl

namespace Chronicle

variable {ch : Chronicle} {r : Refresh}

/-- No refresh that runs after a step has let go of its key in the step. -/
theorem InFlight.not_released (h : ch.InFlight)
    {inFlight : List CacheKey} {running : List Refresh}
    (hchange : RunningChange b ch.cache event inFlight running) (hr : r ∈ running) :
    event ≠ some (.released r.key) := by
  cases hchange with
  | stay other => exact (other r.key).2
  | start k free => exact nofun
  | move phase running other entered informed => exact (other r.key).2
  | @release before behind r₀ result running phase =>
      intro he
      exact h.key_ne running r hr (by simpa using he.symm)

/-! ### The epoch of an entry -/

/-- All numbers of epochs can be found in the history: the epoch of the cache counts the epochs
that have begun, and a refresh or an entry bears the number that was reached when it, or its
computation, began. -/
structure Traced (ch : Chronicle) : Prop where
  epoch : ch.cache.epoch = ch.history.count .epochBegan
  running : ∀ r ∈ ch.cache.running, ∃ newer older,
    ch.history = newer ++ .refreshStarted r.key :: older ∧ .released r.key ∉ newer ∧
      r.startedIn = older.count .epochBegan
  entries : ∀ key entry, ch.cache.entries[key]? = some entry → ∃ newer begun older,
    ch.history = newer ++ begun :: older ∧ Computes key entry.ids begun newer ∧
      entry.epoch = older.count .epochBegan

theorem traced_start (config : CacheConfig) : (start config).Traced := by
  refine ⟨rfl, fun r hr => absurd hr List.not_mem_nil, fun key entry hentry => ?_⟩
  exact nomatch (entries_start config key).symm.trans hentry

/-- **Every step** keeps the numbers of epochs traceable. -/
theorem Traced.step (h : ch.Traced) (keys : ch.InFlight) (t : Transition b ch.cache event c) :
    Traced ⟨c, event.toList ++ ch.history⟩ := by
  refine ⟨?_, fun r hr => ?_, fun key entry hentry => ?_⟩
  · rw [t.epoch_eq, h.epoch, List.count_append, Nat.add_comm]
  · rcases t.runningChange.exists_of_mem hr with ⟨r₀, hr₀, hkey, hstart⟩ | ⟨hevent, hstart⟩
    · -- A refresh that still runs has not let go of its key in this step either.
      obtain ⟨newer, older, hhistory, unreleased, hepoch⟩ := h.running r₀ hr₀
      refine ⟨event.toList ++ newer, older, ?_, fun hmem => ?_, hstart ▸ hepoch⟩
      · rw [hhistory, hkey, List.append_assoc]
      · rcases List.mem_append.mp hmem with hmem | hmem
        · exact keys.not_released t.runningChange hr (Option.mem_toList.mp hmem)
        · exact unreleased (hkey ▸ hmem)
    · exact ⟨[], ch.history, hevent ▸ rfl, List.not_mem_nil, hstart.trans h.epoch⟩
  · have hchange := t.entryChange key
    rw [hentry] at hchange
    cases hchange with
    | stay untouched same =>
        obtain ⟨newer, begun, older, hhistory, hcomputes, hepoch⟩ := h.entries key entry same.symm
        refine ⟨event.toList ++ newer, begun, older, ?_, hcomputes.append untouched, hepoch⟩
        rw [hhistory, List.append_assoc]
    | load now ids missing answered =>
        exact ⟨[], .loaded key ids, ch.history, rfl, .load fun _ he => absurd he List.not_mem_nil,
          h.epoch⟩
    | @enter now r ids running refreshed phase =>
        -- The entry bears the epoch of its refresh, so its computation began with the refresh.
        obtain ⟨newer, older, hhistory, unreleased, hepoch⟩ := h.running r running
        rw [refreshed] at hhistory unreleased
        refine ⟨.entered key ids :: newer, .refreshStarted key, older, ?_, ?_, hepoch⟩
        · rw [hhistory]
          rfl
        · exact .refresh (fun _ he => absurd he List.not_mem_nil) unreleased

theorem Reachable.traced (h : ch.Reachable b) : ch.Traced := by
  induction h with
  | start config => exact traced_start config
  | step h t ih => exact ih.step h.inFlight t

/-! ### Entries of other epochs -/

/-- The entry of the key will be taken away: either all entries will be, by an invalidation that
is half done, or a late refresh has entered it and has to take it back. -/
def Doomed (ch : Chronicle) (key : CacheKey) : Prop :=
  0 < pendingInvalidations ch.history ∨
    ∃ r ∈ ch.cache.running, r.key = key ∧ r.phase = .entered ∧ ch.cache.epoch ≠ r.startedIn

/-- An entry stays doomed until it is taken away. -/
theorem Doomed.step (h : ch.Doomed key) (t : Transition b ch.cache event c)
    (remains : event ≠ some (.withdrawn key) ∧ event ≠ some .entriesDropped) :
    Doomed ⟨c, event.toList ++ ch.history⟩ key := by
  -- With a new epoch an invalidation is half done; in all other steps the epoch stays, and a late
  -- refresh stays late.
  by_cases hbegan : event = some .epochBegan
  · rw [hbegan]
    exact .inl (Nat.succ_pos _)
  rcases h with hpending | ⟨r, hr, rfl, phase, late⟩
  · exact .inl ((pendingInvalidations_of_other hbegan remains.2 ch.history).symm ▸ hpending)
  · refine .inr ⟨r, t.runningChange.late_mem hr phase late remains.1, rfl, phase, ?_⟩
    rwa [t.epoch_eq_of_ne hbegan]

/-- **An entry is of the epoch of the cache, or it is doomed.** -/
theorem Reachable.current_or_doomed (h : ch.Reachable b) {entry : CachedSet}
    (hentry : ch.cache.entries[key]? = some entry) :
    entry.epoch = ch.cache.epoch ∨ ch.Doomed key := by
  induction h generalizing entry with
  | start config => exact nomatch (entries_start config key).symm.trans hentry
  | @step ch event c' _ t ih =>
      have hchange := t.entryChange key
      dsimp only at hentry
      rw [hentry] at hchange
      cases hchange with
      | stay untouched same =>
          have remains : event ≠ some (.withdrawn key) ∧ event ≠ some .entriesDropped :=
            ⟨fun he => untouched _ he rfl, fun he => untouched _ he trivial⟩
          rcases ih same.symm with hcurrent | hdoomed
          · by_cases hbegan : event = some .epochBegan
            · exact .inr (.inl (hbegan ▸ Nat.succ_pos _))
            · exact .inl (hcurrent.trans (t.epoch_eq_of_ne hbegan).symm)
          · exact .inr (hdoomed.step t remains)
      | load now ids missing answered => exact .inl (t.epoch_eq_of_ne nofun).symm
      | enter now running refreshed phase =>
          -- A refresh that is late has to take back what it has just entered.
          obtain ⟨r, hr, hkey, hphase, hstart⟩ := t.exists_entered hentry
          by_cases hcurrent : c'.epoch = r.startedIn
          · exact .inl (hstart.trans hcurrent.symm)
          · exact .inr (.inr ⟨r, hr, hkey, hphase, hcurrent⟩)

/-- **Refreshes bring nothing back.**  Whatever callers, refreshes and invalidations do side by
side, and whatever the backend answers: when no refresh is in flight and no invalidation is half
done, each entry was computed by a load or a refresh that began after the latest epoch. -/
theorem computed_in_current_epoch (b : Backend σ) (config : CacheConfig)
    (run : List (Moment σ)) {entry : CachedSet}
    (quiet : (after b config run).cache.inFlight = [])
    (whole : pendingInvalidations (after b config run).history = 0)
    (hentry : (after b config run).cache.entries[key]? = some entry) :
    ∃ newer begun older, (after b config run).history = newer ++ begun :: older ∧
      Computes key entry.ids begun newer ∧ .epochBegan ∉ newer := by
  have h := reachable_after b config run
  obtain ⟨newer, begun, older, hhistory, hcomputes, hepoch⟩ := h.traced.entries key entry hentry
  have hcurrent : entry.epoch = (after b config run).cache.epoch := by
    rcases h.current_or_doomed hentry with hcurrent | hpending | ⟨r, hr, -⟩
    · exact hcurrent
    · exact absurd whole (Nat.ne_of_gt hpending)
    · have hheld := h.inFlight.perm.mem_iff.mpr (List.mem_map_of_mem hr)
      rw [quiet] at hheld
      exact absurd hheld List.not_mem_nil
  refine ⟨newer, begun, older, hhistory, hcomputes, fun hmem => ?_⟩
  have hpos := List.count_pos_iff.mpr hmem
  rw [hepoch, h.traced.epoch, hhistory, List.count_append, List.count_cons] at hcurrent
  omega

/-- A refresh passes its first check, the cache is invalidated, and the refresh enters its answer
and takes it back before the key is loaded again. -/
theorem computed_in_current_epoch_of_late_refresh :
    let b : Backend IdSet := ⟨fun _ _ _ s => (.ok s, s), fun _ s => (.ok s, s)⟩
    let key : CacheKey := .all "shoe"
    let old : IdSet := IdSet.insert 7 ∅
    let new : IdSet := IdSet.insert 8 ∅
    let early : List (Moment IdSet) :=
      [⟨old, .fetch 0 key⟩, ⟨old, .startRefresh key⟩, ⟨old, .advance 1 0⟩, ⟨new, .advance 2 0⟩,
        ⟨new, .beginEpoch⟩, ⟨new, .dropEntries⟩, ⟨new, .advance 3 0⟩, ⟨new, .advance 4 0⟩,
        ⟨new, .advance 5 0⟩]
    let ch := after b .standard (early ++ [⟨new, .fetch 6 key⟩])
    ch.cache.inFlight = [] ∧ pendingInvalidations ch.history = 0 ∧
      ch.cache.entries[key]? = some ⟨new, 6, 1⟩ ∧
        ∃ newer begun older, ch.history = newer ++ begun :: older ∧
          Computes key new begun newer ∧ .epochBegan ∉ newer := by
  intro b key old new early ch
  have hearly : after b .standard early =
      ⟨{ PredicateCache.empty .standard with
          entries := (Std.HashMap.insert ∅ key ⟨old, 3, 0⟩).erase key
          epoch := 1
          stats := ⟨1, 0, 0⟩ },
        [.released key, .withdrawn key, .entered key old, .entriesDropped, .epochBegan,
          .refreshStarted key, .loaded key old]⟩ := by
    rw [after, List.foldl_cons, next_fetch_of_none (entries_start _ key)]
    rfl
  have hch : ch = next b (after b .standard early) ⟨new, .fetch 6 key⟩ :=
    List.foldl_concat ..
  have hmissing : (after b .standard early).cache.entries[key]? = none := by
    rw [hearly]
    exact Std.HashMap.getElem?_erase_self
  rw [next_fetch_of_none hmissing, hearly] at hch
  have hquiet : ch.cache.inFlight = [] := by rw [hch]; rfl
  have hwhole : pendingInvalidations ch.history = 0 := by rw [hch]; rfl
  have hentry : ch.cache.entries[key]? = some ⟨new, 6, 1⟩ := by
    rw [hch]
    exact Std.HashMap.getElem?_insert_self
  exact ⟨hquiet, hwhole, hentry,
    computed_in_current_epoch b .standard _ hquiet hwhole hentry⟩

end Chronicle
end FacetQuery
