import FacetQuery.Proofs.Cache.History
import Mathlib.Data.List.Nodup
import Mathlib.Data.List.Perm.Basic

/-!
# The keys in flight

The cache keeps two lists on its refreshes, the refreshes themselves and the keys of which no
other refresh may start.  Both grow when a refresh starts and shrink when one lets go of its key,
and at no other step (`RunningChange`).  So they always agree: the keys in flight are the keys of
the refreshes that run, each once, and they are the keys of which the history tells a start
without the release that belongs to it (`Chronicle.InFlight`).
-/

namespace FacetQuery

variable {σ : Type} {b : Backend σ} {c c' : PredicateCache} {event : Option CacheEvent}
  {before behind : List Refresh} {r : Refresh} {key : CacheKey}

/-! ### What a step does to refreshes -/

/-- What a refresh has in hand is an answer of the backend for its key. -/
def Refresh.Informed {σ : Type} (b : Backend σ) (r : Refresh) : Prop :=
  match r.phase with
  | .answered answer => b.Answers r.key answer
  | .accepted ids => b.Answers r.key (.ok ids)
  | _ => True

/-- What a step can do to the refreshes and their keys, and the event by which it shows. -/
inductive RunningChange {σ : Type} (b : Backend σ) (c : PredicateCache) :
    Option CacheEvent → List CacheKey → List Refresh → Prop where
  | stay {event : Option CacheEvent}
      (other : ∀ key, event ≠ some (.refreshStarted key) ∧ event ≠ some (.released key)) :
      RunningChange b c event c.inFlight c.running
  | start (key : CacheKey) (free : key ∉ c.inFlight) :
      RunningChange b c (some (.refreshStarted key)) (key :: c.inFlight)
        (c.running ++ [⟨key, c.epoch, .waiting⟩])
  /-- A refresh goes on to another phase.  One that has entered its answer too late has to take it
  back. -/
  | move {event : Option CacheEvent} {before behind : List Refresh} {r : Refresh}
      (phase : RefreshPhase) (running : c.running = before ++ r :: behind)
      (other : ∀ key, event ≠ some (.refreshStarted key) ∧ event ≠ some (.released key))
      (entered : r.phase = .entered → c.epoch ≠ r.startedIn → event = some (.withdrawn r.key))
      (informed : r.Informed b → (r.inPhase phase).Informed b) :
      RunningChange b c event c.inFlight (before ++ r.inPhase phase :: behind)
  | release {before behind : List Refresh} {r : Refresh} {result : RefreshEnd}
      (running : c.running = before ++ r :: behind) (phase : r.phase = .ended result) :
      RunningChange b c (some (.released r.key)) (c.inFlight.erase r.key) (before ++ behind)

/-- **Any step** changes the refreshes in one of these ways. -/
theorem Transition.runningChange (t : Transition b c event c') :
    RunningChange b c event c'.inFlight c'.running := by
  cases t with
  | stay => exact .stay fun _ => ⟨nofun, nofun⟩
  | load now key ids missing answered => exact .stay fun _ => ⟨nofun, nofun⟩
  | failLoad now key error missing answered => exact .stay fun _ => ⟨nofun, nofun⟩
  | start key free => exact .start key free
  | answer answer running phase answered =>
      exact .move _ running (fun _ => ⟨nofun, nofun⟩) (fun h => nomatch phase.symm.trans h)
        fun _ => answered
  | failRefresh running phase =>
      exact .move _ running (fun _ => ⟨nofun, nofun⟩) (fun h => nomatch phase.symm.trans h)
        fun _ => trivial
  | overtake running phase late =>
      exact .move _ running (fun _ => ⟨nofun, nofun⟩) (fun h => nomatch phase.symm.trans h)
        fun _ => trivial
  | accept running phase current =>
      refine .move _ running (fun _ => ⟨nofun, nofun⟩) (fun h => nomatch phase.symm.trans h)
        fun informed => ?_
      rw [Refresh.Informed, phase] at informed
      exact informed
  | enter now running phase =>
      exact .move _ running (fun _ => ⟨nofun, nofun⟩) (fun h => nomatch phase.symm.trans h)
        fun _ => trivial
  | keep running phase current =>
      exact .move _ running (fun _ => ⟨nofun, nofun⟩) (fun _ late => absurd current late)
        fun _ => trivial
  | withdraw running phase late =>
      exact .move _ running (fun _ => ⟨nofun, nofun⟩) (fun _ _ => rfl) fun _ => trivial
  | release running phase => exact .release running phase
  | beginEpoch => exact .stay fun _ => ⟨nofun, nofun⟩
  | dropEntries => exact .stay fun _ => ⟨nofun, nofun⟩

/-- A refresh that runs after a step ran before it, or has just started, or has gone on from
another phase. -/
theorem RunningChange.origin {inFlight : List CacheKey} {running : List Refresh}
    (h : RunningChange b c event inFlight running) (hr : r ∈ running) :
    r ∈ c.running ∨ (event = some (.refreshStarted r.key) ∧ r = ⟨r.key, c.epoch, .waiting⟩) ∨
      ∃ r₀ ∈ c.running, ∃ phase, r = r₀.inPhase phase ∧ (r₀.Informed b → r.Informed b) := by
  cases h with
  | stay other => exact .inl hr
  | start k free =>
      rcases List.mem_append.mp hr with hr | hr
      · exact .inl hr
      · rw [List.mem_singleton.mp hr]
        exact .inr (.inl ⟨rfl, rfl⟩)
  | @move _ before behind r₀ phase running other entered informed =>
      rw [running]
      rcases List.mem_append.mp hr with hr | hr
      · exact .inl (List.mem_append_left _ hr)
      rcases List.mem_cons.mp hr with rfl | hr
      · exact .inr (.inr ⟨r₀, List.mem_append_cons_self, phase, rfl, informed⟩)
      · exact .inl (List.mem_append_right _ (List.mem_cons_of_mem _ hr))
  | @release before behind r₀ result running phase =>
      rw [running]
      exact .inl (((List.sublist_cons_self r₀ behind).append_left before).subset hr)

/-- A refresh keeps its key in all phases. -/
theorem keys_replace (running : c.running = before ++ r :: behind) (phase : RefreshPhase) :
    (before ++ r.inPhase phase :: behind).map Refresh.key = c.running.map Refresh.key := by
  rw [running, List.map_append, List.map_append, List.map_cons, List.map_cons]
  rfl

/-- An event of another kind does not count. -/
theorem count_toList_append {e : CacheEvent} (other : event ≠ some e)
    (history : List CacheEvent) : (event.toList ++ history).count e = history.count e := by
  cases event with
  | none => rfl
  | some e' =>
      rw [Option.toList_some, List.singleton_append, List.count_cons_of_ne]
      exact fun he => other (congrArg some he)

/-! ### The keys of refreshes -/

namespace Chronicle

variable {ch : Chronicle}

/-- The keys in flight are those of the running refreshes, each once, and those of which the
history tells one more start than releases. -/
structure InFlight (ch : Chronicle) : Prop where
  perm : ch.cache.inFlight.Perm (ch.cache.running.map Refresh.key)
  nodup : ch.cache.inFlight.Nodup
  count : ∀ key, ch.history.count (.refreshStarted key) =
    ch.history.count (.released key) + ch.cache.inFlight.count key

theorem inFlight_start (config : CacheConfig) : (start config).InFlight :=
  ⟨.nil, List.nodup_nil, fun _ => rfl⟩

/-- There is at most one refresh for each key. -/
theorem InFlight.nodup_keys (h : ch.InFlight) : (ch.cache.running.map Refresh.key).Nodup :=
  h.perm.nodup_iff.mp h.nodup

theorem InFlight.key_ne (h : ch.InFlight) (running : ch.cache.running = before ++ r :: behind) :
    ∀ q ∈ before ++ behind, q.key ≠ r.key := by
  have hkeys := h.nodup_keys
  rw [running, List.map_append, List.map_cons, List.nodup_middle, List.nodup_cons,
    ← List.map_append] at hkeys
  exact fun q hq he => hkeys.1 (he ▸ List.mem_map_of_mem hq)

theorem InFlight.count_of_other (h : ch.InFlight)
    (other : ∀ key, event ≠ some (.refreshStarted key) ∧ event ≠ some (.released key))
    (key : CacheKey) : (event.toList ++ ch.history).count (.refreshStarted key) =
      (event.toList ++ ch.history).count (.released key) + ch.cache.inFlight.count key := by
  rw [count_toList_append (other key).1, count_toList_append (other key).2]
  exact h.count key

/-- **Every step** keeps the keys in flight right. -/
theorem InFlight.step (h : ch.InFlight) (t : Transition b ch.cache event c) :
    InFlight ⟨c, event.toList ++ ch.history⟩ := by
  have hchange := t.runningChange
  rcases c with ⟨_, _, inFlight, running', _, _, _⟩
  dsimp only at hchange
  cases hchange with
  | stay other => exact ⟨h.perm, h.nodup, h.count_of_other other⟩
  | start key free =>
      -- The new key is free, so it stays the only one of its kind.
      refine ⟨?_, List.nodup_cons.mpr ⟨free, h.nodup⟩, fun other => ?_⟩
      · rw [List.map_append]
        exact (h.perm.cons key).trans (List.perm_append_singleton key _).symm
      · rw [Option.toList_some, List.singleton_append, List.count_cons, List.count_cons, h.count,
          List.count_cons]
        simp only [beq_iff_eq, CacheEvent.refreshStarted.injEq, reduceCtorEq, if_false]
        omega
  | move phase running other entered informed =>
      exact ⟨(keys_replace running phase).symm ▸ h.perm, h.nodup, h.count_of_other other⟩
  | @release before behind r result running phase =>
      have perm : ch.cache.inFlight.Perm (r.key :: (before ++ behind).map Refresh.key) := by
        refine h.perm.trans ?_
        rw [running, List.map_append, List.map_cons, List.map_append]
        exact List.perm_middle
      have held : r.key ∈ ch.cache.inFlight := perm.mem_iff.mpr List.mem_cons_self
      refine ⟨?_, h.nodup.erase r.key, fun other => ?_⟩
      · exact ((List.perm_cons_erase held).symm.trans perm).cons_inv
      · rw [Option.toList_some, List.singleton_append, List.count_cons, List.count_cons, h.count]
        simp only [beq_iff_eq, CacheEvent.released.injEq, reduceCtorEq, if_false]
        split
        · rename_i hkey
          -- The released key was in flight, so taking it out lowers its count by one.
          have hone := List.count_pos_iff.mpr held
          rw [← hkey, List.count_erase_self]
          omega
        · rename_i hkey
          rw [List.count_erase_of_ne (Ne.symm hkey)]
          omega

theorem Reachable.inFlight (h : ch.Reachable b) : ch.InFlight := by
  induction h with
  | start config => exact inFlight_start config
  | step _ t ih => exact ih.step t

end Chronicle
end FacetQuery
