import FacetQuery.Proofs.Cache.History

/-!
# Entries and their history

The entries of a cache can be read off its history.  A key has an entry if it has been loaded or
entered and its entry has not been taken away since; the set of the entry is the one that was
loaded or entered last (`recorded`, `Reachable.entry_ids`).

`EntryChange` is what a single step can do to the entry of one key.
-/

namespace FacetQuery

variable {σ : Type} {b : Backend σ} {c c' : PredicateCache} {event : Option CacheEvent}
  {key : CacheKey}

/-! ### Events that touch an entry -/

/-- The event gives an entry to the key, or takes the entry of the key away. -/
def CacheEvent.Touches (key : CacheKey) : CacheEvent → Prop
  | loaded k _ | entered k _ | withdrawn k => k = key
  | entriesDropped => True
  | _ => False

/-- What a step can do to the entry of a key, and the event by which it shows. -/
inductive EntryChange {σ : Type} (b : Backend σ) (c : PredicateCache) (key : CacheKey) :
    Option CacheEvent → Option CachedSet → Prop where
  | stay {event : Option CacheEvent} {entry : Option CachedSet}
      (untouched : ∀ e, event = some e → ¬ e.Touches key) (same : entry = c.entries[key]?) :
      EntryChange b c key event entry
  | load (now : Nat) (ids : IdSet) (missing : c.entries[key]? = none)
      (answered : b.Answers key (.ok ids)) :
      EntryChange b c key (some (.loaded key ids)) (some ⟨ids, now, c.epoch⟩)
  | enter (now : Nat) {r : Refresh} {ids : IdSet} (running : r ∈ c.running)
      (refreshed : r.key = key) (phase : r.phase = .accepted ids) :
      EntryChange b c key (some (.entered key ids)) (some ⟨ids, now, r.startedIn⟩)
  | withdraw : EntryChange b c key (some (.withdrawn key)) none
  | drop : EntryChange b c key (some .entriesDropped) none

/-- A step whose event is about another key, or about no entry at all. -/
theorem EntryChange.of_eq {e : CacheEvent} {entry : Option CachedSet} (untouched : ¬ e.Touches key)
    (same : entry = c.entries[key]?) : EntryChange b c key (some e) entry :=
  .stay (fun _ he => Option.some.inj he ▸ untouched) same

/-- **Any step** changes the entry of a key in one of these ways. -/
theorem Transition.entryChange (t : Transition b c event c') (key : CacheKey) :
    EntryChange b c key event c'.entries[key]? := by
  cases t with
  | stay => exact .stay (fun _ he => nomatch he) rfl
  | load now k ids missing answered =>
      change EntryChange b c key _ (c.entries.insert k ⟨ids, now, c.epoch⟩)[key]?
      by_cases hk : k = key
      · subst hk
        rw [Std.HashMap.getElem?_insert_self]
        exact .load now ids missing answered
      · exact .of_eq hk (by rw [Std.HashMap.getElem?_insert, if_neg (by simpa using hk)])
  | failLoad now k error missing answered => exact .of_eq id rfl
  | start k free => exact .of_eq id rfl
  | answer answer running phase answered => exact .stay (fun _ he => nomatch he) rfl
  | failRefresh running phase => exact .of_eq id rfl
  | overtake running phase late => exact .of_eq id rfl
  | accept running phase current => exact .stay (fun _ he => nomatch he) rfl
  | @enter now before behind r ids running phase =>
      change EntryChange b c key _ (c.entries.insert r.key ⟨ids, now, r.startedIn⟩)[key]?
      by_cases hk : r.key = key
      · subst hk
        rw [Std.HashMap.getElem?_insert_self]
        exact .enter now (running ▸ List.mem_append_cons_self) rfl phase
      · exact .of_eq hk (by rw [Std.HashMap.getElem?_insert, if_neg (by simpa using hk)])
  | keep running phase current => exact .of_eq id rfl
  | @withdraw before behind r running phase late =>
      change EntryChange b c key _ (c.entries.erase r.key)[key]?
      by_cases hk : r.key = key
      · subst hk
        rw [Std.HashMap.getElem?_erase_self]
        exact .withdraw
      · exact .of_eq hk (by rw [Std.HashMap.getElem?_erase, if_neg (by simpa using hk)])
  | release running phase => exact .of_eq id rfl
  | beginEpoch => exact .of_eq id rfl
  | dropEntries =>
      change EntryChange b c key _ (∅ : Std.HashMap CacheKey CachedSet)[key]?
      rw [Std.HashMap.getElem?_empty]
      exact .drop

/-! ### What a history says of an entry -/

/-- The set that a history gives to a key, if any: the one loaded or entered last, unless it has
been taken away since. -/
def recorded (key : CacheKey) : List CacheEvent → Option IdSet
  | [] => none
  | .loaded k ids :: older | .entered k ids :: older =>
    if k = key then some ids else recorded key older
  | .withdrawn k :: older => if k = key then none else recorded key older
  | .entriesDropped :: _ => none
  | _ :: older => recorded key older

theorem recorded_cons_of_not_touches {e : CacheEvent} (h : ¬ e.Touches key)
    (older : List CacheEvent) : recorded key (e :: older) = recorded key older := by
  cases e with
  | loaded k ids => exact if_neg h
  | entered k ids => exact if_neg h
  | withdrawn k => exact if_neg h
  | entriesDropped => exact absurd trivial h
  | _ => rfl

/-- A set stays recorded unless its entry is taken away. -/
theorem recorded_append_ne_none {older : List CacheEvent} (h : recorded key older ≠ none)
    {newer : List CacheEvent} (dropped : .entriesDropped ∉ newer)
    (withdrawn : .withdrawn key ∉ newer) :
    recorded key (newer ++ older) ≠ none := by
  induction newer with
  | nil => exact h
  | cons e newer ih =>
      have hrest := ih (fun hmem => dropped (List.mem_cons_of_mem e hmem)) fun hmem =>
        withdrawn (List.mem_cons_of_mem e hmem)
      by_cases htouches : e.Touches key
      · rw [List.cons_append]
        cases e with
        | loaded k ids => exact (if_pos htouches).trans_ne nofun
        | entered k ids => exact (if_pos htouches).trans_ne nofun
        | withdrawn k => exact absurd (htouches ▸ List.mem_cons_self) withdrawn
        | entriesDropped => exact absurd List.mem_cons_self dropped
        | _ => exact absurd htouches id
      · rw [List.cons_append, recorded_cons_of_not_touches htouches]
        exact hrest

namespace Chronicle

variable {ch : Chronicle}

theorem entries_start (config : CacheConfig) (key : CacheKey) :
    (start config).cache.entries[key]? = none :=
  Std.HashMap.getElem?_empty

/-- **The entries are what the history says.** -/
theorem Reachable.entry_ids (h : ch.Reachable b) (key : CacheKey) :
    ch.cache.entries[key]?.map CachedSet.ids = recorded key ch.history := by
  induction h with
  | start config => exact congrArg (Option.map CachedSet.ids) (entries_start config key)
  | @step ch event c' _ t ih =>
      have hentry := t.entryChange key
      dsimp only
      generalize c'.entries[key]? = entry at hentry
      cases hentry with
      | stay untouched same =>
          rw [same, ih]
          cases event with
          | none => rfl
          | some e => exact (recorded_cons_of_not_touches (untouched e rfl) _).symm
      | load now ids missing answered => exact (if_pos rfl).symm
      | enter now running refreshed phase => exact (if_pos rfl).symm
      | withdraw => exact (if_pos rfl).symm
      | drop => rfl

end Chronicle
end FacetQuery
