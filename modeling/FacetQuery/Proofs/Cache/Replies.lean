import FacetQuery.Proofs.Cache.Actions
import FacetQuery.Proofs.Cache.Faithful

/-!
# What a backend replies

A key is a question in the words of the cache.  `Backend.Replies` says what it asks for in the words
of the backend: the records of a type with a value that matches, if the value is something to look
up, or all records of a type.  A value that is nothing to look up is replied to with its defect, and
the backend does not come to know of it.

Readings and refreshes are compared with this relation.  It says nothing of how a cache comes by a
reply; `Backend.replies_iff` is the only place where the two are set against each other.

What becomes of a reply is a matter of the cache.  A load hands it to the caller
(`Chronicle.next_fetch_of_replies`), and a refresh that is let run to its end leaves behind what
`PredicateCache.conclude` makes of it (`Chronicle.Runs.finish_of_receives`).
-/

namespace FacetQuery

variable {σ : Type} {b : Backend σ} {c : PredicateCache} {key : CacheKey}
  {reply reply' : Except LookupError IdSet} {s s' t t' : σ} {now : Nat}

/-! ### Replies -/

namespace Backend

/-- A backend that is found in the state `s` replies to a key, and is left in the state `s'`. -/
inductive Replies (b : Backend σ) (s : σ) : CacheKey → Except LookupError IdSet → σ → Prop where
  | lookup {entityType property : String} {value : Value} {m : ValueMatch}
      {reply : Except LookupError IdSet} {s' : σ} (classified : ValueMatch.classify value = .ok m)
      (asked : (b.lookup entityType property m).run s = (reply, s')) :
      Replies b s (.predicate entityType property value) reply s'
  /-- Nobody is asked for a value that is nothing to look up. -/
  | defect {entityType property : String} {value : Value} {e : RangeError}
      (unclassified : ValueMatch.classify value = .error e) :
      Replies b s (.predicate entityType property value) (.error (.invalidValue e)) s
  | allRecords {entityType : String} {reply : Except LookupError IdSet} {s' : σ}
      (asked : (b.allRecords entityType).run s = (reply, s')) :
      Replies b s (.all entityType) reply s'

/-- The cache gets the reply to a key by asking for its answer. -/
theorem replies_iff : b.Replies s key reply s' ↔ (b.answer key).run s = (reply, s') := by
  constructor
  · intro h
    cases h with
    | lookup classified asked =>
        rw [answer, classified]
        exact asked
    | defect unclassified =>
        rw [answer, unclassified]
        rfl
    | allRecords asked => exact asked
  · intro h
    cases key with
    | predicate entityType property value =>
        rw [answer] at h
        cases hvalue : ValueMatch.classify value with
        | ok m =>
            rw [hvalue] at h
            exact .lookup hvalue h
        | error e =>
            rw [hvalue] at h
            obtain ⟨rfl, rfl⟩ := Prod.mk.inj h
            exact .defect hvalue
    | all entityType => exact .allRecords h

/-- There is a reply to every key, -/
theorem replies_answer (b : Backend σ) (s : σ) (key : CacheKey) :
    b.Replies s key ((b.answer key).run s).1 ((b.answer key).run s).2 :=
  replies_iff.mpr rfl

/-- and there is only one. -/
theorem Replies.unique (h : b.Replies s key reply s') (h' : b.Replies s key reply' t') :
    reply = reply' ∧ s' = t' :=
  Prod.mk.inj ((replies_iff.mp h).symm.trans (replies_iff.mp h'))

/-- What a step knows as an answer has been a reply. -/
theorem Answers.exists_replies (h : b.Answers key reply) : ∃ s s', b.Replies s key reply s' := by
  obtain ⟨s, rfl⟩ := h
  exact ⟨s, _, b.replies_answer s key⟩

/-- The backend tells the same in all states. -/
structure Fixed (b : Backend σ) : Prop where
  lookup : ∀ entityType property m s t,
    ((b.lookup entityType property m).run s).1 = ((b.lookup entityType property m).run t).1
  allRecords : ∀ entityType s t,
    ((b.allRecords entityType).run s).1 = ((b.allRecords entityType).run t).1

/-- A fixed backend replies to a key in one way. -/
theorem Fixed.reply_eq (fixed : b.Fixed) (h : b.Replies s key reply s')
    (h' : b.Replies t key reply' t') : reply = reply' := by
  cases h with
  | @lookup entityType property value m _ _ classified asked =>
      cases h' with
      | lookup classified' asked' =>
          obtain rfl := Except.ok.inj (classified.symm.trans classified')
          have same := fixed.lookup entityType property m s t
          rwa [asked, asked'] at same
      | defect unclassified => exact nomatch classified.symm.trans unclassified
  | defect unclassified =>
      cases h' with
      | lookup classified asked => exact nomatch classified.symm.trans unclassified
      | defect unclassified' =>
          obtain rfl := Except.error.inj (unclassified.symm.trans unclassified')
          rfl
  | @allRecords entityType _ _ asked =>
      cases h' with
      | allRecords asked' =>
          have same := fixed.allRecords entityType s t
          rwa [asked, asked'] at same

end Backend

/-- The key asks for a value that is nothing to look up. -/
def CacheKey.Unclassified : CacheKey → Prop
  | predicate _ _ value => ∃ e, ValueMatch.classify value = .error e
  | all _ => False

/-- Such a key is replied to without the backend. -/
theorem Backend.Replies.of_unclassified (h : b.Replies s key reply s') (hkey : key.Unclassified) :
    (∃ e, reply = .error (.invalidValue e)) ∧ s' = s := by
  cases h with
  | lookup classified asked =>
      obtain ⟨e, unclassified⟩ := hkey
      exact nomatch classified.symm.trans unclassified
  | @defect _ _ _ e unclassified => exact ⟨⟨e, rfl⟩, rfl⟩
  | allRecords asked => exact absurd hkey id

/-! ### Loads -/

def PredicateCache.Fetched.ofReply : Except LookupError IdSet → Fetched
  | .ok ids => .loaded ids
  | .error error => .failed error

def CacheEvent.ofLoad (key : CacheKey) : Except LookupError IdSet → CacheEvent
  | .ok ids => .loaded key ids
  | .error error => .loadFailed key error

/-- The records that the caller gets are those of the reply. -/
theorem PredicateCache.Fetched.ids_ofReply (reply : Except LookupError IdSet) :
    (ofReply reply).ids = answeredIds reply := by
  cases reply <;> rfl

theorem PredicateCache.fetch_of_replies (missing : c.entries[key]? = none)
    (h : b.Replies s key reply s') :
    (fetch b now key).run (c, s) = (.ofReply reply, (c.finishLoad now key reply).2, s') := by
  rw [fetch_of_none missing, Backend.replies_iff.mp h]
  cases reply <;> rfl

theorem PredicateCache.entries_finishLoad (c : PredicateCache) (now : Nat) (key : CacheKey)
    (reply : Except LookupError IdSet) :
    (c.finishLoad now key reply).2.entries =
      reply.toOption.elim c.entries fun ids => c.entries.insert key ⟨ids, now, c.epoch⟩ := by
  cases reply <;> rfl

namespace Chronicle

variable {ch : Chronicle} {before behind : List Refresh} {r : Refresh}

theorem next_fetch_of_some {entry : CachedSet} (h : ch.cache.entries[key]? = some entry) :
    ch.next b ⟨s, .fetch now key⟩ = ch := by
  change Chronicle.mk ((PredicateCache.fetch b now key).run (ch.cache, s)).2.1
    ((CacheStep.fetchEvent? key
      ((PredicateCache.fetch b now key).run (ch.cache, s)).1).toList ++ ch.history) = _
  rw [PredicateCache.fetch_of_some h]
  rfl

/-- A step that asks for a key without an entry is a load. -/
theorem next_fetch_of_replies (missing : ch.cache.entries[key]? = none)
    (h : b.Replies s key reply s') :
    ch.next b ⟨s, .fetch now key⟩ =
      ⟨(ch.cache.finishLoad now key reply).2, .ofLoad key reply :: ch.history⟩ := by
  rw [next_fetch_of_none missing, Backend.replies_iff.mp h]
  cases reply <;> rfl

end Chronicle

/-! ### Refreshes -/

/-- What a refresh is to get that runs to its end: the reply that it has in hand, or else the one
that the backend has for it in the state `s`. -/
def Refresh.Receives (b : Backend σ) (s : σ) (r : Refresh) (reply : Except LookupError IdSet) :
    Prop :=
  r.phase = .answered reply ∨ r.phase = .waiting ∧ ∃ s', b.Replies s r.key reply s'

/-- **What a refresh leaves behind** if nothing comes between its steps. -/
theorem Chronicle.Runs.finish_of_receives {ch : Chronicle} {before behind : List Refresh}
    {r : Refresh} (h : ch.Runs before r behind) (received : r.Receives b s reply) :
    ch.finishRefresh b s now r.key =
      ⟨(ch.cache.conclude now r reply).1.letGo (before ++ behind) r.key,
        .released r.key :: ((ch.cache.conclude now r reply).2 ++ ch.history)⟩ := by
  rcases received with phase | ⟨phase, s', hreply⟩
  · exact h.finish_of_answered phase
  · rw [h.finish_of_waiting phase, Backend.replies_iff.mp hreply]

end FacetQuery
