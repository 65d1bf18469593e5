import Mathlib.Data.Finset.Card
import Mathlib.Data.List.DropRight
import Mathlib.Data.List.Induction
import SlideDeck.Deck.Cache

/-! # A cache as its history

Everything that a cache tells is a function of what has been done to it since it
was last cleared (`Cache.history_told`).

* `Cache.log` lists the requests of a history, each with its answer.
* `Mirrors` says of a cache and a log what the cache tells of it, and
  `Mirrors.perform` is one step of that.
* `entries_after`: a cache answers by its entries alone, and these only change
  where something is stored or all is forgotten.

A later rendering of a slide replaces an earlier one, and a cleared cache counts
afresh.  The latest request decides what those before it still mean, and so a log
is read backwards. -/

namespace SlideDeck.Cache

/-! ## Requests -/

/-- What can be asked of a cache. -/
inductive Request where
  | find (index : Nat) (viewport : Viewport)
  | store (viewport : Viewport) (rendering : Option Rendering)
  | clear

namespace Request

def isClear : Request → Bool
  | clear => true
  | _ => false

def isFind : Request → Bool
  | find .. => true
  | _ => false

/-- The rendering that a request stores, under the index of its own slide. -/
def stored? : Request → Option (CacheKey × Rendering)
  | store v (some r) => some (⟨r.slide.index, v⟩, r)
  | _ => none

end Request

/-- The cache after a request. -/
def perform (c : Cache) : Request → Cache
  | .find index v => (c.find index v).2
  | .store v rendering => c.store v rendering
  | .clear => c.clear

/-- What a request is answered with; only searches have an answer. -/
def answer (c : Cache) : Request → Option Rendering
  | .find index v => (c.find index v).1
  | _ => none

/-- The cache after some requests. -/
def after (c : Cache) (history : List Request) : Cache :=
  history.foldl perform c

/-! ## Logs -/

/-- A request and what it was answered with. -/
structure Turn where
  request : Request
  answer : Option Rendering

/-- The turns of some requests, of which the first is made to the given cache. -/
def log (c : Cache) : List Request → List Turn
  | [] => []
  | q :: history => ⟨q, c.answer q⟩ :: (c.perform q).log history

/-- The turns since the cache was last cleared. -/
def recent (turns : List Turn) : List Turn :=
  turns.rtakeWhile fun t => !t.request.isClear

/-- What was stored since the cache was last cleared, by key. -/
def storedRecently (turns : List Turn) : List (CacheKey × Rendering) :=
  (recent turns).filterMap fun t => t.request.stored?

/-- The rendering that was stored last under a key since the cache was last cleared. -/
def latest? (turns : List Turn) (key : CacheKey) : Option Rendering :=
  ((storedRecently turns).reverse.find? fun e => e.1 = key).map Prod.snd

/-- The number of searches since the cache was last cleared that found something, or that found
nothing. -/
def searches (turns : List Turn) (found : Bool) : Nat :=
  (recent turns).countP fun t => t.request.isFind && t.answer.isSome == found

/-- What a cache tells of a log. -/
structure Mirrors (c : Cache) (turns : List Turn) : Prop where
  latest : ∀ key, c.get? key = latest? turns key
  once : (c.entries.map Prod.fst).Nodup
  keys : ∀ key, key ∈ c.entries.map Prod.fst ↔ key ∈ (storedRecently turns).map Prod.fst
  hits : c.hits = searches turns true
  misses : c.misses = searches turns false

variable {c : Cache} {turns : List Turn}

/-! ## One more turn -/

theorem recent_clear (answer : Option Rendering) : recent (turns ++ [⟨.clear, answer⟩]) = [] :=
  List.rtakeWhile_concat_neg _ _ _ Bool.false_ne_true

theorem recent_concat {t : Turn} (stays : t.request.isClear = false) :
    recent (turns ++ [t]) = recent turns ++ [t] :=
  List.rtakeWhile_concat_pos _ _ _ (by simp [stays])

theorem searches_concat {t : Turn} (stays : t.request.isClear = false) (found : Bool) :
    searches (turns ++ [t]) found
      = searches turns found + if t.request.isFind && t.answer.isSome == found then 1 else 0 := by
  rw [searches, searches, recent_concat stays, List.countP_append, List.countP_singleton]

theorem storedRecently_concat {t : Turn} (stays : t.request.isClear = false) :
    storedRecently (turns ++ [t]) = storedRecently turns ++ t.request.stored?.toList := by
  rw [storedRecently, storedRecently, recent_concat stays, List.filterMap_append]
  cases stored : t.request.stored? <;> simp [stored]

theorem latest?_concat {t : Turn} (stays : t.request.isClear = false) (key : CacheKey) :
    latest? (turns ++ [t]) key = t.request.stored?.elim (latest? turns key)
      fun e => if e.1 = key then some e.2 else latest? turns key := by
  rw [latest?, latest?, storedRecently_concat stays, List.reverse_append, List.find?_append]
  cases stored : t.request.stored? with
  | none => simp
  | some e => by_cases equal : e.1 = key <;> simp [equal]

theorem find_fst (c : Cache) (index : Nat) (v : Viewport) :
    (c.find index v).1 = c.get? ⟨index, v⟩ := by
  rw [find]
  split <;> simp [*]

theorem entries_find (c : Cache) (index : Nat) (v : Viewport) :
    (c.find index v).2.entries = c.entries := by
  rw [find]
  split <;> rfl

theorem mirrors_empty : Mirrors {} [] where
  latest _ := rfl
  once := List.nodup_nil
  keys _ := Iff.rfl
  hits := rfl
  misses := rfl

theorem Mirrors.cleared (c : Cache) (answer : Option Rendering) :
    Mirrors c.clear (turns ++ [⟨.clear, answer⟩]) := by
  have forgotten : storedRecently (turns ++ [⟨.clear, answer⟩]) = [] := by
    rw [storedRecently, recent_clear, List.filterMap_nil]
  refine ⟨fun key => ?_, List.nodup_nil, fun key => ?_, ?_, ?_⟩
  · rw [latest?, forgotten]
    rfl
  · rw [forgotten]
    rfl
  all_goals
    rw [searches, recent_clear]
    rfl

theorem Mirrors.searched (h : Mirrors c turns) (index : Nat) (v : Viewport) :
    Mirrors (c.find index v).2 (turns ++ [⟨.find index v, (c.find index v).1⟩]) := by
  have entries := entries_find c index v
  refine ⟨fun key => ?_, entries ▸ h.once, fun key => ?_, ?_, ?_⟩
  · rw [get?_find, h.latest, latest?_concat rfl]
    rfl
  · rw [entries, h.keys, storedRecently_concat rfl]
    simp [Request.stored?]
  all_goals
    rw [searches_concat rfl, find]
    cases c.get? ⟨index, v⟩ <;> simp [Request.isFind, h.hits, h.misses]

theorem Mirrors.unchanged (h : Mirrors c turns) (v : Viewport) :
    Mirrors c (turns ++ [⟨.store v none, none⟩]) := by
  refine ⟨fun key => ?_, h.once, fun key => ?_, ?_, ?_⟩
  · rw [h.latest, latest?_concat rfl]
    rfl
  · rw [h.keys, storedRecently_concat rfl]
    simp [Request.stored?]
  all_goals
    rw [searches_concat rfl]
    simp [Request.isFind, h.hits, h.misses]

/-- The entry of a key is replaced, so every key stays that of one entry. -/
theorem Mirrors.stored (h : Mirrors c turns) (v : Viewport) (r : Rendering) :
    Mirrors (c.store v (some r)) (turns ++ [⟨.store v (some r), none⟩]) := by
  refine ⟨fun key => ?_, ?_, fun key => ?_, ?_, ?_⟩
  · rw [get?_store, h.latest, latest?_concat rfl]
    rfl
  · rw [store, List.map_cons, List.nodup_cons]
    refine ⟨fun among => ?_, h.once.sublist (List.filter_sublist.map _)⟩
    obtain ⟨e, kept, equal⟩ := List.mem_map.1 among
    exact absurd equal (of_decide_eq_true (List.mem_filter.1 kept).2)
  · rw [storedRecently_concat rfl, List.map_append, List.mem_append, ← h.keys]
    by_cases equal : key = ⟨r.slide.index, v⟩ <;> simp [store, Request.stored?, equal]
  all_goals
    rw [searches_concat rfl]
    simp [Request.isFind, store, h.hits, h.misses]

theorem Mirrors.perform (h : Mirrors c turns) (q : Request) :
    Mirrors (c.perform q) (turns ++ [⟨q, c.answer q⟩]) := by
  cases q with
  | find index v => exact h.searched index v
  | clear => exact .cleared c none
  | store v rendering =>
    cases rendering with
    | some r => exact h.stored v r
    | none => exact h.unchanged v

/-! ## Whole histories -/

theorem log_concat (c : Cache) (history : List Request) (q : Request) :
    c.log (history ++ [q]) = c.log history ++ [⟨q, (c.after history).answer q⟩] := by
  induction history generalizing c with
  | nil => rfl
  | cons first history ih => exact congrArg (_ :: ·) (ih (c.perform first))

theorem mirrors_log (history : List Request) :
    Mirrors (after {} history) (log {} history) := by
  induction history using List.reverseRecOn with
  | nil => exact mirrors_empty
  | append_singleton history q ih =>
    rw [log_concat, after, List.foldl_append]
    exact ih.perform q

/-- A request that changes no entry: a search, or storing nothing. -/
def Request.Idle : Request → Prop
  | find .. => True
  | store _ none => True
  | _ => False

theorem Request.Idle.entries {q : Request} (idle : q.Idle) (c : Cache) :
    (c.perform q).entries = c.entries := by
  cases q with
  | find index v => exact entries_find c index v
  | store v rendering =>
    cases rendering with
    | none => rfl
    | some r => cases idle
  | clear => cases idle

theorem entries_perform {d : Cache} (same : c.entries = d.entries) (q : Request) :
    (c.perform q).entries = (d.perform q).entries := by
  cases q with
  | find index v => exact (entries_find c index v).trans (same.trans (entries_find d index v).symm)
  | store v rendering =>
    cases rendering with
    | none => exact same
    | some r => simp [perform, store, same]
  | clear => rfl

/-- What requests leave in a cache depends on its entries alone. -/
theorem entries_after {d : Cache} (same : c.entries = d.entries) (history : List Request) :
    (c.after history).entries = (d.after history).entries := by
  induction history generalizing c d with
  | nil => exact same
  | cons q history ih => exact ih (entries_perform same q)

theorem find_of_entries {d : Cache} (same : c.entries = d.entries) (index : Nat) (v : Viewport) :
    (c.find index v).1 = (d.find index v).1 := by
  rw [find_fst, find_fst, get?, get?, same]

/-- **A cache is its history.**  After any requests to an empty cache, a search finds what was stored
last under that index and viewport since the cache was last cleared, and nothing if nothing was; the
size is the number of keys that something was stored under since then, and hits and misses count the
searches since then that found something and that found nothing.  A search, or storing nothing,
changes no answer to any later search, whatever is asked in between. -/
theorem history_told (history : List Request) :
    let c := after {} history
    let turns := log {} history
    (∀ index v, (c.find index v).1 = latest? turns ⟨index, v⟩) ∧
      c.size = ((storedRecently turns).map Prod.fst).toFinset.card ∧
      c.hits = searches turns true ∧ c.misses = searches turns false ∧
      ∀ q : Request, q.Idle → ∀ later index v,
        ((after {} (history ++ q :: later)).find index v).1
          = ((after {} (history ++ later)).find index v).1 := by
  intro c turns
  have told : Mirrors c turns := mirrors_log history
  refine ⟨fun index v => ?_, ?_, told.hits, told.misses, fun q idle later index v => ?_⟩
  · rw [find_fst, told.latest]
  · have same : ((storedRecently turns).map Prod.fst).toFinset = (c.entries.map Prod.fst).toFinset :=
      Finset.ext fun key => by rw [List.mem_toFinset, List.mem_toFinset, told.keys]
    rw [same, List.toFinset_card_of_nodup told.once, List.length_map, size]
  · rw [after, after, List.foldl_append, List.foldl_append]
    exact find_of_entries (entries_after (idle.entries c) later) index v

end SlideDeck.Cache
