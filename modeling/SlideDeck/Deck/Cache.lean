import SlideDeck.Deck.Basic

/-! # The cache of renderings

A cache keeps the latest rendering of each slide for each viewport, and counts
how often it was asked and had one.

A `Rendering` carries a serial number beside the slide.  Two answers are the
same object, and not just equal, exactly if their serial numbers agree. -/

namespace SlideDeck

/-- A rendered slide and the serial number of its layout. -/
structure Rendering where
  serial : Nat
  slide : RenderedSlide
deriving Inhabited

/-- What a rendering is kept under: the place of the slide in the deck, and the viewport. -/
structure CacheKey where
  index : Nat
  viewport : Viewport
deriving DecidableEq

/-- Renderings by key, and how many searches found one or found none. -/
structure Cache where
  entries : List (CacheKey × Rendering) := []
  hits : Nat := 0
  misses : Nat := 0
deriving Inhabited

namespace Cache

/-- The rendering under a key. -/
def get? (c : Cache) (key : CacheKey) : Option Rendering :=
  (c.entries.find? fun e => e.1 = key).map Prod.snd

/-- Search for a rendering, and count the search. -/
def find (c : Cache) (index : Nat) (v : Viewport) : Option Rendering × Cache :=
  match c.get? ⟨index, v⟩ with
  | some r => (some r, { c with hits := c.hits + 1 })
  | none => (none, { c with misses := c.misses + 1 })

/-- Keep a rendering under its slide's index, in the place of any earlier one; nothing to keep
changes nothing. -/
def store (c : Cache) (v : Viewport) : Option Rendering → Cache
  | none => c
  | some r =>
      let key := ⟨r.slide.index, v⟩
      { c with entries := (key, r) :: c.entries.filter fun e => e.1 ≠ key }

def size (c : Cache) : Nat :=
  c.entries.length

/-- Forget all renderings, and start counting afresh. -/
def clear (_ : Cache) : Cache :=
  {}

/-! ## The view -/

@[simp] theorem get?_find (c : Cache) (index : Nat) (v : Viewport) (key : CacheKey) :
    (c.find index v).2.get? key = c.get? key := by
  unfold find; split <;> rfl

@[simp] theorem get?_store (c : Cache) (v : Viewport) (r : Rendering) (key : CacheKey) :
    (c.store v (some r)).get? key = if ⟨r.slide.index, v⟩ = key then some r else c.get? key := by
  by_cases equal : (⟨r.slide.index, v⟩ : CacheKey) = key
  · simp [store, get?, equal]
  · have kept : ∀ e : CacheKey × Rendering,
        (!decide (e.1 = ⟨r.slide.index, v⟩) && decide (e.1 = key)) = decide (e.1 = key) := by
      intro e
      by_cases h : e.1 = key
      · simp [h, Ne.symm equal]
      · simp [h]
    simp [store, get?, equal, List.find?_filter, kept]

end Cache

end SlideDeck
