import Mathlib.Data.List.Basic

/-!
# Merkle roots and the branch of the first leaf

A level of the tree is reduced by combining neighbours, the last element
standing in for a missing one. The root is what is left when the reduction ends
in a single element. The branch of the first leaf lists its right neighbours
from the bottom up; it does not depend on the leaf, and folding any leaf along
it gives the root of the list with that leaf in front.
-/

namespace ReserveGrid.Support.Merkle

variable {α : Type*} (node : α → α → α)

/-- The next level: neighbours combined, the last one with itself when it has
no neighbour. -/
def parents : List α → List α
  | [] => []
  | [a] => [node a a]
  | a :: b :: rest => node a b :: parents rest

theorem length_parents (l : List α) :
    (parents node l).length = (l.length + 1) / 2 := by
  match l with
  | [] => simp [parents]
  | [a] => simp [parents]
  | a :: b :: rest =>
      rw [parents, List.length_cons, length_parents rest, List.length_cons,
        List.length_cons]
      omega

/-- The root of a list of leaves. -/
def root : List α → Option α
  | [] => none
  | [a] => some a
  | a :: b :: rest => root (node a b :: parents node rest)
termination_by l => l.length
decreasing_by
  rw [List.length_cons, length_parents, List.length_cons, List.length_cons]
  omega

/-- The siblings on the path of the first leaf, from the bottom up. -/
def firstBranch : List α → List α
  | [] => []
  | [_] => []
  | a :: b :: rest => b :: firstBranch (node a b :: parents node rest)
termination_by l => l.length
decreasing_by
  rw [List.length_cons, length_parents, List.length_cons, List.length_cons]
  omega

/-- Folding a leaf along the branch computed with a placeholder in its place
gives the root of the list with the leaf in front. -/
theorem foldl_firstBranch (placeholder leaf : α) (rest : List α) :
    root node (leaf :: rest) =
      some ((firstBranch node (placeholder :: rest)).foldl node leaf) := by
  match rest with
  | [] => simp [root, firstBranch]
  | b :: rest =>
      rw [root, firstBranch, List.foldl_cons]
      exact foldl_firstBranch (node placeholder b) (node leaf b)
        (parents node rest)
termination_by rest.length
decreasing_by
  rw [length_parents, List.length_cons]
  omega

end ReserveGrid.Support.Merkle
