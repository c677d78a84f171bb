import Mathlib.Logic.Relation
import Mathlib.Data.Fintype.Pigeonhole

/-!
# Chains and cycles of a relation

`HasChain r a n` says that `n` steps of `r` can be taken from `a`. The level of
a vertex is the length of its longest chain. Levels are determined by the levels
of the successors, and in a finite set the vertices without a level are exactly
those from which a cycle is reachable.
-/

namespace Restitch.Std

open Relation

universe u

variable {α : Type u} {r : α → α → Prop}

/-- A chain of `n` steps of `r` leaves `a`. -/
inductive HasChain (r : α → α → Prop) : α → Nat → Prop where
  | nil (a : α) : HasChain r a 0
  | cons {a b : α} {n : Nat} (edge : r a b) (rest : HasChain r b n) : HasChain r a (n + 1)

/-- The longest chain that leaves `a` has length `n`. -/
def IsLongestChain (r : α → α → Prop) (a : α) (n : Nat) : Prop :=
  HasChain r a n ∧ ∀ m, HasChain r a m → m ≤ n

/-- A vertex from which some vertex on a cycle is reachable. -/
def ReachesCycle (r : α → α → Prop) (a : α) : Prop :=
  ∃ b, ReflTransGen r a b ∧ TransGen r b b

/-- No vertex reaches itself. -/
def Acyclic (r : α → α → Prop) : Prop :=
  ∀ a, ¬ TransGen r a a

/-- A relation is acyclic exactly when no vertex reaches a cycle. -/
theorem acyclic_iff_forall_not_reachesCycle : Acyclic r ↔ ∀ a, ¬ ReachesCycle r a := by
  constructor
  · rintro acyclic a ⟨b, _, cycle⟩
    exact acyclic b cycle
  · intro none a cycle
    exact none a ⟨a, .refl, cycle⟩

/-- Prepending a path to a chain does not shorten it. -/
theorem HasChain.prepend {a b : α} {n : Nat} (path : ReflTransGen r a b)
    (chain : HasChain r b n) : ∃ m, n ≤ m ∧ HasChain r a m := by
  induction path using ReflTransGen.head_induction_on with
  | refl => exact ⟨n, Nat.le_refl n, chain⟩
  | head edge _ ih =>
      obtain ⟨m, longer, rest⟩ := ih
      exact ⟨m + 1, by omega, .cons edge rest⟩

/-- Chains of unbounded length leave every vertex that reaches a cycle. -/
theorem ReachesCycle.unbounded {a : α} (reaches : ReachesCycle r a) (n : Nat) :
    ∃ m, n ≤ m ∧ HasChain r a m := by
  obtain ⟨b, path, cycle⟩ := reaches
  have around : ∃ m, n ≤ m ∧ HasChain r b m := by
    induction n with
    | zero => exact ⟨0, Nat.le_refl 0, .nil b⟩
    | succ n ih =>
        obtain ⟨m, longer, chain⟩ := ih
        obtain ⟨c, edge, back⟩ := TransGen.head'_iff.mp cycle
        obtain ⟨k, longer', chain'⟩ := HasChain.prepend back chain
        exact ⟨k + 1, by omega, .cons edge chain'⟩
  obtain ⟨m, longer, chain⟩ := around
  obtain ⟨k, longer', chain'⟩ := HasChain.prepend path chain
  exact ⟨k, by omega, chain'⟩

/-- A vertex whose chains are bounded reaches no cycle. -/
theorem IsLongestChain.not_reachesCycle {a : α} {n : Nat} (longest : IsLongestChain r a n) :
    ¬ ReachesCycle r a := by
  intro reaches
  obtain ⟨m, longer, chain⟩ := reaches.unbounded (n + 1)
  have bounded := longest.2 m chain
  omega

/-- In a finite set in which every vertex has a successor, every vertex
reaches a cycle: following successors must repeat a vertex. -/
theorem reachesCycle_of_finite {stuck : Set α} (finite : stuck.Finite)
    (successor : ∀ a ∈ stuck, ∃ b ∈ stuck, r a b) {a : α} (member : a ∈ stuck) :
    ReachesCycle r a := by
  choose! next nextMem nextEdge using successor
  let walk : Nat → α := fun n => next^[n] a
  have walkMem : ∀ n, walk n ∈ stuck := by
    intro n
    induction n with
    | zero => exact member
    | succ n ih =>
        simp only [walk, Function.iterate_succ', Function.comp_apply]
        exact nextMem _ ih
  have walkEdge : ∀ n, r (walk n) (walk (n + 1)) := by
    intro n
    simp only [walk, Function.iterate_succ', Function.comp_apply]
    exact nextEdge _ (walkMem n)
  have walkPath : ∀ n k, ReflTransGen r (walk n) (walk (n + k)) := by
    intro n k
    induction k with
    | zero => exact .refl
    | succ k ih => exact ih.tail (walkEdge (n + k))
  have := finite.to_subtype
  obtain ⟨m, n, different, same⟩ :=
    Finite.exists_ne_map_eq_of_infinite fun n => (⟨walk n, walkMem n⟩ : stuck)
  have repeated : walk m = walk n := congrArg Subtype.val same
  -- The earlier of the two positions carries the cycle.
  have loop : ∀ {i j}, i < j → walk i = walk j → ReachesCycle r a := by
    intro i j before equal
    have start : ReflTransGen r a (walk i) := by simpa [walk] using walkPath 0 i
    refine ⟨walk i, start, TransGen.head' (walkEdge i) ?_⟩
    have back := walkPath (i + 1) (j - (i + 1))
    rwa [show i + 1 + (j - (i + 1)) = j by omega, ← equal] at back
  rcases Nat.lt_or_gt_of_ne different with before | before
  · exact loop before repeated
  · exact loop before repeated.symm

/-- The longest chain has one length. -/
theorem IsLongestChain.unique {a : α} {m n : Nat} (first : IsLongestChain r a m)
    (second : IsLongestChain r a n) : m = n :=
  Nat.le_antisymm (second.2 m first.1) (first.2 n second.1)

/-- Bounded chains have a longest one, within the bound. -/
theorem exists_isLongestChain {a : α} {bound : Nat}
    (bounded : ∀ m, HasChain r a m → m ≤ bound) : ∃ n, n ≤ bound ∧ IsLongestChain r a n := by
  induction bound with
  | zero => exact ⟨0, Nat.le_refl 0, .nil a, bounded⟩
  | succ bound ih =>
      by_cases reached : HasChain r a (bound + 1)
      · exact ⟨bound + 1, Nat.le_refl _, reached, bounded⟩
      · have tighter : ∀ m, HasChain r a m → m ≤ bound := by
          intro m chain
          rcases Nat.lt_or_eq_of_le (bounded m chain) with below | equal
          · omega
          · exact absurd (equal ▸ chain) reached
        obtain ⟨n, below, longest⟩ := ih tighter
        exact ⟨n, by omega, longest⟩

/-- Only sinks have no longer chain than the empty one. -/
theorem isLongestChain_zero_iff {a : α} : IsLongestChain r a 0 ↔ ∀ b, ¬ r a b := by
  constructor
  · intro longest b edge
    have impossible := longest.2 1 (.cons edge (.nil b))
    omega
  · intro sink
    refine ⟨.nil a, ?_⟩
    intro m chain
    cases chain with
    | nil => exact Nat.le_refl 0
    | cons edge _ => exact absurd edge (sink _)

/-- A vertex is at level `n + 1` exactly when all its successors are at level
`n` or below and one of them is at level `n`. -/
theorem isLongestChain_succ_iff {a : α} {n : Nat} :
    IsLongestChain r a (n + 1) ↔
      (∀ b, r a b → ∃ m, m ≤ n ∧ IsLongestChain r b m) ∧ ∃ b, r a b ∧ IsLongestChain r b n := by
  constructor
  · rintro ⟨chain, bounded⟩
    have below : ∀ b, r a b → ∀ m, HasChain r b m → m ≤ n := by
      intro b edge m rest
      have longer := bounded (m + 1) (.cons edge rest)
      omega
    refine ⟨fun b edge => exists_isLongestChain (below b edge), ?_⟩
    cases chain with
    | @cons _ b _ edge rest => exact ⟨b, edge, rest, below b edge⟩
  · rintro ⟨below, b, edge, longest⟩
    refine ⟨.cons edge longest.1, ?_⟩
    intro m chain
    cases chain with
    | nil => omega
    | cons edge' rest =>
        obtain ⟨k, small, longest'⟩ := below _ edge'
        have bound := longest'.2 _ rest
        omega

/-- Below a vertex at level `n` there is a vertex at every smaller level. -/
theorem IsLongestChain.exists_below {a : α} {n k : Nat} (longest : IsLongestChain r a n)
    (smaller : k ≤ n) : ∃ b, ReflTransGen r a b ∧ IsLongestChain r b k := by
  induction n generalizing a with
  | zero =>
      obtain rfl : k = 0 := by omega
      exact ⟨a, .refl, longest⟩
  | succ n ih =>
      by_cases same : k = n + 1
      · subst same
        exact ⟨a, .refl, longest⟩
      · obtain ⟨_, b, edge, next⟩ := isLongestChain_succ_iff.mp longest
        obtain ⟨c, path, found⟩ := ih next (by omega)
        exact ⟨c, .head edge path, found⟩

end Restitch.Std
