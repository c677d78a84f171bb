import Mathlib.Algebra.GroupWithZero.Nat
import Mathlib.Data.List.Basic
import Restitch.Std.Chain

/-!
# Searching a graph

A depth-first search with a stack and the vertices seen so far decides whether a vertex is
reachable, on every graph with finitely many edges. One more edge closes a cycle in an acyclic
graph exactly if its source is reachable from its target.
-/

namespace Restitch.Std

open Relation

universe u

variable {α : Type u}

section Search

variable [DecidableEq α] (next : α → List α) (target : α)

/-- Search for a vertex, with the top of the stack in front. The loop ends without a result only
when `fuel` runs out before the stack does. -/
def searchLoop : Nat → List α → List α → Option Bool
  | _, [], _ => some false
  | 0, _ :: _, _ => none
  | fuel + 1, current :: stack, seen =>
      if current = target then some true
      else if current ∈ seen then searchLoop fuel stack seen
      else searchLoop fuel ((next current).reverse ++ stack) (current :: seen)

/-- The edges of a graph that is given by its neighbours. -/
def Leads (first second : α) : Prop := second ∈ next first

variable {next target}

/-- What is found is reachable. -/
theorem searchLoop_sound {fuel : Nat} {stack seen : List α}
    (found : searchLoop next target fuel stack seen = some true) :
    ∃ start ∈ stack, ReflTransGen (Leads next) start target := by
  induction fuel generalizing stack seen with
  | zero =>
      cases stack <;> cases found
  | succ fuel ih =>
      cases stack with
      | nil => cases found
      | cons current stack =>
          rw [searchLoop] at found
          split at found
          · rename_i isTarget
            exact ⟨current, List.mem_cons_self, isTarget ▸ .refl⟩
          · split at found
            · obtain ⟨start, member, path⟩ := ih found
              exact ⟨start, List.mem_cons_of_mem current member, path⟩
            · obtain ⟨start, member, path⟩ := ih found
              rw [List.mem_append, List.mem_reverse] at member
              rcases member with neighbour | later
              · exact ⟨current, List.mem_cons_self, .head neighbour path⟩
              · exact ⟨start, List.mem_cons_of_mem current later, path⟩

/-- A set of vertices that no edge leaves and the target is not in. -/
def ClosedWithout (next : α → List α) (target : α) (vertices : List α) : Prop :=
  ∀ vertex ∈ vertices, vertex ≠ target ∧ ∀ neighbour ∈ next vertex, neighbour ∈ vertices

/-- A search without success has seen everything that it could reach. -/
theorem searchLoop_closed {fuel : Nat} {stack seen : List α}
    (invariant : ∀ vertex ∈ seen, vertex ≠ target ∧
      ∀ neighbour ∈ next vertex, neighbour ∈ seen ∨ neighbour ∈ stack)
    (missed : searchLoop next target fuel stack seen = some false) :
    ∃ closed, ClosedWithout next target closed ∧ stack ⊆ closed ∧ seen ⊆ closed := by
  induction fuel generalizing stack seen with
  | zero =>
      cases stack with
      | nil =>
          refine ⟨seen, ?_, List.nil_subset _, List.Subset.refl _⟩
          intro vertex member
          obtain ⟨other, closed⟩ := invariant vertex member
          exact ⟨other, fun neighbour edge => (closed neighbour edge).resolve_right (by simp)⟩
      | cons current stack => cases missed
  | succ fuel ih =>
      cases stack with
      | nil =>
          refine ⟨seen, ?_, List.nil_subset _, List.Subset.refl _⟩
          intro vertex member
          obtain ⟨other, closed⟩ := invariant vertex member
          exact ⟨other, fun neighbour edge => (closed neighbour edge).resolve_right (by simp)⟩
      | cons current stack =>
          rw [searchLoop] at missed
          split at missed
          · cases missed
          · rename_i notTarget
            split at missed
            · rename_i again
              obtain ⟨closed, isClosed, stackIn, seenIn⟩ := ih (fun vertex member => by
                obtain ⟨other, edges⟩ := invariant vertex member
                refine ⟨other, fun neighbour edge => ?_⟩
                rcases edges neighbour edge with old | waiting
                · exact .inl old
                · rcases List.mem_cons.mp waiting with rfl | later
                  · exact .inl again
                  · exact .inr later) missed
              exact ⟨closed, isClosed, List.cons_subset.mpr ⟨seenIn again, stackIn⟩, seenIn⟩
            · obtain ⟨closed, isClosed, stackIn, seenIn⟩ := ih (fun vertex member => by
                rcases List.mem_cons.mp member with rfl | old
                · exact ⟨notTarget, fun neighbour edge =>
                    .inr (List.mem_append_left _ (List.mem_reverse.mpr edge))⟩
                · obtain ⟨other, edges⟩ := invariant vertex old
                  refine ⟨other, fun neighbour edge => ?_⟩
                  rcases edges neighbour edge with before | waiting
                  · exact .inl (List.mem_cons_of_mem current before)
                  · rcases List.mem_cons.mp waiting with rfl | later
                    · exact .inl List.mem_cons_self
                    · exact .inr (List.mem_append_right _ later)) missed
              obtain ⟨currentIn, seenIn⟩ := List.cons_subset.mp seenIn
              refine ⟨closed, isClosed, List.cons_subset.mpr ⟨currentIn, ?_⟩, seenIn⟩
              exact fun vertex member => stackIn (List.mem_append_right _ member)

omit [DecidableEq α] in
/-- Nothing is reached from a closed set but the set. -/
theorem ClosedWithout.unreachable {vertices : List α}
    (closed : ClosedWithout next target vertices) {start : α} (inside : start ∈ vertices) :
    ¬ ReflTransGen (Leads next) start target := by
  intro path
  have stays : ∀ vertex, ReflTransGen (Leads next) start vertex → vertex ∈ vertices := by
    intro vertex walk
    induction walk with
    | refl => exact inside
    | tail _ edge ih => exact (closed _ ih).2 _ edge
  exact (closed target (stays target path)).1 rfl

/-- The edges that leave a vertex, unless it is seen. -/
def unseenDegree (next : α → List α) (seen : List α) (node : α) : Nat :=
  if node ∈ seen then 0 else (next node).length

/-- The edges that leave the vertices of a list that are not seen. -/
def unseenEdges (next : α → List α) (nodes seen : List α) : Nat :=
  (nodes.map (unseenDegree next seen)).sum

/-- A node that was seen adds no unseen edge. -/
theorem unseenDegree_cons_le (next : α → List α) (seen : List α) (current node : α) :
    unseenDegree next (current :: seen) node ≤ unseenDegree next seen node := by
  rw [unseenDegree, unseenDegree]
  by_cases old : node ∈ seen
  · rw [if_pos (List.mem_cons_of_mem current old)]
    exact Nat.zero_le _
  · rw [if_neg old]
    split
    · exact Nat.zero_le _
    · exact Nat.le_refl _

/-- The unseen edges do not grow with the nodes that were seen. -/
theorem unseenEdges_le (next : α → List α) (nodes seen : List α) (current : α) :
    unseenEdges next nodes (current :: seen) ≤ unseenEdges next nodes seen := by
  induction nodes with
  | nil => exact Nat.le_refl _
  | cons node nodes ih =>
      rw [unseenEdges, unseenEdges, List.map_cons, List.map_cons, List.sum_cons, List.sum_cons]
      exact Nat.add_le_add (unseenDegree_cons_le next seen current node) ih

/-- Seeing a vertex uses its edges up. -/
theorem unseenEdges_cons_le {nodes seen : List α} {current : α}
    (covered : current ∉ nodes → next current = []) (fresh : current ∉ seen) :
    (next current).length + unseenEdges next nodes (current :: seen) ≤
      unseenEdges next nodes seen := by
  induction nodes with
  | nil =>
      rw [covered List.not_mem_nil]
      exact Nat.le_refl _
  | cons node nodes ih =>
      rw [unseenEdges, unseenEdges, List.map_cons, List.map_cons, List.sum_cons, List.sum_cons]
      by_cases same : current = node
      · subst same
        have rest := unseenEdges_le next nodes seen current
        rw [unseenDegree, if_pos List.mem_cons_self, unseenDegree, if_neg fresh, Nat.zero_add]
        exact Nat.add_le_add_left rest _
      · have rest := ih fun absent => covered fun member =>
          absent ((List.mem_cons.mp member).resolve_left same)
        have here := unseenDegree_cons_le next seen current node
        rw [unseenEdges, unseenEdges] at rest
        omega

/-- Fuel for every vertex on the stack and every unseen edge is enough. -/
theorem exists_searchLoop {nodes : List α} (covered : ∀ node, node ∉ nodes → next node = [])
    {fuel : Nat} {stack seen : List α}
    (enough : stack.length + unseenEdges next nodes seen ≤ fuel) :
    ∃ found, searchLoop next target fuel stack seen = some found := by
  induction fuel generalizing stack seen with
  | zero =>
      cases stack with
      | nil => exact ⟨false, rfl⟩
      | cons current stack =>
          rw [List.length_cons] at enough
          omega
  | succ fuel ih =>
      cases stack with
      | nil => exact ⟨false, rfl⟩
      | cons current stack =>
          rw [List.length_cons] at enough
          rw [searchLoop]
          split
          · exact ⟨true, rfl⟩
          · split
            · exact ih (by omega)
            · rename_i fresh
              have used := unseenEdges_cons_le (covered current) fresh
              refine ih ?_
              rw [List.length_append, List.length_reverse]
              omega

/-- The search ends, and finds the vertex exactly if it is reachable. -/
theorem searchLoop_iff {nodes : List α} (covered : ∀ node, node ∉ nodes → next node = [])
    (start : α) {fuel : Nat} (enough : 1 + unseenEdges next nodes [] ≤ fuel) :
    ∃ found, searchLoop next target fuel [start] [] = some found ∧
      (found = true ↔ ReflTransGen (Leads next) start target) := by
  obtain ⟨found, ends⟩ :
      ∃ found, searchLoop next target fuel [start] [] = some found :=
    exists_searchLoop covered enough
  refine ⟨found, ends, ?_⟩
  cases found with
  | true =>
      obtain ⟨first, member, path⟩ := searchLoop_sound ends
      rw [List.mem_singleton] at member
      exact iff_of_true rfl (member ▸ path)
  | false =>
      obtain ⟨closed, isClosed, stackIn, -⟩ := searchLoop_closed (List.forall_mem_nil _) ends
      exact iff_of_false (by decide) (isClosed.unreachable (stackIn List.mem_cons_self))

end Search

section Edges

variable {r : α → α → Prop}

/-- The relation with one more edge. -/
def WithEdge (r : α → α → Prop) (source target first second : α) : Prop :=
  r first second ∨ (first = source ∧ second = target)

/-- A path takes the new edge, or was there before. -/
theorem transGen_withEdge {source target first second : α}
    (path : TransGen (WithEdge r source target) first second) :
    TransGen r first second ∨ (ReflTransGen r first source ∧ ReflTransGen r target second) := by
  induction path with
  | single edge =>
      rcases edge with old | ⟨rfl, rfl⟩
      · exact .inl (.single old)
      · exact .inr ⟨.refl, .refl⟩
  | tail _ edge ih =>
      rcases edge with old | ⟨rfl, rfl⟩
      · rcases ih with before | ⟨toSource, fromTarget⟩
        · exact .inl (before.tail old)
        · exact .inr ⟨toSource, fromTarget.tail old⟩
      · rcases ih with before | ⟨toSource, -⟩
        · exact .inr ⟨before.to_reflTransGen, .refl⟩
        · exact .inr ⟨toSource, .refl⟩

/-- An edge closes a cycle exactly if it can be walked back. -/
theorem acyclic_withEdge_iff (acyclic : Acyclic r) {source target : α} :
    Acyclic (WithEdge r source target) ↔ ¬ ReflTransGen r target source := by
  constructor
  · intro stays back
    have lifted : ReflTransGen (WithEdge r source target) target source :=
      ReflTransGen.mono (fun _ _ edge => Or.inl edge) _ _ back
    exact stays source (.head' (.inr ⟨rfl, rfl⟩) lifted)
  · intro noWay vertex cycle
    rcases transGen_withEdge cycle with old | ⟨toSource, fromTarget⟩
    · exact acyclic vertex old
    · exact noWay (fromTarget.trans toSource)

end Edges

end Restitch.Std
