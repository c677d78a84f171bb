import Mathlib.Data.Set.Lattice
import Mathlib.Data.Set.Prod
import Mathlib.Order.CompletePartialOrder

/-!
# How two sets lie to each other

Five relationships, exactly one of which holds between two nonempty sets, and how
they combine when each set is a product.
-/

namespace Restitch.Std

/-- The relationship of a first set to a second. -/
inductive Relationship where
  | equivalent
  | moreGeneral
  | moreSpecific
  | disjoint
  | overlaps
deriving DecidableEq

namespace Relationship

universe u v

variable {α : Type u} {β : Type v}

/-- The meaning of a relationship. -/
def Holds : Relationship → Set α → Set α → Prop
  | .equivalent, first, second => first ⊆ second ∧ second ⊆ first
  | .moreGeneral, first, second => second ⊆ first ∧ ¬ first ⊆ second
  | .moreSpecific, first, second => first ⊆ second ∧ ¬ second ⊆ first
  | .disjoint, first, second => Disjoint first second
  | .overlaps, first, second =>
      ¬ first ⊆ second ∧ ¬ second ⊆ first ∧ ¬ Disjoint first second

/-- The relationship the other way round. -/
def inverse : Relationship → Relationship
  | .moreGeneral => .moreSpecific
  | .moreSpecific => .moreGeneral
  | other => other

/-- The relationship of two products. -/
def combine : Relationship → Relationship → Relationship
  | .equivalent, second => second
  | .disjoint, _ => .disjoint
  | .overlaps, .disjoint => .disjoint
  | .overlaps, _ => .overlaps
  | first, .equivalent => first
  | first, second => if second = first.inverse then .overlaps else second

@[simp] theorem equivalent_combine (second : Relationship) :
    combine .equivalent second = second := rfl

@[simp] theorem disjoint_combine (second : Relationship) :
    combine .disjoint second = .disjoint := rfl

/-- Equivalence changes nothing on the right. -/
@[simp] theorem combine_equivalent (first : Relationship) :
    combine first .equivalent = first := by
  cases first <;> rfl

/-- Relationships are combined in any grouping. -/
theorem combine_assoc (first second third : Relationship) :
    combine (combine first second) third = combine first (combine second third) := by
  cases first <;> cases second <;> cases third <;> rfl

/-- The inverse relationship holds of the two sets the other way round. -/
theorem Holds.inverse {relationship : Relationship} {first second : Set α}
    (holds : relationship.Holds first second) : relationship.inverse.Holds second first := by
  cases relationship with
  | equivalent => exact ⟨holds.2, holds.1⟩
  | moreGeneral | moreSpecific => exact holds
  | disjoint => exact Disjoint.symm holds
  | overlaps => exact ⟨holds.2.1, holds.1, fun apart => holds.2.2 apart.symm⟩

/-- Which inclusions a relationship stands for. -/
structure Facts (relationship : Relationship) (first second : Set α) : Prop where
  subset : first ⊆ second ↔ relationship = .equivalent ∨ relationship = .moreSpecific
  superset : second ⊆ first ↔ relationship = .equivalent ∨ relationship = .moreGeneral
  apart : Disjoint first second ↔ relationship = .disjoint

/-- Of nonempty sets a relationship says all three. -/
theorem holds_iff_facts {relationship : Relationship} {first second : Set α}
    (nonempty : first.Nonempty) (nonempty' : second.Nonempty) :
    relationship.Holds first second ↔ relationship.Facts first second := by
  have sub : first ⊆ second → ¬ Disjoint first second := by
    intro subset apart
    obtain ⟨element, member⟩ := nonempty
    exact Set.disjoint_left.mp apart member (subset member)
  have sup : second ⊆ first → ¬ Disjoint first second := by
    intro subset apart
    obtain ⟨element, member⟩ := nonempty'
    exact Set.disjoint_left.mp apart (subset member) member
  constructor
  · intro holds
    cases relationship with
    | equivalent => exact ⟨by simp [holds.1], by simp [holds.2], by simp [sub holds.1]⟩
    | moreGeneral => exact ⟨by simp [holds.2], by simp [holds.1], by simp [sup holds.1]⟩
    | moreSpecific => exact ⟨by simp [holds.1], by simp [holds.2], by simp [sub holds.1]⟩
    | disjoint =>
        have apart : Disjoint first second := holds
        exact ⟨by simpa using fun subset => sub subset apart,
          by simpa using fun subset => sup subset apart, by simp [apart]⟩
    | overlaps => exact ⟨by simp [holds.1], by simp [holds.2.1], by simp [holds.2.2]⟩
  · intro facts
    cases relationship with
    | equivalent => exact ⟨facts.subset.mpr (by simp), facts.superset.mpr (by simp)⟩
    | moreGeneral => exact ⟨facts.superset.mpr (by simp), fun no => by simpa using facts.subset.mp no⟩
    | moreSpecific => exact ⟨facts.subset.mpr (by simp), fun no => by simpa using facts.superset.mp no⟩
    | disjoint => exact facts.apart.mpr rfl
    | overlaps =>
        exact ⟨fun no => by simpa using facts.subset.mp no,
          fun no => by simpa using facts.superset.mp no, fun no => by simpa using facts.apart.mp no⟩

/-- The relationship of products is the combination of those of their factors. -/
theorem Holds.prod {relationship relationship' : Relationship} {first second : Set α}
    {first' second' : Set β} (holds : relationship.Holds first second)
    (holds' : relationship'.Holds first' second') (nonempty : first.Nonempty)
    (nonempty₂ : second.Nonempty) (nonempty' : first'.Nonempty) (nonempty₂' : second'.Nonempty) :
    (combine relationship relationship').Holds (first ×ˢ first') (second ×ˢ second') := by
  have facts := (holds_iff_facts nonempty nonempty₂).mp holds
  have facts' := (holds_iff_facts nonempty' nonempty₂').mp holds'
  rw [holds_iff_facts (nonempty.prod nonempty') (nonempty₂.prod nonempty₂')]
  refine ⟨?_, ?_, ?_⟩
  · rw [Set.prod_subset_prod_iff, facts.subset, facts'.subset]
    simp only [nonempty.ne_empty, nonempty'.ne_empty, or_false]
    cases relationship <;> cases relationship' <;> decide
  · rw [Set.prod_subset_prod_iff, facts.superset, facts'.superset]
    simp only [nonempty₂.ne_empty, nonempty₂'.ne_empty, or_false]
    cases relationship <;> cases relationship' <;> decide
  · rw [Set.disjoint_prod, facts.apart, facts'.apart]
    cases relationship <;> cases relationship' <;> decide

/-- An injective image keeps the relationship. -/
theorem Holds.image {relationship : Relationship} {first second : Set α} {f : α → β}
    (injective : Function.Injective f) (holds : relationship.Holds first second) :
    relationship.Holds (f '' first) (f '' second) := by
  cases relationship with
  | equivalent | moreGeneral | moreSpecific =>
      simpa only [Holds, Set.image_subset_image_iff injective] using holds
  | disjoint => exact (Set.disjoint_image_iff injective).mpr holds
  | overlaps =>
      simpa only [Holds, Set.image_subset_image_iff injective, Set.disjoint_image_iff injective]
        using holds

end Relationship

end Restitch.Std
