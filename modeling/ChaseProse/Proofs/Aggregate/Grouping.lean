import Mathlib
import ChaseProse.Aggregate.Resolve
/-! Which running sums share a group: among those with the same group positions it is equality
of a group key, so an equivalence, and across positions it depends on which one is current. -/
namespace ChaseProse.Aggregate
open ChaseProse.Chase ChaseProse.Rule

namespace SumStep

/-- What two running sums with the same group positions must share to be grouped: the formula,
the head predicate and arity, and the head arguments at the group positions. -/
def groupKey (a : SumStep) : Option Assignment × String × Nat × List (Option String) :=
  (a.rule.sumAggregate?, a.head.predicate, a.head.arity, a.groupPositions.map a.head.arg?)

theorem sameGroup_eq_true_iff {a b : SumStep} :
    a.sameGroup b = true ↔ a.rule.sumAggregate? = b.rule.sumAggregate? ∧
      a.head.predicate = b.head.predicate ∧ a.head.arity = b.head.arity ∧
      ∀ p ∈ a.groupPositions, a.head.arg? p = b.head.arg? p := by
  simp [sameGroup, and_assoc]

theorem sameGroup_self (a : SumStep) : a.sameGroup a = true :=
  sameGroup_eq_true_iff.mpr ⟨rfl, rfl, rfl, fun _ _ => rfl⟩

/-- Between running sums with the same group positions, grouping is equality of the group
keys. -/
theorem sameGroup_iff_groupKey {a b : SumStep} (h : a.groupPositions = b.groupPositions) :
    a.sameGroup b = true ↔ a.groupKey = b.groupKey := by
  rw [sameGroup_eq_true_iff, groupKey, groupKey, ← h]
  simp only [Prod.mk.injEq, List.map_inj_left]

end SumStep

/-- Grouping is reflexive, and on the running sums of each set of group positions it is equality
of the group keys, so an equivalence: there it does not matter which of two running sums is the
current one. -/
theorem sameGroup_equivalence_on_layout :
    (∀ a : SumStep, a.sameGroup a = true) ∧
      ∀ P : List Nat,
        (∀ a b : {a : SumStep // a.groupPositions = P},
          a.1.sameGroup b.1 = true ↔ a.1.groupKey = b.1.groupKey) ∧
        Equivalence fun a b : {a : SumStep // a.groupPositions = P} =>
          a.1.sameGroup b.1 = true := by
  refine ⟨SumStep.sameGroup_self, fun P => ?_⟩
  have key (a b : {a : SumStep // a.groupPositions = P}) :
      a.1.sameGroup b.1 = true ↔ a.1.groupKey = b.1.groupKey :=
    SumStep.sameGroup_iff_groupKey (a.2.trans b.2.symm)
  refine ⟨key, ?_⟩
  exact {
    refl := fun a => SumStep.sameGroup_self a.1
    symm := fun h => (key _ _).mpr ((key _ _).mp h).symm
    trans := fun h₁ h₂ => (key _ _).mpr (((key _ _).mp h₁).trans ((key _ _).mp h₂)) }

/-- A running sum over `item`, grouped by its first head argument. -/
def totalGroupedFirst : Step :=
  { name := "tot(3,5)", pattern := ⟨[1, 1]⟩, provenance := ⟨["item(3,5)"]⟩,
    rule := "tot(G,S) :- item(G,V), S = msum(V)." }

/-- The same sum under a rule whose head holds the sum first, so it is grouped by its last head
argument. -/
def totalGroupedLast : Step :=
  { name := "tot(3,8)", pattern := ⟨[1, 1]⟩, provenance := ⟨["item(8,3)"]⟩,
    rule := "tot(S,G) :- item(G,V), S = msum(V)." }

/-- The first running sum counts the second in its group, the second does not count the first
in its own. -/
theorem sameGroup_depends_on_current :
    ((sumStep 0 totalGroupedFirst).2.bind fun a => (sumStep 1 totalGroupedLast).2.map fun b =>
      (a.sameGroup b, b.sameGroup a)) = some (true, false) := by
  decide +kernel

end ChaseProse.Aggregate
