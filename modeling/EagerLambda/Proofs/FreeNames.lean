import EagerLambda.Term.Free
import Mathlib.Data.Finset.Dedup
import Mathlib.Data.Finset.Erase
import Mathlib.Data.Finset.SDiff

/-!
# The set of free names

`Term.freeSet` is the set of free names by recursion on the term. The walk that keeps one list of
bound names and one of free names computes it, whatever the two lists hold at the start, and leaves
the first as it was (`walk_collects_free_names`).
-/

namespace EagerLambda.Term

/-- The free names of a term. A function has those of its body without its parameter. -/
def freeSet : Term → Finset Name
  | var x => {x}
  | lam x b => b.freeSet.erase x
  | app f a => f.freeSet ∪ a.freeSet

theorem mem_freeSet {t : Term} {x : Name} : x ∈ t.freeSet ↔ t.Free x := by
  induction t with
  | var y => exact Finset.mem_singleton
  | lam y b ih => rw [freeSet, Finset.mem_erase, ih, Free]
  | app f a ihf iha => rw [freeSet, Finset.mem_union, ihf, iha, Free]

namespace FreeScan

theorem toFinset_free_walk (s : FreeScan) (t : Term) :
    (s.walk t).free.toFinset = s.free.toFinset ∪ (t.freeSet \ s.bound.toFinset) := by
  ext x
  rw [List.mem_toFinset, mem_free_walk, Finset.mem_union, Finset.mem_sdiff, mem_freeSet,
    List.mem_toFinset, List.mem_toFinset]

/-- A walk adds no name that is there already. -/
theorem nodup_free_walk {s : FreeScan} (nodup : s.free.Nodup) (t : Term) :
    (s.walk t).free.Nodup := by
  induction t generalizing s with
  | var x =>
    unfold walk
    split
    · exact nodup
    · exact nodup.insert
  | lam x b ih =>
    unfold walk
    split
    · exact ih nodup
    · exact ih (s := { s with bound := x :: s.bound }) nodup
  | app f a ihf iha => exact iha (ihf nodup)

end FreeScan

/-- A walk over a term hands the bound names back as they were, and adds to the free names the set
of free names of the term without those that were bound at the start. From nothing bound and nothing
found it lists the free names of the term, each once. -/
theorem walk_collects_free_names (t : Term) :
    (∀ s : FreeScan, (s.walk t).bound = s.bound ∧
      (s.walk t).free.toFinset = s.free.toFinset ∪ (t.freeSet \ s.bound.toFinset)) ∧
    t.freeNames.toFinset = t.freeSet ∧ t.freeNames.Nodup := by
  refine ⟨fun s => ⟨s.bound_walk t, s.toFinset_free_walk t⟩, ?_, ?_⟩
  · rw [freeNames, FreeScan.toFinset_free_walk]
    simp
  · exact FreeScan.nodup_free_walk List.nodup_nil t

-- The inner function of the same parameter leaves `x` bound for the rest of the outer one.
example : (lam "x" (app (lam "x" (var "x")) (app (var "x") (var "y")))).freeNames = ["y"] := by
  decide

end EagerLambda.Term
