import Mathlib.Algebra.Ring.Nat
import Mathlib.Data.List.Basic
import Mathlib.Data.List.Induction
import Mathlib.Data.List.Nodup

/-!
Contract: list facts used by the machines of this development.

Owns first occurrences of a growing list (`List.eraseDups`, which keeps the
first of equal elements), the effect of replacing one element of a list on a sum
over it, and entries of an extended list.
-/

namespace BitcoinPeers.Foundation

universe u

variable {Element : Type u}

section FirstOccurrences

variable [DecidableEq Element]

/-- A repeated element adds no first occurrence. -/
theorem eraseDups_concat_of_mem {elements : List Element} {element : Element}
    (member : element ∈ elements) :
    (elements ++ [element]).eraseDups = elements.eraseDups := by
  rw [List.eraseDups_append]
  simp [List.removeAll, member]

/-- A new element is the last first occurrence. -/
theorem eraseDups_concat_of_not_mem {elements : List Element} {element : Element}
    (fresh : element ∉ elements) :
    (elements ++ [element]).eraseDups = elements.eraseDups ++ [element] := by
  rw [List.eraseDups_append]
  simp [List.removeAll, fresh, List.eraseDups_cons]

theorem nodup_eraseDups (elements : List Element) : elements.eraseDups.Nodup := by
  induction elements using List.reverseRecOn with
  | nil => simp
  | append_singleton elements element inductionHypothesis =>
      by_cases member : element ∈ elements
      · rw [eraseDups_concat_of_mem member]
        exact inductionHypothesis
      · rw [eraseDups_concat_of_not_mem member]
        refine List.nodup_append.mpr ⟨inductionHypothesis, List.nodup_singleton _, ?_⟩
        intro left leftMember right rightMember equal
        rw [List.mem_singleton] at rightMember
        rw [equal, rightMember, List.mem_eraseDups] at leftMember
        exact member leftMember

end FirstOccurrences

/-- Replacing one entry changes a sum over the list by that entry only. -/
theorem sum_map_set (weight : Element → Nat) {entries : List Element} {index : Nat}
    {old : Element} (found : entries[index]? = some old) (new : Element) :
    ((entries.set index new).map weight).sum + weight old =
      (entries.map weight).sum + weight new := by
  induction entries generalizing index with
  | nil => simp at found
  | cons entry rest inductionHypothesis =>
      cases index with
      | zero =>
          simp only [List.getElem?_cons_zero, Option.some.injEq] at found
          simp only [List.set_cons_zero, List.map_cons, List.sum_cons, found]
          omega
      | succ index =>
          have later := inductionHypothesis (by simpa using found)
          simp only [List.set_cons_succ, List.map_cons, List.sum_cons]
          omega

/-- An entry of a list stays where it is when the list is extended. -/
theorem getElem?_of_prefix {shorter longer : List Element} (extended : shorter <+: longer)
    {index : Nat} {entry : Element} (found : shorter[index]? = some entry) :
    longer[index]? = some entry := by
  obtain ⟨rest, rfl⟩ := extended
  obtain ⟨inBounds, -⟩ := List.getElem?_eq_some_iff.mp found
  rw [List.getElem?_append_left inBounds]
  exact found

end BitcoinPeers.Foundation
