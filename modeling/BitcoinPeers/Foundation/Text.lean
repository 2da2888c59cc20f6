import Mathlib.Data.List.Basic
import Mathlib.Algebra.Ring.Nat

/-!
Contract: cutting texts at byte positions and at delimiters.

Owns:
- `byteSlice`, a slice by byte positions that fails where an indexing by bytes
  would;
- the slice between two parts of a text, which always succeeds;
- texts enclosed in a delimiter, and texts that a separator cuts in two.

Does not own: what the parts of a text mean.
-/

namespace BitcoinPeers.Foundation

universe u

/-! ## Byte positions -/

/-- The part of a text between two byte positions. There is none when the
positions are out of order, out of the text or inside a character. -/
def byteSlice (text : String) (start stop : Nat) : Option String :=
  if valid : start ≤ stop ∧ (⟨start⟩ : String.Pos.Raw).IsValid text ∧
      (⟨stop⟩ : String.Pos.Raw).IsValid text then
    some (text.extract ⟨⟨start⟩, valid.2.1⟩ ⟨⟨stop⟩, valid.2.2⟩)
  else none

/-- The positions around a part of a text cut out that part. -/
theorem byteSlice_middle (before middle after : String) :
    byteSlice (before ++ middle ++ after) before.utf8ByteSize
        (before.utf8ByteSize + middle.utf8ByteSize) = some middle := by
  have starts : (⟨before.utf8ByteSize⟩ : String.Pos.Raw).IsValid (before ++ middle ++ after) :=
    String.Pos.Raw.isValid_iff_exists_append.mpr
      ⟨before, middle ++ after, String.append_assoc, rfl⟩
  have stops : (⟨before.utf8ByteSize + middle.utf8ByteSize⟩ : String.Pos.Raw).IsValid
      (before ++ middle ++ after) := by
    apply String.Pos.Raw.isValid_iff_exists_append.mpr
    refine ⟨before ++ middle, after, rfl, ?_⟩
    apply String.Pos.Raw.ext
    simp
  unfold byteSlice
  rw [dif_pos ⟨Nat.le_add_right _ _, starts, stops⟩, Option.some.injEq]
  apply String.toByteArray_inj.mp
  rw [String.toByteArray_extract]
  dsimp only
  rw [String.append_assoc, String.toByteArray_append, String.toByteArray_append]
  have past : (before.toByteArray ++ (middle.toByteArray ++ after.toByteArray)).extract
      (before.toByteArray.size + 0) (before.toByteArray.size + middle.toByteArray.size) =
      (middle.toByteArray ++ after.toByteArray).extract 0 middle.toByteArray.size :=
    ByteArray.extract_append_size_add
  exact past.trans (ByteArray.extract_append_eq_left rfl)

/-! ## Delimiters -/

section Delimiters

variable {Symbol : Type u} {delimiter separator : Symbol}

/-- A text that starts and ends with a delimiter, and has something else in it,
is enclosed: the two delimiters are not the same one. -/
theorem exists_enclosed {text : List Symbol} (starts : text.head? = some delimiter)
    (ends : text.getLast? = some delimiter) (other : separator ∈ text)
    (different : separator ≠ delimiter) :
    ∃ middle, text = delimiter :: (middle ++ [delimiter]) := by
  cases text with
  | nil => cases starts
  | cons first rest =>
      rw [List.head?_cons, Option.some.injEq] at starts
      subst starts
      have inRest : separator ∈ rest := by
        rcases List.mem_cons.mp other with same | later
        · exact absurd same different
        · exact later
      obtain rfl | ⟨middle, last, rfl⟩ := List.eq_nil_or_concat' rest
      · cases inRest
      · rw [← List.cons_append, List.getLast?_concat, Option.some.injEq] at ends
        exact ⟨middle, by rw [ends]⟩

variable [DecidableEq Symbol]

theorem length_splitOn_pos (separator : Symbol) (text : List Symbol) :
    0 < (text.splitOn separator).length :=
  List.length_pos_of_ne_nil (List.splitOn_ne_nil separator text)

/-- A text is one part exactly when the separator is not in it. -/
theorem length_splitOn_eq_one_iff (text : List Symbol) :
    (text.splitOn separator).length = 1 ↔ separator ∉ text := by
  constructor
  · intro single member
    obtain ⟨before, after, rfl⟩ := List.append_of_mem member
    rw [List.splitOn_append_cons_self, List.length_append] at single
    have left := length_splitOn_pos separator before
    have right := length_splitOn_pos separator after
    omega
  · intro absent
    rw [List.splitOn_eq_singleton absent]
    rfl

/-- Of two parts around a separator neither has another one. -/
theorem absent_of_two_parts {first second : List Symbol}
    (two : ((first ++ separator :: second).splitOn separator).length = 2) :
    separator ∉ first ∧ separator ∉ second := by
  rw [List.splitOn_append_cons_self, List.length_append] at two
  have left := length_splitOn_pos separator first
  have right := length_splitOn_pos separator second
  rw [← length_splitOn_eq_one_iff, ← length_splitOn_eq_one_iff]
  omega

/-- A separator cuts a text in two exactly when it is nowhere else. -/
theorem splitOn_eq_pair_iff {text first second : List Symbol} :
    text.splitOn separator = [first, second] ↔
      text = first ++ separator :: second ∧ separator ∉ first ∧ separator ∉ second := by
  constructor
  · intro parts
    have joined : text = first ++ separator :: second := by
      have whole : [separator].intercalate (text.splitOn separator) = text :=
        List.intercalate_splitOn separator
      rw [← whole, parts]
      simp [List.intercalate]
    refine ⟨joined, absent_of_two_parts ?_⟩
    rw [← joined, parts]
    rfl
  · rintro ⟨rfl, absentFirst, absentSecond⟩
    rw [List.splitOn_append_cons_self, List.splitOn_eq_singleton absentFirst,
      List.splitOn_eq_singleton absentSecond]
    rfl

/-- The parts around a separator that is nowhere else are unique. -/
theorem parts_unique {first second first' second' : List Symbol}
    (same : first ++ separator :: second = first' ++ separator :: second')
    (absent : separator ∉ first ∧ separator ∉ second)
    (absent' : separator ∉ first' ∧ separator ∉ second') : first = first' ∧ second = second' := by
  have parts := splitOn_eq_pair_iff.mpr ⟨rfl, absent⟩
  rw [same, splitOn_eq_pair_iff.mpr ⟨rfl, absent'⟩] at parts
  cases parts
  exact ⟨rfl, rfl⟩

end Delimiters

end BitcoinPeers.Foundation
