/-
# Ranges and integers read back

A written bound holds digits and a minus sign only.  So the two dots of a range stand where the
writer put them, there is nothing to trim around a bound, and a single integer is never taken for
a range.

Main statements: `ofText_text`, `ofText_ofInt`.
-/
import DocSearch.Filter.Range
import DocSearch.Proofs.Text.Decimal
import DocSearch.Proofs.Text.Split

namespace DocSearch

/-! ## 1. The characters of a bound -/

namespace Decimal

theorem ne_dot_of_isNumeric {c : Char} (h : isNumeric c = true) : '.' ≠ c := by
  rintro rfl
  exact absurd h (by decide)

end Decimal

namespace Range

theorem mem_boundText {bound : Option Int64} {c : Char} (h : c ∈ (boundText bound).toList) :
    Decimal.isNumeric c = true := by
  cases bound with
  | none => simp [boundText] at h
  | some n => exact Decimal.mem_ofInt h

/-! ## 2. Reading -/

/-- A written bound is read back. -/
theorem readBound_boundText (bound : Option Int64) :
    readBound (boundText bound).toList = .ok bound := by
  have htrim : Text.trimWhere Text.isBlank (boundText bound).toList = (boundText bound).toList :=
    Text.trimWhere_eq_self fun c hc => Decimal.not_isBlank_of_isNumeric (mem_boundText hc)
  unfold readBound
  rw [htrim]
  cases bound with
  | none => simp [boundText]
  | some n =>
    have hne : (Decimal.ofInt n.toInt).isEmpty = false := by
      rw [← Bool.not_eq_true, String.isEmpty_iff]
      exact fun e => Decimal.ofInt_ne_nil n.toInt (by rw [e]; rfl)
    simp [boundText, hne, Decimal.readInt64_ofInt]

theorem not_mem_dots_boundText (bound : Option Int64) : '.' ∉ (boundText bound).toList :=
  fun h => Decimal.ne_dot_of_isNumeric (mem_boundText h) rfl

/-- **A written range is read back.** -/
theorem ofText_text (r : Range) : ofText r.text = .ok r := by
  have hsplit : Text.splitOnce ['.', '.'] r.text.toList
      = some ((boundText r.lower).toList, (boundText r.upper).toList) := by
    have h := Text.splitOnce_append ['.'] (not_mem_dots_boundText r.lower)
      (boundText r.upper).toList
    simpa [text] using h
  unfold ofText
  rw [hsplit]
  simp only [readBound_boundText]
  exact ofBounds_eq_ok_iff.mpr ⟨rfl, rfl⟩

/-- A single integer is no range. -/
theorem ofText_ofInt (n : Int) :
    ofText (Decimal.ofInt n) = .error (.noDots (Decimal.ofInt n)) := by
  have hdots : '.' ∉ (Decimal.ofInt n).toList :=
    fun h => Decimal.ne_dot_of_isNumeric (Decimal.mem_ofInt h) rfl
  unfold ofText
  rw [Text.splitOnce_eq_none ['.'] hdots]

end Range
end DocSearch
