import HostServices.CallSite
import HostServices.Proofs.Text.Split
import Mathlib.Logic.Function.Basic

/-!
# Displays of call sites

A number is read back from its decimal digits, and these end at anything else. So the line and the
column of a display are what stands behind its last two colons, and the file is the rest, colons
included (`display_injective`).
-/

namespace HostServices

namespace Text

theorem notMem_toString {c : Char} (h : c.isDigit = false) (n : ℕ) :
    c ∉ (toString n).toList := by
  intro hmem
  have hdigit : c.isDigit = true := by
    refine Nat.isDigit_of_mem_toDigits (b := 10) (n := n) (by decide) (by decide) ?_
    rwa [Nat.toString_eq_repr, Nat.toList_repr] at hmem
  rw [h] at hdigit
  cases hdigit

theorem toList_toString_inj {m n : ℕ} : (toString m).toList = (toString n).toList ↔ m = n := by
  refine ⟨fun h => ?_, fun h => h ▸ rfl⟩
  rw [Nat.toString_eq_repr, Nat.toString_eq_repr, Nat.toList_repr, Nat.toList_repr] at h
  rw [← Nat.ofDigitChars_ten_toDigits (n := m), h, Nat.ofDigitChars_ten_toDigits]

end Text

namespace CallSite

theorem toList_display (s : CallSite) : s.display.toList =
    s.file.toList ++ ':' :: ((toString s.line).toList ++ ':' :: (toString s.column).toList) := by
  have hdisplay : s.display = s.file ++ ":" ++ toString s.line ++ ":" ++ toString s.column := rfl
  simp [hdisplay]

/-- A display is of one place only: it ends in two numbers behind a colon, whatever the file is
called. -/
theorem display_injective : Function.Injective display := by
  intro s s' h
  have hno (n : ℕ) : ':' ∉ (toString n).toList.reverse := fun hmem =>
    Text.notMem_toString rfl n (List.mem_reverse.1 hmem)
  have htext := congrArg (List.reverse ∘ String.toList) h
  simp only [Function.comp_apply, toList_display, List.reverse_append, List.reverse_cons,
    List.append_assoc, List.singleton_append] at htext
  obtain ⟨hcolumn, hrest⟩ := Text.cut_unique (hno _) (hno _) htext
  obtain ⟨hline, hfile⟩ := Text.cut_unique (hno _) (hno _) hrest
  have hnat {m n : ℕ} (h : (toString m).toList.reverse = (toString n).toList.reverse) : m = n :=
    Text.toList_toString_inj.1 (List.reverse_inj.1 h)
  cases s
  cases s'
  cases hnat hcolumn
  cases hnat hline
  cases String.toList_inj.1 (List.reverse_inj.1 hfile)
  rfl

end CallSite

end HostServices
