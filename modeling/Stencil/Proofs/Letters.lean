import Stencil.Text.Letters

/-!
# Letters and blanks

No character is a letter or a number and a blank as well
(`isBlank_eq_false_of_isAlphanumeric`), so a name neither starts nor ends with a blank.
-/

namespace Stencil.Text

theorem inRanges_eq_false {ranges : List (Nat × Nat)} {first last n : Nat}
    (apart : ∀ r ∈ ranges, r.2 < first ∨ last < r.1) (hf : first ≤ n) (hl : n ≤ last) :
    inRanges ranges n = false := by
  simp only [inRanges, List.any_eq_false, Bool.and_eq_true, decide_eq_true_eq]
  intro r hr
  have := apart r hr
  omega

/-- Ranges without letters and numbers that hold the blanks beyond the first 128 code points. -/
def blankRanges : List (Nat × Nat) :=
  [(0x85, 0xa0), (0x1680, 0x1680), (0x2000, 0x205f), (0x3000, 0x3000)]

theorem blankRanges_apart : ∀ r ∈ alphanumericRanges, ∀ gap ∈ blankRanges,
    r.2 < gap.1 ∨ gap.2 < r.1 := by decide +kernel

theorem place_of_isBlank {c : Char} (h : isBlank c = true) :
    c.toNat ≤ 32 ∨ ∃ gap ∈ blankRanges, gap.1 ≤ c.toNat ∧ c.toNat ≤ gap.2 := by
  have le {a b : Char} (h : a ≤ b) : a.toNat ≤ b.toNat := h
  simp only [isBlank, Bool.or_eq_true, Bool.and_eq_true, decide_eq_true_eq, beq_iff_eq] at h
  rcases h with
    (((((((((⟨-, hl⟩ | rfl) | rfl) | rfl) | rfl) | ⟨hf, hl⟩) | rfl) | rfl) | rfl) | rfl) | rfl
  · exact Or.inl (Nat.le_trans (le hl) (by decide))
  · exact Or.inl (by decide)
  · exact Or.inr ⟨(0x85, 0xa0), by decide⟩
  · exact Or.inr ⟨(0x85, 0xa0), by decide⟩
  · exact Or.inr ⟨(0x1680, 0x1680), by decide⟩
  · exact Or.inr ⟨(0x2000, 0x205f), by decide, le hf, Nat.le_trans (le hl) (by decide)⟩
  · exact Or.inr ⟨(0x2000, 0x205f), by decide⟩
  · exact Or.inr ⟨(0x2000, 0x205f), by decide⟩
  · exact Or.inr ⟨(0x2000, 0x205f), by decide⟩
  · exact Or.inr ⟨(0x2000, 0x205f), by decide⟩
  · exact Or.inr ⟨(0x3000, 0x3000), by decide⟩

theorem lt_of_isAlphanumeric {c : Char} (h : isAlphanumeric c = true) : 32 < c.toNat := by
  unfold isAlphanumeric at h
  split at h
  · have ranges : (decide (c.val ≥ 'A'.val ∧ c.val ≤ 'Z'.val) ||
        c.val ≥ 'a'.val && c.val ≤ 'z'.val || c.val ≥ '0'.val && c.val ≤ '9'.val) = true := h
    have value : c.val.toNat = c.toNat := rfl
    simp [UInt32.le_iff_toNat_le] at ranges
    omega
  · omega

/-- No letter and no number is a blank. -/
theorem isBlank_eq_false_of_isAlphanumeric {c : Char} (h : isAlphanumeric c = true) :
    isBlank c = false := by
  have large := lt_of_isAlphanumeric h
  cases hb : isBlank c with
  | false => rfl
  | true =>
    rcases place_of_isBlank hb with hs | ⟨gap, hgap, hf, hl⟩
    · omega
    · have apart := inRanges_eq_false (fun r hr => blankRanges_apart r hr gap hgap) hf hl
      have hbig : ¬ c.toNat < 128 := by
        have : ∀ gap ∈ blankRanges, 128 ≤ gap.1 := by decide
        have := this gap hgap
        omega
      simp [isAlphanumeric, hbig, apart] at h

end Stencil.Text
