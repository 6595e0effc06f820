import Mathlib.Data.List.Basic
import Stencil.Text.Basic

/-!
# Byte offsets

The places of a text are its cuts in two, and a byte offset names at most one of them
(`splitAtByte_eq_some_iff`). Two cuts of one text are ordered by the sizes of their first parts as
by the lengths (`length_lt_iff_byteSize_lt`).
-/

namespace Stencil.Text

theorem byteSize_append (s t : Text) : byteSize (s ++ t) = byteSize s + byteSize t := by
  induction s with
  | nil => simp [byteSize]
  | cons c s ih => simp only [List.cons_append, byteSize, ih]; omega

theorem utf8Size_pos (c : Char) : 0 < c.utf8Size := Char.utf8Size_pos c

theorem byteSize_eq_zero_iff (s : Text) : byteSize s = 0 ↔ s = [] := by
  cases s with
  | nil => simp [byteSize]
  | cons c s =>
    have := utf8Size_pos c
    simp only [byteSize, reduceCtorEq, iff_false]
    omega

theorem splitAtByte_byteSize (before after : Text) :
    (before ++ after).splitAtByte (byteSize before) = some (before, after) := by
  induction before with
  | nil => cases after <;> simp [splitAtByte, byteSize]
  | cons c before ih =>
    have hc := utf8Size_pos c
    have hne : ¬ c.utf8Size + byteSize before = 0 := by omega
    have hle : c.utf8Size ≤ c.utf8Size + byteSize before := by omega
    simp only [List.cons_append, byteSize, splitAtByte, hne, hle, ↓reduceIte, Nat.add_sub_cancel_left,
      ih, Option.map_some]

theorem eq_of_splitAtByte {text before after : Text} {offset : Nat}
    (h : text.splitAtByte offset = some (before, after)) :
    text = before ++ after ∧ byteSize before = offset := by
  induction text generalizing offset before with
  | nil =>
    by_cases h0 : offset = 0
    · simp_all [splitAtByte, byteSize]
    · simp [splitAtByte, h0] at h
  | cons c rest ih =>
    by_cases h0 : offset = 0
    · simp_all [splitAtByte, byteSize]
    · by_cases hle : c.utf8Size ≤ offset
      · simp only [splitAtByte, h0, hle, ↓reduceIte, Option.map_eq_some_iff] at h
        obtain ⟨⟨b, a⟩, hcut, hpair⟩ := h
        obtain ⟨rfl, rfl⟩ := Prod.mk.inj hpair
        obtain ⟨hrest, hsize⟩ := ih hcut
        refine ⟨by simp [hrest], ?_⟩
        simp only [byteSize]
        omega
      · simp [splitAtByte, h0, hle] at h

/-- An offset names the cut whose first part has that size. -/
theorem splitAtByte_eq_some_iff (text : Text) (offset : Nat) (before after : Text) :
    text.splitAtByte offset = some (before, after) ↔
      text = before ++ after ∧ byteSize before = offset := by
  constructor
  · exact eq_of_splitAtByte
  · rintro ⟨rfl, rfl⟩
    exact splitAtByte_byteSize before after

/-- The offset lies at an end of the text or between two of its characters. -/
def IsBoundary (text : Text) (offset : Nat) : Prop :=
  ∃ before after, text = before ++ after ∧ byteSize before = offset

/-- Two cuts of a text: the first part of one is a start of the first part of the other. -/
theorem prefix_total {s t a b : Text} (h : s ++ a = t ++ b) :
    (∃ u, t = s ++ u ∧ a = u ++ b) ∨ ∃ u, s = t ++ u ∧ b = u ++ a := by
  rcases List.append_eq_append_iff.mp h with ⟨u, ht, ha⟩ | ⟨u, hs, hb⟩
  · exact Or.inl ⟨u, ht, ha⟩
  · exact Or.inr ⟨u, hs, hb⟩

theorem length_lt_iff_byteSize_lt {s t a b : Text} (h : s ++ a = t ++ b) :
    s.length < t.length ↔ byteSize s < byteSize t := by
  have pos : ∀ u : Text, 0 < u.length ↔ 0 < byteSize u := by
    intro u
    rw [List.length_pos_iff, Nat.pos_iff_ne_zero, ne_eq, ne_eq, byteSize_eq_zero_iff]
  rcases prefix_total h with ⟨u, rfl, -⟩ | ⟨u, rfl, -⟩
  · have := pos u
    simp only [List.length_append, byteSize_append]
    omega
  · simp only [List.length_append, byteSize_append]
    omega

/-- Cuts at one offset are the same cut. -/
theorem eq_of_byteSize_eq {s t a b : Text} (h : s ++ a = t ++ b)
    (hs : byteSize s = byteSize t) : s = t := by
  rcases prefix_total h with ⟨u, rfl, -⟩ | ⟨u, rfl, -⟩
  · have hu : u = [] := (byteSize_eq_zero_iff u).mp (by rw [byteSize_append] at hs; omega)
    simp [hu]
  · have hu : u = [] := (byteSize_eq_zero_iff u).mp (by rw [byteSize_append] at hs; omega)
    simp [hu]

theorem dropStart?_append (mark rest : Text) : dropStart? mark (mark ++ rest) = some rest := by
  simp [dropStart?, List.isPrefixOf?_eq_some_iff_append_eq]

theorem dropStart?_eq_none {mark text : Text} (h : ¬ mark <+: text) :
    dropStart? mark text = none := by
  cases hd : dropStart? mark text with
  | none => rfl
  | some rest =>
    refine absurd ⟨rest, ?_⟩ h
    simpa [dropStart?, List.isPrefixOf?_eq_some_iff_append_eq] using hd

theorem eq_append_of_dropStart? {mark text rest : Text} (h : dropStart? mark text = some rest) :
    text = mark ++ rest := by
  simpa [dropStart?, List.isPrefixOf?_eq_some_iff_append_eq, eq_comm] using h

theorem lastOr_cons (earlier : Option Char) (c : Char) (text : Text) :
    lastOr earlier (c :: text) = lastOr (some c) text := by
  unfold lastOr
  rw [List.getLast?_cons]
  cases text.getLast? <;> rfl

theorem lastOr_getLast? (before slice : Text) :
    lastOr before.getLast? slice = (before ++ slice).getLast? := by
  simp [lastOr, List.getLast?_append]

end Stencil.Text
