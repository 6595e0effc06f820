import Mathlib.Data.List.TakeWhile
import Stencil.Text.Basic

/-!
# Blanks at the ends of a text

`trimStart` and `trimEnd` cut a text into the blanks at an end and the rest. What is cut off depends
on one end only, so a piece that has a character other than a blank shields what is on its other
side (`Solid`).
-/

namespace Stencil.Text

def isBreak (c : Char) : Bool := c == '\r' || c == '\n'

theorem isBlank_of_isBreak {c : Char} (h : isBreak c = true) : isBlank c = true := by
  have chars : c = '\r' ∨ c = '\n' := by simpa [isBreak] using h
  rcases chars with rfl | rfl <;> rfl

def AllBlank (text : Text) : Prop := ∀ c ∈ text, isBlank c = true

theorem AllBlank.nil : AllBlank [] := by simp [AllBlank]

theorem AllBlank.cons {c : Char} {text : Text} (hc : isBlank c = true) (h : AllBlank text) :
    AllBlank (c :: text) := List.forall_mem_cons.mpr ⟨hc, h⟩

theorem AllBlank.append {a b : Text} (ha : AllBlank a) (hb : AllBlank b) : AllBlank (a ++ b) :=
  List.forall_mem_append.mpr ⟨ha, hb⟩

theorem allBlank_space : AllBlank [' '] := by simp [AllBlank, isBlank]

def NoBlankFirst (text : Text) : Prop := ∀ c, text.head? = some c → isBlank c = false

def NoBlankLast (text : Text) : Prop := ∀ c, text.getLast? = some c → isBlank c = false

theorem noBlankFirst_nil : NoBlankFirst [] := by simp [NoBlankFirst]

theorem noBlankFirst_cons {c : Char} {text : Text} (h : isBlank c = false) :
    NoBlankFirst (c :: text) := by
  rintro d hd
  obtain rfl : c = d := by simpa using hd
  exact h

theorem noBlankLast_concat {c : Char} {text : Text} (h : isBlank c = false) :
    NoBlankLast (text ++ [c]) := by
  intro d hd
  rw [List.getLast?_concat] at hd
  obtain rfl : c = d := by simpa using hd
  exact h

/-- Not empty, and without a blank at an end. -/
structure Solid (text : Text) : Prop where
  nonempty : text ≠ []
  first : NoBlankFirst text
  last : NoBlankLast text

theorem solid_of_ends {first last : Char} (middle : Text) (hf : isBlank first = false)
    (hl : isBlank last = false) : Solid (first :: (middle ++ [last])) where
  nonempty := List.cons_ne_nil _ _
  first := noBlankFirst_cons hf
  last := by
    rw [← List.cons_append]
    exact noBlankLast_concat hl

theorem NoBlankFirst.append_left {a : Text} (h : NoBlankFirst a) (hn : a ≠ []) (b : Text) :
    NoBlankFirst (a ++ b) := by
  cases a with
  | nil => exact absurd rfl hn
  | cons c a => exact h

theorem trimStart_eq_self {text : Text} (h : NoBlankFirst text) : trimStart text = text := by
  cases text with
  | nil => rfl
  | cons c text => simp [trimStart, h c rfl]

theorem dropEndWhile_eq_self {p : Char → Bool} {text : Text}
    (h : ∀ c, text.getLast? = some c → p c = false) : dropEndWhile p text = text := by
  rcases List.eq_nil_or_concat text with rfl | ⟨text, c, rfl⟩
  · rfl
  · simp [dropEndWhile, h c (by simp)]

theorem trimEnd_eq_self {text : Text} (h : NoBlankLast text) : trimEnd text = text :=
  dropEndWhile_eq_self h

@[simp] theorem trimEnd_nil : trimEnd [] = [] := rfl

theorem noBlankFirst_trimStart (text : Text) : NoBlankFirst (trimStart text) := by
  intro c hc
  unfold trimStart at hc
  have := List.head?_dropWhile_not isBlank text
  simpa [hc] using this

theorem noBlankLast_trimEnd (text : Text) : NoBlankLast (trimEnd text) := by
  intro c hc
  refine noBlankFirst_trimStart text.reverse c ?_
  rw [trimEnd, dropEndWhile, List.getLast?_reverse] at hc
  exact hc

theorem exists_blanks_trimStart (text : Text) :
    ∃ blanks, AllBlank blanks ∧ text = blanks ++ trimStart text :=
  ⟨text.takeWhile isBlank, fun _ hc => List.mem_takeWhile_imp hc,
    List.takeWhile_append_dropWhile.symm⟩

theorem exists_blanks_trimEnd (text : Text) :
    ∃ blanks, AllBlank blanks ∧ text = trimEnd text ++ blanks := by
  obtain ⟨blanks, hb, ht⟩ := exists_blanks_trimStart text.reverse
  refine ⟨blanks.reverse, fun c hc => hb c (List.mem_reverse.mp hc), ?_⟩
  have := congrArg List.reverse ht
  simpa [trimEnd, dropEndWhile, trimStart] using this

theorem trimEnd_append_blanks (a : Text) {b : Text} (hb : AllBlank b) :
    trimEnd (a ++ b) = trimEnd a := by
  unfold trimEnd dropEndWhile
  rw [List.reverse_append, List.dropWhile_append_of_pos fun c hc => hb c (List.mem_reverse.mp hc)]

theorem trimEnd_eq_nil {text : Text} (h : AllBlank text) : trimEnd text = [] :=
  trimEnd_append_blanks [] h

theorem trimStart_eq_nil {text : Text} (h : AllBlank text) : trimStart text = [] := by
  unfold trimStart
  exact List.dropWhile_eq_nil_iff.mpr h

/-- Blanks in front of a mark end before a text does whose last character is no blank. -/
theorem exists_mark_inside {before text rest blank mark : Text} (hn : text ≠ [])
    (hl : NoBlankLast (before ++ text)) (hb : AllBlank blank)
    (h : text ++ rest = blank ++ mark) :
    ∃ inside, inside ≠ [] ∧ text = blank ++ inside ∧ mark = inside ++ rest := by
  have last {t : Text} (ht : NoBlankLast (before ++ t)) (ha : AllBlank t) : t = [] := by
    rcases List.eq_nil_or_concat t with rfl | ⟨t, c, rfl⟩
    · rfl
    · have hc := ht c (by simp [List.getLast?_append])
      rw [ha c (by simp)] at hc
      simp at hc
  rcases List.append_eq_append_iff.mp h with ⟨u, hu, -⟩ | ⟨u, hu, hm⟩
  · exact absurd (last hl fun c hc => hb c (by simp [hu, hc])) hn
  · refine ⟨u, ?_, hu, hm⟩
    rintro rfl
    rw [List.append_nil] at hu
    exact hn (last hl (hu ▸ hb))

theorem NoBlankLast.append {a b : Text} (hb : NoBlankLast b) (ha : b = [] → NoBlankLast a) :
    NoBlankLast (a ++ b) := by
  rcases List.eq_nil_or_concat b with rfl | ⟨b, d, rfl⟩
  · simpa using ha rfl
  · intro c hc
    refine hb c ?_
    simpa [List.getLast?_append] using hc

/-- Blanks are cut off in the last piece, unless nothing would be left of it. -/
theorem trimEnd_append {a b : Text} (h : trimEnd b = [] → NoBlankLast a) :
    trimEnd (a ++ b) = a ++ trimEnd b := by
  obtain ⟨blanks, hblanks, ht⟩ := exists_blanks_trimEnd b
  calc trimEnd (a ++ b) = trimEnd ((a ++ trimEnd b) ++ blanks) := by
        rw [List.append_assoc, ← ht]
    _ = trimEnd (a ++ trimEnd b) := trimEnd_append_blanks _ hblanks
    _ = a ++ trimEnd b := trimEnd_eq_self ((noBlankLast_trimEnd b).append h)

theorem trimEnd_ne_nil {text : Text} (hn : text ≠ []) (hf : NoBlankFirst text) :
    trimEnd text ≠ [] := by
  intro he
  obtain ⟨blanks, hblanks, ht⟩ := exists_blanks_trimEnd text
  rw [he, List.nil_append] at ht
  cases text with
  | nil => exact hn rfl
  | cons c text =>
    have := hblanks c (by rw [← ht]; exact List.mem_cons_self)
    rw [hf c rfl] at this
    simp at this

theorem NoBlankFirst.trimEnd {text : Text} (h : NoBlankFirst text) :
    NoBlankFirst (trimEnd text) := by
  obtain ⟨blanks, -, ht⟩ := exists_blanks_trimEnd text
  cases hs : Text.trimEnd text with
  | nil => intro c hc; simp at hc
  | cons c rest =>
    intro d hd
    refine h d ?_
    rw [ht, hs]
    exact hd

theorem trimStart_blanks_append {a : Text} (ha : AllBlank a) (b : Text) :
    trimStart (a ++ b) = trimStart b :=
  List.dropWhile_append_of_pos ha

/-- Blanks around a text that has none at its ends are what `trim` cuts off. -/
theorem trim_between {before text after : Text} (hb : AllBlank before) (ha : AllBlank after)
    (hf : NoBlankFirst text) (hl : NoBlankLast text) : trim (before ++ text ++ after) = text := by
  rw [trim, List.append_assoc, trimStart_blanks_append hb]
  by_cases hn : text = []
  · rw [hn, List.nil_append, trimStart_eq_nil ha]
    rfl
  · rw [trimStart_eq_self (hf.append_left hn _), trimEnd_append_blanks _ ha, trimEnd_eq_self hl]

theorem trim_eq_self {text : Text} (hf : NoBlankFirst text) (hl : NoBlankLast text) :
    trim text = text := by
  rw [trim, trimStart_eq_self hf, trimEnd_eq_self hl]

theorem ends_of_trim_eq {text : Text} (h : trim text = text) :
    NoBlankFirst text ∧ NoBlankLast text := by
  have hlast : NoBlankLast text := h ▸ noBlankLast_trimEnd _
  refine ⟨?_, hlast⟩
  obtain ⟨blanks, hblanks, ht⟩ := exists_blanks_trimStart text
  obtain ⟨behind, hbehind, hs⟩ := exists_blanks_trimEnd (trimStart text)
  have hlen := congrArg List.length ht
  have hlen' := congrArg List.length hs
  have htrim : (trimEnd (trimStart text)).length = text.length := congrArg List.length h
  simp only [List.length_append] at hlen hlen'
  have hnil : blanks = [] := List.eq_nil_of_length_eq_zero (by omega)
  rw [hnil, List.nil_append] at ht
  exact ht ▸ noBlankFirst_trimStart text

end Stencil.Text
