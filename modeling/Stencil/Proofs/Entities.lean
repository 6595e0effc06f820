import Mathlib.Data.List.Basic
import Stencil.Text.Markup

/-!
# Escaped text

Escaping puts entities in the place of the characters with a meaning in markup. Proved here:

* `unescape_entity`, `unescape_cons`: reading back (`unescape`) goes through a text once, from left
  to right, and takes an entity wherever one stands;
* `isEscaped_escape`: what has been escaped has none of the four delimiters, and an ampersand only at
  the start of an entity (`IsEscaped`);
* `unescape_escape`, `escape_unescape`: reading back undoes escaping, and every text of that form has
  been escaped;
* `escape_injective`: so nothing is lost, text by text and piece by piece.
-/

namespace Stencil.Markup

def delimiters : List Char := ['<', '>', '"', '\'']

/-- One of the entities that escaping writes stands at the start of the text. -/
def StartsEntity (text : Text) : Prop := ∃ entry ∈ entities, entry.2 <+: text

/-- The form of what has been escaped: no delimiter, and no ampersand but that of an entity. -/
structure IsEscaped (text : Text) : Prop where
  noDelimiter : ∀ c ∈ delimiters, c ∉ text
  entity : ∀ before after, text = before ++ '&' :: after → StartsEntity ('&' :: after)

/-- Replaces the entities that `escape` writes, from left to right in one pass. -/
def unescape : Text → Text
  | '&' :: 'l' :: 't' :: ';' :: rest => '<' :: unescape rest
  | '&' :: 'g' :: 't' :: ';' :: rest => '>' :: unescape rest
  | '&' :: 'a' :: 'm' :: 'p' :: ';' :: rest => '&' :: unescape rest
  | '&' :: 'q' :: 'u' :: 'o' :: 't' :: ';' :: rest => '"' :: unescape rest
  | '&' :: '#' :: 'x' :: '2' :: '7' :: ';' :: rest => '\'' :: unescape rest
  | c :: rest => c :: unescape rest
  | [] => []

/-! ## One character -/

theorem mem_keys_iff (c : Char) : c ∈ entities.map Prod.fst ↔ c = '&' ∨ c ∈ delimiters := by
  simp only [entities, delimiters, List.map_cons, List.map_nil, List.mem_cons, List.not_mem_nil,
    or_false]
  tauto

theorem escapeChar_of_mem {entry : Char × Text} (h : entry ∈ entities) :
    escapeChar entry.1 = entry.2 := by
  have all : ∀ entry ∈ entities, escapeChar entry.1 = entry.2 := by decide
  exact all entry h

theorem escapeChar_of_notMem {c : Char} (h : c ∉ entities.map Prod.fst) : escapeChar c = [c] := by
  have missing : entities.lookup c = none := by
    rw [List.lookup_eq_none_iff]
    intro entry he
    have apart : c ≠ entry.1 := fun same => h (same ▸ List.mem_map_of_mem he)
    simpa using apart
  rw [escapeChar, missing]
  rfl

/-- An entity begins with an ampersand and has no other one, and no delimiter. -/
theorem entity_eq_cons {entry : Char × Text} (h : entry ∈ entities) :
    ∃ rest, entry.2 = '&' :: rest ∧ '&' ∉ rest ∧ ∀ c ∈ delimiters, c ∉ entry.2 := by
  have all : ∀ entry ∈ entities, entry.2 = '&' :: entry.2.tail ∧ '&' ∉ entry.2.tail ∧
      ∀ c ∈ delimiters, c ∉ entry.2 := by decide
  exact ⟨_, all entry h⟩

theorem not_startsEntity_cons {c : Char} (h : c ≠ '&') (rest : Text) :
    ¬ StartsEntity (c :: rest) := by
  rintro ⟨entry, he, more, written⟩
  obtain ⟨tail, begins, -, -⟩ := entity_eq_cons he
  rw [begins] at written
  exact h (List.cons.inj written).1.symm

theorem StartsEntity.append {text : Text} (h : StartsEntity text) (more : Text) :
    StartsEntity (text ++ more) := by
  obtain ⟨entry, he, starts⟩ := h
  exact ⟨entry, he, starts.trans (List.prefix_append text more)⟩

/-! ## Reading back -/

theorem unescape_entity {entry : Char × Text} (h : entry ∈ entities) (rest : Text) :
    unescape (entry.2 ++ rest) = entry.1 :: unescape rest := by
  simp only [entities, List.mem_cons, List.not_mem_nil, or_false] at h
  rcases h with rfl | rfl | rfl | rfl | rfl <;> rfl

theorem unescape_cons {c : Char} {rest : Text} (h : ¬ StartsEntity (c :: rest)) :
    unescape (c :: rest) = c :: unescape rest := by
  have absent (entry : Char × Text) (he : entry ∈ entities) (more : Text) :
      c :: rest ≠ entry.2 ++ more := fun same => h ⟨entry, he, more, same.symm⟩
  rw [unescape]
  · rintro more rfl rfl
    exact absent ('<', "&lt;".toList) (by decide) more rfl
  · rintro more rfl rfl
    exact absent ('>', "&gt;".toList) (by decide) more rfl
  · rintro more rfl rfl
    exact absent ('&', "&amp;".toList) (by decide) more rfl
  · rintro more rfl rfl
    exact absent ('"', "&quot;".toList) (by decide) more rfl
  · rintro more rfl rfl
    exact absent ('\'', "&#x27;".toList) (by decide) more rfl

/-! ## Escaping -/

theorem escape_append (a b : Text) : escape (a ++ b) = escape a ++ escape b := List.flatMap_append

theorem escape_cons (c : Char) (text : Text) : escape (c :: text) = escapeChar c ++ escape text :=
  rfl

theorem unescape_escape (text : Text) : unescape (escape text) = text := by
  induction text with
  | nil => rfl
  | cons c text ih =>
    rw [escape_cons]
    by_cases h : c ∈ entities.map Prod.fst
    · obtain ⟨entry, he, rfl⟩ := List.mem_map.mp h
      rw [escapeChar_of_mem he, unescape_entity he, ih]
    · have plain : c ≠ '&' := fun same => h ((mem_keys_iff c).mpr (Or.inl same))
      rw [escapeChar_of_notMem h, List.singleton_append,
        unescape_cons (not_startsEntity_cons plain _), ih]

theorem escape_injective : Function.Injective escape :=
  Function.LeftInverse.injective unescape_escape

/-! ## The form of what has been escaped -/

theorem IsEscaped.nil : IsEscaped [] := ⟨by simp, by simp⟩

theorem IsEscaped.append {a b : Text} (ha : IsEscaped a) (hb : IsEscaped b) :
    IsEscaped (a ++ b) where
  noDelimiter c hc := List.not_mem_append (ha.noDelimiter c hc) (hb.noDelimiter c hc)
  entity before after h := by
    rcases List.append_eq_append_iff.mp h with ⟨u, rfl, hu⟩ | ⟨u, rfl, hu⟩
    · exact hb.entity u after hu
    · cases u with
      | nil => exact hb.entity [] after hu.symm
      | cons c u =>
        obtain ⟨rfl, rfl⟩ := List.cons.inj hu
        exact (ha.entity before u rfl).append b

theorem IsEscaped.of_append {a b : Text} (h : IsEscaped (a ++ b)) : IsEscaped b where
  noDelimiter c hc hm := h.noDelimiter c hc (List.mem_append_right a hm)
  entity before after hb := h.entity (a ++ before) after (by rw [hb, List.append_assoc])

theorem isEscaped_escapeChar (c : Char) : IsEscaped (escapeChar c) := by
  by_cases h : c ∈ entities.map Prod.fst
  · obtain ⟨entry, he, rfl⟩ := List.mem_map.mp h
    rw [escapeChar_of_mem he]
    obtain ⟨rest, begins, single, noDelimiter⟩ := entity_eq_cons he
    refine ⟨noDelimiter, fun before after hs => ?_⟩
    cases before with
    | nil => exact ⟨entry, he, hs ▸ List.prefix_rfl⟩
    | cons d before =>
      rw [begins] at hs
      obtain ⟨-, rfl⟩ := List.cons.inj hs
      simp at single
  · rw [escapeChar_of_notMem h]
    rw [mem_keys_iff, not_or] at h
    obtain ⟨plain, notDelimiter⟩ := h
    refine ⟨fun d hd hm => notDelimiter (List.mem_singleton.mp hm ▸ hd), fun before after hs => ?_⟩
    cases before with
    | nil => exact absurd (List.cons.inj hs).1 plain
    | cons d before => simp at hs

theorem isEscaped_escape (text : Text) : IsEscaped (escape text) := by
  induction text with
  | nil => exact .nil
  | cons c text ih => exact (isEscaped_escapeChar c).append ih

theorem delimiter_notMem_escape {c : Char} (hc : c ∈ delimiters) (raw : Text) : c ∉ escape raw :=
  (isEscaped_escape raw).noDelimiter c hc

/-- A text of that form is what escaping makes of the text that is read back from it. -/
theorem escape_unescape {text : Text} (h : IsEscaped text) : escape (unescape text) = text := by
  induction hn : text.length using Nat.strongRecOn generalizing text with
  | ind n ih =>
    subst hn
    cases text with
    | nil => rfl
    | cons c rest =>
      by_cases hs : StartsEntity (c :: rest)
      · obtain ⟨entry, he, more, written⟩ := hs
        obtain ⟨tail, begins, -, -⟩ := entity_eq_cons he
        have shorter : more.length < (c :: rest).length := by
          rw [← written, begins, List.length_append, List.length_cons]
          omega
        rw [← written] at h ⊢
        rw [unescape_entity he, escape_cons, escapeChar_of_mem he, ih _ shorter h.of_append rfl]
      · have notKey : c ∉ entities.map Prod.fst := by
          rw [mem_keys_iff]
          rintro (rfl | hc)
          · exact hs (h.entity [] rest rfl)
          · exact h.noDelimiter c hc List.mem_cons_self
        have tail : IsEscaped ([c] ++ rest) := h
        rw [unescape_cons hs, escape_cons, escapeChar_of_notMem notKey,
          ih _ (Nat.lt_succ_self _) tail.of_append rfl]
        rfl

/-- What has been escaped has no delimiter, and each ampersand in it starts an entity. Every text of
that form has been escaped, and is read back as what it was. Escaping goes piece by piece and loses
nothing. -/
theorem escape_reads_back (text other : Text) :
    IsEscaped (escape text) ∧ unescape (escape text) = text ∧
      escape (text ++ other) = escape text ++ escape other ∧
      (escape text = escape other ↔ text = other) ∧
      (IsEscaped other ↔ ∃ raw, escape raw = other) := by
  refine ⟨isEscaped_escape text, unescape_escape text, escape_append text other,
    escape_injective.eq_iff, fun h => ⟨_, escape_unescape h⟩, ?_⟩
  rintro ⟨raw, rfl⟩
  exact isEscaped_escape raw

/-- Parts of entities next to characters with a meaning. -/
example : escape "&lt<&#x27';".toList = "&amp;lt&lt;&amp;#x27&#x27;;".toList ∧
    unescape "&amp;lt&lt;&amp;#x27&#x27;;".toList = "&lt<&#x27';".toList := by decide

end Stencil.Markup
