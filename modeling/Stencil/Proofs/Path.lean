import Mathlib.Data.List.TakeWhile
import Stencil.Files.Path
import Stencil.Proofs.Offset

/-!
# Paths and their parts

A path is its parts with slashes between them (`join_parts`), and a path that is put together from
names has these names (`names_ofNames`). A path that ends in a name is told from its directory by
that name (`names_of_parts`), and the directory is written no longer than the path. With another
extension a path has the same directory (`parts_withExtension`, `directoryOf_withExtension`).
-/

namespace Stencil.Text

theorem splitOn_ne_nil (p : Char → Bool) (text : Text) : splitOn p text ≠ [] := by
  cases text with
  | nil => simp [splitOn]
  | cons c rest =>
    cases h : splitOn p rest <;> cases hp : p c <;> simp [splitOn, hp, h, consFirst]

/-- No separator is in a part, and the parts have no other characters than the text. -/
theorem mem_splitOn {p : Char → Bool} {text part : Text} (h : part ∈ splitOn p text) :
    ∀ c ∈ part, p c = false ∧ c ∈ text := by
  induction text generalizing part with
  | nil => simp_all [splitOn]
  | cons c rest ih =>
    cases hp : p c with
    | true =>
      simp only [splitOn, hp, ↓reduceIte, List.mem_cons] at h
      rcases h with rfl | h
      · simp
      · intro d hd
        exact ⟨(ih h d hd).1, List.mem_cons_of_mem _ (ih h d hd).2⟩
    | false =>
      cases hs : splitOn p rest with
      | nil => exact absurd hs (splitOn_ne_nil p rest)
      | cons first parts =>
        simp only [splitOn, hp, Bool.false_eq_true, ↓reduceIte, hs, consFirst, List.mem_cons] at h
        rcases h with rfl | h
        · intro d hd
          rcases List.mem_cons.mp hd with rfl | hd
          · exact ⟨hp, List.mem_cons_self⟩
          · have := ih (hs ▸ List.mem_cons_self) d hd
            exact ⟨this.1, List.mem_cons_of_mem _ this.2⟩
        · intro d hd
          have := ih (hs ▸ List.mem_cons_of_mem _ h) d hd
          exact ⟨this.1, List.mem_cons_of_mem _ this.2⟩

theorem join_cons_of_ne_nil {mark part : Text} {parts : List Text} (h : parts ≠ []) :
    join mark (part :: parts) = part ++ mark ++ join mark parts := by
  cases parts with
  | nil => exact absurd rfl h
  | cons next parts => rfl

theorem join_splitOn (c : Char) (text : Text) : join [c] (splitOn (· == c) text) = text := by
  induction text with
  | nil => rfl
  | cons d rest ih =>
    by_cases h : d = c
    · subst h
      have := splitOn_ne_nil (· == d) rest
      simp [splitOn, join_cons_of_ne_nil this, ih]
    · cases hs : splitOn (· == c) rest with
      | nil => exact absurd hs (splitOn_ne_nil _ rest)
      | cons first parts =>
        rw [hs] at ih
        have hd : (d == c) = false := by simp [h]
        cases parts with
        | nil => simp_all [splitOn, consFirst, join]
        | cons next parts => simp_all [splitOn, consFirst, join]

theorem splitOn_append_separator {p : Char → Bool} {c : Char} (hc : p c = true) (a b : Text) :
    splitOn p (a ++ c :: b) = splitOn p a ++ splitOn p b := by
  induction a with
  | nil => simp [splitOn, hc]
  | cons d rest ih =>
    cases hd : p d with
    | true => simp [splitOn, hd, ih]
    | false =>
      cases hs : splitOn p rest with
      | nil => exact absurd hs (splitOn_ne_nil p rest)
      | cons first parts => simp [splitOn, hd, ih, hs, consFirst]

theorem splitOn_of_none {p : Char → Bool} {a : Text} (ha : ∀ d ∈ a, p d = false) :
    splitOn p a = [a] := by
  induction a with
  | nil => rfl
  | cons d a ih =>
    have hd := ha d List.mem_cons_self
    simp [splitOn, hd, ih fun e he => ha e (List.mem_cons_of_mem _ he), consFirst]

theorem splitOn_join {c : Char} {parts : List Text} (hn : parts ≠ [])
    (h : ∀ part ∈ parts, c ∉ part) : splitOn (· == c) (join [c] parts) = parts := by
  have free (part : Text) (hp : part ∈ parts) : ∀ d ∈ part, (d == c) = false := by
    rintro d hd
    simp only [beq_eq_false_iff_ne]
    rintro rfl
    exact h part hp hd
  induction parts with
  | nil => exact absurd rfl hn
  | cons part parts ih =>
    cases parts with
    | nil => exact splitOn_of_none (free part List.mem_cons_self)
    | cons next parts =>
      have rest := ih (by simp) (fun q hq => h q (List.mem_cons_of_mem _ hq))
        (fun q hq => free q (List.mem_cons_of_mem _ hq))
      rw [join_cons_of_ne_nil (by simp), List.append_assoc, List.singleton_append,
        splitOn_append_separator (by simp), splitOn_of_none (free part List.mem_cons_self), rest]
      rfl

theorem exists_append_replicate_of_dropEndWhile (c : Char) (text : Text) :
    ∃ count, text = dropEndWhile (· == c) text ++ List.replicate count c := by
  refine ⟨(text.reverse.takeWhile (· == c)).length, ?_⟩
  have hr : List.replicate (text.reverse.takeWhile (· == c)).length c =
      (text.reverse.takeWhile (· == c)).reverse := by
    refine (List.eq_replicate_iff.mpr ⟨List.length_reverse, fun d hd => ?_⟩).symm
    simpa using List.mem_takeWhile_imp (List.mem_reverse.mp hd)
  rw [hr, dropEndWhile, ← List.reverse_append, List.takeWhile_append_dropWhile, List.reverse_reverse]

/-- The size of parts with a mark behind each. -/
def spread : List Text → Nat
  | [] => 0
  | part :: parts => byteSize part + 1 + spread parts

theorem spread_append (a b : List Text) : spread (a ++ b) = spread a + spread b := by
  induction a with
  | nil => simp [spread]
  | cons part a ih => simp only [List.cons_append, spread, ih]; omega

theorem spread_filter_le (p : Text → Bool) (parts : List Text) :
    spread (parts.filter p) ≤ spread parts := by
  induction parts with
  | nil => simp [spread]
  | cons part parts ih =>
    cases h : p part <;> simp only [List.filter_cons, h, Bool.false_eq_true, ↓reduceIte, spread] <;>
      omega

theorem byteSize_join {c : Char} (hc : c.utf8Size = 1) {parts : List Text} (hn : parts ≠ []) :
    byteSize (join [c] parts) + 1 = spread parts := by
  induction parts with
  | nil => exact absurd rfl hn
  | cons part parts ih =>
    cases parts with
    | nil => simp [join, spread]
    | cons next parts =>
      have := ih (by simp)
      rw [join_cons_of_ne_nil (by simp), byteSize_append, byteSize_append]
      simp only [byteSize, hc, spread] at this ⊢
      omega

theorem mem_join {mark : Text} {parts : List Text} {c : Char} (h : c ∈ join mark parts) :
    c ∈ mark ∨ ∃ part ∈ parts, c ∈ part := by
  induction parts with
  | nil => simp [join] at h
  | cons part parts ih =>
    cases parts with
    | nil => exact Or.inr ⟨part, List.mem_cons_self, h⟩
    | cons next parts =>
      rw [join_cons_of_ne_nil (by simp), List.mem_append, List.mem_append] at h
      rcases h with (h | h) | h
      · exact Or.inr ⟨part, List.mem_cons_self, h⟩
      · exact Or.inl h
      · rcases ih h with h | ⟨q, hq, hc⟩
        · exact Or.inl h
        · exact Or.inr ⟨q, List.mem_cons_of_mem _ hq, hc⟩

theorem mem_join_of_mem {mark part : Text} {parts : List Text} {c : Char} (hp : part ∈ parts)
    (hc : c ∈ part) : c ∈ join mark parts := by
  induction parts with
  | nil => simp at hp
  | cons first parts ih =>
    cases parts with
    | nil =>
      obtain rfl := List.mem_singleton.mp hp
      exact hc
    | cons next parts =>
      rw [join_cons_of_ne_nil (by simp)]
      rcases List.mem_cons.mp hp with rfl | hp
      · simp [hc]
      · exact List.mem_append_right _ (ih hp)

theorem eq_append_of_cutLast? {mark text before after : Text}
    (h : cutLast? mark text = some (before, after)) : text = before ++ (mark ++ after) := by
  induction text generalizing before with
  | nil =>
    obtain ⟨rest, hr, he⟩ := Option.map_eq_some_iff.mp h
    obtain ⟨rfl, rfl⟩ := Prod.mk.inj he
    exact (List.isPrefixOf?_eq_some_iff_append_eq.mp hr).symm
  | cons c rest ih =>
    unfold cutLast? at h
    cases hc : cutLast? mark rest with
    | some cut =>
      obtain ⟨front, behind⟩ := cut
      simp only [hc, Option.some.injEq, Prod.mk.injEq] at h
      obtain ⟨rfl, rfl⟩ := h
      rw [ih hc, List.cons_append]
    | none =>
      simp only [hc] at h
      obtain ⟨behind, hr, he⟩ := Option.map_eq_some_iff.mp h
      obtain ⟨rfl, rfl⟩ := Prod.mk.inj he
      exact (List.isPrefixOf?_eq_some_iff_append_eq.mp hr).symm

theorem suffix_join (mark : Text) (front : List Text) (last : Text) :
    last <:+ join mark (front ++ [last]) := by
  induction front with
  | nil => exact List.suffix_rfl
  | cons first front ih =>
    rw [List.cons_append, join_cons_of_ne_nil (by simp)]
    exact ih.trans (List.suffix_append _ _)

end Stencil.Text

namespace Stencil.Path

/-- A part that leads somewhere. -/
def isName (part : Text) : Bool := part ≠ [] ∧ part ≠ ['.']

theorem names_eq (path : Text) : names path = (parts path).filter isName := rfl

theorem join_parts (path : Text) : Text.join ['/'] (parts path) = path :=
  Text.join_splitOn '/' path

theorem parts_ne_nil (path : Text) : parts path ≠ [] := Text.splitOn_ne_nil _ path

theorem parts_nil : parts [] = [[]] := rfl

theorem ne_nil_of_mem_parts {path part : Text} (h : part ∈ parts path) (hn : part ≠ []) :
    path ≠ [] := by
  rintro rfl
  exact hn (List.mem_singleton.mp h)

theorem slash_notMem_parts {path part : Text} (h : part ∈ parts path) : '/' ∉ part := by
  intro hm
  simpa using (Text.mem_splitOn h '/' hm).1

theorem spread_parts (path : Text) : Text.spread (parts path) = path.byteSize + 1 := by
  rw [← Text.byteSize_join (by decide : ('/' : Char).utf8Size = 1) (parts_ne_nil path), join_parts]

theorem parts_join {names : List Text} (hn : names ≠ []) (h : ∀ name ∈ names, '/' ∉ name) :
    parts (Text.join ['/'] names) = names := Text.splitOn_join hn h

theorem parts_cons_slash (path : Text) : parts ('/' :: path) = [] :: parts path := by
  simp [parts, Text.splitOn]

theorem parts_append_slash (a b : Text) : parts (a ++ '/' :: b) = parts a ++ parts b :=
  Text.splitOn_append_separator (by simp) a b

theorem parts_concat_slash (path : Text) : parts (path ++ ['/']) = parts path ++ [[]] :=
  parts_append_slash path []

theorem parts_of_noSlash {name : Text} (h : '/' ∉ name) : parts name = [name] := by
  refine Text.splitOn_of_none fun c hc => ?_
  simp only [beq_eq_false_iff_ne]
  rintro rfl
  exact h hc

/-- A text without a slash is added to the last part of a path. -/
theorem parts_append {a b : Text} (hb : '/' ∉ b) :
    ∃ front stem, parts a = front ++ [stem] ∧ parts (a ++ b) = front ++ [stem ++ b] := by
  obtain ⟨front, stem, ha⟩ : ∃ front stem, parts a = front ++ [stem] :=
    ⟨_, _, (List.dropLast_append_getLast (parts_ne_nil a)).symm⟩
  have ha' : a = Text.join ['/'] (front ++ [stem]) := by rw [← ha, join_parts]
  have hstem : '/' ∉ stem ++ b := by
    have hm : stem ∈ parts a := by simp [ha]
    simp [slash_notMem_parts hm, hb]
  have joined : a ++ b = Text.join ['/'] (front ++ [stem ++ b]) := by
    rw [ha']
    clear ha ha'
    induction front with
    | nil => rfl
    | cons first front ih =>
      rw [List.cons_append, List.cons_append, Text.join_cons_of_ne_nil (by simp),
        Text.join_cons_of_ne_nil (by simp), List.append_assoc, ih]
  refine ⟨front, stem, ha, ?_⟩
  rw [joined, parts_join (by simp)]
  intro name hm
  rcases List.mem_append.mp hm with hf | hl
  · exact slash_notMem_parts (by rw [ha]; exact List.mem_append_left _ hf)
  · rw [List.mem_singleton.mp hl]
    exact hstem

/-- A path below a directory goes through the parts of the directory. -/
theorem exists_parts_join (left : Text) : ∃ front, ∀ right, isAbsolute right = false →
    parts (join left right) = front ++ parts right := by
  by_cases blank : left = []
  · exact ⟨[], fun right hr => by simp [join, hr, blank]⟩
  · by_cases slash : left.getLast? = some '/'
    · obtain ⟨directory, rfl⟩ := List.getLast?_eq_some_iff.mp slash
      refine ⟨parts directory, fun right hr => ?_⟩
      simp only [join, hr, slash, Bool.false_eq_true, ↓reduceIte, beq_self_eq_true, Bool.or_true]
      rw [List.append_assoc, List.singleton_append, parts_append_slash]
    · refine ⟨parts left, fun right hr => ?_⟩
      simp [join, hr, blank, slash, parts_append_slash]

theorem isAbsolute_join_left {left right : Text} (hr : isAbsolute right = false) :
    isAbsolute (join left right) = isAbsolute left := by
  cases left with
  | nil =>
    have own : join [] right = right := by simp [join]
    rw [own, hr]
    rfl
  | cons c left =>
    simp only [join, hr, Bool.false_eq_true, ↓reduceIte]
    split <;> simp [isAbsolute]

def AreNames (names : List Text) : Prop := ∀ name ∈ names, isName name = true ∧ '/' ∉ name

theorem areNames_names (path : Text) : AreNames (names path) := by
  intro name h
  rw [names_eq, List.mem_filter] at h
  exact ⟨h.2, slash_notMem_parts h.1⟩

theorem AreNames.filter_eq {names : List Text} (h : AreNames names) : names.filter isName = names :=
  List.filter_eq_self.mpr fun name hm => (h name hm).1

theorem isAbsolute_join {names : List Text} (h : AreNames names) :
    isAbsolute (Text.join ['/'] names) = false := by
  cases names with
  | nil => rfl
  | cons name rest =>
    obtain ⟨hn, hs⟩ := h name List.mem_cons_self
    cases name with
    | nil => simp [isName] at hn
    | cons c name =>
      have hc : c ≠ '/' := by rintro rfl; simp at hs
      cases rest <;> simp [isAbsolute, Text.join, hc]

theorem names_join {names : List Text} (h : AreNames names) :
    Path.names (Text.join ['/'] names) = names := by
  rw [names_eq]
  by_cases hn : names = []
  · subst hn; rfl
  · rw [parts_join hn fun name hm => (h name hm).2, h.filter_eq]

theorem names_ofNames {names : List Text} (h : AreNames names) (absolute : Bool) :
    Path.names (ofNames absolute names) = names := by
  cases absolute with
  | false => exact names_join h
  | true =>
    show Path.names ('/' :: Text.join ['/'] names) = names
    rw [names_eq, parts_cons_slash, List.filter_cons_of_neg (by simp [isName]), ← names_eq,
      names_join h]

theorem isAbsolute_ofNames {names : List Text} (h : AreNames names) (absolute : Bool) :
    isAbsolute (ofNames absolute names) = absolute := by
  cases absolute with
  | false => exact isAbsolute_join h
  | true => rfl

/-- The directory that a path is written into, told by its own path. -/
def directoryOf (path : Text) : Text := if (parent path).isEmpty then ['.'] else parent path

theorem areNames_dropLast (path : Text) : AreNames (names path).dropLast :=
  fun name hm => areNames_names path name (List.dropLast_subset _ hm)

theorem names_directoryOf (path : Text) : names (directoryOf path) = (names path).dropLast := by
  have h := names_ofNames (areNames_dropLast path) (isAbsolute path)
  unfold directoryOf
  split
  · next he =>
    rw [← h, ← parent, List.isEmpty_iff.mp he]
    rfl
  · exact h

theorem isAbsolute_directoryOf (path : Text) : isAbsolute (directoryOf path) = isAbsolute path := by
  have h := isAbsolute_ofNames (areNames_dropLast path) (isAbsolute path)
  unfold directoryOf
  split
  · next he =>
    rw [← h, ← parent, List.isEmpty_iff.mp he]
    rfl
  · exact h

/-- The parents of a path have its names up to some place. -/
theorem names_of_mem_withParents {path way : Text} (h : way ∈ withParents path) :
    isAbsolute way = isAbsolute path ∧ ∃ count, names way = (names path).take count := by
  obtain ⟨count, -, rfl⟩ := List.mem_map.mp h
  have front : AreNames ((names path).take count) :=
    fun name hm => areNames_names path name (List.mem_of_mem_take hm)
  exact ⟨isAbsolute_ofNames front _, count, names_ofNames front _⟩

/-- What a path that ends in a name is made of. -/
theorem names_of_parts {path last : Text} {front : List Text} (h : parts path = front ++ [last])
    (hl : isName last = true) : names path = front.filter isName ++ [last] := by
  rw [names_eq, h, List.filter_append]
  simp [hl]

theorem byteSize_ofNames (absolute : Bool) (names : List Text) :
    (ofNames absolute names).byteSize ≤ Text.spread names + (if absolute then 1 else 0) := by
  have hj : (Text.join ['/'] names).byteSize ≤ Text.spread names := by
    by_cases hn : names = []
    · subst hn; simp [Text.join, Text.byteSize]
    · have := Text.byteSize_join (by decide : ('/' : Char).utf8Size = 1) hn
      omega
  have hs : Text.byteSize ['/'] = 1 := by decide
  cases absolute <;> simp only [ofNames, Bool.false_eq_true, ↓reduceIte, List.nil_append,
    Text.byteSize_append, hs] <;> omega

theorem byteSize_parent_le {path last : Text} {front : List Text} (h : parts path = front ++ [last])
    (hl : isName last = true) : (parent path).byteSize ≤ path.byteSize := by
  have size := spread_parts path
  rw [h, Text.spread_append] at size
  simp only [Text.spread] at size
  have hp : parent path = ofNames (isAbsolute path) (front.filter isName) := by
    rw [parent, names_of_parts h hl, List.dropLast_concat]
  have hb := byteSize_ofNames (isAbsolute path) (front.filter isName)
  rw [← hp] at hb
  have hf := Text.spread_filter_le isName front
  cases ha : isAbsolute path with
  | false => simp only [ha, Bool.false_eq_true, ↓reduceIte] at hb; omega
  | true =>
    -- An absolute path has an empty part in front, which leads nowhere.
    simp only [ha, ↓reduceIte] at hb
    cases path with
    | nil => simp [isAbsolute] at ha
    | cons c rest =>
      have hc : c = '/' := by simpa [isAbsolute] using ha
      subst hc
      rw [parts_cons_slash] at h
      cases front with
      | nil => simp [parts_ne_nil] at h
      | cons first front =>
        obtain rfl : [] = first := by simpa using congrArg List.head? h
        have hg := Text.spread_filter_le isName front
        have hz : Text.byteSize [] = 0 := rfl
        simp only [List.filter_cons, isName, ne_eq, not_true_eq_false, false_and, decide_false,
          Bool.false_eq_true, ↓reduceIte, Text.spread, hz] at hb size
        omega

theorem mem_directoryOf {path : Text} {c : Char} (h : c ∈ directoryOf path) :
    c = '/' ∨ c = '.' ∨ c ∈ path := by
  unfold directoryOf at h
  split at h
  · exact Or.inr (Or.inl (by simpa using h))
  · simp only [parent, ofNames, List.mem_append] at h
    rcases h with h | h
    · split at h <;> simp_all
    · rcases Text.mem_join h with h | ⟨name, hn, hc⟩
      · exact Or.inl (by simpa using h)
      · have hp : name ∈ parts path :=
          List.mem_of_mem_filter (List.dropLast_subset _ hn)
        exact Or.inr (Or.inr (Text.mem_splitOn hp c hc).2)

theorem directoryOf_ne_nil (path : Text) : directoryOf path ≠ [] := by
  unfold directoryOf
  split
  · simp
  · next h => simpa using h

theorem mem_join {left right : Text} {c : Char} (h : c ∈ join left right) :
    c ∈ left ∨ c = '/' ∨ c ∈ right := by
  unfold join at h
  split at h
  · exact .inr (.inr h)
  · split at h <;> simp only [List.mem_append, List.mem_singleton] at h <;> tauto

/-- Names that are joined to a directory stay different. -/
theorem join_left_inj {directory a b : Text} (ha : isAbsolute a = false)
    (hb : isAbsolute b = false) : join directory a = join directory b ↔ a = b := by
  unfold join
  simp only [ha, hb, Bool.false_eq_true, ↓reduceIte]
  split <;> simp

/-! ## Another extension -/

/-- A path ends in a name, but for parts that lead nowhere. -/
structure EndsIn (path : Text) (front : List Text) (name : Text) : Prop where
  cut : ∃ blank, parts path = front ++ name :: blank ∧ ∀ part ∈ blank, isName part = false
  named : isName name = true
  notUp : name ≠ ['.', '.']

theorem exists_endsIn {path name : Text} (h : fileName? path = some name) :
    ∃ front, EndsIn path front name := by
  obtain ⟨last, up⟩ := Option.filter_eq_some_iff.mp h
  rw [names_eq, List.getLast?_filter] at last
  obtain ⟨named, blank, front, cut, skipped⟩ := List.find?_eq_some_iff_append.mp last
  refine ⟨front.reverse, ⟨blank.reverse, ?_, ?_⟩, named, of_decide_eq_true up⟩
  · rw [← List.reverse_reverse (parts path), cut]
    simp
  · simpa using skipped

theorem fileName?_eq_some {path name : Text} {front : List Text} (h : EndsIn path front name) :
    fileName? path = some name := by
  obtain ⟨⟨blank, cut, skipped⟩, named, up⟩ := h
  have nothing : blank.filter isName = [] := List.filter_eq_nil_iff.mpr (by simpa using skipped)
  have last : (names path).getLast? = some name := by
    rw [names_eq, cut, List.filter_append, List.filter_cons_of_pos named, nothing]
    simp
  simpa [fileName?, last, Option.filter] using up

theorem EndsIn.of_parts {path last : Text} {front : List Text} (h : parts path = front ++ [last])
    (hl : isName last = true) (up : last ≠ ['.', '.']) : EndsIn path front last :=
  ⟨⟨[], h, by simp⟩, hl, up⟩

theorem mem_renameExtension {extension name : Text} {c : Char}
    (h : c ∈ renameExtension extension name) : c ∈ name ∨ c = '.' ∨ c ∈ extension := by
  rcases List.mem_append.mp h with stem | rest
  · refine .inl ?_
    unfold cutExtension? at stem
    cases hc : Text.cutLast? ['.'] name with
    | none => simpa [hc] using stem
    | some cut =>
      obtain ⟨before, after⟩ := cut
      rw [hc, Option.filter_some] at stem
      by_cases blank : before.isEmpty = true
      · simpa [blank] using stem
      · rw [Text.eq_append_of_cutLast? hc]
        exact List.mem_append_left _ (by simpa [blank] using stem)
  · exact .inr (List.mem_cons.mp rest)

/-- An extension of more than one character makes a name. -/
theorem isName_renameExtension {extension : Text} (h : 2 ≤ extension.length) (name : Text) :
    isName (renameExtension extension name) = true ∧
      renameExtension extension name ≠ ['.', '.'] := by
  have long : 3 ≤ (renameExtension extension name).length := by
    simp only [renameExtension, List.length_append, List.length_cons]
    omega
  refine ⟨decide_eq_true ⟨?_, ?_⟩, ?_⟩ <;> intro he <;> simp [he] at long

section Extension

variable {path name extension : Text} {front : List Text} (h : EndsIn path front name)
  (noSlash : '/' ∉ extension)

include h noSlash

theorem parts_withExtension :
    parts (withExtension extension path) = front ++ [renameExtension extension name] := by
  obtain ⟨blank, cut, skipped⟩ := h.cut
  have kept : ((parts path).reverse.dropWhile fun part => part = [] ∨ part = ['.']).tail.reverse =
      front := by
    have leads : ¬(name = [] ∨ name = ['.']) := by simpa [isName, not_or] using h.named
    have nowhere : ∀ part ∈ blank.reverse, decide (part = [] ∨ part = ['.']) = true := by
      intro part hm
      have skip := skipped part (List.mem_reverse.mp hm)
      by_cases blank : part = [] <;> simp_all [isName]
    rw [cut, List.reverse_append, List.reverse_cons, List.append_assoc, List.singleton_append,
      List.dropWhile_append_of_pos nowhere, List.dropWhile_cons_of_neg (by simpa using leads),
      List.tail_cons, List.reverse_reverse]
  simp only [withExtension, fileName?_eq_some h, kept]
  refine parts_join (by simp) fun part hm => ?_
  have own {part : Text} (hm : part ∈ front ++ name :: blank) : '/' ∉ part :=
    slash_notMem_parts (by rwa [cut])
  rcases List.mem_append.mp hm with hm | hm
  · exact own (List.mem_append_left _ hm)
  · obtain rfl := List.mem_singleton.mp hm
    intro slash
    rcases mem_renameExtension slash with hc | hc | hc
    · exact own (by simp) hc
    · exact absurd hc (by decide)
    · exact noSlash hc

theorem isAbsolute_withExtension :
    isAbsolute (withExtension extension path) = isAbsolute path := by
  -- A path is absolute when its first part is empty and not the only one.
  have told (path : Text) : isAbsolute path =
      ((parts path).head? == some [] && !(parts path).tail.isEmpty) := by
    cases path with
    | nil => rfl
    | cons c rest =>
      by_cases hc : c = '/'
      · subst hc
        simp [parts_cons_slash, isAbsolute, parts_ne_nil]
      · cases hs : parts rest with
        | nil => exact absurd hs (parts_ne_nil rest)
        | cons part more =>
          have cons : parts (c :: rest) = (c :: part) :: more := by
            have plain : (c == '/') = false := by simpa using hc
            unfold parts at hs ⊢
            simp only [Text.splitOn, plain, Bool.false_eq_true, ↓reduceIte, hs, Text.consFirst]
          simp [cons, isAbsolute, hc]
  obtain ⟨blank, cut, -⟩ := h.cut
  rw [told, told, parts_withExtension h noSlash, cut]
  cases front with
  | nil =>
    have named : name ≠ [] := by
      have := h.named
      rintro rfl
      simp [isName] at this
    simp [renameExtension, named]
  | cons first front =>
    have more (last : Text) (blank : List Text) : (front ++ last :: blank).isEmpty = false := by
      simp
    simp [more]

/-- A path with another extension is in the same directory. -/
theorem directoryOf_withExtension (long : 2 ≤ extension.length) :
    directoryOf (withExtension extension path) = directoryOf path := by
  obtain ⟨blank, cut, skipped⟩ := h.cut
  have nothing : blank.filter isName = [] := List.filter_eq_nil_iff.mpr (by simpa using skipped)
  have same : (names (withExtension extension path)).dropLast = (names path).dropLast := by
    rw [names_of_parts (parts_withExtension h noSlash) (isName_renameExtension long name).1,
      names_eq, cut, List.filter_append, List.filter_cons_of_pos h.named, nothing]
    simp
  have parents : parent (withExtension extension path) = parent path := by
    rw [parent, parent, same, isAbsolute_withExtension h noSlash]
  rw [directoryOf, directoryOf, parents]

end Extension

/-- A path with another extension has no other characters than the old one and the extension. -/
theorem mem_withExtension {path name extension : Text} {front : List Text} {c : Char}
    (h : EndsIn path front name) (noSlash : '/' ∉ extension)
    (hm : c ∈ withExtension extension path) : c ∈ path ∨ c = '/' ∨ c = '.' ∨ c ∈ extension := by
  obtain ⟨blank, cut, -⟩ := h.cut
  have own {part : Text} (hp : part ∈ front ++ name :: blank) (hc : c ∈ part) : c ∈ path :=
    (Text.mem_splitOn (by rw [← cut] at hp; exact hp) c hc).2
  rw [← join_parts (withExtension extension path), parts_withExtension h noSlash] at hm
  rcases Text.mem_join hm with hc | ⟨part, hp, hc⟩
  · exact .inr (.inl (by simpa using hc))
  · rcases List.mem_append.mp hp with hp | hp
    · exact .inl (own (List.mem_append_left _ hp) hc)
    · obtain rfl := List.mem_singleton.mp hp
      rcases mem_renameExtension hc with hc | hc | hc
      · exact .inl (own (by simp) hc)
      · exact .inr (.inr (.inl hc))
      · exact .inr (.inr (.inr hc))

/-! ## Below a directory -/

/-- A path that is a directory with something behind it: it starts as the directory does, in letters
and in names, and goes on. -/
structure Leads (directory below path : Text) : Prop where
  joined : path = join directory below
  relative : isAbsolute below = false
  starts : directory <+: path
  origin : isAbsolute path = isAbsolute directory
  names : names path = names directory ++ names below

theorem prefix_join {left right : Text} (hr : isAbsolute right = false) :
    left <+: join left right := by
  simp only [join, hr, Bool.false_eq_true, ↓reduceIte]
  split
  · exact List.prefix_append _ _
  · rw [List.append_assoc]
    exact List.prefix_append _ _

theorem names_join_nil (left : Text) : names (join left []) = names left := by
  have relative : isAbsolute [] = false := rfl
  simp only [join, relative, Bool.false_eq_true, ↓reduceIte, List.append_nil]
  split
  · rfl
  · simp [names_eq, parts_concat_slash, isName]

/-- A join with what is not absolute keeps the directory. -/
theorem leads_join {directory below : Text} (h : isAbsolute below = false) :
    Leads directory below (join directory below) := by
  refine ⟨rfl, h, prefix_join h, isAbsolute_join_left h, ?_⟩
  obtain ⟨front, parts_join⟩ := exists_parts_join directory
  have own : names directory = front.filter isName := by
    rw [← names_join_nil directory, names_eq, parts_join [] rfl]
    simp [parts, Text.splitOn, isName]
  rw [own, names_eq, parts_join below h, List.filter_append, ← names_eq]

end Stencil.Path
