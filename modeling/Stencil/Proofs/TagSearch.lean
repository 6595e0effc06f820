import Stencil.Proofs.LeftmostMatch
import Stencil.Proofs.PrintedProgram
import Stencil.Proofs.TagTokens

/-!
# Tags by search

Artifact source is cut mark by mark. That is said here without a state: the first place of the
opening mark is searched for, behind it the first place of the closing mark, and so on (`search`).
Proved here:

* `splitText_eq_search`: cutting is searching;
* `search_ok`: what has been cut gives the source back, and no mark is hidden in it (`Faithful`);
* `search_eq_error_iff`: the one reason for a failure is a tag that is never closed;
* `split_searches`: all of that for `split`, and for tokens that are each the longest.
-/

namespace Stencil.Artifact

open Template (marks_closing marks_opening splitTag_piece splitText_piece)

/-! ## The first place of a mark -/

theorem no_closing_before {text rest : Text} (h : ¬ tagClose <:+: text)
    (hr : ∀ c, rest.head? = some c → c = '?') :
    ∀ a c b, text = a ++ c :: b → ¬ tagClose <+: c :: b ++ rest :=
  not_prefix_of_absent '?' ">".toList (by decide) h hr

theorem opening_found_iff {text before after : Text} :
    Text.cut? tagOpen text = some (before, after) ↔
      text = before ++ (tagOpen ++ after) ∧ ¬ tagOpen <:+: before :=
  Text.cut?_eq_some_iff '<' "?vm".toList (by decide)

theorem closing_found_iff {text before after : Text} :
    Text.cut? tagClose text = some (before, after) ↔
      text = before ++ (tagClose ++ after) ∧ ¬ tagClose <:+: before :=
  Text.cut?_eq_some_iff '?' ">".toList (by decide)

theorem cut?_opening {text : Text} (h : ¬ tagOpen <:+: text) (inside : Text) :
    Text.cut? tagOpen (text ++ (tagOpen ++ inside)) = some (text, inside) :=
  opening_found_iff.mpr ⟨rfl, h⟩

theorem cut?_closing {body : Text} (h : ¬ tagClose <:+: body) (rest : Text) :
    Text.cut? tagClose (body ++ (tagClose ++ rest)) = some (body, rest) :=
  closing_found_iff.mpr ⟨rfl, h⟩

/-- Every source is without an opening mark, or has a first tag, which is closed or not. -/
theorem source_induction {p : Text → Prop} (free : ∀ source, ¬ tagOpen <:+: source → p source)
    (unclosed : ∀ text inside, ¬ tagOpen <:+: text → ¬ tagClose <:+: inside →
      p (text ++ (tagOpen ++ inside)))
    (closed : ∀ text body rest, ¬ tagOpen <:+: text → ¬ tagClose <:+: body → p rest →
      p (text ++ (tagOpen ++ (body ++ (tagClose ++ rest))))) : ∀ source, p source := by
  intro source
  induction hn : source.length using Nat.strongRecOn generalizing source with
  | ind n ih =>
    cases ho : Text.cut? tagOpen source with
    | none => exact free source (Text.cut?_eq_none_iff.mp ho)
    | some parts =>
      obtain ⟨text, inside⟩ := parts
      obtain ⟨rfl, hopen⟩ := opening_found_iff.mp ho
      cases hc : Text.cut? tagClose inside with
      | none => exact unclosed text inside hopen (Text.cut?_eq_none_iff.mp hc)
      | some parts =>
        obtain ⟨body, rest⟩ := parts
        obtain ⟨rfl, hclose⟩ := closing_found_iff.mp hc
        refine closed text body rest hopen hclose (ih rest.length ?_ rest rfl)
        simp only [List.length_append] at hn
        have : 0 < tagOpen.length := by decide
        omega

/-! ## Searching -/

/-- Cuts source that starts on a line by searching for the marks. On failure the answer is the line
of the tag that is never closed. -/
def search (line : Nat) (source : Text) : Except Nat (List Chunk) :=
  match _ho : Text.cut? tagOpen source with
  | none => .ok (consText source [])
  | some (text, inside) =>
    match _hc : Text.cut? tagClose inside with
    | none => .error (line + text.count '\n')
    | some (body, rest) =>
      (search (line + text.count '\n' + body.count '\n') rest).map fun chunks =>
        consText text (.tag body (line + text.count '\n') :: chunks)
termination_by source.length
decreasing_by
  obtain ⟨rfl, -⟩ := opening_found_iff.mp _ho
  obtain ⟨rfl, -⟩ := closing_found_iff.mp _hc
  simp [tagOpen, tagClose]
  omega

theorem search_free {source : Text} (h : ¬ tagOpen <:+: source) (line : Nat) :
    search line source = .ok (consText source []) := by
  have absent := Text.cut?_eq_none_iff.mpr h
  rw [search]
  split
  · rfl
  · next found => rw [absent] at found; cases found

theorem search_unclosed {text inside : Text} (h : ¬ tagOpen <:+: text)
    (hc : ¬ tagClose <:+: inside) (line : Nat) :
    search line (text ++ (tagOpen ++ inside)) = .error (line + text.count '\n') := by
  have absent := Text.cut?_eq_none_iff.mpr hc
  rw [search]
  split
  · next found => rw [cut?_opening h] at found; cases found
  · next found =>
    rw [cut?_opening h] at found
    cases found
    split
    · rfl
    · next found => rw [absent] at found; cases found

theorem search_closed {text body : Text} (h : ¬ tagOpen <:+: text) (hc : ¬ tagClose <:+: body)
    (line : Nat) (rest : Text) :
    search line (text ++ (tagOpen ++ (body ++ (tagClose ++ rest)))) =
      (search (line + text.count '\n' + body.count '\n') rest).map fun chunks =>
        consText text (.tag body (line + text.count '\n') :: chunks) := by
  rw [search]
  split
  · next found => rw [cut?_opening h] at found; cases found
  · next found =>
    rw [cut?_opening h] at found
    cases found
    split
    · next found => rw [cut?_closing hc] at found; cases found
    · next found =>
      rw [cut?_closing hc] at found
      cases found
      rfl

/-! ## Cutting is searching -/

theorem head?_tagOpen (rest : Text) : ∀ c, (tagOpen ++ rest).head? = some c → c = '<' := by
  intro c hc
  exact (Option.some.inj hc).symm

theorem head?_tagClose (rest : Text) : ∀ c, (tagClose ++ rest).head? = some c → c = '?' := by
  intro c hc
  exact (Option.some.inj hc).symm

/-- Source without an opening mark is text. -/
theorem splitText_free (line : Nat) {source : Text} (h : ¬ tagOpen <:+: source) :
    splitText line [] (marks source) = .ok (consText source []) := by
  have atEnd : ∀ c, ([] : Text).head? = some c → c = '<' := by simp
  have read := splitText_piece line [] (no_opening_before h atEnd)
  rw [List.append_nil] at read
  rw [read, List.append_nil, marks, splitText, List.reverse_reverse]

/-- A tag is entered at the first opening mark. -/
theorem splitText_opening (line : Nat) {text : Text} (h : ¬ tagOpen <:+: text) (inside : Text) :
    splitText line [] (marks (text ++ (tagOpen ++ inside))) =
      (splitTag (line + text.count '\n') (line + text.count '\n') [] (marks inside)).map
        (consText text) := by
  rw [splitText_piece line [] (no_opening_before h (head?_tagOpen inside)), marks_opening,
    splitText, List.append_nil, List.reverse_reverse]

/-- A tag is left at the first closing mark. -/
theorem splitTag_closing (start line : Nat) {body : Text} (h : ¬ tagClose <:+: body)
    (rest : Text) :
    splitTag start line [] (marks (body ++ (tagClose ++ rest))) =
      (splitText (line + body.count '\n') [] (marks rest)).map (.tag body start :: ·) := by
  rw [splitTag_piece start line [] (no_closing_before h (head?_tagClose rest)), marks_closing,
    splitTag, List.append_nil, List.reverse_reverse]

/-- A tag without a closing mark is never left. -/
theorem splitTag_unclosed (start line : Nat) {inside : Text} (h : ¬ tagClose <:+: inside) :
    splitTag start line [] (marks inside) = .error start := by
  have atEnd : ∀ c, ([] : Text).head? = some c → c = '?' := by simp
  have read := splitTag_piece start line [] (no_closing_before h atEnd)
  rw [List.append_nil] at read
  rw [read, marks, splitTag]

theorem splitText_eq_search (line : Nat) (source : Text) :
    splitText line [] (marks source) = search line source := by
  induction source using source_induction generalizing line with
  | free source h => rw [splitText_free line h, search_free h]
  | unclosed text inside h hc =>
    rw [splitText_opening line h, splitTag_unclosed _ _ hc, search_unclosed h hc]
    rfl
  | closed text body rest h hc ih =>
    rw [splitText_opening line h, splitTag_closing _ _ hc, ih, search_closed h hc]
    cases search (line + text.count '\n' + body.count '\n') rest <;> rfl

/-! ## What has been cut -/

def Chunk.source : Chunk → Text
  | .text t => t
  | .tag body _ => tagOpen ++ (body ++ tagClose)

/-- The chunks say the source that starts on a line, with no mark in them that would end one, and
each tag on its line. -/
structure Faithful (line : Nat) (source : Text) (chunks : List Chunk) : Prop where
  source : chunks.flatMap Chunk.source = source
  texts : ∀ text, .text text ∈ chunks → text ≠ [] ∧ ¬ tagOpen <:+: text
  bodies : ∀ body start, .tag body start ∈ chunks → ¬ tagClose <:+: body
  lines : ∀ front body start back, chunks = front ++ .tag body start :: back →
    start = line + (front.flatMap Chunk.source).count '\n'

namespace Faithful

theorem nil (line : Nat) : Faithful line [] [] :=
  ⟨rfl, by simp, by simp, by simp⟩

theorem consText {line : Nat} {text source : Text} {chunks : List Chunk}
    (free : ¬ tagOpen <:+: text) (h : Faithful (line + text.count '\n') source chunks) :
    Faithful line (text ++ source) (consText text chunks) := by
  cases text with
  | nil => exact h
  | cons c text =>
    have same : Artifact.consText (c :: text) chunks = .text (c :: text) :: chunks := rfl
    rw [same]
    refine ⟨?_, fun other ho => ?_, fun body start hb => ?_, fun front body start back hf => ?_⟩
    · rw [List.flatMap_cons, h.source]
      rfl
    · rcases List.mem_cons.mp ho with he | ho
      · cases he
        exact ⟨List.cons_ne_nil _ _, free⟩
      · exact h.texts other ho
    · rcases List.mem_cons.mp hb with he | hb
      · cases he
      · exact h.bodies body start hb
    · cases front with
      | nil => cases hf
      | cons first front =>
        obtain ⟨rfl, rest⟩ := List.cons.inj hf
        rw [h.lines front body start back rest, List.flatMap_cons, List.count_append, Chunk.source,
          Nat.add_assoc]

theorem consTag {line : Nat} {body source : Text} {chunks : List Chunk}
    (free : ¬ tagClose <:+: body) (h : Faithful (line + body.count '\n') source chunks) :
    Faithful line (tagOpen ++ (body ++ (tagClose ++ source))) (.tag body line :: chunks) := by
  have feeds : (Chunk.source (.tag body line)).count '\n' = body.count '\n' := by
    simp [Chunk.source, tagOpen, tagClose]
  refine ⟨?_, fun text ht => ?_, fun other start ho => ?_, fun front other start back hf => ?_⟩
  · rw [List.flatMap_cons, h.source, Chunk.source]
    simp only [List.append_assoc]
  · rcases List.mem_cons.mp ht with he | ht
    · cases he
    · exact h.texts text ht
  · rcases List.mem_cons.mp ho with he | ho
    · cases he
      exact free
    · exact h.bodies other start ho
  · cases front with
    | nil => cases hf; rfl
    | cons first front =>
      obtain ⟨rfl, rest⟩ := List.cons.inj hf
      rw [h.lines front other start back rest, List.flatMap_cons, List.count_append, feeds,
        Nat.add_assoc]

end Faithful

theorem search_ok {line : Nat} {source : Text} {chunks : List Chunk}
    (h : search line source = .ok chunks) : Faithful line source chunks := by
  induction source using source_induction generalizing line chunks with
  | free source ho =>
    rw [search_free ho] at h
    cases h
    simpa using Faithful.consText ho (.nil _)
  | unclosed text inside ho hc =>
    rw [search_unclosed ho hc] at h
    cases h
  | closed text body rest ho hc ih =>
    rw [search_closed ho hc] at h
    obtain ⟨more, hm, rfl⟩ := exists_of_map_eq_ok h
    exact .consText ho (.consTag hc (ih hm))

/-- A tag that is opened behind source that has been cut, and never closed, is reported. -/
theorem search_append {line : Nat} {before body : Text} {chunks : List Chunk}
    (h : search line before = .ok chunks) (hb : ¬ tagClose <:+: body) :
    search line (before ++ (tagOpen ++ body)) = .error (line + before.count '\n') := by
  induction before using source_induction generalizing line chunks with
  | free before ho => exact search_unclosed ho hb line
  | unclosed text inside ho hc =>
    rw [search_unclosed ho hc] at h
    cases h
  | closed text inner rest ho hc ih =>
    rw [search_closed ho hc] at h
    obtain ⟨more, hm, -⟩ := exists_of_map_eq_ok h
    simp only [List.append_assoc]
    rw [search_closed ho hc, ih hm]
    simp [Except.map, tagOpen, tagClose, Nat.add_assoc]

theorem search_eq_error_iff {line start : Nat} {source : Text} :
    search line source = .error start ↔
      ∃ before body chunks, source = before ++ (tagOpen ++ body) ∧
        search line before = .ok chunks ∧ ¬ tagClose <:+: body ∧
        start = line + before.count '\n' := by
  constructor
  · intro h
    induction source using source_induction generalizing line with
    | free source ho =>
      rw [search_free ho] at h
      cases h
    | unclosed text inside ho hc =>
      rw [search_unclosed ho hc] at h
      cases h
      exact ⟨text, inside, _, rfl, search_free ho line, hc, rfl⟩
    | closed text inner rest ho hc ih =>
      rw [search_closed ho hc] at h
      cases hr : search (line + text.count '\n' + inner.count '\n') rest with
      | ok chunks =>
        rw [hr] at h
        cases h
      | error other =>
        rw [hr] at h
        cases h
        obtain ⟨before, body, chunks, rfl, hb, hn, rfl⟩ := ih hr
        refine ⟨text ++ (tagOpen ++ (inner ++ (tagClose ++ before))), body, _, ?_,
          (search_closed ho hc line before).trans (by rw [hb]; rfl), hn, ?_⟩
        · simp only [List.append_assoc]
        · simp [tagOpen, tagClose, Nat.add_assoc]
  · rintro ⟨before, body, chunks, rfl, hb, hn, rfl⟩
    exact search_append hb hn

/-! ## Whole sources -/

/-- Source is cut where a search for the marks finds them, and tokens that are each the longest come
to the same. When every tag is closed, the chunks give the source back; no text is empty or has an
opening mark in it, no body has a closing mark in it, and each tag is on the line behind the line
feeds in front of it. Otherwise the answer is the line of the tag that is opened behind what can be
cut and that no closing mark follows. -/
theorem split_searches (source : Text) :
    split source = search 1 source ∧
      (∃ tokens, Lexed source tokens) ∧
      (∀ tokens, Lexed source tokens → gather tokens = split source) ∧
      (∀ chunks, split source = .ok chunks →
        chunks.flatMap Chunk.source = source ∧
          (∀ text, .text text ∈ chunks → text ≠ [] ∧ ¬ tagOpen <:+: text) ∧
          (∀ body line, .tag body line ∈ chunks → ¬ tagClose <:+: body) ∧
          ∀ front body line back, chunks = front ++ .tag body line :: back →
            line = 1 + (front.flatMap Chunk.source).count '\n') ∧
      ∀ line, split source = .error line ↔
        ∃ before body chunks, source = before ++ (tagOpen ++ body) ∧
          split before = .ok chunks ∧ ¬ tagClose <:+: body ∧ line = 1 + before.count '\n' := by
  have searched (source : Text) : split source = search 1 source := splitText_eq_search 1 source
  refine ⟨searched source, exists_lexed source, fun _ => gather_eq_split, fun chunks h => ?_,
    fun line => ?_⟩
  · have faithful := search_ok ((searched source).symm.trans h)
    exact ⟨faithful.source, faithful.texts, faithful.bodies, faithful.lines⟩
  · rw [searched, search_eq_error_iff]
    simp only [searched]

/-- Marks that overlap, a closing mark outside a tag, and an opening one inside. -/
def overlapping : Text := "a?>\n<?v<?vm x <?vm\n??><<?vm?>".toList

def overlappingChunks : List Chunk :=
  [.text "a?>\n<?v".toList, .tag " x <?vm\n?".toList 2, .text ['<'], .tag [] 3]

theorem split_searches_overlapping :
    split overlapping = .ok overlappingChunks ∧
      overlappingChunks.flatMap Chunk.source = overlapping ∧
      3 = 1 + ((overlappingChunks.take 3).flatMap Chunk.source).count '\n' ∧
      Lexed "<?v<?vm".toList
        [(.less, ['<']), (.question, ['?']), (.run, ['v']), (.opening, tagOpen)] ∧
      gather [(.less, ['<']), (.question, ['?']), (.run, ['v']), (.opening, tagOpen)] =
        .error 1 := by
  have cut : split overlapping = .ok overlappingChunks := by decide
  obtain ⟨-, -, -, back, -⟩ := split_searches overlapping
  obtain ⟨source, -, -, lines⟩ := back _ cut
  -- Neither of the signs in front is a mark, although a mark starts with it.
  have lexed : Lexed "<?v<?vm".toList
      [(.less, ['<']), (.question, ['?']), (.run, ['v']), (.opening, tagOpen)] :=
    .cons ['<'] rfl (longest_of (by decide) (by decide) (by decide) (by decide)) <|
    .cons ['?'] rfl (longest_of (by decide) (by decide) (by decide) (by decide)) <|
    .cons ['v'] ⟨by decide, by decide⟩
      (longest_of (by decide) (by decide) (by decide) (by decide)) <|
    .cons tagOpen rfl (longest_of (by decide) (by decide) (by decide) (by decide)) .nil
  obtain ⟨-, -, gathered, -⟩ := split_searches "<?v<?vm".toList
  have unclosed : split "<?v<?vm".toList = .error 1 := by decide
  exact ⟨cut, source, lines (overlappingChunks.take 3) [] 3 [] rfl, lexed,
    (gathered _ lexed).trans unclosed⟩

end Stencil.Artifact
