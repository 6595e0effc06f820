import Stencil.Proofs.CompileOutcome

/-!
# Sources

A source is a file below the input directory whose name ends with the extension of sources, unless it
is left out or a directory around it is, or the path of such a directory is too long for the system to
show that it is one. A directory is taken for a source itself when its own path is too long. Which
paths are left out can be decided in any way. Here, for trees whose names are those that a system
allows (`WellFormed`):

* `viewAt?_eq_some_iff`: what it takes to be the view of something in a tree;
* `prepared_wellFormed`: the tree stays such a one when the output directory is made;
* `IsTaken.exists_view`: what is taken for a source and has no backslash in its way has a view, which
  resolves to its path;
* `has_of_source`: that path leads to the source, unless it is too long.
-/

namespace Stencil

open Files (Tree Location Entry)
open Files.Tree

/-! ## Names that a system allows -/

namespace Files.Tree

variable {t : Tree} {location way : Location} {entry : Entry}

/-- A name that a system allows for a file or a directory. -/
structure IsFileName (name : Text) : Prop extends IsEntryName name where
  noSlash : '/' ∉ name
  noNull : '\x00' ∉ name

theorem isFileName_iff {name : Text} : IsFileName name ↔ Path.isName name = true ∧
    name ≠ ['.', '.'] ∧ name.byteSize ≤ maxNameSize ∧ '/' ∉ name ∧ '\x00' ∉ name :=
  ⟨fun h => ⟨h.isName, h.notUp, h.size, h.noSlash, h.noNull⟩,
    fun ⟨isName, notUp, size, noSlash, noNull⟩ => ⟨⟨isName, notUp, size⟩, noSlash, noNull⟩⟩

instance (name : Text) : Decidable (IsFileName name) := decidable_of_iff' _ isFileName_iff

/-- Trees that a system can hold: everything lies in a directory, once, under a name that is
allowed. -/
structure WellFormed (t : Tree) : Prop where
  rooted : t.Rooted
  once : t.entries.Pairwise fun a b => a.1 ≠ b.1
  names : ∀ entry ∈ t.entries, ∀ name ∈ entry.1, IsFileName name

theorem below?_eq_some_iff {other : Location} :
    below? location other = some way ↔ other = location ++ way ∧ way ≠ [] := by
  unfold below?
  rw [Option.filter_eq_some_iff, List.isPrefixOf?_eq_some_iff_append_eq, decide_eq_true_iff,
    eq_comm]

theorem entryAt?_of_mem (once : t.entries.Pairwise fun a b => a.1 ≠ b.1)
    (hm : (location, entry) ∈ t.entries) (hn : location ≠ []) :
    t.entryAt? location = some entry := by
  unfold entryAt?
  rw [if_neg hn]
  generalize t.entries = entries at once hm
  induction entries with
  | nil => simp at hm
  | cons first entries ih =>
    obtain ⟨apart, once⟩ := List.pairwise_cons.mp once
    rcases List.mem_cons.mp hm with rfl | hm
    · simp
    · have other : first.1 ≠ location := apart _ hm
      rw [List.find?_cons_of_neg (by simpa using other)]
      exact ih once hm

theorem mem_entriesBelow_iff (once : t.entries.Pairwise fun a b => a.1 ≠ b.1) :
    (way, entry) ∈ t.entriesBelow location ↔
      way ≠ [] ∧ t.entryAt? (location ++ way) = some entry := by
  unfold entriesBelow
  simp only [List.mem_filterMap, Option.map_eq_some_iff, Prod.exists, below?_eq_some_iff,
    Prod.mk.injEq]
  constructor
  · rintro ⟨other, found, hm, between, ⟨rfl, hn⟩, rfl, rfl⟩
    exact ⟨hn, entryAt?_of_mem once hm (by simp [hn])⟩
  · rintro ⟨hn, there⟩
    exact ⟨_, entry, mem_of_entryAt? there (by simp [hn]), way, ⟨rfl, hn⟩, rfl, rfl⟩

theorem pairwise_entriesBelow (once : t.entries.Pairwise fun a b => a.1 ≠ b.1) :
    (t.entriesBelow location).Pairwise fun a b => a.1 ≠ b.1 := by
  unfold entriesBelow
  refine List.pairwise_filterMap.mpr (once.imp ?_)
  rintro ⟨other, entry⟩ ⟨other', entry'⟩ apart ⟨way, found⟩ hw ⟨way', found'⟩ hw' same
  simp only [Option.map_eq_some_iff, below?_eq_some_iff, Prod.mk.injEq] at hw hw'
  obtain ⟨_, ⟨rfl, -⟩, rfl, -⟩ := hw
  obtain ⟨_, ⟨rfl, -⟩, rfl, -⟩ := hw'
  exact apart (congrArg (location ++ ·) same)

/-- The names on the way to something are allowed. -/
theorem WellFormed.names_of_there (wf : t.WellFormed) (there : (t.entryAt? location).isSome) :
    ∀ name ∈ location, IsFileName name := by
  obtain ⟨entry, he⟩ := Option.isSome_iff_exists.mp there
  intro name hm
  exact wf.names _ (mem_of_entryAt? he (List.ne_nil_of_mem hm)) name hm

/-- The path of something below a directory leads there, unless it is too long. -/
theorem WellFormed.locate_below (wf : t.WellFormed) {directory : Text}
    (hl : t.locate directory = .ok location) (hn : way ≠ [])
    (there : (t.entryAt? (location ++ way)).isSome)
    (short : (Path.join directory (Text.join ['/'] way)).byteSize ≤ maxPathSize) :
    t.locate (Path.join directory (Text.join ['/'] way)) = .ok (location ++ way) := by
  have allowed (name : Text) (hm : name ∈ way) : IsFileName name :=
    wf.names_of_there there name (List.mem_append_right _ hm)
  have named : Path.AreNames way :=
    fun name hm => ⟨(allowed name hm).isName, (allowed name hm).noSlash⟩
  have relative := Path.isAbsolute_join named
  obtain ⟨sound, found⟩ := locate_ok_iff.mp hl
  obtain ⟨nonempty, noNull, -⟩ := pathFault?_eq_none_iff.mp sound
  obtain ⟨front, joined⟩ := Path.exists_parts_join directory
  have parts : Path.parts (Path.join directory (Text.join ['/'] way)) = front ++ way := by
    rw [joined _ relative, Path.parts_join hn fun name hm => (named name hm).2]
  -- The parts in front of the way are those of the directory, but for a slash at its end.
  have led : t.follow (t.origin directory) front = .ok location := by
    have whole := joined [] rfl
    rw [Path.parts_nil] at whole
    unfold Path.join at whole
    simp only [Path.isAbsolute, List.head?_nil, List.append_nil] at whole
    split at whole
    · contradiction
    · split at whole
      · rw [whole, follow_concat_blank] at found
        exact found.1
      · rw [Path.parts_concat_slash] at whole
        rwa [List.append_cancel_right whole] at found
  have nonempty : Path.join directory (Text.join ['/'] way) ≠ [] := by
    obtain ⟨name, hm⟩ := List.exists_mem_of_ne_nil _ hn
    have there : name ∈ Path.parts (Path.join directory (Text.join ['/'] way)) :=
      parts ▸ List.mem_append_right _ hm
    refine Path.ne_nil_of_mem_parts there ?_
    rintro rfl
    exact absurd (allowed [] hm).isName (by decide)
  have noNull : '\x00' ∉ Path.join directory (Text.join ['/'] way) := by
    intro null
    rcases Path.mem_join null with h | h | h
    · exact noNull h
    · exact absurd h (by decide)
    · rcases Text.mem_join h with h | ⟨name, hm, hc⟩
      · exact absurd h (by decide)
      · exact (allowed name hm).noNull hc
  refine locate_ok_iff.mpr ⟨pathFault?_eq_none_iff.mpr ⟨nonempty, noNull, short⟩, ?_⟩
  have origin : t.origin (Path.join directory (Text.join ['/'] way)) = t.origin directory := by
    simp only [Files.Tree.origin, Path.isAbsolute_join_left relative]
  rw [origin, parts, follow_append, led]
  exact follow_names wf.rooted (fun name hm => (allowed name hm).toIsEntryName) there

/-! ## Making a directory -/

theorem mem_of_mem_setEntry {entries : List (Location × Entry)} {a : Location × Entry}
    (h : a ∈ setEntry location entry entries) : a = (location, entry) ∨ a ∈ entries := by
  induction entries with
  | nil => simpa [setEntry] using h
  | cons first rest ih =>
    rw [setEntry] at h
    split at h
    · rcases List.mem_cons.mp h with rfl | h
      · exact .inl rfl
      · exact .inr (List.mem_cons_of_mem _ h)
    · rcases List.mem_cons.mp h with rfl | h
      · exact .inr List.mem_cons_self
      · exact (ih h).imp_right (List.mem_cons_of_mem _)

theorem once_setEntry {entries : List (Location × Entry)}
    (once : entries.Pairwise fun a b => a.1 ≠ b.1) :
    (setEntry location entry entries).Pairwise fun a b => a.1 ≠ b.1 := by
  induction entries with
  | nil => simp [setEntry]
  | cons first rest ih =>
    obtain ⟨apart, once⟩ := List.pairwise_cons.mp once
    rw [setEntry]
    split
    · next same => exact List.pairwise_cons.mpr ⟨fun b hb => same ▸ apart b hb, once⟩
    · next other =>
      refine List.pairwise_cons.mpr ⟨fun b hb => ?_, ih once⟩
      rcases mem_of_mem_setEntry hb with rfl | hb
      · exact other
      · exact apart b hb

theorem exists_entries_stamp (t : Tree) (location : Location) :
    (t.stamp location).entries = t.entries ∨
      ∃ entry, (t.stamp location).entries = setEntry location entry t.entries := by
  unfold stamp
  split
  · exact .inr ⟨_, rfl⟩
  · exact .inl rfl

/-- What is added under names that are allowed leaves a tree well-formed, if it lies in a directory. -/
theorem WellFormed.add (wf : t.WellFormed) (allowed : ∀ name ∈ location, IsFileName name)
    (rooted : (t.add location entry).Rooted) : (t.add location entry).WellFormed := by
  have once : (setEntry location entry t.entries).Pairwise fun a b => a.1 ≠ b.1 :=
    once_setEntry wf.once
  have names : ∀ other ∈ setEntry location entry t.entries, ∀ name ∈ other.1, IsFileName name := by
    intro other ho
    rcases mem_of_mem_setEntry ho with rfl | ho
    · exact allowed
    · exact wf.names other ho
  rcases exists_entries_stamp (t.put location entry) location.dropLast with same | ⟨around, stamped⟩
  · exact ⟨rooted, same ▸ once, same ▸ names⟩
  · refine ⟨rooted, stamped ▸ once_setEntry once, stamped ▸ fun other ho => ?_⟩
    rcases mem_of_mem_setEntry ho with rfl | ho
    · exact fun name hm => allowed name (List.dropLast_subset _ hm)
    · exact names other ho

/-- From names that are allowed the parts of a path lead to such names. -/
theorem allowed_of_follow {target : Location} {parts : List Text}
    (sound : ∀ part ∈ parts, '/' ∉ part ∧ '\x00' ∉ part)
    (allowed : ∀ name ∈ location, IsFileName name) (h : t.follow location parts = .ok target) :
    ∀ name ∈ target, IsFileName name := by
  induction parts generalizing location with
  | nil =>
    obtain rfl : location = target := Except.ok.inj h
    exact allowed
  | cons part parts ih =>
    have rest := fun other ho => sound other (List.mem_cons_of_mem _ ho)
    rw [follow_cons] at h
    split at h
    · simp at h
    · split at h
      · exact ih rest allowed h
      · next named =>
        split at h
        · exact ih rest (fun name hm => allowed name (List.dropLast_subset _ hm)) h
        · next notUp =>
          split at h
          · simp at h
          · next size =>
            refine ih rest (fun name hm => ?_) h
            rcases List.mem_append.mp hm with hm | hm
            · exact allowed name hm
            · obtain rfl := List.mem_singleton.mp hm
              obtain ⟨noSlash, noNull⟩ := sound name List.mem_cons_self
              have isName : Path.isName name = true := by simpa [Path.isName, not_or] using named
              exact ⟨⟨isName, notUp, Nat.not_lt.mp size⟩, noSlash, noNull⟩

/-- A path leads to a place whose names are allowed. -/
theorem WellFormed.allowed_of_locate (wf : t.WellFormed) {path : Text} {target : Location}
    (h : t.locate path = .ok target) : ∀ name ∈ target, IsFileName name := by
  obtain ⟨sound, found⟩ := locate_ok_iff.mp h
  obtain ⟨-, noNull, -⟩ := pathFault?_eq_none_iff.mp sound
  refine allowed_of_follow (fun part hm => ?_) ?_ found
  · exact ⟨Path.slash_notMem_parts hm, fun hc => noNull (Text.mem_splitOn hm _ hc).2⟩
  · -- The look-up starts in a directory, since a path has a part.
    obtain ⟨part, parts, hp⟩ := List.exists_cons_of_ne_nil (Path.parts_ne_nil path)
    rw [hp, follow_cons] at found
    cases hd : t.directoryAt? (t.origin path) with
    | none => simp [hd] at found
    | some mode => exact wf.names_of_there (isSome_of_directoryAt? hd)

theorem WellFormed.createDirectory {u : Tree} {path : Text} (wf : t.WellFormed)
    (h : t.createDirectory path = .ok u) : u.WellFormed := by
  have rooted := (createDirectory_made wf.rooted h).2
  obtain ⟨location, -, located, -, rfl⟩ := add_of_createDirectory h
  exact wf.add (wf.allowed_of_locate located) rooted

end Files.Tree

/-! ## Sources -/

namespace Compiler

variable {c : Compiler} {o : Options} {excluded : Matcher} {t : Tree}
  {location way : Location} {entry : Entry} {view : Text}

theorem prepared_wellFormed (wf : t.WellFormed) : (c.prepared t).WellFormed :=
  prepared_preserves (fun _ _ _ _ wf made => wf.createDirectory made) wf

/-- A file at the end of a way is to be found: its name has the extension of sources, neither it nor a
directory around it is left out, and no path of such a directory is too long. -/
structure Sought (o : Options) (excluded : Matcher) (way : Location) : Prop where
  named : o.sourceSuffix <:+ way.getLast?.getD []
  kept : excluded (Text.join ['/'] way) false = false
  around : ∀ front, front ≠ [] → front <+: way → front ≠ way →
    excluded (Text.join ['/'] front) true = false ∧ (o.pathTo front).byteSize ≤ maxPathSize

/-- At the end of a way below a directory there is a file that is to be found. -/
structure IsSource (o : Options) (excluded : Matcher) (t : Tree) (location way : Location) :
    Prop extends Sought o excluded way where
  file : (t.fileAt? (location ++ way)).isSome

/-- At the end of a way below a directory there is a file that is to be found, or a directory that is
taken for one. -/
structure IsTaken (o : Options) (excluded : Matcher) (t : Tree) (location way : Location) :
    Prop extends Sought o excluded way where
  there : (t.entryAt? (location ++ way)).isSome
  unseen : ∀ mode, t.directoryAt? (location ++ way) = some mode →
    maxPathSize < (o.pathTo way).byteSize

theorem all_waysTo_iff {p : Location → Bool} : (waysTo way).all p = true ↔
    ∀ front, front ≠ [] → front <+: way → p front = true := by
  unfold waysTo
  simp only [List.all_map, List.all_eq_true, List.mem_range, Function.comp_apply]
  constructor
  · rintro h front hn ⟨rest, rfl⟩
    have positive := List.length_pos_iff.mpr hn
    have here := h (front.length - 1) (by rw [List.length_append]; omega)
    rwa [Nat.sub_add_cancel positive, List.take_left] at here
  · intro h count hc
    exact h _ (by simp [List.ne_nil_of_length_pos (Nat.zero_lt_of_lt hc)]) (List.take_prefix ..)

/-- What leads to a directory around something leads there and is not the whole way. -/
theorem prefix_dropLast_iff {front : Location} (hn : front ≠ []) :
    front <+: way.dropLast ↔ front <+: way ∧ front ≠ way := by
  rcases List.eq_nil_or_concat way with rfl | ⟨around, name, rfl⟩
  · simp [hn]
  · rw [List.concat_eq_append, List.dropLast_concat, List.prefix_concat_iff]
    constructor
    · rintro inside
      refine ⟨.inr inside, ?_⟩
      rintro rfl
      exact absurd inside.length_le (by simp)
    · rintro ⟨rfl | inside, other⟩
      · exact absurd rfl other
      · exact inside

/-- The search comes to the files that are to be found, and takes them. -/
theorem sought_iff : Sought o excluded way ↔
    (waysTo way.dropLast).all (isSearched o excluded) = true ∧
      excluded (Text.join ['/'] way) false = false ∧
      o.sourceSuffix.isSuffixOf (way.getLast?.getD []) = true := by
  have searched : (waysTo way.dropLast).all (isSearched o excluded) = true ↔
      ∀ front, front ≠ [] → front <+: way → front ≠ way →
        excluded (Text.join ['/'] front) true = false ∧
          (o.pathTo front).byteSize ≤ maxPathSize := by
    rw [all_waysTo_iff]
    refine forall_congr' fun front => forall_congr' fun hn => ?_
    rw [prefix_dropLast_iff hn, and_imp]
    simp only [isSearched, isReachable, Bool.and_eq_true, decide_eq_true_eq, Bool.not_eq_true',
      and_comm]
  rw [searched, List.isSuffixOf_iff_suffix]
  exact ⟨fun h => ⟨h.around, h.kept, h.named⟩, fun ⟨around, kept, named⟩ => ⟨named, kept, around⟩⟩

theorem viewAt?_eq_some_iff : viewAt? o excluded way entry = some view ↔
    (entry.isDirectory = true → maxPathSize < (o.pathTo way).byteSize) ∧ Sought o excluded way ∧
      view ++ o.sourceSuffix = withoutBackslashes (Text.join ['/'] way) := by
  unfold viewAt? Text.dropEnd?
  rw [← List.isSuffixOf?_eq_some_iff_append_eq, sought_iff, ← not_le, isReachable]
  cases entry.isDirectory <;> cases (waysTo way.dropLast).all (isSearched o excluded) <;>
    cases excluded (Text.join ['/'] way) false <;>
    cases o.sourceSuffix.isSuffixOf (way.getLast?.getD []) <;> simp

theorem Sought.nonempty (h : Sought o excluded way) : way ≠ [] := by
  rintro rfl
  exact absurd (List.suffix_nil.mp h.named) (by simp [Options.sourceSuffix])

theorem IsSource.there (h : IsSource o excluded t location way) :
    (t.entryAt? (location ++ way)).isSome := by
  obtain ⟨⟨content, modified⟩, hf⟩ := Option.isSome_iff_exists.mp h.file
  simp [entryAt?_of_fileAt? hf]

theorem IsSource.isTaken (h : IsSource o excluded t location way) :
    IsTaken o excluded t location way := by
  refine ⟨h.toSought, h.there, fun mode directory => ?_⟩
  have file := h.file
  simp [fileAt?_eq_none_of_directory directory] at file

/-- What is taken for a source is one when its path is not too long. -/
theorem IsTaken.isSource (h : IsTaken o excluded t location way)
    (short : (o.pathTo way).byteSize ≤ maxPathSize) : IsSource o excluded t location way := by
  refine ⟨h.toSought, ?_⟩
  by_contra noFile
  have there := h.there
  have noFile := Option.not_isSome_iff_eq_none.mp noFile
  cases hd : t.directoryAt? (location ++ way) with
  | none => simp [entryAt?_eq_none_iff.mpr ⟨hd, noFile⟩] at there
  | some mode => exact absurd short (Nat.not_le.mpr (h.unseen mode hd))

theorem unseen_iff (there : t.entryAt? location = some entry) {p : Prop} :
    (∀ mode, t.directoryAt? location = some mode → p) ↔ (entry.isDirectory = true → p) := by
  cases entry with
  | file content modified => simp [directoryAt?, there, Entry.isDirectory]
  | directory mode modified => simp [directoryAt?, there, Entry.isDirectory]

/-- A view is read off what is taken for a source. -/
theorem isTaken_of_viewAt? (once : t.entries.Pairwise fun a b => a.1 ≠ b.1)
    (hm : (way, entry) ∈ t.entriesBelow location) (h : viewAt? o excluded way entry = some view) :
    IsTaken o excluded t location way ∧
      view ++ o.sourceSuffix = withoutBackslashes (Text.join ['/'] way) := by
  obtain ⟨-, there⟩ := (mem_entriesBelow_iff once).mp hm
  obtain ⟨unseen, sought, whole⟩ := viewAt?_eq_some_iff.mp h
  exact ⟨⟨sought, by simp [there], (unseen_iff there).mpr unseen⟩, whole⟩

theorem mem_viewsBelow_iff (once : t.entries.Pairwise fun a b => a.1 ≠ b.1) :
    view ∈ viewsBelow o excluded t location ↔ ∃ way, IsTaken o excluded t location way ∧
      view ++ o.sourceSuffix = withoutBackslashes (Text.join ['/'] way) := by
  unfold viewsBelow
  simp only [List.mem_filterMap, Prod.exists]
  constructor
  · rintro ⟨way, entry, hm, found⟩
    exact ⟨way, isTaken_of_viewAt? once hm found⟩
  · rintro ⟨way, taken, whole⟩
    obtain ⟨entry, there⟩ := Option.isSome_iff_exists.mp taken.there
    exact ⟨way, entry, (mem_entriesBelow_iff once).mpr ⟨taken.nonempty, there⟩,
      viewAt?_eq_some_iff.mpr ⟨(unseen_iff there).mp taken.unseen, taken.toSought, whole⟩⟩

theorem IsTaken.areNames (wf : t.WellFormed) (h : IsTaken o excluded t location way) :
    Path.AreNames way := by
  intro name hm
  have allowed := wf.names_of_there h.there name (List.mem_append_right _ hm)
  exact ⟨allowed.isName, allowed.noSlash⟩

/-- The view of a way without a backslash resolves to the path at its end. -/
theorem resolve_source_of_way (named : Path.AreNames way)
    (noBackslash : '\\' ∉ Text.join ['/'] way)
    (whole : view ++ o.sourceSuffix = Text.join ['/'] way) :
    (o.resolve view).source = o.pathTo way := by
  have start : view.dropWhile isSlash = view := by
    cases view with
    | nil => rfl
    | cons first view =>
      have relative := Path.isAbsolute_join named
      rw [← whole] at relative noBackslash
      have noSlash : first ≠ '/' := by simpa [Path.isAbsolute] using relative
      have other : first ≠ '\\' := by
        rintro rfl
        simp at noBackslash
      rw [List.dropWhile_cons_of_neg (by simp [isSlash, noSlash, other])]
  show Path.join o.input (view.dropWhile isSlash ++ ['.'] ++ o.sourceExtension) = _
  rw [start, Options.pathTo, ← whole, List.append_assoc]
  rfl

/-- What is taken for a source and has no backslash in its way has a view. -/
theorem IsTaken.exists_view (wf : t.WellFormed) (h : IsTaken o excluded t location way)
    (noBackslash : '\\' ∉ Text.join ['/'] way) :
    ∃ view, view ++ o.sourceSuffix = withoutBackslashes (Text.join ['/'] way) ∧
      (o.resolve view).source = o.pathTo way := by
  have ends : o.sourceSuffix <:+ Text.join ['/'] way := by
    refine h.named.trans ?_
    obtain ⟨front, last, rfl⟩ : ∃ front last, way = front ++ [last] :=
      ⟨_, _, (List.dropLast_append_getLast h.nonempty).symm⟩
    simpa using Text.suffix_join ['/'] front last
  obtain ⟨view, whole⟩ := ends
  refine ⟨view, ?_, resolve_source_of_way (h.areNames wf) noBackslash whole⟩
  rw [withoutBackslashes_eq_self noBackslash, whole]

/-- Different ways have different paths. -/
theorem pathTo_inj {way' : Location} (named : Path.AreNames way) (named' : Path.AreNames way')
    (hn : way ≠ []) (hn' : way' ≠ []) (h : o.pathTo way = o.pathTo way') : way = way' := by
  have same := (Path.join_left_inj (Path.isAbsolute_join named) (Path.isAbsolute_join named')).mp h
  rw [← Path.parts_join hn fun name hm => (named name hm).2, same,
    Path.parts_join hn' fun name hm => (named' name hm).2]

/-- The path of a source leads to it, unless it is too long. -/
theorem IsSource.locate_pathTo (wf : t.WellFormed) (hl : t.locate o.input = .ok location)
    (h : IsSource o excluded t location way) (short : (o.pathTo way).byteSize ≤ maxPathSize) :
    t.locate (o.pathTo way) = .ok (location ++ way) :=
  wf.locate_below hl h.nonempty h.there short

theorem has_of_source (wf : t.WellFormed) (hl : t.locate c.options.input = .ok location)
    (h : IsSource c.options excluded t location way)
    (short : (c.options.pathTo way).byteSize ≤ maxPathSize)
    (resolved : (c.resolve view).source = c.options.pathTo way) : c.has t view := by
  obtain ⟨⟨content, modified⟩, hf⟩ := Option.isSome_iff_exists.mp h.file
  unfold has
  rw [isFile_iff, resolved]
  exact ⟨content, modified, stat_eq_file_iff.mpr ⟨_, h.locate_pathTo wf hl short, hf⟩⟩

/-- What holds of everything in a tree holds of what is taken for a source. -/
theorem IsTaken.of_entries {motive : Location → Prop}
    (h : ∀ entry ∈ t.entries, motive (entry.1.drop location.length))
    (taken : IsTaken o excluded t location way) : motive way := by
  obtain ⟨entry, there⟩ := Option.isSome_iff_exists.mp taken.there
  have here := h _ (mem_of_entryAt? there (by simp [taken.nonempty]))
  rwa [List.drop_left] at here

end Compiler

end Stencil
