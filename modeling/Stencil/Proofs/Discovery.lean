import Mathlib.Data.List.Nodup
import Stencil.Proofs.ArtifactNames
import Stencil.Proofs.NameOrder
import Stencil.Proofs.Sources
import Stencil.Proofs.TreeChanges

/-!
# Finding the sources of a project

A view is found by the way from the input directory to its source and is looked up by its name,
which is that way without the extension. Proved here, for trees whose names are those that a system
allows and for every decision which paths are left out:

* `discover_finds_iff`: the views that are found are in order, one for every source that is not left
  out, each resolving to the path of its source, exactly when no such source has a backslash in its
  name or in that of a directory around it;
* `compileAllWith_ne_sourceNotFound`: then compiling all views misses no source whose path is not too
  long;
* `source_missed`: a backslash in the name of one source keeps a whole project from being compiled.
-/

namespace Stencil

open Files (Tree Location Entry)
open Files.Tree

namespace Compiler

variable {c : Compiler} {o : Options} {build : List Text → Except Text Matcher}
  {excluded : Matcher} {t : Tree}
  {location way : Location} {entry : Entry} {view : Text}

/-! ## Views that are found -/

/-- Views in increasing order, one for every source, each of which resolves to the path of its
source. -/
structure Finds (o : Options) (sources : Location → Prop) (views : List Text) : Prop where
  increasing : views.Pairwise fun a b => Text.before a b = true
  found : ∀ way, sources way → ∃! view, view ∈ views ∧ (o.resolve view).source = o.pathTo way
  known : ∀ view ∈ views, ∃! way, sources way ∧ (o.resolve view).source = o.pathTo way

theorem discoverWith_eq (hb : build c.options.exclude = .ok excluded)
    (hl : t.locateDirectory c.options.input = .ok location) :
    c.discoverWith build t = .ok ((viewsBelow c.options excluded t location).mergeSort
      fun a b => Text.order a b != .gt) := by
  simp only [discoverWith, hb, hl]

theorem discoverWith_of_sorted {views : List Text} (hb : build c.options.exclude = .ok excluded)
    (hl : t.locateDirectory c.options.input = .ok location)
    (below : viewsBelow c.options excluded t location = views)
    (sorted : views.Pairwise fun a b => (Text.order a b != .gt) = true) :
    c.discoverWith build t = .ok views := by
  rw [discoverWith_eq hb hl, below, List.mergeSort_of_pairwise sorted]

section Free

variable (free : ∀ way, IsTaken o excluded t location way → ∀ name ∈ way, '\\' ∉ name)

include free

theorem backslash_notMem_join (h : IsTaken o excluded t location way) :
    '\\' ∉ Text.join ['/'] way := by
  intro hm
  rcases Text.mem_join hm with hc | ⟨name, hn, hc⟩
  · exact absurd hc (by decide)
  · exact free way h name hn hc

variable (wf : t.WellFormed)

include wf

/-- What is found resolves to the path at which it was found. -/
theorem resolve_source_of_whole (h : IsTaken o excluded t location way)
    (whole : view ++ o.sourceSuffix = withoutBackslashes (Text.join ['/'] way)) :
    (o.resolve view).source = o.pathTo way := by
  obtain ⟨other, whole', resolved⟩ := h.exists_view wf (backslash_notMem_join free h)
  obtain rfl : other = view := List.append_cancel_right (whole'.trans whole.symm)
  exact resolved

theorem nodup_viewsBelow : (viewsBelow o excluded t location).Nodup := by
  refine List.pairwise_filterMap.mpr ?_
  refine (pairwise_entriesBelow wf.once).imp_of_mem ?_
  rintro ⟨way, entry⟩ ⟨way', entry'⟩ hm hm' apart view hv view' hv' rfl
  obtain ⟨taken, whole⟩ := isTaken_of_viewAt? wf.once hm hv
  obtain ⟨taken', whole'⟩ := isTaken_of_viewAt? wf.once hm' hv'
  have same := (resolve_source_of_whole free wf taken whole).symm.trans
    (resolve_source_of_whole free wf taken' whole')
  exact apart (pathTo_inj (taken.areNames wf) (taken'.areNames wf) taken.nonempty
    taken'.nonempty same)

/-- Without backslashes, finding views and resolving them are inverse. -/
theorem finds_of_free : Finds o (IsTaken o excluded t location)
    ((viewsBelow o excluded t location).mergeSort fun a b => Text.order a b != .gt) := by
  constructor
  · exact Text.pairwise_before_mergeSort (nodup_viewsBelow free wf)
  · intro way taken
    obtain ⟨view, whole, resolved⟩ := taken.exists_view wf (backslash_notMem_join free taken)
    refine ⟨view, ⟨?_, resolved⟩, ?_⟩
    · rw [List.mem_mergeSort, mem_viewsBelow_iff wf.once]
      exact ⟨way, taken, whole⟩
    · rintro other ⟨hm, resolved'⟩
      rw [List.mem_mergeSort, mem_viewsBelow_iff wf.once] at hm
      obtain ⟨way', taken', whole'⟩ := hm
      have same := (resolve_source_of_whole free wf taken' whole').symm.trans resolved'
      obtain rfl := pathTo_inj (taken'.areNames wf) (taken.areNames wf) taken'.nonempty
        taken.nonempty same
      exact List.append_cancel_right (whole'.trans whole.symm)
  · intro view hm
    rw [List.mem_mergeSort, mem_viewsBelow_iff wf.once] at hm
    obtain ⟨way, taken, whole⟩ := hm
    have resolved := resolve_source_of_whole free wf taken whole
    refine ⟨way, ⟨taken, resolved⟩, ?_⟩
    rintro way' ⟨taken', resolved'⟩
    exact pathTo_inj (taken'.areNames wf) (taken.areNames wf) taken'.nonempty taken.nonempty
      (resolved'.symm.trans resolved)

end Free

/-- No view that is found resolves to the path of a source with a backslash. -/
theorem free_of_found (wf : t.WellFormed)
    (found : ∃ view ∈ viewsBelow o excluded t location, (o.resolve view).source = o.pathTo way)
    (h : IsTaken o excluded t location way) : ∀ name ∈ way, '\\' ∉ name := by
  intro name hm hc
  obtain ⟨view, hv, resolved⟩ := found
  obtain ⟨_, _, whole⟩ := (mem_viewsBelow_iff wf.once).mp hv
  have noBackslash : '\\' ∉ view ++ o.sourceSuffix := whole ▸ backslash_notMem_withoutBackslashes _
  have same : view.dropWhile isSlash ++ ['.'] ++ o.sourceExtension = Text.join ['/'] way :=
    (Path.join_left_inj (Options.isAbsolute_source o view)
      (Path.isAbsolute_join (h.areNames wf))).mp resolved
  have there := @Text.mem_join_of_mem ['/'] _ _ _ hm hc
  rw [← same, List.append_assoc] at there
  rcases List.mem_append.mp there with front | suffix
  · exact noBackslash (List.mem_append_left _ ((List.dropWhile_suffix _).subset front))
  · exact noBackslash (List.mem_append_right _ suffix)

/-! ## Compiling what is found -/

/-- A comparison of an artifact with its source fails when one of them cannot be looked up. -/
theorem exists_fault_of_staleness {files : ViewFiles} {error : Error}
    (h : staleness t files = .error error) : ∃ fault, error = .system fault := by
  unfold staleness at h
  split at h
  · simp at h
  · exact ⟨_, (Except.error.inj h).symm⟩
  · split at h
    · exact ⟨_, (Except.error.inj h).symm⟩
    · simp at h

/-- Writing an artifact fails at a file or at a rule. -/
theorem fault_or_rule_of_writeArtifact {files : ViewFiles} {error : Error} {u : Tree}
    (h : c.writeArtifact files t = (.error error, u)) :
    (∃ fault, error = .system fault) ∨ ∃ malformed, error = .rule malformed := by
  unfold writeArtifact freshArtifact artifactOf at h
  cases hs : t.read files.source with
  | error fault =>
    simp only [hs, Prod.mk.injEq, Except.error.injEq] at h
    exact .inl ⟨fault, h.1.symm⟩
  | ok source =>
    cases hc : c.rules.compile source with
    | error malformed =>
      simp only [hs, hc, Prod.mk.injEq, Except.error.injEq] at h
      exact .inr ⟨malformed, h.1.symm⟩
    | ok text =>
      simp only [hs, hc] at h
      split at h
      · simp at h
      · next fault _ _ =>
        simp only [Prod.mk.injEq, Except.error.injEq] at h
        exact .inl ⟨_, h.1.symm⟩

/-- So does the updating of a view whose source is there. -/
theorem fault_or_rule_of_update {force : Bool} {files : ViewFiles} {error : Error} {u : Tree}
    (file : t.isFile files.source = true) (h : c.update force files t = (.error error, u)) :
    (∃ fault, error = .system fault) ∨ ∃ malformed, error = .rule malformed := by
  cases hs : staleness t files with
  | error other =>
    obtain ⟨fault, rfl⟩ := exists_fault_of_staleness hs
    simp only [Compiler.update, file, hs, Bool.not_true, Bool.false_eq_true, ↓reduceIte,
      Prod.mk.injEq, Except.error.injEq] at h
    exact .inl ⟨fault, h.1.symm⟩
  | ok stale =>
    cases hw : (Outcome.of force stale).wrote with
    | false => simp [update_kept file hs hw] at h
    | true =>
      cases ha : c.writeArtifact files t with
      | mk result v =>
        cases result with
        | ok _ => simp [update_ok file hs hw ha] at h
        | error other =>
          rw [update_error file hs hw ha] at h
          obtain rfl := Except.error.inj (Prod.mk.inj h).1
          exact fault_or_rule_of_writeArtifact ha

/-- The directories are at fault, or the making of the output directory is. -/
theorem directory_or_fault_of_validateDirectories {error : Error}
    (h : (c.validateDirectories t).1 = .error error) :
    (∃ path problem, error = .directory path problem) ∨ ∃ fault, error = .system fault := by
  unfold validateDirectories at h
  cases hf : directoryFault? c.options t with
  | some fault =>
    simp only [hf, Except.error.injEq] at h
    subst h
    refine .inl ?_
    unfold directoryFault? at hf
    split at hf
    · exact ⟨_, _, (Option.some.inj hf).symm⟩
    · exact ⟨_, _, (Option.some.inj hf).symm⟩
    · split at hf
      · exact ⟨_, _, (Option.some.inj hf).symm⟩
      · split at hf
        · exact ⟨_, _, (Option.some.inj hf).symm⟩
        · simp at hf
  | none =>
    simp only [hf] at h
    refine .inr ?_
    unfold prepareOutput at h
    split at h
    · simp at h
    · split at h
      · simp at h
      · exact ⟨_, (Except.error.inj h).symm⟩

/-- All views are compiled once the directories have been checked and the views been found. -/
theorem compileAllWith_eq (c : Compiler) (build : List Text → Except Text Matcher) (force : Bool)
    (t : Tree) : c.compileAllWith build force t =
      match (c.validateDirectories t).1 with
      | .error error => (.error error, c.prepared t)
      | .ok () =>
        match c.discoverWith build (c.prepared t) with
        | .error error => (.error error, c.prepared t)
        | .ok views => c.compileEach force views (c.prepared t) := by
  simp only [compileAllWith, bind, Step.andThen, prepared, Step.state, Step.ofExcept]
  cases hv : c.validateDirectories t with
  | mk result v =>
    cases result with
    | error error => rfl
    | ok _ => cases hd : c.discoverWith build v <;> simp [hd]

theorem locateDirectory_prepared (c : Compiler) {path : Text}
    (hl : t.locateDirectory path = .ok location) :
    (c.prepared t).locateDirectory path = .ok location := by
  obtain ⟨located, mode, directory⟩ := locateDirectory_ok_iff.mp hl
  have within := (prepared_grows c t).within
  exact locateDirectory_ok_iff.mpr
    ⟨locate_ok_of_within within located, mode, within.directories _ _ directory⟩

/-- A run over views whose sources are there fails at a file or at a rule. -/
theorem fault_or_rule_of_compileEach (ready : Ready c t) {force : Bool} {views : List Text}
    {error : Error} {u : Tree} (there : ∀ view ∈ views, c.has t view)
    (h : c.compileEach force views t = (.error error, u)) :
    (∃ fault, error = .system fault) ∨ ∃ malformed, error = .rule malformed := by
  induction views generalizing t with
  | nil => simp [compileEach, Step.done] at h
  | cons view views ih =>
    rcases Step.bind_error h with first | ⟨report, v, first, others⟩
    · rw [compileView_eq, ready.validateDirectories_eq, ready.prepared_eq] at first
      exact fault_or_rule_of_update (there view List.mem_cons_self) first
    · have grows := compileView_grows c force view t
      rw [first] at grows
      rcases Step.bind_error others with rest | ⟨reports, w, -, done⟩
      · exact ih (ready.of_within grows.within)
          (fun other ho => has_of_grows grows (there other (List.mem_cons_of_mem _ ho))) rest
      · exact absurd (Prod.mk.inj done).1 (by simp)

/-- When what is taken for a source has no backslash in its way and no path that is too long, all
sources are there when they are compiled. -/
theorem compileAllWith_ne_sourceNotFound {force : Bool} {other path : Text} (wf : t.WellFormed)
    (hb : build c.options.exclude = .ok excluded)
    (hl : t.locateDirectory c.options.input = .ok location)
    (fit : ∀ way, IsTaken c.options excluded (c.prepared t) location way →
      (∀ name ∈ way, '\\' ∉ name) ∧ (c.options.pathTo way).byteSize ≤ maxPathSize) :
    (c.compileAllWith build force t).1 ≠ .error (.sourceNotFound other path) := by
  intro missed
  have input := locateDirectory_prepared c hl
  rw [compileAllWith_eq, discoverWith_eq hb input] at missed
  cases valid : (c.validateDirectories t).1 with
  | error error =>
    simp only [valid, Except.error.injEq] at missed
    subst missed
    rcases directory_or_fault_of_validateDirectories valid with ⟨_, _, he⟩ | ⟨_, he⟩
    · simp at he
    · simp at he
  | ok _ =>
    simp only [valid] at missed
    have wf := prepared_wellFormed (c := c) wf
    have finds := finds_of_free (fun way taken => (fit way taken).1) wf
    have there (view : Text) (hm : view ∈ (viewsBelow c.options excluded (c.prepared t)
        location).mergeSort fun a b => Text.order a b != .gt) : c.has (c.prepared t) view := by
      obtain ⟨way, ⟨taken, resolved⟩, -⟩ := finds.known view hm
      have short := (fit way taken).2
      exact has_of_source wf (locateDirectory_ok_iff.mp input).1 (taken.isSource short) short
        resolved
    rcases fault_or_rule_of_compileEach (ready_of_validateDirectories valid) there
      (Prod.ext missed rfl) with ⟨_, he⟩ | ⟨_, he⟩
    · simp at he
    · simp at he

/-- What is found below the input directory is in order, one view for whatever is taken for a source,
each resolving to the path at which it was found, exactly when nothing that is taken has a backslash in
its name or in that of a directory around it. Every source is taken, and nothing else whose path is not
too long; and such a path leads to it. When no path of what is taken, once the output directory has
been made, is too long or has a backslash in it, no source is missed when all views are compiled. -/
theorem discover_finds_iff (wf : t.WellFormed)
    (hb : build c.options.exclude = .ok excluded)
    (hl : t.locateDirectory c.options.input = .ok location) :
    ∃ views, c.discoverWith build t = .ok views ∧
    (Finds c.options (IsTaken c.options excluded t location) views ↔
      ∀ way, IsTaken c.options excluded t location way → ∀ name ∈ way, '\\' ∉ name) ∧
    (∀ way, IsSource c.options excluded t location way →
      IsTaken c.options excluded t location way) ∧
    (∀ way, IsTaken c.options excluded t location way →
      (c.options.pathTo way).byteSize ≤ maxPathSize →
      IsSource c.options excluded t location way ∧
        t.locate (c.options.pathTo way) = .ok (location ++ way)) ∧
    ((∀ way, IsTaken c.options excluded (c.prepared t) location way →
        (∀ name ∈ way, '\\' ∉ name) ∧ (c.options.pathTo way).byteSize ≤ maxPathSize) →
      ∀ force view path,
        (c.compileAllWith build force t).1 ≠ .error (.sourceNotFound view path)) := by
  have input := (locateDirectory_ok_iff.mp hl).1
  refine ⟨_, discoverWith_eq hb hl, ⟨?_, fun free => finds_of_free free wf⟩,
    fun way source => source.isTaken, fun way taken short => ?_, fun fit force view path => ?_⟩
  · intro finds way taken
    obtain ⟨view, ⟨hm, resolved⟩, -⟩ := finds.found way taken
    exact free_of_found wf ⟨view, List.mem_mergeSort.mp hm, resolved⟩ taken
  · have source := taken.isSource short
    exact ⟨source, source.locate_pathTo wf input short⟩
  · exact compileAllWith_ne_sourceNotFound wf hb hl fit

section Example

open Renderer (greeting)

theorem wellFormed_threeViews : threeViews.WellFormed :=
  ⟨rooted_of_entries (by decide +kernel), by decide +kernel, by decide +kernel⟩

theorem discover_finds_threeViews : ∃ views, greeting.discover threeViews = .ok views ∧
    Finds greeting.options (IsTaken greeting.options (isExcluded []) threeViews ["v".toList]) views ∧
    ∀ view path, (greeting.compileAll false threeViews).1 ≠ .error (.sourceNotFound view path) := by
  have input : threeViews.locateDirectory greeting.options.input = .ok ["v".toList] := by
    decide +kernel
  have free (way : Location)
      (taken : IsTaken greeting.options (isExcluded []) threeViews ["v".toList] way) :
      ∀ name ∈ way, '\\' ∉ name :=
    taken.of_entries (motive := fun way => ∀ name ∈ way, '\\' ∉ name) (by decide +kernel)
  have short (way : Location)
      (taken : IsTaken greeting.options (isExcluded []) threeViews ["v".toList] way) :
      (greeting.options.pathTo way).byteSize ≤ maxPathSize :=
    taken.of_entries (motive := fun way => (greeting.options.pathTo way).byteSize ≤ maxPathSize)
      (by decide +kernel)
  have matcher : ExcludeRule.matcher greeting.options.exclude = .ok (isExcluded []) := rfl
  have ready : Ready greeting threeViews := ⟨by decide +kernel, by decide +kernel⟩
  obtain ⟨views, found, finds, -, -, compiled⟩ :=
    discover_finds_iff wellFormed_threeViews matcher input
  rw [ready.prepared_eq] at compiled
  exact ⟨views, found, finds.mpr free,
    compiled (fun way taken => ⟨free way taken, short way taken⟩) false⟩

def backslashed : Tree :=
  ⟨[(["v".toList], .directory 0o755 0),
    (["v".toList, "a\\b.tmpl".toList], .file (.text "one".toList) 1),
    (["v".toList, "c.tmpl".toList], .file (.text "two".toList) 1),
    (["o".toList], .directory 0o755 0)], [], 5⟩

theorem discover_backslashed :
    greeting.discover backslashed = .ok ["a/b".toList, "c".toList] := by
  have input : backslashed.locateDirectory greeting.options.input = .ok ["v".toList] := by
    decide +kernel
  exact discoverWith_of_sorted rfl input (by decide +kernel) (by decide)

/-- The view of the one does not resolve to it, and no view is compiled. -/
theorem source_missed : backslashed.WellFormed ∧
    greeting.discover backslashed = .ok ["a/b".toList, "c".toList] ∧
    ¬Finds greeting.options (IsSource greeting.options (isExcluded []) backslashed ["v".toList])
      ["a/b".toList, "c".toList] ∧
    (greeting.compileAll false backslashed).1 =
      .error (.sourceNotFound "a/b".toList "v/a/b.tmpl".toList) := by
  refine ⟨⟨rooted_of_entries (by decide +kernel), by decide +kernel, by decide +kernel⟩,
    discover_backslashed, ?_, ?_⟩
  · intro finds
    have source : IsSource greeting.options (isExcluded []) backslashed ["v".toList]
        ["a\\b.tmpl".toList] :=
      ⟨sought_iff.mpr (by decide +kernel), by decide +kernel⟩
    obtain ⟨view, ⟨hm, resolved⟩, -⟩ := finds.found _ source
    have other : ∀ view ∈ ["a/b".toList, "c".toList],
        (greeting.options.resolve view).source ≠ greeting.options.pathTo ["a\\b.tmpl".toList] := by
      decide +kernel
    exact other view hm resolved
  · have ready : Ready greeting backslashed := ⟨by decide +kernel, by decide +kernel⟩
    rw [compileAll, compileAllWith_eq, ready.validateDirectories_eq, ready.prepared_eq,
      ← discover, discover_backslashed]
    decide +kernel

end Example

end Compiler

end Stencil
