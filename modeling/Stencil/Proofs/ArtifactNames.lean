import Mathlib.Data.List.Forall2
import Stencil.Proofs.CacheRuns

/-!
# Which views share an artifact

The artifact of a view lies in the output directory itself, so its name has points where the name of
the view has slashes, and names that have points of their own can meet it. Proved here:

* `artifact_eq_iff`: two names have one artifact just when they are the same up to points and
  slashes;
* `artifacts_apart`: of the views that are found below the input directory, those share an artifact
  that differ in points for slashes only, and compiling one leaves the artifacts of all others as
  they are;
* `artifacts_meet`: a project in which two views share an artifact, and one is taken for compiled
  once the other is.
-/

namespace Stencil

open Files (Tree Location Entry Content)
open Files.Tree

/-! ## Names -/

/-- A point, or a slash that becomes one. -/
def isBreak (c : Char) : Bool := c == '.' || isSlash c

/-- Two characters that are the same in the name of an artifact. -/
def SameInArtifact (a b : Char) : Prop := a = b ∨ isBreak a ∧ isBreak b

theorem flatten_eq_iff {a b : Char} :
    (if isSlash a then '.' else a) = (if isSlash b then '.' else b) ↔ SameInArtifact a b := by
  unfold SameInArtifact isBreak
  by_cases ha : isSlash a = true <;> by_cases hb : isSlash b = true
  · simp [ha, hb]
  · have hne : a ≠ b := by
      rintro rfl
      exact hb ha
    simp only [ha, hb, hne, ↓reduceIte, Bool.false_eq_true, Bool.or_false, Bool.or_true, beq_iff_eq,
      true_and, false_or]
    exact eq_comm
  · have hne : a ≠ b := by
      rintro rfl
      exact ha hb
    simp [ha, hb, hne]
  · simp only [ha, hb, Bool.false_eq_true, ↓reduceIte, Bool.or_false, beq_iff_eq]
    constructor
    · exact Or.inl
    · rintro (h | ⟨rfl, rfl⟩)
      · exact h
      · rfl

theorem flattenName_eq_iff {v w : Text} :
    flattenName v = flattenName w ↔ List.Forall₂ SameInArtifact v w := by
  unfold flattenName
  induction v generalizing w with
  | nil => cases w <;> simp
  | cons a v ih =>
    cases w with
    | nil => simp
    | cons b w => rw [List.map_cons, List.map_cons, List.cons.injEq, flatten_eq_iff, ih,
        List.forall₂_cons]

/-- Without backslashes, only slashes are dropped. -/
theorem dropWhile_isSlash {view : Text} (h : '\\' ∉ view) :
    view.dropWhile isSlash = view.dropWhile (· == '/') := by
  induction view with
  | nil => rfl
  | cons a view ih =>
    simp only [List.mem_cons, not_or] at h
    have ha : isSlash a = (a == '/') := by simp [isSlash, Ne.symm h.1]
    rw [List.dropWhile_cons, List.dropWhile_cons, ha, ih h.2]

theorem forall₂_sameInArtifact {v w : Text} (hv : '\\' ∉ v) (hw : '\\' ∉ w) :
    List.Forall₂ SameInArtifact v w ↔
      List.Forall₂ (fun a b => a = b ∨ a ∈ ['.', '/'] ∧ b ∈ ['.', '/']) v w := by
  induction v generalizing w with
  | nil => simp
  | cons a v ih =>
    cases w with
    | nil => simp
    | cons b w =>
      simp only [List.mem_cons, not_or] at hv hw
      have ha : isBreak a = true ↔ a ∈ ['.', '/'] := by simp [isBreak, isSlash, Ne.symm hv.1]
      have hb : isBreak b = true ↔ b ∈ ['.', '/'] := by simp [isBreak, isSlash, Ne.symm hw.1]
      rw [List.forall₂_cons, List.forall₂_cons, ih hv.2 hw.2, SameInArtifact, ha, hb]

/-- Points are the only characters that are taken for slashes. -/
theorem eq_of_forall₂_of_noPoint {v w : Text} (hv : '.' ∉ v) (hw : '.' ∉ w)
    (h : List.Forall₂ (fun a b => a = b ∨ a ∈ ['.', '/'] ∧ b ∈ ['.', '/']) v w) : v = w := by
  induction h with
  | nil => rfl
  | @cons a b v w hab _ ih =>
    simp only [List.mem_cons, not_or] at hv hw
    rw [ih hv.2 hw.2]
    rcases hab with rfl | ⟨ha, hb⟩
    · rfl
    · simp only [List.mem_cons, List.not_mem_nil, or_false, Ne.symm hv.1, Ne.symm hw.1, false_or] at ha hb
      rw [ha, hb]

theorem dropWhile_slash_of_head? {view : Text} (h : view.head? ≠ some '/') :
    view.dropWhile (· == '/') = view := by
  cases view with
  | nil => rfl
  | cons a view =>
    have ha : a ≠ '/' := by simpa using h
    simp [ha]

namespace Options

/-- Two views share an artifact just when their names, without the slashes at the start, are the same
up to points and slashes. -/
theorem artifact_eq_iff (o : Options) (v w : Text) :
    (o.resolve v).artifact = (o.resolve w).artifact ↔
      List.Forall₂ SameInArtifact (v.dropWhile isSlash) (w.dropWhile isSlash) := by
  rw [← flattenName_eq_iff]
  show Path.join o.output (o.artifactName v) = Path.join o.output (o.artifactName w) ↔ _
  rw [Path.join_left_inj (isAbsolute_artifactName o v) (isAbsolute_artifactName o w)]
  simp [artifactName]

end Options

namespace Compiler

/-! ## Views that are found -/

variable {build : List Text → Except Text Matcher}

theorem mem_discoverWith {c : Compiler} {t : Tree} {views : List Text}
    (h : c.discoverWith build t = .ok views) :
    ∃ excluded location, t.locateDirectory c.options.input = .ok location ∧ ∀ view, view ∈ views ↔
      ∃ way entry, (way, entry) ∈ t.entriesBelow location ∧
        viewAt? c.options excluded way entry = some view := by
  unfold discoverWith at h
  split at h
  · simp at h
  · next excluded _ =>
    split at h
    · simp at h
    · next location hl =>
      obtain rfl := Except.ok.inj h
      refine ⟨excluded, location, hl, fun view => ?_⟩
      rw [List.mem_mergeSort, viewsBelow, List.mem_filterMap]
      simp

theorem withoutBackslashes_eq_self {text : Text} (h : '\\' ∉ text) :
    withoutBackslashes text = text := by
  have same : withoutBackslashes text = text.map id := by
    refine List.map_congr_left fun c hc => ?_
    have other : c ≠ '\\' := fun he => h (he ▸ hc)
    simp [other]
  rw [same, List.map_id]

theorem backslash_notMem_withoutBackslashes (text : Text) : '\\' ∉ withoutBackslashes text := by
  intro hm
  obtain ⟨c, -, hc⟩ := List.mem_map.mp hm
  by_cases hb : c = '\\' <;> simp_all

/-- Views that are found have slashes of one direction in their names. -/
theorem backslash_notMem_of_viewAt? {o : Options} {excluded : Matcher} {way : Location}
    {entry : Entry} {view : Text} (h : viewAt? o excluded way entry = some view) : '\\' ∉ view := by
  simp only [viewAt?, Text.dropEnd?] at h
  split at h
  · simp at h
  · intro hm
    have whole := List.isSuffixOf?_eq_some_iff_append_eq.mp h
    exact backslash_notMem_withoutBackslashes _ (whole ▸ List.mem_append_left _ hm)

/-- Of the views that are found, those share an artifact whose names, without the slashes at the
start, are the same up to points and slashes. -/
theorem artifact_eq_iff_of_discover {c : Compiler} {t : Tree} {views : List Text}
    (h : c.discoverWith build t = .ok views) {v w : Text} (hv : v ∈ views) (hw : w ∈ views) :
    (c.resolve v).artifact = (c.resolve w).artifact ↔
      List.Forall₂ (fun a b => a = b ∨ a ∈ ['.', '/'] ∧ b ∈ ['.', '/'])
        (v.dropWhile (· == '/')) (w.dropWhile (· == '/')) := by
  obtain ⟨excluded, location, -, found⟩ := mem_discoverWith h
  have noBackslash {view : Text} (hm : view ∈ views) : '\\' ∉ view := by
    obtain ⟨way, entry, -, hview⟩ := (found view).mp hm
    exact backslash_notMem_of_viewAt? hview
  have rest {view : Text} (hm : view ∈ views) : '\\' ∉ view.dropWhile (· == '/') :=
    fun hb => noBackslash hm ((List.dropWhile_suffix _).subset hb)
  show (c.options.resolve v).artifact = (c.options.resolve w).artifact ↔ _
  rw [Options.artifact_eq_iff, dropWhile_isSlash (noBackslash hv), dropWhile_isSlash (noBackslash hw),
    forall₂_sameInArtifact (rest hv) (rest hw)]

/-! ## Compiling one of two views -/

/-- Updating an artifact changes the tree as replacing it does, or not at all. -/
theorem update_tree (c : Compiler) (force : Bool) (files : ViewFiles) (t : Tree) :
    (c.update force files t).2 = t ∨
      ∃ text, (c.update force files t).2 = (t.replace files.artifact text).2 := by
  unfold update writeArtifact
  cases t.isFile files.source with
  | false => exact Or.inl rfl
  | true =>
    cases staleness t files with
    | error error => exact Or.inl rfl
    | ok staleness =>
      cases hw : (Outcome.of force staleness).wrote with
      | false => exact Or.inl (by simp [hw])
      | true =>
        cases c.freshArtifact t files with
        | error error => exact Or.inl (by simp [hw])
        | ok text =>
          refine Or.inr ⟨text, ?_⟩
          cases hr : t.replace files.artifact text with
          | mk result u => cases result <;> simp [hw, hr]

/-- Compiling a view changes the tree as replacing its artifact does, or makes the output directory
only. -/
theorem compileView_tree (c : Compiler) (force : Bool) (view : Text) (t : Tree) :
    (c.compileView force view t).2 = c.prepared t ∨ Ready c (c.prepared t) ∧
      ∃ text, (c.compileView force view t).2 =
        ((c.prepared t).replace (c.resolve view).artifact text).2 := by
  have ready (h : (c.validateDirectories t).1 = .ok ()) : Ready c (c.prepared t) :=
    ready_of_validateDirectories h
  unfold compileView prepared at *
  simp only [bind, Step.andThen]
  cases hv : c.validateDirectories t with
  | mk result u =>
    cases result with
    | error error => exact Or.inl rfl
    | ok _ =>
      rcases update_tree c force (c.resolve view) u with same | ⟨text, replaced⟩
      · exact Or.inl same
      · exact Or.inr ⟨by simpa [hv] using ready, text, replaced⟩

/-- The artifacts of two views are one place in a tree. -/
def Shared (c : Compiler) (t : Tree) (v w : Text) : Prop :=
  ∃ place, t.locate (c.resolve v).artifact = .ok place ∧
    t.locate (c.resolve w).artifact = .ok place

/-- A file that is an artifact of its own stays when the artifact of another view is replaced. -/
theorem stat_artifact_replace_iff {c : Compiler} {t : Tree} {v w : Text} (h : ¬Shared c t v w)
    (text : Text) {content : Content} {modified : Int} :
    (t.replace (c.resolve v).artifact text).2.stat (c.resolve w).artifact =
        .ok (.file content modified) ↔
      t.stat (c.resolve w).artifact = .ok (.file content modified) := by
  obtain ⟨directories, here, files⟩ := replace_frame t (c.resolve v).artifact text
  rw [stat_eq_file_iff, stat_eq_file_iff]
  refine exists_congr fun place => ?_
  rw [locate_ok_iff_of_eq directories here]
  exact and_congr_right fun hl => by rw [files place fun hv => h ⟨place, hv, hl⟩]

section Replace

variable {c : Compiler} {t : Tree} {v w : Text} (ready : Ready c t)
  (plain : Options.Plain c.options.artifactExtension)
  (hne : (c.resolve v).artifact ≠ (c.resolve w).artifact) (text : Text)

include ready plain hne

/-- The artifact of another view stays as it is when one is replaced. -/
theorem stat_artifact_replace :
    (t.replace (c.resolve v).artifact text).2.stat (c.resolve w).artifact =
      t.stat (c.resolve w).artifact := by
  obtain ⟨directory, mode, hl, hd⟩ := isDirectory_iff.mp ready.output
  obtain ⟨-, -, -, -, -, hs⟩ := directoryFault?_eq_none_iff.mp ready.noFault
  have names : c.options.artifactName v ≠ c.options.artifactName w := by
    intro same
    exact hne ((Options.artifact_eq hs v).trans (same ▸ (Options.artifact_eq hs w).symm))
  obtain ⟨directories, here, -⟩ := replace_frame t (c.resolve v).artifact text
  have located : (t.replace (c.resolve v).artifact text).2.locate (c.resolve w).artifact =
      t.locate (c.resolve w).artifact :=
    locate_of_within (.of_eq directories here) (Options.arrives_artifact plain hs hl hd w)
  unfold stat
  rw [located]
  cases hw : t.locate (c.resolve w).artifact with
  | error fault => rfl
  | ok place =>
    obtain rfl := Options.locate_artifact plain hl hw
    have entry : (t.replace (c.resolve v).artifact text).2.entryAt?
        (directory ++ [c.options.artifactName w]) =
          t.entryAt? (directory ++ [c.options.artifactName w]) := by
      refine entryAt?_replace text (fun location h => ?_) (fun location h => ?_)
      · rw [Options.locateDirectory_artifact plain hs hl h]
        simp
      · rw [Options.locate_artifact plain hl h]
        simp [names]
    simp only [entry]

/-- A view is as fresh as before when an artifact is replaced that is neither its own nor where its
source is. -/
theorem staleness_replace (hw : c.has t w)
    (apart : ∀ place, t.locate (c.resolve v).artifact = .ok place →
      t.locate (c.resolve w).source ≠ .ok place) :
    staleness (t.replace (c.resolve v).artifact text).2 (c.resolve w) =
      staleness t (c.resolve w) := by
  obtain ⟨directories, here, files⟩ := replace_frame t (c.resolve v).artifact text
  have source := stat_source_kept (.of_eq directories here) hw fun location hl =>
    files location fun h => apart location h hl
  unfold staleness
  rw [stat_artifact_replace ready plain hne, source]

end Replace

/-- Two views that are found share an artifact just when their names, without the slashes at the
start, differ in points for slashes only. Compiling one leaves a file that is the artifact of the
other as it is unless both paths come to one place. With a plain extension paths that differ never
do, and compiling one view changes neither what is at the artifact of the other nor whether the other
is fresh. -/
theorem artifacts_apart {c : Compiler} {t : Tree} {views : List Text}
    (h : c.discoverWith build t = .ok views) {v w : Text} (hv : v ∈ views) (hw : w ∈ views) :
    ((c.resolve v).artifact = (c.resolve w).artifact ↔
      List.Forall₂ (fun a b => a = b ∨ a ∈ ['.', '/'] ∧ b ∈ ['.', '/'])
        (v.dropWhile (· == '/')) (w.dropWhile (· == '/'))) ∧
    (v ≠ w → (∀ name ∈ [v, w], '.' ∉ name ∧ name.head? ≠ some '/') →
      (c.resolve v).artifact ≠ (c.resolve w).artifact) ∧
    (¬Shared c (c.prepared t) v w → ∀ force content modified,
      (c.compileView force v t).2.stat (c.resolve w).artifact = .ok (.file content modified) ↔
        (c.prepared t).stat (c.resolve w).artifact = .ok (.file content modified)) ∧
    (Options.Plain c.options.artifactExtension →
      (c.resolve v).artifact ≠ (c.resolve w).artifact → ∀ force,
      (c.compileView force v t).2.stat (c.resolve w).artifact =
        (c.prepared t).stat (c.resolve w).artifact ∧
      (c.has (c.prepared t) w →
        (∀ place, (c.prepared t).locate (c.resolve v).artifact = .ok place →
          (c.prepared t).locate (c.resolve w).source ≠ .ok place) →
        staleness (c.compileView force v t).2 (c.resolve w) =
          staleness (c.prepared t) (c.resolve w))) := by
  have same := artifact_eq_iff_of_discover h hv hw
  refine ⟨same, ?_, ?_, ?_⟩
  · intro hne points he
    obtain ⟨⟨pv, sv⟩, pw, sw⟩ : ('.' ∉ v ∧ v.head? ≠ some '/') ∧ '.' ∉ w ∧ w.head? ≠ some '/' := by
      simpa using points
    have alike := same.mp he
    rw [dropWhile_slash_of_head? sv, dropWhile_slash_of_head? sw] at alike
    exact hne (eq_of_forall₂_of_noPoint pv pw alike)
  · intro apart force content modified
    rcases compileView_tree c force v t with unchanged | ⟨-, text, replaced⟩
    · rw [unchanged]
    · rw [replaced]
      exact stat_artifact_replace_iff apart text
  · intro plain hne force
    rcases compileView_tree c force v t with unchanged | ⟨ready, text, replaced⟩
    · rw [unchanged]
      exact ⟨rfl, fun _ _ => rfl⟩
    · rw [replaced]
      exact ⟨stat_artifact_replace ready plain hne text, staleness_replace ready plain hne text⟩

/-! Three views, of which two share an artifact. -/

section Example

open Renderer (greeting plain_greeting)

/-- The sources of `a/b`, `a.b` and `c`. -/
def threeViews : Tree :=
  ⟨[(["v".toList], .directory 0o755 0), (["v".toList, "a".toList], .directory 0o755 0),
    (["v".toList, "a.b.tmpl".toList], .file (.text "two".toList) 1),
    (["v".toList, "a".toList, "b.tmpl".toList], .file (.text "one".toList) 1),
    (["v".toList, "c.tmpl".toList], .file (.text "three".toList) 1),
    (["o".toList], .directory 0o755 0)], [], 5⟩

theorem discover_threeViews :
    greeting.discover threeViews = .ok ["a.b".toList, "a/b".toList, "c".toList] := by
  have matcher : ExcludeRule.matcher greeting.options.exclude = .ok (isExcluded []) := rfl
  have input : threeViews.locateDirectory greeting.options.input = .ok ["v".toList] := by
    decide +kernel
  simp only [discover, discoverWith, matcher, input]
  refine congrArg Except.ok ?_
  generalize hv : viewsBelow _ _ _ _ = views
  obtain rfl : views = ["a.b".toList, "a/b".toList, "c".toList] := by
    rw [← hv]
    decide +kernel
  -- They stand in order already.
  exact List.mergeSort_of_pairwise (by decide)

theorem artifacts_apart_threeViews :
    (greeting.resolve "a/b".toList).artifact ≠ (greeting.resolve "c".toList).artifact ∧
      (greeting.compileView false "a/b".toList threeViews).2.stat
          (greeting.resolve "c".toList).artifact =
        (greeting.prepared threeViews).stat (greeting.resolve "c".toList).artifact := by
  obtain ⟨-, differ, -, kept⟩ :=
    artifacts_apart discover_threeViews (v := "a/b".toList) (w := "c".toList) (by simp) (by simp)
  have hne := differ (by decide) (by decide)
  exact ⟨hne, (kept plain_greeting.1 hne false).1⟩

/-- Once `a/b` is compiled, `a.b` is taken for compiled, with the text of the other. -/
theorem artifacts_meet :
    greeting.discover threeViews = .ok ["a.b".toList, "a/b".toList, "c".toList] ∧
      "a/b".toList ≠ "a.b".toList ∧
      (greeting.resolve "a/b".toList).artifact = (greeting.resolve "a.b".toList).artifact ∧
      staleness threeViews (greeting.resolve "a.b".toList) = .ok .missing ∧
      staleness (greeting.compileView false "a/b".toList threeViews).2
        (greeting.resolve "a.b".toList) = .ok .fresh ∧
      (greeting.compileView false "a/b".toList threeViews).2.read
        (greeting.resolve "a.b".toList).artifact = .ok "one".toList := by
  refine ⟨discover_threeViews, ?_, ?_, ?_, ?_, ?_⟩ <;> decide +kernel

end Example

end Compiler

end Stencil
