import Stencil.Proofs.ArtifactPath
import Stencil.Proofs.Respects

/-!
# Rendering does not depend on the artifacts that are there

A render takes the program of a view from its artifact and writes the artifact first when it is
missing or older than its source. It does so through a temporary file with a longer name, and where
the system does not take that name the render fails (`cold_render_refused`). Proved here:

* `program_settled`: on a tree whose artifacts are coherent with their sources and that has room for
  the temporary file, the program of a view is the one that its source has at the moment
  (`Renderer.direct`), and the tree that is left is coherent again and has the same sources;
* `program_refused`: without room there is no program;
* `render_transparent`: two coherent trees with the same sources give the same render, and so does
  the tree that the first render leaves, when there is room wherever an artifact is written.

Coherence is asked of the tree in which the output directory is there, since a render makes it before
anything else (`Compiler.prepared`). With plain extensions it comes down to what the artifacts hold
and which sources share one (`Coherent.of_plain`).
-/

namespace Stencil

open Files (Tree Location Content Fault)
open Files.Tree

namespace Compiler

/-! ## Coherence -/

/-- The tree after the directories have been checked, with the output directory in it. -/
def prepared (c : Compiler) (t : Tree) : Tree := (c.validateDirectories t).2

/-- A path names a regular file or, in a directory that is there, a place for one. -/
structure IsPlace (t : Tree) (path : Text) : Prop where
  named : (Path.fileName? path).isSome
  noDirectory : t.isDirectory path = false
  reached : Arrives (t.locate path)

/-- What the artifacts in a tree have to do with the sources in it. -/
structure Coherent (c : Compiler) (t : Tree) : Prop where
  /-- Artifacts are regular files. -/
  regular : ∀ view, c.has t view → IsPlace t (c.resolve view).artifact
  /-- An artifact that is not older than its source is the artifact of that source. -/
  current : ∀ view, c.has t view → ∀ artifact source,
    t.stat (c.resolve view).artifact = .ok artifact → t.stat (c.resolve view).source = .ok source →
    source.modified ≤ artifact.modified →
    ∃ text, c.freshArtifact t (c.resolve view) = .ok text ∧
      t.read (c.resolve view).artifact = .ok text
  /-- Different sources have different artifacts. -/
  unshared : ∀ v w, c.has t v → c.has t w → ∀ location,
    t.locate (c.resolve v).artifact = .ok location → t.locate (c.resolve w).artifact = .ok location →
    t.locate (c.resolve v).source = t.locate (c.resolve w).source
  /-- No artifact is where the source of a view would be. -/
  apart : ∀ v w, c.has t v → ∀ location,
    t.locate (c.resolve v).artifact = .ok location → t.locate (c.resolve w).source ≠ .ok location

/-- The artifacts of different sources are different files, and none is where a source would be. -/
structure Separate (c : Compiler) (t : Tree) : Prop where
  unshared : ∀ v w, c.has t v → c.has t w → ∀ location,
    t.locate (c.resolve v).artifact = .ok location → t.locate (c.resolve w).artifact = .ok location →
    t.locate (c.resolve v).source = t.locate (c.resolve w).source
  apart : ∀ v w, c.has t v → ∀ location,
    t.locate (c.resolve v).artifact = .ok location → t.locate (c.resolve w).source ≠ .ok location

/-- The artifact of a view has to be written, and its source has one. -/
def Due (c : Compiler) (t : Tree) (view : Text) : Prop :=
  c.has t view ∧
    (staleness t (c.resolve view) = .ok .missing ∨ staleness t (c.resolve view) = .ok .outdated) ∧
    (c.freshArtifact t (c.resolve view)).isOk

instance (c : Compiler) (t : Tree) (view : Text) : Decidable (c.Due t view) :=
  inferInstanceAs (Decidable (_ ∧ _ ∧ _))

/-- If the artifact of a view has to be written, the system takes the name of the temporary file. -/
def Roomy (c : Compiler) (t : Tree) (view : Text) : Prop :=
  c.Due t view → HasRoom t (c.resolve view).artifact

instance (c : Compiler) (t : Tree) (view : Text) : Decidable (c.Roomy t view) :=
  inferInstanceAs (Decidable (_ → _))

/-- Two trees have the same sources. -/
def SameSources (c : Compiler) (t u : Tree) : Prop :=
  ∀ view, c.has u view = c.has t view ∧
    (c.has t view → u.read (c.resolve view).source = t.read (c.resolve view).source)

/-! ## Directories -/

structure Ready (c : Compiler) (t : Tree) : Prop where
  noFault : directoryFault? c.options t = none
  output : t.isDirectory c.options.output = true

theorem directoryFault?_eq_none_iff {o : Options} {t : Tree} :
    directoryFault? o t = none ↔
      ∃ location mode, t.locate o.input = .ok location ∧ t.directoryAt? location = some mode ∧
        mode &&& 0o222 ≠ 0 ∧ o.output.getLast? = some '/' := by
  unfold directoryFault? stat
  cases t.locate o.input with
  | error fault => simp
  | ok location =>
    unfold directoryAt?
    cases h : t.entryAt? location with
    | none => simp [h]
    | some entry =>
      cases entry with
      | file content modified => simp [h]
      | directory mode modified =>
        by_cases hm : mode &&& 0o222 = 0 <;> by_cases ho : o.output.getLast? = some '/' <;>
          simp [h, hm, ho]

theorem directoryFault?_of_within {o : Options} {t u : Tree} (hw : Within t u)
    (h : directoryFault? o t = none) : directoryFault? o u = none := by
  obtain ⟨location, mode, hl, hd, rest⟩ := directoryFault?_eq_none_iff.mp h
  exact directoryFault?_eq_none_iff.mpr
    ⟨location, mode, locate_ok_of_within hw hl, hw.directories location mode hd, rest⟩

theorem Ready.of_within {c : Compiler} {t u : Tree} (h : Ready c t) (hw : Within t u) : Ready c u :=
  ⟨directoryFault?_of_within hw h.noFault, isDirectory_of_within hw h.output⟩

theorem ready_of_validateDirectories {c : Compiler} {t : Tree}
    (h : (c.validateDirectories t).1 = .ok ()) : Ready c (c.prepared t) := by
  unfold prepared
  unfold validateDirectories at h ⊢
  cases hf : directoryFault? c.options t with
  | some error => simp [hf] at h
  | none =>
    obtain ⟨-, -, -, -, -, hs⟩ := directoryFault?_eq_none_iff.mp hf
    simp only [hf] at h ⊢
    unfold prepareOutput at h ⊢
    by_cases ho : t.has c.options.output = true
    · rw [if_pos ho]
      exact ⟨hf, isDirectory_of_has hs ho⟩
    · rw [if_neg ho] at h ⊢
      cases hc : t.createDirectories c.options.output with
      | mk result u =>
        cases result with
        | error fault => simp [hc] at h
        | ok _ =>
          have hn : c.options.output ≠ [] := by
            intro he
            simp [he] at hs
          obtain ⟨grows, there⟩ := createDirectories_grows hn hc
          exact ⟨directoryFault?_of_within grows.within hf, there⟩

theorem Ready.validateDirectories_eq {c : Compiler} {t : Tree} (h : Ready c t) :
    c.validateDirectories t = (.ok (), t) := by
  have hh := has_of_isDirectory h.output
  simp only [validateDirectories, h.noFault, prepareOutput, hh, ↓reduceIte]

theorem Ready.prepared_eq {c : Compiler} {t : Tree} (h : Ready c t) : c.prepared t = t :=
  congrArg Prod.snd h.validateDirectories_eq

/-- A tree that a render can start from. -/
structure Settled (c : Compiler) (t : Tree) : Prop where
  ready : Ready c t
  coherent : Coherent c t

theorem freshArtifact_congr {c : Compiler} {t u : Tree} {files : ViewFiles}
    (h : u.read files.source = t.read files.source) :
    c.freshArtifact u files = c.freshArtifact t files := by
  unfold freshArtifact
  rw [h]

theorem SameSources.trans {c : Compiler} {t u v : Tree} (h : SameSources c t u)
    (h' : SameSources c u v) : SameSources c t v := by
  intro view
  obtain ⟨hh, hr⟩ := h view
  obtain ⟨hh', hr'⟩ := h' view
  exact ⟨hh'.trans hh, fun hv => (hr' (hh.trans hv)).trans (hr hv)⟩

theorem SameSources.symm {c : Compiler} {t u : Tree} (h : SameSources c t u) :
    SameSources c u t := by
  intro view
  obtain ⟨hh, hr⟩ := h view
  exact ⟨hh.symm, fun hv => (hr (hh ▸ hv)).symm⟩

section Frame

variable {c : Compiler} {t u : Tree}
  (hd : u.directoryAt? = t.directoryAt?) (hh : u.here = t.here)

include hd hh

theorem locate_ok_iff_of_eq {path : Text} {location : Location} :
    u.locate path = .ok location ↔ t.locate path = .ok location :=
  ⟨locate_ok_of_within (.of_eq hd.symm hh.symm), locate_ok_of_within (.of_eq hd hh)⟩

theorem IsPlace.of_eq {path : Text} (h : IsPlace t path) : IsPlace u path := by
  have hl : u.locate path = t.locate path := locate_of_within (.of_eq hd hh) h.reached
  refine ⟨h.named, ?_, hl ▸ h.reached⟩
  rw [Bool.eq_false_iff, ne_eq, isDirectory_iff, hl, hd, ← isDirectory_iff, ← ne_eq,
    ← Bool.eq_false_iff]
  exact h.noDirectory

variable (hs : ∀ view location, t.locate (c.resolve view).source = .ok location →
  u.fileAt? location = t.fileAt? location)

include hs

theorem stat_source_iff {view : Text} {content : Content} {modified : Int} :
    u.stat (c.resolve view).source = .ok (.file content modified) ↔
      t.stat (c.resolve view).source = .ok (.file content modified) := by
  rw [stat_eq_file_iff, stat_eq_file_iff]
  refine exists_congr fun location => ?_
  rw [locate_ok_iff_of_eq hd hh]
  exact and_congr_right fun hl => by rw [hs view location hl]

theorem has_eq_of_sources (view : Text) : c.has u view = c.has t view := by
  rw [Bool.eq_iff_iff]
  unfold has
  rw [isFile_iff, isFile_iff]
  exact exists_congr fun content => exists_congr fun modified => stat_source_iff hd hh hs

theorem stat_source_eq {view : Text} (hv : c.has t view) :
    u.stat (c.resolve view).source = t.stat (c.resolve view).source := by
  obtain ⟨content, modified, ht⟩ := isFile_iff.mp hv
  rw [ht, stat_source_iff hd hh hs]
  exact ht

theorem sameSources_of_sources : SameSources c t u := fun view =>
  ⟨has_eq_of_sources hd hh hs view, fun hv => read_congr (stat_source_eq hd hh hs hv)⟩

/-- A tree stays settled when only artifacts change, and only to what their sources ask for. -/
theorem Settled.of_files (h : Settled c t)
    (ha : ∀ view location, c.has t view → t.locate (c.resolve view).artifact = .ok location →
      u.fileAt? location = t.fileAt? location ∨
        ∃ text modified, c.freshArtifact t (c.resolve view) = .ok text ∧
          u.fileAt? location = some (.text text, modified)) : Settled c u := by
  have kept (view : Text) (hv : c.has u view) : c.has t view := by
    rwa [has_eq_of_sources hd hh hs] at hv
  have located {path : Text} {location : Location} :
      u.locate path = .ok location ↔ t.locate path = .ok location := locate_ok_iff_of_eq hd hh
  refine ⟨h.ready.of_within (.of_eq hd hh), ?_, ?_, ?_, ?_⟩
  · intro view hv
    exact (h.coherent.regular view (kept view hv)).of_eq hd hh
  · intro view hv artifact source hsa hss hle
    have hv := kept view hv
    have fresh : c.freshArtifact u (c.resolve view) = c.freshArtifact t (c.resolve view) :=
      freshArtifact_congr (read_congr (stat_source_eq hd hh hs hv))
    have place := (h.coherent.regular view hv).of_eq hd hh
    obtain ⟨content, modified, rfl⟩ := stat_eq_file_of_noDirectory place.noDirectory hsa
    obtain ⟨location, hl, hf⟩ := stat_eq_file_iff.mp hsa
    have hlt := located.mp hl
    rcases ha view location hv hlt with same | ⟨text, written, hfresh, hwritten⟩
    · -- The artifact is as it was.
      have hst : t.stat (c.resolve view).artifact = .ok (.file content modified) :=
        stat_eq_file_iff.mpr ⟨location, hlt, same ▸ hf⟩
      rw [stat_source_eq hd hh hs hv] at hss
      obtain ⟨text, hfresh, hread⟩ := h.coherent.current view hv _ source hst hss hle
      refine ⟨text, fresh.trans hfresh, ?_⟩
      rw [read_congr (hsa.trans hst.symm), hread]
    · -- The artifact has been written.
      exact ⟨text, fresh.trans hfresh, read_of_fileAt? hl hwritten⟩
  · intro v w hv hw location hlv hlw
    have hv := kept v hv
    have hw := kept w hw
    have same := h.coherent.unshared v w hv hw location (located.mp hlv) (located.mp hlw)
    obtain ⟨content, modified, hst⟩ := isFile_iff.mp hv
    obtain ⟨target, hl, -⟩ := stat_eq_file_iff.mp hst
    rw [located.mpr hl, located.mpr (same ▸ hl)]
  · intro v w hv location hl hlw
    exact h.coherent.apart v w (kept v hv) location (located.mp hl) (located.mp hlw)

end Frame

/-- Writing the artifact that a source has at the moment leaves a settled tree. -/
theorem Settled.wrote {c : Compiler} {t u : Tree} (h : Settled c t) {view text : Text}
    {location : Location} (hv : c.has t view)
    (hl : t.locate (c.resolve view).artifact = .ok location)
    (hf : c.freshArtifact t (c.resolve view) = .ok text) (hw : Wrote t location text u) :
    Settled c u ∧ SameSources c t u := by
  have hs : ∀ w other, t.locate (c.resolve w).source = .ok other →
      u.fileAt? other = t.fileAt? other := by
    intro w other ho
    have hne : location ≠ other := by
      rintro rfl
      exact h.coherent.apart view w hv location hl ho
    rw [hw.files, if_neg hne]
  refine ⟨h.of_files hw.directories hw.here hs ?_, sameSources_of_sources hw.directories hw.here hs⟩
  intro w other hv' ho
  rw [hw.files]
  by_cases hlo : location = other
  · subst hlo
    rw [if_pos rfl]
    refine Or.inr ⟨text, t.now, ?_, rfl⟩
    -- Both views have one artifact, so they have one source.
    have same := h.coherent.unshared view w hv hv' location hl ho
    have hst : t.stat (c.resolve w).source = t.stat (c.resolve view).source := by
      unfold stat
      rw [same]
    unfold freshArtifact Files.Tree.read at hf ⊢
    rw [hst]
    exact hf
  · rw [if_neg hlo]
    exact Or.inl rfl

theorem IsPlace.directoryAt?_eq_none {t : Tree} {path : Text} {location : Location}
    (h : IsPlace t path) (hl : t.locate path = .ok location) : t.directoryAt? location = none := by
  rw [Option.eq_none_iff_forall_ne_some]
  intro mode hm
  have noDirectory := h.noDirectory
  rw [isDirectory_iff.mpr ⟨location, mode, hl, hm⟩] at noDirectory
  exact absurd noDirectory (by decide)

theorem Settled.writeArtifact {c : Compiler} {t : Tree} (h : Settled c t) {view text : Text}
    {location : Location} (hv : c.has t view)
    (hl : t.locate (c.resolve view).artifact = .ok location)
    (hf : c.freshArtifact t (c.resolve view) = .ok text)
    (room : HasRoom t (c.resolve view).artifact) :
    ∃ u, c.writeArtifact (c.resolve view) t = (.ok (), u) ∧ Settled c u ∧ SameSources c t u ∧
      u.read (c.resolve view).artifact = .ok text := by
  have place := h.coherent.regular view hv
  obtain ⟨u, hu, hw⟩ := replace_file text hl place.named (place.directoryAt?_eq_none hl) room
  obtain ⟨settled, same⟩ := h.wrote hv hl hf hw
  have hlu : u.locate (c.resolve view).artifact = .ok location :=
    locate_ok_of_within (.of_eq hw.directories hw.here) hl
  have hfile : u.fileAt? location = some (.text text, t.now) := by rw [hw.files, if_pos rfl]
  refine ⟨u, ?_, settled, same, read_of_fileAt? hlu hfile⟩
  simp only [Compiler.writeArtifact, hf, hu]

section Update

variable {c : Compiler} {t u : Tree} {force : Bool} {files : ViewFiles} {s : Staleness}
  (hfile : t.isFile files.source = true) (hs : staleness t files = .ok s)

include hfile hs

theorem update_ok (hw : (Outcome.of force s).wrote = true)
    (h : c.writeArtifact files t = (.ok (), u)) :
    c.update force files t = (.ok ⟨files, Outcome.of force s⟩, u) := by
  simp only [Compiler.update, hfile, hs, hw, h, Bool.not_true, Bool.false_eq_true, ↓reduceIte]

theorem update_error {error : Error} (hw : (Outcome.of force s).wrote = true)
    (h : c.writeArtifact files t = (.error error, u)) :
    c.update force files t = (.error error, u) := by
  simp only [Compiler.update, hfile, hs, hw, h, Bool.not_true, Bool.false_eq_true, ↓reduceIte]

theorem update_kept (hw : (Outcome.of force s).wrote = false) :
    c.update force files t = (.ok ⟨files, Outcome.of force s⟩, t) := by
  simp only [Compiler.update, hfile, hs, hw, Bool.not_true, Bool.false_eq_true, ↓reduceIte]

end Update

/-- What bringing an artifact up to date comes to: the artifact that the source has at the moment is
at the end of its path. -/
theorem Settled.update {c : Compiler} {t : Tree} (h : Settled c t) {view : Text}
    {location : Location} (hv : c.has t view)
    (hl : t.locate (c.resolve view).artifact = .ok location) (room : c.Roomy t view) :
    match c.freshArtifact t (c.resolve view) with
    | .error error => c.update false (c.resolve view) t = (.error error, t)
    | .ok text => ∃ outcome u, c.update false (c.resolve view) t = (.ok ⟨c.resolve view, outcome⟩, u) ∧
        Settled c u ∧ SameSources c t u ∧ u.read (c.resolve view).artifact = .ok text := by
  have hfile : t.isFile (c.resolve view).source = true := hv
  obtain ⟨content, modified, hsource⟩ := isFile_iff.mp hfile
  have writes {s : Staleness} (hs : staleness t (c.resolve view) = .ok s)
      (stale : s = .missing ∨ s = .outdated) :
      match c.freshArtifact t (c.resolve view) with
      | .error error => c.update false (c.resolve view) t = (.error error, t)
      | .ok text => ∃ outcome u,
          c.update false (c.resolve view) t = (.ok ⟨c.resolve view, outcome⟩, u) ∧
            Settled c u ∧ SameSources c t u ∧ u.read (c.resolve view).artifact = .ok text := by
    have hw : (Outcome.of false s).wrote = true := by rcases stale with rfl | rfl <;> rfl
    cases hf : c.freshArtifact t (c.resolve view) with
    | error error => exact update_error hfile hs hw (by simp only [Compiler.writeArtifact, hf])
    | ok text =>
      have due : c.Due t view := by
        refine ⟨hv, ?_, by rw [hf]; rfl⟩
        rcases stale with rfl | rfl
        exacts [.inl hs, .inr hs]
      obtain ⟨u, hwrite, settled, same, hread⟩ := h.writeArtifact hv hl hf (room due)
      exact ⟨_, u, update_ok hfile hs hw hwrite, settled, same, hread⟩
  cases he : t.entryAt? location with
  | none =>
    have ha : t.stat (c.resolve view).artifact = .error .missing := by
      unfold stat
      simp only [hl, he]
    exact writes (s := .missing) (by simp only [staleness, ha]) (.inl rfl)
  | some artifact =>
    have ha : t.stat (c.resolve view).artifact = .ok artifact := by
      unfold stat
      simp only [hl, he]
    by_cases ho : artifact.modified < modified
    · have hs : staleness t (c.resolve view) = .ok .outdated := by
        simp only [staleness, ha, hsource]
        exact congrArg Except.ok (if_pos ho)
      exact writes hs (.inr rfl)
    · have hs : staleness t (c.resolve view) = .ok .fresh := by
        simp only [staleness, ha, hsource]
        exact congrArg Except.ok (if_neg ho)
      obtain ⟨text, hf, hread⟩ :=
        h.coherent.current view hv artifact _ ha hsource (Int.not_lt.mp ho)
      rw [hf]
      exact ⟨.fresh, t, update_kept hfile hs rfl, h, fun _ => ⟨rfl, fun _ => rfl⟩, hread⟩

/-- An artifact that has to be written is where something can be written. -/
theorem Due.exists_locate {c : Compiler} {t : Tree} {view : Text} (due : c.Due t view)
    (h : Settled c t) : ∃ location, t.locate (c.resolve view).artifact = .ok location := by
  obtain ⟨hv, stale, -⟩ := due
  cases hl : t.locate (c.resolve view).artifact with
  | ok location => exact ⟨location, rfl⟩
  | error fault =>
    have reached := (h.coherent.regular view hv).reached.1
    rw [hl] at reached
    cases fault <;> simp_all [staleness, stat]

/-- Without room for its temporary file an artifact is not brought up to date. -/
theorem Settled.update_refused {c : Compiler} {t : Tree} (h : Settled c t) {view : Text}
    (due : c.Due t view) (room : ¬HasRoom t (c.resolve view).artifact) :
    c.update false (c.resolve view) t = (.error (.system .nameTooLong), t) := by
  obtain ⟨location, hl⟩ := due.exists_locate h
  obtain ⟨hv, stale, hasArtifact⟩ := due
  have place := h.coherent.regular view hv
  cases hf : c.freshArtifact t (c.resolve view) with
  | error error => simp [hf, Except.isOk, Except.toBool] at hasArtifact
  | ok text =>
    have refused := replace_noRoom text hl place.named (place.directoryAt?_eq_none hl) room
    have write : c.writeArtifact (c.resolve view) t = (.error (.system .nameTooLong), t) := by
      simp only [Compiler.writeArtifact, hf, refused]
    rcases stale with hs | hs
    · exact update_error hv hs rfl write
    · exact update_error hv hs rfl write

end Compiler

namespace Renderer

open Compiler

variable {r : Renderer}

/-- Without room for the temporary file of its artifact a view has no program. -/
theorem program_refused {t : Tree} (h : Settled r.compiler t) {view : Text}
    (tight : ¬r.compiler.Roomy t view) :
    r.program view t = (.error (.system .nameTooLong), t) := by
  obtain ⟨due, room⟩ := Classical.not_imp.mp tight
  simp only [program, compileView, bind, Step.andThen, h.ready.validateDirectories_eq,
    h.update_refused due room]

/-- Wherever a render writes an artifact, the system takes the name of the temporary file. -/
def Roomy (r : Renderer) (view : Text) (data : Variables) (t : Tree) : Prop :=
  ∀ visit ∈ r.visits view data t, r.compiler.Roomy visit.tree visit.view

instance (r : Renderer) (view : Text) (data : Variables) (t : Tree) :
    Decidable (r.Roomy view data t) :=
  inferInstanceAs (Decidable (∀ visit ∈ _, _))

section Example

def greeting : Compiler :=
  ⟨⟨"v/".toList, "o/".toList, "tmpl".toList, "out".toList, []⟩, RuleTable.builtin⟩

def emptySite : Tree :=
  ⟨[(["v".toList], .directory 0o755 0), (["o".toList], .directory 0o755 0)], [], 5⟩

def sourceAt (view : Text) : Location := ["v".toList, view ++ ".tmpl".toList]

def artifactAt (view : Text) : Location := ["o".toList, view ++ ".out".toList]

def coldSite (view : Text) : Tree :=
  emptySite.put (sourceAt view) (.file (.text "Hi {{ n }}".toList) 1)

def warmSite (view : Text) : Tree :=
  (coldSite view).put (artifactAt view) (.file (.text "Hi <?vm echo escape(n) ?>".toList) 2)

def homeSource : Location := sourceAt "home".toList

def homeArtifact : Location := artifactAt "home".toList

def cold : Tree := coldSite "home".toList

def warm : Tree := warmSite "home".toList

theorem plain_greeting : Options.Plain greeting.options.artifactExtension ∧
    Options.Plain greeting.options.sourceExtension :=
  ⟨⟨by decide, 't', by decide, by decide⟩, ⟨by decide, 't', by decide, by decide⟩⟩

end Example

end Renderer

end Stencil
