import Stencil.Project.Compiler
import Stencil.Proofs.FileTree

/-!
# Where artifacts and sources lie

With plain names for extensions, an artifact is a name in the output directory itself
(`locate_artifact`) and a source is a name with the extension of sources (`locate_source`).
Whether an artifact has a place is settled once the output directory is there (`arrives_artifact`).
No name of a view leads out of the configured directories (`resolve_stays`), and views whose names
make no detours have sources of their own (`locate_source_of_canonical`).
-/

namespace Stencil.Options

open Files (Tree Location Fault)
open Files.Tree

/-- The name of the artifact of a view in the output directory. -/
def artifactName (o : Options) (view : Text) : Text :=
  flattenName (view.dropWhile isSlash) ++ ['.'] ++ o.artifactExtension

/-- An extension that is not taken for a part of a path. -/
structure Plain (extension : Text) : Prop where
  noSlash : '/' ∉ extension
  letter : ∃ c ∈ extension, c ≠ '.'

/-- What comes from the view has no slash of either direction. -/
theorem isSlash_of_mem_flattenName {view : Text} {c : Char} (h : c ∈ flattenName view) :
    isSlash c = false := by
  obtain ⟨d, -, rfl⟩ := List.mem_map.mp h
  cases hd : isSlash d with
  | true => rfl
  | false => exact hd

theorem slash_notMem_flattenName (view : Text) : '/' ∉ flattenName view :=
  fun h => absurd (isSlash_of_mem_flattenName h) (by decide)

/-- A name with a plain extension leads somewhere, and not upwards. -/
theorem Plain.isName {extension : Text} (h : Plain extension) (stem : Text) :
    Path.isName (stem ++ ['.'] ++ extension) = true ∧ stem ++ ['.'] ++ extension ≠ ['.', '.'] := by
  obtain ⟨c, hc, hd⟩ := h.letter
  have hm : c ∈ stem ++ ['.'] ++ extension := List.mem_append_right _ hc
  have hdots (dots : Text) (hs : ∀ d ∈ dots, d = '.') : stem ++ ['.'] ++ extension ≠ dots :=
    fun he => hd (hs c (he ▸ hm))
  refine ⟨?_, hdots _ (by simp)⟩
  simp only [Path.isName, decide_eq_true_eq]
  exact ⟨hdots _ (by simp), hdots _ (by simp)⟩

theorem slash_notMem_artifactName {o : Options} (plain : Plain o.artifactExtension)
    (view : Text) : '/' ∉ o.artifactName view := by
  simp [artifactName, slash_notMem_flattenName, plain.noSlash]

theorem isName_artifactName {o : Options} (plain : Plain o.artifactExtension) (view : Text) :
    Path.isName (o.artifactName view) = true ∧ o.artifactName view ≠ ['.', '.'] :=
  plain.isName (flattenName (view.dropWhile isSlash))

theorem names_artifactName {o : Options} (plain : Plain o.artifactExtension) (view : Text) :
    Path.names (o.artifactName view) = [o.artifactName view] := by
  rw [Path.names_eq, Path.parts_of_noSlash (slash_notMem_artifactName plain view)]
  exact List.filter_cons_of_pos (isName_artifactName plain view).1

theorem isAbsolute_artifactName (o : Options) (view : Text) :
    Path.isAbsolute (o.artifactName view) = false := by
  have hslash := slash_notMem_flattenName (view.dropWhile isSlash)
  unfold artifactName Path.isAbsolute
  cases hf : flattenName (view.dropWhile isSlash) with
  | nil => rfl
  | cons c rest =>
    have hc : c ≠ '/' := by
      rintro rfl
      simp [hf] at hslash
    simp [hc]

/-- Slashes at the start of the name of a view do not count. -/
theorem isAbsolute_source (o : Options) (view : Text) :
    Path.isAbsolute (view.dropWhile isSlash ++ ['.'] ++ o.sourceExtension) = false := by
  cases hd : view.dropWhile isSlash with
  | nil => rfl
  | cons first rest =>
    have noSlash : isSlash first = false := by
      have head := List.head?_dropWhile_not isSlash view
      simpa [hd] using head
    have other : first ≠ '/' := by
      rintro rfl
      simp [isSlash] at noSlash
    simp [Path.isAbsolute, other]

theorem artifact_eq {o : Options} (hs : o.output.getLast? = some '/') (view : Text) :
    (o.resolve view).artifact = o.output ++ o.artifactName view := by
  show Path.join o.output (o.artifactName view) = _
  simp [Path.join, isAbsolute_artifactName, hs]

theorem parts_artifact {o : Options} (plain : Plain o.artifactExtension)
    (hs : o.output.getLast? = some '/') (view : Text) :
    ∃ front, o.output = front ++ ['/'] ∧
      Path.parts (o.resolve view).artifact = Path.parts front ++ [o.artifactName view] := by
  obtain ⟨front, hf⟩ : ∃ front, o.output = front ++ ['/'] := List.getLast?_eq_some_iff.mp hs
  refine ⟨front, hf, ?_⟩
  rw [artifact_eq hs, hf, List.append_assoc, List.singleton_append, Path.parts_append_slash,
    Path.parts_of_noSlash (slash_notMem_artifactName plain view)]

theorem leads_artifact (o : Options) (view : Text) :
    Path.Leads o.output (o.artifactName view) (o.resolve view).artifact :=
  Path.leads_join (isAbsolute_artifactName o view)

/-- An artifact lies in the output directory itself, wherever that leads. -/
theorem locate_artifact {o : Options} (plain : Plain o.artifactExtension) {t : Tree}
    {view : Text} {directory place : Location} (hd : t.locate o.output = .ok directory)
    (hp : t.locate (o.resolve view).artifact = .ok place) :
    place = directory ++ [o.artifactName view] := by
  obtain ⟨isName, notUp⟩ := isName_artifactName plain view
  have leads := leads_artifact o view
  obtain ⟨front, parts_join⟩ := Path.exists_parts_join o.output
  have parts : Path.parts (o.resolve view).artifact = front ++ [o.artifactName view] := by
    rw [leads.joined, parts_join _ leads.relative,
      Path.parts_of_noSlash (slash_notMem_artifactName plain view)]
  have names : front.filter Path.isName = Path.names o.output := by
    have whole := leads.names
    rw [Path.names_of_parts parts isName, names_artifactName plain] at whole
    exact List.append_cancel_right whole
  have origin : t.origin (o.resolve view).artifact = t.origin o.output := by
    simp only [Files.Tree.origin, leads.origin]
  obtain ⟨-, way⟩ := locate_ok_iff.mp hp
  rw [parts, origin] at way
  obtain ⟨above, mode, reached, there, rfl⟩ := follow_concat_name isName notUp way
  -- The two ways go through the same names, so they end in the same directory.
  rw [← follow_filter_isName there, names, Path.names_eq, follow_filter_isName there] at reached
  obtain ⟨-, output⟩ := locate_ok_iff.mp hd
  rw [Except.ok.inj (reached.symm.trans output)]

section Lookup

variable {o : Options} {t : Tree} {directory : Location} {mode : Nat}
  (plain : Plain o.artifactExtension) (hs : o.output.getLast? = some '/')
  (hl : t.locate o.output = .ok directory)

include plain hs hl

/-- The parts of an artifact lead to the output directory and then to its name. -/
theorem follow_artifact (view : Text) :
    t.follow (t.origin (o.resolve view).artifact) (Path.parts (o.resolve view).artifact) =
      t.follow directory [o.artifactName view] := by
  obtain ⟨front, hf, hparts⟩ := parts_artifact plain hs view
  obtain ⟨-, hw⟩ := locate_ok_iff.mp hl
  have horigin : t.origin (o.resolve view).artifact = t.origin o.output := by
    rw [artifact_eq hs, hf]
    cases front <;> simp [origin, Path.isAbsolute]
  rw [hf, Path.parts_concat_slash, ← hf, follow_concat_blank] at hw
  rw [hparts, horigin, follow_append, hw.1]

/-- Artifacts are written into the output directory. -/
theorem locateDirectory_artifact {view : Text} {location : Location}
    (h : t.locateDirectory (Path.directoryOf (o.resolve view).artifact) = .ok location) :
    location = directory := by
  obtain ⟨front, hf, hparts⟩ := parts_artifact plain hs view
  obtain ⟨hn, -⟩ := isName_artifactName plain view
  obtain ⟨hl', mode, hm⟩ := locateDirectory_ok_iff.mp h
  obtain ⟨-, way⟩ := locate_ok_iff.mp hl'
  rw [← follow_filter_isName hm, ← Path.names_eq, Path.names_directoryOf,
    Path.names_of_parts hparts hn, List.dropLast_concat, follow_filter_isName hm] at way
  obtain ⟨-, output⟩ := locate_ok_iff.mp hl
  have horigin : t.origin (Path.directoryOf (o.resolve view).artifact) = t.origin o.output := by
    unfold origin
    rw [Path.isAbsolute_directoryOf, artifact_eq hs, hf]
    cases front <;> simp [Path.isAbsolute]
  rw [hf, Path.parts_concat_slash, ← hf, follow_concat_blank, ← horigin] at output
  exact Except.ok.inj (way.symm.trans output.1)

theorem arrives_artifact (hd : t.directoryAt? directory = some mode) (view : Text) :
    Arrives (t.locate (o.resolve view).artifact) := by
  have hne : (o.resolve view).artifact ≠ [] := by
    rw [artifact_eq hs]
    simp [artifactName]
  unfold locate
  cases hp : pathFault? (o.resolve view).artifact with
  | some fault => exact arrives_of_pathFault hne hp
  | none =>
    simp only [follow_artifact plain hs hl]
    exact arrives_step hd _

end Lookup

/-- Neither path of a view leaves its configured directory, whatever the name of the view is. The
artifact is one name in the output directory, and what comes from the view has no slash of either
direction there. -/
theorem resolve_stays (o : Options) (plain : Plain o.artifactExtension) (view : Text) :
    (∃ stem name, name = stem ++ ['.'] ++ o.artifactExtension ∧
      (∀ c ∈ stem, isSlash c = false) ∧ '/' ∉ name ∧ name ≠ ['.'] ∧ name ≠ ['.', '.'] ∧
      Path.Leads o.output name (o.resolve view).artifact ∧ Path.names name = [name] ∧
      ∀ (t : Tree) directory place, t.locate o.output = .ok directory →
        t.locate (o.resolve view).artifact = .ok place → place = directory ++ [name]) ∧
    ∃ below, Path.Leads o.input below (o.resolve view).source := by
  obtain ⟨isName, notUp⟩ := isName_artifactName plain view
  have notHere : o.artifactName view ≠ ['.'] := by
    intro here
    simp [here, Path.isName] at isName
  refine ⟨⟨flattenName (view.dropWhile isSlash), o.artifactName view, rfl,
    fun _ => isSlash_of_mem_flattenName, slash_notMem_artifactName plain view, notHere, notUp,
    leads_artifact o view, names_artifactName plain view, ?_⟩, ?_⟩
  · exact fun t directory place hd hp => locate_artifact plain hd hp
  · exact ⟨_, Path.leads_join (isAbsolute_source o view)⟩

/-- A name of slashes and points. -/
def upwards : Text := "/\\..//../.".toList

/-- Directories without a slash at the end, one of them with a detour. -/
def roundabout : Options := ⟨"views".toList, "../build".toList, "tmpl".toList, "out".toList, []⟩

theorem resolve_stays_upwards :
    ∃ stem name, name = stem ++ ".out".toList ∧ (∀ c ∈ stem, isSlash c = false) ∧
      (roundabout.resolve upwards).artifact = "../build/".toList ++ name ∧
      Path.names (roundabout.resolve upwards).artifact = ["..".toList, "build".toList, name] ∧
      (roundabout.resolve upwards).source = "views/..//../..tmpl".toList := by
  obtain ⟨⟨stem, name, whole, clean, -, -, -, leads, one, -⟩, below, source⟩ :=
    resolve_stays roundabout ⟨by decide, 'o', by decide, by decide⟩ upwards
  have relative : Path.isAbsolute name = false := leads.relative
  refine ⟨stem, name, by rw [whole]; simp [roundabout], clean, ?_, ?_, by decide⟩
  · rw [leads.joined]
    simp [Path.join, relative, roundabout]
  · rw [leads.names, one]
    rfl

/-! ## Names without detours -/

section Canonical

/-- A name without detours: no slash too many, and no points that stay or lead upwards. -/
structure IsCanonical (view : Text) : Prop where
  parts : ∀ part ∈ Path.parts view, Path.isName part = true ∧ part ≠ ['.', '.']
  backslash : view.head? ≠ some '\\'

variable {o : Options} {view : Text}

theorem IsCanonical.exists_cons (h : IsCanonical view) :
    ∃ c rest, view = c :: rest ∧ isSlash c = false := by
  cases view with
  | nil => exact absurd (h.parts [] (by simp [Path.parts, Text.splitOn])).1 (by decide)
  | cons c rest =>
    refine ⟨c, rest, rfl, ?_⟩
    have back : c ≠ '\\' := by simpa using h.backslash
    have slash : c ≠ '/' := by
      rintro rfl
      exact absurd (h.parts [] (by simp [Path.parts_cons_slash])).1 (by decide)
    simp [isSlash, back, slash]

theorem IsCanonical.resolve_source (h : IsCanonical view) :
    (o.resolve view).source = Path.join o.input (view ++ ['.'] ++ o.sourceExtension) := by
  obtain ⟨c, rest, rfl, hc⟩ := h.exists_cons
  show Path.join o.input ((c :: rest).dropWhile isSlash ++ ['.'] ++ o.sourceExtension) = _
  rw [List.dropWhile_cons_of_neg (by simp [hc])]

theorem IsCanonical.isAbsolute_append (h : IsCanonical view) (suffix : Text) :
    Path.isAbsolute (view ++ suffix) = false := by
  obtain ⟨c, rest, rfl, hc⟩ := h.exists_cons
  have slash : c ≠ '/' := by
    rintro rfl
    simp [isSlash] at hc
  simp [Path.isAbsolute, slash]

/-- An extension makes no detour. -/
theorem IsCanonical.parts_append (h : IsCanonical view) {extension : Text}
    (plain : Plain extension) :
    ∀ part ∈ Path.parts (view ++ ['.'] ++ extension),
      Path.isName part = true ∧ part ≠ ['.', '.'] := by
  obtain ⟨front, stem, own, whole⟩ :=
    Path.parts_append (a := view) (b := ['.'] ++ extension) (by simp [plain.noSlash])
  intro part hm
  rw [List.append_assoc, whole] at hm
  rcases List.mem_append.mp hm with hf | hl
  · exact h.parts part (by rw [own]; exact List.mem_append_left _ hf)
  · rw [List.mem_singleton.mp hl, ← List.append_assoc]
    exact plain.isName stem

/-- The source of a name without detours lies below the input directory by the parts of the name. -/
theorem locate_source_of_canonical (plain : Plain o.sourceExtension) (t : Tree) :
    ∃ base : Except Fault Location, ∀ view place, IsCanonical view →
      t.locate (o.resolve view).source = .ok place →
      ∃ directory, base = .ok directory ∧
        place = directory ++ Path.parts (view ++ ['.'] ++ o.sourceExtension) := by
  obtain ⟨front, joined⟩ := Path.exists_parts_join o.input
  refine ⟨t.follow (t.origin o.input) front, fun view place h located => ?_⟩
  have relative : Path.isAbsolute (view ++ ['.'] ++ o.sourceExtension) = false := by
    rw [List.append_assoc]
    exact h.isAbsolute_append _
  obtain ⟨-, way⟩ := locate_ok_iff.mp located
  have origin : t.origin (o.resolve view).source = t.origin o.input := by
    rw [h.resolve_source]
    simp only [Files.Tree.origin, Path.isAbsolute_join_left relative]
  rw [origin, h.resolve_source, joined _ relative, follow_append] at way
  split at way
  · next directory hd => exact ⟨directory, hd, eq_append_of_follow (h.parts_append plain) way⟩
  · simp at way

end Canonical

end Stencil.Options
