import Mathlib.Data.List.Induction
import Stencil.Proofs.CacheTransparency

/-!
# Making the directories of a path

A tree is rooted when all that is there lies in a directory, as it does in every system. Proved
here, for rooted trees:

* `follow_names`: names lead to whatever is there under them;
* `createDirectory_made`: making a directory changes no file and takes nothing away, and nothing is
  new but the directory;
* `prepared_made`: so it is when the output directory of a project and its parents are made;
* `prepared_eq_or_absent`: with an output directory that does not lead upwards and a plain
  extension, making it brings no artifact to light.
-/

namespace Stencil

namespace Files.Tree

variable {t u v : Tree} {location target : Location} {path : Text} {paths : List Text}

/-! ## Rooted trees -/

/-- Whatever is there is in a directory. -/
def Rooted (t : Tree) : Prop :=
  ∀ location, (t.entryAt? location).isSome → ∃ mode, t.directoryAt? location.dropLast = some mode

theorem entryAt?_eq_none_iff :
    t.entryAt? location = none ↔ t.directoryAt? location = none ∧ t.fileAt? location = none := by
  unfold directoryAt? fileAt?
  cases t.entryAt? location with
  | none => simp
  | some entry => cases entry <;> simp

theorem isSome_of_directoryAt? {mode : Nat} (h : t.directoryAt? location = some mode) :
    (t.entryAt? location).isSome := by
  unfold directoryAt? at h
  split at h <;> simp_all

/-- Whatever is there stays there when files stay and directories are added. -/
theorem isSome_entryAt?_of_grows (h : Grows t u) (there : (t.entryAt? location).isSome) :
    (u.entryAt? location).isSome := by
  obtain ⟨entry, he⟩ := Option.isSome_iff_exists.mp there
  cases entry with
  | file content modified =>
    have file := h.files location (by simp [fileAt?, he])
    cases hu : u.entryAt? location with
    | none => simp [fileAt?, hu] at file
    | some entry => rfl
  | directory mode modified =>
    exact isSome_of_directoryAt? (h.within.directories location mode (by simp [directoryAt?, he]))

/-- All places on the way to something are directories. -/
theorem Rooted.directory_before (rooted : t.Rooted) {name : Text} {names : List Text}
    (there : (t.entryAt? (location ++ name :: names)).isSome) :
    ∃ mode, t.directoryAt? location = some mode := by
  induction names using List.reverseRecOn with
  | nil => simpa using rooted _ there
  | append_singleton names last ih =>
    rw [← List.cons_append, ← List.append_assoc] at there
    obtain ⟨mode, around⟩ := rooted _ there
    rw [List.dropLast_concat] at around
    exact ih (isSome_of_directoryAt? around)

/-- A name that a system allows for an entry and that is one in a path. -/
structure IsEntryName (name : Text) : Prop where
  isName : Path.isName name = true
  notUp : name ≠ ['.', '.']
  size : name.byteSize ≤ maxNameSize

/-- Names lead to what is there under them. -/
theorem follow_names (rooted : t.Rooted) {names : List Text}
    (allowed : ∀ name ∈ names, IsEntryName name)
    (there : (t.entryAt? (location ++ names)).isSome) :
    t.follow location names = .ok (location ++ names) := by
  induction names generalizing location with
  | nil => simp [follow]
  | cons name names ih =>
    obtain ⟨mode, directory⟩ := rooted.directory_before there
    obtain ⟨named, notUp, size⟩ := allowed name List.mem_cons_self
    have named : ¬(name = [] ∨ name = ['.']) := by simpa [Path.isName, not_or] using named
    have split : location ++ name :: names = location ++ [name] ++ names := by simp
    rw [follow_cons, directory]
    simp only [named, notUp, Nat.not_lt.mpr size, ↓reduceIte]
    rw [split] at there ⊢
    exact ih (fun name hm => allowed name (List.mem_cons_of_mem _ hm)) there

theorem has_iff : t.has path = true ↔
    ∃ location, t.locate path = .ok location ∧ (t.entryAt? location).isSome := by
  unfold has stat
  cases t.locate path with
  | error fault => simp [Except.isOk, Except.toBool]
  | ok location => cases h : t.entryAt? location <;> simp [h, Except.isOk, Except.toBool]

/-- A path that does not lead upwards leads to a directory by its names. -/
theorem locate_of_straight {mode : Nat} (straight : ['.', '.'] ∉ Path.names path)
    (hl : t.locate path = .ok target) (hd : t.directoryAt? target = some mode) :
    target = t.origin path ++ Path.names path := by
  obtain ⟨-, way⟩ := locate_ok_iff.mp hl
  rw [← follow_filter_isName hd, ← Path.names_eq] at way
  refine eq_append_of_follow (fun part hm => ⟨(Path.areNames_names path part hm).1, ?_⟩) way
  rintro rfl
  exact straight hm

/-- There is something at a location, or at least a directory for it. -/
def Held (t : Tree) (location : Location) : Prop :=
  (t.entryAt? location).isSome ∨ ∃ mode, t.directoryAt? location.dropLast = some mode

theorem Rooted.held_of_follow (rooted : t.Rooted) {parts : List Text} (held : t.Held location)
    (h : t.follow location parts = .ok target) : t.Held target := by
  induction parts generalizing location with
  | nil =>
    obtain rfl : location = target := Except.ok.inj h
    exact held
  | cons part parts ih =>
    rw [follow_cons] at h
    cases hd : t.directoryAt? location with
    | none => simp [hd] at h
    | some mode =>
      have here := isSome_of_directoryAt? hd
      simp only [hd] at h
      split at h
      · exact ih (.inl here) h
      · split at h
        · obtain ⟨mode, above⟩ := rooted location here
          exact ih (.inl (isSome_of_directoryAt? above)) h
        · split at h
          · simp at h
          · exact ih (.inr ⟨mode, by rw [List.dropLast_concat]; exact hd⟩) h

/-- A path leads to something or to a place in a directory. -/
theorem Rooted.held_of_locate (rooted : t.Rooted) (h : t.locate path = .ok target) :
    t.Held target := by
  obtain ⟨-, way⟩ := locate_ok_iff.mp h
  refine rooted.held_of_follow ?_ way
  cases hp : Path.parts path with
  | nil => exact absurd hp (Path.parts_ne_nil path)
  | cons part parts =>
    rw [hp, follow_cons] at way
    cases hd : t.directoryAt? (t.origin path) with
    | none => simp [hd] at way
    | some mode => exact .inl (isSome_of_directoryAt? hd)

/-! ## New directories -/

/-- A new directory changes no file. -/
theorem add_directory_views (mode : Nat) (modified : Int) (absent : t.entryAt? location = none)
    (around : ∃ mode, t.directoryAt? location.dropLast = some mode) :
    (t.add location (.directory mode modified)).fileAt? = t.fileAt? ∧
      ∀ other, (t.add location (.directory mode modified)).directoryAt? other =
        if location = other then some mode else t.directoryAt? other := by
  have hn : location ≠ [] := by
    rintro rfl
    simp [entryAt?_nil] at absent
  have files : (t.put location (.directory mode modified)).fileAt? = t.fileAt? := by
    funext other
    unfold fileAt?
    rw [entryAt?_put]
    by_cases ho : location = other
    · subst ho
      simp [hn, absent]
    · simp [ho]
  have directories (other : Location) :
      (t.put location (.directory mode modified)).directoryAt? other =
        if location = other then some mode else t.directoryAt? other := by
    unfold directoryAt?
    rw [entryAt?_put]
    by_cases ho : location = other
    · subst ho
      simp [hn]
    · simp [ho]
  obtain ⟨outer, around⟩ := around
  have parent : (t.put location (.directory mode modified)).fileAt? location.dropLast = none := by
    rw [files]
    exact fileAt?_eq_none_of_directory around
  exact ⟨by rw [add, fileAt?_stamp _ _ parent, files],
    fun other => by rw [add, directoryAt?_stamp, directories]⟩

/-- Directories have been made at the ends of some paths; apart from them nothing is new, and
nothing has gone or changed. -/
structure Made (t : Tree) (paths : List Text) (u : Tree) : Prop where
  within : Within t u
  files : u.fileAt? = t.fileAt?
  added : ∀ location mode, u.directoryAt? location = some mode →
    t.directoryAt? location = some mode ∨
      t.entryAt? location = none ∧ ∃ path ∈ paths, u.locate path = .ok location

theorem Made.refl (t : Tree) (paths : List Text) : Made t paths t :=
  ⟨.of_eq rfl rfl, rfl, fun _ _ h => .inl h⟩

theorem Made.grows (h : Made t paths u) : Grows t u :=
  ⟨h.within, fun location hf => by rwa [h.files]⟩

theorem Made.mono {more : List Text} (h : Made t paths u) (hp : paths ⊆ more) : Made t more u := by
  refine ⟨h.within, h.files, fun location mode hd => ?_⟩
  rcases h.added location mode hd with old | ⟨absent, path, hm, hl⟩
  · exact .inl old
  · exact .inr ⟨absent, path, hp hm, hl⟩

theorem Made.trans (h : Made t paths u) (h' : Made u paths v) : Made t paths v := by
  refine ⟨h.within.trans h'.within, h'.files.trans h.files, fun location mode hd => ?_⟩
  rcases h'.added location mode hd with between | ⟨absent, path, hm, hl⟩
  · rcases h.added location mode between with old | ⟨absent, path, hm, hl⟩
    · exact .inl old
    · exact .inr ⟨absent, path, hm, locate_ok_of_within h'.within hl⟩
  · refine .inr ⟨?_, path, hm, hl⟩
    by_contra there
    have := isSome_entryAt?_of_grows h.grows (Option.isSome_iff_ne_none.mpr there)
    simp [absent] at this

/-- A change that leaves the files and the directories as they are is none here. -/
theorem Made.alike (h : Made t paths u) (alike : Alike u v) : Made t paths v := by
  have within : Within u v := .of_eq alike.directories alike.here
  refine ⟨h.within.trans within, alike.files.trans h.files, fun location mode hd => ?_⟩
  rw [alike.directories] at hd
  rcases h.added location mode hd with old | ⟨absent, path, hm, hl⟩
  · exact .inl old
  · exact .inr ⟨absent, path, hm, locate_ok_of_within within hl⟩

/-- A rooted tree stays rooted when directories are made in it. -/
theorem createDirectory_made (rooted : t.Rooted) (h : t.createDirectory path = .ok u) :
    Made t [path] u ∧ u.Rooted := by
  have grows := (createDirectory_ok h).1
  obtain ⟨location, sound, located, absent, hu⟩ := add_of_createDirectory h
  have around : ∃ mode, t.directoryAt? location.dropLast = some mode := by
    rcases rooted.held_of_locate located with there | around
    · simp [absent] at there
    · exact around
  obtain ⟨files, directories⟩ := add_directory_views 0o755 t.now absent around
  rw [← hu] at files directories
  have there : u.locate path = .ok location :=
    locate_of_stripped sound (locate_ok_of_within grows.within located)
      (by rw [directories, if_pos rfl])
  refine ⟨⟨grows.within, files, fun other mode hd => ?_⟩, ?_⟩
  · rw [directories] at hd
    by_cases ho : location = other
    · exact .inr ⟨ho ▸ absent, path, List.mem_cons_self, ho ▸ there⟩
    · rw [if_neg ho] at hd
      exact .inl hd
  · intro other there
    by_cases ho : location = other
    · obtain ⟨mode, hm⟩ := around
      exact ⟨mode, ho ▸ grows.within.directories _ _ hm⟩
    · have old : (t.entryAt? other).isSome := by
        by_contra hn
        obtain ⟨noDirectory, noFile⟩ :=
          entryAt?_eq_none_iff.mp (Option.not_isSome_iff_eq_none.mp hn)
        have : u.entryAt? other = none :=
          entryAt?_eq_none_iff.mpr
            ⟨by rw [directories, if_neg ho, noDirectory], by rw [files, noFile]⟩
        simp [this] at there
      obtain ⟨mode, hm⟩ := rooted other old
      exact ⟨mode, grows.within.directories _ _ hm⟩

theorem now_createDirectory (h : t.createDirectory path = .ok u) : u.now = t.now := by
  obtain ⟨location, -, -, -, rfl⟩ := add_of_createDirectory h
  exact now_add t location _

end Files.Tree

open Files (Tree Location)
open Files.Tree

/-! ## The output directory -/

/-- The output directory and its parents, the innermost first. -/
def Options.outputDirectories (o : Options) : List Text :=
  o.output :: (Path.withParents o.output).tail

namespace Compiler

variable {c : Compiler} {t : Tree} {view : Text}

/-- What the making of each of these directories preserves is preserved by checking the directories
of a project. -/
theorem prepared_preserves {motive : Tree → Prop}
    (step : ∀ u path v, path ∈ c.options.outputDirectories → motive u →
      u.createDirectory path = .ok v → motive v) (h : motive t) : motive (c.prepared t) := by
  unfold prepared validateDirectories
  split
  · exact h
  · unfold prepareOutput
    split
    · exact h
    · have made : motive (t.createDirectories c.options.output).2 :=
        createInnermost_preserves step h
      split
      · next u hu => rwa [hu] at made
      · next u hu => rwa [hu] at made

theorem prepared_grows (c : Compiler) (t : Tree) : Grows t (c.prepared t) :=
  prepared_preserves (fun _ _ _ _ grows hv => grows.trans (createDirectory_ok hv).1) (.refl t)

/-- Checking the directories makes the output directory and its parents at most. -/
theorem prepared_made (rooted : t.Rooted) :
    Made t c.options.outputDirectories (c.prepared t) ∧ (c.prepared t).Rooted := by
  refine prepared_preserves
    (motive := fun u => Made t c.options.outputDirectories u ∧ u.Rooted) ?_ ⟨.refl t _, rooted⟩
  rintro u path v hm ⟨made, rooted⟩ hv
  obtain ⟨more, rooted⟩ := createDirectory_made rooted hv
  exact ⟨made.trans (more.mono (by simpa using hm)), rooted⟩

theorem now_prepared (c : Compiler) (t : Tree) : (c.prepared t).now = t.now :=
  prepared_preserves (motive := fun u => u.now = t.now)
    (fun _ _ _ _ same hv => (now_createDirectory hv).trans same) rfl

/-- With an output directory that is there, nothing is made. -/
theorem prepared_eq_of_has (h : t.has c.options.output = true) : c.prepared t = t := by
  unfold prepared validateDirectories prepareOutput
  split
  · rfl
  · rw [if_pos h]

/-- The output directory and its parents lie on one way when it does not lead upwards. -/
theorem location_of_mem_outputDirectories
    (straight : ['.', '.'] ∉ Path.names c.options.output) {path : Text}
    (hm : path ∈ c.options.outputDirectories) {location : Location} {mode : Nat}
    (hl : t.locate path = .ok location) (hd : t.directoryAt? location = some mode) :
    ∃ count, location = t.origin c.options.output ++ (Path.names c.options.output).take count := by
  rcases List.mem_cons.mp hm with rfl | hm
  · refine ⟨(Path.names c.options.output).length, ?_⟩
    rw [List.take_length]
    exact locate_of_straight straight hl hd
  · obtain ⟨absolute, count, names⟩ := Path.names_of_mem_withParents (List.mem_of_mem_tail hm)
    have origin : t.origin path = t.origin c.options.output := by simp only [origin, absolute]
    refine ⟨count, ?_⟩
    rw [← names, ← origin]
    refine locate_of_straight (fun up => straight ?_) hl hd
    rw [names] at up
    exact List.mem_of_mem_take up

section New

variable (rooted : t.Rooted) (straight : ['.', '.'] ∉ Path.names c.options.output)
  (missing : t.has c.options.output = false) {directory : Location} {mode : Nat}
  (hl : (c.prepared t).locate c.options.output = .ok directory)
  (hd : (c.prepared t).directoryAt? directory = some mode)

include rooted straight missing hl hd

/-- An output directory that had to be made is a new directory, when it does not lead upwards. -/
theorem output_ne_of_missing (mode : Nat) : t.directoryAt? directory ≠ some mode := by
  obtain ⟨made, -⟩ := prepared_made (c := c) rooted
  have here := locate_of_straight straight hl hd
  have origin : (c.prepared t).origin c.options.output = t.origin c.options.output := by
    simp only [Files.Tree.origin, made.within.here]
  obtain ⟨sound, way⟩ := locate_ok_iff.mp hl
  have sizes := follow_arrives (way ▸ Arrives.ok directory)
  rw [way] at sizes
  intro old
  have lies : t.locate c.options.output = .ok directory := by
    refine locate_ok_iff.mpr ⟨sound, ?_⟩
    rw [← follow_filter_isName old, ← Path.names_eq, here, origin]
    rw [here, origin] at old
    refine follow_names rooted (fun name hm => ?_) (isSome_of_directoryAt? old)
    refine ⟨(Path.areNames_names _ name hm).1, ?_, sizes name (List.mem_of_mem_filter hm)⟩
    rintro rfl
    exact straight hm
  have there := has_of_isDirectory (isDirectory_iff.mpr ⟨directory, mode, lies, old⟩)
  simp [missing] at there

/-- Nothing is in it. -/
theorem entryAt?_output_of_missing (name : Text) :
    (c.prepared t).entryAt? (directory ++ [name]) = none := by
  obtain ⟨made, -⟩ := prepared_made (c := c) rooted
  have before : t.entryAt? (directory ++ [name]) = none := by
    by_contra there
    obtain ⟨mode, old⟩ := rooted _ (Option.isSome_iff_ne_none.mpr there)
    rw [List.dropLast_concat] at old
    exact output_ne_of_missing rooted straight missing hl hd mode old
  obtain ⟨noDirectory, noFile⟩ := entryAt?_eq_none_iff.mp before
  rw [entryAt?_eq_none_iff, made.files]
  refine ⟨Option.eq_none_iff_forall_ne_some.mpr fun mode hm => ?_, noFile⟩
  rcases made.added _ mode hm with old | ⟨-, path, asked, lies⟩
  · simp [noDirectory] at old
  · -- What has been made lies on the way to the output directory and not beyond it.
    obtain ⟨count, beyond⟩ := location_of_mem_outputDirectories straight asked lies hm
    have lengths := congrArg List.length beyond
    rw [locate_of_straight straight hl hd, List.length_append, List.length_append,
      List.length_append, List.length_take, List.length_singleton] at lengths
    omega

end New

/-- Either nothing had to be made, or there is no artifact before and after, when the output
directory does not lead upwards and the artifact is a name in it. -/
theorem prepared_eq_or_absent (rooted : t.Rooted)
    (straight : ['.', '.'] ∉ Path.names c.options.output)
    (plain : Options.Plain c.options.artifactExtension)
    (valid : (c.validateDirectories t).1 = .ok ()) (view : Text) :
    c.prepared t = t ∨ t.has (c.resolve view).artifact = false ∧
      (c.prepared t).has (c.resolve view).artifact = false := by
  cases missing : t.has c.options.output with
  | true => exact .inl (prepared_eq_of_has missing)
  | false =>
    obtain ⟨-, output⟩ := ready_of_validateDirectories valid
    obtain ⟨directory, mode, hl, hd⟩ := isDirectory_iff.mp output
    have absent : (c.prepared t).has (c.resolve view).artifact ≠ true := by
      intro there
      obtain ⟨location, located, entry⟩ := has_iff.mp there
      obtain rfl := Options.locate_artifact plain hl located
      simp [entryAt?_output_of_missing rooted straight missing hl hd] at entry
    refine .inr ⟨Bool.eq_false_iff.mpr fun there => absent ?_, Bool.eq_false_iff.mpr absent⟩
    obtain ⟨location, located, entry⟩ := has_iff.mp there
    exact has_iff.mpr ⟨location, locate_ok_of_within (prepared_grows c t).within located,
      isSome_entryAt?_of_grows (prepared_grows c t) entry⟩

end Compiler

end Stencil
