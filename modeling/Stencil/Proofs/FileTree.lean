import Mathlib.Data.List.Basic
import Stencil.Files.Tree
import Stencil.Proofs.Path

/-!
# File trees

What operations on a tree do, told by two views of it: which locations are directories
(`directoryAt?`) and which are files (`fileAt?`). Everything that looks a path up depends on these
views alone, and the time of a directory is in neither of them.

* `locate_of_within`: a path that leads somewhere leads to the same location in every tree that has
  these directories and more.
* `replace_file`: writing a file with room for its temporary file (`HasRoom`) changes the file at the
  end of the path and nothing else; so it does whenever it succeeds (`replace_ok`), and a failure leaves
  no trace (`replace_error`).
* `createDirectories_grows`: making directories keeps all that is there, and the directory is there
  afterwards.
-/

namespace Stencil.Files.Tree

/-! ## Views -/

/-- The mode of the directory at a location. -/
def directoryAt? (t : Tree) (location : Location) : Option Nat :=
  match t.entryAt? location with
  | some (.directory mode _) => some mode
  | _ => none

/-- The content and the time of the file at a location. -/
def fileAt? (t : Tree) (location : Location) : Option (Content × Int) :=
  match t.entryAt? location with
  | some (.file content modified) => some (content, modified)
  | _ => none

theorem entryAt?_nil (t : Tree) : t.entryAt? [] = some (.directory 0o755 0) := rfl

theorem find?_setEntry (location other : Location) (entry : Entry)
    (entries : List (Location × Entry)) :
    (setEntry location entry entries).find? (fun (at', _) => at' = other) =
      if location = other then some (location, entry)
      else entries.find? fun (at', _) => at' = other := by
  induction entries with
  | nil => by_cases h : location = other <;> simp [setEntry, h]
  | cons first rest ih =>
    obtain ⟨at', old⟩ := first
    by_cases ha : at' = location
    · subst ha
      by_cases h : at' = other <;> simp [setEntry, h]
    · by_cases h : at' = other
      · subst h
        simp [setEntry, ha, Ne.symm ha]
      · simp [setEntry, ha, h, ih]

theorem entryAt?_put (t : Tree) (location other : Location) (entry : Entry) :
    (t.put location entry).entryAt? other =
      if location = other ∧ other ≠ [] then some entry else t.entryAt? other := by
  by_cases hn : other = []
  · simp [entryAt?, hn]
  · unfold entryAt? put
    simp only [hn, ↓reduceIte]
    rw [find?_setEntry]
    by_cases h : location = other <;> simp [h, hn]

theorem entryAt?_erase (t : Tree) (location other : Location) :
    (t.erase location).entryAt? other =
      if location = other ∧ other ≠ [] then none else t.entryAt? other := by
  by_cases hn : other = []
  · simp [entryAt?, hn]
  · unfold entryAt? erase
    simp only [hn, ↓reduceIte, List.find?_filter]
    by_cases h : location = other
    · subst h
      have : t.entries.find? (fun a => decide (a.1 ≠ location) && decide (a.1 = location)) = none := by
        simp
      simp_all
    · have : (fun a : Location × Entry => decide (a.1 ≠ location) && decide (a.1 = other)) =
          fun a => decide (a.1 = other) := by
        funext a
        by_cases ha : a.1 = other
        · simp [ha, Ne.symm h]
        · simp [ha]
      simp_all

theorem entryAt?_stamp (t : Tree) (location other : Location) :
    (t.stamp location).entryAt? other =
      if location = other ∧ other ≠ [] then (t.entryAt? other).map (Entry.withModified t.now)
      else t.entryAt? other := by
  unfold stamp
  cases he : t.entryAt? location with
  | none => by_cases h : location = other <;> simp_all
  | some entry =>
    rw [entryAt?_put]
    by_cases h : location = other ∧ other ≠ []
    · obtain ⟨rfl, hn⟩ := h
      simp [he, hn]
    · simp [h]

/-- Adding an entry changes the time of its directory besides. -/
theorem entryAt?_add (t : Tree) {location other : Location} (entry : Entry)
    (h : location.dropLast ≠ other) :
    (t.add location entry).entryAt? other =
      if location = other ∧ other ≠ [] then some entry else t.entryAt? other := by
  rw [add, entryAt?_stamp, if_neg (by simp [h]), entryAt?_put]

theorem entryAt?_remove (t : Tree) {location other : Location} (h : location.dropLast ≠ other) :
    (t.remove location).entryAt? other =
      if location = other ∧ other ≠ [] then none else t.entryAt? other := by
  rw [remove, entryAt?_stamp, if_neg (by simp [h]), entryAt?_erase]

theorem ne_nil_of_noDirectory {t : Tree} {location : Location}
    (h : t.directoryAt? location = none) : location ≠ [] := by
  rintro rfl
  simp [directoryAt?, entryAt?_nil] at h

theorem directoryAt?_put_file (t : Tree) (location : Location) (content : Content)
    (modified : Int) (h : t.directoryAt? location = none) :
    (t.put location (.file content modified)).directoryAt? = t.directoryAt? := by
  funext other
  unfold directoryAt? at h ⊢
  rw [entryAt?_put]
  by_cases ho : location = other ∧ other ≠ []
  · obtain ⟨rfl, hn⟩ := ho
    simp [hn, h]
  · simp [ho]

theorem fileAt?_put_file (t : Tree) (location other : Location) (content : Content)
    (modified : Int) (h : location ≠ []) :
    (t.put location (.file content modified)).fileAt? other =
      if location = other then some (content, modified) else t.fileAt? other := by
  unfold fileAt?
  rw [entryAt?_put]
  by_cases ho : location = other
  · subst ho; simp [h]
  · simp [ho]

/-- The time of a directory is in no view. -/
theorem directoryAt?_stamp (t : Tree) (location : Location) :
    (t.stamp location).directoryAt? = t.directoryAt? := by
  funext other
  unfold directoryAt?
  rw [entryAt?_stamp]
  by_cases ho : location = other ∧ other ≠ []
  · rw [if_pos ho]
    cases t.entryAt? other with
    | none => rfl
    | some entry => cases entry <;> rfl
  · rw [if_neg ho]

theorem fileAt?_stamp (t : Tree) (location : Location) (h : t.fileAt? location = none) :
    (t.stamp location).fileAt? = t.fileAt? := by
  funext other
  unfold fileAt? at h ⊢
  rw [entryAt?_stamp]
  by_cases ho : location = other ∧ other ≠ []
  · rw [if_pos ho]
    obtain ⟨rfl, -⟩ := ho
    cases he : t.entryAt? location with
    | none => rfl
    | some entry => cases entry <;> simp_all [Entry.withModified]
  · rw [if_neg ho]

/-- A file stays a file when its time changes. -/
theorem isSome_fileAt?_stamp (t : Tree) (location other : Location) :
    ((t.stamp location).fileAt? other).isSome = (t.fileAt? other).isSome := by
  unfold fileAt?
  rw [entryAt?_stamp]
  by_cases ho : location = other ∧ other ≠ []
  · rw [if_pos ho]
    cases t.entryAt? other with
    | none => rfl
    | some entry => cases entry <;> rfl
  · rw [if_neg ho]

theorem fileAt?_eq_none_of_directory {t : Tree} {location : Location} {mode : Nat}
    (h : t.directoryAt? location = some mode) : t.fileAt? location = none := by
  unfold directoryAt? at h
  unfold fileAt?
  split at h <;> simp_all

theorem mem_of_entryAt? {t : Tree} {location : Location} {entry : Entry}
    (h : t.entryAt? location = some entry) (hn : location ≠ []) :
    (location, entry) ∈ t.entries := by
  simp only [entryAt?, hn, ↓reduceIte, Option.map_eq_some_iff] at h
  obtain ⟨⟨other, found⟩, hf, rfl⟩ := h
  obtain rfl : other = location := by simpa using List.find?_some hf
  exact List.mem_of_find?_eq_some hf

/-- Adding a file to a directory. -/
theorem add_file {t : Tree} {location : Location} (content : Content) (modified : Int) {mode : Nat}
    (h : t.directoryAt? location = none)
    (hp : t.directoryAt? location.dropLast = some mode) :
    (t.add location (.file content modified)).directoryAt? = t.directoryAt? ∧
      ∀ other, (t.add location (.file content modified)).fileAt? other =
        if location = other then some (content, modified) else t.fileAt? other := by
  have hd := directoryAt?_put_file t location content modified h
  have parent : (t.put location (.file content modified)).fileAt? location.dropLast = none :=
    fileAt?_eq_none_of_directory (by rw [hd]; exact hp)
  refine ⟨by rw [add, directoryAt?_stamp, hd], fun other => ?_⟩
  rw [add, fileAt?_stamp _ _ parent,
    fileAt?_put_file t location other content modified (ne_nil_of_noDirectory h)]

/-- Removing a file from a directory. -/
theorem remove_file {t : Tree} {location : Location} {mode : Nat}
    (h : t.directoryAt? location = none) (hp : t.directoryAt? location.dropLast = some mode) :
    (t.remove location).directoryAt? = t.directoryAt? ∧
      ∀ other, (t.remove location).fileAt? other =
        if location = other then none else t.fileAt? other := by
  have hn := ne_nil_of_noDirectory h
  have hd : (t.erase location).directoryAt? = t.directoryAt? := by
    funext other
    unfold directoryAt? at h ⊢
    rw [entryAt?_erase]
    by_cases ho : location = other ∧ other ≠ []
    · obtain ⟨rfl, -⟩ := ho
      simp_all
    · simp [ho]
  have hf : ∀ other, (t.erase location).fileAt? other =
      if location = other then none else t.fileAt? other := by
    intro other
    unfold fileAt?
    rw [entryAt?_erase]
    by_cases ho : location = other
    · subst ho; simp [hn]
    · simp [ho]
  have parent : (t.erase location).fileAt? location.dropLast = none :=
    fileAt?_eq_none_of_directory (by rw [hd]; exact hp)
  refine ⟨by rw [remove, directoryAt?_stamp, hd], fun other => ?_⟩
  rw [remove, fileAt?_stamp _ _ parent, hf]

@[simp] theorem here_add (t : Tree) (location : Location) (entry : Entry) :
    (t.add location entry).here = t.here := by
  unfold add stamp
  split <;> rfl

@[simp] theorem here_remove (t : Tree) (location : Location) : (t.remove location).here = t.here := by
  unfold remove stamp
  split <;> rfl

@[simp] theorem now_stamp (t : Tree) (location : Location) : (t.stamp location).now = t.now := by
  unfold stamp
  split <;> rfl

@[simp] theorem now_add (t : Tree) (location : Location) (entry : Entry) :
    (t.add location entry).now = t.now := by
  rw [add, now_stamp]
  rfl

@[simp] theorem now_remove (t : Tree) (location : Location) : (t.remove location).now = t.now := by
  rw [remove, now_stamp]
  rfl

@[simp] theorem process_add (t : Tree) (location : Location) (entry : Entry) :
    (t.add location entry).process = t.process := by
  unfold add stamp
  split <;> rfl

@[simp] theorem process_remove (t : Tree) (location : Location) :
    (t.remove location).process = t.process := by
  unfold remove stamp
  split <;> rfl

/-! ## Looking up paths -/

/-- Every directory of one tree is a directory of another, and both have the same working directory.
-/
structure Within (t u : Tree) : Prop where
  directories : ∀ location mode, t.directoryAt? location = some mode →
    u.directoryAt? location = some mode
  here : u.here = t.here

theorem Within.of_eq {t u : Tree} (h : u.directoryAt? = t.directoryAt?) (hh : u.here = t.here) :
    Within t u := ⟨fun _ _ hm => h ▸ hm, hh⟩

theorem Within.trans {t u v : Tree} (h : Within t u) (h' : Within u v) : Within t v :=
  ⟨fun location mode hm => h'.directories location mode (h.directories location mode hm),
    h'.here.trans h.here⟩

/-- One step of a path. -/
theorem follow_cons (t : Tree) (location : Location) (part : Text) (parts : List Text) :
    t.follow location (part :: parts) =
      match t.directoryAt? location with
      | none => .error (if (t.entryAt? location).isSome then .notDirectory else .missing)
      | some _ =>
        if part = [] ∨ part = ['.'] then t.follow location parts
        else if part = ['.', '.'] then t.follow location.dropLast parts
        else if maxNameSize < part.byteSize then .error .nameTooLong
        else t.follow (location ++ [part]) parts := by
  rw [follow, directoryAt?]
  cases t.entryAt? location with
  | none => rfl
  | some entry => cases entry <;> rfl

theorem follow_append (t : Tree) (location : Location) (a b : List Text) :
    t.follow location (a ++ b) =
      match t.follow location a with
      | .ok between => t.follow between b
      | .error fault => .error fault := by
  induction a generalizing location with
  | nil => simp [follow]
  | cons part a ih =>
    rw [List.cons_append, follow_cons, follow_cons]
    cases t.directoryAt? location with
    | none => rfl
    | some mode =>
      by_cases h1 : part = [] ∨ part = ['.']
      · simp [h1, ih]
      · by_cases h2 : part = ['.', '.']
        · simp [h2, ih]
        · by_cases h3 : maxNameSize < part.byteSize
          · simp [h1, h2, h3]
          · simp [h1, h2, h3, ih]

/-- A lookup is told by the directories on the way when it gets to the end of the path, and also when
a name is too long. -/
def Arrives (result : Except Fault Location) : Prop :=
  result ≠ .error .missing ∧ result ≠ .error .notDirectory

theorem Arrives.ok (location : Location) : Arrives (.ok location) := ⟨by simp, by simp⟩

theorem follow_of_within {t u : Tree} (h : Within t u) {location : Location} {parts : List Text}
    (ha : Arrives (t.follow location parts)) :
    u.follow location parts = t.follow location parts := by
  induction parts generalizing location with
  | nil => rfl
  | cons part parts ih =>
    rw [follow_cons] at ha ⊢
    rw [follow_cons]
    cases hd : t.directoryAt? location with
    | none =>
      exfalso
      simp only [hd] at ha
      split at ha
      · exact ha.2 rfl
      · exact ha.1 rfl
    | some mode =>
      simp only [hd, h.directories location mode hd] at ha ⊢
      by_cases h1 : part = [] ∨ part = ['.']
      · simp only [h1, ↓reduceIte] at ha ⊢
        exact ih ha
      · by_cases h2 : part = ['.', '.']
        · simp only [h2, ↓reduceIte] at ha ⊢
          simp only [List.cons.injEq, reduceCtorEq, and_false, or_self, ↓reduceIte] at ha ⊢
          exact ih ha
        · by_cases h3 : maxNameSize < part.byteSize
          · simp only [h1, h2, h3, ↓reduceIte]
          · simp only [h1, h2, h3, ↓reduceIte] at ha ⊢
            exact ih ha

/-- A path that leads somewhere leads to the same place when there are more directories. -/
theorem locate_of_within {t u : Tree} (h : Within t u) {path : Text}
    (ha : Arrives (t.locate path)) : u.locate path = t.locate path := by
  unfold locate origin at ha ⊢
  rw [h.here]
  cases hp : pathFault? path with
  | some fault => rfl
  | none =>
    simp only [hp] at ha
    exact follow_of_within h ha

theorem arrives_of_pathFault {path : Text} {fault : Fault} (hn : path ≠ [])
    (h : pathFault? path = some fault) : Arrives (.error fault) := by
  have he : path.isEmpty = false := by simpa using hn
  simp only [pathFault?, he, Bool.false_eq_true, ↓reduceIte] at h
  split at h
  · obtain rfl := Option.some.inj h
    exact ⟨by simp, by simp⟩
  · split at h
    · obtain rfl := Option.some.inj h
      exact ⟨by simp, by simp⟩
    · simp at h

/-- One step from a directory arrives. -/
theorem arrives_step {t : Tree} {directory : Location} {mode : Nat}
    (hd : t.directoryAt? directory = some mode) (part : Text) :
    Arrives (t.follow directory [part]) := by
  rw [follow_cons, hd]
  simp only [follow]
  split
  · exact Arrives.ok _
  · split
    · exact Arrives.ok _
    · split
      · exact ⟨by simp, by simp⟩
      · exact Arrives.ok _

theorem locate_ok_of_within {t u : Tree} (h : Within t u) {path : Text} {target : Location}
    (ht : t.locate path = .ok target) : u.locate path = .ok target := by
  rw [locate_of_within h (ht ▸ Arrives.ok target), ht]

/-- Where a lookup that goes on to a directory starts, there is a directory. -/
theorem directoryAt?_of_follow {t : Tree} {location target : Location} {parts : List Text} {mode : Nat}
    (hf : t.follow location parts = .ok target) (ht : t.directoryAt? target = some mode) :
    ∃ mode, t.directoryAt? location = some mode := by
  cases parts with
  | nil =>
    simp only [follow, Except.ok.injEq] at hf
    exact ⟨mode, hf ▸ ht⟩
  | cons part parts =>
    rw [follow_cons] at hf
    cases hd : t.directoryAt? location with
    | none => simp [hd] at hf
    | some mode => exact ⟨mode, rfl⟩

/-- Only the names of a path matter for the way to a directory. -/
theorem follow_filter_isName {t : Tree} {location target : Location} {parts : List Text} {mode : Nat}
    (ht : t.directoryAt? target = some mode) :
    t.follow location (parts.filter Path.isName) = .ok target ↔
      t.follow location parts = .ok target := by
  induction parts generalizing location with
  | nil => rfl
  | cons part parts ih =>
    cases hp : Path.isName part with
    | true =>
      have hn : ¬(part = [] ∨ part = ['.']) := by simpa [Path.isName, not_or] using hp
      rw [List.filter_cons_of_pos hp, follow_cons, follow_cons]
      cases t.directoryAt? location with
      | none => rfl
      | some mode =>
        simp only [hn, ↓reduceIte]
        split
        · exact ih
        · split
          · rfl
          · exact ih
    | false =>
      have hn : part = [] ∨ part = ['.'] := by
        by_cases h : part = [] <;> simp_all [Path.isName]
      rw [List.filter_cons_of_neg (by simp [hp]), follow_cons, ih]
      cases hd : t.directoryAt? location with
      | some mode => simp only [hn, ↓reduceIte]
      | none =>
        simp only [reduceCtorEq, iff_false]
        intro hf
        obtain ⟨mode, hm⟩ := directoryAt?_of_follow hf ht
        simp [hd] at hm

theorem locate_ok_iff {t : Tree} {path : Text} {target : Location} :
    t.locate path = .ok target ↔
      pathFault? path = none ∧ t.follow (t.origin path) (Path.parts path) = .ok target := by
  unfold locate
  cases pathFault? path <;> simp

theorem pathFault?_eq_none_iff {path : Text} :
    pathFault? path = none ↔ path ≠ [] ∧ '\x00' ∉ path ∧ path.byteSize ≤ maxPathSize := by
  unfold pathFault?
  cases path with
  | nil => simp
  | cons c rest =>
    by_cases hz : '\x00' ∈ c :: rest
    · simp [hz]
    · by_cases hs : maxPathSize < Text.byteSize (c :: rest)
      · simp [hz, hs]
      · simp [hz, hs, Nat.not_lt.mp hs]

/-- Only the sizes of the names of a path decide on the result of a lookup. -/
def SizesDecide (parts : List Text) : Except Fault Location → Prop
  | .ok _ => ∀ part ∈ parts, part.byteSize ≤ maxNameSize
  | .error fault => fault = .nameTooLong ∧ ∃ part ∈ parts, maxNameSize < part.byteSize

theorem SizesDecide.cons {part : Text} {parts : List Text} {result : Except Fault Location}
    (hs : part.byteSize ≤ maxNameSize) (h : SizesDecide parts result) :
    SizesDecide (part :: parts) result := by
  cases result with
  | ok target => exact List.forall_mem_cons.mpr ⟨hs, h⟩
  | error fault =>
    obtain ⟨rfl, q, hq, hz⟩ := h
    exact ⟨rfl, q, List.mem_cons_of_mem _ hq, hz⟩

/-- A lookup that arrives fails on names that are too long only. -/
theorem follow_arrives {t : Tree} {location : Location} {parts : List Text}
    (h : Arrives (t.follow location parts)) : SizesDecide parts (t.follow location parts) := by
  induction parts generalizing location with
  | nil => simp [follow, SizesDecide]
  | cons part parts ih =>
    rw [follow_cons] at h ⊢
    cases hd : t.directoryAt? location with
    | none =>
      simp only [hd] at h
      split at h
      · exact absurd rfl h.2
      · exact absurd rfl h.1
    | some mode =>
      simp only [hd] at h ⊢
      by_cases h1 : part = [] ∨ part = ['.']
      · have hs : part.byteSize ≤ maxNameSize := by rcases h1 with rfl | rfl <;> decide
        simp only [h1, ↓reduceIte] at h ⊢
        exact (ih h).cons hs
      · by_cases h2 : part = ['.', '.']
        · have hs : part.byteSize ≤ maxNameSize := by subst h2; decide
          simp only [h2, ↓reduceIte] at h ⊢
          simp only [List.cons.injEq, reduceCtorEq, and_false, or_self, ↓reduceIte] at h ⊢
          simpa only [h2] using (ih h).cons hs
        · by_cases h3 : maxNameSize < part.byteSize
          · simp only [h1, h2, h3, ↓reduceIte]
            exact ⟨rfl, part, List.mem_cons_self, h3⟩
          · simp only [h1, h2, h3, ↓reduceIte] at h ⊢
            exact (ih h).cons (Nat.not_lt.mp h3)

theorem stat_ok_iff {t : Tree} {path : Text} {entry : Entry} : t.stat path = .ok entry ↔
    ∃ location, t.locate path = .ok location ∧ t.entryAt? location = some entry := by
  unfold stat
  cases t.locate path with
  | error fault => simp
  | ok location => cases h : t.entryAt? location <;> simp [h]

theorem stat_eq_file_iff {t : Tree} {path : Text} {content : Content} {modified : Int} :
    t.stat path = .ok (.file content modified) ↔
      ∃ location, t.locate path = .ok location ∧ t.fileAt? location = some (content, modified) := by
  unfold stat
  cases t.locate path with
  | error fault => simp
  | ok location =>
    unfold fileAt?
    cases h : t.entryAt? location with
    | none => simp [h]
    | some entry => cases entry <;> simp [h]

theorem isFile_iff {t : Tree} {path : Text} :
    t.isFile path = true ↔ ∃ content modified, t.stat path = .ok (.file content modified) := by
  unfold isFile
  split
  · next content modified h => simp [h]
  · next h =>
    simp only [Bool.false_eq_true, false_iff, not_exists]
    exact h

theorem stat_eq_file_of_noDirectory {t : Tree} {path : Text} {entry : Entry}
    (hd : t.isDirectory path = false) (h : t.stat path = .ok entry) :
    ∃ content modified, entry = .file content modified := by
  cases entry with
  | file content modified => exact ⟨content, modified, rfl⟩
  | directory mode modified => simp [isDirectory, h] at hd

theorem read_congr {t u : Tree} {path : Text} (h : u.stat path = t.stat path) :
    u.read path = t.read path := by
  unfold read
  rw [h]

theorem read_of_fileAt? {t : Tree} {path text : Text} {location : Location} {modified : Int}
    (hl : t.locate path = .ok location) (hf : t.fileAt? location = some (.text text, modified)) :
    t.read path = .ok text := by
  have hs : t.stat path = .ok (.file (.text text) modified) := stat_eq_file_iff.mpr ⟨location, hl, hf⟩
  simp only [read, hs]

theorem isDirectory_iff {t : Tree} {path : Text} :
    t.isDirectory path = true ↔
      ∃ location mode, t.locate path = .ok location ∧ t.directoryAt? location = some mode := by
  unfold isDirectory stat
  cases t.locate path with
  | error fault => simp
  | ok location =>
    unfold directoryAt?
    cases h : t.entryAt? location with
    | none => simp [h]
    | some entry => cases entry <;> simp [h]

/-! ## Writing a file -/

/-- A way that ends in a name ends in the directory in front of it. -/
theorem follow_concat_name {t : Tree} {location target : Location} {front : List Text} {last : Text}
    (hn : Path.isName last = true) (hup : last ≠ ['.', '.'])
    (h : t.follow location (front ++ [last]) = .ok target) :
    ∃ directory mode, t.follow location front = .ok directory ∧
      t.directoryAt? directory = some mode ∧ target = directory ++ [last] := by
  have hname : ¬(last = [] ∨ last = ['.']) := by simpa [Path.isName, not_or] using hn
  rw [follow_append] at h
  cases hw : t.follow location front with
  | error fault => simp [hw] at h
  | ok directory =>
    simp only [hw, follow_cons] at h
    cases hm : t.directoryAt? directory with
    | none => simp [hm] at h
    | some mode =>
      simp only [hm, hname, hup, ↓reduceIte, follow] at h
      split at h
      · simp at h
      · exact ⟨directory, mode, rfl, hm, (Except.ok.inj h).symm⟩

/-- Parts that are names lead to themselves. -/
theorem eq_append_of_follow {t : Tree} {location target : Location} {parts : List Text}
    (hn : ∀ part ∈ parts, Path.isName part = true ∧ part ≠ ['.', '.'])
    (h : t.follow location parts = .ok target) : target = location ++ parts := by
  induction parts generalizing location with
  | nil =>
    rw [List.append_nil]
    exact (Except.ok.inj h).symm
  | cons part parts ih =>
    obtain ⟨named, up⟩ := hn part List.mem_cons_self
    have named : ¬(part = [] ∨ part = ['.']) := by simpa [Path.isName, not_or] using named
    rw [follow_cons] at h
    split at h
    · simp at h
    · simp only [named, up, ↓reduceIte] at h
      split at h
      · simp at h
      · rw [ih (fun part hm => hn part (List.mem_cons_of_mem _ hm)) h, List.append_assoc,
          List.singleton_append]

/-- A way that ends in no name ends in a directory in front. -/
theorem directoryAt?_of_follow_concat {t : Tree} {location target : Location} {front : List Text}
    {last : Text} (hn : Path.isName last = false)
    (h : t.follow location (front ++ [last]) = .ok target) :
    ∃ mode, t.directoryAt? target = some mode := by
  have hname : last = [] ∨ last = ['.'] := by
    by_cases h : last = [] <;> simp_all [Path.isName]
  rw [follow_append] at h
  cases hw : t.follow location front with
  | error fault => simp [hw] at h
  | ok directory =>
    simp only [hw, follow_cons] at h
    cases hm : t.directoryAt? directory with
    | none => simp [hm] at h
    | some mode =>
      simp only [hm, hname, ↓reduceIte, follow, Except.ok.injEq] at h
      exact ⟨mode, h ▸ hm⟩

theorem follow_concat_blank {t : Tree} {location target : Location} {front : List Text} :
    t.follow location (front ++ [[]]) = .ok target ↔
      t.follow location front = .ok target ∧ ∃ mode, t.directoryAt? target = some mode := by
  rw [follow_append]
  cases t.follow location front with
  | error fault => simp
  | ok directory =>
    simp only
    rw [follow_cons]
    cases hd : t.directoryAt? directory with
    | none =>
      simp only [reduceCtorEq, Except.ok.injEq, false_iff, not_and, not_exists]
      rintro rfl mode
      simp [hd]
    | some mode =>
      simp only [true_or, ↓reduceIte, follow, Except.ok.injEq, iff_self_and]
      rintro rfl
      exact ⟨mode, hd⟩

/-- The place of a file as a path tells it: a name in a directory. -/
theorem place_of_locate {t : Tree} {path : Text} {target : Location}
    (hl : t.locate path = .ok target) (hf : (Path.fileName? path).isSome)
    (hd : t.directoryAt? target = none) :
    ∃ front last mode, Path.parts path = front ++ [last] ∧ Path.isName last = true ∧
      t.directoryAt? target.dropLast = some mode ∧ target = target.dropLast ++ [last] ∧
      t.follow (t.origin path) front = .ok target.dropLast := by
  obtain ⟨-, hl⟩ := locate_ok_iff.mp hl
  obtain ⟨front, last, hp⟩ : ∃ front last, Path.parts path = front ++ [last] :=
    ⟨_, _, (List.dropLast_append_getLast (Path.parts_ne_nil path)).symm⟩
  rw [hp] at hl
  cases hn : Path.isName last with
  | false =>
    obtain ⟨mode, hm⟩ := directoryAt?_of_follow_concat hn hl
    simp [hd] at hm
  | true =>
    have hup : last ≠ ['.', '.'] := by
      rintro rfl
      simp [Path.fileName?, Path.names_of_parts hp hn] at hf
    obtain ⟨directory, mode, hw, hm, rfl⟩ := follow_concat_name hn hup hl
    rw [List.dropLast_concat]
    exact ⟨front, last, mode, hp, hn, hm, rfl, hw⟩

/-- The directory in front of the last name of a path is found by its own path. -/
theorem locateDirectory_of_parts {t : Tree} {path last : Text} {front : List Text}
    {directory : Location} {mode : Nat} (sound : pathFault? path = none)
    (hp : Path.parts path = front ++ [last]) (hn : Path.isName last = true)
    (hw : t.follow (t.origin path) front = .ok directory)
    (hm : t.directoryAt? directory = some mode) :
    t.locateDirectory (Path.directoryOf path) = .ok directory := by
  obtain ⟨hne, hnull, hsize⟩ := pathFault?_eq_none_iff.mp sound
  have located : t.locate (Path.directoryOf path) = .ok directory := by
    rw [locate_ok_iff, pathFault?_eq_none_iff]
    refine ⟨⟨Path.directoryOf_ne_nil path, ?_, ?_⟩, ?_⟩
    · intro h
      rcases Path.mem_directoryOf h with h | h | h
      · exact absurd h (by decide)
      · exact absurd h (by decide)
      · exact hnull h
    · have hs := Path.byteSize_parent_le hp hn
      unfold Path.directoryOf
      split
      · have : Text.byteSize ['.'] = 1 := by decide
        rw [this]
        decide
      · omega
    · have ho : t.origin (Path.directoryOf path) = t.origin path := by
        unfold origin
        rw [Path.isAbsolute_directoryOf]
      rw [ho, ← follow_filter_isName hm, ← Path.names_eq, Path.names_directoryOf,
        Path.names_of_parts hp hn, List.dropLast_concat, follow_filter_isName hm]
      exact hw
  unfold locateDirectory
  unfold directoryAt? at hm
  rw [located]
  split at hm
  · next h => simp [h]
  · simp at hm

/-! ## Temporary files -/

theorem mem_temporaryExtension {t : Tree} {instant : Nat} {c : Char}
    (h : c ∈ t.temporaryExtension instant) : c ∈ "tmp-".toList ∨ c.isDigit = true := by
  have digits (n : Nat) (hc : c ∈ Text.ofNat n) : c.isDigit = true :=
    Nat.isDigit_of_mem_toDigits (by decide) (by decide) hc
  simp only [temporaryExtension, List.mem_append, List.mem_cons] at h
  rcases h with (h | h) | rfl | h
  · exact .inl h
  · exact .inr (digits _ h)
  · exact .inl (by decide)
  · exact .inr (digits _ h)

theorem slash_notMem_temporaryExtension (t : Tree) (instant : Nat) :
    '/' ∉ t.temporaryExtension instant := by
  intro h
  rcases mem_temporaryExtension h with h | h <;> exact absurd h (by decide)

theorem two_le_length_temporaryExtension (t : Tree) (instant : Nat) :
    2 ≤ (t.temporaryExtension instant).length := by
  have size : "tmp-".toList.length = 4 := rfl
  simp only [temporaryExtension, List.length_append, size]
  omega

/-- Each instant gives a temporary file another name. -/
theorem temporaryExtension_inj {t : Tree} {a b : Nat}
    (h : t.temporaryExtension a = t.temporaryExtension b) : a = b := by
  have digits := (List.cons.inj (List.append_cancel_left h)).2
  have value (n : Nat) : Nat.ofDigitChars 10 (Text.ofNat n) 0 = n :=
    Nat.ofDigitChars_toDigits (by decide) (by decide)
  rw [← value a, digits, value]

/-- There are more instants than entries, so a name is free. -/
theorem exists_free_temporaryLocation (t : Tree) (directory : Location) (name : Text) :
    ∃ location ∈ t.temporaryLocations directory name, t.entryAt? location = none := by
  by_contra taken
  have subset : t.temporaryLocations directory name ⊆ t.entries.map Prod.fst := by
    intro location hm
    obtain ⟨later, -, rfl⟩ := List.mem_map.mp hm
    obtain ⟨entry, there⟩ := Option.ne_none_iff_exists'.mp fun free => taken ⟨_, hm, free⟩
    exact List.mem_map.mpr ⟨_, mem_of_entryAt? there (by simp), rfl⟩
  have distinct : (t.temporaryLocations directory name).Nodup := by
    refine List.pairwise_map.mpr (List.nodup_range.imp fun {a b} ne same => ne ?_)
    have extensions := List.append_cancel_left (List.cons.inj (List.append_cancel_left same)).1
    exact Nat.add_left_cancel (temporaryExtension_inj (List.cons.inj extensions).2)
  have more := distinct.length_le_of_subset subset
  simp only [temporaryLocations, List.length_map, List.length_range] at more
  omega

/-- A place in a directory with nothing at it. -/
structure Vacant (t : Tree) (location : Location) : Prop where
  free : t.entryAt? location = none
  parent : ∃ mode, t.directoryAt? location.dropLast = some mode

theorem Vacant.noDirectory {t : Tree} {location : Location} (h : Vacant t location) :
    t.directoryAt? location = none := by
  simp [directoryAt?, h.free]

/-- A temporary file is written where nothing is, in the directory that the path leads to. -/
theorem locateTemporary_ok {t : Tree} {path : Text} {source : Location}
    (h : t.locateTemporary path = .ok source) : Vacant t source ∧
      (Path.fileName? path).isSome ∧
      t.locateDirectory (Path.directoryOf path) = .ok source.dropLast := by
  have noSlash := t.slash_notMem_temporaryExtension t.instant
  have long := t.two_le_length_temporaryExtension t.instant
  unfold locateTemporary at h
  split at h
  · simp at h
  · simp at h
  · next location name hl hf =>
    obtain ⟨front, ends⟩ := Path.exists_endsIn hf
    have parts := Path.parts_withExtension ends noSlash
    obtain ⟨named, up⟩ := Path.isName_renameExtension long name
    obtain ⟨sound, followed⟩ := locate_ok_iff.mp hl
    rw [temporaryPath, parts] at followed
    obtain ⟨directory, mode, way, hm, rfl⟩ := follow_concat_name named up followed
    have found := locateDirectory_of_parts sound parts named way hm
    rw [temporaryPath, Path.directoryOf_withExtension ends noSlash long] at found
    rw [List.dropLast_concat] at h
    obtain ⟨free, hfree, isFree⟩ := t.exists_free_temporaryLocation directory name
    cases hs : (t.temporaryLocations directory name).find? fun location =>
        (t.entryAt? location).isNone with
    | none => simpa [isFree] using List.find?_eq_none.mp hs free hfree
    | some other =>
      rw [hs, Option.getD_some, Except.ok.injEq] at h
      subst h
      obtain ⟨later, -, rfl⟩ := List.mem_map.mp (List.mem_of_find?_eq_some hs)
      refine ⟨⟨by simpa using List.find?_some hs, mode, ?_⟩, by simp [hf], ?_⟩
      · rwa [List.dropLast_concat]
      · rwa [List.dropLast_concat]

/-- A system takes the path of the temporary file for a path. -/
structure HasRoom (t : Tree) (path : Text) : Prop where
  size : (t.temporaryPath path).byteSize ≤ maxPathSize
  nameSize : ∀ name, Path.fileName? (t.temporaryPath path) = some name →
    name.byteSize ≤ maxNameSize

instance (t : Tree) (path : Text) : Decidable (HasRoom t path) :=
  decidable_of_iff ((t.temporaryPath path).byteSize ≤ maxPathSize ∧
      ∀ name ∈ Path.fileName? (t.temporaryPath path), name.byteSize ≤ maxNameSize)
    ⟨fun h => ⟨h.1, h.2⟩, fun h => ⟨h.size, h.nameSize⟩⟩

/-- The path of a temporary file can be too long, but nothing else is wrong with it. -/
theorem pathFault?_temporaryPath {t : Tree} {path name : Text} {front : List Text}
    (ends : Path.EndsIn path front name) (sound : pathFault? path = none) :
    pathFault? (t.temporaryPath path) =
      if (t.temporaryPath path).byteSize ≤ maxPathSize then none else some .nameTooLong := by
  have noSlash := t.slash_notMem_temporaryExtension t.instant
  have long := t.two_le_length_temporaryExtension t.instant
  obtain ⟨-, noNull, -⟩ := pathFault?_eq_none_iff.mp sound
  have nonempty : t.temporaryPath path ≠ [] := by
    obtain ⟨named, -⟩ := Path.isName_renameExtension long name
    have there : Path.renameExtension (t.temporaryExtension t.instant) name ∈
        Path.parts (t.temporaryPath path) := by
      rw [temporaryPath, Path.parts_withExtension ends noSlash]
      exact List.mem_append_right _ List.mem_cons_self
    refine Path.ne_nil_of_mem_parts there fun blank => ?_
    rw [blank] at named
    exact absurd named (by decide)
  have noNull : '\x00' ∉ t.temporaryPath path := by
    intro null
    rcases Path.mem_withExtension ends noSlash null with h | h | h | h
    · exact noNull h
    · exact absurd h (by decide)
    · exact absurd h (by decide)
    · rcases mem_temporaryExtension h with h | h <;> exact absurd h (by decide)
  by_cases size : (t.temporaryPath path).byteSize ≤ maxPathSize
  · rw [if_pos size]
    exact pathFault?_eq_none_iff.mpr ⟨nonempty, noNull, size⟩
  · simp [pathFault?, nonempty, noNull, Nat.not_le.mp size, size]

/-- The path of a temporary file leads to a place next to its target, or it is refused. -/
theorem locate_temporaryPath {t : Tree} {path : Text} {target : Location}
    (hl : t.locate path = .ok target) (hf : (Path.fileName? path).isSome)
    (hd : t.directoryAt? target = none) :
    ∃ location, t.locate (t.temporaryPath path) =
      if HasRoom t path then .ok location else .error .nameTooLong := by
  have noSlash := t.slash_notMem_temporaryExtension t.instant
  obtain ⟨front, last, mode, hp, hn, hm, -, hw⟩ := place_of_locate hl hf hd
  have up : last ≠ ['.', '.'] := by
    rintro rfl
    simp [Path.fileName?, Path.names_of_parts hp hn] at hf
  have ends := Path.EndsIn.of_parts hp hn up
  have parts := Path.parts_withExtension ends noSlash
  obtain ⟨named, up'⟩ :=
    Path.isName_renameExtension (t.two_le_length_temporaryExtension t.instant) last
  have name := Path.fileName?_eq_some (.of_parts parts named up')
  have fault := pathFault?_temporaryPath (t := t) ends (locate_ok_iff.mp hl).1
  refine ⟨target.dropLast ++ [Path.renameExtension (t.temporaryExtension t.instant) last], ?_⟩
  by_cases size : (t.temporaryPath path).byteSize ≤ maxPathSize
  · have origin : t.origin (t.temporaryPath path) = t.origin path := by
      simp only [Files.Tree.origin, temporaryPath, Path.isAbsolute_withExtension ends noSlash]
    have leads : ¬(Path.renameExtension (t.temporaryExtension t.instant) last = [] ∨
        Path.renameExtension (t.temporaryExtension t.instant) last = ['.']) := by
      simpa [Path.isName, not_or] using named
    have room : HasRoom t path ↔
        ¬maxNameSize < (Path.renameExtension (t.temporaryExtension t.instant) last).byteSize := by
      refine ⟨fun room => Nat.not_lt.mpr (room.nameSize _ name), fun fits => ⟨size, ?_⟩⟩
      intro other found
      obtain rfl := Option.some.inj (name.symm.trans found)
      exact Nat.not_lt.mp fits
    rw [if_pos size] at fault
    simp only [locate, fault, origin]
    rw [temporaryPath, parts, follow_append, hw]
    simp only [follow_cons, hm, leads, up', room, ↓reduceIte]
    split <;> simp [follow]
  · rw [if_neg size] at fault
    rw [if_neg fun room : HasRoom t path => size room.size]
    simp only [locate, fault]

/-- With room for it a temporary file has a place. -/
theorem exists_locateTemporary {t : Tree} {path : Text} {target : Location}
    (hl : t.locate path = .ok target) (hf : (Path.fileName? path).isSome)
    (hd : t.directoryAt? target = none) (room : HasRoom t path) :
    ∃ source, t.locateTemporary path = .ok source := by
  obtain ⟨location, located⟩ := locate_temporaryPath hl hf hd
  obtain ⟨name, hname⟩ := Option.isSome_iff_exists.mp hf
  rw [if_pos room] at located
  exact ⟨_, by simp only [locateTemporary, located, hname]; rfl⟩

/-! ## Replacing a file -/

/-- One file of a tree is written and nothing else changes. -/
structure Wrote (t : Tree) (target : Location) (text : Text) (t' : Tree) : Prop where
  directories : t'.directoryAt? = t.directoryAt?
  here : t'.here = t.here
  now : t'.now = t.now
  process : t'.process = t.process
  files : ∀ other, t'.fileAt? other =
    if target = other then some (.text text, t.now) else t.fileAt? other

theorem dropEndWhile_slash_of_parts {path last : Text} {front : List Text}
    (hp : Path.parts path = front ++ [last]) (hn : Path.isName last = true) :
    Text.dropEndWhile (· == '/') path = path := by
  have hl : last ≠ [] := by rintro rfl; simp [Path.isName] at hn
  have hm : last ∈ Path.parts path := by simp [hp]
  have hs := Path.slash_notMem_parts hm
  obtain ⟨before, c, rfl⟩ : ∃ before c, last = before ++ [c] :=
    ⟨_, _, (List.dropLast_append_getLast hl).symm⟩
  have hc : (c == '/') = false := by
    simp only [beq_eq_false_iff_ne]
    rintro rfl
    simp at hs
  -- The path ends as its last part does.
  obtain ⟨start, hpath⟩ : ∃ start, path = start ++ [c] := by
    rw [← Path.join_parts path, hp]
    clear hp hm
    induction front with
    | nil => exact ⟨before, rfl⟩
    | cons first front ih =>
      obtain ⟨start, h⟩ := ih
      exact ⟨first ++ ['/'] ++ start, by
        rw [List.cons_append, Text.join_cons_of_ne_nil (by simp), h]
        simp only [List.append_assoc]⟩
  simp [hpath, Text.dropEndWhile, hc]

theorem entryAt?_of_fileAt? {t : Tree} {location : Location} {content : Content} {modified : Int}
    (h : t.fileAt? location = some (content, modified)) :
    t.entryAt? location = some (.file content modified) := by
  unfold fileAt? at h
  split at h
  · next he => simp_all
  · simp at h

/-- A file moved onto a path takes the place of what the path leads to. -/
theorem move_file {t : Tree} {path : Text} {source target : Location} {content : Content}
    {modified : Int} (hl : t.locate path = .ok target) (hf : (Path.fileName? path).isSome)
    (hd : t.directoryAt? target = none)
    (hs : t.entryAt? source = some (.file content modified)) :
    t.move source path = .ok ((t.remove source).add target (.file content modified)) := by
  obtain ⟨front, last, -, hp, hn, -, -, -⟩ := place_of_locate hl hf hd
  have hlast : last ≠ [] ∧ last ≠ ['.'] := by simpa [Path.isName] using hn
  unfold move
  rw [dropEndWhile_slash_of_parts hp hn, hl, hp]
  simp only [List.getLast?_append, List.getLast?_singleton, Option.some_or, Option.some.injEq,
    hlast.1, hlast.2, ↓reduceIte, hs]
  unfold directoryAt? at hd
  cases he : t.entryAt? target with
  | none => rfl
  | some entry =>
    cases entry with
    | file other since => rfl
    | directory mode since => simp [he] at hd

/-- A file that is added where nothing is. -/
theorem Vacant.add {t : Tree} {source : Location} (h : Vacant t source) (text : Text) :
    (t.add source (.file (.text text) t.now)).directoryAt? = t.directoryAt? ∧
      ∀ other, (t.add source (.file (.text text) t.now)).fileAt? other =
        if source = other then some (.text text, t.now) else t.fileAt? other := by
  obtain ⟨mode, hm⟩ := h.parent
  exact add_file (.text text) t.now h.noDirectory hm

/-- And that is removed again. -/
theorem Vacant.remove {t : Tree} {source : Location} (h : Vacant t source) (text : Text) :
    ((t.add source (.file (.text text) t.now)).remove source).directoryAt? = t.directoryAt? ∧
      ((t.add source (.file (.text text) t.now)).remove source).fileAt? = t.fileAt? := by
  obtain ⟨mode, hm⟩ := h.parent
  obtain ⟨directories, files⟩ := h.add text
  have hsource := h.noDirectory
  rw [← directories] at hsource hm
  obtain ⟨directories', files'⟩ := remove_file hsource hm
  refine ⟨directories'.trans directories, funext fun other => ?_⟩
  rw [files', files]
  by_cases ho : source = other
  · subst ho
    rw [if_pos rfl]
    simp [fileAt?, h.free]
  · rw [if_neg ho, if_neg ho]

/-- A file that is written somewhere else and moved to its place. -/
theorem Vacant.wrote {t : Tree} {source target : Location} {mode : Nat} (h : Vacant t source)
    (text : Text) (hd : t.directoryAt? target = none)
    (hm : t.directoryAt? target.dropLast = some mode) :
    Wrote t target text (((t.add source (.file (.text text) t.now)).remove source).add target
      (.file (.text text) t.now)) := by
  obtain ⟨directories, files⟩ := h.remove text
  rw [← directories] at hd hm
  obtain ⟨directories', files'⟩ := add_file (.text text) t.now hd hm
  refine ⟨directories'.trans directories, by simp, by simp, by simp, fun other => ?_⟩
  rw [files', files]

/-- With room for its temporary file a file is written. -/
theorem replace_file {t : Tree} {path : Text} {target : Location} (text : Text)
    (hl : t.locate path = .ok target) (hf : (Path.fileName? path).isSome)
    (hd : t.directoryAt? target = none) (room : HasRoom t path) :
    ∃ t', t.replace path text = (.ok (), t') ∧ Wrote t target text t' := by
  obtain ⟨-, -, mode, -, -, hm, -, -⟩ := place_of_locate hl hf hd
  obtain ⟨source, found⟩ := exists_locateTemporary hl hf hd room
  have vacant := (locateTemporary_ok found).1
  obtain ⟨directories, files⟩ := vacant.add text
  have moved := move_file (locate_ok_of_within (.of_eq directories (here_add ..)) hl) hf
    (by rw [directories]; exact hd) (entryAt?_of_fileAt? ((files source).trans (if_pos rfl)))
  exact ⟨_, by simp only [replace, found, moved], vacant.wrote text hd hm⟩

/-- Without room for its temporary file a file is not written. -/
theorem replace_noRoom {t : Tree} {path : Text} {target : Location} (text : Text)
    (hl : t.locate path = .ok target) (hf : (Path.fileName? path).isSome)
    (hd : t.directoryAt? target = none) (room : ¬HasRoom t path) :
    t.replace path text = (.error .nameTooLong, t) := by
  obtain ⟨location, located⟩ := locate_temporaryPath hl hf hd
  rw [if_neg room] at located
  simp only [replace, locateTemporary, located]

/-- Two trees with the same directories and the same files. -/
structure Alike (t u : Tree) : Prop where
  directories : u.directoryAt? = t.directoryAt?
  files : u.fileAt? = t.fileAt?
  here : u.here = t.here

theorem Alike.refl (t : Tree) : Alike t t := ⟨rfl, rfl, rfl⟩

theorem locateDirectory_ok_iff {t : Tree} {path : Text} {directory : Location} :
    t.locateDirectory path = .ok directory ↔
      t.locate path = .ok directory ∧ ∃ mode, t.directoryAt? directory = some mode := by
  unfold locateDirectory
  cases t.locate path with
  | error fault => simp
  | ok location =>
    unfold directoryAt?
    cases he : t.entryAt? location with
    | none =>
      simp only [he, reduceCtorEq, Except.ok.injEq, false_iff, not_and, not_exists]
      rintro rfl
      simp [he]
    | some entry =>
      cases entry with
      | file content modified =>
        simp only [he, reduceCtorEq, Except.ok.injEq, false_iff, not_and, not_exists]
        rintro rfl
        simp [he]
      | directory mode modified =>
        simp only [he, Except.ok.injEq, iff_self_and]
        rintro rfl
        exact ⟨mode, by simp [he]⟩

/-- A file that can be moved onto a path has a place there. -/
theorem place_of_move {t u : Tree} {path : Text} {source : Location}
    (h : t.move source path = .ok u) :
    ∃ target entry, t.locate path = .ok target ∧ t.directoryAt? target = none ∧
      t.entryAt? source = some entry ∧ u = (t.remove source).add target entry := by
  unfold move at h
  split at h
  · simp at h
  · next target hl =>
    split at h
    · simp at h
    · next hslash =>
      split at h
      · simp at h
      · next hdot =>
        -- The path ends in a name, so there is no slash to drop.
        obtain ⟨front, last, hp⟩ : ∃ front last, Path.parts path = front ++ [last] :=
          ⟨_, _, (List.dropLast_append_getLast (Path.parts_ne_nil path)).symm⟩
        have hn : Path.isName last = true := by
          simp only [hp, List.getLast?_append, List.getLast?_singleton, Option.some_or,
            Option.some.injEq] at hslash hdot
          simp [Path.isName, hslash, hdot]
        rw [dropEndWhile_slash_of_parts hp hn] at hl
        have noDirectory : t.directoryAt? target = none := by
          unfold directoryAt?
          cases he : t.entryAt? target with
          | none => rfl
          | some entry =>
            cases entry with
            | file content modified => rfl
            | directory mode modified => simp [he] at h
        split at h
        · simp at h
        · next entry hs _ =>
          exact ⟨target, entry, hl, noDirectory, hs, (Except.ok.inj h).symm⟩
        · simp at h

/-- A file that is written is at the end of its path, and nothing else changes. -/
theorem replace_ok {t u : Tree} {path text : Text} (h : t.replace path text = (.ok (), u)) :
    ∃ location, t.locate path = .ok location ∧ Wrote t location text u := by
  unfold replace at h
  split at h
  · simp at h
  · next source found =>
    obtain ⟨vacant, named, -⟩ := locateTemporary_ok found
    obtain ⟨directories, files⟩ := vacant.add text
    simp only at h
    split at h
    · next moved hmove =>
      obtain rfl : moved = u := (Prod.mk.inj h).2
      obtain ⟨target, entry, hl, hnone, hs, rfl⟩ := place_of_move hmove
      have hl := locate_ok_of_within (.of_eq directories.symm (here_add ..).symm) hl
      rw [directories] at hnone
      obtain ⟨-, -, mode, -, -, hm, -, -⟩ := place_of_locate hl named hnone
      have written := entryAt?_of_fileAt? ((files source).trans (if_pos rfl))
      obtain rfl : .file (.text text) t.now = entry := Option.some.inj (written.symm.trans hs)
      exact ⟨target, hl, vacant.wrote text hnone hm⟩
    · simp at h

/-- A file that cannot be written leaves no trace. -/
theorem replace_error {t u : Tree} {path text : Text} {fault : Fault}
    (h : t.replace path text = (.error fault, u)) : Alike t u := by
  unfold replace at h
  split at h
  · obtain ⟨-, rfl⟩ := Prod.mk.inj h
    exact .refl t
  · next source found =>
    simp only at h
    split at h
    · simp at h
    · obtain ⟨-, rfl⟩ := Prod.mk.inj h
      obtain ⟨directories, files⟩ := (locateTemporary_ok found).1.remove text
      exact ⟨directories, files, by simp⟩

/-- Whether or not a file can be written, directories stay and so do all other files. -/
theorem replace_frame (t : Tree) (path text : Text) :
    (t.replace path text).2.directoryAt? = t.directoryAt? ∧ (t.replace path text).2.here = t.here ∧
      ∀ place, t.locate path ≠ .ok place →
        (t.replace path text).2.fileAt? place = t.fileAt? place := by
  cases hr : t.replace path text with
  | mk result u =>
    cases result with
    | error fault =>
      have alike := replace_error hr
      exact ⟨alike.directories, alike.here, fun place _ => by rw [alike.files]⟩
    | ok _ =>
      obtain ⟨location, hl, wrote⟩ := replace_ok hr
      refine ⟨wrote.directories, wrote.here, fun place hp => ?_⟩
      rw [wrote.files, if_neg]
      rintro rfl
      exact hp hl

/-- Writing a file does nothing, or adds a temporary file next to it and removes it again; when the file
can be moved, it is added at the end of the path then. -/
theorem replace_cases (t : Tree) (path text : Text) :
    (t.replace path text).2 = t ∨ ∃ source between, Vacant t source ∧
      t.locateDirectory (Path.directoryOf path) = .ok source.dropLast ∧
      between = (t.add source (.file (.text text) t.now)).remove source ∧
      ((t.replace path text).2 = between ∨ ∃ target, t.locate path = .ok target ∧
        (t.replace path text).2 = between.add target (.file (.text text) t.now)) := by
  unfold replace
  split
  · exact .inl rfl
  · next source found =>
    obtain ⟨vacant, -, hd⟩ := locateTemporary_ok found
    obtain ⟨directories, files⟩ := vacant.add text
    refine .inr ⟨source, _, vacant, hd, rfl, ?_⟩
    simp only
    split
    · next moved hmove =>
      have written := entryAt?_of_fileAt? ((files source).trans (if_pos rfl))
      obtain ⟨target, entry, hl, -, hs, rfl⟩ := place_of_move hmove
      obtain rfl : .file (.text text) t.now = entry := Option.some.inj (written.symm.trans hs)
      exact .inr ⟨target, locate_ok_of_within (.of_eq directories.symm (here_add ..).symm) hl, rfl⟩
    · exact .inl rfl

/-- Whether or not a file can be written, only its own entry and that of its directory change. -/
theorem entryAt?_replace {t : Tree} {path : Text} (text : Text) {other : Location}
    (directory : ∀ location, t.locateDirectory (Path.directoryOf path) = .ok location →
      location ≠ other)
    (target : ∀ location, t.locate path = .ok location →
      location ≠ other ∧ location.dropLast ≠ other) :
    (t.replace path text).2.entryAt? other = t.entryAt? other := by
  rcases t.replace_cases path text with
    same | ⟨source, between, vacant, hd, rfl, written⟩
  · rw [same]
  · have hparent := directory source.dropLast hd
    have kept : ((t.add source (.file (.text text) t.now)).remove source).entryAt? other =
        t.entryAt? other := by
      rw [entryAt?_remove _ hparent, entryAt?_add _ _ hparent]
      by_cases ho : source = other ∧ other ≠ []
      · rw [if_pos ho, ← ho.1, vacant.free]
      · rw [if_neg ho, if_neg ho]
    rcases written with failed | ⟨place, hl, moved⟩
    · rw [failed, kept]
    · obtain ⟨hp, hpp⟩ := target place hl
      rw [moved, entryAt?_add _ _ hpp, if_neg (by simp [hp]), kept]

/-! ## Growing trees -/

/-- Every directory of one tree is a directory of another and every file is a file there, whatever it
holds. -/
structure Grows (t u : Tree) : Prop where
  within : Within t u
  files : ∀ location, (t.fileAt? location).isSome → (u.fileAt? location).isSome

theorem Grows.of_alike {t u : Tree} (h : Alike t u) : Grows t u :=
  ⟨.of_eq h.directories h.here, fun location hf => by rwa [h.files]⟩

theorem Grows.refl (t : Tree) : Grows t t := .of_alike (.refl t)

theorem Grows.trans {t u v : Tree} (h : Grows t u) (h' : Grows u v) : Grows t v :=
  ⟨h.within.trans h'.within, fun location hf => h'.files location (h.files location hf)⟩

theorem Grows.of_wrote {t u : Tree} {location : Location} {text : Text}
    (h : Wrote t location text u) : Grows t u := by
  refine ⟨.of_eq h.directories h.here, fun other hf => ?_⟩
  rw [h.files]
  split
  · rfl
  · exact hf

/-- Writing a file takes no other away. -/
theorem replace_grows (t : Tree) (path text : Text) : Grows t (t.replace path text).2 := by
  cases hr : t.replace path text with
  | mk result u =>
    cases result with
    | error fault => exact .of_alike (replace_error hr)
    | ok _ =>
      obtain ⟨_, -, wrote⟩ := replace_ok hr
      exact .of_wrote wrote

/-! ## Making directories -/

theorem has_of_isDirectory {t : Tree} {path : Text} (h : t.isDirectory path = true) :
    t.has path = true := by
  unfold isDirectory at h
  unfold has
  split at h
  · next he => rw [he]; rfl
  · simp at h

theorem isDirectory_of_within {t u : Tree} {path : Text} (hw : Within t u)
    (h : t.isDirectory path = true) : u.isDirectory path = true := by
  obtain ⟨location, mode, hl, hd⟩ := isDirectory_iff.mp h
  exact isDirectory_iff.mpr
    ⟨location, mode, locate_ok_of_within hw hl, hw.directories location mode hd⟩

/-- What is there at the end of a path that ends in a slash is a directory. -/
theorem isDirectory_of_has {t : Tree} {path : Text} (hs : path.getLast? = some '/')
    (h : t.has path = true) : t.isDirectory path = true := by
  obtain ⟨front, rfl⟩ : ∃ front, path = front ++ ['/'] := by
    rcases List.getLast?_eq_some_iff.mp hs with ⟨front, hf⟩
    exact ⟨front, hf⟩
  unfold has stat at h
  cases hl : t.locate (front ++ ['/']) with
  | error fault => simp [hl, Except.isOk, Except.toBool] at h
  | ok location =>
    obtain ⟨-, hf⟩ := locate_ok_iff.mp hl
    rw [Path.parts_concat_slash] at hf
    obtain ⟨mode, hd⟩ := directoryAt?_of_follow_concat rfl hf
    exact isDirectory_iff.mpr ⟨location, mode, hl, hd⟩

/-- A new directory hides nothing. -/
theorem add_directory {t : Tree} {location : Location} (mode : Nat) (modified : Int)
    (h : t.entryAt? location = none) :
    Grows t (t.add location (.directory mode modified)) ∧
      (t.add location (.directory mode modified)).directoryAt? location = some mode := by
  have hn : location ≠ [] := by rintro rfl; simp [entryAt?_nil] at h
  refine ⟨⟨⟨fun other m hm => ?_, here_add ..⟩, fun other hf => ?_⟩, ?_⟩
  · rw [add, directoryAt?_stamp]
    unfold directoryAt? at hm ⊢
    rw [entryAt?_put]
    by_cases ho : location = other
    · subst ho; simp [h] at hm
    · simpa [ho] using hm
  · rw [add, isSome_fileAt?_stamp]
    unfold fileAt? at hf ⊢
    rw [entryAt?_put]
    by_cases ho : location = other
    · subst ho; simp [h] at hf
    · simpa [ho] using hf
  · rw [add, directoryAt?_stamp]
    simp [directoryAt?, entryAt?_put, hn]

/-- Slashes behind a directory lead nowhere else. -/
theorem follow_slashes {t : Tree} {location target : Location} {path : Text} {mode : Nat}
    (hf : t.follow location (Path.parts path) = .ok target) (hd : t.directoryAt? target = some mode)
    (count : Nat) :
    t.follow location (Path.parts (path ++ List.replicate count '/')) = .ok target := by
  induction count with
  | zero => simpa using hf
  | succ count ih =>
    rw [List.replicate_succ', ← List.append_assoc, Path.parts_concat_slash, follow_append, ih]
    simp only [follow_cons, hd, true_or, ↓reduceIte]
    rfl

theorem locate_of_dropEndWhile {t : Tree} {path : Text} {target : Location} {mode : Nat}
    (hp : pathFault? path = none)
    (hl : t.locate (Text.dropEndWhile (· == '/') path) = .ok target)
    (hd : t.directoryAt? target = some mode) : t.locate path = .ok target := by
  obtain ⟨count, hpath⟩ := Text.exists_append_replicate_of_dropEndWhile '/' path
  obtain ⟨hz, hf⟩ := locate_ok_iff.mp hl
  generalize Text.dropEndWhile (· == '/') path = stripped at hpath hz hf
  refine locate_ok_iff.mpr ⟨hp, ?_⟩
  have ho : t.origin path = t.origin stripped := by
    cases stripped with
    | nil => simp [pathFault?] at hz
    | cons c rest => simp [origin, Path.isAbsolute, hpath]
  rw [ho, hpath]
  exact follow_slashes hf hd count

/-- A directory that is made is added at the end of its path, slashes behind it aside. -/
theorem add_of_createDirectory {t u : Tree} {path : Text} (h : t.createDirectory path = .ok u) :
    ∃ location, pathFault? path = none ∧
      t.locate (if path = ['/'] then path else Text.dropEndWhile (· == '/') path) = .ok location ∧
      t.entryAt? location = none ∧ u = t.add location (.directory 0o755 t.now) := by
  unfold createDirectory at h
  split at h
  · simp at h
  · next sound =>
    split at h
    · simp at h
    · next location located =>
      split at h
      · simp at h
      · next absent =>
        exact ⟨location, sound, located, Option.not_isSome_iff_eq_none.mp absent,
          (Except.ok.inj h).symm⟩

/-- Slashes behind the path of a directory do not count. -/
theorem locate_of_stripped {t : Tree} {path : Text} {location : Location} {mode : Nat}
    (sound : pathFault? path = none)
    (located : t.locate (if path = ['/'] then path else Text.dropEndWhile (· == '/') path) =
      .ok location) (hd : t.directoryAt? location = some mode) : t.locate path = .ok location := by
  split at located
  · exact located
  · exact locate_of_dropEndWhile sound located hd

theorem createDirectory_ok {t u : Tree} {path : Text} (h : t.createDirectory path = .ok u) :
    Grows t u ∧ u.isDirectory path = true := by
  obtain ⟨location, sound, located, absent, rfl⟩ := add_of_createDirectory h
  obtain ⟨grows, here⟩ := add_directory 0o755 t.now absent
  have there := locate_of_stripped sound (locate_ok_of_within grows.within located) here
  exact ⟨grows, isDirectory_iff.mpr ⟨location, 0o755, there, here⟩⟩

/-- What the making of each directory preserves is preserved by making all that are missing, whether
this succeeds or not. -/
theorem createInnermost_preserves {motive : Tree → Prop} {paths : List Text}
    (step : ∀ u path v, path ∈ paths → motive u → u.createDirectory path = .ok v → motive v)
    {t : Tree} (h : motive t) : motive (t.createInnermost paths).2 := by
  induction paths with
  | nil => exact h
  | cons path parents ih =>
    have outer := ih fun u path v hm => step u path v (List.mem_cons_of_mem _ hm)
    have own (u v : Tree) := step u path v List.mem_cons_self
    unfold createInnermost
    split
    · exact h
    · split
      · next u hu => exact own t u h hu
      · split
        · next he => rwa [he] at outer
        · next u he =>
          rw [he] at outer
          split
          · next v hv => exact own u v outer hv
          · split <;> exact outer
      · split <;> exact h

theorem createInnermost_grows (t : Tree) (paths : List Text) :
    Grows t (t.createInnermost paths).2 :=
  createInnermost_preserves (fun _ _ _ _ grows hv => grows.trans (createDirectory_ok hv).1) (.refl t)

/-- A directory is there once it has been made, and none has gone. -/
theorem createInnermost_ok {t u : Tree} {path : Text} {parents : List Text} (hp : path ≠ [])
    (h : t.createInnermost (path :: parents) = (.ok (), u)) : u.isDirectory path = true := by
  unfold createInnermost at h
  have hempty : path.isEmpty = false := by simpa using hp
  simp only [hempty, Bool.false_eq_true, ↓reduceIte] at h
  split at h
  · next u' hu =>
    obtain rfl : u' = u := (Prod.mk.inj h).2
    exact (createDirectory_ok hu).2
  · split at h
    · simp at h
    · next u' hu =>
      split at h
      · next v hv =>
        obtain rfl : v = u := (Prod.mk.inj h).2
        exact (createDirectory_ok hv).2
      · split at h
        · next hd =>
          obtain rfl : u' = u := (Prod.mk.inj h).2
          exact hd
        · simp at h
  · split at h
    · next hd =>
      obtain rfl : t = u := (Prod.mk.inj h).2
      exact hd
    · simp at h

theorem createDirectories_grows {t u : Tree} {path : Text} (hp : path ≠ [])
    (h : t.createDirectories path = (.ok (), u)) : Grows t u ∧ u.isDirectory path = true := by
  have hg := createInnermost_grows t (path :: (Path.withParents path).tail)
  unfold createDirectories at h
  rw [h] at hg
  exact ⟨hg, createInnermost_ok hp h⟩

end Stencil.Files.Tree
