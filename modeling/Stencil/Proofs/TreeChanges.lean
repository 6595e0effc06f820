import Stencil.Proofs.FileTree

/-!
# Entries of a changing tree

What becomes of the single entries when a tree changes, where the views of directories and files do
not say enough. Proved here:

* `agedAt_replace`: whatever was there before a file is written is there afterwards, with its old
  time or the present one;
* `collect_replace`: what is read off the entries of a tree stays the same when it does not tell their
  times, and depends not on the file that is written.
-/

namespace Stencil.Files.Tree

variable {t u v : Tree} {location : Location} {path : Text}

/-! ## Times -/

/-- An entry is there and is as old as before or made now. -/
def AgedAt (t u : Tree) (location : Location) : Prop :=
  ∀ entry, t.entryAt? location = some entry → ∃ later, u.entryAt? location = some later ∧
    (later.modified = entry.modified ∨ later.modified = t.now)

theorem AgedAt.of_eq (h : u.entryAt? location = t.entryAt? location) : AgedAt t u location :=
  fun entry there => ⟨entry, h.trans there, .inl rfl⟩

theorem AgedAt.trans (h : AgedAt t u location) (h' : AgedAt u v location) (now : u.now = t.now) :
    AgedAt t v location := by
  intro entry there
  obtain ⟨later, hl, time⟩ := h entry there
  obtain ⟨last, hv, time'⟩ := h' later hl
  refine ⟨last, hv, ?_⟩
  rcases time' with same | new
  · rwa [same]
  · exact .inr (new.trans now)

theorem agedAt_stamp (t : Tree) (location other : Location) :
    AgedAt t (t.stamp location) other := by
  intro entry there
  rw [entryAt?_stamp]
  by_cases ho : location = other ∧ other ≠ []
  · refine ⟨entry.withModified t.now, by rw [if_pos ho, there]; rfl, .inr ?_⟩
    cases entry <;> rfl
  · exact ⟨entry, by rw [if_neg ho, there], .inl rfl⟩

theorem agedAt_add {entry : Entry} (h : entry.modified = t.now) (location other : Location) :
    AgedAt t (t.add location entry) other := by
  refine AgedAt.trans (u := t.put location entry) ?_ (agedAt_stamp _ _ other) rfl
  intro old there
  rw [entryAt?_put]
  by_cases ho : location = other ∧ other ≠ []
  · exact ⟨entry, by rw [if_pos ho], .inr h⟩
  · exact ⟨old, by rw [if_neg ho, there], .inl rfl⟩

theorem agedAt_remove {other : Location} (h : location ≠ other) :
    AgedAt t (t.remove location) other := by
  refine AgedAt.trans (u := t.erase location) (.of_eq ?_) (agedAt_stamp _ _ other) rfl
  rw [entryAt?_erase, if_neg (by simp [h])]

theorem now_replace (t : Tree) (path text : Text) : (t.replace path text).2.now = t.now := by
  rcases t.replace_cases path text with same | ⟨_, _, -, -, rfl, failed | ⟨_, -, moved⟩⟩
  · rw [same]
  · rw [failed, now_remove, now_add]
  · rw [moved, now_add, now_remove, now_add]

/-- Writing a file takes nothing away, and makes nothing younger than it is now. -/
theorem agedAt_replace (t : Tree) (path text : Text) (other : Location) :
    AgedAt t (t.replace path text).2 other := by
  rcases t.replace_cases path text with same | ⟨source, between, vacant, -, rfl, written⟩
  · exact .of_eq (by rw [same])
  · have kept :
        AgedAt t ((t.add source (.file (.text text) t.now)).remove source) other := by
      by_cases ho : source = other
      · intro entry there
        simp [← ho, vacant.free] at there
      · exact (agedAt_add rfl source other).trans (agedAt_remove ho) (now_add ..)
    rcases written with failed | ⟨target, -, moved⟩
    · rwa [failed]
    · rw [moved]
      refine kept.trans (agedAt_add ?_ target other) (by simp)
      simp [Entry.modified]

/-! ## What is read off the entries -/

section Collect

variable {α : Type}

def collect (read? : Location × Entry → Option α) (t : Tree) : List α := t.entries.filterMap read?

/-- Nothing is read off the root, and what is read off other entries does not tell their times. -/
structure IgnoresTimes (read? : Location × Entry → Option α) : Prop where
  root : ∀ entry, read? ([], entry) = none
  withModified : ∀ location (entry : Entry) modified,
    read? (location, entry.withModified modified) = read? (location, entry)

/-- An entry that is set has no effect when as much is read off it as off the old one. -/
theorem filterMap_setEntry {read? : Location × Entry → Option α} {entry : Entry}
    {entries : List (Location × Entry)}
    (h : read? (location, entry) =
      (entries.find? fun (other, _) => other = location).bind read?) :
    (setEntry location entry entries).filterMap read? = entries.filterMap read? := by
  induction entries with
  | nil =>
    have none : read? (location, entry) = none := h
    simp [setEntry, none]
  | cons first rest ih =>
    obtain ⟨other, old⟩ := first
    by_cases ho : other = location
    · subst ho
      have same : read? (other, entry) = read? (other, old) := by simpa using h
      simp [setEntry, List.filterMap_cons, same]
    · have later := ih (by simpa [ho] using h)
      simp only [setEntry, ho, ↓reduceIte, List.filterMap_cons, later]

variable {read? : Location × Entry → Option α} (ignores : IgnoresTimes read?)

include ignores

theorem collect_stamp (t : Tree) (location : Location) :
    (t.stamp location).collect read? = t.collect read? := by
  unfold stamp
  cases he : t.entryAt? location with
  | none => rfl
  | some entry =>
    refine filterMap_setEntry ?_
    by_cases hn : location = []
    · subst hn
      rw [ignores.root]
      cases hf : t.entries.find? fun (other, _) => other = [] with
      | none => rfl
      | some found =>
        obtain ⟨other, old⟩ := found
        obtain rfl : other = [] := by simpa using List.find?_some hf
        exact (ignores.root old).symm
    · simp only [entryAt?, hn, ↓reduceIte, Option.map_eq_some_iff] at he
      obtain ⟨⟨other, old⟩, hf, rfl⟩ := he
      obtain rfl : other = location := by simpa using List.find?_some hf
      rw [ignores.withModified, hf]
      rfl

theorem collect_add_file (t : Tree) {location : Location} {entry : Entry}
    (unread : ∀ entry, read? (location, entry) = none) :
    (t.add location entry).collect read? = t.collect read? := by
  rw [add, collect_stamp ignores]
  refine filterMap_setEntry ?_
  rw [unread]
  cases hf : t.entries.find? fun (other, _) => other = location with
  | none => rfl
  | some found =>
    obtain ⟨other, old⟩ := found
    obtain rfl : other = location := by simpa using List.find?_some hf
    exact (unread old).symm

def readExcept (read? : Location × Entry → Option α) (location : Location) :
    Location × Entry → Option α :=
  fun (other, entry) => if other = location then none else read? (other, entry)

theorem IgnoresTimes.readExcept (location : Location) :
    IgnoresTimes (readExcept read? location) := by
  constructor
  · intro entry
    simp only [Tree.readExcept, ignores.root, ite_self]
  · intro other entry modified
    simp only [Tree.readExcept, ignores.withModified]

theorem collect_remove (t : Tree) (location : Location) :
    (t.remove location).collect read? = t.collect (readExcept read? location) := by
  rw [remove, collect_stamp ignores]
  unfold collect erase
  rw [List.filterMap_filter]
  refine List.filterMap_congr fun entry _ => ?_
  obtain ⟨other, entry⟩ := entry
  by_cases ho : other = location <;> simp [readExcept, ho]

/-- A file that is added where nothing is and removed again leaves what is read as it is. -/
theorem collect_add_remove {source : Location} {entry : Entry} (vacant : Vacant t source) :
    ((t.add source entry).remove source).collect read? = t.collect read? := by
  have unread (entry : Entry) : readExcept read? source (source, entry) = none := if_pos rfl
  rw [collect_remove ignores, collect_add_file (ignores.readExcept source) t unread]
  refine List.filterMap_congr fun (other, old) hm => if_neg ?_
  rintro rfl
  have absent := vacant.free
  unfold entryAt? at absent
  rw [if_neg (ne_nil_of_noDirectory vacant.noDirectory), Option.map_eq_none_iff,
    List.find?_eq_none] at absent
  simpa using absent _ hm

/-- A file that is written is read as nothing when nothing at its place is read. -/
theorem collect_replace (t : Tree) (path text : Text)
    (unread : ∀ target, t.locate path = .ok target → ∀ entry, read? (target, entry) = none) :
    (t.replace path text).2.collect read? = t.collect read? := by
  rcases t.replace_cases path text with same | ⟨source, between, vacant, -, rfl, written⟩
  · rw [same]
  · have kept : ((t.add source (.file (.text text) t.now)).remove source).collect read? =
        t.collect read? := collect_add_remove ignores vacant
    rcases written with failed | ⟨target, located, moved⟩
    · rw [failed, kept]
    · rw [moved, collect_add_file ignores _ (unread target located), kept]

end Collect

end Stencil.Files.Tree
