import Mathlib.Data.List.Nodup
import Mathlib.Data.List.Perm.Basic
import Stencil.NameMap

/-!
# The order of names

Names are ordered by the numbers of their characters, the first difference deciding, and the entries of
a map stand in this order. Proved here:

* `order_eq_compareLex`, `eq_of_order`: the order is total, and only equal names are neither before
  nor behind one another;
* `pairwise_before_mergeSort`: names that are sorted by it increase strictly;
* `perm_ofList` and `increasing_ofList`: the map of a list without a name twice has the entries of the
  list and no other, in increasing order; there is only one such list (`Increasing.eq_of_perm`).
-/

namespace Stencil

namespace Text

theorem order_eq_compareLex (a b : Text) :
    order a b = List.compareLex (compareOn Char.toNat) a b := by
  induction a generalizing b with
  | nil => cases b <;> rfl
  | cons c a ih =>
    cases b with
    | nil => rfl
    | cons d b =>
      rw [order, ih, List.compareLex_cons_cons]
      rfl

instance : Std.TransCmp order := by
  have same : order = List.compareLex (compareOn Char.toNat) :=
    funext fun a => funext (order_eq_compareLex a)
  rw [same]
  infer_instance

theorem eq_of_order {a b : Text} (h : order a b = .eq) : a = b := by
  induction a generalizing b with
  | nil => cases b <;> simp [order] at h ⊢
  | cons c a ih =>
    cases b with
    | nil => simp [order] at h
    | cons d b =>
      rw [order, Ordering.then_eq_eq, Nat.compare_eq_eq] at h
      rw [Char.toNat_inj.mp h.1, ih h.2]

/-- Sorted texts stand in increasing order when no two are the same. -/
theorem pairwise_before_mergeSort {texts : List Text} (once : texts.Nodup) :
    (texts.mergeSort fun a b => order a b != .gt).Pairwise fun a b => before a b = true := by
  have trans (a b c : Text) (hab : (order a b != .gt) = true) (hbc : (order b c != .gt) = true) :
      (order a c != .gt) = true := by
    simp only [bne_iff_ne, ne_eq, ← Ordering.isLE_iff_ne_gt] at hab hbc ⊢
    exact Std.TransCmp.isLE_trans hab hbc
  have total (a b : Text) : (order a b != .gt || order b a != .gt) = true := by
    have swap : order b a = (order a b).swap := Std.OrientedCmp.eq_swap
    rw [swap]
    cases order a b <;> decide
  have sorted := List.pairwise_mergeSort trans total texts
  have distinct := (List.mergeSort_perm texts fun a b => order a b != .gt).nodup_iff.mpr once
  refine (sorted.and distinct).imp fun {a b} h => ?_
  obtain ⟨le, ne⟩ := h
  unfold before
  cases ho : order a b with
  | lt => rfl
  | eq => exact absurd (eq_of_order ho) ne
  | gt => simp [ho] at le

theorem before_iff {a b : Text} : before a b = true ↔ order a b = .lt := by
  simp [before]

theorem before_trans {a b c : Text} (hab : before a b = true) (hbc : before b c = true) :
    before a c = true := by
  rw [before_iff] at hab hbc ⊢
  exact Std.TransCmp.lt_trans hab hbc

theorem before_asymm {a b : Text} (h : before a b = true) : before b a = false := by
  have swap : order b a = (order a b).swap := Std.OrientedCmp.eq_swap
  rw [before, swap, before_iff.mp h]
  rfl

/-- Of two names one is before the other. -/
theorem before_of_not {a b : Text} (ne : a ≠ b) (h : ¬ before a b = true) : before b a = true := by
  have swap : order b a = (order a b).swap := Std.OrientedCmp.eq_swap
  rw [before_iff, swap]
  cases ho : order a b with
  | lt => exact absurd (before_iff.mpr ho) h
  | eq => exact absurd (eq_of_order ho) ne
  | gt => rfl

end Text

namespace NameMap

variable {α : Type} {name : Text} {value : α} {entries others : List (Text × α)}

/-- Entries in the order of their names, no name twice. -/
def Increasing (entries : List (Text × α)) : Prop :=
  entries.Pairwise fun entry later => entry.1.before later.1 = true

theorem mem_insertEntry {entry : Text × α} (h : entry ∈ insertEntry name value entries) :
    entry = (name, value) ∨ entry ∈ entries := by
  induction entries with
  | nil => exact Or.inl (List.mem_singleton.mp h)
  | cons first rest ih =>
    obtain ⟨key, other⟩ := first
    rw [insertEntry] at h
    split at h
    · rcases List.mem_cons.mp h with rfl | h
      · exact Or.inl rfl
      · exact Or.inr (List.mem_cons_of_mem _ h)
    · split at h
      · exact List.mem_cons.mp h
      · rcases List.mem_cons.mp h with rfl | h
        · exact Or.inr List.mem_cons_self
        · exact (ih h).imp_right (List.mem_cons_of_mem _)

/-- A new name is put where it belongs. -/
theorem perm_insertEntry (h : name ∉ entries.map Prod.fst) :
    (insertEntry name value entries).Perm ((name, value) :: entries) := by
  induction entries with
  | nil => exact .refl _
  | cons first rest ih =>
    obtain ⟨key, other⟩ := first
    rw [List.map_cons, List.mem_cons, not_or] at h
    obtain ⟨ne, later⟩ := h
    rw [insertEntry, if_neg (Ne.symm ne)]
    split
    · exact .refl _
    · exact ((ih later).cons _).trans (.swap _ _ _)

theorem Increasing.insertEntry (h : Increasing entries) :
    Increasing (insertEntry name value entries) := by
  induction entries with
  | nil => exact List.pairwise_singleton _ _
  | cons first rest ih =>
    obtain ⟨key, other⟩ := first
    obtain ⟨behind, rest⟩ := List.pairwise_cons.mp h
    rw [NameMap.insertEntry]
    split
    · next same =>
      subst same
      exact List.pairwise_cons.mpr ⟨behind, rest⟩
    · next ne =>
      split
      · next hb =>
        refine List.pairwise_cons.mpr ⟨fun entry he => ?_, h⟩
        rcases List.mem_cons.mp he with rfl | he
        · exact hb
        · exact Text.before_trans hb (behind entry he)
      · next hb =>
        refine List.pairwise_cons.mpr ⟨fun entry he => ?_, ih rest⟩
        rcases mem_insertEntry he with rfl | he
        · exact Text.before_of_not (Ne.symm ne) hb
        · exact behind entry he

/-- Entries with new names are all put where they belong. -/
theorem perm_insertAll (m : NameMap α) (once : ((m.entries ++ entries).map Prod.fst).Nodup) :
    (m.insertAll entries).entries.Perm (m.entries ++ entries) := by
  induction entries generalizing m with
  | nil =>
    rw [List.append_nil]
    exact .refl _
  | cons entry rest ih =>
    obtain ⟨name, value⟩ := entry
    have moved : (m.entries ++ (name, value) :: rest).Perm ((name, value) :: (m.entries ++ rest)) :=
      List.perm_middle
    have distinct := (moved.map Prod.fst).nodup_iff.mp once
    have new : name ∉ m.entries.map Prod.fst := by
      intro hm
      apply (List.nodup_cons.mp distinct).1
      rw [List.map_append]
      exact List.mem_append_left _ hm
    have one : (m.insert name value).entries.Perm ((name, value) :: m.entries) :=
      perm_insertEntry new
    have both := one.append_right rest
    have rest := ih (m.insert name value) ((both.map Prod.fst).nodup_iff.mpr distinct)
    exact rest.trans (both.trans moved.symm)

theorem increasing_insertAll (m : NameMap α) (h : Increasing m.entries) :
    Increasing (m.insertAll entries).entries := by
  induction entries generalizing m with
  | nil => exact h
  | cons entry rest ih => exact ih (m.insert entry.1 entry.2) h.insertEntry

theorem perm_ofList (once : (entries.map Prod.fst).Nodup) :
    (ofList entries).entries.Perm entries :=
  perm_insertAll empty once

theorem increasing_ofList (entries : List (Text × α)) : Increasing (ofList entries).entries :=
  increasing_insertAll empty .nil

/-- The same entries stand in the same order. -/
theorem Increasing.eq_of_perm (h : Increasing entries) (ho : Increasing others)
    (same : entries.Perm others) : entries = others := by
  refine List.Perm.eq_of_pairwise (fun a b _ _ hab hba => ?_) h ho same
  rw [Text.before_asymm hab] at hba
  cases hba

end NameMap

end Stencil
