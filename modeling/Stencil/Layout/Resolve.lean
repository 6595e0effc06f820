import Stencil.Layout.Basic

/-!
# Placeholders

`resolve` replaces every placeholder by the content of its region, and the placeholders in that
content likewise. A region without content gives nothing, and neither does a region inside itself.
-/

namespace Stencil

/-- The number of entries for regions that are not being resolved. -/
def unresolvedCount (regions : NameMap Region) (active : List Text) : Nat :=
  (regions.entries.filter fun entry => entry.1 ∉ active).length

/-- Resolving one more region leaves no more entries to resolve. -/
theorem filter_cons_length_le (active : List Text) (name : Text) (entries : List (Text × Region)) :
    (entries.filter fun entry => entry.1 ∉ name :: active).length ≤
      (entries.filter fun entry => entry.1 ∉ active).length := by
  induction entries with
  | nil => simp
  | cons entry rest ih =>
    by_cases ha : entry.1 ∈ active
    · simpa [List.filter_cons, ha] using ih
    · by_cases he : entry.1 = name
      · simp only [List.mem_cons, not_or, List.filter_cons, he] at ih ha ⊢
        simp only [not_true_eq_false, false_and, decide_false, ha, not_false_eq_true, decide_true]
        simpa using Nat.le_succ_of_le ih
      · simpa [List.filter_cons, ha, he] using ih

theorem unresolvedCount_cons_lt {regions : NameMap Region} {active : List Text} {name : Text}
    {region : Region} (hn : name ∉ active) (hf : regions.find? name = some region) :
    unresolvedCount regions (name :: active) < unresolvedCount regions active := by
  have hmem := NameMap.mem_of_lookup hf
  unfold unresolvedCount
  generalize regions.entries = entries at hmem
  induction entries with
  | nil => simp at hmem
  | cons entry rest ih =>
    have hle := filter_cons_length_le active name rest
    by_cases he : entry.1 = name
    · subst he
      simp only [List.mem_cons, not_or, List.filter_cons] at hle ⊢
      simp only [not_true_eq_false, false_and, decide_false, hn, not_false_eq_true,
        decide_true]
      simpa using Nat.lt_succ_of_le hle
    · have hrest : (name, region) ∈ rest := by
        rcases List.mem_cons.1 hmem with h | h
        · exact absurd (congrArg Prod.fst h).symm he
        · exact h
      have := ih hrest
      by_cases ha : entry.1 ∈ active <;>
        simpa [List.filter_cons, ha, he] using this

/-- Replaces placeholders; the regions of `active` are being resolved. -/
def resolveIn (regions : NameMap Region) (active : List Text) : List Fragment → Text
  | [] => []
  | .text text :: rest => text ++ resolveIn regions active rest
  | .placeholder name :: rest =>
    (if hn : name ∈ active then []
    else
      match hf : regions.find? name with
      | some region =>
        have := unresolvedCount_cons_lt hn hf
        resolveIn regions (name :: active) region.body
      | none => []) ++ resolveIn regions active rest
termination_by fragments => (unresolvedCount regions active, fragments.length)

namespace Layout

def resolve (l : Layout) (fragments : List Fragment) : Text := resolveIn l.regions [] fragments

/-- The text of a region, when it has been filled. -/
def region? (l : Layout) (name : Text) : Option Text :=
  (l.regions.find? name).map fun region => l.resolve region.body

def finish (l : Layout) (fragments : List Fragment) : Text × Layout :=
  (l.resolve fragments, { l with phase := .done })

end Layout

end Stencil
