import Mathlib.Data.List.Nodup
import Stencil.Data.Toml

/-!
# The tables of a document

A table of a value is a list of entries, in which a key could stand twice. Proved here: what is read
from a document has no such table, at any depth.

* `keysOnce_array_iff`, `keysOnce_table_iff`: what this says of a value and its parts;
* `Once.append`, `Once.replaceItem`, `Once.updateAt`: a table that is being read keeps it, since a new
  key is added only where it is missing, and an item is changed in its place;
* `keysOnce_read`, `once_readDocument?`, `keysOnce_parse`: so every value and every document has it.
-/

namespace Stencil.Toml

/-! ## Inside a value -/

/-- A value is another one or stands somewhere in it. -/
inductive Inside (inner : Value) : Value → Prop
  | here : Inside inner inner
  | item {item : Value} {items : List Value} (hm : item ∈ items) (h : Inside inner item) :
      Inside inner (.array items)
  | entry {entry : Text × Value} {entries : List (Text × Value)} (hm : entry ∈ entries)
      (h : Inside inner entry.2) : Inside inner (.table entries)

/-- No table in a value has a key twice. -/
def Value.KeysOnce (value : Value) : Prop :=
  ∀ entries, Inside (.table entries) value → (entries.map Prod.fst).Nodup

def Value.isSingle : Value → Bool
  | .array _ | .table _ => false
  | _ => true

theorem Value.keysOnce_of_isSingle {value : Value} (h : value.isSingle = true) : value.KeysOnce := by
  intro entries inside
  cases inside with
  | here => cases h
  | item hm inside => cases h
  | entry hm inside => cases h

theorem keysOnce_array_iff {items : List Value} :
    (Value.array items).KeysOnce ↔ ∀ item ∈ items, item.KeysOnce := by
  constructor
  · intro h item hm entries inside
    exact h entries (.item hm inside)
  · intro h entries inside
    cases inside with
    | item hm inside => exact h _ hm entries inside

theorem keysOnce_table_iff {entries : List (Text × Value)} :
    (Value.table entries).KeysOnce ↔
      (entries.map Prod.fst).Nodup ∧ ∀ entry ∈ entries, entry.2.KeysOnce := by
  constructor
  · intro h
    exact ⟨h entries .here, fun entry hm inner inside => h inner (.entry hm inside)⟩
  · rintro ⟨once, h⟩ inner inside
    cases inside with
    | here => exact once
    | entry hm inside => exact h _ hm inner inside

/-! ## Answers -/

/-- What is answered, if anything, has a property. -/
def Gives {α : Type} (P : α → Prop) (answer : Option α) : Prop := ∀ a, answer = some a → P a

section Gives

variable {α β : Type} {P : α → Prop} {Q : β → Prop} {answer : Option α}

theorem gives_none : Gives P none := by
  intro a h
  cases h

theorem gives_some {a : α} (h : P a) : Gives P (some a) := by
  intro b hb
  exact Option.some.inj hb ▸ h

theorem Gives.bind {f : α → Option β} (h : Gives P answer) (hf : ∀ a, P a → Gives Q (f a)) :
    Gives Q (answer.bind f) := by
  intro b hb
  obtain ⟨a, ha, hb⟩ := Option.bind_eq_some_iff.mp hb
  exact hf a (h a ha) b hb

theorem gives_bind {f : α → Option β} (hf : ∀ a, Gives Q (f a)) : Gives Q (answer.bind f) := by
  intro b hb
  obtain ⟨a, -, hb⟩ := Option.bind_eq_some_iff.mp hb
  exact hf a b hb

theorem Gives.map {f : α → β} (h : Gives P answer) (hf : ∀ a, P a → Q (f a)) :
    Gives Q (answer.map f) := by
  intro b hb
  obtain ⟨a, ha, rfl⟩ := Option.map_eq_some_iff.mp hb
  exact hf a (h a ha)

theorem gives_map {f : α → β} (hf : ∀ a, Q (f a)) : Gives Q (answer.map f) := by
  intro b hb
  obtain ⟨a, -, rfl⟩ := Option.map_eq_some_iff.mp hb
  exact hf a

end Gives

/-! ## Tables that are being read -/

/-- No table has a key twice, in the values of its items neither. -/
structure Once (entries : List (Text × Item)) : Prop where
  keys : (entries.map Prod.fst).Nodup
  items : ∀ entry ∈ entries, entry.2.toValue.KeysOnce

theorem entriesToValues_eq (entries : List (Text × Item)) :
    entriesToValues entries = entries.map fun entry => (entry.1, entry.2.toValue) := by
  induction entries with
  | nil => rfl
  | cons entry entries ih =>
    rw [entriesToValues, ih]
    rfl

theorem tablesToValues_eq (tables : List (List (Text × Item))) :
    tablesToValues tables = tables.map fun entries => .table (entriesToValues entries) := by
  induction tables with
  | nil => rfl
  | cons entries tables ih =>
    rw [tablesToValues, ih]
    rfl

theorem keysOnce_entriesToValues {entries : List (Text × Item)} :
    (Value.table (entriesToValues entries)).KeysOnce ↔ Once entries := by
  have keys : (entriesToValues entries).map Prod.fst = entries.map Prod.fst := by
    rw [entriesToValues_eq, List.map_map]
    rfl
  rw [keysOnce_table_iff, keys, entriesToValues_eq]
  constructor
  · rintro ⟨once, h⟩
    exact ⟨once, fun entry hm => h _ (List.mem_map_of_mem hm)⟩
  · rintro ⟨once, h⟩
    refine ⟨once, fun entry hm => ?_⟩
    obtain ⟨read, hr, rfl⟩ := List.mem_map.mp hm
    exact h read hr

theorem keysOnce_tables {tables : List (List (Text × Item))} :
    (Item.tables tables).toValue.KeysOnce ↔ ∀ entries ∈ tables, Once entries := by
  rw [Item.toValue, keysOnce_array_iff, tablesToValues_eq]
  simp [keysOnce_entriesToValues]

section Operations

variable {entries : List (Text × Item)} {key : Text} {item : Item}

theorem once_nil : Once [] := ⟨.nil, by simp⟩

theorem Once.lookup (h : Once entries) (hl : entries.lookup key = some item) :
    item.toValue.KeysOnce := by
  obtain ⟨before, after, rfl, -⟩ := List.lookup_eq_some_iff.mp hl
  exact h.items (key, item) (by simp)

/-- A key that is missing can be added. -/
theorem Once.append (h : Once entries) (hl : entries.lookup key = none)
    (hi : item.toValue.KeysOnce) : Once (entries ++ [(key, item)]) := by
  have new : key ∉ entries.map Prod.fst := by
    intro hm
    obtain ⟨entry, he, rfl⟩ := List.mem_map.mp hm
    have := List.lookup_eq_none_iff.mp hl entry he
    simp at this
  constructor
  · have keys := (List.nodup_concat _ key).mpr ⟨new, h.keys⟩
    simpa using keys
  · intro entry hm
    rcases List.mem_append.mp hm with hm | hm
    · exact h.items entry hm
    · obtain rfl := List.mem_singleton.mp hm
      exact hi

theorem keys_replaceItem (key : Text) (item : Item) (entries : List (Text × Item)) :
    (replaceItem key item entries).map Prod.fst = entries.map Prod.fst := by
  induction entries with
  | nil => rfl
  | cons entry rest ih =>
    obtain ⟨other, old⟩ := entry
    rw [replaceItem]
    split
    · next same => simp [same]
    · simp [ih]

theorem mem_replaceItem {entry : Text × Item} (h : entry ∈ replaceItem key item entries) :
    entry = (key, item) ∨ entry ∈ entries := by
  induction entries with
  | nil => cases h
  | cons first rest ih =>
    obtain ⟨other, old⟩ := first
    rw [Toml.replaceItem] at h
    split at h
    · rcases List.mem_cons.mp h with rfl | h
      · exact Or.inl rfl
      · exact Or.inr (List.mem_cons_of_mem _ h)
    · rcases List.mem_cons.mp h with rfl | h
      · exact Or.inr List.mem_cons_self
      · exact (ih h).imp_right (List.mem_cons_of_mem _)

/-- An item can be changed in its place. -/
theorem Once.replaceItem (h : Once entries) (hi : item.toValue.KeysOnce) :
    Once (replaceItem key item entries) := by
  constructor
  · rw [keys_replaceItem]
    exact h.keys
  · intro entry hm
    rcases mem_replaceItem hm with rfl | hm
    · exact hi
    · exact h.items entry hm

theorem Once.updateAt {change : Bool → List (Text × Item) → Option (List (Text × Item))}
    (keeps : ∀ {dotted entries}, Once entries → Gives Once (change dotted entries))
    {dotted isDotted : Bool} {path : List Text} (h : Once entries) :
    Gives Once (updateAt dotted change path isDotted entries) := by
  induction path generalizing isDotted entries with
  | nil => exact keeps h
  | cons key path ih =>
    rw [Toml.updateAt]
    split
    · next missing =>
      exact (ih once_nil).map fun child hc => h.append missing (keysOnce_entriesToValues.mpr hc)
    · next implicit wasDotted child found =>
      have old := keysOnce_entriesToValues.mp (h.lookup found)
      split
      · exact gives_none
      · exact (ih old).map fun child hc => h.replaceItem (keysOnce_entriesToValues.mpr hc)
    · next last earlier found =>
      have old := List.forall_mem_cons.mp (keysOnce_tables.mp (h.lookup found))
      refine (ih old.1).map fun last hl => h.replaceItem (keysOnce_tables.mpr ?_)
      exact List.forall_mem_cons.mpr ⟨hl, old.2⟩
    · exact gives_none
    · exact gives_none

theorem Once.insertValue {path : List Text} {value : Value} {isDotted : Bool} (h : Once entries)
    (hv : value.KeysOnce) : Gives Once (insertValue path value isDotted entries) := by
  unfold Toml.insertValue
  split
  · exact gives_none
  · next key _ =>
    refine h.updateAt fun {dotted entries} h => ?_
    split
    · exact gives_none
    · next absent =>
      have missing : entries.lookup key = none := by
        simp only [Bool.or_eq_true, not_or, Bool.not_eq_true, Option.isSome_eq_false_iff,
          Option.isNone_iff_eq_none] at absent
        exact absent.2
      exact gives_some (h.append missing hv)

theorem Once.openTable (h : Once entries) : Gives Once (openTable key entries) := by
  unfold Toml.openTable
  split
  · next missing => exact gives_some (h.append missing (keysOnce_entriesToValues.mpr once_nil))
  · next child found =>
    have old := keysOnce_entriesToValues.mp (h.lookup found)
    exact gives_some (h.replaceItem (keysOnce_entriesToValues.mpr old))
  · exact gives_none

theorem Once.openArrayTable (h : Once entries) : Gives Once (openArrayTable key entries) := by
  unfold Toml.openArrayTable
  split
  · next missing =>
    have first := keysOnce_tables.mpr (List.forall_mem_singleton.mpr once_nil)
    exact gives_some (h.append missing first)
  · next tables found =>
    have old := keysOnce_tables.mp (h.lookup found)
    exact gives_some (h.replaceItem (keysOnce_tables.mpr (List.forall_mem_cons.mpr ⟨once_nil, old⟩)))
  · exact gives_none

end Operations

/-! ## Words -/

/-- The answer is a value that holds no others. -/
abbrev GivesSingle (answer : Option Value) : Prop := Gives (fun value => value.isSingle = true) answer

theorem single_bounded? (n : Int) : GivesSingle (bounded? n) := by
  unfold bounded?
  split
  · exact gives_some rfl
  · exact gives_none

theorem single_based? (base : Nat) (text : Text) : GivesSingle (based? base text) :=
  gives_bind fun _ => single_bounded? _

theorem single_float? (negative : Bool) (text : Text) : GivesSingle (float? negative text) := by
  have last (x : Float) : GivesSingle (if x.isInf then none else some (.float x)) := by
    split
    · exact gives_none
    · exact gives_some rfl
  unfold float?
  simp only [Option.bind_eq_bind]
  split <;> refine gives_bind fun exponent => ?_ <;> split
  · exact gives_bind fun whole => gives_bind fun fraction => gives_bind fun _ => last _
  · exact gives_bind fun whole => gives_bind fun _ => last _
  · exact gives_bind fun whole => gives_bind fun fraction => gives_bind fun _ => last _
  · exact gives_bind fun whole => gives_bind fun _ => last _

theorem single_number? (text : Text) : GivesSingle (number? text) := by
  have signed (c : Prop) [Decidable c] (base : Nat) (digits : Text) :
      GivesSingle (if c then none else based? base digits) := by
    split
    · exact gives_none
    · exact single_based? base digits
  unfold number?
  simp only
  split
  · exact signed _ _ _
  · exact signed _ _ _
  · exact signed _ _ _
  · exact gives_some rfl
  · exact gives_some rfl
  · split
    · exact single_bounded? _
    · split
      · exact single_float? _ _
      · exact gives_none

theorem single_dateTime? (text : Text) : GivesSingle (dateTime? text) := by
  unfold dateTime?
  split
  · exact gives_some rfl
  · simp only [Option.bind_eq_bind]
    split
    · exact gives_none
    · exact gives_bind fun time => gives_bind fun offset => gives_some rfl
  · split
    · exact gives_some rfl
    · exact gives_none

theorem single_wordValue? (word : Text) : GivesSingle (wordValue? word) := by
  unfold wordValue?
  split
  · exact gives_some rfl
  · split
    · exact gives_some rfl
    · intro value h
      rcases Option.or_eq_some_iff.mp h with h | ⟨-, h⟩
      · exact single_dateTime? word value h
      · exact single_number? word value h

/-! ## Values -/

/-- What the readers of values answer has no key twice, with any fuel. -/
theorem keysOnce_read (fuel : Nat) :
    (∀ text, Gives (fun answer => answer.1.KeysOnce) (readValue? fuel text)) ∧
      (∀ text, Gives (fun answer => ∀ item ∈ answer.1, item.KeysOnce) (readItems? fuel text)) ∧
      ∀ entries text, Once entries →
        Gives (fun answer => Once answer.1) (readEntries? fuel entries text) := by
  -- The three readers call one another with less fuel.
  induction fuel with
  | zero =>
    refine ⟨fun text => ?_, fun text => ?_, fun entries text _ => ?_⟩
    · rw [readValue?]
      exact gives_none
    · rw [readItems?]
      exact gives_none
    · rw [readEntries?]
      exact gives_none
  | succ fuel ih =>
    obtain ⟨values, items, tables⟩ := ih
    refine ⟨fun text => ?_, fun text => ?_, fun entries text once => ?_⟩
    · unfold readValue?
      simp only [Option.bind_eq_bind]
      have single {value : Value} (h : value.isSingle = true) := Value.keysOnce_of_isSingle h
      split
      · exact gives_map fun _ => single rfl
      · exact gives_map fun _ => single rfl
      · exact gives_bind fun rest => (items rest).bind fun answer h =>
          gives_some (keysOnce_array_iff.mpr h)
      · exact gives_bind fun rest => (tables [] rest once_nil).bind fun answer h =>
          gives_some (keysOnce_entriesToValues.mpr h)
      · exact (single_wordValue? _).bind fun value h => gives_some (single h)
    · unfold readItems?
      simp only [Option.bind_eq_bind]
      split
      · exact gives_some (by simp)
      · refine (values text).bind fun item hi => gives_bind fun rest => ?_
        split
        · exact gives_bind fun rest => (items rest).bind fun answer h =>
            gives_some (List.forall_mem_cons.mpr ⟨hi, h⟩)
        · exact gives_some (List.forall_mem_singleton.mpr hi)
        · exact gives_none
    · unfold readEntries?
      simp only [Option.bind_eq_bind]
      split
      · exact gives_some once
      · refine gives_bind fun path => ?_
        split
        · refine (values _).bind fun value hv => ?_
          refine (once.insertValue hv).bind fun entries once => gives_bind fun rest => ?_
          split
          · exact gives_bind fun rest => tables entries rest once
          · exact gives_some once
          · exact gives_none
        · exact gives_none

/-! ## Documents -/

theorem once_readDocument? (fuel : Nat) (header : List Text) {entries : List (Text × Item)}
    (once : Once entries) (text : Text) : Gives Once (readDocument? fuel header entries text) := by
  induction fuel generalizing header entries text with
  | zero => exact gives_none
  | succ fuel ih =>
    have updateLast {change : Text → List (Text × Item) → Option (List (Text × Item))}
        (keeps : ∀ {key entries}, Once entries → Gives Once (change key entries)) (path : List Text) :
        Gives Once (updateLast change path entries) :=
      gives_bind fun key => once.updateAt keeps
    unfold readDocument?
    simp only [Option.bind_eq_bind]
    refine gives_bind fun rest => ?_
    split
    · exact gives_some once
    · refine gives_bind fun path => ?_
      split
      · exact (updateLast Once.openArrayTable _).bind fun entries once => gives_bind fun rest =>
          ih _ once rest
      · exact gives_none
    · refine gives_bind fun path => ?_
      split
      · exact (updateLast Once.openTable _).bind fun entries once => gives_bind fun rest =>
          ih _ once rest
      · exact gives_none
    · refine gives_bind fun path => ?_
      split
      · refine ((keysOnce_read _).1 _).bind fun value hv => ?_
        refine (once.updateAt fun h => h.insertValue hv).bind fun entries once => ?_
        exact gives_bind fun rest => ih _ once rest
      · exact gives_none

/-- A document is a value without a key twice. -/
theorem keysOnce_parse {text : Text} {value : Value} (h : parse text = some value) :
    value.KeysOnce := by
  obtain ⟨entries, hr, rfl⟩ := Option.map_eq_some_iff.mp h
  exact keysOnce_entriesToValues.mpr (once_readDocument? _ _ once_nil _ entries hr)

end Stencil.Toml
