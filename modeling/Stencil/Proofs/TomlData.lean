import Stencil.Project.Config
import Stencil.Proofs.NameOrder
import Stencil.Proofs.TomlTables

/-!
# Data from TOML

Proved here, for values of any depth:

* `toDatum?_eq_none_iff`: a value has no data exactly when some float in it is infinite or no number;
* `represents_of_toDatum?`: else its data has the same shape (`Represents`), which determines the data
  (`Represents.unique`);
* `toml_data`: so a data file is refused for such a float and for nothing else that it holds, and no
  entry of it is lost, doubled or changed.
-/

namespace Stencil.Toml

/-! ## Values without data -/

/-- Some float in a value is infinite or no number. -/
def Value.NotFinite (value : Value) : Prop :=
  ∃ x, Inside (.float x) value ∧ (x.isNaN = true ∨ x.isInf = true)

theorem isFinite_eq_false_iff (x : Float) :
    isFinite x = false ↔ x.isNaN = true ∨ x.isInf = true := by
  unfold isFinite
  cases x.isNaN <;> cases x.isInf <;> decide

theorem notFinite_float_iff (x : Float) :
    (Value.float x).NotFinite ↔ x.isNaN = true ∨ x.isInf = true := by
  constructor
  · rintro ⟨y, inside, h⟩
    cases inside
    exact h
  · intro h
    exact ⟨x, .here, h⟩

theorem not_notFinite {value : Value} (single : value.isSingle = true)
    (noFloat : ∀ x, value ≠ .float x) : ¬ value.NotFinite := by
  rintro ⟨x, inside, -⟩
  cases inside with
  | here => exact noFloat x rfl
  | item => cases single
  | entry => cases single

theorem notFinite_array_iff (items : List Value) :
    (Value.array items).NotFinite ↔ ∃ item ∈ items, item.NotFinite := by
  constructor
  · rintro ⟨x, inside, h⟩
    cases inside with
    | item hm inside => exact ⟨_, hm, x, inside, h⟩
  · rintro ⟨item, hm, x, inside, h⟩
    exact ⟨x, .item hm inside, h⟩

theorem notFinite_table_iff (entries : List (Text × Value)) :
    (Value.table entries).NotFinite ↔ ∃ entry ∈ entries, entry.2.NotFinite := by
  constructor
  · rintro ⟨x, inside, h⟩
    cases inside with
    | entry hm inside => exact ⟨_, hm, x, inside, h⟩
  · rintro ⟨entry, hm, x, inside, h⟩
    exact ⟨x, .entry hm inside, h⟩

mutual

theorem toDatum?_eq_none_iff : ∀ value : Value, value.toDatum? = none ↔ value.NotFinite
  | .text value => iff_of_false (by simp [Value.toDatum?]) (not_notFinite rfl (by simp))
  | .int value => iff_of_false (by simp [Value.toDatum?]) (not_notFinite rfl (by simp))
  | .bool value => iff_of_false (by simp [Value.toDatum?]) (not_notFinite rfl (by simp))
  | .dateTime value => iff_of_false (by simp [Value.toDatum?]) (not_notFinite rfl (by simp))
  | .float x => by
    rw [notFinite_float_iff, ← isFinite_eq_false_iff, Value.toDatum?]
    cases isFinite x <;> simp
  | .array items => by
    rw [notFinite_array_iff, ← itemsToData?_eq_none_iff items, Value.toDatum?, Option.map_eq_none_iff]
  | .table entries => by
    rw [notFinite_table_iff, ← entriesToData?_eq_none_iff entries, Value.toDatum?,
      Option.map_eq_none_iff]

theorem itemsToData?_eq_none_iff : ∀ items : List Value,
    itemsToData? items = none ↔ ∃ item ∈ items, item.NotFinite
  | [] => by simp [itemsToData?]
  | item :: items => by
    rw [List.exists_mem_cons_iff, ← toDatum?_eq_none_iff item, ← itemsToData?_eq_none_iff items,
      itemsToData?]
    cases item.toDatum? <;> cases itemsToData? items <;> simp

theorem entriesToData?_eq_none_iff : ∀ entries : List (Text × Value),
    entriesToData? entries = none ↔ ∃ entry ∈ entries, entry.2.NotFinite
  | [] => by simp [entriesToData?]
  | (name, value) :: entries => by
    rw [List.exists_mem_cons_iff, ← toDatum?_eq_none_iff value, ← entriesToData?_eq_none_iff entries,
      entriesToData?]
    cases value.toDatum? <;> cases entriesToData? entries <;> simp

end

/-! ## Data of the same shape -/

mutual

/-- The data says what the value says: texts, numbers and truth values are the same, a date is its text,
a list has the data of the items in their order, and a record has the data of the entries under their
keys, in the order of the keys. -/
inductive Represents : Value → Datum → Prop
  | text (value : Text) : Represents (.text value) (.text value)
  | int (value : Int) : Represents (.int value) (.int value)
  | float (value : Float) : Represents (.float value) (.float value)
  | bool (value : Bool) : Represents (.bool value) (.bool value)
  | dateTime (value : Text) : Represents (.dateTime value) (.text value)
  | array {items : List Value} {data : List Datum} (h : RepresentsItems items data) :
      Represents (.array items) (.list data)
  | table {entries : List (Text × Value)} {data fields : List (Text × Datum)}
      (h : RepresentsEntries entries data) (same : fields.Perm data)
      (increasing : NameMap.Increasing fields) : Represents (.table entries) (.record fields)

inductive RepresentsItems : List Value → List Datum → Prop
  | nil : RepresentsItems [] []
  | cons {item : Value} {datum : Datum} {items : List Value} {data : List Datum}
      (h : Represents item datum) (rest : RepresentsItems items data) :
      RepresentsItems (item :: items) (datum :: data)

/-- The data of entries, one for each and under the same key. -/
inductive RepresentsEntries : List (Text × Value) → List (Text × Datum) → Prop
  | nil : RepresentsEntries [] []
  | cons {name : Text} {value : Value} {datum : Datum} {entries : List (Text × Value)}
      {data : List (Text × Datum)} (h : Represents value datum)
      (rest : RepresentsEntries entries data) :
      RepresentsEntries ((name, value) :: entries) ((name, datum) :: data)

end

theorem RepresentsEntries.keys {entries : List (Text × Value)} {data : List (Text × Datum)}
    (h : RepresentsEntries entries data) : data.map Prod.fst = entries.map Prod.fst := by
  induction entries generalizing data with
  | nil =>
    cases h
    rfl
  | cons entry entries ih =>
    cases h with
    | cons here rest => rw [List.map_cons, List.map_cons, ih rest]

mutual

theorem represents_of_toDatum? : ∀ {value : Value} {datum : Datum}, value.KeysOnce →
    value.toDatum? = some datum → Represents value datum
  | .text value, _, _, h => by
    obtain rfl := Option.some.inj h
    exact .text value
  | .int value, _, _, h => by
    obtain rfl := Option.some.inj h
    exact .int value
  | .float x, _, _, h => by
    rw [Value.toDatum?] at h
    split at h
    · obtain rfl := Option.some.inj h
      exact .float x
    · cases h
  | .bool value, _, _, h => by
    obtain rfl := Option.some.inj h
    exact .bool value
  | .dateTime value, _, _, h => by
    obtain rfl := Option.some.inj h
    exact .dateTime value
  | .array items, _, once, h => by
    rw [Value.toDatum?] at h
    obtain ⟨data, hd, rfl⟩ := Option.map_eq_some_iff.mp h
    exact .array (represents_of_itemsToData? (keysOnce_array_iff.mp once) hd)
  | .table entries, _, once, h => by
    obtain ⟨keys, once⟩ := keysOnce_table_iff.mp once
    rw [Value.toDatum?] at h
    obtain ⟨data, hd, rfl⟩ := Option.map_eq_some_iff.mp h
    have data := represents_of_entriesToData? once hd
    -- No field takes the place of another, since no key is there twice.
    exact .table data (NameMap.perm_ofList (data.keys ▸ keys)) (NameMap.increasing_ofList _)

theorem represents_of_itemsToData? : ∀ {items : List Value} {data : List Datum},
    (∀ item ∈ items, item.KeysOnce) → itemsToData? items = some data → RepresentsItems items data
  | [], _, _, h => by
    obtain rfl := Option.some.inj h
    exact .nil
  | item :: items, _, once, h => by
    obtain ⟨here, later⟩ := List.forall_mem_cons.mp once
    rw [itemsToData?] at h
    split at h
    · next datum data hd hrest =>
      obtain rfl := Option.some.inj h
      exact .cons (represents_of_toDatum? here hd) (represents_of_itemsToData? later hrest)
    · cases h

theorem represents_of_entriesToData? : ∀ {entries : List (Text × Value)}
    {data : List (Text × Datum)}, (∀ entry ∈ entries, entry.2.KeysOnce) →
    entriesToData? entries = some data → RepresentsEntries entries data
  | [], _, _, h => by
    obtain rfl := Option.some.inj h
    exact .nil
  | (name, value) :: entries, _, once, h => by
    obtain ⟨here, later⟩ := List.forall_mem_cons.mp once
    rw [entriesToData?] at h
    split at h
    · next datum data hd hrest =>
      obtain rfl := Option.some.inj h
      exact .cons (represents_of_toDatum? here hd) (represents_of_entriesToData? later hrest)
    · cases h

end

mutual

/-- Only one piece of data represents a value. -/
theorem Represents.unique : ∀ {value : Value} {a b : Datum}, Represents value a →
    Represents value b → a = b
  | _, _, _, .text _, .text _ => rfl
  | _, _, _, .int _, .int _ => rfl
  | _, _, _, .float _, .float _ => rfl
  | _, _, _, .bool _, .bool _ => rfl
  | _, _, _, .dateTime _, .dateTime _ => rfl
  | _, _, _, .array ha, .array hb => congrArg Datum.list (ha.unique hb)
  | _, _, _, .table ha sa ia, .table hb sb ib => by
    rw [ha.unique hb] at sa
    exact congrArg Datum.record (ia.eq_of_perm ib (sa.trans sb.symm))

theorem RepresentsItems.unique : ∀ {items : List Value} {a b : List Datum},
    RepresentsItems items a → RepresentsItems items b → a = b
  | _, _, _, .nil, .nil => rfl
  | _, _, _, .cons ha ra, .cons hb rb => by rw [ha.unique hb, ra.unique rb]

theorem RepresentsEntries.unique : ∀ {entries : List (Text × Value)} {a b : List (Text × Datum)},
    RepresentsEntries entries a → RepresentsEntries entries b → a = b
  | _, _, _, .nil, .nil => rfl
  | _, _, _, .cons ha ra, .cons hb rb => by rw [ha.unique hb, ra.unique rb]

end

/-- The data of a value whose floats are all finite is what represents it. -/
theorem toDatum?_eq_some_iff {value : Value} (once : value.KeysOnce) (datum : Datum) :
    value.toDatum? = some datum ↔ ¬ value.NotFinite ∧ Represents value datum := by
  rw [← toDatum?_eq_none_iff]
  constructor
  · intro h
    exact ⟨by simp [h], represents_of_toDatum? once h⟩
  · rintro ⟨finite, represents⟩
    obtain ⟨found, h⟩ := Option.ne_none_iff_exists'.mp finite
    rw [h, (represents_of_toDatum? once h).unique represents]

/-! ## Telling values apart -/

mutual

/-- Two values are the same. -/
def Value.same : Value → Value → Bool
  | .text a, .text b => a = b
  | .int a, .int b => a = b
  | .float a, .float b => a = b
  | .bool a, .bool b => a = b
  | .dateTime a, .dateTime b => a = b
  | .array a, .array b => sameItems a b
  | .table a, .table b => sameEntries a b
  | _, _ => false

def sameItems : List Value → List Value → Bool
  | [], [] => true
  | a :: as, b :: bs => a.same b && sameItems as bs
  | _, _ => false

def sameEntries : List (Text × Value) → List (Text × Value) → Bool
  | [], [] => true
  | (key, a) :: as, (other, b) :: bs => key = other && a.same b && sameEntries as bs
  | _, _ => false

end

mutual

theorem Value.same_iff (a b : Value) : a.same b = true ↔ a = b := by
  cases a with
  | array items => cases b <;> simp [Value.same, sameItems_iff items]
  | table entries => cases b <;> simp [Value.same, sameEntries_iff entries]
  | _ => cases b <;> simp [Value.same]

theorem sameItems_iff (as bs : List Value) : sameItems as bs = true ↔ as = bs := by
  match as, bs with
  | [], [] => simp [sameItems]
  | [], _ :: _ => simp [sameItems]
  | _ :: _, [] => simp [sameItems]
  | a :: as, b :: bs => simp [sameItems, a.same_iff, sameItems_iff as]

theorem sameEntries_iff (as bs : List (Text × Value)) : sameEntries as bs = true ↔ as = bs := by
  match as, bs with
  | [], [] => simp [sameEntries]
  | [], _ :: _ => simp [sameEntries]
  | _ :: _, [] => simp [sameEntries]
  | (key, a) :: as, (other, b) :: bs => simp [sameEntries, a.same_iff, sameEntries_iff as]

end

instance : DecidableEq Value := fun a b => decidable_of_iff _ (a.same_iff b)

/-! ## Data files -/

theorem read_toml {content : Text} {value : Value} (h : parse content = some value) :
    Config.Format.read .toml content =
      match value.toDatum? with
      | some datum => .ok datum
      | none => .error .notFinite := by
  cases hd : value.toDatum? <;> simp [Config.Format.read, h, hd]

/-- A value has no data exactly when some float in it is infinite or no number. Else, when none of its
tables has a key twice, its data is the one that represents it. Of the values that data files hold no
table has, so a file is refused exactly for such floats, and else read as what represents its value. -/
theorem toml_data (value : Value) :
    (value.toDatum? = none ↔ value.NotFinite) ∧
      (value.KeysOnce → ∀ datum,
        value.toDatum? = some datum ↔ ¬ value.NotFinite ∧ Represents value datum) ∧
      ∀ content, parse content = some value → value.KeysOnce ∧
        (Config.Format.read .toml content = .error .notFinite ↔ value.NotFinite) ∧
        ∀ datum, Config.Format.read .toml content = .ok datum ↔
          ¬ value.NotFinite ∧ Represents value datum := by
  refine ⟨toDatum?_eq_none_iff value, toDatum?_eq_some_iff, fun content h => ?_⟩
  have once := keysOnce_parse h
  refine ⟨once, ?_, fun datum => ?_⟩
  · rw [read_toml h, ← toDatum?_eq_none_iff]
    cases value.toDatum? <;> simp
  · rw [read_toml h, ← toDatum?_eq_some_iff once]
    cases value.toDatum? <;> simp

/-- A document with a table in a list and one in another, a date, and keys out of order. -/
def diary : Text := "b = [[true], { n = true, m = false }]\n[a]\nd = 1979-05-27\n".toList

def diaryValue : Value :=
  .table
    [("b".toList, .array [.array [.bool true],
        .table [("n".toList, .bool true), ("m".toList, .bool false)]]),
      ("a".toList, .table [("d".toList, .dateTime "1979-05-27".toList)])]

def diaryDatum : Datum :=
  .record
    [("a".toList, .record [("d".toList, .text "1979-05-27".toList)]),
      ("b".toList, .list [.list [.bool true],
        .record [("m".toList, .bool false), ("n".toList, .bool true)]])]

theorem toml_data_diary :
    parse diary = some diaryValue ∧ diaryValue.KeysOnce ∧ ¬ diaryValue.NotFinite ∧
      Represents diaryValue diaryDatum ∧ Config.Format.read .toml diary = .ok diaryDatum := by
  have parsed : parse diary = some diaryValue := by decide +kernel
  have data : diaryValue.toDatum? = some diaryDatum := by rfl
  obtain ⟨-, kept, files⟩ := toml_data diaryValue
  obtain ⟨once, -, file⟩ := files diary parsed
  obtain ⟨finite, represents⟩ := (kept once diaryDatum).mp data
  exact ⟨parsed, once, finite, represents, (file diaryDatum).mpr ⟨finite, represents⟩⟩

end Stencil.Toml
