import Stencil.Proofs.Succeeded
import Stencil.Proofs.TopLevel
import Stencil.Proofs.Trim

/-!
# Commas behind the last argument

Arguments are the parts between top-level commas, of which a blank last one is left out. Only one part
is: where several commas stand behind the last argument, blank arguments remain. Proved here:

* `trimmedParts_append`: commas and blanks behind a text with no string and no bracket open add one
  blank part for each comma;
* `getLast?_arguments_blank_iff`: the last argument is blank exactly when the last two parts are;
* `evalAll_blanks`, `perform_blanks`: what an operation does with blank arguments behind the others;
* `arguments_append_commas`: how many blank arguments commas add, and what a call makes of them.
-/

namespace Stencil

/-! ## Blanks behind a text -/

theorem Text.trimStart_append_blanks (a : Text) {b : Text} (hb : AllBlank b) :
    trimStart (a ++ b) = [] ∧ trimStart a = [] ∨ trimStart (a ++ b) = trimStart a ++ b := by
  by_cases ha : AllBlank a
  · exact Or.inl ⟨trimStart_eq_nil (ha.append hb), trimStart_eq_nil ha⟩
  · right
    unfold trimStart
    rw [List.dropWhile_append]
    have left : a.dropWhile isBlank ≠ [] := fun h => ha (List.dropWhile_eq_nil_iff.mp h)
    simp [left]

theorem Text.trim_append_blanks (a : Text) {b : Text} (hb : AllBlank b) : (a ++ b).trim = a.trim := by
  rcases trimStart_append_blanks a hb with ⟨ha, hn⟩ | h
  · rw [trim, ha, trim, hn]
  · rw [trim, h, trimEnd_append_blanks _ hb, trim]

/-! ## Parts -/

namespace Scan

theorem step_blank {c : Char} (h : Text.isBlank c = true) : start.step c = .start := by
  have table : ∀ c ∈ ['\'', '"', '(', '[', '{', ')', ']', '}'], Text.isBlank c = false := by decide
  have other (d : Char) (hd : d ∈ ['\'', '"', '(', '[', '{', ')', ']', '}']) : c ≠ d := by
    rintro rfl
    rw [table c hd] at h
    cases h
  apply step_of_other <;> simp [isQuote, isOpener, isCloser, other]

theorem step_comma : start.step ',' = .start := rfl

/-- A character that separates nothing goes to the last part. -/
theorem split_concat {separators : Text} {scan : Scan} {a : Text} {c : Char}
    (h : (scan.run a).separates separators c = false) :
    ∃ front last, split separators scan a = front ++ [last] ∧
      split separators scan (a ++ [c]) = front ++ [last ++ [c]] := by
  induction a generalizing scan with
  | nil =>
    have here : scan.separates separators c = false := h
    exact ⟨[], [], rfl, by simp [split, here, Text.consFirst]⟩
  | cons d a ih =>
    have later : ((scan.step d).run a).separates separators c = false := h
    obtain ⟨front, last, before, behind⟩ := ih later
    rw [List.cons_append, split, split, before, behind]
    cases scan.separates separators d with
    | true => exact ⟨[] :: front, last, rfl, rfl⟩
    | false =>
      cases front with
      | nil => exact ⟨[], d :: last, rfl, rfl⟩
      | cons part front => exact ⟨(d :: part) :: front, last, rfl, rfl⟩

end Scan

def IsCommas (tail : Text) : Prop := ∀ c ∈ tail, c = ',' ∨ Text.isBlank c = true

instance : DecidablePred IsCommas := fun tail =>
  inferInstanceAs (Decidable (∀ c ∈ tail, c = ',' ∨ Text.isBlank c = true))

def trimmedParts (text : Text) : List Text := (Text.splitTopLevel [','] text).map Text.trim

/-- Behind a text that is outside strings and brackets, every comma adds a blank part. -/
theorem trimmedParts_append {a tail : Text} (closed : Scan.start.run a = .start)
    (commas : IsCommas tail) : Scan.start.run (a ++ tail) = .start ∧
      trimmedParts (a ++ tail) = trimmedParts a ++ List.replicate (tail.count ',') [] := by
  induction tail using List.reverseRecOn with
  | nil => simp [closed]
  | append_singleton tail c ih =>
    have before : IsCommas tail := fun d hd => commas d (List.mem_append_left _ hd)
    obtain ⟨run, parts⟩ := ih before
    rw [← List.append_assoc, Scan.run_concat, run]
    rcases commas c (by simp) with rfl | blank
    · refine ⟨Scan.step_comma, ?_⟩
      have cut : (Scan.start.run (a ++ tail)).separates [','] ',' = true := by rw [run]; rfl
      have split := Scan.split_append_cons [','] cut []
      rw [trimmedParts, Text.splitTopLevel, split, List.map_append]
      show trimmedParts (a ++ tail) ++ [[]] = _
      rw [parts, List.count_append, List.count_singleton_self, List.append_assoc,
        ← List.replicate_succ']
    · have other : c ≠ ',' := by
        rintro rfl
        cases blank
      have joins : (Scan.start.run (a ++ tail)).separates [','] c = false := by
        simp [Scan.separates, other]
      obtain ⟨front, last, old, new⟩ := Scan.split_concat joins
      refine ⟨Scan.step_blank blank, ?_⟩
      have same : trimmedParts (a ++ tail ++ [c]) = trimmedParts (a ++ tail) := by
        rw [trimmedParts, trimmedParts, Text.splitTopLevel, Text.splitTopLevel, new, old]
        simp [Text.trim_append_blanks last (b := [c]) (by simpa [Text.AllBlank] using blank)]
      rw [same, parts, List.count_append, List.count_singleton, beq_false_of_ne other]
      simp

/-! ## Arguments -/

/-- The last part between top-level commas is blank. -/
def endsBlank (text : Text) : Bool := (trimmedParts text).getLast? == some []

/-- Of the parts a blank last one is left out. -/
theorem map_trim_arguments (text : Text) :
    (Text.arguments text).map Text.trim =
      if endsBlank text then (trimmedParts text).dropLast else trimmedParts text := by
  have last : (trimmedParts text).getLast? =
      (Text.splitTopLevel [','] text).getLast?.map Text.trim := List.getLast?_map ..
  rw [Text.arguments, endsBlank, last]
  cases hl : (Text.splitTopLevel [','] text).getLast? with
  | none => rfl
  | some part =>
    cases ht : part.trim with
    | nil => simp [ht, trimmedParts]
    | cons c rest => simp [ht, trimmedParts]

/-- The number of blank arguments that commas add: all blank parts but one remain. -/
def blanksAdded (a tail : Text) : Nat := tail.count ',' + (if endsBlank a then 1 else 0) - 1

theorem map_trim_arguments_append {a tail : Text} (closed : Scan.start.run a = .start)
    (commas : IsCommas tail) :
    (Text.arguments (a ++ tail)).map Text.trim =
      (Text.arguments a).map Text.trim ++ List.replicate (blanksAdded a tail) [] := by
  have parts := (trimmedParts_append closed commas).2
  rw [map_trim_arguments, map_trim_arguments, endsBlank, parts, blanksAdded]
  cases hn : tail.count ',' with
  | zero =>
    rw [List.replicate_zero, List.append_nil, ← endsBlank]
    cases endsBlank a <;> simp
  | succ n =>
    have last : (trimmedParts a ++ List.replicate (n + 1) []).getLast? = some [] := by
      rw [List.replicate_succ', ← List.append_assoc, List.getLast?_concat]
    have rest : (trimmedParts a ++ List.replicate (n + 1) []).dropLast =
        trimmedParts a ++ List.replicate n [] := by
      rw [List.replicate_succ', ← List.append_assoc, List.dropLast_concat]
    rw [last, rest]
    cases hb : endsBlank a with
    | false => simp
    | true =>
      -- the blank last part of `a` is no longer the last one
      have parts : (trimmedParts a).dropLast ++ [[]] = trimmedParts a := by
        have := List.dropLast_append_getLast? [] (by simpa [endsBlank] using hb)
        exact this
      simp only [beq_self_eq_true, ↓reduceIte, Nat.add_sub_cancel]
      rw [List.replicate_succ, ← List.singleton_append, ← List.append_assoc, parts]

/-- The last argument is blank exactly when the last two parts are. -/
theorem getLast?_arguments_blank_iff (text : Text) :
    (∃ part, (Text.arguments text).getLast? = some part ∧ part.trim = []) ↔
      ∃ front p q, Text.splitTopLevel [','] text = front ++ [p, q] ∧ p.trim = [] ∧ q.trim = [] := by
  have ne : Text.splitTopLevel [','] text ≠ [] := Scan.split_ne_nil [','] .start text
  obtain ⟨front, last, parts⟩ := (List.eq_nil_or_concat _).resolve_left ne
  have args : Text.arguments text =
      if last.trim.isEmpty then front else Text.splitTopLevel [','] text := by
    rw [Text.arguments, parts]
    simp
  rw [args, parts]
  by_cases hb : last.trim = []
  · rw [hb, List.isEmpty_nil, if_pos rfl]
    constructor
    · rintro ⟨part, hp, blank⟩
      obtain ⟨front, rfl⟩ := List.getLast?_eq_some_iff.mp hp
      exact ⟨front, part, last, by simp, blank, hb⟩
    · rintro ⟨front', p, q, h, blank, -⟩
      rw [List.concat_eq_append, List.append_cons front' p [q]] at h
      obtain ⟨rfl, -⟩ := List.append_inj' h rfl
      exact ⟨p, List.getLast?_concat, blank⟩
  · have kept : last.trim.isEmpty = false := by simpa using hb
    rw [kept]
    constructor
    · rintro ⟨part, hp, blank⟩
      rw [if_neg Bool.false_ne_true, List.concat_eq_append, List.getLast?_concat] at hp
      cases hp
      exact absurd blank hb
    · rintro ⟨front', p, q, h, -, blank⟩
      rw [List.concat_eq_append, List.append_cons front' p [q]] at h
      obtain ⟨-, hq⟩ := List.append_inj' h rfl
      cases hq
      exact absurd blank hb

/-! ## Calls -/

namespace Step

theorem id_map {σ α : Type} (x : Step σ α) : id <$> x = x := by
  funext s
  show andThen x done s = x s
  unfold andThen
  rcases x s with ⟨result | a, t⟩ <;> rfl

theorem andThen_assoc {σ α β γ : Type} (x : Step σ α) (f : α → Step σ β) (g : β → Step σ γ) :
    (x >>= f) >>= g = x >>= fun a => f a >>= g := by
  funext s
  show andThen (andThen x f) g s = andThen x (fun a => andThen (f a) g) s
  unfold andThen
  rcases x s with ⟨result | a, t⟩ <;> rfl

instance {σ : Type} : LawfulMonad (Step σ) :=
  LawfulMonad.mk' _ id_map (fun _ _ => rfl) andThen_assoc

end Step

namespace Run

variable (run : Run)

theorem eval_congr {source other : Text} (h : source.trim = other.trim) :
    run.eval source = run.eval other := by
  unfold eval
  rw [h]

theorem eval_blank {source : Text} (h : source.trim = []) :
    run.eval source = Step.done .undefined := by
  unfold eval
  rw [h]
  rfl

theorem evalName_congr {arg other : Option Text} (h : arg.map Text.trim = other.map Text.trim) :
    run.evalName arg = run.evalName other := by
  cases arg with
  | none =>
    cases other with
    | none => rfl
    | some other => cases h
  | some source =>
    cases other with
    | none => cases h
    | some other =>
      have same : source.trim = other.trim := Option.some.inj h
      simp only [evalName, same, run.eval_congr same]

theorem evalName_blank {source : Text} (h : source.trim = []) :
    run.evalName (some source) = run.evalName none := by
  simp [evalName, h]

theorem includeWith_congr (target : Text) {data other : Option Text}
    (h : data.map Text.trim = other.map Text.trim) :
    run.includeWith target data = run.includeWith target other := by
  cases data with
  | none =>
    cases other with
    | none => rfl
    | some other => cases h
  | some source =>
    cases other with
    | none => cases h
    | some other => simp only [includeWith, run.eval_congr (Option.some.inj h)]

section Arguments

variable {args others : List Text} {added : Nat}
  (h : args.map Text.trim = others.map Text.trim ++ List.replicate added [])

include h

/-- Blank arguments have no value. -/
theorem evalAll_blanks : run.evalAll args = do
    let values ← run.evalAll others
    return values ++ List.replicate added .undefined := by
  induction others generalizing args with
  | nil =>
    show run.evalAll args = Step.done (List.replicate added .undefined)
    induction added generalizing args with
    | zero =>
      obtain rfl : args = [] := by simpa using h
      rfl
    | succ added ih =>
      obtain ⟨source, rest, rfl, blank, more⟩ := List.map_eq_cons_iff.mp h
      have later := ih more
      rw [evalAll, run.eval_blank blank, later]
      rfl
  | cons other others ih =>
    obtain ⟨source, rest, rfl, same, more⟩ := List.map_eq_cons_iff.mp h
    rw [evalAll, evalAll, run.eval_congr same, ih more]
    simp only [bind_assoc, pure_bind, List.cons_append]

theorem getElem?_trim (i : Nat) : args[i]?.map Text.trim = others[i]?.map Text.trim ∨
    0 < added ∧ others.length ≤ i ∧ ∃ blank, args[i]? = some blank ∧ blank.trim = [] := by
  have at_i : args[i]?.map Text.trim = (others.map Text.trim ++ List.replicate added [])[i]? := by
    rw [← h, List.getElem?_map]
  rcases Nat.lt_or_ge i others.length with inside | behind
  · left
    rw [at_i, List.getElem?_append_left (by simpa using inside), List.getElem?_map]
  · rw [List.getElem?_append_right (by simpa using behind), List.length_map,
      List.getElem?_replicate] at at_i
    split at at_i
    · obtain ⟨blank, hb, ht⟩ := Option.map_eq_some_iff.mp at_i
      exact Or.inr ⟨by omega, behind, blank, hb, ht⟩
    · left
      rw [at_i, List.getElem?_eq_none behind]
      rfl

/-- Behind the others, a blank argument names nothing, as one that is missing does. -/
theorem evalName_getElem? (i : Nat) : run.evalName args[i]? = run.evalName others[i]? := by
  rcases getElem?_trim h i with same | ⟨-, behind, blank, hb, ht⟩
  · exact run.evalName_congr same
  · rw [hb, List.getElem?_eq_none behind, run.evalName_blank ht]

theorem includeView_blanks (data : added = 0 ∨ others.length ≠ 1) :
    run.includeView args = run.includeView others := by
  have name : run.evalName args[0]? = run.evalName others[0]? := run.evalName_getElem? h 0
  unfold includeView
  rw [name]
  rcases getElem?_trim h 1 with same | ⟨positive, behind, -⟩
  · simp only [run.includeWith_congr _ same]
  · -- there is no first argument, so nothing is included
    obtain rfl : others = [] := by
      apply List.eq_nil_of_length_eq_zero
      omega
    rfl

/-- With one argument, the blank one behind it is the data, which is no map. -/
theorem includeWith_blanks (positive : 0 < added) (one : others.length = 1) (target : Text) :
    run.includeWith target args[1]? =
      Step.fail (.render run.view (.dataIsNoMap Value.undefined.kind)) := by
  have second : (args.map Text.trim)[1]? = some [] := by
    rw [h, List.getElem?_append_right (by simp [one]), List.length_map, one,
      List.getElem?_replicate_of_lt (by omega)]
  rw [List.getElem?_map] at second
  obtain ⟨blank, hb, ht⟩ := Option.map_eq_some_iff.mp second
  rw [hb]
  simp only [includeWith, run.eval_blank ht]
  rfl

/-- What blank arguments behind the others change: the values of a call of the host, and the data of
an include that has none. -/
theorem perform_blanks {operation : Artifact.Call} (host : operation = .hook → added = 0)
    (data : operation = .includeView → added = 0 ∨ others.length ≠ 1) :
    run.perform operation args = run.perform operation others := by
  have withName (f : Text → Layout → Layout) : run.withName args f = run.withName others f := by
    unfold Run.withName
    rw [run.evalName_getElem? h 0]
  cases operation with
  | extend => exact withName _
  | startSection => exact withName _
  | content => exact withName _
  | includeView => exact run.includeView_blanks h (data rfl)
  | importView =>
    show run.importView args = run.importView others
    unfold importView
    rw [run.evalName_getElem? h 0, run.evalName_getElem? h 1]
  | hook =>
    obtain rfl := host rfl
    show run.callHook args = run.callHook others
    unfold callHook
    rw [run.evalAll_blanks h]
    simp only [List.replicate_zero, List.append_nil, bind_pure]

end Arguments

end Run

/-- Commas and blanks behind a text that is outside strings and brackets add a blank argument for each
blank part but one. A call of the host gets a missing value for every one of them, and an include with
one argument takes the first for its data and fails; every other operation does the same. The last
argument of a text is blank exactly when the last two of its parts are. -/
theorem arguments_append_commas {a tail : Text} (closed : Scan.start.run a = .start)
    (commas : IsCommas tail) :
    (Text.arguments (a ++ tail)).map Text.trim =
        (Text.arguments a).map Text.trim ++ List.replicate (blanksAdded a tail) [] ∧
      (∀ run : Run, run.evalAll (Text.arguments (a ++ tail)) = do
        let values ← run.evalAll (Text.arguments a)
        return values ++ List.replicate (blanksAdded a tail) .undefined) ∧
      (∀ (run : Run) (target : Text), 0 < blanksAdded a tail → (Text.arguments a).length = 1 →
        run.includeWith target (Text.arguments (a ++ tail))[1]? =
          Step.fail (.render run.view (.dataIsNoMap Value.undefined.kind))) ∧
      (∀ (run : Run) operation, (operation = .hook → blanksAdded a tail = 0) →
        (operation = .includeView → blanksAdded a tail = 0 ∨ (Text.arguments a).length ≠ 1) →
        run.perform operation (Text.arguments (a ++ tail)) =
          run.perform operation (Text.arguments a)) ∧
      ∀ text, (∃ part, (Text.arguments text).getLast? = some part ∧ part.trim = []) ↔
        ∃ front p q, Text.splitTopLevel [','] text = front ++ [p, q] ∧ p.trim = [] ∧
          q.trim = [] := by
  have parts := map_trim_arguments_append closed commas
  refine ⟨parts, fun run => run.evalAll_blanks parts, fun run target positive one => ?_,
    fun run operation host data => run.perform_blanks parts host data,
    getLast?_arguments_blank_iff⟩
  exact run.includeWith_blanks parts positive one target

/-- A call with a comma in a string and one in brackets. One comma behind it adds nothing, three add
two blank arguments. -/
theorem arguments_append_commas_call :
    let a := "f('x,', y), \"(\" ".toList
    Scan.start.run a = .start ∧ IsCommas " , \n".toList ∧ IsCommas ",\t, ,".toList ∧
      (Text.arguments (a ++ " , \n".toList)).map Text.trim = (Text.arguments a).map Text.trim ∧
      (Text.arguments (a ++ ",\t, ,".toList)).map Text.trim =
        (Text.arguments a).map Text.trim ++ [[], []] ∧
      (Text.arguments a).map Text.trim = ["f('x,', y)".toList, "\"(\"".toList] := by
  intro a
  have closed : Scan.start.run a = .start := by decide
  have one : IsCommas " , \n".toList := by decide
  have three : IsCommas ",\t, ,".toList := by decide
  exact ⟨closed, one, three, (arguments_append_commas closed one).1,
    (arguments_append_commas closed three).1, by decide⟩

/-- With two commas behind the only argument, a blank one remains. -/
theorem blank_argument :
    Scan.start.run "x".toList = .start ∧ IsCommas ",,".toList ∧
      (∃ part, (Text.arguments ("x".toList ++ ",,".toList)).getLast? = some part ∧
        part.trim = []) ∧
      (Text.arguments ("x".toList ++ ",,".toList)).map Text.trim ≠
        (Text.arguments "x".toList).map Text.trim :=
  ⟨by decide, by decide, ⟨[], by decide, rfl⟩, by decide⟩

end Stencil
