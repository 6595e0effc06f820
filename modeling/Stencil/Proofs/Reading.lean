import Stencil.Artifact.Program
import Stencil.Proofs.Chunks
import Stencil.Proofs.Letters

/-!
# Reading what a tag says

`Statement.read` tries its forms one after the other. Proved here:

* `callArguments?_callSource` and `callArguments?_eq_none`: a statement is a call of the name that it
  starts with, when no parenthesis closes too early, and of no other;
* `cutLast?_append`: the header of a loop is cut where its binding starts;
* `Token.read`: the tag of a directive says what the directive means (`Token.meaning`).
-/

namespace Stencil.Artifact

/-! ## The order of the forms -/

theorem Statement.read_echo {body expr : Text}
    (h : Text.dropStart? "echo ".toList body.trim = some expr) :
    Statement.read body = .ok (.nodes [echoNode expr.trim]) := by
  delta Statement.read
  simp only [h]

theorem Statement.read_loop {body header : Text}
    (he : Text.dropStart? "echo ".toList body.trim = none)
    (hl : Text.dropStart? "foreach".toList body.trim = some header) :
    Statement.read body = readLoop body.trim header := by
  delta Statement.read
  simp only [he, hl]

theorem Statement.read_node {body : Text} {node : Node}
    (he : Text.dropStart? "echo ".toList body.trim = none)
    (hl : Text.dropStart? "foreach".toList body.trim = none)
    (hend : Text.dropEndWhile (· == ';') body.trim ≠ "endforeach".toList)
    (hn : callNode? body.trim = some node) : Statement.read body = .ok (.nodes [node]) := by
  delta Statement.read
  simp only [he, hl, hend, hn, ↓reduceIte]

/-! ## Calls -/

def callSource (name args : Text) : Text := name ++ ('(' :: args ++ [')'])

theorem split_of_noStray {scan : Scan} {text : Text}
    (h : ∀ done c more, text = done ++ c :: more → (scan.run done).stray c = false) :
    Scan.split [')'] scan text = [text] := by
  induction text generalizing scan with
  | nil => rfl
  | cons c text ih =>
    have here := h [] c text rfl
    have apart : scan.separates [')'] c = false := by
      cases hs : scan.separates [')'] c with
      | false => rfl
      | true =>
        -- What separates is a parenthesis that closes nothing.
        simp only [Scan.separates, Bool.and_eq_true] at hs
        obtain ⟨⟨⟨hscan, -⟩, -⟩, hc⟩ := hs
        obtain rfl : c = ')' := by simpa using hc
        simp only [Scan.run, List.foldl_nil, Scan.stray, hscan, Bool.true_and] at here
        simp [Scan.isCloser] at here
    have rest := ih fun done d more hd => h (c :: done) d more (by rw [hd]; rfl)
    rw [Scan.split, apart, rest]
    rfl

theorem unparenthesized?_append (args : Text) :
    unparenthesized? ('(' :: args ++ [')']) = some args := by
  have first : Text.dropStart? ['('] ('(' :: args ++ [')']) = some (args ++ [')']) :=
    Text.dropStart?_append ['('] _
  have last : Text.dropEnd? [')'] (args ++ [')']) = some args := by
    simp [Text.dropEnd?, List.isSuffixOf?]
  show (Text.dropStart? ['('] ('(' :: args ++ [')'])).bind (Text.dropEnd? [')']) = some args
  rw [first]
  exact last

/-- A call of a name is read as one exactly when no parenthesis closes before its end. -/
theorem callArguments?_callSource (name args : Text) :
    callArguments? name (callSource name args) =
      if (Text.splitTopLevel [')'] args).length = 1 then some args.trim else none := by
  have first : Text.NoBlankFirst ('(' :: args ++ [')']) := Text.noBlankFirst_cons (by decide)
  have last : Text.NoBlankLast ('(' :: args ++ [')']) := Text.noBlankLast_concat (by decide)
  have semicolons : Text.dropEndWhile (· == ';') ('(' :: args ++ [')']) = '(' :: args ++ [')'] := by
    refine Text.dropEndWhile_eq_self fun c hc => ?_
    rw [List.getLast?_concat] at hc
    obtain rfl : ')' = c := by simpa using hc
    decide
  simp only [callArguments?, callSource, Text.dropStart?_append, Text.trimStart_eq_self first,
    Text.trimEnd_eq_self last, semicolons, unparenthesized?_append, Option.bind_eq_bind,
    Option.bind_some]

theorem callArguments?_call {name args : Text}
    (h : (Text.splitTopLevel [')'] args).length = 1) :
    callArguments? name (callSource name args) = some args.trim := by
  rw [callArguments?_callSource, if_pos h]

theorem callArguments?_eq_none {name statement : Text} (h : ¬ name <+: statement) :
    callArguments? name statement = none := by
  simp [callArguments?, Text.dropStart?_eq_none h]

/-! ## Headers of loops -/

theorem cutLast?_eq_none {mark text : Text} (hn : mark ≠ []) (h : ¬ mark <:+: text) :
    Text.cutLast? mark text = none := by
  induction text with
  | nil =>
    have : ¬ mark <+: [] := by simpa using hn
    simp [Text.cutLast?, Text.dropStart?_eq_none this]
  | cons c text ih =>
    have here : ¬ mark <+: c :: text := fun hp => h hp.isInfix
    have later := ih fun hi => h (hi.trans (List.suffix_cons c text).isInfix)
    simp [Text.cutLast?, later, Text.dropStart?_eq_none here]

/-- A text is cut at a mark behind whose first character no other mark starts. -/
theorem cutLast?_append {m : Char} {mark before after : Text} (h : ¬ m :: mark <:+: mark ++ after) :
    Text.cutLast? (m :: mark) (before ++ (m :: mark ++ after)) = some (before, after) := by
  induction before with
  | nil =>
    have here : Text.dropStart? (m :: mark) (m :: (mark ++ after)) = some after :=
      Text.dropStart?_append (m :: mark) after
    simp [Text.cutLast?, cutLast?_eq_none (List.cons_ne_nil _ _) h, here]
  | cons c before ih =>
    rw [List.cons_append, Text.cutLast?, ih]

/-- The header of a loop is cut at the word between its iterable and its binding. -/
theorem readLoop_header {statement iterable binding : Text} (hi : iterable.trim = iterable)
    (hb : binding.trim = binding) (h : ¬ " as ".toList <:+: "as ".toList ++ binding) :
    readLoop statement (" (".toList ++ (iterable ++ " as ".toList ++ binding) ++ "):".toList) =
      .ok (.startLoop iterable binding) := by
  generalize hhead : iterable ++ " as ".toList ++ binding = head
  have cut : Text.cutLast? " as ".toList head = some (iterable, binding) := by
    rw [← hhead, List.append_assoc]
    exact cutLast?_append h
  have trimmed :
      Text.trim (" (".toList ++ head ++ "):".toList) = '(' :: head ++ [')'] ++ [':'] := by
    have first : Text.NoBlankFirst ('(' :: head ++ [')'] ++ [':']) :=
      Text.noBlankFirst_cons (by decide)
    have := Text.trim_between Text.allBlank_space .nil first (Text.noBlankLast_concat (by decide))
    simpa using this
  have colon :
      Text.dropEnd? [':'] ('(' :: head ++ [')'] ++ [':']) = some ('(' :: head ++ [')']) := by
    simp [Text.dropEnd?, List.isSuffixOf?]
  have last : Text.NoBlankLast ('(' :: head ++ [')']) := Text.noBlankLast_concat (by decide)
  delta readLoop
  simp only [trimmed, colon, Option.bind_some, Text.trimEnd_eq_self last, unparenthesized?_append,
    cut, hi, hb]

end Stencil.Artifact

namespace Stencil.Template

open Artifact

/-! ## Statements of directives -/

def Token.meaning : Token → Statement
  | .text _ => .nodes []
  | .echo _ expr _ escape => .nodes [.echo expr escape]
  | .call operation args => .nodes [.call operation args]
  | .start (.loop iterable binding) => .startLoop iterable binding
  | .start (.region name) => .nodes [.call .startSection name]
  | .stop .loop => .endLoop
  | .stop .region => .nodes [.stopSection]

def stopName : Text := "layout.stop_section".toList

theorem Call.mem_all (operation : Call) : operation ∈ Call.all := by
  cases operation <;> decide

theorem Call.name_apart {a b : Call} (h : a ≠ b) : Apart a.name b.name := by
  have table : ∀ a ∈ Call.all, ∀ b ∈ Call.all, a ≠ b → Apart a.name b.name := by decide
  exact table a (Call.mem_all a) b (Call.mem_all b) h

def otherWords : List Text := [stopName, "echo ".toList, "foreach".toList, "endforeach".toList]

theorem Call.name_apart_other (operation : Call) :
    ∀ word ∈ otherWords, Apart word operation.name := by
  have table : ∀ operation ∈ Call.all, ∀ word ∈ otherWords, Apart word operation.name := by
    decide
  exact table operation (Call.mem_all operation)

theorem callNode?_eq (statement : Text) :
    callNode? statement =
      ((callArguments? Call.extend.name statement).map (.call .extend)).or
        (((callArguments? Call.startSection.name statement).map (.call .startSection)).or
        (((callArguments? stopName statement).map fun _ => .stopSection).or
        (((callArguments? Call.content.name statement).map (.call .content)).or
        (((callArguments? Call.includeView.name statement).map (.call .includeView)).or
        (((callArguments? Call.importView.name statement).map (.call .importView)).or
        ((callArguments? Call.hook.name statement).map (.call .hook))))))) := rfl

theorem IsCode.onePart {code : Text} (h : IsCode code) :
    (Text.splitTopLevel [')'] code).length = 1 := by
  rw [Text.splitTopLevel, split_of_noStray h.noStray]
  rfl

theorem callNode?_call {args : Text}
    (h : (Text.splitTopLevel [')'] args).length = 1) (operation : Call) :
    callNode? (callSource operation.name args) = some (.call operation args.trim) := by
  have other {name : Text} (ha : Apart name operation.name) :
      callArguments? name (callSource operation.name args) = none :=
    callArguments?_eq_none (ha.not_prefix_append _)
  have stop := other (Call.name_apart_other operation stopName List.mem_cons_self)
  have call (o : Call) (ho : o ≠ operation) := other (Call.name_apart ho)
  have self : callArguments? operation.name (callSource operation.name args) = some args.trim :=
    callArguments?_call h
  rw [callNode?_eq, stop]
  cases operation with
  | extend =>
    rw [self]
    rfl
  | startSection =>
    rw [self, call .extend (by decide)]
    rfl
  | content =>
    rw [self, call .extend (by decide), call .startSection (by decide)]
    rfl
  | includeView =>
    rw [self, call .extend (by decide), call .startSection (by decide), call .content (by decide)]
    rfl
  | importView =>
    rw [self, call .extend (by decide), call .startSection (by decide), call .content (by decide),
      call .includeView (by decide)]
    rfl
  | hook =>
    rw [self, call .extend (by decide), call .startSection (by decide), call .content (by decide),
      call .includeView (by decide), call .importView (by decide)]
    rfl

/-! ## Bindings -/

theorem IsIdentifier.ends {name : Text} (h : IsIdentifier name) :
    name.NoBlankFirst ∧ name.NoBlankLast := by
  have letter (c : Char) (hc : c ∈ name) : Text.isBlank c = false := by
    rcases h.letters c hc with ha | rfl
    · exact Text.isBlank_eq_false_of_isAlphanumeric ha
    · decide
  exact ⟨fun c hc => letter c (List.mem_of_mem_head? hc),
    fun c hc => letter c (List.mem_of_getLast? hc)⟩

theorem IsIdentifier.notMem {name : Text} (h : IsIdentifier name) {c : Char}
    (ha : Text.isAlphanumeric c = false) (hc : c ≠ '_') : c ∉ name := by
  intro hm
  rcases h.letters c hm with hl | hu
  · rw [ha] at hl
    simp at hl
  · exact hc hu

theorem IsIdentifier.space_notMem {name : Text} (h : IsIdentifier name) : ' ' ∉ name :=
  h.notMem (by decide) (by decide)

theorem IsBinding.trim {binding : Text} (h : IsBinding binding) : binding.trim = binding := by
  rcases h with h | ⟨first, second, hf, hs, rfl⟩
  · exact Text.trim_eq_self h.ends.1 h.ends.2
  · rw [List.append_assoc]
    refine Text.trim_eq_self (hf.ends.1.append_left hf.nonempty _) ?_
    rw [← List.append_assoc]
    exact hs.ends.2.append fun hn => absurd hn hs.nonempty

/-- A space in a binding stands right behind the comma. -/
theorem IsBinding.getLast?_before_space {binding before after : Text} (h : IsBinding binding)
    (hs : binding = before ++ ' ' :: after) : before.getLast? = some ',' := by
  rcases h with h | ⟨first, second, hf, hsecond, rfl⟩
  · have hm : ' ' ∈ binding := by simp [hs]
    exact absurd hm h.space_notMem
  · have hs' : (first ++ [',']) ++ ' ' :: second = before ++ ' ' :: after := by
      rw [← hs]
      simp
    rcases List.append_eq_append_iff.mp hs' with ⟨u, rfl, hu⟩ | ⟨u, hu, hv⟩
    · cases u with
      | nil => simp
      | cons c u =>
        obtain ⟨-, hu⟩ := List.cons.inj hu
        have hm : ' ' ∈ second := by simp [hu]
        exact absurd hm hsecond.space_notMem
    · cases u with
      | nil =>
        rw [List.append_nil] at hu
        rw [← hu, List.getLast?_concat]
      | cons c u =>
        obtain ⟨rfl, -⟩ := List.cons.inj hv
        have hm : ' ' ∈ first ++ [','] := by simp [hu]
        have : ' ' ∈ first := by simpa using hm
        exact absurd this hf.space_notMem

/-- No other ` as ` stands behind the one in front of the binding. -/
theorem IsBinding.noAs {binding : Text} (h : IsBinding binding) :
    ¬ [' ', 'a', 's', ' '] <:+: ['a', 's', ' '] ++ binding := by
  rintro ⟨before, after, heq⟩
  have hsplit : (before ++ [' ', 'a', 's']) ++ ' ' :: after = ['a', 's', ' '] ++ binding := by
    rw [← heq]
    simp
  rcases List.append_eq_append_iff.mp hsplit with ⟨u, hu, -⟩ | ⟨u, hu, hb⟩
  · have hlen := congrArg List.length hu
    simp only [List.length_append, List.length_cons, List.length_nil] at hlen
    have hnil : before = [] := List.eq_nil_of_length_eq_zero (by omega)
    simp [hnil] at hu
  · have comma := h.getLast?_before_space hb
    have right : (['a', 's', ' '] ++ u).getLast? = some ',' := by
      rw [List.getLast?_append, comma]
      rfl
    rw [← hu] at right
    simp at right

/-! ## Tags of directives -/

/-- A tag says what its statement says, when no blank is at the ends of that. -/
theorem trim_body {statement : Text} (hf : statement.NoBlankFirst) (hl : statement.NoBlankLast) :
    Text.trim (' ' :: statement ++ [' ']) = statement :=
  Text.trim_between Text.allBlank_space Text.allBlank_space hf hl

theorem callSource_noBlankLast (name args : Text) : (callSource name args).NoBlankLast := by
  have last : Text.NoBlankLast ('(' :: args ++ [')']) := Text.noBlankLast_concat (by decide)
  exact last.append fun hn => absurd hn (by simp)

/-- The tag of a call is read as the call of the trimmed arguments, when these are of one part. -/
theorem read_call {args : Text}
    (h : (Text.splitTopLevel [')'] args).length = 1) (operation : Call) :
    Statement.read (' ' :: callSource operation.name args ++ [' ']) =
      .ok (.nodes [.call operation args.trim]) := by
  have first : (callSource operation.name args).NoBlankFirst := by
    cases operation <;> exact Text.noBlankFirst_cons (by decide)
  have body := trim_body first (callSource_noBlankLast _ args)
  have other {word : Text} (hw : word ∈ otherWords) : ¬ word <+: callSource operation.name args :=
    (Call.name_apart_other operation word hw).not_prefix_append _
  have semicolons : Text.dropEndWhile (· == ';') (callSource operation.name args) =
      callSource operation.name args := by
    refine Text.dropEndWhile_eq_self fun c hc => ?_
    obtain rfl : ')' = c := by
      rw [callSource, List.getLast?_append, List.getLast?_concat] at hc
      simpa using hc
    decide
  refine Statement.read_node ?_ ?_ ?_ ?_
  · rw [body]
    exact Text.dropStart?_eq_none (other (by simp [otherWords]))
  · rw [body]
    exact Text.dropStart?_eq_none (other (by simp [otherWords]))
  · rw [body, semicolons]
    intro he
    have last : "endforeach".toList ∈ otherWords := by simp [otherWords]
    exact other last (he ▸ List.prefix_rfl)
  · rw [body]
    exact callNode?_call h operation

/-- What an echo shows is whatever stands behind its word. -/
theorem read_shown {shown : Text} (hf : shown.NoBlankFirst) (hl : shown.NoBlankLast)
    (hn : shown ≠ []) :
    Statement.read (' ' :: ("echo ".toList ++ shown) ++ [' ']) =
      .ok (.nodes [echoNode shown]) := by
  have trimmed :
      Text.trim (' ' :: ("echo ".toList ++ shown) ++ [' ']) = "echo ".toList ++ shown :=
    trim_body (Text.noBlankFirst_cons (by decide)) (hl.append fun h => absurd h hn)
  have drop : Text.dropStart? "echo ".toList
      (Text.trim (' ' :: ("echo ".toList ++ shown) ++ [' '])) = some shown := by
    rw [trimmed]
    exact Text.dropStart?_append _ _
  rw [Statement.read_echo drop, Text.trim_eq_self hf hl]

/-- An escaped echo is read as one exactly when its call of `escape` is. -/
theorem read_escaped {expr : Text} (trimmed : expr.trim = expr) :
    Statement.read (' ' :: ("echo ".toList ++ callSource "escape".toList expr) ++ [' ']) =
      .ok (.nodes [if (Text.splitTopLevel [')'] expr).length = 1 then .echo expr true
        else .echo (callSource "escape".toList expr) false]) := by
  have first : (callSource "escape".toList expr).NoBlankFirst :=
    Text.noBlankFirst_cons (by decide)
  rw [read_shown first (callSource_noBlankLast _ expr) (List.cons_ne_nil _ _)]
  delta echoNode
  by_cases h : (Text.splitTopLevel [')'] expr).length = 1
  · simp only [callArguments?_callSource, trimmed, h, ↓reduceIte]
  · simp only [callArguments?_callSource, h, ↓reduceIte]

theorem read_echo {escape : Bool} {before expr after : Text} (h : IsExpression escape expr) :
    Statement.read (' ' :: (Token.echo before expr after escape).statement ++ [' ']) =
      .ok (.nodes [.echo expr escape]) := by
  cases escape with
  | true =>
    refine (read_escaped h.trimmed).trans ?_
    rw [if_pos h.code.onePart]
  | false =>
    obtain ⟨hn, hp⟩ := h.raw rfl
    obtain ⟨hf, hl⟩ := Text.ends_of_trim_eq h.trimmed
    refine (read_shown hf hl hn).trans ?_
    delta echoNode
    simp only [callArguments?_eq_none hp]

def loopSource (iterable binding : Text) : Text :=
  "foreach".toList ++ (" (".toList ++ (iterable ++ " as ".toList ++ binding) ++ "):".toList)

theorem read_loop {iterable binding : Text} (hi : iterable.trim = iterable)
    (hb : binding.trim = binding) (h : ¬ " as ".toList <:+: "as ".toList ++ binding) :
    Statement.read (' ' :: loopSource iterable binding ++ [' ']) =
      .ok (.startLoop iterable binding) := by
  have colon : Text.NoBlankLast "):".toList := by
    intro c hc
    obtain rfl : ':' = c := by simpa using hc
    decide
  have last : (loopSource iterable binding).NoBlankLast := by
    have := colon.append (a := "foreach".toList ++
      (" (".toList ++ (iterable ++ " as ".toList ++ binding))) fun h => absurd h (by decide)
    rw [List.append_assoc] at this
    exact this
  have first : (loopSource iterable binding).NoBlankFirst := Text.noBlankFirst_cons (by decide)
  have trimmed := trim_body first last
  have noEcho : Text.dropStart? "echo ".toList
      (Text.trim (' ' :: loopSource iterable binding ++ [' '])) = none := by
    rw [trimmed]
    exact Text.dropStart?_eq_none (Apart.not_prefix_append (by decide) _)
  have header : Text.dropStart? "foreach".toList
      (Text.trim (' ' :: loopSource iterable binding ++ [' '])) =
        some (" (".toList ++ (iterable ++ " as ".toList ++ binding) ++ "):".toList) := by
    rw [trimmed]
    exact Text.dropStart?_append _ _
  rw [Statement.read_loop noEcho header]
  exact readLoop_header hi hb h

theorem statement_call (operation : Call) (args : Text) :
    (Token.call operation args).statement = callSource operation.name args := by
  show operation.name ++ ['('] ++ args ++ [')'] = _
  simp [callSource]

/-- The tag of a directive says what the directive means. -/
theorem Token.read {k : Token} (h : k.Valid) :
    Statement.read (' ' :: k.statement ++ [' ']) = .ok k.meaning := by
  cases k with
  | text t => rfl
  | echo before expr after escape => exact read_echo h.2.2
  | call operation args =>
    rw [statement_call, read_call h.2.code.onePart operation, h.2.trimmed]
    rfl
  | start opening =>
    cases opening with
    | loop iterable binding => exact read_loop h.1.trimmed h.2.trim h.2.noAs
    | region name =>
      have read := read_call h.code.onePart .startSection
      rwa [h.trimmed] at read
  | stop block => cases block <;> rfl

end Stencil.Template
