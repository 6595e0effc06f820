import Stencil.Proofs.Compilation
import Stencil.Proofs.OpenLoops
import Stencil.Proofs.RuleMatches
import Stencil.Proofs.TopLevel

/-!
# Arguments from a template to the program

The arguments of a call are read twice: a balanced slot between two parentheses captures them in the
template, and the reader of artifacts looks for the parenthesis that ends them in the tag. Proved
here, for whatever the slot can capture:

* `split_balanced` and `eq_of_balanced`: cut at parentheses that close nothing, the line goes on behind
  the captured text for the first time, and no other text that the slot takes ends there;
* `exists_arguments`: a match of a pattern with the three slots in a row finds such a text;
* `programOf_cons` and `readAs_call`: the tag with these arguments is read as one call, whatever is in
  front of it or behind it;
* `captured_arguments`: the two readings agree on every match, and every built-in rule for a call
  writes such a tag.
-/

namespace Stencil

/-! ## The end of the arguments -/

section Balanced

variable {a b : Text} {earlier : Option Char} (ha : (Segment.capture .balanced).Admits earlier a)

include ha

/-- A parenthesis behind the slice closes nothing. -/
theorem separates_balanced : (Scan.start.run a).separates [')'] ')' = true := by
  obtain ⟨-, closed, -⟩ := ha
  rw [closed]
  decide

theorem splitTopLevel_balanced : Text.splitTopLevel [')'] a = [a] := by
  obtain ⟨-, -, noStray⟩ := ha
  exact Artifact.split_of_noStray noStray

/-- The first part of a line is the slice. -/
theorem split_balanced (rest : Text) :
    Text.splitTopLevel [')'] (a ++ ')' :: rest) = a :: Text.splitTopLevel [')'] rest := by
  have parts := Scan.split_append_cons [')'] (separates_balanced ha) rest
  have whole : Scan.split [')'] .start a = [a] := splitTopLevel_balanced ha
  rw [whole] at parts
  exact parts

/-- The slot does not go on behind a parenthesis that could end its slice. -/
theorem not_admits_longer (more : Text) :
    ¬ (Segment.capture .balanced).Admits earlier (a ++ ')' :: more) := by
  rintro ⟨-, -, noStray⟩
  obtain ⟨-, closed, -⟩ := ha
  have stray := noStray a ')' more rfl
  rw [closed] at stray
  exact absurd stray (by decide)

/-- At most one slice has a parenthesis behind it. -/
theorem eq_of_balanced (hb : (Segment.capture .balanced).Admits earlier b) {rest behind : Text}
    (h : a ++ ')' :: rest = b ++ ')' :: behind) : a = b := by
  rcases List.append_eq_append_iff.mp h with ⟨more, rfl, hm⟩ | ⟨more, rfl, hm⟩
  · cases more with
    | nil => exact (List.append_nil a).symm
    | cons c more =>
      obtain ⟨rfl, -⟩ := List.cons.inj hm
      exact absurd hb (not_admits_longer ha more)
  · cases more with
    | nil => exact List.append_nil b
    | cons c more =>
      obtain ⟨rfl, -⟩ := List.cons.inj hm
      exact absurd ha (not_admits_longer hb more)

end Balanced

def restOfLine (text : Text) : Text := text.takeWhile (· != '\n')

theorem restOfLine_append {slice : Text} (h : '\n' ∉ slice) (rest : Text) :
    restOfLine (slice ++ rest) = slice ++ restOfLine rest :=
  List.takeWhile_append_of_pos ((noFeed_iff slice).mp h)

/-! ## Three slots in a row -/

/-- What captures arguments: an opening parenthesis, a balanced slot and a closing parenthesis. The
literals may be longer. -/
def callSlots (opening closing : Text) : List Segment :=
  [.literal (opening ++ ['(']), .capture .balanced, .literal (')' :: closing)]

theorem exists_of_admitted_append {front back : List Segment} {earlier : Option Char} {text : Text}
    {slices : List Text} (h : Admitted (front ++ back) earlier text slices) :
    ∃ first second rest behind, slices = first ++ second ∧ text = first.flatten ++ rest ∧
      Admitted front earlier text first ∧ Admitted back behind rest second := by
  induction front generalizing earlier text slices with
  | nil => exact ⟨[], slices, text, earlier, rfl, rfl, rfl, h⟩
  | cons segment front ih =>
    obtain ⟨slice, rest, more, rfl, rfl, here, later⟩ := h
    obtain ⟨first, second, last, behind, rfl, rfl, hfirst, hsecond⟩ := ih later
    exact ⟨slice :: first, second, last, behind, rfl, by simp, ⟨slice, _, _, rfl, rfl, here, hfirst⟩,
      hsecond⟩

/-- The captures of segments behind others come behind those of the others. -/
theorem captureSpans_append {front : List Segment} {earlier : Option Char} {text : Text}
    {first : List Text} (h : Admitted front earlier text first) (start : Nat)
    (back : List Segment) (second : List Text) :
    captureSpans (front ++ back) (spansFrom start (first ++ second)) =
      captureSpans front (spansFrom start first) ++
        captureSpans back (spansFrom (start + Text.byteSize first.flatten) second) := by
  induction front generalizing earlier text first start with
  | nil =>
    obtain rfl : first = [] := h
    rfl
  | cons segment front ih =>
    obtain ⟨slice, rest, more, rfl, -, -, later⟩ := h
    have rest := ih later (start + slice.byteSize)
    rw [Nat.add_assoc, ← Text.byteSize_append] at rest
    simp only [List.cons_append, spansFrom, captureSpans, List.flatten_cons, rest]
    split
    · rfl
    · rfl

theorem exists_of_admitted_callSlots {back : List Segment} {opening closing text : Text}
    {earlier : Option Char} {slices : List Text}
    (h : Admitted (callSlots opening closing ++ back) earlier text slices) :
    ∃ args more rest, slices = (opening ++ ['(']) :: args :: (')' :: closing) :: more ∧
      text = opening ++ '(' :: (args ++ ')' :: (closing ++ rest)) ∧
      (Segment.capture .balanced).Admits none args := by
  obtain ⟨_, _, _, rfl, rfl, rfl, args, _, _, rfl, rfl, balanced, _, rest, more, rfl, rfl, rfl, -⟩ := h
  exact ⟨args, more, rest, rfl, by simp, balanced⟩

/-- A match of the three slots has found arguments between two parentheses. -/
theorem exists_arguments {front back : List Segment} {opening closing text : Text} {place : Nat}
    {hit : Match}
    (found : Pattern.matchAt ⟨front ++ (callSlots opening closing ++ back)⟩ text place = some hit) :
    ∃ before args after, text = before ++ '(' :: (args ++ ')' :: after) ∧
      hit.captures[front.countP Segment.isCapture]? =
        some ⟨(before ++ ['(']).byteSize, (before ++ '(' :: args).byteSize⟩ ∧
      (Segment.capture .balanced).Admits none args := by
  obtain ⟨before, after, slices, rfl, admitted, rfl⟩ := Pattern.slices_of_matchAt found
  obtain ⟨first, second, behind, _, rfl, hb, hfront, hslots⟩ := exists_of_admitted_append admitted
  obtain ⟨args, more, rest, rfl, rfl, balanced⟩ := exists_of_admitted_callSlots hslots
  refine ⟨before ++ first.flatten ++ opening, args, closing ++ rest, ?_, ?_, balanced⟩
  · rw [List.append_assoc, hb]
    simp
  · have count := captureSpans_length before.byteSize hfront
    have spans := captureSpans_append hfront before.byteSize (callSlots opening closing ++ back)
      ((opening ++ ['(']) :: args :: (')' :: closing) :: more)
    simp only
    rw [spans, List.getElem?_append_right (by omega), count, Nat.sub_self]
    simp [callSlots, captureSpans, spansFrom, Segment.isCapture, Text.byteSize_append, Text.byteSize,
      Nat.add_assoc]

end Stencil

namespace Stencil.Artifact

open Template (push_ne_nil read_call splitText_tagged)

/-! ## Programs with nodes in front -/

namespace Stack

/-- A stack whose program starts with more nodes. -/
def begun (nodes : List Node) : Stack → Stack
  | [] => []
  | [frame] => [{ frame with nodes := nodes ++ frame.nodes }]
  | frame :: next :: frames => frame :: begun nodes (next :: frames)

variable (nodes : List Node) {stack : Stack}

theorem push_begun (said : List Node) (stack : Stack) :
    (stack.begun nodes).push said = (stack.push said).begun nodes := by
  cases stack with
  | nil => rfl
  | cons frame frames =>
    cases frames with
    | nil => simp [begun, push]
    | cons next frames => rfl

theorem closeLoop_begun (line : Nat) (stack : Stack) :
    (stack.begun nodes).closeLoop line = (stack.closeLoop line).map (begun nodes) := by
  match stack with
  | [] => rfl
  | [⟨inner, none⟩] => rfl
  | [⟨inner, some header⟩] => rfl
  | ⟨inner, none⟩ :: next :: frames => rfl
  | ⟨inner, some header⟩ :: next :: frames =>
    -- The loop goes into the frame below, which may be the program.
    have pushed := push_begun nodes [.loop header.iterable header.binding inner] (next :: frames)
    cases frames with
    | nil => exact congrArg Except.ok pushed
    | cons last frames => rfl

theorem step_begun (h : stack ≠ []) (chunk : Chunk) :
    (stack.begun nodes).step chunk = (stack.step chunk).map (begun nodes) := by
  rw [step_eq, step_eq]
  cases chunk.statement with
  | error fault => rfl
  | ok statement =>
    cases statement with
    | startLoop iterable binding =>
      obtain ⟨frame, frames, rfl⟩ := List.exists_cons_of_ne_nil h
      cases frames <;> rfl
    | endLoop => exact closeLoop_begun nodes chunk.line stack
    | nodes said => exact congrArg Except.ok (push_begun nodes said stack)

theorem step_ne_nil {next : Stack} {chunk : Chunk} (h : stack ≠ [])
    (hs : stack.step chunk = .ok next) : next ≠ [] := by
  rw [step_eq] at hs
  cases hc : chunk.statement with
  | error fault =>
    rw [hc] at hs
    cases hs
  | ok statement =>
    rw [hc] at hs
    cases statement with
    | startLoop iterable binding =>
      obtain rfl := Except.ok.inj hs
      exact List.cons_ne_nil _ _
    | endLoop =>
      simp only [closeLoop] at hs
      split at hs
      · obtain rfl := Except.ok.inj hs
        exact push_ne_nil (List.cons_ne_nil _ _) _
      · cases hs
    | nodes said =>
      obtain rfl := Except.ok.inj hs
      exact push_ne_nil h _

/-- Nodes in front of a program change nothing in how the chunks behind them are read. -/
theorem run_begun (h : stack ≠ []) (chunks : List Chunk) :
    (stack.begun nodes).run chunks = (stack.run chunks).map (begun nodes) := by
  induction chunks generalizing stack with
  | nil => rfl
  | cons chunk chunks ih =>
    rw [run, run, step_begun nodes h]
    cases hs : stack.step chunk with
    | error malformed => rfl
    | ok next => exact ih (step_ne_nil h hs)

theorem run_ne_nil {last : Stack} {chunks : List Chunk} (h : stack ≠ [])
    (hr : stack.run chunks = .ok last) : last ≠ [] := by
  induction chunks generalizing stack with
  | nil =>
    obtain rfl := Except.ok.inj hr
    exact h
  | cons chunk chunks ih =>
    rw [run] at hr
    cases hs : stack.step chunk with
    | error malformed => simp [hs] at hr
    | ok next =>
      simp only [hs] at hr
      exact ih (step_ne_nil h hs) hr

theorem finish_begun (h : stack ≠ []) :
    (stack.begun nodes).finish = stack.finish.map (nodes ++ ·) := by
  match stack with
  | [] => exact absurd rfl h
  | [frame] => rfl
  | [frame, next] => rfl
  | frame :: next :: last :: frames => rfl

end Stack

/-! ## Pieces that are read as one node -/

/-- The reader takes a piece of source for one node wherever it stands outside of tags: the piece is cut
out as one chunk, whichever text is in front of it, and the chunk adds the node to the innermost loop.
What is behind the piece is read as without it. -/
structure ReadAs (piece : Text) (node : Node) : Prop where
  chunk : ∀ line, ∃ chunk, (∀ stack : Stack, stack.step chunk = .ok (stack.push [node])) ∧
    ∀ done source, splitText line done (marks (piece ++ source)) =
      (splitText line [] (marks source)).map fun chunks => consText done.reverse (chunk :: chunks)
  program : ∀ source, parse (piece ++ source) = (parse source).map (node :: ·)

/-- A chunk for a node puts it in front of the program of the chunks behind it. -/
theorem programOf_cons {node : Node} {chunk : Chunk}
    (step : ∀ stack : Stack, stack.step chunk = .ok (stack.push [node])) (chunks : List Chunk) :
    programOf (chunk :: chunks) = (programOf chunks).map (node :: ·) := by
  have initial : Stack.initial ≠ [] := List.cons_ne_nil _ _
  have first : Stack.initial.push [node] = Stack.initial.begun [node] := rfl
  have run : Stack.initial.run (chunk :: chunks) =
      (Stack.initial.run chunks).map (Stack.begun [node]) := by
    rw [Stack.run, step, first]
    exact Stack.run_begun [node] initial chunks
  rw [programOf, programOf, run]
  cases hr : Stack.initial.run chunks with
  | error malformed => rfl
  | ok last => exact Stack.finish_begun [node] (Stack.run_ne_nil initial hr)

theorem parse_append_of_chunk {piece : Text} {node : Node} {chunk : Chunk}
    (step : ∀ stack : Stack, stack.step chunk = .ok (stack.push [node]))
    (cut : ∀ done source, splitText 1 done (marks (piece ++ source)) =
      (splitText 1 [] (marks source)).map fun chunks => consText done.reverse (chunk :: chunks))
    (source : Text) : parse (piece ++ source) = (parse source).map (node :: ·) := by
  have both : split (piece ++ source) = (split source).map (chunk :: ·) := cut [] source
  cases hs : split source with
  | error line =>
    rw [hs] at both
    rw [parse, parse, both, hs]
    rfl
  | ok chunks =>
    rw [hs] at both
    rw [parse_of_split both, parse_of_split hs]
    exact programOf_cons step chunks

/-- The tag of a call is read as the call, when the arguments are of one part and end no tag. -/
theorem readAs_call {args : Text} (onePart : Text.splitTopLevel [')'] args = [args])
    (onLine : '\n' ∉ args) (noEnd : ¬ tagClose <:+: args) (operation : Call) :
    ReadAs (tagged (callSource operation.name args)) (.call operation args.trim) := by
  have read := read_call (congrArg List.length onePart) operation
  have closed := closed_callSource operation.name (by cases operation <;> decide) noEnd
  have feeds : (callSource operation.name args).count '\n' = 0 := by
    have name : '\n' ∉ operation.name := by cases operation <;> decide
    rw [List.count_eq_zero]
    simp [callSource, name, onLine]
  have step (line : Nat) (stack : Stack) :
      stack.step (.tag (' ' :: callSource operation.name args ++ [' ']) line) =
        .ok (stack.push [.call operation args.trim]) := by
    rw [Stack.step, read]
  have cut (line : Nat) (done source : Text) :=
    splitText_tagged line done closed source
  simp only [feeds, Nat.add_zero] at cut
  exact ⟨fun line => ⟨_, step line, cut line⟩, parse_append_of_chunk (step 1) (cut 1)⟩

end Stencil.Artifact

namespace Stencil.Template

open Artifact (Call callSource tagged)

/-! ## Rules for calls -/

/-- Every form has a built-in rule. -/
theorem Form.exists_rule (form : Form) : ∃ rule ∈ RuleTable.builtinRules,
    Pattern.parse rule.pattern = .ok form.pattern ∧
      Replacement.parse rule.replacement = form.replacement := by
  have table : ∀ form ∈ Form.all, ∃ rule ∈ RuleTable.builtinRules,
      Pattern.parse rule.pattern = .ok form.pattern ∧
        Replacement.parse rule.replacement = form.replacement := by
    decide +kernel
  exact table form (Form.mem_all form)

/-- The operation that the rule of a form writes a call of. -/
def Form.operation? : Form → Option Call
  | .call operation => some operation
  | .block .region => some .startSection
  | _ => none

/-- The rule of a call captures the arguments first, by the three slots, and its output starts with the
tag of the call. -/
theorem Form.writes_call {form : Form} {operation : Call} (h : form.operation? = some operation) :
    (∃ front back, form.segments = front ++ (callSlots [] [] ++ back) ∧
        front.countP Segment.isCapture = 0) ∧
      ∀ whole args more, ∃ rest, form.replacement.expand whole (args :: more) =
        tagged (callSource operation.name args) ++ rest := by
  have tag (operation : Call) (whole args : Text) (more : List Text) :
      (tagAround (operation.name ++ "(".toList) 1 ")".toList).expand whole (args :: more) =
        tagged (callSource operation.name args) := by
    rw [expand_tagAround]
    simp [callSource]
  cases form with
  | echo escape => cases h
  | call other =>
    obtain rfl : other = operation := Option.some.inj h
    refine ⟨⟨[_, .blanks], [.blanks], rfl, rfl⟩, fun whole args more => ⟨[], ?_⟩⟩
    rw [List.append_nil]
    exact tag other whole args more
  | block b =>
    cases b with
    | loop => cases h
    | region =>
      obtain rfl : .startSection = operation := Option.some.inj h
      refine ⟨⟨[_, .blanks], [_, .blanks, _], rfl, rfl⟩, fun whole args more => ?_⟩
      have both := expand_append (tagAround (Call.startSection.name ++ "(".toList) 1 ")".toList)
        (.capture 2 :: chars (tagged "layout.stop_section()".toList)) whole (args :: more)
      rw [tag] at both
      exact ⟨_, both⟩

end Stencil.Template

namespace Stencil

open Artifact (ReadAs callSource readAs_call tagClose tagged)
open Template (Form)

/-! ## Captured arguments -/

/-- Both readings of brackets come to the same arguments in front of a parenthesis. -/
structure Agreed (args after : Text) : Prop where
  /-- No other slice of a balanced slot has a parenthesis behind it. -/
  only : ∀ earlier other behind, (Segment.capture .balanced).Admits earlier other →
    args ++ ')' :: after = other ++ ')' :: behind → other = args
  /-- The arguments are the first part of the line, and there is a second one. -/
  first : ∃ part parts,
    Text.splitTopLevel [')'] (restOfLine (args ++ ')' :: after)) = args :: part :: parts
  /-- No parenthesis in the arguments closes nothing. -/
  onePart : Text.splitTopLevel [')'] args = [args]

theorem agreed_of_balanced {args : Text} (h : (Segment.capture .balanced).Admits none args)
    (after : Text) : Agreed args after := by
  obtain ⟨feed, -, -⟩ := id h
  have line : restOfLine (args ++ ')' :: after) = args ++ ')' :: restOfLine after := by
    rw [restOfLine_append feed]
    rfl
  obtain ⟨part, parts, hp⟩ := List.exists_cons_of_ne_nil
    (Scan.split_ne_nil [')'] .start (restOfLine after))
  refine ⟨fun _ other behind ho he => ?_, ⟨part, parts, ?_⟩, splitTopLevel_balanced h⟩
  · exact (eq_of_balanced h ho he).symm
  · rw [line, split_balanced h]
    exact congrArg (args :: ·) hp

/-- Where the three slots match, the arguments are captured that the reader of artifacts finds too: they
are the only ones that end there, the first part of the line, and one part themselves. Every rule for a
call captures them so and writes them in the tag of the call, and unless they end the tag it is read as
this call. -/
theorem captured_arguments {front back : List Segment} {opening closing text : Text} {place : Nat}
    {hit : Match}
    (found : Pattern.matchAt ⟨front ++ (callSlots opening closing ++ back)⟩ text place = some hit) :
    ∃ before args after : Text, text = before ++ '(' :: (args ++ ')' :: after) ∧
      hit.captures[front.countP Segment.isCapture]? =
        some ⟨(before ++ ['(']).byteSize, (before ++ '(' :: args).byteSize⟩ ∧
      Agreed args after ∧
      ∀ operation,
        (∀ form, Form.operation? form = some operation →
          (∃ front back, form.segments = front ++ (callSlots [] [] ++ back) ∧
            front.countP Segment.isCapture = 0) ∧
          ∃ rule ∈ RuleTable.builtinRules, ∃ compiled, rule.compile = .ok compiled ∧
            compiled.pattern = form.pattern ∧
            ∀ whole more, ∃ rest, compiled.replacement.expand whole (args :: more) =
              tagged (callSource operation.name args) ++ rest) ∧
        (¬ tagClose <:+: args →
          ReadAs (tagged (callSource operation.name args)) (.call operation args.trim)) := by
  obtain ⟨before, args, after, cut, span, balanced⟩ := exists_arguments found
  have agreed := agreed_of_balanced balanced after
  refine ⟨before, args, after, cut, span, agreed, fun operation => ⟨fun form h => ?_, fun noEnd => ?_⟩⟩
  · obtain ⟨rule, builtin, hp, hr⟩ := form.exists_rule
    obtain ⟨slots, writes⟩ := Form.writes_call h
    have compiled : rule.compile = .ok ⟨form.pattern, form.replacement, form.highest_le⟩ := by
      simp only [Rule.compile, hp, hr, form.highest_le, ↓reduceDIte]
    exact ⟨slots, rule, builtin, _, compiled, rfl, fun whole => writes whole args⟩
  · exact readAs_call agreed.onePart balanced.1 noEnd operation

/-- A parenthesis in a string, a shielded mark, brackets in one another, and parentheses behind the end
of the call. -/
theorem captured_arguments_include :
    (Form.call .includeView).pattern.matchAt
        "é\n@include ( 'p)\\'', [1, (2)] ) ) x\n)".toList 3 = some ⟨⟨3, 33⟩, [⟨13, 31⟩]⟩ ∧
      ∃ args after, args = " 'p)\\'', [1, (2)] ".toList ∧ Agreed args after ∧
        Artifact.parse (tagged (callSource "layout.include".toList args) ++ ")".toList) =
          .ok [.call .includeView "'p)\\'', [1, (2)]".toList, .text ")".toList] := by
  have found : (Form.call .includeView).pattern.matchAt
      "é\n@include ( 'p)\\'', [1, (2)] ) ) x\n)".toList 3 = some ⟨⟨3, 33⟩, [⟨13, 31⟩]⟩ := by
    decide +kernel
  have slice : Text.IsSlice "é\n@include ( 'p)\\'', [1, (2)] ) ) x\n)".toList ⟨13, 31⟩
      " 'p)\\'', [1, (2)] ".toList :=
    ⟨"é\n@include (".toList, ") ) x\n)".toList, by decide, by decide, by decide⟩
  obtain ⟨before, args, after, cut, span, agreed, calls⟩ :=
    @captured_arguments [.literal "@include".toList, .blanks] [.blanks] [] [] _ 3 _ found
  have here : Text.IsSlice "é\n@include ( 'p)\\'', [1, (2)] ) ) x\n)".toList ⟨13, 31⟩ args := by
    obtain ⟨start, stop⟩ := Span.mk.inj (Option.some.inj span)
    exact ⟨before ++ ['('], ')' :: after, by simp [cut], start.symm, by simp [stop]⟩
  obtain rfl := here.unique slice
  obtain ⟨-, read⟩ := calls .includeView
  have noEnd : ¬ tagClose <:+: " 'p)\\'', [1, (2)] ".toList := by decide
  refine ⟨found, _, after, rfl, agreed, ((read noEnd).program ")".toList).trans ?_⟩
  rfl

end Stencil
