import Stencil.Proofs.Reading

/-!
# From a template to its program

A template is compiled and the artifact is read back. Proved here:

* `run_item` and `run_items`: on any stack of frames, the tags and texts of an item add the nodes of
  the item to the innermost frame, without the blanks that its neighbours take;
* `parse_written`: so the artifact of a valid template is read as the program of the template;
* `compile_parse`: the compiler and the reader agree on every valid template.
-/

namespace Stencil.Template

open Artifact

/-! ## Nodes on a stack -/

theorem push_append (a b : List Node) (stack : Stack) :
    Stack.push (a ++ b) stack = Stack.push b (Stack.push a stack) := by
  cases stack with
  | nil => rfl
  | cons frame frames => simp [Stack.push]

theorem push_nil (stack : Stack) : Stack.push [] stack = stack := by
  cases stack with
  | nil => rfl
  | cons frame frames => simp [Stack.push]

theorem push_ne_nil {stack : Stack} (h : stack ≠ []) (nodes : List Node) :
    stack.push nodes ≠ [] := by
  obtain ⟨frame, frames, rfl⟩ := List.exists_cons_of_ne_nil h
  exact List.cons_ne_nil _ _

theorem nodesAll_append (items others : List Item) :
    nodesAll (items ++ others) = nodesAll items ++ nodesAll others := by
  induction items with
  | nil => rfl
  | cons item items ih => simp [nodesAll, ih]

/-- A tag does to the stack what it means. -/
theorem step_tag {k : Token} (h : k.Valid) (stack : Stack) :
    stack.step (.tag (' ' :: k.statement ++ [' ']) 1) =
      match k.meaning with
      | .nodes nodes => .ok (stack.push nodes)
      | .startLoop iterable binding => .ok (⟨[], some ⟨iterable, binding, 1⟩⟩ :: stack)
      | .endLoop => stack.closeLoop 1 := by
  rw [Stack.step, Token.read h]
  cases k.meaning <;> rfl

/-- A tag is read before what is behind it. -/
theorem run_chunks_cons {k : Token} (ht : k.isText = false) {stack next : Stack}
    (hs : stack.step (.tag (' ' :: k.statement ++ [' ']) 1) = .ok next) (atStart : Bool)
    (ks : List Token) :
    stack.run (chunks atStart (k :: ks)) = next.run (chunks (k.takesBlanks Form.all) ks) := by
  rw [chunks_cons ht, Stack.run, hs]

/-! ## Items on a stack -/

/-- Items other than the end of a block start with a token that leaves the blanks in front of it. -/
theorem nextTakes_tokensAll {items : List Item} (hn : items ≠ []) (tail : List Token) :
    nextTakes Form.all (tokensAll items ++ tail) = false := by
  cases items with
  | nil => exact absurd rfl hn
  | cons item items => cases item <;> rfl

mutual

theorem run_item {inside : List Block} :
    ∀ {item : Item}, item.Valid inside → ∀ {stack : Stack}, stack ≠ [] → ∀ (atStart : Bool)
      (tail : List Token),
      stack.run (chunks atStart (item.tokens ++ tail)) =
        (stack.push (nodesAll (item.cropped atStart (nextTakes Form.all tail)))).run
          (chunks item.takesBlanks tail)
  | .text t, _, stack, _, atStart, tail => by
    show stack.run (consText (cut atStart (nextTakes Form.all tail) t) (chunks false tail)) = _
    rw [Item.cropped, consText]
    split
    · rw [nodesAll, push_nil]
      rfl
    · rfl
  | .echo before expr after escape, h, stack, _, atStart, tail => by
    have valid := Item.tokens_valid h (.echo before expr after escape) (by simp [Item.tokens])
    exact run_chunks_cons rfl (step_tag valid stack) atStart tail
  | .call operation args, h, stack, _, atStart, tail => by
    have valid := Item.tokens_valid h (.call operation args) (by simp [Item.tokens])
    have takes : (Token.call operation args).takesBlanks Form.all = true :=
      decide_eq_true (Form.mem_all _)
    have step := run_chunks_cons rfl (step_tag valid stack) atStart tail
    rw [takes] at step
    exact step
  | .block (.loop iterable binding) body, h, stack, hs, atStart, tail => by
    have start := Item.tokens_valid h (.start (.loop iterable binding)) (by simp [Item.tokens])
    have rest : AllValid (.loop :: inside) body := h.2.2
    have source : (Item.block (.loop iterable binding) body).tokens ++ tail =
        .start (.loop iterable binding) :: (tokensAll body ++ .stop .loop :: tail) := by
      simp [Item.tokens, Opening.block]
    obtain ⟨frame, frames, rfl⟩ := List.exists_cons_of_ne_nil hs
    rw [source, run_chunks_cons rfl (step_tag start _)]
    refine (run_items rest (List.cons_ne_nil _ _) false fun _ => rfl).trans ?_
    exact run_chunks_cons rfl (step_tag (k := .stop .loop) trivial _) false tail
  | .block (.region name) body, h, stack, hs, atStart, tail => by
    have start := Item.tokens_valid h (.start (.region name)) (by simp [Item.tokens])
    have rest : AllValid (.region :: inside) body := h.2.2
    have source : (Item.block (.region name) body).tokens ++ tail =
        .start (.region name) :: (tokensAll body ++ .stop .region :: tail) := by
      simp [Item.tokens, Opening.block]
    rw [source, run_chunks_cons rfl (step_tag start _)]
    refine (run_items rest (push_ne_nil hs _) false fun _ => rfl).trans ?_
    refine (run_chunks_cons rfl (step_tag (k := .stop .region) trivial _) false tail).trans ?_
    rw [← push_append, ← push_append, Item.cropped, nodesAll, nodesAll, List.append_nil]
    rfl

theorem run_items {inside : List Block} :
    ∀ {items : List Item}, AllValid inside items → ∀ {stack : Stack}, stack ≠ [] →
      ∀ (atStart : Bool) {tail : List Token}, (∀ a, chunks a tail = chunks false tail) →
      stack.run (chunks atStart (tokensAll items ++ tail)) =
        (stack.push (nodesAll (crop atStart (nextTakes Form.all tail) items))).run
          (chunks false tail)
  | [], _, stack, _, atStart, tail, ht => by
    rw [crop, nodesAll, push_nil]
    exact congrArg _ (ht atStart)
  | item :: items, h, stack, hs, atStart, tail, ht => by
    obtain ⟨valid, rest, -⟩ := h
    have next : nextTakes Form.all (tokensAll items ++ tail) =
        (nextTakes Form.all tail && items.isEmpty) := by
      cases items with
      | nil => simp [tokensAll]
      | cons other items => simp [nextTakes_tokensAll]
    rw [tokensAll, List.append_assoc, run_item valid hs, run_items rest (push_ne_nil hs _) _ ht,
      ← push_append, ← nodesAll_append, next, crop]

end

/-! ## Whole templates -/

/-- The artifact of a valid template is read as its program. -/
theorem parse_written {items : List Item} (h : AllValid [] items) :
    Artifact.parse (written Form.all false (tokensAll items)) =
      .ok (nodesAll (crop false false items)) := by
  have chunked : Artifact.split (written Form.all false (tokensAll items)) =
      .ok (chunks false (tokensAll items)) :=
    splitText_written (tokensAll_valid h) (tokensAll_spaced h) false (Or.inl rfl)
  have run : Stack.initial.run (chunks false (tokensAll items)) =
      .ok (Stack.initial.push (nodesAll (crop false false items))) := by
    have empty (a : Bool) : chunks a [] = chunks false [] := rfl
    have := run_items h (List.cons_ne_nil _ _ : Stack.initial ≠ []) false empty
    rw [List.append_nil] at this
    exact this
  rw [Artifact.parse, chunked]
  simp only [run]
  rfl

/-- The compiler and the reader agree on every valid template: the artifact is read as the nodes of
the template, but for the blanks that calls and ends of blocks take. -/
theorem compile_parse (items : List Item) (h : AllValid [] items) :
    ∃ artifact, RuleTable.builtin.compile (sourceAll items) = .ok artifact ∧
      Artifact.parse artifact = .ok (nodesAll (crop false false items)) :=
  ⟨_, compile_sourceAll h, parse_written h⟩

def greeting : List Item :=
  [.text "Hello ".toList, .echo [' '] "user['name'] | upper".toList [' '] true,
    .block (.loop "items".toList "key, item".toList)
      [.text " ".toList, .echo [] "item".toList [] false,
        .block (.region "'row'".toList) [.call .content "'cell'".toList, .text " done ".toList]]]

theorem compile_parse_greeting :
    AllValid [] greeting ∧
      ∃ artifact, RuleTable.builtin.compile (sourceAll greeting) = .ok artifact ∧
        Artifact.parse artifact = .ok
          [.text "Hello ".toList, .echo "user['name'] | upper".toList true,
            .loop "items".toList "key, item".toList
              [.text " ".toList, .echo "item".toList false, .call .startSection "'row'".toList,
                .call .content "'cell'".toList, .text "done".toList, .stopSection]] := by
  have valid : AllValid [] greeting := by decide +kernel
  obtain ⟨artifact, compiled, parsed⟩ := compile_parse greeting valid
  exact ⟨valid, artifact, compiled, parsed⟩

/-- A loop that has blanks behind calls and at the end of its body. -/
def blankedLoop : List Item :=
  [.block (.loop "xs".toList "x".toList)
    [.call .content "'a'".toList, .text " ".toList, .call .content "'b'".toList,
      .text " y ".toList]]

/-- The blanks that calls and ends of blocks take are in no node. -/
theorem parse_ne_nodesAll_blankedLoop :
    AllValid [] blankedLoop ∧
      ¬ ∃ artifact, RuleTable.builtin.compile (sourceAll blankedLoop) = .ok artifact ∧
        Artifact.parse artifact = .ok (nodesAll blankedLoop) := by
  have valid : AllValid [] blankedLoop := by decide +kernel
  refine ⟨valid, ?_⟩
  rintro ⟨artifact, compiled, parsed⟩
  rw [compile_sourceAll valid] at compiled
  obtain rfl := Except.ok.inj compiled
  rw [parse_written valid] at parsed
  have body : ([.call .content "'a'".toList, .call .content "'b'".toList, .text "y".toList] :
        List Node) =
      [.call .content "'a'".toList, .text " ".toList, .call .content "'b'".toList,
        .text " y ".toList] := (Node.loop.inj (List.cons.inj (Except.ok.inj parsed)).1).2.2
  exact absurd (congrArg List.length body) (by decide)

end Stencil.Template
