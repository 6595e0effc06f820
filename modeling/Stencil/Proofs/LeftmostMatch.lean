import Stencil.Proofs.OffsetMatch

/-!
# The leftmost match

`findAt` goes from place to place and tries the pattern where its opening literal stands. By byte
offsets the search can leave out the places in between: `findByOffset` looks for the next place of the
opening literal, tries the pattern there, and goes on behind the next character.

Proved here, for every pattern, text and offset: `findAt_leftmost`, both find the match at the smallest
offset between characters that has one, or nothing when there is none. `jump_eq` says that a jump
leaves out no match, `find_leftmost` that the walk from place to place stops at the first one.
-/

namespace Stencil

/-! ## The search from an offset -/

def Text.nextCut (text : Text) (offset : Nat) : Except BadOffset (Option Nat) :=
  (text.sliceFrom offset).map fun after => after.head?.map fun c => offset + c.utf8Size

theorem exists_of_map_eq_ok {ε α β : Type} {x : Except ε α} {f : α → β} {b : β}
    (h : x.map f = .ok b) : ∃ a, x = .ok a ∧ f a = b := by
  cases x with
  | error fault => cases h
  | ok a => exact ⟨a, rfl, Except.ok.inj h⟩

theorem error_of_map_eq_error {ε α β : Type} {x : Except ε α} {f : α → β} {e : ε}
    (h : x.map f = .error e) : x = .error e := by
  cases x with
  | ok a => cases h
  | error other =>
    cases h
    rfl

theorem Text.lt_of_nextCut {text : Text} {offset next : Nat}
    (h : text.nextCut offset = .ok (some next)) : offset < next := by
  obtain ⟨after, -, hc⟩ := exists_of_map_eq_ok h
  obtain ⟨c, -, rfl⟩ := Option.map_eq_some_iff.mp hc
  have := utf8Size_pos c
  omega

namespace Pattern

/-- The next place at which the pattern is tried: where its opening literal stands next. -/
def jump (p : Pattern) (text : Text) (start : Nat) : Except BadOffset (Option Nat) :=
  match p.segments with
  | .literal opening :: _ =>
    (text.sliceFrom start).map fun after =>
      (Text.cut? opening after).map fun (skipped, _) => start + skipped.byteSize
  | _ => .ok (some start)

theorem le_of_jump {p : Pattern} {text : Text} {start place : Nat}
    (h : p.jump text start = .ok (some place)) : start ≤ place := by
  unfold jump at h
  split at h
  · obtain ⟨after, -, hc⟩ := exists_of_map_eq_ok h
    obtain ⟨parts, -, rfl⟩ := Option.map_eq_some_iff.mp hc
    exact Nat.le_add_right _ _
  · obtain rfl := Option.some.inj (Except.ok.inj h)
    exact Nat.le_refl _

/-- The leftmost match from an offset on. -/
def findByOffset (p : Pattern) (text : Text) (start : Nat) : Except BadOffset (Option Match) :=
  if start ≤ text.byteSize then
    match _hj : p.jump text start with
    | .error fault => .error fault
    | .ok none => .ok none
    | .ok (some place) =>
      match p.matchByOffset text place with
      | .error fault => .error fault
      | .ok (some found) => .ok (some found)
      | .ok none =>
        match _hn : text.nextCut place with
        | .error fault => .error fault
        | .ok none => .ok none
        | .ok (some next) => p.findByOffset text next
  else .ok none
termination_by text.byteSize + 1 - start
decreasing_by
  have := le_of_jump _hj
  have := Text.lt_of_nextCut _hn
  omega

end Pattern

/-! ## The jump to the opening literal -/

/-- The same match in a text with more in front. -/
def Found.behind (skipped : Text) (found : Found) : Found :=
  { found with before := skipped ++ found.before }

namespace Pattern

variable (p : Pattern)

theorem toMatch_behind (before skipped : Text) (found : Found) :
    p.toMatch before.byteSize (found.behind skipped) =
      p.toMatch (before ++ skipped).byteSize found := by
  simp [toMatch, Found.behind, Found.whole, Text.byteSize_append, Nat.add_assoc]

/-- Places without a match are passed over. -/
theorem find_pass (skipped rest : Text) (earlier : Option Char)
    (h : ∀ a c b, skipped = a ++ c :: b → ∀ earlier, p.matchHere earlier (c :: b ++ rest) = none) :
    p.find earlier (skipped ++ rest) =
      (p.find (Text.lastOr earlier skipped) rest).map (Found.behind skipped) := by
  induction skipped generalizing earlier with
  | nil =>
    have same : Found.behind [] = id := rfl
    rw [same, Option.map_id, id]
    rfl
  | cons c skipped ih =>
    have here := h [] c skipped rfl earlier
    have later := ih (some c) fun a d b hab => h (c :: a) d b (by rw [hab, List.cons_append])
    rw [List.cons_append] at here ⊢
    rw [find_cons, here, later, Text.lastOr_cons, Option.map_map]
    rfl

theorem find_eq_none {text : Text} (earlier : Option Char)
    (h : ∀ before after, text = before ++ after → ∀ earlier, p.matchHere earlier after = none) :
    p.find earlier text = none := by
  have pass := p.find_pass text [] earlier fun a c b hab earlier =>
    h a (c :: b ++ []) (by rw [hab, List.append_nil]) earlier
  rw [List.append_nil, find_nil, h text [] (List.append_nil _).symm] at pass
  exact pass

/-- The jump leaves out no place that has a match. -/
theorem jump_eq (before after : Text) :
    p.jump (before ++ after) before.byteSize = .ok none ∧ p.find before.getLast? after = none ∨
      ∃ skipped rest, after = skipped ++ rest ∧
        p.jump (before ++ after) before.byteSize = .ok (some (before ++ skipped).byteSize) ∧
        p.find before.getLast? after =
          (p.find (before ++ skipped).getLast? rest).map (Found.behind skipped) := by
  have cut := Text.sliceFrom_byteSize before after
  have missing {opening : Text} {segments : List Segment} (hs : p.segments = .literal opening :: segments)
      {text : Text} (absent : ¬ opening <+: text) (earlier : Option Char) :
      p.matchHere earlier text = none := by
    rw [matchHere, hs, matchSlices_eq_none_of_not_prefix absent, Option.map_none]
  unfold jump
  split
  · next opening segments hs =>
    cases hc : Text.cut? opening after with
    | none =>
      refine Or.inl ⟨by simp [cut, hc, Except.map], ?_⟩
      exact p.find_eq_none _ fun a b hab =>
        missing hs (Text.not_prefix_of_cut?_eq_none hc a b hab)
    | some parts =>
      obtain ⟨skipped, rest⟩ := parts
      obtain ⟨same, absent⟩ := Text.eq_append_of_cut? hc
      refine Or.inr ⟨skipped, opening ++ rest, same, ?_, ?_⟩
      · simp [cut, hc, Except.map, Text.byteSize_append]
      · rw [same, p.find_pass _ _ _ fun a c b hab => missing hs (absent a c b hab),
          Text.lastOr_getLast?]
  · refine Or.inr ⟨[], after, rfl, by rw [List.append_nil], ?_⟩
    have pass := p.find_pass [] after before.getLast? (by simp)
    simpa [Text.lastOr] using pass

theorem nextCut_eq (before after : Text) :
    (before ++ after).nextCut before.byteSize =
      .ok (after.head?.map fun c => (before ++ [c]).byteSize) := by
  rw [Text.nextCut, Text.sliceFrom_byteSize]
  cases after <;> simp [Except.map, Text.byteSize_append, Text.byteSize]

/-- One round of the search behind a jump. -/
theorem findByOffset_jump {text : Text} {start place : Nat} (within : start ≤ text.byteSize)
    (hj : p.jump text start = .ok (some place)) :
    p.findByOffset text start =
      (p.matchByOffset text place).bind fun tried =>
        match tried with
        | some found => .ok (some found)
        | none => (text.nextCut place).bind fun next =>
          match next with
          | some next => p.findByOffset text next
          | none => .ok none := by
  rw [findByOffset, if_pos within]
  split
  · next h => simp [hj] at h
  · next h => simp [hj] at h
  · next other h =>
    obtain rfl : place = other := by simpa [hj] using h
    cases p.matchByOffset text place with
    | error fault => rfl
    | ok tried =>
      cases tried with
      | some found => rfl
      | none =>
        simp only [Except.bind]
        split
        · next hn => simp [hn]
        · next hn => simp [hn]
        · next hn => simp [hn]

/-- From a place between characters no cut fails, and the search by offsets finds the leftmost
match. -/
theorem findByOffset_eq (before after : Text) :
    p.findByOffset (before ++ after) before.byteSize =
      .ok ((p.find before.getLast? after).map (p.toMatch before.byteSize)) := by
  induction hl : after.length using Nat.strong_induction_on generalizing before after with
  | _ length ih =>
    have within : before.byteSize ≤ (before ++ after).byteSize :=
      (Text.isBoundary_byteSize before after).le
    rcases p.jump_eq before after with ⟨hj, missing⟩ | ⟨skipped, rest, rfl, hj, found⟩
    · rw [findByOffset, if_pos within, missing]
      split
      · next h => simp [hj] at h
      · rfl
      · next h => simp [hj] at h
    · have tried := p.matchByOffset_eq (before ++ skipped) rest
      have next := nextCut_eq (before ++ skipped) rest
      rw [List.append_assoc] at tried next
      rw [p.findByOffset_jump within hj, tried, found]
      cases rest with
      | nil =>
        rw [find_nil, next]
        cases p.matchHere (before ++ skipped).getLast? [] with
        | some here => exact congrArg (fun found => Except.ok (some found)) (p.toMatch_behind ..).symm
        | none => rfl
      | cons c rest =>
        rw [find_cons, next]
        cases p.matchHere (before ++ skipped).getLast? (c :: rest) with
        | some here => exact congrArg (fun found => Except.ok (some found)) (p.toMatch_behind ..).symm
        | none =>
          have shorter : rest.length < length := by
            rw [← hl, List.length_append, List.length_cons]
            omega
          have goesOn := ih rest.length shorter (before ++ skipped ++ [c]) rest rfl
          rw [List.getLast?_concat] at goesOn
          have same : before ++ skipped ++ [c] ++ rest = before ++ (skipped ++ c :: rest) := by simp
          rw [same] at goesOn
          refine goesOn.trans ?_
          cases p.find (some c) rest with
          | none => rfl
          | some later =>
            refine congrArg (fun found => Except.ok (some found)) ?_
            rw [← toMatch_behind, ← toMatch_behind]
            rfl

/-- From a place between characters the search by offsets answers what the walk from place to place
does. -/
theorem findByOffset_eq_findAt {text : Text} {offset : Nat} (h : text.IsBoundary offset) :
    p.findByOffset text offset = .ok (p.findAt text offset) := by
  obtain ⟨before, after, rfl, rfl⟩ := h
  rw [findByOffset_eq, p.findAt_byteSize rfl]

/-! ## The leftmost place with a match -/

/-- A match at a place from an offset on, with no match at any place before. -/
structure Leftmost (text : Text) (offset place : Nat) (found : Match) : Prop where
  boundary : text.IsBoundary place
  le : offset ≤ place
  here : p.matchAt text place = some found
  before : ∀ other, text.IsBoundary other → offset ≤ other → other < place →
    p.matchAt text other = none

variable {p} in
theorem Leftmost.unique {text : Text} {offset place other : Nat} {found found' : Match}
    (h : p.Leftmost text offset place found) (ho : p.Leftmost text offset other found') :
    found = found' := by
  have apart {a b : Nat} {f g : Match} (ha : p.Leftmost text offset a f)
      (hb : p.Leftmost text offset b g) : ¬ a < b := by
    intro hlt
    have := hb.before a ha.boundary ha.le hlt
    simp [ha.here] at this
  obtain rfl : place = other := by
    have := apart h ho
    have := apart ho h
    omega
  exact Option.some.inj (h.here.symm.trans ho.here)

theorem matchAt_byteSize (before after : Text) :
    p.matchAt (before ++ after) before.byteSize =
      (p.matchHere before.getLast? after).map (p.toMatch before.byteSize) := by
  simp only [matchAt, Text.splitAtByte_byteSize, Option.bind_eq_bind, Option.bind_some]
  cases p.matchHere before.getLast? after <;> rfl

/-- The next place behind a place is behind the next character. -/
theorem boundary_cases {before rest : Text} {c : Char} {place : Nat}
    (h : (before ++ c :: rest).IsBoundary place) (le : before.byteSize ≤ place) :
    place = before.byteSize ∨ (before ++ [c]).byteSize ≤ place := by
  obtain ⟨front, behind, same, rfl⟩ := h
  rcases Text.prefix_total same with ⟨u, rfl, hu⟩ | ⟨u, hu, -⟩
  · cases u with
    | nil => exact Or.inl (by rw [List.append_nil])
    | cons d u =>
      obtain ⟨rfl, -⟩ := List.cons.inj hu
      right
      simp only [Text.byteSize_append, Text.byteSize]
      omega
  · rw [hu, Text.byteSize_append] at le
    left
    rw [hu, Text.byteSize_append]
    omega

theorem leftmost_here {before after : Text} {found : Found}
    (h : p.matchHere before.getLast? after = some found) :
    p.Leftmost (before ++ after) before.byteSize before.byteSize
      (p.toMatch before.byteSize found) where
  boundary := Text.isBoundary_byteSize before after
  le := Nat.le_refl _
  here := by rw [matchAt_byteSize, h]; rfl
  before := by
    intro other _ le lt
    omega

/-- The search tries one place after the other. -/
theorem find_leftmost (before after : Text) :
    match p.find before.getLast? after with
    | some found =>
      ∃ place, p.Leftmost (before ++ after) before.byteSize place
        (p.toMatch before.byteSize found)
    | none => ∀ place, (before ++ after).IsBoundary place → before.byteSize ≤ place →
        p.matchAt (before ++ after) place = none := by
  induction after generalizing before with
  | nil =>
    rw [find_nil]
    cases hm : p.matchHere before.getLast? [] with
    | some found => exact ⟨_, p.leftmost_here hm⟩
    | none =>
      intro place boundary le
      have ge := boundary.le
      rw [List.append_nil] at ge
      obtain rfl : place = before.byteSize := Nat.le_antisymm ge le
      rw [matchAt_byteSize, hm]
      rfl
  | cons c rest ih =>
    rw [find_cons]
    cases hm : p.matchHere before.getLast? (c :: rest) with
    | some found => exact ⟨_, p.leftmost_here hm⟩
    | none =>
      have here : p.matchAt (before ++ c :: rest) before.byteSize = none := by
        rw [matchAt_byteSize, hm]
        rfl
      have later := ih (before ++ [c])
      rw [List.getLast?_concat, List.append_assoc, List.singleton_append] at later
      cases hf : p.find (some c) rest with
      | none =>
        rw [hf] at later
        intro place boundary le
        rcases boundary_cases boundary le with rfl | behind
        · exact here
        · exact later place boundary behind
      | some found =>
        rw [hf] at later
        obtain ⟨place, boundary, le, found', none⟩ := later
        rw [← toMatch_behind] at found'
        have farther : before.byteSize ≤ (before ++ [c]).byteSize :=
          Nat.le.intro (Text.byteSize_append ..).symm
        refine ⟨place, boundary, farther.trans le, found', fun other ho hle hlt => ?_⟩
        rcases boundary_cases ho hle with rfl | behind
        · exact here
        · exact none other ho behind hlt

/-- What a search from a place between characters answers. -/
theorem findAt_first {text : Text} {offset : Nat} (h : text.IsBoundary offset) :
    match p.findAt text offset with
    | some found => ∃ place, p.Leftmost text offset place found
    | none => ∀ place, text.IsBoundary place → offset ≤ place → p.matchAt text place = none := by
  obtain ⟨before, after, rfl, rfl⟩ := h
  have leftmost := p.find_leftmost before after
  rw [p.findAt_byteSize rfl]
  cases hf : p.find before.getLast? after with
  | none => rwa [hf] at leftmost
  | some found => rwa [hf] at leftmost

theorem exists_leftmost_of_findAt {text : Text} {offset : Nat} {found : Match}
    (h : p.findAt text offset = some found) : ∃ place, p.Leftmost text offset place found := by
  by_cases boundary : text.IsBoundary offset
  · have first := p.findAt_first boundary
    rwa [h] at first
  · simp [findAt, Text.splitAtByte_eq_none boundary] at h

/-- A search that finds nothing leaves no place with a match. -/
theorem matchAt_eq_none_of_find {text : Text} (h : p.find none text = none) (place : Nat) :
    p.matchAt text place = none := by
  have nowhere := p.find_leftmost [] text
  rw [List.getLast?_nil, h, List.nil_append] at nowhere
  by_cases boundary : text.IsBoundary place
  · exact nowhere place boundary (Nat.zero_le _)
  · simp [matchAt, Text.splitAtByte_eq_none boundary]

/-- Searching from an offset answers the match at the smallest offset between characters that has one,
and nothing when no offset from there on has one. The search that jumps to the next place of the opening
literal does the same: it comes to an end, cuts the text at no bad offset, leaves out no match and
answers no later one. -/
theorem findAt_leftmost (text : Text) (offset : Nat)
    (h : text.IsBoundary offset ∨ text.byteSize < offset) :
    (∀ found, p.findAt text offset = some found ↔
        ∃ place, p.Leftmost text offset place found) ∧
      (p.findAt text offset = none ↔
        ∀ place, text.IsBoundary place → offset ≤ place → p.matchAt text place = none) ∧
      p.findByOffset text offset = .ok (p.findAt text offset) := by
  rcases h with boundary | beyond
  · have first := p.findAt_first boundary
    rw [p.findByOffset_eq_findAt boundary]
    cases hf : p.findAt text offset with
    | none =>
      rw [hf] at first
      refine ⟨fun found => ?_, by simpa using first, rfl⟩
      simp only [reduceCtorEq, false_iff]
      rintro ⟨place, leftmost⟩
      have := first place leftmost.boundary leftmost.le
      simp [leftmost.here] at this
    | some found =>
      rw [hf] at first
      obtain ⟨place, leftmost⟩ := first
      refine ⟨fun other => ?_, ?_, rfl⟩
      · constructor
        · intro same
          obtain rfl := Option.some.inj same
          exact ⟨place, leftmost⟩
        · rintro ⟨place', leftmost'⟩
          exact congrArg some (leftmost.unique leftmost')
      · simp only [reduceCtorEq, false_iff]
        intro none
        have := none place leftmost.boundary leftmost.le
        simp [leftmost.here] at this
  · have nothing {place : Nat} (boundary : text.IsBoundary place) : ¬ offset ≤ place := by
      have := boundary.le
      omega
    have missing : text.splitAtByte offset = none :=
      Text.splitAtByte_eq_none fun boundary => nothing boundary (Nat.le_refl offset)
    have search : p.findAt text offset = none := by simp [findAt, missing]
    rw [search]
    refine ⟨fun found => ?_, ?_, ?_⟩
    · simp only [reduceCtorEq, false_iff]
      rintro ⟨place, first⟩
      exact nothing first.boundary first.le
    · simp only [true_iff]
      exact fun place boundary le => absurd le (nothing boundary)
    · rw [findByOffset, if_neg (Nat.not_le.mpr beyond)]

/-- Behind a character of two bytes the literal stands twice, the second time over the end of the first,
and only there the blanks and the letter follow. -/
theorem findAt_leftmost_overlapping :
    let p : Pattern := ⟨[.literal "aa".toList, .blanks, .literal "b".toList]⟩
    let text : Text := "éaaa b".toList
    Text.IsBoundary text 0 ∧ p.findAt text 0 = some ⟨⟨3, 7⟩, []⟩ ∧
      (∃ place, p.Leftmost text 0 place ⟨⟨3, 7⟩, []⟩) ∧
      p.findByOffset text 0 = .ok (some ⟨⟨3, 7⟩, []⟩) ∧
      text.byteSize < 9 ∧ p.findAt text 9 = none ∧ p.findByOffset text 9 = .ok none := by
  intro p text
  have boundary : Text.IsBoundary text 0 := ⟨[], text, rfl, rfl⟩
  have found : p.findAt text 0 = some ⟨⟨3, 7⟩, []⟩ := by decide +kernel
  have beyond : text.byteSize < 9 := by decide +kernel
  have missing : p.findAt text 9 = none := by decide +kernel
  obtain ⟨leftmost, -, same⟩ := p.findAt_leftmost text 0 (Or.inl boundary)
  obtain ⟨-, -, none⟩ := p.findAt_leftmost text 9 (Or.inr beyond)
  rw [found] at same
  rw [missing] at none
  exact ⟨boundary, found, (leftmost _).mp found, same, beyond, missing, none⟩

end Pattern

end Stencil
