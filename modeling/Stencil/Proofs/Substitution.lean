import Mathlib.Data.List.Perm.Subperm
import Stencil.Proofs.RegionLookup

/-!
# Placing as substitution

A placeholder stands for the content of a region, so placing ought to be substitution; but regions
can refer to one another in circles, and then substitution has no end. Proved here:

* `steps_resolveIn`: placing, done fragment by fragment with a stack for the regions in progress,
  comes to its end whatever refers to what; no region is on the stack twice (`Steps.inProgress`), so
  the stack is never higher than there are regions;
* `Substitutes` is substitution without a guard. It comes to an end exactly when the fragments lead
  to no region that refers back to itself (`exists_substitutes_iff`);
* `resolve_substitutes`: placing always ends, goes over fragments one behind the other, and is
  substitution whenever that has an end.
-/

namespace Stencil

variable {regions : NameMap Region}

/-! ## Placing step by step -/

/-- A moment while fragments are placed. -/
structure Placing where
  written : Text
  /-- What is still to come of the innermost region in progress. -/
  rest : List Fragment
  /-- The regions in progress, the innermost first, each with what comes behind its placeholder. -/
  outer : List (Text × List Fragment)

namespace Placing

def start (fragments : List Fragment) : Placing := ⟨[], fragments, []⟩

def active (s : Placing) : List Text := s.outer.map Prod.fst

/-- Looks at the next fragment, or goes back to what comes behind the innermost region. -/
def step? (regions : NameMap Region) : Placing → Option Placing
  | ⟨_, [], []⟩ => none
  | ⟨written, [], (_, rest) :: outer⟩ => some ⟨written, rest, outer⟩
  | ⟨written, .text text :: rest, outer⟩ => some ⟨written ++ text, rest, outer⟩
  | ⟨written, .placeholder name :: rest, outer⟩ =>
    if (outer.map Prod.fst).contains name then some ⟨written, rest, outer⟩
    else
      match regions.find? name with
      | some region => some ⟨written, region.body, (name, rest) :: outer⟩
      | none => some ⟨written, rest, outer⟩

theorem step?_passed {written : Text} {name : Text} {rest : List Fragment}
    {outer : List (Text × List Fragment)}
    (h : name ∈ outer.map Prod.fst ∨ regions.find? name = none) :
    step? regions ⟨written, .placeholder name :: rest, outer⟩ = some ⟨written, rest, outer⟩ := by
  rw [step?]
  split
  · rfl
  · next hn => rw [h.resolve_left (mt List.contains_iff_mem.mpr hn)]

theorem step?_opened {written : Text} {name : Text} {region : Region} {rest : List Fragment}
    {outer : List (Text × List Fragment)} (hn : name ∉ outer.map Prod.fst)
    (hf : regions.find? name = some region) :
    step? regions ⟨written, .placeholder name :: rest, outer⟩ =
      some ⟨written, region.body, (name, rest) :: outer⟩ := by
  rw [step?, if_neg (mt List.contains_iff_mem.mp hn), hf]

/-- The regions in progress are known ones, and each is so once. -/
structure InProgress (regions : NameMap Region) (s : Placing) : Prop where
  nodup : s.active.Nodup
  known : ∀ name ∈ s.active, (regions.find? name).isSome

theorem InProgress.step {s t : Placing} (h : s.InProgress regions)
    (hs : s.step? regions = some t) : t.InProgress regions := by
  unfold step? at hs
  split at hs
  · cases hs
  · cases hs
    exact ⟨(List.nodup_cons.mp h.nodup).2, fun name hn => h.known name (List.mem_cons_of_mem _ hn)⟩
  · cases hs
    exact ⟨h.nodup, h.known⟩
  · next written name rest outer =>
    split at hs
    · cases hs
      exact ⟨h.nodup, h.known⟩
    · next hn =>
      split at hs
      · next region hf =>
        cases hs
        refine ⟨List.nodup_cons.mpr ⟨mt List.contains_iff_mem.mpr hn, h.nodup⟩, fun other ho => ?_⟩
        rcases List.mem_cons.mp ho with rfl | ho
        · simp [hf]
        · exact h.known other ho
      · cases hs
        exact ⟨h.nodup, h.known⟩

theorem InProgress.length_le {s : Placing} (h : s.InProgress regions) :
    s.outer.length ≤ regions.entries.length := by
  have names : s.active ⊆ regions.entries.map Prod.fst := by
    intro name hn
    obtain ⟨region, hf⟩ := Option.isSome_iff_exists.mp (h.known name hn)
    exact List.mem_map_of_mem (NameMap.mem_of_lookup hf)
  simpa [active] using (List.Nodup.subperm h.nodup names).length_le

end Placing

/-- One moment comes after another while placing goes on. -/
abbrev NameMap.Steps (regions : NameMap Region) : Placing → Placing → Prop :=
  Relation.ReflTransGen fun s t => s.step? regions = some t

theorem NameMap.Steps.inProgress {fragments : List Fragment} {s : Placing}
    (h : regions.Steps (.start fragments) s) : s.InProgress regions := by
  induction h with
  | refl => exact ⟨List.nodup_nil, by simp [Placing.active, Placing.start]⟩
  | tail _ step ih => exact ih.step step

/-- Fragments are placed before what comes behind them, and leave the regions in progress. -/
theorem steps_resolveIn (active : List Text) (fragments : List Fragment) :
    ∀ (written : Text) (rest : List Fragment) (outer : List (Text × List Fragment)),
      outer.map Prod.fst = active →
      regions.Steps ⟨written, fragments ++ rest, outer⟩
        ⟨written ++ resolveIn regions active fragments, rest, outer⟩ := by
  induction active, fragments using resolveIn_induction regions with
  | nil active =>
    intro written rest outer _
    rw [resolveIn_nil, List.append_nil]
    exact .refl
  | text active text behind ih =>
    intro written rest outer ha
    rw [resolveIn_text, ← List.append_assoc]
    exact .head rfl (ih (written ++ text) rest outer ha)
  | known active name region behind hn hf inside ih =>
    intro written rest outer ha
    subst ha
    -- The content is placed with its region on the stack, and then the region is taken off.
    have content := inside written [] ((name, behind ++ rest) :: outer) rfl
    rw [List.append_nil] at content
    rw [resolveIn_eq_placed, placed_eq hn hf, ← List.append_assoc]
    exact .head (Placing.step?_opened hn hf) (content.trans (.head rfl (ih _ rest outer rfl)))
  | other active name behind hn ih =>
    intro written rest outer ha
    subst ha
    have nothing : placed regions (outer.map Prod.fst) name = [] :=
      hn.elim placed_of_mem (placed_of_find?_eq_none _)
    rw [resolveIn_eq_placed, nothing]
    exact .head (Placing.step?_passed hn) (ih written rest outer rfl)

/-- Placing goes on to its end from every moment that it comes to. -/
theorem NameMap.Steps.steps_end {fragments : List Fragment} {s : Placing}
    (h : regions.Steps (.start fragments) s) :
    regions.Steps s ⟨resolveIn regions [] fragments, [], []⟩ := by
  have ending : regions.Steps ⟨[], fragments ++ [], []⟩ ⟨resolveIn regions [] fragments, [], []⟩ :=
    steps_resolveIn [] fragments [] [] [] rfl
  rw [List.append_nil] at ending
  have single : Relator.RightUnique fun s t : Placing => s.step? regions = some t :=
    fun s t u ht hu => Option.some.inj (ht.symm.trans hu)
  rcases Relation.ReflTransGen.total_of_right_unique single h ending with on | back
  · exact on
  · rcases back.cases_head with same | ⟨t, step, -⟩
    · exact same ▸ .refl
    · cases step

/-! ## Substitution -/

/-- The fragments refer to the region, directly or through others. -/
def NameMap.Leads (regions : NameMap Region) (fragments : List Fragment) (name : Text) : Prop :=
  ∃ first, .placeholder first ∈ fragments ∧ Relation.ReflTransGen regions.Refers first name

theorem NameMap.Leads.cons {fragments : List Fragment} {name : Text} (fragment : Fragment)
    (h : regions.Leads fragments name) : regions.Leads (fragment :: fragments) name := by
  obtain ⟨first, mem, way⟩ := h
  exact ⟨first, List.mem_cons_of_mem _ mem, way⟩

theorem NameMap.Leads.inside {fragments : List Fragment} {name target : Text} {region : Region}
    (found : regions.find? name = some region) (h : regions.Leads region.body target) :
    regions.Leads (.placeholder name :: fragments) target := by
  obtain ⟨first, mem, way⟩ := h
  exact ⟨name, List.mem_cons_self, .head ⟨region, found, mem⟩ way⟩

theorem leads_of_refersBack {name : Text} {region : Region}
    (found : regions.find? name = some region) (h : regions.RefersBack name) :
    regions.Leads region.body name := by
  obtain ⟨next, ⟨own, hown, mem⟩, way⟩ := Relation.TransGen.head'_iff.mp h
  obtain rfl : own = region := Option.some.inj (hown.symm.trans found)
  exact ⟨next, mem, way⟩

/-- A region to which a placeholder leads, and that refers back, is one to which the content of the
placeholder's region leads. -/
theorem leads_body {name target : Text} {region : Region}
    (found : regions.find? name = some region) (back : regions.RefersBack target)
    (way : Relation.ReflTransGen regions.Refers name target) :
    regions.Leads region.body target := by
  rcases way.cases_head with rfl | ⟨next, ⟨own, hown, mem⟩, rest⟩
  · exact leads_of_refersBack found back
  · obtain rfl : own = region := Option.some.inj (hown.symm.trans found)
    exact ⟨next, mem, rest⟩

/-- The fragments lead to no region that refers back to itself. -/
def NameMap.Acyclic (regions : NameMap Region) (fragments : List Fragment) : Prop :=
  ∀ name, regions.Leads fragments name → ¬ regions.RefersBack name

/-- Substitution: every placeholder gives the content of its region, in which the same is done, and
nothing when there is no such region. -/
inductive Substitutes (regions : NameMap Region) : List Fragment → Text → Prop
  | nil : Substitutes regions [] []
  | text {text rest out} (tail : Substitutes regions rest out) :
      Substitutes regions (.text text :: rest) (text ++ out)
  | unknown {name rest out} (missing : regions.find? name = none)
      (tail : Substitutes regions rest out) : Substitutes regions (.placeholder name :: rest) out
  | region {name region rest inner out} (found : regions.find? name = some region)
      (content : Substitutes regions region.body inner) (tail : Substitutes regions rest out) :
      Substitutes regions (.placeholder name :: rest) (inner ++ out)

theorem Substitutes.unique {fragments : List Fragment} {out other : Text}
    (h : Substitutes regions fragments out) (h' : Substitutes regions fragments other) :
    out = other := by
  induction h generalizing other with
  | nil => cases h'; rfl
  | text _ ih =>
    cases h' with
    | text tail => rw [ih tail]
  | unknown missing _ ih =>
    cases h' with
    | unknown _ tail => exact ih tail
    | region found _ _ => simp [missing] at found
  | region found _ _ inside ih =>
    cases h' with
    | unknown missing _ => simp [found] at missing
    | region found' content tail =>
      obtain rfl := Option.some.inj (found.symm.trans found')
      rw [inside content, ih tail]

/-- Substitution that comes to an end has met no region that refers back. -/
theorem Substitutes.acyclic {fragments : List Fragment} {out : Text}
    (h : Substitutes regions fragments out) : regions.Acyclic fragments := by
  induction h with
  | nil =>
    rintro name ⟨first, mem, -⟩
    cases mem
  | text _ ih =>
    rintro name ⟨first, mem, way⟩
    rcases List.mem_cons.mp mem with h | mem
    · cases h
    · exact ih name ⟨first, mem, way⟩
  | unknown missing _ ih =>
    rintro name ⟨first, mem, way⟩ back
    rcases List.mem_cons.mp mem with h | mem
    · cases h
      -- An unknown region refers to nothing, itself included.
      rcases way.cases_head with rfl | ⟨next, ⟨own, found, -⟩, -⟩
      · obtain ⟨next, ⟨own, found, -⟩, -⟩ := Relation.TransGen.head'_iff.mp back
        simp [missing] at found
      · simp [missing] at found
    · exact ih name ⟨first, mem, way⟩ back
  | region found _ _ inside ih =>
    rintro name ⟨first, mem, way⟩ back
    rcases List.mem_cons.mp mem with h | mem
    · cases h
      exact inside name (leads_body found back way) back
    · exact ih name ⟨first, mem, way⟩ back

/-- Where nothing refers back, a region in progress is never come to. -/
theorem substitutes_resolveIn (active : List Text) (fragments : List Fragment) :
    regions.Acyclic fragments → (∀ name ∈ active, ¬ regions.Leads fragments name) →
      Substitutes regions fragments (resolveIn regions active fragments) := by
  induction active, fragments using resolveIn_induction regions with
  | nil active =>
    intro _ _
    rw [resolveIn_nil]
    exact .nil
  | text active text rest ih =>
    intro acyclic fresh
    rw [resolveIn_text]
    exact .text (ih (fun name h => acyclic name (h.cons _))
      fun name hn h => fresh name hn (h.cons _))
  | known active name region rest hn hf inside ih =>
    intro acyclic fresh
    have tail := ih (fun other h => acyclic other (h.cons _))
      fun other ho h => fresh other ho (h.cons _)
    have apart : ¬ regions.RefersBack name := acyclic name ⟨name, List.mem_cons_self, .refl⟩
    have content := inside (fun other h => acyclic other (h.inside hf)) fun other ho h => by
      rcases List.mem_cons.mp ho with rfl | ho
      · obtain ⟨first, mem, way⟩ := h
        exact apart (.head' ⟨region, hf, mem⟩ way)
      · exact fresh other ho (h.inside hf)
    rw [resolveIn_eq_placed, placed_eq hn hf]
    exact .region hf content tail
  | other active name rest hn ih =>
    intro acyclic fresh
    have missing : regions.find? name = none :=
      hn.resolve_left fun ha => fresh name ha ⟨name, List.mem_cons_self, .refl⟩
    rw [resolveIn_eq_placed, placed_of_find?_eq_none _ missing, List.nil_append]
    exact .unknown missing (ih (fun other h => acyclic other (h.cons _))
      fun other ho h => fresh other ho (h.cons _))

/-- Substitution comes to an end exactly when no region refers back that it comes to. -/
theorem exists_substitutes_iff {fragments : List Fragment} :
    (∃ out, Substitutes regions fragments out) ↔ regions.Acyclic fragments :=
  ⟨fun ⟨_, h⟩ => h.acyclic, fun h => ⟨_, substitutes_resolveIn [] fragments h (by simp)⟩⟩

theorem Substitutes.eq_resolveIn {fragments : List Fragment} {out : Text}
    (h : Substitutes regions fragments out) : out = resolveIn regions [] fragments :=
  h.unique (substitutes_resolveIn [] fragments h.acyclic (by simp))

/-! ## Placing and substitution -/

namespace Layout

/-- What a fragment gives by itself. -/
def contribution (l : Layout) : Fragment → Text
  | .text text => text
  | .placeholder name =>
    match l.regions.find? name with
    | some region => l.resolve region.body
    | none => []

theorem eq_flatMap_of_substitutes {l : Layout} {fragments : List Fragment} {out : Text}
    (h : Substitutes l.regions fragments out) : out = fragments.flatMap l.contribution := by
  induction h with
  | nil => rfl
  | text _ ih => rw [List.flatMap_cons, ← ih]; rfl
  | unknown missing _ ih => simp [contribution, missing, ← ih]
  | region found content _ _ ih =>
    rw [List.flatMap_cons, ← ih]
    simp [contribution, found, resolve, ← content.eq_resolveIn]

/-- Placing comes to its end from every moment on, with every region in progress once at most, so
that there are never more in progress than there are regions. It goes over fragments one behind the
other. When the fragments lead to no region that refers back to itself, it is substitution: every
placeholder gives all that the content of its region gives, or nothing without such a region. -/
theorem resolve_substitutes (l : Layout) (fragments more : List Fragment) :
    (∀ s, l.regions.Steps (.start fragments) s →
        l.regions.Steps s ⟨l.resolve fragments, [], []⟩ ∧ s.active.Nodup ∧
          s.outer.length ≤ l.regions.entries.length) ∧
      Placing.step? l.regions ⟨l.resolve fragments, [], []⟩ = none ∧
      l.resolve (fragments ++ more) = l.resolve fragments ++ l.resolve more ∧
      (l.regions.Acyclic fragments →
        Substitutes l.regions fragments (l.resolve fragments) ∧
          l.resolve fragments = fragments.flatMap l.contribution) := by
  refine ⟨fun s hs => ?_, rfl, resolveIn_append l.regions [] fragments more, fun acyclic => ?_⟩
  · exact ⟨hs.steps_end, hs.inProgress.nodup, hs.inProgress.length_le⟩
  · have substitutes := substitutes_resolveIn [] fragments acyclic (by simp)
    exact ⟨substitutes, eq_flatMap_of_substitutes substitutes⟩

def encircled : Layout :=
  (((chained.openSection ['c']).writeText ['z']).writePlaceholder ['c']).closeSection

/-- A region is placed again where it has been placed before, and placing ends also where a region
refers back to itself. -/
theorem resolve_substitutes_encircled :
    encircled.regions.Acyclic [.placeholder ['b'], .placeholder ['a'], .placeholder ['b']] ∧
      encircled.resolve [.placeholder ['b'], .placeholder ['a'], .placeholder ['b']] =
        ['y', 'x', 'y', 'y'] ∧
      encircled.regions.RefersBack ['c'] ∧
      encircled.regions.Steps (.start [.placeholder ['c']]) ⟨['z'], [], []⟩ := by
  have first : encircled.regions.find? ['a'] = some ⟨0, [.text ['x'], .placeholder ['b']]⟩ := rfl
  have second : encircled.regions.find? ['b'] = some ⟨0, [.text ['y']]⟩ := rfl
  have third : encircled.regions.find? ['c'] = some ⟨0, [.text ['z'], .placeholder ['c']]⟩ := rfl
  have inner : Substitutes encircled.regions [.text ['y']] ['y'] := .text .nil
  have outer : Substitutes encircled.regions [.text ['x'], .placeholder ['b']] ['x', 'y'] :=
    .text (.region second inner .nil)
  have all : Substitutes encircled.regions
      [.placeholder ['b'], .placeholder ['a'], .placeholder ['b']] ['y', 'x', 'y', 'y'] :=
    .region second inner (.region first outer (.region second inner .nil))
  have circle : encircled.resolve [.placeholder ['c']] = ['z'] := by
    simp [resolve_placeholder _ third, resolveIn_eq_placed, placed_of_mem]
  obtain ⟨-, -, -, substituted⟩ :=
    resolve_substitutes encircled [.placeholder ['b'], .placeholder ['a'], .placeholder ['b']] []
  obtain ⟨ends, -⟩ := resolve_substitutes encircled [.placeholder ['c']] []
  refine ⟨all.acyclic, (substituted all.acyclic).1.unique all, .single ⟨_, third, by simp⟩, ?_⟩
  exact circle ▸ (ends _ .refl).1

end Layout

end Stencil
