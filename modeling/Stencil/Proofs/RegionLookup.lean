import Mathlib.Logic.Relation
import Stencil.Proofs.LayoutChain

/-!
# Looking up a region and placing it

The text of a region can be asked for, and a placeholder for the region is replaced by a text. The
look-up starts with no region in progress, the placeholder with the region itself. Proved here:

* `resolveIn_sublist`: with more regions in progress, less is placed;
* `Comes` says that a placeholder of a region is come to while other regions are placed, each once
  at most; `comes_iff_refersBack`: from the content of the region itself that is so exactly when the
  region refers back to itself, directly or through others;
* `region_placeholder`: the look-up and the placeholder give the same text when the region does not
  refer back to itself, and in no other case when there is text in the region.
-/

namespace Stencil

variable {regions : NameMap Region}

/-! ## Placing fragments -/

/-- What a placeholder is replaced by. -/
def placed (regions : NameMap Region) (active : List Text) (name : Text) : Text :=
  resolveIn regions active [.placeholder name]

theorem resolveIn_eq_placed (active : List Text) (name : Text) (rest : List Fragment) :
    resolveIn regions active (.placeholder name :: rest) =
      placed regions active name ++ resolveIn regions active rest :=
  resolveIn_append regions active [.placeholder name] rest

theorem placed_of_mem {active : List Text} {name : Text} (h : name ∈ active) :
    placed regions active name = [] := by
  simp [placed, resolveIn_placeholder, h]

theorem placed_eq {active : List Text} {name : Text} {region : Region} (h : name ∉ active)
    (hf : regions.find? name = some region) :
    placed regions active name = resolveIn regions (name :: active) region.body := by
  simp [placed, resolveIn_placeholder, h, hf]

theorem placed_of_find?_eq_none (active : List Text) {name : Text}
    (hf : regions.find? name = none) : placed regions active name = [] := by
  simp [placed, resolveIn_placeholder, hf]

/-- Every placement is by the rules above, so what holds of them holds of every text that is placed.
`active` says which regions are in progress. -/
theorem resolveIn_induction (regions : NameMap Region) {p : List Text → List Fragment → Prop}
    (nil : ∀ active, p active [])
    (text : ∀ active text rest, p active rest → p active (.text text :: rest))
    (known : ∀ active name region rest, name ∉ active → regions.find? name = some region →
      p (name :: active) region.body → p active rest → p active (.placeholder name :: rest))
    (other : ∀ active name rest, (name ∈ active ∨ regions.find? name = none) → p active rest →
      p active (.placeholder name :: rest)) :
    ∀ active fragments, p active fragments := by
  intro active fragments
  induction active, fragments using resolveIn.induct regions with
  | case1 active => exact nil active
  | case2 active t rest ih => exact text active t rest ih
  | case3 active name rest inside ih =>
    by_cases hn : name ∈ active
    · exact other active name rest (Or.inl hn) ih
    · cases hf : regions.find? name with
      | none => exact other active name rest (Or.inr hf) ih
      | some region => exact known active name region rest hn hf (inside hn region hf) ih

/-! ## Regions in progress -/

/-- With more regions in progress, less is placed. -/
theorem resolveIn_sublist {active : List Text} {fragments : List Fragment} :
    ∀ {more : List Text}, active ⊆ more →
      (resolveIn regions more fragments).Sublist (resolveIn regions active fragments) := by
  induction active, fragments using resolveIn_induction regions with
  | nil active => simp
  | text active t rest ih =>
    intro more h
    rw [resolveIn_text, resolveIn_text]
    exact (List.Sublist.refl t).append (ih h)
  | known active name region rest hn hf inside ih =>
    intro more h
    rw [resolveIn_eq_placed, resolveIn_eq_placed, placed_eq hn hf]
    refine List.Sublist.append ?_ (ih h)
    by_cases hm : name ∈ more
    · rw [placed_of_mem hm]
      exact List.nil_sublist _
    · rw [placed_eq hm hf]
      exact inside (List.cons_subset_cons name h)
  | other active name rest hn ih =>
    intro more h
    rw [resolveIn_eq_placed, resolveIn_eq_placed]
    refine List.Sublist.append ?_ (ih h)
    rcases hn with hn | hf
    · rw [placed_of_mem hn, placed_of_mem (h hn)]
    · rw [placed_of_find?_eq_none _ hf, placed_of_find?_eq_none _ hf]

/-- While the fragments are placed, a placeholder of `target` is come to. The regions between are
placed one inside another, so each at most once. -/
inductive Comes (regions : NameMap Region) (target : Text) : List Text → List Fragment → Prop
  | here {active : List Text} {fragments : List Fragment} (fresh : target ∉ active)
      (mem : .placeholder target ∈ fragments) : Comes regions target active fragments
  | through {active : List Text} {fragments : List Fragment} {name : Text} {region : Region}
      (fresh : name ∉ active) (mem : .placeholder name ∈ fragments)
      (found : regions.find? name = some region)
      (inside : Comes regions target (name :: active) region.body) :
      Comes regions target active fragments

theorem Comes.cons {target : Text} {active : List Text} {rest : List Fragment}
    (fragment : Fragment) (h : Comes regions target active rest) :
    Comes regions target active (fragment :: rest) := by
  cases h with
  | here fresh mem => exact .here fresh (List.mem_cons_of_mem _ mem)
  | through fresh mem found inside => exact .through fresh (List.mem_cons_of_mem _ mem) found inside

/-- A region that is not come to may as well be in progress. -/
theorem resolveIn_of_not_comes {target : Text} {active : List Text} {fragments : List Fragment} :
    ∀ {more : List Text}, (∀ name, name ∈ more ↔ name = target ∨ name ∈ active) →
      ¬ Comes regions target active fragments →
      resolveIn regions more fragments = resolveIn regions active fragments := by
  induction active, fragments using resolveIn_induction regions with
  | nil active => simp
  | text active t rest ih =>
    intro more hm hc
    rw [resolveIn_text, resolveIn_text, ih hm fun h => hc (h.cons _)]
  | known active name region rest hn hf inside ih =>
    intro more hm hc
    have apart : name ≠ target := by
      rintro rfl
      exact hc (.here hn List.mem_cons_self)
    have hmore : name ∉ more := fun h => ((hm name).mp h).elim apart hn
    have grown : ∀ other, other ∈ name :: more ↔ other = target ∨ other ∈ name :: active := by
      intro other
      simp only [List.mem_cons, hm]
      exact or_left_comm
    rw [resolveIn_eq_placed, resolveIn_eq_placed, placed_eq hmore hf, placed_eq hn hf,
      inside grown fun h => hc (.through hn List.mem_cons_self hf h), ih hm fun h => hc (h.cons _)]
  | other active name rest hn ih =>
    intro more hm hc
    rw [resolveIn_eq_placed, resolveIn_eq_placed, ih hm fun h => hc (h.cons _)]
    rcases hn with hn | hf
    · rw [placed_of_mem hn, placed_of_mem ((hm name).mpr (Or.inr hn))]
    · rw [placed_of_find?_eq_none _ hf, placed_of_find?_eq_none _ hf]

/-! ## Regions that refer back -/

/-- The region has text of its own. -/
def NameMap.HasText (regions : NameMap Region) (name : Text) : Prop :=
  ∃ region, regions.find? name = some region ∧ ∃ text, text ≠ [] ∧ .text text ∈ region.body

theorem resolveIn_ne_nil {active : List Text} {fragments : List Fragment} {text : Text}
    (hn : text ≠ []) (h : .text text ∈ fragments) : resolveIn regions active fragments ≠ [] := by
  obtain ⟨before, after, rfl⟩ := List.append_of_mem h
  rw [resolveIn_append, resolveIn_text]
  simp [hn]

/-- A reference that places less makes the whole text shorter. -/
theorem length_resolveIn_lt {active more : List Text} {fragments : List Fragment} {name : Text}
    (h : active ⊆ more) (mem : .placeholder name ∈ fragments)
    (less : (placed regions more name).length < (placed regions active name).length) :
    (resolveIn regions more fragments).length < (resolveIn regions active fragments).length := by
  obtain ⟨before, after, rfl⟩ := List.append_of_mem mem
  have le (piece : List Fragment) :
      (resolveIn regions more piece).length ≤ (resolveIn regions active piece).length :=
    (resolveIn_sublist h).length_le
  have front := le before
  have back := le after
  simp only [resolveIn_append, resolveIn_eq_placed, List.length_append]
  omega

/-- A region that is come to and has text is missed when it is in progress. -/
theorem length_resolveIn_of_comes {target : Text} (ht : regions.HasText target)
    {active : List Text} {fragments : List Fragment} (hc : Comes regions target active fragments) :
    ∀ {more : List Text}, (∀ name, name ∈ more ↔ name = target ∨ name ∈ active) →
      (resolveIn regions more fragments).length < (resolveIn regions active fragments).length := by
  obtain ⟨own, found, text, hn, mem⟩ := ht
  have missed {active more : List Text} (fresh : target ∉ active) (hm : target ∈ more) :
      (placed regions more target).length < (placed regions active target).length := by
    rw [placed_of_mem hm, placed_eq fresh found]
    exact List.length_pos_iff.mpr (resolveIn_ne_nil hn mem)
  induction hc with
  | here fresh here =>
    intro more hm
    exact length_resolveIn_lt (fun n h => (hm n).mpr (Or.inr h)) here
      (missed fresh ((hm target).mpr (Or.inl rfl)))
  | @through active fragments name region fresh here hf inside ih =>
    intro more hm
    refine length_resolveIn_lt (fun n h => (hm n).mpr (Or.inr h)) here ?_
    by_cases ha : name = target
    · subst ha
      exact missed fresh ((hm name).mpr (Or.inl rfl))
    · have hmore : name ∉ more := fun h => ((hm name).mp h).elim ha fresh
      rw [placed_eq hmore hf, placed_eq fresh hf]
      refine ih fun other => ?_
      simp only [List.mem_cons, hm]
      exact or_left_comm

/-- A placeholder for `b` is in the region `a`. -/
def NameMap.Refers (regions : NameMap Region) (a b : Text) : Prop :=
  ∃ region, regions.find? a = some region ∧ .placeholder b ∈ region.body

/-- The region refers to itself, directly or through others. -/
def NameMap.RefersBack (regions : NameMap Region) (name : Text) : Prop :=
  Relation.TransGen regions.Refers name name

/-- Where a way leads, a way leads that does not come back to its start. -/
theorem exists_way_without_return {r : Text → Text → Prop} {a b : Text}
    (h : Relation.ReflTransGen r a b) :
    Relation.ReflTransGen (fun x y => r x y ∧ y ≠ a) a b := by
  induction h with
  | refl => exact .refl
  | @tail b c _ step ih =>
    by_cases hc : c = a
    · exact hc ▸ .refl
    · exact ih.tail ⟨step, hc⟩

theorem comes_of_way {target : Text} : ∀ {active : List Text} {fragments : List Fragment}
    {name : Text}, name ∉ active → .placeholder name ∈ fragments →
    Relation.ReflTransGen (fun x y => regions.Refers x y ∧ y ∉ active) name target →
    Comes regions target active fragments := by
  intro active
  induction hk : unresolvedCount regions active using Nat.strongRecOn generalizing active with
  | ind k ih =>
    intro fragments name fresh mem way
    -- The rest of a way that does not come back avoids one more region.
    rcases (exists_way_without_return way).cases_head with rfl | ⟨next, step, rest⟩
    · exact .here fresh mem
    · obtain ⟨⟨⟨region, found, inside⟩, hnext⟩, hne⟩ := step
      refine .through fresh mem found ?_
      have fewer := unresolvedCount_cons_lt fresh found
      have fresh' : next ∉ name :: active := by simp [hne, hnext]
      refine ih _ (hk ▸ fewer) rfl fresh' inside (Relation.ReflTransGen.mono ?_ _ _ rest)
      rintro x y ⟨⟨refers, hy⟩, hyn⟩
      exact ⟨refers, by simp [hyn, hy]⟩

theorem way_of_comes {target : Text} {active : List Text} {fragments : List Fragment}
    (h : Comes regions target active fragments) :
    ∃ name, .placeholder name ∈ fragments ∧ Relation.ReflTransGen regions.Refers name target := by
  induction h with
  | here _ mem => exact ⟨target, mem, .refl⟩
  | @through active fragments name region _ mem found _ ih =>
    obtain ⟨next, hnext, way⟩ := ih
    exact ⟨name, mem, .head ⟨region, found, hnext⟩ way⟩

theorem comes_iff_refersBack {name : Text} {region : Region}
    (found : regions.find? name = some region) :
    Comes regions name [] region.body ↔ regions.RefersBack name := by
  constructor
  · intro h
    obtain ⟨next, mem, way⟩ := way_of_comes h
    exact .head' ⟨region, found, mem⟩ way
  · intro h
    obtain ⟨next, ⟨own, hown, mem⟩, way⟩ := Relation.TransGen.head'_iff.mp h
    obtain rfl : own = region := Option.some.inj (hown.symm.trans found)
    exact comes_of_way List.not_mem_nil mem
      (Relation.ReflTransGen.mono (fun x y hxy => ⟨hxy, List.not_mem_nil⟩) _ _ way)

/-! ## The two ways to a region -/

namespace Layout

theorem region?_eq_none_iff (l : Layout) (name : Text) :
    l.region? name = none ↔ l.regions.find? name = none := by
  simp [region?]

theorem resolve_placeholder_eq (l : Layout) (name : Text) :
    l.resolve [.placeholder name] = placed l.regions [] name := rfl

theorem resolve_placeholder (l : Layout) {name : Text} {region : Region}
    (found : l.regions.find? name = some region) :
    l.resolve [.placeholder name] = resolveIn l.regions [name] region.body := by
  rw [resolve_placeholder_eq, placed_eq List.not_mem_nil found]

/-- A region is found by look-up exactly when it has been filled. A placeholder never gives more than
the look-up, and it gives the same when the region does not refer back to itself; when there is text
in the region, then in no other case. -/
theorem region_placeholder (l : Layout) (name : Text) :
    (l.region? name = none ↔ l.regions.find? name = none) ∧
      (l.region? name = none → l.resolve [.placeholder name] = []) ∧
      ∀ text, l.region? name = some text →
        (l.resolve [.placeholder name]).Sublist text ∧
        (¬ l.regions.RefersBack name → text = l.resolve [.placeholder name]) ∧
        (l.regions.HasText name →
          (text = l.resolve [.placeholder name] ↔ ¬ l.regions.RefersBack name)) := by
  refine ⟨l.region?_eq_none_iff name, fun h => ?_, fun text h => ?_⟩
  · rw [resolve_placeholder_eq]
    exact placed_of_find?_eq_none [] ((l.region?_eq_none_iff name).mp h)
  · obtain ⟨region, found, rfl⟩ := Option.map_eq_some_iff.mp h
    have one (other : Text) : other ∈ [name] ↔ other = name ∨ other ∈ [] := by simp
    have same (hb : ¬ l.regions.RefersBack name) :
        l.resolve region.body = resolveIn l.regions [name] region.body :=
      (resolveIn_of_not_comes one (mt (comes_iff_refersBack found).mp hb)).symm
    rw [l.resolve_placeholder found]
    refine ⟨resolveIn_sublist (List.nil_subset _), same, fun own => ⟨fun heq hb => ?_, same⟩⟩
    have shorter := length_resolveIn_of_comes own ((comes_iff_refersBack found).mpr hb) one
    exact absurd (congrArg List.length heq) (Nat.ne_of_gt shorter)

/-- A section with a placeholder for itself behind its text. -/
def selfReferring : Layout :=
  (((initial.openSection ['a']).writeText ['x']).writePlaceholder ['a']).closeSection

def chained : Layout :=
  ((((initial.openSection ['a']).writeText ['x']).writePlaceholder ['b']).openSection
    ['b']).writeText ['y'] |>.closeSection

theorem region_placeholder_chained :
    chained.region? ['a'] = some ['x', 'y'] ∧ chained.regions.HasText ['a'] ∧
      ¬ chained.regions.RefersBack ['a'] := by
  have first : chained.regions.find? ['a'] = some ⟨0, [.text ['x'], .placeholder ['b']]⟩ := rfl
  have second : chained.regions.find? ['b'] = some ⟨0, [.text ['y']]⟩ := rfl
  have inner {active : List Text} (h : ['b'] ∉ active) :
      placed chained.regions active ['b'] = ['y'] := by
    rw [placed_eq h second]
    simp
  have looked : chained.region? ['a'] = some ['x', 'y'] := by
    simp [region?, first, resolve, resolveIn_eq_placed, inner]
  have placed : chained.resolve [.placeholder ['a']] = ['x', 'y'] := by
    simp [resolve_placeholder _ first, resolveIn_eq_placed, inner]
  have own : chained.regions.HasText ['a'] := ⟨_, first, ['x'], by simp, by simp⟩
  obtain ⟨-, -, both⟩ := region_placeholder chained ['a']
  exact ⟨looked, own, ((both _ looked).2.2 own).mp placed.symm⟩

/-- The look-up gives the text of a region that refers back to itself once more than a placeholder
does. -/
theorem region_ne_placeholder :
    selfReferring.region? ['a'] = some ['x', 'x'] ∧
      selfReferring.resolve [.placeholder ['a']] = ['x'] := by
  have found : selfReferring.regions.find? ['a'] =
      some ⟨0, [.text ['x'], .placeholder ['a']]⟩ := rfl
  have inside {active : List Text} (h : ['a'] ∈ active) :
      resolveIn selfReferring.regions active [.text ['x'], .placeholder ['a']] = ['x'] := by
    simp [resolveIn_eq_placed, placed_of_mem h]
  have outside : placed selfReferring.regions [] ['a'] = ['x'] := by
    rw [placed_eq List.not_mem_nil found, inside List.mem_cons_self]
  constructor
  · simp [region?, found, resolve, resolveIn_eq_placed, outside]
  · rw [resolve_placeholder _ found, inside List.mem_cons_self]

end Layout

end Stencil
