import Stencil.Cli.Command
import Stencil.Proofs.Discovery

/-!
# Compiling everything twice

Compiling all views goes through the views that are found, one after the other, and what is done for
one can touch what has been done for another: views can share an artifact, and the tree that is
searched the second time is not the one that was searched the first time.

* `Touched`: what a step for one view leaves as it is, so that it holds of whole runs;
* `compileEach_upToDate`: after a run every view is up to date, also those whose artifact has been
  written again since;
* `compileAll_settles`: a second run finds the same views and writes nothing, and the command line
  says so;
* `configuration_overwritten`: the first run of the command line may write an artifact over the
  configuration that the second one reads.
-/

namespace Stencil.Compiler

open Files (Tree Location Entry)
open Files.Tree

variable {c : Compiler} {t u v : Tree} {excluded : Matcher} {location : Location}
  {places : Location → Prop} {force : Bool} {view : Text} {views : List Text}

/-! ## What stays -/

/-- Files at some places may have been written, and the times of directories may have changed. -/
structure Touched (places : Location → Prop) (t u : Tree) : Prop where
  directories : u.directoryAt? = t.directoryAt?
  here : u.here = t.here
  now : u.now = t.now
  aged : ∀ location, AgedAt t u location
  files : ∀ location, ¬places location → u.fileAt? location = t.fileAt? location

theorem Touched.refl (places : Location → Prop) (t : Tree) : Touched places t t :=
  ⟨rfl, rfl, rfl, fun _ => .of_eq rfl, fun _ _ => rfl⟩

theorem Touched.trans (h : Touched places t u) (h' : Touched places u v) : Touched places t v :=
  ⟨h'.directories.trans h.directories, h'.here.trans h.here, h'.now.trans h.now,
    fun location => (h.aged location).trans (h'.aged location) h.now,
    fun location outside => (h'.files location outside).trans (h.files location outside)⟩

theorem Touched.mono {more : Location → Prop} (h : Touched places t u)
    (le : ∀ location, places location → more location) : Touched more t u :=
  ⟨h.directories, h.here, h.now, h.aged,
    fun location outside => h.files location fun inside => outside (le location inside)⟩

theorem Touched.within (h : Touched places t u) : Within t u := .of_eq h.directories h.here

theorem Touched.locate_iff (h : Touched places t u) {path : Text} {location : Location} :
    u.locate path = .ok location ↔ t.locate path = .ok location :=
  locate_ok_iff_of_eq h.directories h.here

theorem touched_replace {path text : Text}
    (inside : ∀ location, t.locate path = .ok location → places location) :
    Touched places t (t.replace path text).2 := by
  obtain ⟨directories, here, files⟩ := t.replace_frame path text
  refine ⟨directories, here, now_replace t path text, agedAt_replace t path text, ?_⟩
  intro location outside
  exact files location fun located => outside (inside location located)

/-- The tree after a view has been compiled, with success or without. -/
theorem touched_compileView (ready : Ready c t) (force : Bool)
    (inside : ∀ location, t.locate (c.resolve view).artifact = .ok location → places location) :
    Touched places t (c.compileView force view t).2 := by
  rcases compileView_tree c force view t with same | ⟨-, text, replaced⟩
  · rw [same, ready.prepared_eq]
    exact .refl places t
  · rw [replaced, ready.prepared_eq]
    exact touched_replace inside

theorem ignoresTimes_viewAt? (o : Options) (excluded : Matcher) (location : Location) :
    IgnoresTimes fun (other, entry) =>
      (below? location other).bind fun way => viewAt? o excluded way entry := by
  constructor
  · intro entry
    have none : below? location [] = none := by
      rw [Option.eq_none_iff_forall_ne_some]
      intro way h
      obtain ⟨h, hn⟩ := below?_eq_some_iff.mp h
      exact hn (List.append_eq_nil_iff.mp h.symm).2
    simp [none]
  · intro other entry modified
    have same (way : Location) : viewAt? o excluded way (entry.withModified modified) =
        viewAt? o excluded way entry := by
      cases entry <;> rfl
    simp only [same]

theorem viewsBelow_eq_collect (o : Options) (excluded : Matcher) (t : Tree)
    (location : Location) : viewsBelow o excluded t location = t.collect fun (other, entry) =>
      (below? location other).bind fun way => viewAt? o excluded way entry := by
  unfold viewsBelow entriesBelow collect
  rw [List.filterMap_filterMap]
  refine List.filterMap_congr fun entry _ => ?_
  obtain ⟨other, entry⟩ := entry
  simp only
  cases below? location other <;> rfl

theorem viewsBelow_replace {o : Options} {path text : Text}
    (hidden : ∀ way, t.locate path = .ok (location ++ way) → ¬Sought o excluded way) :
    viewsBelow o excluded (t.replace path text).2 location = viewsBelow o excluded t location := by
  simp only [viewsBelow_eq_collect]
  refine collect_replace (ignoresTimes_viewAt? o excluded location) t path text ?_
  intro place located entry
  rw [Option.bind_eq_none_iff]
  intro way below
  obtain ⟨rfl, -⟩ := below?_eq_some_iff.mp below
  rw [Option.eq_none_iff_forall_ne_some]
  intro view h
  exact hidden way located (viewAt?_eq_some_iff.mp h).2.1

/-- The same views are found after a view has been compiled whose artifact is not to be found. -/
theorem viewsBelow_compileView (ready : Ready c t) (force : Bool) (o : Options)
    (excluded : Matcher) (location : Location)
    (hidden : ∀ way, t.locate (c.resolve view).artifact = .ok (location ++ way) →
      ¬Sought o excluded way) :
    viewsBelow o excluded (c.compileView force view t).2 location =
      viewsBelow o excluded t location := by
  rcases compileView_tree c force view t with same | ⟨-, text, replaced⟩
  · rw [same, ready.prepared_eq]
  · rw [replaced, ready.prepared_eq]
    exact viewsBelow_replace hidden

/-! ## Runs -/

/-- The artifacts of some views. -/
def ArtifactPlace (c : Compiler) (views : List Text) (t : Tree) (location : Location) : Prop :=
  ∃ view ∈ views, t.locate (c.resolve view).artifact = .ok location

/-- A tree in which a run for some views settles: no artifact is the source of one of them or to be
found itself, and no source is younger than now. -/
structure Calm (c : Compiler) (excluded : Matcher) (location : Location) (views : List Text)
    (t : Tree) : Prop where
  ready : Ready c t
  sources : ∀ view ∈ views, ∀ place, t.locate (c.resolve view).source = .ok place →
    ¬ArtifactPlace c views t place
  hidden : ∀ way, ArtifactPlace c views t (location ++ way) → ¬Sought c.options excluded way
  times : ∀ view ∈ views, ∀ place content modified,
    t.locate (c.resolve view).source = .ok place → t.fileAt? place = some (content, modified) →
    modified ≤ t.now

theorem Touched.artifactPlace (h : Touched places t u) :
    ArtifactPlace c views u location ↔ ArtifactPlace c views t location := by
  simp only [ArtifactPlace, h.locate_iff]

theorem Calm.touched (calm : Calm c excluded location views t)
    (h : Touched (ArtifactPlace c views t) t u) : Calm c excluded location views u := by
  refine ⟨calm.ready.of_within h.within, ?_, ?_, ?_⟩
  · intro view hm place located
    rw [h.artifactPlace]
    exact calm.sources view hm place (h.locate_iff.mp located)
  · intro way
    rw [h.artifactPlace]
    exact calm.hidden way
  · intro view hm place content modified located file
    have located := h.locate_iff.mp located
    rw [h.files place (calm.sources view hm place located)] at file
    rw [h.now]
    exact calm.times view hm place content modified located file

/-- A view that is up to date stays so, whatever is written for others. -/
theorem UpToDate.touched (calm : Calm c excluded location views t)
    (h : Touched (ArtifactPlace c views t) t u) (hm : view ∈ views) (hv : c.has t view)
    (fresh : UpToDate t (c.resolve view)) : c.has u view ∧ UpToDate u (c.resolve view) := by
  obtain ⟨artifact, source, ha, hs, older⟩ := fresh
  obtain ⟨content, modified, file⟩ := isFile_iff.mp hv
  obtain rfl : source = .file content modified := Except.ok.inj (hs.symm.trans file)
  obtain ⟨lies, hl, hf⟩ := stat_eq_file_iff.mp file
  have kept : u.stat (c.resolve view).source = .ok (.file content modified) :=
    stat_eq_file_iff.mpr
      ⟨lies, h.locate_iff.mpr hl, by rw [h.files lies (calm.sources view hm lies hl), hf]⟩
  obtain ⟨place, located, there⟩ := stat_ok_iff.mp ha
  obtain ⟨later, hlater, time⟩ := h.aged place artifact there
  refine ⟨isFile_iff.mpr ⟨content, modified, kept⟩, later, _,
    stat_ok_iff.mpr ⟨place, h.locate_iff.mpr located, hlater⟩, kept, ?_⟩
  rcases time with same | new
  · rwa [same]
  · rw [new]
    exact calm.times view hm lies content modified hl hf

theorem compileEach_cons_ok {reports : List Report}
    (h : c.compileEach force (view :: views) t = (.ok reports, v)) :
    ∃ report u rest, c.compileView force view t = (.ok report, u) ∧
      c.compileEach force views u = (.ok rest, v) ∧ reports = report :: rest := by
  obtain ⟨report, u, first, h⟩ := Step.bind_ok h
  obtain ⟨rest, w, others, h⟩ := Step.bind_ok h
  obtain ⟨he, rfl⟩ := Prod.mk.inj h
  exact ⟨report, u, rest, first, others, (Except.ok.inj he).symm⟩

/-- A view that has just been compiled is up to date. -/
theorem upToDate_of_compileView {report : Report} (calm : Calm c excluded location views t)
    (hm : view ∈ views) (h : c.compileView force view t = (.ok report, u)) :
    report.files = c.resolve view ∧ c.has u view ∧ UpToDate u (c.resolve view) := by
  obtain ⟨-, updated⟩ := compileView_eq_ok h
  rw [calm.ready.prepared_eq] at updated
  obtain ⟨hv, stale, -, rfl, -⟩ := update_eq_ok updated
  obtain ⟨content, modified, file⟩ := isFile_iff.mp hv
  obtain ⟨lies, hl, hf⟩ := stat_eq_file_iff.mp file
  obtain ⟨grows, fresh⟩ := upToDate_of_update updated fun source hs => by
    obtain rfl : .file content modified = source := Except.ok.inj (file.symm.trans hs)
    exact calm.times view hm lies content modified hl hf
  exact ⟨rfl, has_of_grows grows hv, fresh⟩

/-- After a run every view is up to date. -/
theorem compileEach_upToDate {all : List Text} {reports : List Report}
    (calm : Calm c excluded location all t) (sub : views ⊆ all)
    (h : c.compileEach force views t = (.ok reports, u)) :
    Touched (ArtifactPlace c all t) t u ∧
      viewsBelow c.options excluded u location = viewsBelow c.options excluded t location ∧
      reports.map Report.files = views.map c.resolve ∧
      ∀ view ∈ views, c.has u view ∧ UpToDate u (c.resolve view) := by
  induction views generalizing t reports with
  | nil =>
    obtain ⟨he, rfl⟩ := Prod.mk.inj h
    obtain rfl := Except.ok.inj he
    exact ⟨.refl _ t, rfl, rfl, by simp⟩
  | cons view views ih =>
    obtain ⟨report, w, rest, first, others, rfl⟩ := compileEach_cons_ok h
    have hm : view ∈ all := sub List.mem_cons_self
    have step : Touched (ArtifactPlace c all t) t (c.compileView force view t).2 :=
      touched_compileView calm.ready force fun location located => ⟨view, hm, located⟩
    have listed := viewsBelow_compileView calm.ready force c.options excluded location
      fun way located => calm.hidden way ⟨view, hm, located⟩
    rw [first] at step listed
    obtain ⟨named, here, fresh⟩ := upToDate_of_compileView calm hm first
    obtain ⟨later, listed', files, others⟩ :=
      ih (calm.touched step) (fun v hv => sub (List.mem_cons_of_mem _ hv)) others
    refine ⟨step.trans (later.mono fun _ => step.artifactPlace.mp), listed'.trans listed, ?_, ?_⟩
    · rw [List.map_cons, List.map_cons, named, files]
    · intro other ho
      rcases List.mem_cons.mp ho with rfl | ho
      · exact fresh.touched (calm.touched step) later hm here
      · exact others other ho

/-- When every view is up to date, a run writes nothing, whatever the time is. -/
theorem compileEach_fresh (ready : Ready c t)
    (fresh : ∀ view ∈ views, c.has t view ∧ UpToDate t (c.resolve view)) (now : Int) :
    c.compileEach false views { t with now } =
      (.ok (views.map fun view => ⟨c.resolve view, .fresh⟩), { t with now }) := by
  induction views with
  | nil => rfl
  | cons view views ih =>
    obtain ⟨hv, here⟩ := fresh view List.mem_cons_self
    have first := compileView_upToDate_later ready hv here now
    have rest := ih fun other ho => fresh other (List.mem_cons_of_mem _ ho)
    simp only [compileEach, bind, Step.andThen, first, rest]
    rfl

/-- A run that finds views that are all up to date reports them as fresh and writes nothing. -/
theorem compileAll_fresh (ready : Ready c t) {now : Int}
    (found : c.discover { t with now } = .ok views)
    (fresh : ∀ view ∈ views, c.has t view ∧ UpToDate t (c.resolve view)) :
    c.compileAll false { t with now } =
      (.ok (views.map fun view => ⟨c.resolve view, .fresh⟩), { t with now }) := by
  have later : Ready c { t with now } := ready.of_within (.of_eq rfl rfl)
  rw [compileAll, compileAllWith_eq, later.validateDirectories_eq, later.prepared_eq, ← discover,
    found]
  exact compileEach_fresh ready fresh now

/-- Where the search lists the same views, they are found again. -/
theorem discover_of_within (hb : ExcludeRule.matcher c.options.exclude = .ok excluded)
    (hl : t.locateDirectory c.options.input = .ok location) (within : Within t u)
    (listed : viewsBelow c.options excluded u location =
      viewsBelow c.options excluded t location) : c.discover u = c.discover t := by
  obtain ⟨located, mode, directory⟩ := locateDirectory_ok_iff.mp hl
  have input : u.locateDirectory c.options.input = .ok location :=
    locateDirectory_ok_iff.mpr
      ⟨locate_ok_of_within within located, mode, within.directories _ _ directory⟩
  rw [discover, discoverWith_eq hb input, listed, ← discoverWith_eq hb hl, ← discover]

/-- A project settles when nothing that is taken for a source has a backslash in its way, no source is
younger than now, and no artifact is to be found as a source. -/
theorem calm_of_free {build : List Text → Except Text Matcher} (wf : t.WellFormed)
    (hb : build c.options.exclude = .ok excluded)
    (hl : t.locateDirectory c.options.input = .ok location)
    (found : c.discoverWith build (c.prepared t) = .ok views)
    (free : ∀ way, IsTaken c.options excluded (c.prepared t) location way → ∀ name ∈ way, '\\' ∉ name)
    (times : ∀ way, IsSource c.options excluded t location way → ∀ content modified,
      t.fileAt? (location ++ way) = some (content, modified) → modified ≤ t.now)
    (hidden : ∀ view ∈ views, ∀ way,
      (c.prepared t).locate (c.resolve view).artifact = .ok (location ++ way) →
      ¬Sought c.options excluded way)
    (valid : (c.validateDirectories t).1 = .ok ()) :
    Calm c excluded location views (c.prepared t) := by
  have hl := locateDirectory_prepared c hl
  have made := (prepared_made (c := c) wf.rooted).1
  have wf := prepared_wellFormed (c := c) wf
  have finds : Finds c.options (IsTaken c.options excluded (c.prepared t) location) views := by
    obtain rfl : _ = views := Except.ok.inj ((discoverWith_eq hb hl).symm.trans found)
    exact finds_of_free free wf
  -- A view is read from the source that it was found at.
  have lies (view : Text) (hm : view ∈ views) (place : Location)
      (located : (c.prepared t).locate (c.resolve view).source = .ok place) :
      ∃ way, IsSource c.options excluded (c.prepared t) location way ∧ place = location ++ way := by
    obtain ⟨way, ⟨taken, resolved⟩, -⟩ := finds.known view hm
    have resolved : (c.resolve view).source = c.options.pathTo way := resolved
    rw [resolved] at located
    have short := (pathFault?_eq_none_iff.mp (locate_ok_iff.mp located).1).2.2
    have source := taken.isSource short
    have there := source.locate_pathTo wf (locateDirectory_ok_iff.mp hl).1 short
    exact ⟨way, source, Except.ok.inj (located.symm.trans there)⟩
  refine ⟨ready_of_validateDirectories valid, ?_, ?_, ?_⟩
  · rintro view hm place located ⟨other, ho, artifact⟩
    obtain ⟨way, source, rfl⟩ := lies view hm place located
    exact hidden other ho way artifact source.toSought
  · rintro way ⟨view, hm, artifact⟩
    exact hidden view hm way artifact
  · intro view hm place content modified located file
    obtain ⟨way, source, rfl⟩ := lies view hm place located
    rw [made.files] at file
    rw [now_prepared]
    exact times way ⟨source.toSought, made.files ▸ source.file⟩ content modified file

/-! ## The command line -/

/-- A command line that compiles all views, without force, and does not tell about fresh ones. -/
structure CompilesAll (words : List Text) (invocation : Cli.Invocation) : Prop where
  read : Cli.Request.parse words = some (.run invocation)
  command : ∃ named all, invocation.command = some (.compile named all false false) ∧
    (all || named.isEmpty) = true
  quiet : invocation.verbose = false

/-- The compiler of the configuration that a command line finds. -/
def configured (invocation : Cli.Invocation) (t : Tree) : Except Error Compiler :=
  (Config.loadOrDefault t (Cli.root invocation.path t)).bind fun config =>
    config.compiler (Cli.root invocation.path t)

/-- What is printed when no view has been written. -/
def allFresh (count : Nat) : Text :=
  Cli.line (if count = 0 then "No views found.".toList
    else "All ".toList ++ Text.ofNat count ++ " view(s) are already up to date.".toList)

theorem printReports_fresh (color : Bool) {reports : List Report}
    (fresh : ∀ report ∈ reports, report.outcome = .fresh) :
    Cli.printReports color false reports = allFresh reports.length := by
  have silent : reports.flatMap (Cli.reportLine color false) = [] := by
    rw [List.flatMap_eq_nil_iff]
    intro report hm
    simp [Cli.reportLine, fresh report hm]
  have unwritten : reports.countP (fun report => report.outcome.wrote) = 0 := by
    rw [List.countP_eq_zero]
    intro report hm
    simp [fresh report hm, Outcome.wrote]
  unfold Cli.printReports allFresh
  cases reports with
  | nil => rfl
  | cons first rest =>
    simp only [List.isEmpty_cons, Bool.false_eq_true, ↓reduceIte, silent, List.nil_append,
      Cli.summary, unwritten, List.length_cons, Nat.add_one_ne_zero]

theorem run_compile {words named : List Text} {invocation : Cli.Invocation} {all : Bool}
    {reports : List Report} (read : Cli.Request.parse words = some (.run invocation))
    (command : invocation.command = some (.compile named all force false))
    (whole : (all || named.isEmpty) = true) (color : Bool)
    (config : configured invocation t = .ok c) (h : c.compileAll force t = (.ok reports, u)) :
    Cli.run words color t = (.success
      (Cli.printReports (color && !invocation.noColor) invocation.verbose reports), u) := by
  unfold configured at config
  have compiled : Cli.compile c named all force t = (.ok reports, u) := by
    simp only [Cli.compile, whole, ↓reduceIte, h]
  simp only [Cli.run, read, command, Cli.runCompile, config, compiled]

/-- Once all views have been compiled, a second run finds the same ones, reports each as fresh and
writes nothing. A command line that finds the same configuration says so and nothing else. -/
theorem compileAll_settles {reports : List Report} {rules : List ExcludeRule} (wf : t.WellFormed)
    (hr : ExcludeRule.parseAll c.options.exclude = .ok rules)
    (hl : t.locateDirectory c.options.input = .ok location)
    (found : c.discover (c.prepared t) = .ok views)
    (free : ∀ way, IsTaken c.options (isExcluded rules) (c.prepared t) location way →
      ∀ name ∈ way, '\\' ∉ name)
    (times : ∀ way, IsSource c.options (isExcluded rules) t location way → ∀ content modified,
      t.fileAt? (location ++ way) = some (content, modified) → modified ≤ t.now)
    (hidden : ∀ view ∈ views, ∀ way,
      (c.prepared t).locate (c.resolve view).artifact = .ok (location ++ way) →
      ¬Sought c.options (isExcluded rules) way)
    (h : c.compileAll force t = (.ok reports, u)) (now : Int) :
    c.compileAll false { u with now } =
      (.ok (reports.map fun report => ⟨report.files, .fresh⟩), { u with now }) ∧
    ∀ words invocation color, CompilesAll words invocation →
      configured invocation { u with now } = .ok c →
      Cli.run words color { u with now } =
        (.success (allFresh reports.length), { u with now }) := by
  have hb : ExcludeRule.matcher c.options.exclude = .ok (isExcluded rules) := by
    rw [ExcludeRule.matcher, hr, Except.map]
  rw [compileAll, compileAllWith_eq, ← discover, found] at h
  cases valid : (c.validateDirectories t).1 with
  | error error => simp [valid] at h
  | ok _ =>
    simp only [valid] at h
    have calm := calm_of_free wf hb hl found free times hidden valid
    obtain ⟨touched, listed, files, fresh⟩ := compileEach_upToDate calm (fun _ hm => hm) h
    have again : c.discover { u with now } = .ok views :=
      (discover_of_within (u := { u with now }) hb (locateDirectory_prepared c hl)
        (touched.within.trans (.of_eq rfl rfl)) listed).trans found
    have second : c.compileAll false { u with now } =
        (.ok (reports.map fun report => ⟨report.files, .fresh⟩), { u with now }) := by
      rw [compileAll_fresh (calm.touched touched).ready again fresh]
      have same := congrArg (List.map fun files => (⟨files, .fresh⟩ : Report)) files
      simp only [List.map_map] at same
      exact congrArg (fun reports => (Except.ok reports, _)) same.symm
    refine ⟨second, fun words invocation color asked config => ?_⟩
    obtain ⟨named, all, command, whole⟩ := asked.command
    rw [run_compile asked.read command whole color config second, asked.quiet,
      printReports_fresh _ (by simp), List.length_map]

section Example

/-- The compiler of a project at the root without a configuration. -/
def standard : Compiler := ⟨Config.default.options ['/'], RuleTable.builtin⟩

def twoNames : Tree :=
  ⟨[(["views".toList], .directory 0o755 0), (["views".toList, "a".toList], .directory 0o755 0),
    (["views".toList, "a.b.tmpl".toList], .file (.text "two".toList) 1),
    (["views".toList, "a".toList, "b.tmpl".toList], .file (.text "one".toList) 1)], [], 5⟩

theorem discover_twoNames :
    standard.discover (standard.prepared twoNames) = .ok ["a.b".toList, "a/b".toList] := by
  have input : (standard.prepared twoNames).locateDirectory standard.options.input =
      .ok ["views".toList] := by
    decide +kernel
  exact discoverWith_of_sorted rfl input (by decide +kernel) (by decide)

def plainCompile : Cli.Invocation := ⟨none, false, false, some (.compile [] false false false)⟩

theorem compilesAll_plainCompile : CompilesAll ["compile".toList] plainCompile :=
  ⟨by decide +kernel, ⟨[], false, rfl, rfl⟩, rfl⟩

theorem compileAll_twoNames : standard.compileAll false twoNames =
    standard.compileEach false ["a.b".toList, "a/b".toList] (standard.prepared twoNames) := by
  have valid : (standard.validateDirectories twoNames).1 = .ok () := by decide +kernel
  rw [compileAll, compileAllWith_eq, valid, ← discover, discover_twoNames]

/-- What holds of the times of all entries holds of those of files. -/
theorem time_of_entries {motive : Int → Prop} (h : ∀ entry ∈ t.entries, motive entry.2.modified)
    {content : Files.Content} {modified : Int} (hn : location ≠ [])
    (file : t.fileAt? location = some (content, modified)) : motive modified :=
  h _ (mem_of_entryAt? (entryAt?_of_fileAt? file) hn)

theorem compileAll_settles_twoNames : ∃ reports u,
    standard.compileAll false twoNames = (.ok reports, u) ∧ reports.length = 2 ∧
      (standard.compileAll false { u with now := 9 }).2 = { u with now := 9 } ∧
      Cli.run ["compile".toList] false { u with now := 9 } =
        (.success "All 2 view(s) are already up to date.\n".toList, { u with now := 9 }) := by
  have wf : twoNames.WellFormed :=
    ⟨rooted_of_entries (by decide +kernel), by decide +kernel, by decide +kernel⟩
  have input : twoNames.locateDirectory standard.options.input = .ok ["views".toList] := by
    decide +kernel
  have artifacts : ∀ view ∈ ["a.b".toList, "a/b".toList],
      (standard.prepared twoNames).locate (standard.resolve view).artifact =
        .ok [".vellum".toList, "compiled".toList, "a.b.out".toList] := by
    decide +kernel
  have result : (standard.compileAll false twoNames).1 =
      .ok [⟨standard.resolve "a.b".toList, .compiled⟩,
        ⟨standard.resolve "a/b".toList, .fresh⟩] := by
    rw [compileAll_twoNames]
    decide +kernel
  obtain ⟨u, run⟩ := Step.exists_of_fst result
  obtain ⟨second, printed⟩ := compileAll_settles wf rfl input discover_twoNames
    (fun way taken => taken.of_entries (motive := fun way => ∀ name ∈ way, '\\' ∉ name)
      (by decide +kernel))
    (fun way source content modified => time_of_entries (motive := (· ≤ 5)) (by decide +kernel)
      (by simp))
    (fun view hm way located => by
      have same := Except.ok.inj ((artifacts view hm).symm.trans located)
      exact absurd (List.cons.inj same).1 (by decide))
    run 9
  refine ⟨_, u, run, rfl, by rw [second], ?_⟩
  refine printed ["compile".toList] plainCompile false compilesAll_plainCompile ?_
  rw [compileAll_twoNames] at run
  obtain rfl : _ = u := congrArg Prod.snd run
  decide +kernel

/-- The configuration has artifacts written next to itself, with its own extension. -/
def selfConfigured : Tree :=
  ⟨[(["vellum.toml".toList],
      .file (.text "[views]\noutput = './'\nartifact_extension = 'toml'\n".toList) 1),
    (["views".toList], .directory 0o755 0),
    (["views".toList, "vellum.tmpl".toList], .file (.text "x".toList) 1)], [], 5⟩

def overwriting : Compiler :=
  { standard with options := { standard.options with
      output := "/./".toList, artifactExtension := "toml".toList } }

def forcedCompile : Cli.Invocation := ⟨none, false, false, some (.compile [] false true false)⟩

theorem discover_selfConfigured : overwriting.discover selfConfigured = .ok ["vellum".toList] := by
  have input : selfConfigured.locateDirectory overwriting.options.input = .ok ["views".toList] := by
    decide +kernel
  exact discoverWith_of_sorted rfl input (by decide +kernel) (by decide)

/-- The first run writes the artifact of a view over the configuration, which the second run cannot
read. -/
theorem configuration_overwritten :
    selfConfigured.WellFormed ∧ (∀ entry ∈ selfConfigured.entries, entry.2.modified ≤ 5) ∧
    selfConfigured.locateDirectory overwriting.options.input = .ok ["views".toList] ∧
    (overwriting.prepared selfConfigured).locate (overwriting.resolve "vellum".toList).artifact =
      .ok ["vellum.toml".toList] ∧
    configured forcedCompile selfConfigured = .ok overwriting ∧
    ∃ u, Cli.run ["compile".toList, "--force".toList] false selfConfigured =
        (.success "  recompiled vellum\nCompiled 1 view(s), 0 already up to date.\n".toList, u) ∧
      Cli.run ["compile".toList] false u = (.failure (.error (.config .malformed)), u) := by
  have found : configured forcedCompile selfConfigured = .ok overwriting := by decide +kernel
  refine ⟨⟨rooted_of_entries (by decide +kernel), by decide +kernel, by decide +kernel⟩,
    by decide +kernel, by decide +kernel, by decide +kernel, found, ?_⟩
  have ready : Ready overwriting selfConfigured := ⟨by decide +kernel, by decide +kernel⟩
  have whole : overwriting.compileAll true selfConfigured =
      overwriting.compileEach true ["vellum".toList] selfConfigured := by
    rw [compileAll, compileAllWith_eq, ready.validateDirectories_eq, ready.prepared_eq,
      ← discover, discover_selfConfigured]
  have result : (overwriting.compileAll true selfConfigured).1 =
      .ok [⟨overwriting.resolve "vellum".toList, .recompiled⟩] := by
    rw [whole]
    decide +kernel
  obtain ⟨u, run⟩ := Step.exists_of_fst result
  refine ⟨u, ?_, ?_⟩
  · have read : Cli.Request.parse ["compile".toList, "--force".toList] =
        some (.run forcedCompile) := by
      decide +kernel
    rw [run_compile read rfl rfl false found run]
    exact congrArg (fun printed => (Cli.Result.success printed, u)) (by decide +kernel)
  · rw [whole] at run
    obtain rfl : _ = u := congrArg Prod.snd run
    decide +kernel

end Example

end Stencil.Compiler
