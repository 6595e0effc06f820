import Stencil.Proofs.LayoutCycles

/-!
# What compiling one view does

Compiling a view checks the directories and makes the output directory, looks at the source and the
artifact, and then keeps the artifact or writes it. Proved here, for trees in which all that is
there lies in a directory:

* `compileView_completed`: what the outcome says about the artifact, what has changed, and that the
  view is fresh from then on;
* `artifact_found_on_the_way`: making the output directory can bring to light an artifact that was
  there already, which is then kept;
* `compileView_error_made`: a failure changes nothing but that the output directory and its parents
  may have been made.
-/

namespace Stencil.Compiler

open Files (Tree Location Fault)
open Files.Tree

variable {c : Compiler} {t u : Tree} {force : Bool} {view : Text} {files : ViewFiles}

/-! ## Succeeding and failing -/

/-- What has been written is the artifact of the source. -/
theorem writeArtifact_ok (h : c.writeArtifact files t = (.ok (), u)) :
    ∃ source text place, t.read files.source = .ok source ∧ c.rules.compile source = .ok text ∧
      t.locate files.artifact = .ok place ∧ Wrote t place text u := by
  unfold writeArtifact freshArtifact artifactOf at h
  cases hs : t.read files.source with
  | error fault => simp [hs] at h
  | ok source =>
    cases hc : c.rules.compile source with
    | error malformed => simp [hs, hc] at h
    | ok text =>
      cases hr : t.replace files.artifact text with
      | mk result v =>
        cases result with
        | error fault => simp [hs, hc, hr] at h
        | ok _ =>
          obtain rfl : v = u := by simpa [hs, hc, hr] using h
          obtain ⟨place, located, wrote⟩ := replace_ok hr
          exact ⟨source, text, place, rfl, hc, located, wrote⟩

/-- What cannot be written leaves no trace. -/
theorem writeArtifact_error {error : Error} (h : c.writeArtifact files t = (.error error, u)) :
    Alike t u := by
  unfold writeArtifact at h
  split at h
  · obtain rfl := (Prod.mk.inj h).2
    exact .refl t
  · split at h
    · simp at h
    · next hr =>
      obtain rfl := (Prod.mk.inj h).2
      exact replace_error hr

/-- A view has been updated: its artifact was kept or written, as its staleness asks for. -/
theorem update_eq_ok {report : Report} (h : c.update force files t = (.ok report, u)) :
    t.isFile files.source = true ∧ ∃ stale, staleness t files = .ok stale ∧
      report = ⟨files, Outcome.of force stale⟩ ∧
      if (Outcome.of force stale).wrote then c.writeArtifact files t = (.ok (), u) else u = t := by
  cases hf : t.isFile files.source with
  | false => simp [Compiler.update, hf] at h
  | true =>
    cases hs : staleness t files with
    | error error => simp [Compiler.update, hf, hs] at h
    | ok stale =>
      refine ⟨rfl, stale, rfl, ?_⟩
      cases hw : (Outcome.of force stale).wrote with
      | false =>
        obtain ⟨hr, rfl⟩ := Prod.mk.inj ((update_kept hf hs hw).symm.trans h)
        exact ⟨(Except.ok.inj hr).symm, by simp⟩
      | true =>
        cases ha : c.writeArtifact files t with
        | mk result v =>
          cases result with
          | error error => simp [update_error hf hs hw ha] at h
          | ok _ =>
            obtain ⟨hr, rfl⟩ := Prod.mk.inj ((update_ok hf hs hw ha).symm.trans h)
            exact ⟨(Except.ok.inj hr).symm, by simp⟩

theorem update_eq_error {error : Error} (h : c.update force files t = (.error error, u)) :
    Alike t u := by
  cases hf : t.isFile files.source with
  | false =>
    obtain rfl : t = u := by simpa [Compiler.update, hf] using congrArg Prod.snd h
    exact .refl t
  | true =>
    cases hs : staleness t files with
    | error other =>
      obtain rfl : t = u := by simpa [Compiler.update, hf, hs] using congrArg Prod.snd h
      exact .refl t
    | ok stale =>
      cases hw : (Outcome.of force stale).wrote with
      | false => simp [update_kept hf hs hw] at h
      | true =>
        cases ha : c.writeArtifact files t with
        | mk result v =>
          cases result with
          | ok _ => simp [update_ok hf hs hw ha] at h
          | error other =>
            obtain ⟨-, rfl⟩ := Prod.mk.inj ((update_error hf hs hw ha).symm.trans h)
            exact writeArtifact_error ha

/-- A view is compiled by updating it once the directories have been checked. -/
theorem compileView_eq (c : Compiler) (force : Bool) (view : Text) (t : Tree) :
    c.compileView force view t =
      match (c.validateDirectories t).1 with
      | .ok () => c.update force (c.resolve view) (c.prepared t)
      | .error error => (.error error, c.prepared t) := by
  simp only [compileView, bind, Step.andThen, prepared]
  cases hv : c.validateDirectories t with
  | mk result v => cases result <;> rfl

theorem compileView_eq_ok {report : Report} (h : c.compileView force view t = (.ok report, u)) :
    (c.validateDirectories t).1 = .ok () ∧
      c.update force (c.resolve view) (c.prepared t) = (.ok report, u) := by
  rw [compileView_eq] at h
  split at h
  · next valid => exact ⟨valid, h⟩
  · simp at h

theorem compileView_eq_error {error : Error} (h : c.compileView force view t = (.error error, u)) :
    Alike (c.prepared t) u := by
  rw [compileView_eq] at h
  split at h
  · exact update_eq_error h
  · obtain ⟨-, rfl⟩ := Prod.mk.inj h
    exact .refl _

/-! ## Staleness -/

/-- An artifact is there and not older than its source. -/
def UpToDate (t : Tree) (files : ViewFiles) : Prop :=
  ∃ artifact source, t.stat files.artifact = .ok artifact ∧ t.stat files.source = .ok source ∧
    source.modified ≤ artifact.modified

theorem staleness_eq_missing_iff {stale : Staleness} (h : staleness t files = .ok stale) :
    stale = .missing ↔ t.has files.artifact = false := by
  unfold staleness at h
  unfold Tree.has
  cases ha : t.stat files.artifact with
  | error fault =>
    cases fault <;> simp only [ha, Except.ok.injEq, reduceCtorEq] at h
    subst h
    simp [Except.isOk, Except.toBool]
  | ok artifact =>
    simp only [ha] at h
    split at h
    · simp at h
    · obtain rfl := Except.ok.inj h
      split <;> simp [Except.isOk, Except.toBool]

theorem staleness_eq_fresh_iff : staleness t files = .ok .fresh ↔ UpToDate t files := by
  refine ⟨staleness_eq_fresh, ?_⟩
  rintro ⟨artifact, source, ha, hs, older⟩
  simp only [staleness, ha, hs]
  rw [if_neg (Int.not_lt.mpr older)]

/-- A view that is up to date is fresh, whatever the time is. -/
theorem compileView_upToDate (ready : Ready c t) (hv : c.has t view)
    (fresh : UpToDate t (c.resolve view)) :
    c.compileView false view t = (.ok ⟨c.resolve view, .fresh⟩, t) := by
  rw [compileView_eq, ready.validateDirectories_eq, ready.prepared_eq]
  exact update_kept hv (staleness_eq_fresh_iff.mpr fresh) rfl

/-! ## Success -/

/-- What it means that a view has been compiled with success. -/
structure Completed (c : Compiler) (force : Bool) (view : Text) (t : Tree) (report : Report)
    (u : Tree) : Prop where
  files : report.files = c.resolve view
  /-- The output directory has been made, as far as it was missing. -/
  prepared : Made t c.options.outputDirectories (c.prepared t)
  compiled_iff : report.outcome = .compiled ↔
    (c.prepared t).has (c.resolve view).artifact = false
  fresh_iff : report.outcome = .fresh ↔
    force = false ∧ UpToDate (c.prepared t) (c.resolve view)
  kept : report.outcome = .fresh → u = c.prepared t
  /-- The artifact that the source has is written, and no other file changes. -/
  written : report.outcome ≠ .fresh → ∃ source text place,
    (c.prepared t).read (c.resolve view).source = .ok source ∧ c.rules.compile source = .ok text ∧
      (c.prepared t).locate (c.resolve view).artifact = .ok place ∧
      Wrote (c.prepared t) place text u ∧ u.read (c.resolve view).artifact = .ok text
  /-- A source that is not younger than the artifact is not compiled again. -/
  again : ∀ source, (c.prepared t).stat (c.resolve view).source = .ok source →
    source.modified ≤ t.now → ∀ now, c.compileView false view { u with now } =
      (.ok ⟨c.resolve view, .fresh⟩, { u with now })

theorem wrote_of_outcome {force : Bool} {stale : Staleness} :
    (Outcome.of force stale).wrote = true ↔ Outcome.of force stale ≠ .fresh := by
  cases stale <;> cases force <;> decide

/-- A view whose artifact has just been written is up to date. -/
theorem upToDate_of_wrote {place : Location} {text : Text}
    (hv : c.has t view) (located : t.locate (c.resolve view).artifact = .ok place)
    (wrote : Wrote t place text u)
    (times : ∀ source, t.stat (c.resolve view).source = .ok source → source.modified ≤ t.now) :
    UpToDate u (c.resolve view) := by
  have artifact : u.stat (c.resolve view).artifact = .ok (.file (.text text) t.now) :=
    stat_eq_file_iff.mpr ⟨place, locate_ok_of_within (.of_eq wrote.directories wrote.here) located,
      by rw [wrote.files, if_pos rfl]⟩
  obtain ⟨content, modified, source⟩ := isFile_iff.mp hv
  obtain ⟨lies, hl, hf⟩ := stat_eq_file_iff.mp source
  have hlu := locate_ok_of_within (.of_eq wrote.directories wrote.here) hl
  by_cases same : place = lies
  · -- The artifact has been written over the source.
    refine ⟨_, _, artifact, stat_eq_file_iff.mpr ⟨lies, hlu, ?_⟩, Int.le_refl _⟩
    rw [wrote.files, if_pos same]
  · refine ⟨_, _, artifact, stat_eq_file_iff.mpr ⟨lies, hlu, ?_⟩, times _ source⟩
    rw [wrote.files, if_neg same, hf]

theorem stat_at_time (t : Tree) (now : Int) (path : Text) :
    ({ t with now } : Tree).stat path = t.stat path := by
  have same (location : Location) (parts : List Text) :
      ({ t with now } : Tree).follow location parts = t.follow location parts := by
    induction parts generalizing location with
    | nil => rfl
    | cons part parts ih =>
      have entry : ({ t with now } : Tree).entryAt? location = t.entryAt? location := rfl
      simp only [follow, ih, entry]
  have located : ({ t with now } : Tree).locate path = t.locate path := by
    simp only [locate, origin, same]
  unfold stat
  rw [located]
  rfl

/-- A view that is up to date stays so while nothing but the time changes. -/
theorem compileView_upToDate_later (ready : Ready c t) (hv : c.has t view)
    (fresh : UpToDate t (c.resolve view)) (now : Int) :
    c.compileView false view { t with now } =
      (.ok ⟨c.resolve view, .fresh⟩, { t with now }) := by
  refine compileView_upToDate (ready.of_within (.of_eq rfl rfl)) ?_ ?_
  · have same := stat_at_time t now (c.resolve view).source
    unfold has isFile at hv ⊢
    rwa [same]
  · obtain ⟨artifact, source, ha, hs, older⟩ := fresh
    exact ⟨artifact, source, by rwa [stat_at_time], by rwa [stat_at_time], older⟩

theorem outcome_eq_compiled_iff {stale : Staleness} :
    Outcome.of force stale = .compiled ↔ stale = .missing := by
  cases stale <;> cases force <;> decide

theorem outcome_eq_fresh_iff {stale : Staleness} :
    Outcome.of force stale = .fresh ↔ force = false ∧ stale = .fresh := by
  cases stale <;> cases force <;> decide

/-- A view that has been updated is up to date, unless its source is younger than now. -/
theorem upToDate_of_update {report : Report}
    (h : c.update force (c.resolve view) t = (.ok report, u))
    (times : ∀ source, t.stat (c.resolve view).source = .ok source → source.modified ≤ t.now) :
    Grows t u ∧ UpToDate u (c.resolve view) := by
  obtain ⟨hv, stale, hs, -, done⟩ := update_eq_ok h
  by_cases fresh : Outcome.of force stale = .fresh
  · rw [if_neg (by rw [wrote_of_outcome]; exact not_not.mpr fresh)] at done
    subst done
    obtain ⟨-, rfl⟩ := outcome_eq_fresh_iff.mp fresh
    exact ⟨.refl u, staleness_eq_fresh hs⟩
  · rw [if_pos (wrote_of_outcome.mpr fresh)] at done
    obtain ⟨-, text, place, -, -, located, wrote⟩ := writeArtifact_ok done
    exact ⟨.of_wrote wrote, upToDate_of_wrote hv located wrote times⟩

/-- What a view comes to that is compiled with success. Whether an artifact is there is asked once the
output directory is; when that was there before, nothing is made, and when it does not lead upwards
and the artifact is a name in it, making it changes nothing about the artifact. -/
theorem compileView_completed {report : Report} (rooted : t.Rooted)
    (h : c.compileView force view t = (.ok report, u)) :
    c.Completed force view t report u ∧
    (t.has c.options.output = true → c.prepared t = t) ∧
    (['.', '.'] ∉ Path.names c.options.output → Options.Plain c.options.artifactExtension →
      c.prepared t = t ∨ t.has (c.resolve view).artifact = false ∧
        (c.prepared t).has (c.resolve view).artifact = false) := by
  obtain ⟨valid, updated⟩ := compileView_eq_ok h
  have ready := ready_of_validateDirectories valid
  obtain ⟨hv, stale, hs, rfl, done⟩ := update_eq_ok updated
  have fresh_iff : stale = .fresh ↔ UpToDate (c.prepared t) (c.resolve view) := by
    rw [← staleness_eq_fresh_iff, hs, Except.ok.injEq]
  have kept (fresh : Outcome.of force stale = .fresh) : u = c.prepared t := by
    rwa [if_neg (by rw [wrote_of_outcome]; exact not_not.mpr fresh)] at done
  have written (wrote : Outcome.of force stale ≠ .fresh) :=
    writeArtifact_ok (by rwa [if_pos (wrote_of_outcome.mpr wrote)] at done)
  refine ⟨⟨rfl, (prepared_made rooted).1, ?_, ?_, kept, ?_, ?_⟩, prepared_eq_of_has,
    fun straight plain => prepared_eq_or_absent rooted straight plain valid view⟩
  · rw [outcome_eq_compiled_iff, staleness_eq_missing_iff hs]
  · rw [outcome_eq_fresh_iff, fresh_iff]
  · intro wrote
    obtain ⟨source, text, place, read, compiled, located, wrote⟩ := written wrote
    have lies := locate_ok_of_within (.of_eq wrote.directories wrote.here) located
    exact ⟨source, text, place, read, compiled, located, wrote,
      read_of_fileAt? lies (by rw [wrote.files, if_pos rfl])⟩
  · intro source there older now
    obtain ⟨grows, fresh⟩ := upToDate_of_update updated fun other hother => by
      obtain rfl : source = other := Except.ok.inj (there.symm.trans hother)
      rwa [now_prepared]
    exact compileView_upToDate_later (ready.of_within grows.within) (has_of_grows grows hv) fresh
      now

section Example

open Renderer (greeting cold warm)

theorem rooted_of_entries
    (h : ∀ entry ∈ t.entries, (t.directoryAt? entry.1.dropLast).isSome) : t.Rooted := by
  intro location there
  by_cases hn : location = []
  · exact ⟨0o755, by rw [hn]; rfl⟩
  · obtain ⟨entry, he⟩ := Option.isSome_iff_exists.mp there
    exact Option.isSome_iff_exists.mp (h _ (mem_of_entryAt? he hn))

theorem rooted_cold : cold.Rooted := rooted_of_entries (by decide +kernel)

theorem rooted_warm : warm.Rooted := rooted_of_entries (by decide +kernel)

theorem compileView_completed_cold : ∃ report u,
    greeting.compileView false "home".toList cold = (.ok report, u) ∧ report.outcome = .compiled ∧
      greeting.Completed false "home".toList cold report u := by
  have result : (greeting.compileView false "home".toList cold).1 =
      .ok ⟨greeting.resolve "home".toList, .compiled⟩ := by decide +kernel
  obtain ⟨u, run⟩ := Step.exists_of_fst result
  exact ⟨_, u, run, rfl, (compileView_completed rooted_cold run).1⟩

/-- The output directory is found by a directory that is not there. -/
def detour : Compiler :=
  { greeting with options := { greeting.options with output := "n/../o/".toList } }

/-- At first no path leads to the artifact. Once the directory in the way is made, the artifact is found
and kept. -/
theorem artifact_found_on_the_way :
    warm.Rooted ∧ warm.has (detour.resolve "home".toList).artifact = false ∧
      (detour.compileView false "home".toList warm).1 =
        .ok ⟨detour.resolve "home".toList, .fresh⟩ ∧
      warm.isDirectory "n".toList = false ∧
      (detour.compileView false "home".toList warm).2.isDirectory "n".toList = true := by
  refine ⟨rooted_warm, ?_, ?_, ?_, ?_⟩ <;> decide +kernel

end Example

/-! ## Failure -/

/-- When a view cannot be compiled, nothing has gone or changed, and nothing is new but directories at
the ends of the paths to the output directory. -/
theorem compileView_error_made {error : Error} (rooted : t.Rooted)
    (h : c.compileView force view t = (.error error, u)) :
    Made t c.options.outputDirectories u :=
  (prepared_made rooted).1.alike (compileView_eq_error h)

section Example

open Renderer (greeting cold)

/-- The output directory lies in a directory that is not there, and the last rule is malformed. -/
def misruled : Compiler :=
  ⟨{ greeting.options with output := "n/o/".toList },
    RuleTable.builtin.register ⟨"%q".toList, []⟩⟩

theorem compileView_error_made_misruled : ∃ error u,
    misruled.compileView false "home".toList cold = (.error error, u) ∧
      u.isDirectory "n/o/".toList = true ∧ Made cold misruled.options.outputDirectories u := by
  have failed : (misruled.compileView false "home".toList cold).1 =
      .error (.rule ⟨"%q".toList, .pattern (.unknownLetter 'q')⟩) := by decide +kernel
  have output :
      (misruled.compileView false "home".toList cold).2.isDirectory "n/o/".toList = true := by
    decide +kernel
  have run : misruled.compileView false "home".toList cold =
      (_, (misruled.compileView false "home".toList cold).2) := Prod.ext failed rfl
  exact ⟨_, _, run, output, compileView_error_made rooted_cold run⟩

end Example

end Stencil.Compiler
