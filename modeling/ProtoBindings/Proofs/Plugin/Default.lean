import ProtoBindings.Plugin.Run
import ProtoBindings.Proofs.Result

namespace ProtoBindings.Plugin

section Skips

/-- Whether the record says that a file was skipped. -/
def isSkip (r : LogRecord) : Bool := Text.startsWith r.text "Skipping excluded file "

def withoutSkips (records : List LogRecord) : List LogRecord := records.filter (!isSkip ·)

variable {first second : List LogRecord}

@[simp] theorem withoutSkips_append :
    withoutSkips (first ++ second) = withoutSkips first ++ withoutSkips second :=
  List.filter_append _ _

theorem withoutSkips_skipped (file : String) (records : List LogRecord) :
    withoutSkips (skippedRecord file :: records) = withoutSkips records := by
  have skip : isSkip (skippedRecord file) = true := by
    rw [isSkip, skippedRecord, Text.startsWith, String.toList_append, List.isPrefixOf_iff_prefix]
    exact List.prefix_append _ _
  exact List.filter_cons_of_neg (by simp [skip])

theorem not_isSkip {level : LogLevel} {start rest : String} (other : start.toList.head? ≠ some 'S')
    (nonempty : start ≠ "") : isSkip ⟨level, start ++ rest⟩ = false := by
  obtain ⟨c, others, split⟩ := List.exists_cons_of_ne_nil (String.toList_eq_nil_iff.not.mpr nonempty)
  have skip : "Skipping excluded file ".toList = 'S' :: "kipping excluded file ".toList := by decide
  rw [split, List.head?_cons, ne_eq, Option.some.injEq] at other
  rw [isSkip, Text.startsWith, String.toList_append, split, skip, List.cons_append,
    List.isPrefixOf_cons_cons, beq_false_of_ne (Ne.symm other), Bool.false_and]

theorem withoutSkips_eq_self {records : List LogRecord} (others : ∀ r ∈ records, isSkip r = false) :
    withoutSkips records = records :=
  List.filter_eq_self.mpr fun r isRecord => by rw [others r isRecord]; rfl

theorem withoutSkips_resolved (units : List Schema.FileUnit) :
    withoutSkips (units.map resolvedRecord) = units.map resolvedRecord := by
  refine withoutSkips_eq_self fun r isRecord => ?_
  obtain ⟨unit, _, rfl⟩ := List.mem_map.mp isRecord
  simp only [resolvedRecord, String.append_assoc]
  exact not_isSkip (by decide) (by decide)

theorem withoutSkips_outputs (unit : Schema.FileUnit) (outputs : List Output) :
    withoutSkips (outputRecords unit outputs) = outputRecords unit outputs := by
  refine withoutSkips_eq_self fun r isRecord => ?_
  rcases List.mem_append.mp isRecord with isRecord | isRecord
  · obtain ⟨o, _, rfl⟩ := List.mem_map.mp isRecord
    simp only [String.append_assoc]
    exact not_isSkip (by decide) (by decide)
  · obtain ⟨o, _, rfl⟩ := List.mem_map.mp isRecord
    exact not_isSkip (by decide) (by decide)

end Skips

section Names

variable {config : Config} {resolver : Resolver}

/-- To leave out excluded files beforehand changes the log alone. -/
theorem generateFiles_filter (names : List String) :
    generateFiles config resolver (names.filter (!config.isExcluded ·)) =
      ⟨withoutSkips (generateFiles config resolver names).records,
        (generateFiles config resolver names).result⟩ := by
  induction names with
  | nil => rfl
  | cons name rest ih =>
    by_cases excluded : config.isExcluded name = true
    · rw [List.filter_cons_of_neg (by simp [excluded]), ih, generateFiles, if_pos excluded,
        withoutSkips_skipped]
    · have wanted : config.isExcluded name = false := by simpa using excluded
      rw [List.filter_cons_of_pos (by simp [wanted]), generateFiles, if_neg excluded, generateFiles,
        if_neg excluded]
      cases generateFile config resolver name with
      | error failure => rfl
      | ok pair => simp only [ih, withoutSkips_append, withoutSkips_outputs]

variable {environment : Option String} {parameter : String} {files : List Descriptor.File}

theorem buildRequest_nil (configured : Config.ofParameter parameter environment = .ok config) :
    buildRequest environment files [] parameter =
      .ok ⟨(files.map (·.name)).filter (!config.isExcluded ·), parameter, files⟩ := by
  rw [buildRequest, configured]
  rfl

theorem buildRequest_names (configured : Config.ofParameter parameter environment = .ok config) :
    buildRequest environment files (files.map (·.name)) parameter =
      .ok ⟨files.map (·.name), parameter, files⟩ := by
  cases files with
  | nil => exact buildRequest_nil configured
  | cons file rest => rfl

theorem generate_filter (configured : Config.ofParameter parameter environment = .ok config)
    (names : List String) :
    generate environment ⟨names.filter (!config.isExcluded ·), parameter, files⟩ =
      ⟨(generate environment ⟨names, parameter, files⟩).level,
        withoutSkips (generate environment ⟨names, parameter, files⟩).records,
        (generate environment ⟨names, parameter, files⟩).result⟩ := by
  simp only [generate, configured]
  cases (Resolver.addAll {} files).2 with
  | error error => simp only [withoutSkips_resolved]
  | ok resolver => simp only [generateFiles_filter, withoutSkips_append, withoutSkips_resolved]

/-- The request for a set of files without names and the one with the names of all of them have the same
    outcome: the same outputs, or the same failure. The second one also logs which files it skips. -/
theorem default_request_outcome (files : List Descriptor.File)
    (configured : Config.ofParameter parameter environment = .ok config) :
    ∃ byDefault byName, buildRequest environment files [] parameter = .ok byDefault ∧
      buildRequest environment files (files.map (·.name)) parameter = .ok byName ∧
      (generate environment byDefault).result = (generate environment byName).result ∧
      (generate environment byDefault).level = (generate environment byName).level ∧
      (generate environment byDefault).records = withoutSkips (generate environment byName).records := by
  refine ⟨_, _, buildRequest_nil configured, buildRequest_names configured, ?_⟩
  rw [generate_filter configured]
  exact ⟨rfl, rfl, rfl⟩

end Names

def notes : List Descriptor.File :=
  [{ name := "google/type/date.proto" }, { name := "draft/note.proto" },
    { name := "note.proto", messages := [{ name := "Note" }] }]

theorem notes_outcome : Config.ofParameter "exclude=draft/" none = .ok { exclude := ["draft/"] } ∧
    ∃ byDefault byName, buildRequest none notes [] "exclude=draft/" = .ok byDefault ∧
      buildRequest none notes (notes.map (·.name)) "exclude=draft/" = .ok byName ∧
      byDefault.filesToGenerate = ["note.proto"] ∧
      byName.filesToGenerate = ["google/type/date.proto", "draft/note.proto", "note.proto"] ∧
      (generate none byDefault).result = (generate none byName).result ∧
      (generate none byDefault).records = withoutSkips (generate none byName).records := by
  have configured : Config.ofParameter "exclude=draft/" none = .ok { exclude := ["draft/"] } := by
    decide +kernel
  obtain ⟨byDefault, byName, first, second, result, _, records⟩ :=
    default_request_outcome notes configured
  have unnamed := (buildRequest_nil configured).symm.trans first
  have named := (buildRequest_names configured).symm.trans second
  cases unnamed
  cases named
  exact ⟨configured, _, _, first, second, by decide, by decide, result, records⟩

end ProtoBindings.Plugin
