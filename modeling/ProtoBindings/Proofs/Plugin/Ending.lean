import ProtoBindings.Plugin.Run
import ProtoBindings.Proofs.Result
import ProtoBindings.Proofs.Wire.Written

namespace ProtoBindings.Plugin

open Descriptor (Request)
open Result (FailsOnly)
open Text.Utf8 (encode)
open Wire (Bytes Reads contentField varintField)

section Response

/-- The bytes are one response and nothing else: they say which features are known, and hold a file for
    each output, with its path and content. A file of 2 GiB has no size on the wire. -/
structure Serializes (bytes : Bytes) (r : Response) : Prop where
  whole : (∀ o ∈ r.files, (fileMessage o).length < 2147483648) →
    Wire.scan Wire.maxDepth bytes =
      ⟨⟨2, .varint r.features⟩ :: r.files.map fun o => ⟨15, .bytes (fileMessage o)⟩, true⟩
  files : ∀ o ∈ r.files, (fileMessage o).length < 2147483648 →
    Wire.scan Wire.maxDepth (fileMessage o) =
      ⟨[⟨1, .bytes (encode o.path)⟩, ⟨15, .bytes (encode o.content)⟩], true⟩

/-- What the documentation of the library says of the messages that it writes. Features are a number of
    64 bits. Of those that it reads it says no more than the types do. -/
structure Library.Documented (library : Library) : Prop where
  writeResponse : ∀ r : Response, r.features < 18446744073709551616 →
    Serializes (library.writeResponse r) r

theorem fileMessage_length (o : Output) :
    (encode o.path).length + (encode o.content).length ≤ (fileMessage o).length := by
  simp only [fileMessage, contentField, List.length_append]
  omega

theorem scan_fileMessage {o : Output} (fits : (fileMessage o).length < 2147483648) :
    Wire.scan Wire.maxDepth (fileMessage o) =
      ⟨[⟨1, .bytes (encode o.path)⟩, ⟨15, .bytes (encode o.content)⟩], true⟩ := by
  have sizes := fileMessage_length o
  have written : List.Forall₂ Reads [contentField 1 (encode o.path), contentField 15 (encode o.content)]
      [⟨1, .bytes (encode o.path)⟩, ⟨15, .bytes (encode o.content)⟩] :=
    .cons (Wire.reads_contentField (by decide) (by omega))
      (.cons (Wire.reads_contentField (by decide) (by omega)) .nil)
  have read := Wire.scan_flatten Wire.maxDepth written (by simp)
  simpa [fileMessage] using read

theorem scan_writeResponse {r : Response} (known : r.features < 18446744073709551616)
    (fits : ∀ o ∈ r.files, (fileMessage o).length < 2147483648) :
    Wire.scan Wire.maxDepth (hostLibrary.writeResponse r) =
      ⟨⟨2, .varint r.features⟩ :: r.files.map fun o => ⟨15, .bytes (fileMessage o)⟩, true⟩ := by
  have files : List.Forall₂ Reads (r.files.map fun o => contentField 15 (fileMessage o))
      (r.files.map fun o => ⟨15, .bytes (fileMessage o)⟩) := by
    rw [List.forall₂_map_left_iff, List.forall₂_map_right_iff, List.forall₂_same]
    exact fun o isOutput => Wire.reads_contentField (by decide) (fits o isOutput)
  have flag : Reads (varintField 2 r.features) ⟨2, .varint r.features⟩ :=
    Wire.reads_varintField (by decide) known
  have read := Wire.scan_flatten Wire.maxDepth (.cons flag files) (by simp)
  rw [List.flatten_cons, ← List.flatMap_def] at read
  exact read

theorem hostLibrary_documented : hostLibrary.Documented where
  writeResponse _ known := ⟨scan_writeResponse known, fun _ _ => scan_fileMessage⟩

end Response

section Stage

/-- All failures but that of a request that cannot be read. -/
def OfGeneration (f : Failure) : Prop := f.stage = .generation

theorem generateFile_failsOnly (config : Config) (resolver : Resolver) (file : String) :
    FailsOnly OfGeneration (generateFile config resolver file) := by
  refine .bind (.of_mapError _ fun _ => rfl) fun unit => ?_
  exact .bind (.of_mapError _ fun _ => rfl) fun outputs => .ok _

theorem generateFiles_failsOnly (config : Config) (resolver : Resolver) (names : List String) :
    FailsOnly OfGeneration (generateFiles config resolver names).result := by
  induction names with
  | nil => exact .ok []
  | cons name rest ih =>
    rw [generateFiles]
    split
    · exact ih
    · split
      · rename_i failure failed
        exact .error (generateFile_failsOnly config resolver name failure failed)
      · exact ih.map _

theorem generate_failsOnly (environment : Option String) (request : Request) :
    FailsOnly OfGeneration (generate environment request).result := by
  rw [generate]
  split
  · exact .error rfl
  · rename_i config _
    cases resolved : (Resolver.addAll {} request.files).2 with
    | error e =>
      simp only [resolved]
      exact .error rfl
    | ok resolver =>
      simp only [resolved]
      exact generateFiles_failsOnly config resolver request.filesToGenerate

/-- The stage of a failure tells whether the request could be read. -/
theorem run_stage_iff {library : Library} {environment : Option String} {input : Bytes}
    {failure : Failure} (failed : (run library environment input).result = .error failure) :
    failure.stage = .requestParsing ↔ ∃ detail, library.readRequest input = .error detail := by
  cases read : library.readRequest input with
  | error detail =>
    simp only [run, read] at failed
    cases failed
    exact iff_of_true rfl ⟨detail, rfl⟩
  | ok request =>
    simp only [run, read] at failed
    have ofGeneration : failure.stage = .generation := generate_failsOnly environment request _ failed
    rw [ofGeneration]
    exact iff_of_false nofun nofun

end Stage

section Level

/-- The level that the log starts with, if the environment names one. -/
def startLevel? (environment : Option String) : Option LogLevel :=
  Config.levelOf? (environment.getD "WARNING")

/-- The level at which records are shown: that of the configuration, once there is one. -/
def levelInForce (library : Library) (environment : Option String) (input : Bytes) : LogLevel :=
  (run library environment input).level.getD ((startLevel? environment).getD .warning)

variable {config config' : Config} {options : Options} {environment : Option String}

theorem Config.set_logLevel {key value : String} (other : key ≠ "log_level")
    (result : config.set key value = .ok config') : config'.logLevel = config.logLevel := by
  unfold Config.set at result
  split at result
  · cases result
    rfl
  · split at result
    · split at result
      · cases result
        rfl
      · cases result
    · split at result
      · cases result
        rfl
      · cases result

theorem Config.setAll_logLevel (others : ∀ option ∈ options, option.1 ≠ "log_level")
    (result : options.foldlM (fun (config : Config) (key, value) => config.set key value) config =
      .ok config') : config'.logLevel = config.logLevel := by
  induction options generalizing config with
  | nil =>
    cases result
    rfl
  | cons option rest ih =>
    obtain ⟨next, first, later⟩ := Result.bind_eq_ok.mp result
    rw [ih (fun other isOther => others other (List.mem_cons_of_mem _ isOther)) later]
    exact Config.set_logLevel (others option List.mem_cons_self) first

theorem levelOf_upper {name : String} {level : LogLevel} (found : Config.levelOf? name = some level) :
    Config.levelOf? (Unicode.upper name) = some level := by
  have kept : ∀ named ∈ LogLevel.names, Unicode.upper named.1 = named.1 := by decide +kernel
  obtain ⟨before, after, split, _⟩ := List.lookup_eq_some_iff.mp found
  have isName : (Unicode.upper name, level) ∈ LogLevel.names := by simp [split]
  rw [Config.levelOf?, kept _ isName]
  exact found

theorem validate_eq_ok (result : config.validate = .ok config') : config' = config := by
  unfold Config.validate at result
  split at result
  · cases result
  · cases result
  · cases result
    rfl

theorem config_level_eq_start {parameter : String} {level : LogLevel}
    (parsed : parseParameter parameter = .ok options) (unset : options.get? "log_level" = none)
    (configured : Config.ofParameter parameter environment = .ok config)
    (starts : startLevel? environment = some level) : config.level = level := by
  have others : ∀ option ∈ options, option.1 ≠ "log_level" := by
    intro option isOption same
    have different := List.lookup_eq_none_iff.mp unset option isOption
    simp [same] at different
  simp only [Config.ofParameter, parsed, Result.bind_eq_ok, Result.mapError_eq_ok] at configured
  obtain ⟨_, same, given, set, validated⟩ := configured
  cases same
  have unchanged : given.logLevel = "WARNING" := Config.setAll_logLevel others set
  have whole : config = given.withEnvironment options environment := validate_eq_ok validated
  rw [Config.withEnvironment, unset] at whole
  cases environment with
  | none =>
    have warning : Config.levelOf? "WARNING" = some level := starts
    have same : config = given := whole
    rw [same, Config.level, unchanged, warning, Option.getD_some]
  | some name =>
    have present : name ≠ "" := by
      rintro rfl
      have empty : startLevel? (some "") = none := by decide +kernel
      rw [empty] at starts
      cases starts
    have nonempty : Config.nonempty name = some name := if_neg present
    rw [Option.bind_some, nonempty] at whole
    have named : config.logLevel = Unicode.upper name := by rw [whole]
    have known : Config.levelOf? (Unicode.upper name) = some level := levelOf_upper starts
    rw [Config.level, named, known, Option.getD_some]

end Level

section Ending

/-- The record that a failed run ends with. -/
def errorRecord (stage : Stage) (detail : String) : LogRecord :=
  ⟨.error, "protoc-gen-idiom failed: " ++ ("[" ++ stage.tag ++ "] " ++ detail)⟩

/-- A run ends with status 0 and one response, or with status 1, no output and an error in the log that
    names its stage. -/
inductive EndsCleanly (library : Library) (environment : Option String) (input : Bytes) : Exit → Prop
  | response (request : Request) (outputs : List Output) (output : Bytes) (records : List LogRecord) :
      library.readRequest input = .ok request →
      (generate environment request).result = .ok outputs →
      Serializes output ⟨optionalFields, outputs⟩ →
      EndsCleanly library environment input (.done 0 output records)
  | failure (stage : Stage) (detail : String) (records : List LogRecord) :
      (stage = .requestParsing ↔ ∃ detail, library.readRequest input = .error detail) →
      errorRecord stage detail ∈ records →
      EndsCleanly library environment input (.done 1 [] records)

/-- Only a log that is for critical records alone does not show the error. -/
theorem errorRecord_shown_iff {level : LogLevel} {records : List LogRecord} {stage : Stage}
    {detail : String} (isRecord : errorRecord stage detail ∈ records) :
    errorRecord stage detail ∈ shownAt level records ↔ level ≠ .critical := by
  have rank : (errorRecord stage detail).level.rank = 40 := rfl
  rw [shownAt, List.mem_filter, and_iff_right isRecord, decide_eq_true_eq, rank]
  cases level <;> decide

theorem errorRecord_hidden (records : List LogRecord) (stage : Stage) (detail : String) :
    errorRecord stage detail ∉ shownAt .critical records := fun shown =>
  (errorRecord_shown_iff (List.mem_of_mem_filter shown)).mp shown rfl

variable {library : Library} {environment : Option String} {input : Bytes}

theorem execute_of_start {level : LogLevel} (starts : startLevel? environment = some level) :
    execute library environment input =
      match (run library environment input).result with
      | .ok outputs => .done 0 (library.writeResponse ⟨optionalFields, outputs⟩)
          (shownAt (levelInForce library environment input) (run library environment input).records)
      | .error failure => .done 1 [] (shownAt (levelInForce library environment input)
          ((run library environment input).records ++ [errorRecord failure.stage failure.detail])) := by
  have found : LogLevel.ofName? (Unicode.upper (environment.getD "WARNING")) = some level := starts
  have inForce : (run library environment input).level.getD level =
      levelInForce library environment input := by
    rw [levelInForce, starts, Option.getD_some]
  rw [execute]
  simp only [found, inForce]
  rfl

theorem execute_without_start (unnamed : startLevel? environment = none) :
    execute library environment input = .unknownLevel (Unicode.upper (environment.getD "WARNING")) := by
  have missing : LogLevel.ofName? (Unicode.upper (environment.getD "WARNING")) = none := unnamed
  rw [execute]
  simp only [missing]

theorem startLevel_isSome_iff : (startLevel? environment).isSome = true ↔
    ∀ name, environment = some name → (Config.levelOf? name).isSome = true := by
  cases environment with
  | none =>
    have warning : (startLevel? none).isSome = true := by decide +kernel
    exact iff_of_true warning nofun
  | some name =>
    constructor
    · rintro named _ ⟨⟩
      exact named
    · intro named
      exact named name rfl

theorem endsCleanly_of_ok (documented : library.Documented) {level : LogLevel}
    (starts : startLevel? environment = some level) {outputs : List Output}
    (result : (run library environment input).result = .ok outputs) :
    EndsCleanly library environment input (execute library environment input) := by
  rw [execute_of_start starts]
  simp only [result]
  cases read : library.readRequest input with
  | error detail =>
    simp only [run, read] at result
    cases result
  | ok request =>
    have generated : (generate environment request).result = .ok outputs := by
      simpa only [run, read] using result
    have known : optionalFields < 18446744073709551616 := by decide
    have serialized := documented.writeResponse ⟨optionalFields, outputs⟩ known
    exact .response request outputs _ _ read generated serialized

theorem endsCleanly_iff_of_error {level : LogLevel} (starts : startLevel? environment = some level)
    {failure : Failure} (result : (run library environment input).result = .error failure) :
    EndsCleanly library environment input (execute library environment input) ↔
      levelInForce library environment input ≠ .critical := by
  have isRecord : errorRecord failure.stage failure.detail ∈
      (run library environment input).records ++ [errorRecord failure.stage failure.detail] := by simp
  rw [execute_of_start starts]
  simp only [result]
  constructor
  · rintro (_ | ⟨stage, detail, _, _, shown⟩) critical
    rw [critical] at shown
    exact errorRecord_hidden _ stage detail shown
  · intro level
    exact .failure _ _ _ (run_stage_iff result) ((errorRecord_shown_iff isRecord).mpr level)

/-- The configuration and the start of the log take the environment for the same level, unless the
    parameter sets one. -/
theorem levelInForce_eq_start {request : Request} {options : Options} {config : Config}
    {level : LogLevel} (read : library.readRequest input = .ok request)
    (parsed : parseParameter request.parameter = .ok options) (unset : options.get? "log_level" = none)
    (configured : Config.ofParameter request.parameter environment = .ok config)
    (starts : startLevel? environment = some level) :
    levelInForce library environment input = level := by
  have sameLevel := config_level_eq_start parsed unset configured starts
  have set : (run library environment input).level = some config.level := by
    simp only [run, read, generate, configured]
    cases (Resolver.addAll {} request.files).2 <;> rfl
  rw [levelInForce, set, Option.getD_some, sameLevel]

/-- Whatever it reads, a run ends cleanly exactly if the environment does not set the level of the log, or
    sets it to the name of one in letters of any case, and the log is not for critical records alone where
    the run fails. Of a name that stands for no level nothing is caught; and a failed run that ends with
    such a log has status 1 and no output, but its error is dropped. -/
theorem execute_endsCleanly_iff (documented : library.Documented) (environment : Option String)
    (input : Bytes) :
    (EndsCleanly library environment input (execute library environment input) ↔
      (∀ name, environment = some name → (Config.levelOf? name).isSome = true) ∧
        ∀ failure, (run library environment input).result = .error failure →
          levelInForce library environment input ≠ .critical) ∧
    (∀ name, environment = some name → Config.levelOf? name = none →
      execute library environment input = .unknownLevel (Unicode.upper name)) ∧
    (∀ failure, (startLevel? environment).isSome = true →
      (run library environment input).result = .error failure →
      levelInForce library environment input = .critical → ∃ records,
        execute library environment input = .done 1 [] records ∧
          ∀ stage detail, errorRecord stage detail ∉ records) ∧
    ∀ request options config level, library.readRequest input = .ok request →
      parseParameter request.parameter = .ok options → options.get? "log_level" = none →
      Config.ofParameter request.parameter environment = .ok config →
      startLevel? environment = some level → levelInForce library environment input = level := by
  refine ⟨?_, ?_, ?_, fun _ _ _ _ => levelInForce_eq_start⟩
  · rw [← startLevel_isSome_iff]
    cases starts : startLevel? environment with
    | none =>
      rw [execute_without_start starts]
      exact iff_of_false nofun fun ⟨named, _⟩ => nomatch named
    | some level =>
      cases result : (run library environment input).result with
      | ok outputs =>
        exact iff_of_true (endsCleanly_of_ok documented starts result) ⟨rfl, nofun⟩
      -- A record of an error is dropped by a log for critical ones alone.
      | error failure =>
        rw [endsCleanly_iff_of_error starts result]
        exact ⟨fun level => ⟨rfl, fun _ _ => level⟩, fun ⟨_, level⟩ => level failure rfl⟩
  · rintro name rfl unnamed
    exact execute_without_start unnamed
  · intro failure named result critical
    obtain ⟨level, starts⟩ := Option.isSome_iff_exists.mp named
    have ended := @execute_of_start library environment input level starts
    simp only [result, critical] at ended
    exact ⟨_, ended, errorRecord_hidden _⟩

theorem hostLibrary_reads_nil : hostLibrary.readRequest [] = .ok {} := by
  have scan : Wire.scan Wire.maxDepth [] = ⟨[], true⟩ :=
    Wire.scan_flatten Wire.maxDepth .nil (List.forall_mem_nil _)
  have fault : Descriptor.Shape.request.fault? Wire.maxDepth [] = none := by
    rw [Descriptor.Shape.fault?, scan, Descriptor.Shape.entriesFault?]
    rfl
  simp only [hostLibrary, Descriptor.readRequest, Descriptor.readAs, fault, Descriptor.entriesOf, scan]
  rfl

theorem hostLibrary_refuses : ∃ detail, hostLibrary.readRequest [8] = .error detail := by
  have scan : Wire.scan Wire.maxDepth [8] = ⟨[], false⟩ := by
    rw [Wire.scan, Wire.scanTokens]
    rfl
  have fault : Descriptor.Shape.request.fault? Wire.maxDepth [8] = some .malformed := by
    rw [Descriptor.Shape.fault?, scan, Descriptor.Shape.entriesFault?]
    rfl
  simp only [hostLibrary, Descriptor.readRequest, Descriptor.readAs, fault]
  exact ⟨_, rfl⟩

theorem info_endsCleanly : hostLibrary.Documented ∧
    (∀ name, some "info" = some name → (Config.levelOf? name).isSome = true) ∧
    EndsCleanly hostLibrary (some "info") [] (execute hostLibrary (some "info") []) ∧
    EndsCleanly hostLibrary none [8] (execute hostLibrary none [8]) := by
  have known : ∀ name, some "info" = some name → (Config.levelOf? name).isSome = true := by
    rintro _ ⟨⟩
    decide +kernel
  obtain ⟨outputs, done⟩ : ∃ outputs, (run hostLibrary (some "info") []).result = .ok outputs := by
    simp only [run, hostLibrary_reads_nil]
    exact Result.exists_of_isSome (by decide +kernel)
  obtain ⟨detail, refused⟩ := hostLibrary_refuses
  have level : levelInForce hostLibrary none [8] ≠ .critical := by
    simp only [levelInForce, run, refused]
    decide +kernel
  refine ⟨hostLibrary_documented, known, ?_, ?_⟩
  · refine (execute_endsCleanly_iff hostLibrary_documented _ _).1.mpr ⟨known, fun failure failed => ?_⟩
    rw [done] at failed
    cases failed
  · exact (execute_endsCleanly_iff hostLibrary_documented _ _).1.mpr ⟨nofun, fun _ _ => level⟩

theorem empty_level_not_clean : Config.ofParameter "" (some "") = Config.ofParameter "" none ∧
    EndsCleanly hostLibrary none [] (execute hostLibrary none []) ∧
    execute hostLibrary (some "") [] = .unknownLevel "" ∧
    ¬ EndsCleanly hostLibrary (some "") [] (execute hostLibrary (some "") []) := by
  have unknown : execute hostLibrary (some "") [] = .unknownLevel "" :=
    execute_without_start (by decide +kernel)
  have starts : startLevel? none = some .warning := by decide +kernel
  obtain ⟨outputs, done⟩ : ∃ outputs, (run hostLibrary none []).result = .ok outputs := by
    simp only [run, hostLibrary_reads_nil]
    exact Result.exists_of_isSome (by decide +kernel)
  refine ⟨by decide +kernel, endsCleanly_of_ok hostLibrary_documented starts done, unknown,
    fun clean => ?_⟩
  rw [unknown] at clean
  cases clean

end Ending

end ProtoBindings.Plugin
