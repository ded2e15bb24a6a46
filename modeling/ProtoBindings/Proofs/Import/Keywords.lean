import ProtoBindings.Proofs.Code.Identifiers
import ProtoBindings.Proofs.Import.Aliases

namespace ProtoBindings.Import

open Name (KeywordFree components hostFolders hostModule isKeyword valueModule)

/-- What keeps keywords out of the paths of imported modules. -/
structure Clear (packagePrefix : Option String) (imports : List Import) : Prop where
  hosts : ∀ file, .ofModule (hostModule file) ∈ imports → KeywordFree (hostFolders file)
  values : ∀ package file, .ofModule (valueModule package file packagePrefix) ∈ imports →
    KeywordFree (components (packagePrefix.getD "") ++ components package)

theorem keywordFree_ofModule {module : String} :
    KeywordFree (ofModule module).identifiers ↔ KeywordFree (Text.splitOn '.' module) := by
  have bound : isKeyword (Name.moduleAlias module) = false := Name.isKeyword_underscore_append _
  simp [identifiers, ofModule, bound]

theorem fixed_keywordFree : ∀ i ∈ fixedImports, KeywordFree i.identifiers := by
  decide +kernel

theorem keywordFree_imports_iff {packagePrefix : Option String} {imports : List Import}
    (known : ∀ i ∈ imports, Known packagePrefix i) :
    KeywordFree (imports.flatMap (·.identifiers)) ↔ Clear packagePrefix imports := by
  rw [Name.keywordFree_flatMap]
  constructor
  · intro free
    constructor
    · intro file isImport
      exact Name.keywordFree_hostModule.mp (keywordFree_ofModule.mp (free _ isImport))
    · intro package file isImport
      exact Name.keywordFree_valueModule.mp (keywordFree_ofModule.mp (free _ isImport))
  · intro clear i isImport
    cases known i isImport with
    | fixed isFixed => exact fixed_keywordFree i isFixed
    | host file =>
      exact keywordFree_ofModule.mpr (Name.keywordFree_hostModule.mpr (clear.hosts file isImport))
    | value package file =>
      exact keywordFree_ofModule.mpr
        (Name.keywordFree_valueModule.mpr (clear.values package file isImport))

end ProtoBindings.Import
