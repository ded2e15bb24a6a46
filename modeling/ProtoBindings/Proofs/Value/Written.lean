import ProtoBindings.Proofs.Code.Sources
import ProtoBindings.Proofs.Result
import ProtoBindings.Value.Converter

namespace ProtoBindings

open Code (Expr Stmt attributesOf blockPaths blockSource?)
open Schema (Field)

namespace Name

theorem moduleAlias_ne (module : String) {id : String} (other : id.toList.head? ≠ some '_') :
    moduleAlias module ≠ id := by
  rintro rfl
  apply other
  simp [moduleAlias]

end Name

section Avoids

variable {owner : String} (other : owner.toList.head? ≠ some '_')
include other

theorem attributesOf_alias (module : String) (p : Code.Path) :
    attributesOf owner [Name.moduleAlias module :: p] = [] := by
  have different := Name.moduleAlias_ne module other
  cases p <;> simp [attributesOf, Code.Path.attributeOf?, different]

theorem attributesOf_hostClass (ref : Schema.TypeRef) :
    attributesOf owner (hostClass ref).expr.paths = [] := by
  have dotted := Expr.dotted_path (.name (Name.moduleAlias (Name.hostModule ref.file))) _
    (if ref.path = [] then [""] else ref.path) rfl
  rw [hostClass, Expr.paths_of_dotted dotted]
  exact attributesOf_alias other _ _

theorem attributesOf_generatedName (scope : Scope) (ref : Schema.TypeRef) (id : String) :
    attributesOf owner (scope.generatedName ref id).expr.paths = [] := by
  rw [Scope.generatedName]
  split
  · rfl
  · exact attributesOf_alias other _ _

end Avoids

def Conversion.ownPaths : Conversion → List Code.Path
  | .constant result => result.paths
  | .call function => function.paths
  | _ => []

theorem Conversion.attributesOf_apply {c : Conversion} {owner : String}
    (avoids : attributesOf owner c.ownPaths = []) {e : Expr} (other : e ≠ .name owner) :
    attributesOf owner (c.apply e).paths = if c.hasHole then attributesOf owner e.paths else [] := by
  cases c with
  | identity => rfl
  | content => exact Code.attributesOf_attribute other "value"
  | constant result => exact avoids
  | call function =>
    have own : attributesOf owner function.paths = [] := avoids
    simp [apply, Expr.apply, Expr.paths, Code.Arguments.paths_ofList, own, hasHole]

section Writer

variable {mapper : Mapper} {element : Schema.ElementType} {t : Mapping.Transform}

theorem Mapper.generatedTransform_eq_ok {ref : Schema.TypeRef} {function : String}
    (result : mapper.generatedTransform ref function = .ok t) :
    t = ⟨.call (mapper.scope.generatedName ref function).expr,
      (mapper.scope.generatedName ref function).imports⟩ := by
  simp only [Mapper.generatedTransform, Conversion.checked, Result.bind_eq_ok, Result.pure_eq_ok,
    Result.mapError_eq_ok, Result.map_eq_ok] at result
  obtain ⟨_, ⟨_, _, rfl⟩, rfl⟩ := result
  rfl

theorem Mapper.writer_avoids (result : mapper.writer element = .ok t) :
    attributesOf "value" t.conversion.ownPaths = [] := by
  have other : "value".toList.head? ≠ some '_' := by decide
  unfold Mapper.writer at result
  split at result
  · cases result; rfl
  · cases result; rfl
  · split at result
    · cases result; rfl
    · rw [Mapper.generatedTransform_eq_ok result]
      exact attributesOf_generatedName other _ _ _
  · split at result
    · rename_i known _
      cases result
      cases known <;> rfl
    · split at result
      · cases result; rfl
      · rw [Mapper.generatedTransform_eq_ok result]
        exact attributesOf_generatedName other _ _ _
  · cases result
  · cases result

theorem Mapper.writer_hasHole (result : mapper.writer element = .ok t)
    (notMessage : element.isMessage = false) : t.conversion.hasHole = true := by
  unfold Mapper.writer at result
  split at result
  · cases result; rfl
  · cases result; rfl
  · split at result
    · cases result; rfl
    · rw [Mapper.generatedTransform_eq_ok result]
      rfl
  · cases notMessage
  · cases result
  · cases result

end Writer

namespace Value

section Source

variable {c : Conversion} (attr : String)

theorem attributesOf_hostField (name : String) :
    attributesOf "value" (hostField messageName name).paths = [] := by
  rw [hostField]
  split
  · rfl
  · rfl

theorem attributesOf_taken : attributesOf "value" (valueName.attribute attr).paths = [attr] := rfl

theorem attributesOf_freePaths (bound : List String) {paths : List Code.Path}
    (none : attributesOf "value" paths = []) :
    attributesOf "value" (Code.freePaths bound paths) = [] := by
  rw [List.eq_nil_iff_forall_not_mem] at none ⊢
  intro a taken
  obtain ⟨rest, member⟩ := Code.mem_attributesOf.mp taken
  exact none a (Code.mem_attributesOf.mpr ⟨rest, (Code.mem_freePaths.mp member).1⟩)

theorem attributesOf_applyItem (avoids : attributesOf "value" c.ownPaths = []) :
    attributesOf "value" (c.apply (.name "item")).paths = [] := by
  rw [Conversion.attributesOf_apply avoids (by decide)]
  split <;> rfl

theorem attributesOf_applyTaken (avoids : attributesOf "value" c.ownPaths = []) :
    attributesOf "value" (c.apply (valueName.attribute attr)).paths =
      if c.hasHole then [attr] else [] :=
  Conversion.attributesOf_apply avoids (by simp [valueName])

theorem attributesOf_invoke {target : Expr} (other : target ≠ .name "value") (method : String)
    (arguments : List Expr) : attributesOf "value" (invoke target method arguments).paths =
      attributesOf "value" target.paths ++
        attributesOf "value" (arguments.flatMap (·.paths)) := by
  rw [invoke, Expr.apply, Expr.paths, Code.Arguments.paths_ofList, Code.attributesOf_append,
    Code.attributesOf_attribute other]

theorem hostField_ne (name : String) : hostField messageName name ≠ .name "value" := by
  rw [hostField]
  split
  · simp [Expr.apply]
  · simp

theorem attributesOf_copyInto {target : Expr} (value : Expr) (other : target ≠ .name "value")
    (quiet : attributesOf "value" target.paths = []) :
    attributesOf "value" (copyInto target value).paths = attributesOf "value" value.paths := by
  rw [copyInto, Stmt.paths, attributesOf_invoke other, quiet]
  simp

theorem attributesOf_markSet (name : String) :
    attributesOf "value" (markSet (hostField messageName name)).paths = [] := by
  rw [markSet, Stmt.paths, attributesOf_invoke (hostField_ne name), attributesOf_hostField]
  rfl

theorem attributesOf_assign (name : String) (value : Expr) :
    attributesOf "value" (assignHostField messageName name value).paths =
      attributesOf "value" value.paths := by
  rw [assignHostField]
  split
  · simp [Stmt.paths, Expr.apply, Expr.paths, Code.Arguments.paths_ofList, Code.attributesOf_cons,
      Code.Path.attributeOf?, messageName]
  · simp [Stmt.paths, Expr.paths, Expr.dotted?, Code.attributesOf_cons, Code.Path.attributeOf?,
      messageName]

theorem attributesOf_writeSingle (info : Schema.FieldInfo)
    (avoids : attributesOf "value" c.ownPaths = []) :
    attributesOf "value" (writeSingle messageName (valueName.attribute attr) info c).paths =
      if c.hasHole then [attr] else [] := by
  have applied := attributesOf_applyTaken attr avoids
  rw [writeSingle]
  split
  · split
    · rename_i hasHole
      rw [attributesOf_copyInto _ (hostField_ne _) (attributesOf_hostField _), applied, if_pos hasHole]
    · exact attributesOf_markSet _
  · rw [attributesOf_assign, applied]

theorem source_of_attributes {s : Stmt} (taken : attributesOf "value" s.paths = [attr]) :
    s.source? = some attr := by
  simp [Stmt.source?, blockSource?, blockPaths, taken]

/-- However a field is written, one statement does it, and it takes the field's attribute alone. -/
theorem writeWith_source (f : Field) (avoids : attributesOf "value" c.ownPaths = [])
    (hole : (convertedElement f).isMessage = false → c.hasHole = true) :
    ∃ s, writeWith messageName (valueName.attribute attr) f c = [s] ∧ s.source? = some attr := by
  have access := attributesOf_hostField f.name
  have taken := attributesOf_taken attr
  have eachItem (bound : List String) := attributesOf_freePaths bound (attributesOf_applyItem avoids)
  have invoked (method : String) (argument : Expr) :
      attributesOf "value" (invoke (hostField messageName f.name) method [argument]).paths =
        attributesOf "value" argument.paths := by
    rw [attributesOf_invoke (hostField_ne f.name), access]
    simp
  cases f with
  | map info key value =>
    rw [writeWith]
    split
    · refine ⟨_, rfl, source_of_attributes attr ?_⟩
      rw [Stmt.paths, Code.Head.paths, blockPaths, blockPaths, Code.attributesOf_append, taken,
        List.append_nil, attributesOf_copyInto]
      · rw [attributesOf_applyItem avoids]
        rfl
      · simp
      · rw [Expr.paths, Code.attributesOf_append, access]
        rfl
    · split
      · refine ⟨_, rfl, source_of_attributes attr ?_⟩
        rw [Stmt.paths, invoked, taken]
      · refine ⟨_, rfl, source_of_attributes attr ?_⟩
        rw [Stmt.paths, invoked, Expr.paths, Code.attributesOf_append, eachItem, taken]
        rfl
  | ordinary info =>
    rw [writeWith]
    split
    · split
      · refine ⟨_, rfl, source_of_attributes attr ?_⟩
        rw [Stmt.paths, invoked, taken]
      · refine ⟨_, rfl, source_of_attributes attr ?_⟩
        rw [Stmt.paths, invoked, Expr.paths, Code.attributesOf_append, eachItem, taken]
        rfl
    · rename_i single
      have written := attributesOf_writeSingle attr info avoids
      split
      · refine ⟨_, rfl, ?_⟩
        rw [Stmt.source?, blockSource?, blockPaths, blockPaths, Stmt.paths, Code.Head.paths, blockPaths,
          blockPaths, List.append_nil, List.append_nil, Code.attributesOf_append, Expr.paths, taken, written]
        cases c.hasHole <;> simp
      · rename_i noPresence
        have notMessage : info.element.isMessage = false := by
          simp [Field.hasPresence, Field.isImplicitOptional, Field.isMap, Field.info,
            Field.element, single] at noPresence
          exact noPresence.2
        refine ⟨_, rfl, source_of_attributes attr ?_⟩
        rw [written, if_pos (hole notMessage)]

end Source

end Value

end ProtoBindings
