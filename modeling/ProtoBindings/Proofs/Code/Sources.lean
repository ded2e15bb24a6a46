import ProtoBindings.Proofs.Code.Paths

namespace ProtoBindings.Code

def Path.attributeOf? (owner : String) : Path → Option String
  | id :: attr :: _ => if id = owner then some attr else none
  | _ => none

def attributesOf (owner : String) (paths : List Path) : List String :=
  paths.filterMap (Path.attributeOf? owner)

/-- The attribute of `value` that a block takes, if it takes one and no other. -/
def blockSource? (body : List Stmt) : Option String :=
  match attributesOf "value" (blockPaths body) with
  | [] => none
  | attr :: rest => if rest.all (· == attr) then some attr else none

def Stmt.source? (s : Stmt) : Option String := blockSource? [s]

def Arguments.keywords : Arguments → List String
  | .nil => []
  | .positional _ rest => rest.keywords
  | .keyword name _ rest => name :: rest.keywords

/-- The class whose instance a statement returns, with the attributes that it sets. -/
def Stmt.returned? : Stmt → Option (String × List String)
  | .retCall (.name id) arguments => some (id, arguments.keywords)
  | _ => none

/-- A case of a function that tells by a text `which` class to return an instance of. -/
def Stmt.namedCase? : Stmt → Option (String × String × List String)
  | .compound (.ifTest (.equals (.name "which") (.string case))) [s] => s.returned?.map (case, ·)
  | _ => none

def Expr.tested? : Expr → Option String
  | .call (.name "isinstance") (.positional (.name "value") (.positional (.name id) .nil)) => some id
  | _ => .none

/-- A case of a function that tells by the class of `value` what to do, with the attribute it takes. -/
def Stmt.classCase? : Stmt → Option (String × String)
  | .compound (.ifTest test) body => (test.tested?).bind fun id => (blockSource? body).map (id, ·)
  | .compound (.elifTest test) body => (test.tested?).bind fun id => (blockSource? body).map (id, ·)
  | _ => none

theorem Arguments.keywords_ofKeywords (pairs : List (String × Expr)) :
    (ofKeywords pairs).keywords = pairs.map (·.1) := by
  induction pairs with
  | nil => rfl
  | cons pair pairs ih => rw [ofKeywords, keywords, ih, List.map_cons]

theorem mem_attributesOf {owner attr : String} {paths : List Path} :
    attr ∈ attributesOf owner paths ↔ ∃ rest, owner :: attr :: rest ∈ paths := by
  simp only [attributesOf, List.mem_filterMap]
  constructor
  · rintro ⟨p, member, taken⟩
    unfold Path.attributeOf? at taken
    split at taken
    · split at taken
      · rename_i same
        cases taken
        exact ⟨_, same ▸ member⟩
      · cases taken
    · cases taken
  · rintro ⟨rest, member⟩
    exact ⟨_, member, by simp [Path.attributeOf?]⟩

@[simp] theorem attributesOf_append (owner : String) (first second : List Path) :
    attributesOf owner (first ++ second) = attributesOf owner first ++ attributesOf owner second :=
  List.filterMap_append ..

theorem attributesOf_cons (owner : String) (p : Path) (rest : List Path) :
    attributesOf owner (p :: rest) = (p.attributeOf? owner).toList ++ attributesOf owner rest := by
  rw [attributesOf, List.filterMap_cons]
  cases p.attributeOf? owner <;> rfl

theorem attributesOf_attribute {owner : String} {e : Expr} (other : e ≠ .name owner) (id : String) :
    attributesOf owner (e.attribute id).paths = attributesOf owner e.paths := by
  cases dotted : e.dotted? with
  | none => simp [Expr.paths, dotted]
  | some p =>
    rw [Expr.paths_of_dotted dotted, Expr.paths, dotted]
    unfold Expr.dotted? at dotted
    split at dotted
    · rename_i name
      cases dotted
      have different : name ≠ owner := fun same => other (same ▸ rfl)
      simp [attributesOf, Path.attributeOf?, different]
    · obtain ⟨q, ofTarget, rfl⟩ := Option.map_eq_some_iff.mp dotted
      obtain ⟨first, rest, rfl⟩ := List.exists_cons_of_ne_nil (Expr.dotted_ne_nil ofTarget)
      cases rest <;> rfl
    · cases dotted

end ProtoBindings.Code
