import ProtoBindings.Code.Function
import ProtoBindings.Mapping.Conversion
import ProtoBindings.Proofs.Name.Keyword

namespace ProtoBindings

open Name (KeywordFree isKeyword)

namespace Code

mutual

def Expr.identifiers : Expr → List String
  | .name id => [id]
  | .literal _ => []
  | .string _ => []
  | .number _ => []
  | .attribute target id => target.identifiers ++ [id]
  | .item target keys => target.identifiers ++ keys.identifiers
  | .call callee arguments => callee.identifiers ++ arguments.identifiers
  | .list elements => elements.identifiers
  | .singleton element => element.identifiers
  | .conditional value test otherwise => value.identifiers ++ test.identifiers ++ otherwise.identifiers
  | .isNone operand => operand.identifiers
  | .isNotNone operand => operand.identifiers
  | .equals left right => left.identifiers ++ right.identifiers
  | .await operand => operand.identifiers
  | .each element source => element.identifiers ++ "item" :: source.identifiers
  | .dictEach value source => value.identifiers ++ ["key", "item"] ++ source.identifiers ++ ["items"]
  | .lambda body => "value" :: body.identifiers
  | .showing _ shown => shown.identifiers

def Arguments.identifiers : Arguments → List String
  | .nil => []
  | .positional value rest => value.identifiers ++ rest.identifiers
  | .keyword name value rest => name :: value.identifiers ++ rest.identifiers

end

def Head.identifiers : Head → List String
  | .ifTest test => test.identifiers
  | .elifTest test => test.identifiers
  | .otherwise => []
  | .eachEntry source => ["key", "item"] ++ source.identifiers ++ ["items"]
  | .eachResponse source => "response" :: source.identifiers

mutual

def Stmt.identifiers : Stmt → List String
  | .expr e => e.identifiers
  | .assign target value => target.identifiers ++ value.identifiers
  | .assignCall target callee arguments =>
    target.identifiers ++ callee.identifiers ++ arguments.identifiers
  | .leave => []
  | .ret value => value.identifiers
  | .retCall callee arguments => callee.identifiers ++ arguments.identifiers
  | .retTable callee first entries =>
    callee.identifiers ++ first.identifiers ++ entries.flatMap fun entry => entry.2.identifiers
  | .yield value => value.identifiers
  | .raise error => error.identifiers
  | .compound head body => head.identifiers ++ blockIdentifiers body

def blockIdentifiers : List Stmt → List String
  | [] => []
  | s :: rest => s.identifiers ++ blockIdentifiers rest

end

def Param.identifiers : Param → List String
  | named name type default =>
    name :: type.toList.flatMap (·.identifiers) ++ default.toList.flatMap (·.identifiers)
  | byNameOnly => []

def Function.identifiers (f : Function) : List String :=
  f.name :: f.params.flatMap (·.identifiers) ++ f.returns.identifiers ++ blockIdentifiers f.body

section Expressions

variable {start callee e target : Expr} {arguments : List Expr} {id method : String}

@[simp] theorem keywordFree_name : KeywordFree (Expr.name id).identifiers ↔ isKeyword id = false := by
  show KeywordFree [id] ↔ isKeyword id = false
  simp

@[simp] theorem keywordFree_string (text : String) : KeywordFree (Expr.string text).identifiers :=
  Name.keywordFree_nil

@[simp] theorem keywordFree_number (n : Int) : KeywordFree (Expr.number n).identifiers :=
  Name.keywordFree_nil

@[simp] theorem keywordFree_none : KeywordFree Expr.none.identifiers := Name.keywordFree_nil

@[simp] theorem keywordFree_attribute : KeywordFree (target.attribute id).identifiers ↔
    KeywordFree target.identifiers ∧ isKeyword id = false := by
  show KeywordFree (target.identifiers ++ [id]) ↔ _
  simp

theorem Arguments.identifiers_ofList (es : List Expr) :
    (ofList es).identifiers = es.flatMap (·.identifiers) := by
  induction es with
  | nil => rfl
  | cons e es ih =>
    show e.identifiers ++ (ofList es).identifiers = _
    rw [ih, List.flatMap_cons]

theorem Arguments.identifiers_ofKeywords (pairs : List (String × Expr)) :
    (ofKeywords pairs).identifiers = pairs.flatMap fun pair => pair.1 :: pair.2.identifiers := by
  induction pairs with
  | nil => rfl
  | cons pair pairs ih =>
    show pair.1 :: pair.2.identifiers ++ (ofKeywords pairs).identifiers = _
    rw [ih, List.flatMap_cons]

@[simp] theorem keywordFree_apply : KeywordFree (callee.apply arguments).identifiers ↔
    KeywordFree callee.identifiers ∧ ∀ e ∈ arguments, KeywordFree e.identifiers := by
  show KeywordFree (callee.identifiers ++ (Arguments.ofList arguments).identifiers) ↔ _
  simp [Arguments.identifiers_ofList]

@[simp] theorem keywordFree_generic : KeywordFree (Expr.generic id arguments).identifiers ↔
    isKeyword id = false ∧ ∀ e ∈ arguments, KeywordFree e.identifiers := by
  show KeywordFree ([id] ++ (Arguments.ofList arguments).identifiers) ↔ _
  simp [Arguments.identifiers_ofList]

theorem Expr.identifiers_path (start : Expr) (ids : List String) :
    (start.path ids).identifiers = start.identifiers ++ ids := by
  induction ids generalizing start with
  | nil => simp [path]
  | cons id rest ih =>
    have next := ih (start.attribute id)
    have here : (start.attribute id).identifiers = start.identifiers ++ [id] := rfl
    rw [path, List.foldl_cons, ← path, next, here, List.append_assoc]
    rfl

end Expressions

section Blocks

variable {body : List Stmt}

theorem blockIdentifiers_eq_flatMap (body : List Stmt) :
    blockIdentifiers body = body.flatMap (·.identifiers) := by
  induction body with
  | nil => rfl
  | cons s rest ih =>
    show s.identifiers ++ blockIdentifiers rest = _
    rw [ih, List.flatMap_cons]

@[simp] theorem keywordFree_block :
    KeywordFree (blockIdentifiers body) ↔ ∀ s ∈ body, KeywordFree s.identifiers := by
  rw [blockIdentifiers_eq_flatMap, Name.keywordFree_flatMap]

@[simp] theorem keywordFree_typed {name : String} {type : Expr} :
    KeywordFree (Param.typed name type).identifiers ↔
      isKeyword name = false ∧ KeywordFree type.identifiers := by
  simp [Param.typed, Param.identifiers]

@[simp] theorem keywordFree_defaulted {name : String} {type default : Expr} :
    KeywordFree (Param.named name (some type) (some default)).identifiers ↔
      isKeyword name = false ∧ KeywordFree type.identifiers ∧ KeywordFree default.identifiers := by
  simp [Param.identifiers]

@[simp] theorem keywordFree_self : KeywordFree Param.self.identifiers := by decide

@[simp] theorem keywordFree_byNameOnly : KeywordFree Param.byNameOnly.identifiers :=
  Name.keywordFree_nil

theorem keywordFree_function {f : Function} : KeywordFree f.identifiers ↔
    isKeyword f.name = false ∧ (∀ p ∈ f.params, KeywordFree p.identifiers) ∧
      KeywordFree f.returns.identifiers ∧ ∀ s ∈ f.body, KeywordFree s.identifiers := by
  simp [Function.identifiers]

end Blocks

end Code

def Import.identifiers (i : Import) : List String :=
  Text.splitOn '.' i.module ++ i.name.toList ++ i.localName.toList

def Conversion.identifiers : Conversion → List String
  | identity => []
  | content => ["value"]
  | constant result => result.identifiers
  | call function => function.identifiers

section Conversion

variable {c : Conversion} {e : Code.Expr} (own : KeywordFree c.identifiers)
include own

theorem keywordFree_conversion (free : KeywordFree e.identifiers) :
    KeywordFree (c.apply e).identifiers := by
  cases c with
  | identity => exact free
  | content => exact Code.keywordFree_attribute.mpr ⟨free, by decide⟩
  | constant => exact own
  | call => exact Code.keywordFree_apply.mpr ⟨own, List.forall_mem_singleton.mpr free⟩

theorem keywordFree_callable : KeywordFree c.callable.identifiers := by
  have value : isKeyword "value" = false := by decide
  have lambda {body : Code.Expr} (free : KeywordFree body.identifiers) :
      KeywordFree (Code.Expr.lambda body).identifiers := Name.keywordFree_cons.mpr ⟨value, free⟩
  have applied := keywordFree_conversion own (Code.keywordFree_name.mpr value)
  unfold Conversion.callable
  split
  · split
    · exact own
    · exact lambda applied
  · exact lambda applied

end Conversion

end ProtoBindings
