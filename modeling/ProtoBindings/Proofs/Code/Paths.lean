import ProtoBindings.Code.Function

namespace ProtoBindings.Code

abbrev Path := List String

def Path.startsIn (names : List String) (p : Path) : Bool := p.head?.any names.contains

def freePaths (bound : List String) (paths : List Path) : List Path :=
  paths.filter fun p => !p.startsIn bound

def Expr.dotted? : Expr → Option Path
  | .name id => some [id]
  | .attribute target id => target.dotted?.map (· ++ [id])
  | _ => .none

mutual

def Expr.paths : Expr → List Path
  | .name id => [[id]]
  | .literal _ => []
  | .string _ => []
  | .number _ => []
  | .attribute target id =>
    match target.dotted? with
    | some p => [p ++ [id]]
    | .none => target.paths
  | .item target keys => target.paths ++ keys.paths
  | .call callee arguments => callee.paths ++ arguments.paths
  | .list elements => elements.paths
  | .singleton element => element.paths
  | .conditional value test otherwise => value.paths ++ test.paths ++ otherwise.paths
  | .isNone operand => operand.paths
  | .isNotNone operand => operand.paths
  | .equals left right => left.paths ++ right.paths
  | .await operand => operand.paths
  | .each element source => freePaths ["item"] element.paths ++ source.paths
  | .dictEach value source => freePaths ["key", "item"] value.paths ++ source.paths
  | .lambda body => freePaths ["value"] body.paths
  | .showing _ shown => shown.paths

def Arguments.paths : Arguments → List Path
  | .nil => []
  | .positional value rest => value.paths ++ rest.paths
  | .keyword _ value rest => value.paths ++ rest.paths

end

def Head.paths : Head → List Path
  | .ifTest test => test.paths
  | .elifTest test => test.paths
  | .otherwise => []
  | .eachEntry source => source.paths
  | .eachResponse source => source.paths

def Head.bound : Head → List String
  | .eachEntry _ => ["key", "item"]
  | .eachResponse _ => ["response"]
  | _ => []

def Expr.assigned : Expr → List String
  | .name id => [id]
  | _ => []

mutual

def Stmt.paths : Stmt → List Path
  | .expr e => e.paths
  | .assign target value => target.paths ++ value.paths
  | .assignCall target callee arguments => target.paths ++ callee.paths ++ arguments.paths
  | .leave => []
  | .ret value => value.paths
  | .retCall callee arguments => callee.paths ++ arguments.paths
  | .retTable callee first entries =>
    callee.paths ++ first.paths ++ entries.flatMap fun entry => entry.2.paths
  | .yield value => value.paths
  | .raise error => error.paths
  | .compound head body => head.paths ++ blockPaths body

def blockPaths : List Stmt → List Path
  | [] => []
  | s :: rest => s.paths ++ blockPaths rest

end

mutual

def Stmt.bound : Stmt → List String
  | .assign target _ => target.assigned
  | .assignCall target _ _ => target.assigned
  | .compound head body => head.bound ++ blockBound body
  | _ => []

def blockBound : List Stmt → List String
  | [] => []
  | s :: rest => s.bound ++ blockBound rest

end

theorem mem_freePaths {bound : List String} {paths : List Path} {p : Path} :
    p ∈ freePaths bound paths ↔ p ∈ paths ∧ p.startsIn bound = false := by
  simp [freePaths]

@[simp] theorem Path.startsIn_cons (names : List String) (id : String) (rest : Path) :
    Path.startsIn names (id :: rest) = names.contains id := rfl

theorem Path.startsIn_append {names : List String} {p : Path} (present : p ≠ []) (rest : Path) :
    Path.startsIn names (p ++ rest) = Path.startsIn names p := by
  obtain ⟨id, ids, rfl⟩ := List.exists_cons_of_ne_nil present
  rfl

theorem Path.startsIn_append_names (first second : List String) (p : Path) :
    p.startsIn (first ++ second) = (p.startsIn first || p.startsIn second) := by
  cases p with
  | nil => rfl
  | cons id rest => simp

theorem Expr.dotted_ne_nil {e : Expr} {p : Path} (dotted : e.dotted? = some p) : p ≠ [] := by
  unfold dotted? at dotted
  split at dotted
  · cases dotted
    simp
  · obtain ⟨q, _, rfl⟩ := Option.map_eq_some_iff.mp dotted
    simp
  · cases dotted

theorem Expr.paths_of_dotted {e : Expr} {p : Path} (dotted : e.dotted? = some p) :
    e.paths = [p] := by
  unfold dotted? at dotted
  split at dotted
  · cases dotted
    rfl
  · obtain ⟨q, ofTarget, rfl⟩ := Option.map_eq_some_iff.mp dotted
    simp [paths, ofTarget]
  · cases dotted

theorem Expr.dotted_path (start : Expr) (p : Path) (ids : List String)
    (dotted : start.dotted? = some p) : (start.path ids).dotted? = some (p ++ ids) := by
  induction ids generalizing start p with
  | nil => simpa [path] using dotted
  | cons id rest ih =>
    have next : (start.attribute id).dotted? = some (p ++ [id]) := by simp [dotted?, dotted]
    simpa [path] using ih _ _ next

theorem Arguments.paths_ofList (es : List Expr) : (ofList es).paths = es.flatMap (·.paths) := by
  induction es with
  | nil => rfl
  | cons e es ih => rw [ofList, paths, ih, List.flatMap_cons]

theorem Arguments.paths_ofKeywords (pairs : List (String × Expr)) :
    (ofKeywords pairs).paths = pairs.flatMap (·.2.paths) := by
  induction pairs with
  | nil => rfl
  | cons pair pairs ih => rw [ofKeywords, paths, ih, List.flatMap_cons]

theorem blockPaths_append (first second : List Stmt) :
    blockPaths (first ++ second) = blockPaths first ++ blockPaths second := by
  induction first with
  | nil => rfl
  | cons s rest ih => simp [blockPaths, ih]

theorem blockPaths_eq_flatMap (body : List Stmt) : blockPaths body = body.flatMap (·.paths) := by
  induction body with
  | nil => rfl
  | cons s rest ih => rw [blockPaths, ih, List.flatMap_cons]

end ProtoBindings.Code
