import Mathlib.Data.List.Nodup
import ProtoBindings.Json.Parse
import ProtoBindings.Proofs.Json.Token
import ProtoBindings.Proofs.Result

namespace ProtoBindings.Json

open Text (CodePoints)

def separated : List (List Token) → List Token
  | [] => []
  | [last] => last
  | first :: rest => first ++ .comma :: separated rest

def terminated (parts : List (List Token)) : List Token := parts.flatMap (· ++ [.comma])

theorem separated_concat (parts : List (List Token)) (last : List Token) :
    separated (parts ++ [last]) = terminated parts ++ last := by
  induction parts with
  | nil => rfl
  | cons first rest ih =>
    have more : rest ++ [last] ≠ [] := by simp
    rw [List.cons_append, separated.eq_3 _ _ more, ih, terminated, terminated, List.flatMap_cons,
      List.append_assoc, List.append_assoc]
    rfl

theorem separated_terminated {parts : List (List Token)} (present : parts ≠ []) :
    separated parts ++ [.comma] = terminated parts := by
  obtain ⟨init, last, rfl⟩ := List.eq_nil_or_concat parts |>.resolve_left present
  rw [List.concat_eq_append, separated_concat, terminated, terminated, List.flatMap_append, List.append_assoc]
  simp

namespace Value

mutual

/-- The tokens that a value is written with. -/
def tokens : Value → List Token
  | .text codes => [.string codes]
  | .array items => .openBracket :: separated (itemTokens items) ++ [.closeBracket]
  | .object members => .openBrace :: separated (memberTokens members) ++ [.closeBrace]
  | scalar => [.scalar scalar]

def itemTokens : List Value → List (List Token)
  | [] => []
  | item :: rest => item.tokens :: itemTokens rest

def memberTokens : List (CodePoints × Value) → List (List Token)
  | [] => []
  | (name, value) :: rest => (.string name :: .colon :: value.tokens) :: memberTokens rest

end

def member (name : CodePoints) (value : Value) : List Token := .string name :: .colon :: value.tokens

theorem itemTokens_eq (items : List Value) : itemTokens items = items.map tokens := by
  induction items with
  | nil => rfl
  | cons item rest ih => rw [itemTokens, ih, List.map_cons]

theorem memberTokens_eq (members : Members) : memberTokens members = members.map fun m => member m.1 m.2 := by
  induction members with
  | nil => rfl
  | cons m rest ih => rw [memberTokens, ih, List.map_cons, member]

theorem tokens_of_isScalar {v : Value} (isScalar : v.IsScalar) : v.tokens = [.scalar v] := by
  cases v <;> first | rfl | exact isScalar.elim

/-- What may stand within some enclosures: none is entered at the limit, and no object has a name
    twice. -/
inductive Allowed : Nat → Value → Prop
  | scalar {level v} : v.IsScalar → Allowed level v
  | text {level codes} : Allowed level (.text codes)
  | array {level items} : level < maxNesting → (∀ item ∈ items, Allowed (level + 1) item) →
      Allowed level (.array items)
  | object {level members} : level < maxNesting → (members.map (·.1)).Nodup →
      (∀ m ∈ members, Allowed (level + 1) m.2) → Allowed level (.object members)

theorem Allowed.real_lt {level bits : Nat} (allowed : Allowed level (.real bits)) : bits < 2 ^ 64 := by
  cases allowed with
  | scalar isScalar => exact isScalar

end Value

theorem repeated?_eq_none {done : Members} : State.repeated? done = none ↔ (done.map (·.1)).Nodup := by
  induction done with
  | nil => simp [State.repeated?]
  | cons m rest ih =>
    obtain ⟨name, value⟩ := m
    rw [State.repeated?, List.map_cons, List.nodup_cons, ← ih]
    cases State.repeated? rest <;> simp

def Frame.tokens : Frame → List Token
  | .items done => .openBracket :: terminated (done.reverse.map Value.tokens)
  | .member done name =>
    .openBrace :: terminated (done.reverse.map fun m => Value.member m.1 m.2) ++ [.string name, .colon]

def Frame.values : Frame → List Value
  | .items done => done
  | .member done _ => done.map (·.2)

def Frame.written (around : List Frame) : List Token := around.reverse.flatMap Frame.tokens

theorem Frame.written_cons (frame : Frame) (around : List Frame) :
    written (frame :: around) = written around ++ frame.tokens := by
  simp [written]

inductive Frame.Allowed : List Frame → Prop
  | nil : Allowed []
  | cons {frame around} : around.length < maxNesting →
      (∀ v ∈ frame.values, v.Allowed (around.length + 1)) → Allowed around → Allowed (frame :: around)

namespace State

/-- The tokens that lead to a state. -/
def written : State → List Token
  | .value around => Frame.written around
  | .nextName done around => Frame.written around ++
      .openBrace :: terminated (done.reverse.map fun m => Value.member m.1 m.2)
  | .colon done name around => Frame.written around ++
      .openBrace :: terminated (done.reverse.map fun m => Value.member m.1 m.2) ++ [.string name]
  | .afterItem done around => Frame.written around ++
      .openBracket :: separated (done.reverse.map Value.tokens)
  | .afterMember done around => Frame.written around ++
      .openBrace :: separated (done.reverse.map fun m => Value.member m.1 m.2)
  | .finished v => v.tokens

def Allowed : State → Prop
  | .value around => Frame.Allowed around
  | .nextName done around => Frame.Allowed (.member done [] :: around)
  | .colon done name around => Frame.Allowed (.member done name :: around)
  | .afterItem done around => done ≠ [] ∧ Frame.Allowed (.items done :: around)
  | .afterMember done around => done ≠ [] ∧ Frame.Allowed (.member done [] :: around)
  | .finished v => v.Allowed 0

theorem withValue_sound {v : Value} {around : List Frame} (allowed : Frame.Allowed around)
    (fits : v.Allowed around.length) :
    (withValue v around).written = Frame.written around ++ v.tokens ∧ (withValue v around).Allowed := by
  cases allowed with
  | nil => exact ⟨rfl, fits⟩
  | @cons frame around room values outer =>
    cases frame with
    | items done =>
      refine ⟨?_, List.cons_ne_nil _ _, .cons room ?_ outer⟩
      · simp [withValue, written, Frame.written_cons, Frame.tokens, separated_concat]
      · exact List.forall_mem_cons.mpr ⟨fits, values⟩
    | member done name =>
      refine ⟨?_, List.cons_ne_nil _ _, .cons room ?_ outer⟩
      · simp [withValue, written, Frame.written_cons, Frame.tokens, separated_concat, Value.member]
      · exact List.forall_mem_cons.mpr ⟨fits, values⟩

theorem closeObject_eq_ok {done : Members} {around : List Frame} {next : State} :
    closeObject done around = .ok next ↔
      (done.map (·.1)).Nodup ∧ next = withValue (.object done.reverse) around := by
  rw [closeObject, ← repeated?_eq_none]
  cases repeated? done with
  | none => simp [eq_comm]
  | some name => simp

theorem enter_eq_ok {what : Enclosure} {around : List Frame} {u : Unit} :
    enter what around = .ok u ↔ around.length < maxNesting := by
  rw [enter]
  split <;> simp [*]

inductive Leads : State → Token → State → Prop
  | scalar {around v} : Leads (.value around) (.scalar v) (withValue v around)
  | text {around codes} : Leads (.value around) (.string codes) (withValue (.text codes) around)
  | openArray {around} : around.length < maxNesting →
      Leads (.value around) .openBracket (.value (.items [] :: around))
  | openObject {around} : around.length < maxNesting →
      Leads (.value around) .openBrace (.nextName [] around)
  | emptyArray {around} : Leads (.value (.items [] :: around)) .closeBracket (withValue (.array []) around)
  | emptyObject {around} : Leads (.nextName [] around) .closeBrace (withValue (.object []) around)
  | name {done around codes} : Leads (.nextName done around) (.string codes) (.colon done codes around)
  | colon {done name around} : Leads (.colon done name around) .colon (.value (.member done name :: around))
  | nextItem {done around} : Leads (.afterItem done around) .comma (.value (.items done :: around))
  | closeArray {done around} :
      Leads (.afterItem done around) .closeBracket (withValue (.array done.reverse) around)
  | nextMember {done around} : Leads (.afterMember done around) .comma (.nextName done around)
  | closeObject {done around} : (done.map (·.1)).Nodup →
      Leads (.afterMember done around) .closeBrace (withValue (.object done.reverse) around)

theorem leads_of_step {state next : State} {lexeme : Lexeme} (stepped : state.step lexeme = .ok next) :
    Leads state lexeme.token next := by
  rw [step.eq_def] at stepped
  split at stepped <;> rename_i isToken <;> (try rw [isToken]) <;> try cases stepped
  · exact .scalar
  · exact .text
  · obtain ⟨_, entered, made⟩ := Result.bind_eq_ok.mp stepped
    cases made
    exact .openArray (enter_eq_ok.mp entered)
  · obtain ⟨_, entered, made⟩ := Result.bind_eq_ok.mp stepped
    cases made
    exact .openObject (enter_eq_ok.mp entered)
  · exact .emptyArray
  · exact .emptyObject
  · exact .name
  · exact .colon
  · exact .nextItem
  · exact .closeArray
  · exact .nextMember
  · obtain ⟨distinct, rfl⟩ := closeObject_eq_ok.mp stepped
    exact .closeObject distinct

theorem step_of_leads {state next : State} {lexeme : Lexeme} (leads : Leads state lexeme.token next) :
    state.step lexeme = .ok next := by
  obtain ⟨token, offset⟩ := lexeme
  cases leads with
  | scalar | text | emptyArray | emptyObject | colon | nextItem | closeArray | nextMember => rfl
  | @name done => cases done <;> rfl
  | openArray room | openObject room =>
    exact Result.bind_eq_ok.mpr ⟨(), enter_eq_ok.mpr room, rfl⟩
  | closeObject distinct => exact closeObject_eq_ok.mpr ⟨distinct, rfl⟩

/-- A step reads its token, and nothing else. -/
theorem Leads.sound {state next : State} {token : Token} (leads : Leads state token next)
    (plain : token.IsPlain) (allowed : state.Allowed) :
    next.written = state.written ++ [token] ∧ next.Allowed := by
  cases leads with
  | scalar =>
    rw [← Value.tokens_of_isScalar plain]
    exact withValue_sound allowed (.scalar plain)
  | text => exact withValue_sound allowed .text
  | openArray room =>
    refine ⟨?_, .cons room nofun allowed⟩
    simp [written, Frame.written_cons, Frame.tokens, terminated]
  | openObject room =>
    refine ⟨?_, .cons room nofun allowed⟩
    simp [written, terminated]
  | emptyArray =>
    cases allowed with
    | cons room _ outer =>
      obtain ⟨same, kept⟩ := withValue_sound (v := .array []) outer (.array room nofun)
      refine ⟨same.trans ?_, kept⟩
      simp [written, Frame.written_cons, Frame.tokens, terminated, Value.tokens, Value.itemTokens, separated]
  | emptyObject =>
    cases allowed with
    | cons room _ outer =>
      obtain ⟨same, kept⟩ := withValue_sound (v := .object []) outer (.object room List.nodup_nil nofun)
      refine ⟨same.trans ?_, kept⟩
      simp [written, terminated, Value.tokens, Value.memberTokens, separated]
  | name =>
    refine ⟨?_, ?_⟩
    · simp [written]
    · cases allowed with
      | cons room values outer => exact .cons room values outer
  | colon =>
    refine ⟨?_, allowed⟩
    simp [written, Frame.written_cons, Frame.tokens]
  | @nextItem done around =>
    have present : done.reverse.map Value.tokens ≠ [] := by simpa using allowed.1
    refine ⟨?_, allowed.2⟩
    rw [written, written, Frame.written_cons, Frame.tokens, ← separated_terminated present, List.append_assoc,
      List.cons_append]
  | @nextMember done around =>
    have present : (done.reverse.map fun m => Value.member m.1 m.2) ≠ [] := by simpa using allowed.1
    refine ⟨?_, allowed.2⟩
    rw [written, written, ← separated_terminated present, List.append_assoc, List.cons_append]
  | @closeArray done around =>
    cases allowed.2 with
    | cons room values outer =>
      have fits : (Value.array done.reverse).Allowed around.length :=
        .array room fun item member => values item (List.mem_reverse.mp member)
      obtain ⟨same, kept⟩ := withValue_sound outer fits
      refine ⟨same.trans ?_, kept⟩
      rw [written, Value.tokens, Value.itemTokens_eq, List.append_assoc]
  | @closeObject done around distinct =>
    cases allowed.2 with
    | cons room values outer =>
      have names : (done.reverse.map (·.1)).Nodup := by
        rwa [List.map_reverse, List.nodup_reverse]
      have fits : (Value.object done.reverse).Allowed around.length :=
        .object room names fun m member => values _ (List.mem_map_of_mem (List.mem_reverse.mp member))
      obtain ⟨same, kept⟩ := withValue_sound outer fits
      refine ⟨same.trans ?_, kept⟩
      rw [written, Value.tokens, Value.memberTokens_eq, List.append_assoc]

/-- What was read is what leads to the state. -/
theorem run_sound {lexemes : List Lexeme} {state final : State}
    (ran : lexemes.foldlM step state = .ok final) (plain : ∀ l ∈ lexemes, l.token.IsPlain)
    (allowed : state.Allowed) :
    final.written = state.written ++ lexemes.map (·.token) ∧ final.Allowed := by
  induction lexemes generalizing state with
  | nil =>
    cases ran
    exact ⟨(List.append_nil _).symm, allowed⟩
  | cons first rest ih =>
    obtain ⟨next, stepped, later⟩ := Result.bind_eq_ok.mp ran
    obtain ⟨one, kept⟩ := (leads_of_step stepped).sound (plain first List.mem_cons_self) allowed
    obtain ⟨all, done⟩ := ih later (fun l member => plain l (List.mem_cons_of_mem _ member)) kept
    refine ⟨?_, done⟩
    rw [all, one, List.append_assoc, List.map_cons, List.singleton_append]

theorem run_cons {state next : State} {l : Lexeme} {rest : List Lexeme} (leads : Leads state l.token next) :
    (l :: rest).foldlM step state = rest.foldlM step next := by
  rw [List.foldlM_cons, step_of_leads leads, Result.ok_bind]

theorem run_append {state next : State} {first rest : List Lexeme}
    (ran : first.foldlM step state = .ok next) :
    (first ++ rest).foldlM step state = rest.foldlM step next := by
  rw [List.foldlM_append, ran, Result.ok_bind]

/-- The tokens of a value are read as the value. -/
def Takes (v : Value) (around : List Frame) : Prop :=
  ∀ ls : List Lexeme, ls.map (·.token) = v.tokens → ls.foldlM step (.value around) = .ok (withValue v around)

theorem run_items {around : List Frame} {items : List Value} (present : items ≠ [])
    (each : ∀ item ∈ items, ∀ done, Takes item (.items done :: around)) :
    ∀ (done : List Value) (ls : List Lexeme), ls.map (·.token) = separated (items.map Value.tokens) →
      ls.foldlM step (.value (.items done :: around)) = .ok (.afterItem (items.reverse ++ done) around) := by
  induction items with
  | nil => exact absurd rfl present
  | cons item rest ih =>
    intro done ls same
    cases rest with
    | nil => exact each item List.mem_cons_self done ls same
    | cons next rest =>
      obtain ⟨here, later, rfl, isItem, others⟩ := List.map_eq_append_iff.mp same
      obtain ⟨comma, after, rfl, isComma, isRest⟩ := List.map_eq_cons_iff.mp others
      have first := each item List.mem_cons_self done here isItem
      have step : Leads (.afterItem (item :: done) around) comma.token
          (.value (.items (item :: done) :: around)) := isComma ▸ .nextItem
      have more := ih (List.cons_ne_nil _ _) (fun v member => each v (List.mem_cons_of_mem _ member))
        (item :: done) after isRest
      rw [run_append first, withValue, run_cons step, more]
      simp

theorem run_members {around : List Frame} {members : Members} (present : members ≠ [])
    (each : ∀ m ∈ members, ∀ done, Takes m.2 (.member done m.1 :: around)) :
    ∀ (done : Members) (ls : List Lexeme),
      ls.map (·.token) = separated (members.map fun m => Value.member m.1 m.2) →
      ls.foldlM step (.nextName done around) = .ok (.afterMember (members.reverse ++ done) around) := by
  have one (m : CodePoints × Value) (takes : ∀ done, Takes m.2 (.member done m.1 :: around))
      (done : Members) (ls : List Lexeme) (same : ls.map (·.token) = Value.member m.1 m.2) :
      ls.foldlM step (.nextName done around) = .ok (.afterMember (m :: done) around) := by
    obtain ⟨name, ls, rfl, isName, same⟩ := List.map_eq_cons_iff.mp same
    obtain ⟨colon, ls, rfl, isColon, same⟩ := List.map_eq_cons_iff.mp same
    have first : Leads (.nextName done around) name.token (.colon done m.1 around) := isName ▸ .name
    have second : Leads (.colon done m.1 around) colon.token (.value (.member done m.1 :: around)) :=
      isColon ▸ .colon
    rw [run_cons first, run_cons second, takes done ls same]
    rfl
  induction members with
  | nil => exact absurd rfl present
  | cons m rest ih =>
    intro done ls same
    have takes := each m List.mem_cons_self
    cases rest with
    | nil => exact one m takes done ls same
    | cons next rest =>
      obtain ⟨here, later, rfl, isMember, others⟩ := List.map_eq_append_iff.mp same
      obtain ⟨comma, after, rfl, isComma, isRest⟩ := List.map_eq_cons_iff.mp others
      have step : Leads (.afterMember (m :: done) around) comma.token (.nextName (m :: done) around) :=
        isComma ▸ .nextMember
      have more := ih (List.cons_ne_nil _ _) (fun v member => each v (List.mem_cons_of_mem _ member))
        (m :: done) after isRest
      rw [run_append (one m takes done here isMember), run_cons step, more]
      simp

theorem takes_array {around : List Frame} {items : List Value} (room : around.length < maxNesting)
    (each : ∀ item ∈ items, ∀ done, Takes item (.items done :: around)) : Takes (.array items) around := by
  intro ls same
  obtain ⟨front, back, rfl, isFront, isBack⟩ := List.map_eq_append_iff.mp same
  obtain ⟨opening, inside, rfl, isOpening, isInside⟩ := List.map_eq_cons_iff.mp isFront
  obtain ⟨closing, rfl, isClosing⟩ := List.map_eq_singleton_iff.mp isBack
  have entered : Leads (.value around) opening.token (.value (.items [] :: around)) :=
    isOpening ▸ .openArray room
  rw [List.cons_append, run_cons entered]
  rw [Value.itemTokens_eq] at isInside
  by_cases empty : items = []
  · subst empty
    obtain rfl : inside = [] := List.map_eq_nil_iff.mp isInside
    exact run_cons (isClosing ▸ .emptyArray)
  -- The items read so far lie in reverse order, and the bracket turns them over.
  · have left : Leads (.afterItem (items.reverse ++ []) around) closing.token
        (withValue (.array items) around) := by
      have leads : Leads (.afterItem items.reverse around) .closeBracket
          (withValue (.array items.reverse.reverse) around) := .closeArray
      rwa [List.reverse_reverse, ← isClosing, ← List.append_nil items.reverse] at leads
    rw [run_append (run_items empty each [] inside isInside), run_cons left]
    rfl

theorem takes_object {around : List Frame} {members : Members} (room : around.length < maxNesting)
    (distinct : (members.map (·.1)).Nodup)
    (each : ∀ m ∈ members, ∀ done, Takes m.2 (.member done m.1 :: around)) :
    Takes (.object members) around := by
  intro ls same
  obtain ⟨front, back, rfl, isFront, isBack⟩ := List.map_eq_append_iff.mp same
  obtain ⟨opening, inside, rfl, isOpening, isInside⟩ := List.map_eq_cons_iff.mp isFront
  obtain ⟨closing, rfl, isClosing⟩ := List.map_eq_singleton_iff.mp isBack
  have entered : Leads (.value around) opening.token (.nextName [] around) := isOpening ▸ .openObject room
  rw [List.cons_append, run_cons entered]
  rw [Value.memberTokens_eq] at isInside
  by_cases empty : members = []
  · subst empty
    obtain rfl : inside = [] := List.map_eq_nil_iff.mp isInside
    exact run_cons (isClosing ▸ .emptyObject)
  · have left : Leads (.afterMember (members.reverse ++ []) around) closing.token
        (withValue (.object members) around) := by
      have names : (members.reverse.map (·.1)).Nodup := by
        rwa [List.map_reverse, List.nodup_reverse]
      have leads : Leads (.afterMember members.reverse around) .closeBrace
          (withValue (.object members.reverse.reverse) around) := .closeObject names
      rwa [List.reverse_reverse, ← isClosing, ← List.append_nil members.reverse] at leads
    rw [run_append (run_members empty each [] inside isInside), run_cons left]
    rfl

theorem takes_of_allowed {v : Value} {level : Nat} (allowed : v.Allowed level) :
    ∀ around : List Frame, around.length = level → Takes v around := by
  induction allowed with
  | scalar isScalar =>
    intro around _ ls same
    rw [Value.tokens_of_isScalar isScalar] at same
    obtain ⟨l, rfl, isToken⟩ := List.map_eq_singleton_iff.mp same
    exact run_cons (isToken ▸ .scalar)
  | text =>
    intro around _ ls same
    obtain ⟨l, rfl, isToken⟩ := List.map_eq_singleton_iff.mp same
    exact run_cons (isToken ▸ .text)
  | array room _ ih =>
    rintro around rfl
    exact takes_array room fun item member done => ih item member (.items done :: around) rfl
  | object room distinct _ ih =>
    rintro around rfl
    exact takes_object room distinct fun m member done => ih m member (.member done m.1 :: around) rfl

end State

/-- A source is read as a value exactly if its tokens are those of the value, and the value is not nested
    too deep and has no name twice. -/
theorem parse_eq_ok {source : String} {v : Value} : parse source = .ok v ↔
    source.toList.head? ≠ some '\uFEFF' ∧ (lex 0 source.toList).map (·.token) = v.tokens ∧ v.Allowed 0 := by
  rw [parse]
  constructor
  · intro parsed
    split at parsed
    · cases parsed
    · rename_i noMark
      obtain ⟨final, ran, ended⟩ := Result.bind_eq_ok.mp parsed
      split at ended
      · cases ended
        obtain ⟨same, allowed⟩ := State.run_sound ran (fun _ => isPlain_of_mem_lex) .nil
        exact ⟨noMark, same.symm, allowed⟩
      · cases ended
  · rintro ⟨noMark, same, allowed⟩
    have ran := State.takes_of_allowed allowed [] rfl _ same
    rw [if_neg noMark, ran]
    rfl

end ProtoBindings.Json
