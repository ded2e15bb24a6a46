import ProtoBindings.Proofs.Name.Word
import ProtoBindings.Proofs.Value.Items

namespace ProtoBindings.Code

open Name (IsWord isWordChar)

def star : String := "*"

def parameterName (text : String) : String := String.ofList (text.toList.takeWhile isWordChar)

namespace FunctionText

def parameterNames (f : FunctionText) : List String :=
  (f.params.filter (· ≠ star)).map parameterName

structure Legal (f : FunctionText) : Prop where
  distinct : f.parameterNames.Nodup
  followed : ∀ before after, f.params = before ++ star :: after → ∃ p ∈ after, p ≠ star

end FunctionText

theorem followed_iff {α : Type} {mark : α} {items : List α} :
    (∀ before after, items = before ++ mark :: after → ∃ item ∈ after, item ≠ mark) ↔
      items.getLast? ≠ some mark := by
  constructor
  · intro followed isLast
    obtain ⟨before, rfl⟩ := List.getLast?_eq_some_iff.mp isLast
    obtain ⟨item, none, _⟩ := followed before [] rfl
    cases none
  · rintro unmarked before after rfl
    by_contra marks
    have last := List.getLast?_eq_some_getLast (List.cons_ne_nil mark after)
    have isMark : (mark :: after).getLast (List.cons_ne_nil mark after) = mark := by
      rcases List.mem_cons.mp (List.getLast_mem (List.cons_ne_nil mark after)) with same | isAfter
      · exact same
      · by_contra other
        exact marks ⟨_, isAfter, other⟩
    apply unmarked
    rw [List.getLast?_append, last, isMark, Option.some_or]

section Parameters

theorem parameterName_append {name rest : String} (word : IsWord name)
    (ends : ∀ c ∈ rest.toList.head?, isWordChar c = false) : parameterName (name ++ rest) = name := by
  have stops : rest.toList.takeWhile isWordChar = [] := by
    cases characters : rest.toList with
    | nil => rfl
    | cons c cs =>
      rw [characters] at ends
      rw [List.takeWhile_cons_of_neg (by simp [ends c rfl])]
  rw [parameterName, String.toList_append, List.takeWhile_append_of_pos word, stops, List.append_nil,
    String.ofList_toList]

theorem parameterName_named {name : String} (word : IsWord name) (type default : Option Expr) :
    parameterName (Param.named name type default).text = name := by
  rw [Param.text, String.append_assoc]
  refine parameterName_append word fun c isHead => ?_
  cases type <;> cases default <;> simp at isHead <;> (subst isHead; decide)

variable {p : Param}

theorem Param.text_ne_star {name : String} (word : IsWord name) (type default : Option Expr) :
    (Param.named name type default).text ≠ star := by
  intro same
  have isEmpty : parameterName star = "" := by decide
  have named := parameterName_named word type default
  rw [same, isEmpty] at named
  subst named
  cases type <;> cases default <;>
    simp [Param.text, star, ← String.toList_inj] at same

theorem Param.text_eq_star_iff (words : ∀ name ∈ p.bound, IsWord name) :
    p.text = star ↔ p = .byNameOnly := by
  cases p with
  | named name type default =>
    have other := Param.text_ne_star (words name List.mem_cons_self) type default
    simp [other]
  | byNameOnly => simp [Param.text, star]

end Parameters

namespace Function

variable {f : Function}

theorem parameterNames_toText (words : ∀ name ∈ f.params.flatMap (·.bound), IsWord name) :
    f.toText.parameterNames = f.params.flatMap (·.bound) := by
  rw [FunctionText.parameterNames, toText]
  generalize f.params = params at words
  induction params with
  | nil => rfl
  | cons p rest ih =>
    simp only [List.flatMap_cons, List.forall_mem_append] at words
    rw [List.flatMap_cons, List.map_cons]
    cases p with
    | named name type default =>
      have word := words.1 name List.mem_cons_self
      have other := Param.text_ne_star word type default
      rw [List.filter_cons_of_pos (by simpa using other), List.map_cons, parameterName_named word,
        ih words.2]
      rfl
    | byNameOnly =>
      rw [List.filter_cons_of_neg (by simp [Param.text, star]), ih words.2]
      rfl

theorem getLast_toText (words : ∀ name ∈ f.params.flatMap (·.bound), IsWord name) :
    f.toText.params.getLast? = some star ↔ f.params.getLast? = some .byNameOnly := by
  rw [toText, List.getLast?_map, Option.map_eq_some_iff]
  constructor
  · rintro ⟨p, isLast, isStar⟩
    have ofParam : ∀ name ∈ p.bound, IsWord name := fun name isBound =>
      words name (List.mem_flatMap.mpr ⟨p, List.mem_of_getLast? isLast, isBound⟩)
    rw [isLast, (Param.text_eq_star_iff ofParam).mp isStar]
  · intro isLast
    exact ⟨_, isLast, rfl⟩

theorem legal_iff (words : ∀ name ∈ f.params.flatMap (·.bound), IsWord name) : f.toText.Legal ↔
    (f.params.flatMap (·.bound)).Nodup ∧ f.params.getLast? ≠ some .byNameOnly := by
  rw [← parameterNames_toText words, ne_eq, ← getLast_toText words, ← ne_eq, ← followed_iff]
  exact ⟨fun legal => ⟨legal.distinct, legal.followed⟩, fun ⟨distinct, followed⟩ => ⟨distinct, followed⟩⟩

theorem legal_of_names (names : List String) (bound : f.params.flatMap (·.bound) = names)
    (words : ∀ name ∈ names, IsWord name) (distinct : names.Nodup) {name : String}
    {type default : Option Expr} (last : f.params.getLast? = some (.named name type default)) :
    f.toText.Legal := by
  have named : f.params.getLast? ≠ some .byNameOnly := by
    rw [last]
    exact Option.some_inj.not.mpr Param.noConfusion
  subst bound
  exact (legal_iff words).mpr ⟨distinct, named⟩

end Function

end ProtoBindings.Code
