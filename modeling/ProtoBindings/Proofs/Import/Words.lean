import ProtoBindings.Proofs.Import.Lines
import ProtoBindings.Proofs.Name.Path

namespace ProtoBindings

namespace Text

/-- A text that white space does not take apart. -/
def IsSolid (text : String) : Prop := text ≠ "" ∧ ∀ c ∈ text.toList, Unicode.isBlank c = false

instance (text : String) : Decidable (IsSolid text) :=
  decidable_of_iff (text ≠ "" ∧ text.toList.all (!Unicode.isBlank ·) = true) (by simp [IsSolid])

theorem IsSolid.space_not_mem {text : String} (solid : IsSolid text) : ' ' ∉ text.toList := by
  intro member
  have blank := solid.2 ' ' member
  revert blank
  decide

theorem IsSolid.toList_ne_nil {text : String} (solid : IsSolid text) : text.toList ≠ [] :=
  fun empty => solid.1 (String.toList_eq_nil_iff.mp empty)

theorem isSolid_append {s t : String} (solid : IsSolid s) (solid' : IsSolid t) : IsSolid (s ++ t) := by
  constructor
  · intro empty
    exact solid.1 (String.append_eq_empty_iff.mp empty).1
  · intro c member
    rw [String.toList_append, List.mem_append] at member
    exact member.elim (solid.2 c) (solid'.2 c)

theorem IsSolid.takeWhile_append {text : String} (solid : IsSolid text) (rest : List Char) :
    (text.toList ++ rest).takeWhile (!Unicode.isBlank ·) =
      text.toList ++ rest.takeWhile (!Unicode.isBlank ·) :=
  List.takeWhile_append_of_pos fun c member => by rw [solid.2 c member]; rfl

theorem IsSolid.dropWhile_append {text : String} (solid : IsSolid text) (rest : List Char) :
    (text.toList ++ rest).dropWhile (!Unicode.isBlank ·) = rest.dropWhile (!Unicode.isBlank ·) :=
  List.dropWhile_append_of_pos fun c member => by rw [solid.2 c member]; rfl

theorem IsSolid.dropBlanks_append {text : String} (solid : IsSolid text) (rest : List Char) :
    (text.toList ++ rest).dropWhile Unicode.isBlank = text.toList ++ rest := by
  obtain ⟨c, others, split⟩ := List.exists_cons_of_ne_nil solid.toList_ne_nil
  have plain : Unicode.isBlank c = false := solid.2 c (split ▸ List.mem_cons_self)
  rw [split, List.cons_append, List.dropWhile_cons_of_neg (by simp [plain])]

end Text

namespace Import

open Text (IsSolid)

theorem leadingWords_intercalate {first second : String} (solid : IsSolid first) (solid' : IsSolid second)
    (others : List String) :
    leadingWords (" ".intercalate (first :: second :: others)) = (first, second) := by
  have space : Unicode.isBlank ' ' = true := by decide
  obtain ⟨rest, text, ends⟩ : ∃ rest, (" ".intercalate (first :: second :: others)).toList =
      first.toList ++ ' ' :: (second.toList ++ rest) ∧ rest.takeWhile (!Unicode.isBlank ·) = [] := by
    cases others with
    | nil => exact ⟨[], by simp, rfl⟩
    | cons third others =>
      refine ⟨' ' :: (" ".intercalate (third :: others)).toList, ?_, ?_⟩
      · rw [String.intercalate_cons_cons, String.intercalate_cons_cons]
        simp only [String.toList_append, List.append_assoc]
        rfl
      · rw [List.takeWhile_cons_of_neg (by simp [space])]
  simp only [leadingWords, text, solid.dropBlanks_append, solid.takeWhile_append, solid.dropWhile_append]
  rw [List.takeWhile_cons_of_neg (by simp [space]), List.dropWhile_cons_of_neg (by simp [space]),
    List.dropWhile_cons_of_pos space, solid'.dropBlanks_append, solid'.takeWhile_append, ends]
  simp

/-- An import that has a module, and whose name and alias are not empty; none of them has white space. -/
structure Clean (i : Import) : Prop where
  module : IsSolid i.module
  name : ∀ name ∈ i.name, IsSolid name
  localName : ∀ bound ∈ i.localName, IsSolid bound

instance (i : Import) : Decidable i.Clean :=
  decidable_of_iff (IsSolid i.module ∧ (∀ name ∈ i.name, IsSolid name) ∧ ∀ bound ∈ i.localName, IsSolid bound)
    ⟨fun ⟨module, name, localName⟩ => ⟨module, name, localName⟩,
      fun clean => ⟨clean.module, clean.name, clean.localName⟩⟩

def IsTyping (i : Import) : Prop := i.module = "typing" ∧ i.name ≠ none ∧ i.localName = none

instance (i : Import) : Decidable i.IsTyping := inferInstanceAs (Decidable (_ ∧ _ ∧ _))

def renderWords (i : Import) : List String :=
  (match i.name with
    | none => ["import", i.module]
    | some name => ["from", i.module, "import", name]) ++
  match i.localName with
    | none => []
    | some bound => ["as", bound]

def typingLine (names : List String) : String := "from typing import " ++ ", ".intercalate names

def separated : List String → List String
  | [] => []
  | [name] => [name]
  | name :: next :: rest => (name ++ ",") :: separated (next :: rest)

def typingWords (names : List String) : List String := ["from", "typing", "import"] ++ separated names

theorem mem_renderWords {i : Import} {word : String} (member : word ∈ i.renderWords) :
    word ∈ ["import", "from", "as"] ∨ word = i.module ∨ i.name = some word ∨ i.localName = some word := by
  obtain ⟨module, name, localName⟩ := i
  cases name <;> cases localName <;> simp [renderWords] at member ⊢ <;> grind

theorem solid_of_fixed : ∀ word ∈ ["import", "from", "as"], IsSolid word := by decide

section Clean

variable {i j : Import} (clean : i.Clean)
include clean

theorem Clean.named : i.Named where
  name same := (clean.name "" same).1 rfl
  localName same := (clean.localName "" same).1 rfl

theorem render_eq : i.render = " ".intercalate i.renderWords := by
  obtain ⟨module, name, localName⟩ := i
  have hasBound := clean.named.localName
  rw [← String.toList_inj]
  cases localName with
  | none => cases name <;> simp [render, aliased, renderWords]
  | some bound =>
    have kept : (some bound).filter (· ≠ "") = some bound := by simpa using hasBound
    cases name <;> simp only [render, aliased, kept, renderWords] <;> simp

theorem renderWords_solid : ∀ word ∈ i.renderWords, IsSolid word := by
  intro word member
  rcases mem_renderWords member with fixed | rfl | isName | isBound
  · exact solid_of_fixed word fixed
  · exact clean.module
  · exact clean.name word isName
  · exact clean.localName word isBound

theorem splitOn_render : Text.splitOn ' ' i.render = i.renderWords := by
  rw [render_eq clean]
  have apart : ∀ word ∈ i.renderWords, ' ' ∉ word.toList := fun word member =>
    (renderWords_solid clean word member).space_not_mem
  refine Text.splitOn_intercalate apart ?_
  rw [renderWords]
  split <;> simp

/-- A line is sorted by whether it imports names, and by its module. -/
theorem ofText_render : Line.ofText i.render = ⟨i.name.isSome, i.module, i.render⟩ := by
  have fixed : IsSolid "import" ∧ IsSolid "from" :=
    ⟨solid_of_fixed "import" (by decide), solid_of_fixed "from" (by decide)⟩
  rw [Line.ofText, render_eq clean, renderWords]
  cases i.name with
  | none =>
    rw [List.cons_append, List.cons_append, leadingWords_intercalate fixed.1 clean.module]
    rfl
  | some name =>
    rw [List.cons_append, List.cons_append, leadingWords_intercalate fixed.2 clean.module]
    rfl

theorem isNameless_eq_false : i.isNameless = false := by
  have subject : (leadingWords i.render).2 = i.module := congrArg Line.subject (ofText_render clean)
  have nonempty : ¬ i.module = "" := clean.module.1
  simp [isNameless, subject, nonempty]

end Clean

theorem renderWords_injective {i j : Import} (same : i.renderWords = j.renderWords) : i = j := by
  obtain ⟨module, name, localName⟩ := i
  obtain ⟨module', name', localName'⟩ := j
  cases name <;> cases localName <;> cases name' <;> cases localName' <;> simp_all [renderWords]

theorem render_injective {i j : Import} (clean : i.Clean) (clean' : j.Clean)
    (same : i.render = j.render) : i = j := by
  refine renderWords_injective ?_
  rw [← splitOn_render clean, ← splitOn_render clean', same]

section Typing

variable {names : List String}

theorem separated_ne_nil (nonempty : names ≠ []) : separated names ≠ [] := by
  match names with
  | [] => exact absurd rfl nonempty
  | [name] => exact List.cons_ne_nil _ _
  | name :: next :: rest => exact List.cons_ne_nil _ _

theorem intercalate_separated : ", ".intercalate names = " ".intercalate (separated names) := by
  induction names using separated.induct with
  | case1 => rfl
  | case2 name => rw [separated, String.intercalate_singleton, String.intercalate_singleton]
  | case3 name next rest ih =>
    have later := separated_ne_nil (List.cons_ne_nil next rest)
    obtain ⟨first, others, split⟩ := List.exists_cons_of_ne_nil later
    have comma : ", " = "," ++ " " := by decide
    rw [String.intercalate_cons_cons, ih, separated, split, String.intercalate_cons_cons, comma]
    simp only [String.append_assoc]

theorem typingLine_eq (nonempty : names ≠ []) :
    typingLine names = " ".intercalate (typingWords names) := by
  obtain ⟨first, others, split⟩ := List.exists_cons_of_ne_nil (separated_ne_nil nonempty)
  unfold typingLine
  rw [intercalate_separated, typingWords, split, List.cons_append, List.cons_append, List.cons_append,
    List.nil_append, String.intercalate_cons_cons, String.intercalate_cons_cons,
    String.intercalate_cons_cons]
  generalize " ".intercalate (first :: others) = rest
  rw [← String.toList_inj]
  simp

theorem separated_solid (solid : ∀ name ∈ names, IsSolid name) :
    ∀ word ∈ separated names, IsSolid word := by
  have comma : IsSolid "," := by decide
  induction names using separated.induct with
  | case1 => exact fun word member => nomatch member
  | case2 name => exact solid
  | case3 name next rest ih =>
    rw [List.forall_mem_cons] at solid
    rw [separated, List.forall_mem_cons]
    exact ⟨Text.isSolid_append solid.1 comma, ih solid.2⟩

theorem splitOn_typingLine (nonempty : names ≠ []) (solid : ∀ name ∈ names, IsSolid name) :
    Text.splitOn ' ' (typingLine names) = typingWords names := by
  rw [typingLine_eq nonempty]
  have apart : ∀ word ∈ typingWords names, ' ' ∉ word.toList := by
    intro word member
    have fixed : ∀ word ∈ ["from", "typing", "import"], ' ' ∉ word.toList := by decide
    rcases List.mem_append.mp member with member | member
    · exact fixed word member
    · exact (separated_solid solid word member).space_not_mem
  exact Text.splitOn_intercalate apart (by simp [typingWords])

theorem ofText_typingLine (nonempty : names ≠ []) :
    Line.ofText (typingLine names) = ⟨true, "typing", typingLine names⟩ := by
  have typing : IsSolid "typing" := by decide
  have words : typingWords names = "from" :: "typing" :: "import" :: separated names := rfl
  rw [Line.ofText, typingLine_eq nonempty, words,
    leadingWords_intercalate (solid_of_fixed "from" (by decide)) typing]
  rfl

theorem separated_ne_alias (name bound : String) : separated names ≠ [name, "as", bound] := by
  match names with
  | [] | [_] | [_, _] => simp [separated]
  | _ :: second :: third :: rest =>
    intro same
    simp only [separated, List.cons.injEq] at same
    have ending : (second ++ ",").toList.getLast? = "as".toList.getLast? := by rw [same.2.1]
    simp at ending

theorem render_ne_typingLine {i : Import} (clean : i.Clean) (own : ¬ i.IsTyping) (nonempty : names ≠ [])
    (solid : ∀ name ∈ names, IsSolid name) : i.render ≠ typingLine names := by
  intro same
  have words : i.renderWords = typingWords names := by
    rw [← splitOn_render clean, same, splitOn_typingLine nonempty solid]
  obtain ⟨module, name, localName⟩ := i
  cases name with
  | none => simp [renderWords, typingWords] at words
  | some name =>
    simp only [renderWords, typingWords, List.cons_append, List.nil_append, List.cons.injEq, true_and] at words
    obtain ⟨rfl, words⟩ := words
    cases localName with
    | none => exact own ⟨rfl, by simp, rfl⟩
    | some bound => exact separated_ne_alias name bound words.symm

end Typing

end Import

end ProtoBindings
