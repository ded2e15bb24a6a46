import Mathlib.Data.List.Sort
import Mathlib.Data.Prod.Lex
import Mathlib.Data.String.Basic
import ProtoBindings.Proofs.Import.Words
import ProtoBindings.Proofs.Result

namespace ProtoBindings.Import

def typingNames (imports : List Import) : List String :=
  (imports.filterMap mergedName?).eraseDups.mergeSort (· ≤ ·)

/-- The line of an import, where these are the names of `typing` that share one. -/
def lineOf (names : List String) (i : Import) : String :=
  if i.IsTyping then typingLine names else i.render

/-- Imports of modules come before imports of names, and each kind is in the order of its modules. -/
def Precedes (i j : Import) : Prop :=
  (i.name = none ∧ j.name ≠ none) ∨ ((i.name = none ↔ j.name = none) ∧ i.module ≤ j.module)

/-- A block: a group of lines for the standard library and one for all others, and an empty line between
    them if there are both. -/
structure Arranged (imports : List Import) (names standard others lines : List String) : Prop where
  increasing : names.Pairwise (· < ·)
  shared : ∀ name, name ∈ names ↔ .typing name ∈ imports
  grouped : lines = standard ++ (if standard ≠ [] ∧ others ≠ [] then [""] else []) ++ others
  filled : "" ∉ standard ∧ "" ∉ others
  ofStandard : ∀ line, line ∈ standard ↔ ∃ i ∈ imports, i.isStandard = true ∧ lineOf names i = line
  ofOthers : ∀ line, line ∈ others ↔ ∃ i ∈ imports, i.isStandard = false ∧ lineOf names i = line
  once : ∀ i ∈ imports, lines.count (lineOf names i) = 1
  apart : ∀ i ∈ imports, ∀ j ∈ imports, lineOf names i = lineOf names j →
    i = j ∨ i.IsTyping ∧ j.IsTyping
  ordered : ∀ group, group = standard ∨ group = others → group.Pairwise fun l m =>
    ∀ i ∈ imports, ∀ j ∈ imports, lineOf names i = l → lineOf names j = m → Precedes i j

section Order

def key (i : Import) : String ×ₗ String ×ₗ String :=
  toLex (i.module, toLex (i.name.getD "", i.localName.getD ""))

theorem before_eq : before = fun i j => decide (key i ≤ key j) := by
  funext i j
  rw [Bool.eq_iff_iff, decide_eq_true_iff, key, key, Prod.Lex.toLex_le_toLex, Prod.Lex.toLex_le_toLex]
  simp only [before, Bool.or_eq_true, Bool.and_eq_true, decide_eq_true_eq, beq_iff_eq]

theorem getD_injective {s t : Option String} (filled : s ≠ some "") (filled' : t ≠ some "")
    (same : s.getD "" = t.getD "") : s = t := by
  cases s <;> cases t <;> simp_all

theorem key_injective {i j : Import} (named : i.Named) (named' : j.Named) (same : key i = key j) :
    i = j := by
  obtain ⟨module, name, localName⟩ := i
  obtain ⟨module', name', localName'⟩ := j
  obtain ⟨sameModule, names⟩ := Prod.mk.inj (toLex.injective same)
  obtain ⟨sameName, sameBound⟩ := Prod.mk.inj (toLex.injective names)
  have sameName : name = name' := getD_injective named.name named'.name sameName
  have sameBound : localName = localName' := getD_injective named.localName named'.localName sameBound
  exact (Import.mk.injEq ..).mpr ⟨sameModule, sameName, sameBound⟩

def Line.key (l : Line) : Bool ×ₗ String := toLex (l.isFrom, l.subject)

theorem Line.before_eq : Line.before = fun l m => decide (l.key ≤ m.key) := by
  funext l m
  obtain ⟨isFrom, subject, text⟩ := l
  obtain ⟨isFrom', subject', text'⟩ := m
  cases isFrom <;> cases isFrom' <;>
    simp [Line.before, Line.key, Prod.Lex.toLex_le_toLex]

theorem sortLines_ordered (lines : List String) :
    (sortLines lines).Pairwise fun l m => (Line.ofText l).key ≤ (Line.ofText m).key := by
  rw [sortLines, List.pairwise_map, Line.before_eq]
  have sorted := List.pairwise_mergeSort' (fun l m : Line => l.key ≤ m.key) (lines.map Line.ofText)
  have read : ∀ l ∈ (lines.map Line.ofText).mergeSort (fun l m => decide (l.key ≤ m.key)),
      Line.ofText l.text = l := by
    intro l member
    obtain ⟨text, _, rfl⟩ := List.mem_map.mp (List.mem_mergeSort.mp member)
    rfl
  refine sorted.imp_of_mem fun ofFirst ofSecond order => ?_
  rwa [read _ ofFirst, read _ ofSecond]

end Order

section Typing

variable {i : Import}

theorem mergedName?_eq_some (named : i.Named) {name : String} :
    i.mergedName? = some name ↔ i = .typing name := by
  obtain ⟨module, given, localName⟩ := i
  have keeps {text : Option String} (filled : text ≠ some "") : text.filter (· ≠ "") = text := by
    cases text with
    | none => rfl
    | some text => simpa using filled
  rw [mergedName?, keeps named.name, keeps named.localName, typing, mk.injEq,
    Option.ite_none_right_eq_some]
  grind

theorem isTyping_iff : i.IsTyping ↔ ∃ name, i = .typing name := by
  obtain ⟨module, name, localName⟩ := i
  cases name <;> simp [IsTyping, typing]

theorem mergedName?_isNone (named : i.Named) : i.mergedName?.isNone = true ↔ ¬ i.IsTyping := by
  rw [Option.isNone_iff_eq_none, Option.eq_none_iff_forall_ne_some, isTyping_iff]
  simp only [ne_eq, mergedName?_eq_some named, not_exists]

theorem isStandard_of_isTyping (shared : i.IsTyping) : i.isStandard = true := by
  rw [isStandard, shared.1]
  decide

theorem typingNames_increasing (imports : List Import) : (typingNames imports).Pairwise (· < ·) := by
  have sorted := List.pairwise_mergeSort' (fun s t : String => s ≤ t)
    (imports.filterMap mergedName?).eraseDups
  have distinct : (typingNames imports).Nodup := List.nodup_mergeSort.mpr (List.nodup_eraseDups _)
  exact (sorted.and distinct).imp fun order => lt_of_le_of_ne order.1 order.2

theorem mergedLine_eq (imports : List Import) :
    mergedLine imports = if typingNames imports = [] then [] else [typingLine (typingNames imports)] := by
  rw [mergedLine, ← typingNames]
  cases typingNames imports <;> rfl

end Typing

section Imports

variable {imports : List Import} (clean : ∀ i ∈ imports, i.Clean)
include clean

theorem mem_typingNames {name : String} : name ∈ typingNames imports ↔ .typing name ∈ imports := by
  rw [typingNames, List.mem_mergeSort, List.mem_eraseDups, List.mem_filterMap]
  constructor
  · rintro ⟨i, member, merged⟩
    exact (mergedName?_eq_some (clean i member).named).mp merged ▸ member
  · intro member
    exact ⟨_, member, (mergedName?_eq_some (clean _ member).named).mpr rfl⟩

theorem typingNames_solid : ∀ name ∈ typingNames imports, Text.IsSolid name := fun name member =>
  (clean _ ((mem_typingNames clean).mp member)).name name rfl

theorem typingNames_ne_nil {i : Import} (member : i ∈ imports) (shared : i.IsTyping) :
    typingNames imports ≠ [] := by
  obtain ⟨name, rfl⟩ := isTyping_iff.mp shared
  exact List.ne_nil_of_mem ((mem_typingNames clean).mpr member)

section Lines

variable {i j : Import} (member : i ∈ imports) (member' : j ∈ imports)
include member

theorem ofText_lineOf :
    Line.ofText (lineOf (typingNames imports) i) =
      ⟨i.name.isSome, i.module, lineOf (typingNames imports) i⟩ := by
  rw [lineOf]
  split
  · rename_i shared
    rw [ofText_typingLine (typingNames_ne_nil clean member shared), shared.1,
      Option.isSome_iff_ne_none.mpr shared.2.1]
  · exact ofText_render (clean i member)

theorem lineOf_ne_empty : lineOf (typingNames imports) i ≠ "" := by
  intro empty
  have read := congrArg Line.subject (ofText_lineOf clean member)
  rw [empty] at read
  exact (clean i member).module.1 read.symm

include member'

theorem precedes_of_key_le
    (order : (Line.ofText (lineOf (typingNames imports) i)).key ≤
      (Line.ofText (lineOf (typingNames imports) j)).key) : Precedes i j := by
  rw [ofText_lineOf clean member, ofText_lineOf clean member', Line.key, Line.key,
    Prod.Lex.toLex_le_toLex] at order
  cases hasName : i.name <;> cases hasName' : j.name <;> simp_all [Precedes, Bool.lt_iff]

theorem lineOf_apart (same : lineOf (typingNames imports) i = lineOf (typingNames imports) j) :
    i = j ∨ i.IsTyping ∧ j.IsTyping := by
  have own {i j : Import} (member : i ∈ imports) (member' : j ∈ imports) (own : ¬ i.IsTyping)
      (shared : j.IsTyping) : i.render ≠ typingLine (typingNames imports) :=
    render_ne_typingLine (clean i member) own (typingNames_ne_nil clean member' shared)
      (typingNames_solid clean)
  rw [lineOf, lineOf] at same
  split at same <;> split at same
  · exact .inr ⟨‹_›, ‹_›⟩
  · exact absurd same.symm (own member' member ‹_› ‹_›)
  · exact absurd same (own member member' ‹_› ‹_›)
  · exact .inl (render_injective (clean i member) (clean j member') same)

end Lines

end Imports

def ownImports (imports : List Import) : List Import :=
  (imports.eraseDups.mergeSort before).filter (·.mergedName?.isNone)

def standardLines (imports : List Import) : List String :=
  ((ownImports imports).filter (·.isStandard)).map (·.render) ++ mergedLine imports

def otherLines (imports : List Import) : List String :=
  ((ownImports imports).filter (!·.isStandard)).map (·.render)

theorem block_eq (imports : List Import) :
    block imports = sortLines (standardLines imports) ++
      (if standardLines imports ≠ [] ∧ otherLines imports ≠ [] then [""] else []) ++
        sortLines (otherLines imports) := rfl

theorem sortLines_perm (lines : List String) : (sortLines lines).Perm lines := by
  have read : (lines.map Line.ofText).map (·.text) = lines := by
    rw [List.map_map]
    exact List.map_id lines
  have sorted := (List.mergeSort_perm (lines.map Line.ofText) Line.before).map (·.text)
  rwa [read] at sorted

theorem sortLines_eq_nil {lines : List String} : sortLines lines = [] ↔ lines = [] := by
  rw [← List.length_eq_zero_iff, (sortLines_perm lines).length_eq, List.length_eq_zero_iff]

theorem ownImports_nodup (imports : List Import) : (ownImports imports).Nodup :=
  (List.nodup_mergeSort.mpr (List.nodup_eraseDups imports)).filter _

section Blocks

variable {imports : List Import} (clean : ∀ i ∈ imports, i.Clean)
include clean

theorem mem_ownImports {i : Import} : i ∈ ownImports imports ↔ i ∈ imports ∧ ¬ i.IsTyping := by
  rw [ownImports, List.mem_filter, List.mem_mergeSort, List.mem_eraseDups]
  exact and_congr_right fun member => mergedName?_isNone (clean i member).named

theorem lineOf_own {i : Import} (own : i ∈ ownImports imports) :
    lineOf (typingNames imports) i = i.render :=
  if_neg ((mem_ownImports clean).mp own).2

theorem mem_mergedLine {line : String} :
    line ∈ mergedLine imports ↔ ∃ i ∈ imports, i.IsTyping ∧ typingLine (typingNames imports) = line := by
  rw [mergedLine_eq]
  constructor
  · intro member
    split at member
    · cases member
    · rename_i nonempty
      obtain ⟨name, isName⟩ := List.exists_mem_of_ne_nil _ nonempty
      exact ⟨_, (mem_typingNames clean).mp isName, isTyping_iff.mpr ⟨name, rfl⟩,
        (List.mem_singleton.mp member).symm⟩
  · rintro ⟨i, member, shared, rfl⟩
    rw [if_neg (typingNames_ne_nil clean member shared)]
    exact List.mem_singleton_self _

theorem mem_standardLines {line : String} : line ∈ standardLines imports ↔
    ∃ i ∈ imports, i.isStandard = true ∧ lineOf (typingNames imports) i = line := by
  rw [standardLines, List.mem_append, mem_mergedLine clean, List.mem_map]
  constructor
  · rintro (⟨i, member, rfl⟩ | ⟨i, member, shared, rfl⟩)
    · obtain ⟨own, standard⟩ := List.mem_filter.mp member
      exact ⟨i, ((mem_ownImports clean).mp own).1, standard, lineOf_own clean own⟩
    · exact ⟨i, member, isStandard_of_isTyping shared, if_pos shared⟩
  · rintro ⟨i, member, standard, rfl⟩
    by_cases shared : i.IsTyping
    · exact .inr ⟨i, member, shared, (if_pos shared).symm⟩
    · have own : i ∈ ownImports imports := (mem_ownImports clean).mpr ⟨member, shared⟩
      exact .inl ⟨i, List.mem_filter.mpr ⟨own, standard⟩, (lineOf_own clean own).symm⟩

theorem mem_otherLines {line : String} : line ∈ otherLines imports ↔
    ∃ i ∈ imports, i.isStandard = false ∧ lineOf (typingNames imports) i = line := by
  rw [otherLines, List.mem_map]
  constructor
  · rintro ⟨i, member, rfl⟩
    obtain ⟨own, other⟩ := List.mem_filter.mp member
    exact ⟨i, ((mem_ownImports clean).mp own).1, by simpa using other, lineOf_own clean own⟩
  · rintro ⟨i, member, other, rfl⟩
    have own : i ∈ ownImports imports := by
      refine (mem_ownImports clean).mpr ⟨member, fun shared => ?_⟩
      exact absurd (isStandard_of_isTyping shared) (ne_true_of_eq_false other)
    exact ⟨i, List.mem_filter.mpr ⟨own, by simpa using other⟩, (lineOf_own clean own).symm⟩

theorem ownLines_nodup (selected : Import → Bool) :
    (((ownImports imports).filter selected).map (·.render)).Nodup := by
  refine ((ownImports_nodup imports).filter _).map_on fun i member j member' same => ?_
  have isClean {i : Import} (member : i ∈ (ownImports imports).filter selected) : i.Clean :=
    clean i ((mem_ownImports clean).mp (List.mem_filter.mp member).1).1
  exact render_injective (isClean member) (isClean member') same

theorem standardLines_nodup : (standardLines imports).Nodup := by
  have shared : (mergedLine imports).Nodup := by
    rw [mergedLine_eq]
    split
    · exact List.nodup_nil
    · exact List.nodup_singleton _
  refine (ownLines_nodup clean _).append shared fun line isOwn isShared => ?_
  obtain ⟨i, member, rfl⟩ := List.mem_map.mp isOwn
  obtain ⟨j, member', shared, same⟩ := (mem_mergedLine clean).mp isShared
  obtain ⟨member, own⟩ := (mem_ownImports clean).mp (List.mem_filter.mp member).1
  exact render_ne_typingLine (clean i member) own (typingNames_ne_nil clean member' shared)
    (typingNames_solid clean) same.symm

theorem standardLines_disjoint : (standardLines imports).Disjoint (otherLines imports) := by
  intro line isStandard isOther
  obtain ⟨i, member, standard, rfl⟩ := (mem_standardLines clean).mp isStandard
  obtain ⟨j, member', other, same⟩ := (mem_otherLines clean).mp isOther
  have otherwise : j.isStandard ≠ true := ne_true_of_eq_false other
  rcases lineOf_apart clean member' member same with rfl | shared
  · exact otherwise standard
  · exact otherwise (isStandard_of_isTyping shared.1)

theorem empty_not_mem : "" ∉ standardLines imports ∧ "" ∉ otherLines imports := by
  constructor
  · intro isLine
    obtain ⟨i, member, _, empty⟩ := (mem_standardLines clean).mp isLine
    exact lineOf_ne_empty clean member empty
  · intro isLine
    obtain ⟨i, member, _, empty⟩ := (mem_otherLines clean).mp isLine
    exact lineOf_ne_empty clean member empty

theorem block_nodup : (block imports).Nodup := by
  have groups : (sortLines (standardLines imports) ++ sortLines (otherLines imports)).Nodup :=
    ((sortLines_perm _).append (sortLines_perm _)).nodup_iff.mpr
      ((standardLines_nodup clean).append (ownLines_nodup clean _) (standardLines_disjoint clean))
  rw [block_eq]
  split
  · have moved : (sortLines (standardLines imports) ++ "" :: sortLines (otherLines imports)).Perm
        ("" :: (sortLines (standardLines imports) ++ sortLines (otherLines imports))) := List.perm_middle
    rw [List.append_assoc, List.singleton_append, moved.nodup_iff, List.nodup_cons, List.mem_append,
      mem_sortLines, mem_sortLines]
    exact ⟨fun isLine => isLine.elim (empty_not_mem clean).1 (empty_not_mem clean).2, groups⟩
  · rwa [List.append_nil]

theorem mem_block {i : Import} (member : i ∈ imports) : lineOf (typingNames imports) i ∈ block imports := by
  rw [block_eq, List.mem_append, List.mem_append, mem_sortLines, mem_sortLines]
  cases standard : i.isStandard with
  | true => exact .inl (.inl ((mem_standardLines clean).mpr ⟨i, member, standard, rfl⟩))
  | false => exact .inr ((mem_otherLines clean).mpr ⟨i, member, standard, rfl⟩)

theorem block_arranged : Arranged imports (typingNames imports) (sortLines (standardLines imports))
    (sortLines (otherLines imports)) (block imports) where
  increasing := typingNames_increasing imports
  shared _ := mem_typingNames clean
  grouped := by simp only [block_eq, ne_eq, sortLines_eq_nil]
  filled := by
    rw [mem_sortLines, mem_sortLines]
    exact empty_not_mem clean
  ofStandard line := by rw [mem_sortLines, mem_standardLines clean]
  ofOthers line := by rw [mem_sortLines, mem_otherLines clean]
  once i member := List.count_eq_one_of_mem (block_nodup clean) (mem_block clean member)
  apart i member j member' := lineOf_apart clean member member'
  ordered group isGroup := by
    have sorted : group.Pairwise fun l m => (Line.ofText l).key ≤ (Line.ofText m).key := by
      rcases isGroup with rfl | rfl
      · exact sortLines_ordered _
      · exact sortLines_ordered _
    refine sorted.imp fun order i member j member' isFirst isSecond => ?_
    subst isFirst isSecond
    exact precedes_of_key_le clean member member' order

theorem block?_eq : block? imports = some (block imports) := by
  rw [block?, if_neg]
  intro any
  obtain ⟨i, member, nameless⟩ := List.any_eq_true.mp any
  exact absurd nameless (ne_true_of_eq_false (isNameless_eq_false (clean i member)))

variable {imports' : List Import} (same : ∀ i, i ∈ imports ↔ i ∈ imports')
include same

theorem typingNames_eq : typingNames imports = typingNames imports' := by
  have clean' : ∀ i ∈ imports', i.Clean := fun i member => clean i ((same i).mpr member)
  have first := typingNames_increasing imports
  have second := typingNames_increasing imports'
  have members : (typingNames imports).Perm (typingNames imports') := by
    refine (List.perm_ext_iff_of_nodup (first.imp ne_of_lt) (second.imp ne_of_lt)).mpr fun name => ?_
    rw [mem_typingNames clean, mem_typingNames clean', same]
  exact members.eq_of_pairwise (fun _ _ _ _ order order' => absurd order' (lt_asymm order)) first second

theorem ownImports_eq : ownImports imports = ownImports imports' := by
  have members : imports.eraseDups.Perm imports'.eraseDups := by
    refine (List.perm_ext_iff_of_nodup (List.nodup_eraseDups _) (List.nodup_eraseDups _)).mpr fun i => ?_
    rw [List.mem_eraseDups, List.mem_eraseDups, same]
  have sorted (imports : List Import) :=
    List.pairwise_mergeSort' (fun i j : Import => key i ≤ key j) imports.eraseDups
  rw [ownImports, ownImports, before_eq]
  congr 1
  refine List.Perm.eq_of_pairwise (fun i j isFirst isSecond order order' => ?_) (sorted imports)
    (sorted imports') ((List.mergeSort_perm _ _).trans (members.trans (List.mergeSort_perm _ _).symm))
  have isClean : i.Clean := clean i (List.mem_eraseDups.mp (List.mem_mergeSort.mp isFirst))
  have isClean' : j.Clean :=
    clean j ((same j).mpr (List.mem_eraseDups.mp (List.mem_mergeSort.mp isSecond)))
  exact key_injective isClean.named isClean'.named (le_antisymm order order')

theorem block_congr : block imports = block imports' := by
  have own := ownImports_eq clean same
  have shared : mergedLine imports = mergedLine imports' := by
    rw [mergedLine_eq, mergedLine_eq, typingNames_eq clean same]
  have standard : standardLines imports = standardLines imports' := by
    rw [standardLines, standardLines, own, shared]
  have other : otherLines imports = otherLines imports' := by rw [otherLines, otherLines, own]
  rw [block_eq, block_eq, standard, other]

/-- Two lists of the same imports have one block, and every import has exactly one line in it. -/
theorem block_canonical : ∃ names standard others lines, block? imports = some lines ∧
    block? imports' = some lines ∧ Arranged imports names standard others lines := by
  have clean' : ∀ i ∈ imports', i.Clean := fun i member => clean i ((same i).mpr member)
  refine ⟨_, _, _, _, block?_eq clean, ?_, block_arranged clean⟩
  rw [block?_eq clean', block_congr clean same]

end Blocks

theorem typed_block_canonical :
    let imports : List Import := [{ module := "dataclasses" }, .typing "Optional", .typing "List", .rpcSupport]
    let imports' := [.rpcSupport, .typing "List", .typing "Optional", { module := "dataclasses" }, .typing "List"]
    (∀ i ∈ imports, i.Clean) ∧ (∀ i, i ∈ imports ↔ i ∈ imports') ∧
      ∃ names standard others lines, block? imports = some lines ∧ block? imports' = some lines ∧
        Arranged imports names standard others lines := by
  intro imports imports'
  have clean : ∀ i ∈ imports, i.Clean := by decide
  have same : ∀ i, i ∈ imports ↔ i ∈ imports' := by
    intro i
    simp only [imports, imports', List.mem_cons, List.not_mem_nil, or_false]
    tauto
  exact ⟨clean, same, block_canonical clean same⟩

end ProtoBindings.Import
