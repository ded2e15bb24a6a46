import ProtoBindings.CommandLine.Session
import ProtoBindings.Proofs.Name.Path
import ProtoBindings.Proofs.Result

namespace ProtoBindings.CommandLine

open Wire (Bytes)

namespace FileTree

variable {tree tree' : FileTree} {place : Place} {node : Node} {parts : List String}

def Extends (tree tree' : FileTree) : Prop :=
  ∀ place node, tree.at? place = some node → tree'.at? place = some node

def KeepsDirectories (tree tree' : FileTree) : Prop :=
  ∀ place, tree.at? place = some .directory → tree'.at? place = some .directory

theorem Extends.refl (tree : FileTree) : tree.Extends tree := fun _ _ there => there

theorem Extends.trans {last : FileTree} (first : tree.Extends tree') (second : tree'.Extends last) :
    tree.Extends last := fun place node there => second place node (first place node there)

theorem lookup_filter_other {other : Place} (different : other ≠ place) (nodes : List (Place × Node)) :
    (nodes.filter (·.1 ≠ place)).lookup other = nodes.lookup other := by
  induction nodes with
  | nil => rfl
  | cons first rest ih =>
    by_cases replaced : first.1 = place
    · have skipped : (other == first.1) = false := beq_eq_false_iff_ne.mpr (replaced ▸ different)
      rw [List.filter_cons_of_neg (by simp [replaced]), List.lookup_cons, skipped]
      exact ih
    · rw [List.filter_cons_of_pos (by simp [replaced]), List.lookup_cons, List.lookup_cons, ih]

theorem at?_put_other {other : Place} (different : other ≠ place) :
    (tree.put place node).at? other = tree.at? other := by
  rw [at?, put, List.lookup_cons, beq_eq_false_iff_ne.mpr different, at?]
  simp only [lookup_filter_other different]

theorem at?_put_self (unknown : standardNode? place = none) :
    (tree.put place node).at? place = some node := by
  rw [at?, unknown, put, List.lookup_cons, beq_self_eq_true]
  rfl

def Target.ends? : Target → Option (Place × Option Node)
  | .found place node => some (place, some node)
  | .vacant place => some (place, none)
  | _ => none

def Target.slot? : Target → Option Place
  | .found place (.file _) | .vacant place => some place
  | _ => none

theorem Target.ends_of_slot {target : Target} {slot : Place} (leads : target.slot? = some slot) :
    ∃ there, target.ends? = some (slot, there) ∧ there ≠ some .directory := by
  cases target with
  | found place node =>
    cases node with
    | file content =>
      cases leads
      exact ⟨_, rfl, nofun⟩
    | directory => cases leads
  | vacant place =>
    cases leads
    exact ⟨_, rfl, nofun⟩
  | _ => cases leads

theorem write_eq_ok {p : FilePath} {content : Bytes} :
    tree.write p content = .ok tree' ↔
      ∃ place, (tree.target p.toText).slot? = some place ∧ tree' = tree.put place (.file content) := by
  rw [write]
  cases tree.target p.toText with
  | found place node => cases node <;> simp [Target.slot?, eq_comm]
  | vacant place => simp [Target.slot?, eq_comm]
  | _ => simp [Target.slot?]

section Follow

def walk (place : Place) : List String → Place
  | [] => place
  | part :: rest =>
    if part = "." then walk place rest
    else walk (if part = ".." then place.above else place ++ [part]) rest

theorem walk_append (first second : List String) :
    walk place (first ++ second) = walk (walk place first) second := by
  induction first generalizing place with
  | nil => rfl
  | cons part rest ih =>
    rw [List.cons_append, walk, walk]
    split
    · exact ih
    · exact ih

theorem walk_plain (plain : ∀ part ∈ parts, part ≠ "." ∧ part ≠ "..") :
    walk place parts = place ++ parts := by
  induction parts generalizing place with
  | nil => rw [walk, List.append_nil]
  | cons part rest ih =>
    obtain ⟨notDot, notAbove⟩ := plain part List.mem_cons_self
    have later := fun other member => plain other (List.mem_cons_of_mem part member)
    rw [walk, if_neg notDot, if_neg notAbove, ih later, List.append_assoc, List.singleton_append]

theorem follow_ends {slot : Place} {there : Option Node} (start : tree.at? place = some .directory)
    (ends : (tree.follow place .directory parts).ends? = some (slot, there)) :
    slot = walk place parts ∧ tree.at? slot = there := by
  induction parts generalizing place with
  | nil =>
    cases ends
    exact ⟨rfl, start⟩
  | cons part rest ih =>
    rw [follow] at ends
    rw [walk]
    split at ends
    · rename_i isDot
      rw [if_pos isDot]
      exact ih start ends
    · rename_i notDot
      rw [if_neg notDot]
      split at ends
      · cases ends
      · generalize (if part = ".." then place.above else place ++ [part]) = next at ends ⊢
        cases found : tree.at? next with
        | none =>
          simp only [found] at ends
          split at ends
          · rename_i isLast
            cases ends
            subst isLast
            exact ⟨rfl, found⟩
          · cases ends
        | some node =>
          simp only [found] at ends
          cases node with
          | directory => exact ih found ends
          | file content =>
            cases rest with
            | nil =>
              cases ends
              exact ⟨rfl, found⟩
            | cons _ _ => cases ends

theorem follow_of_slot {slot : Place} {content : Bytes}
    (leads : (tree.follow place .directory parts).slot? = some slot)
    (keeps : tree.KeepsDirectories tree') (there : tree'.at? slot = some (.file content)) :
    tree'.follow place .directory parts = .found slot (.file content) := by
  induction parts generalizing place with
  | nil => cases leads
  | cons part rest ih =>
    rw [follow] at leads ⊢
    split at leads
    · rename_i isDot
      rw [if_pos isDot]
      exact ih leads
    · rename_i notDot
      rw [if_neg notDot]
      split at leads
      · cases leads
      · rename_i short
        rw [if_neg short]
        generalize (if part = ".." then place.above else place ++ [part]) = next at leads ⊢
        cases before : tree.at? next with
        -- A name that nothing has is a slot only at the end of the path.
        | none =>
          simp only [before] at leads
          split at leads
          · rename_i isLast
            cases leads
            subst isLast
            simp only [there, follow]
          · cases leads
        | some node =>
          simp only [before] at leads
          cases node with
          | directory =>
            simp only [keeps next before]
            exact ih leads
          | file old =>
            cases rest with
            | nil =>
              cases leads
              simp only [there, follow]
            | cons _ _ => cases leads

end Follow

section Target

variable {path : String} {slot : Place}

theorem target_eq_follow (leads : (tree.target path).ends? ≠ none) (other : FileTree) :
    other.target path = other.follow [] .directory (writtenParts path) := by
  rw [target] at leads ⊢
  split at leads
  · exact absurd rfl leads
  · rename_i plain
    rw [if_neg plain]
    split at leads
    · exact absurd rfl leads
    · rename_i short
      rw [if_neg short]

theorem at?_nil (tree : FileTree) : tree.at? [] = some .directory := rfl

theorem target_ends {there : Option Node} (ends : (tree.target path).ends? = some (slot, there)) :
    slot = walk [] (writtenParts path) ∧ tree.at? slot = there := by
  have reached : (tree.target path).ends? ≠ none := by simp [ends]
  rw [target_eq_follow reached tree] at ends
  exact follow_ends tree.at?_nil ends

theorem target_slot (leads : (tree.target path).slot? = some slot) :
    slot = walk [] (writtenParts path) ∧ tree.at? slot ≠ some .directory := by
  obtain ⟨there, ends, isFree⟩ := Target.ends_of_slot leads
  obtain ⟨isPlace, found⟩ := target_ends ends
  exact ⟨isPlace, found ▸ isFree⟩

theorem read_of_slot {content : Bytes}
    (leads : (tree.target path).slot? = some slot) (keeps : tree.KeepsDirectories tree')
    (there : tree'.at? slot = some (.file content)) : tree'.read path = .ok content := by
  obtain ⟨_, ends, _⟩ := Target.ends_of_slot leads
  have reached : (tree.target path).ends? ≠ none := by simp [ends]
  have follows := target_eq_follow reached
  rw [follows] at leads
  have named : path ≠ "" := by
    rintro rfl
    have none : writtenParts "" = [] := by decide +kernel
    rw [none] at leads
    cases leads
  rw [read, if_neg named, follows, follow_of_slot leads keeps there]

end Target

section Steps

theorem put_extends (vacant : tree.at? place = none) : tree.Extends (tree.put place node) := by
  intro other there found
  have different : other ≠ place := by
    rintro rfl
    rw [vacant] at found
    cases found
  rw [at?_put_other different, found]

theorem makeOne_extends {p : FilePath} (made : tree.makeOne p = .ok tree') : tree.Extends tree' := by
  rw [makeOne] at made
  split at made
  · cases made
    exact .refl tree
  · cases made
  · rename_i place leads
    cases made
    have ends : (tree.target p.toText).ends? = some (place, none) := by rw [leads]; rfl
    exact put_extends (target_ends ends).2
  all_goals cases made

theorem makeAll_extends {most : Nat} {p : FilePath} (made : tree.makeAll most p = .ok tree') :
    tree.Extends tree' := by
  induction most generalizing p tree' with
  | zero => cases made
  | succ most ih =>
    rw [makeAll] at made
    split at made
    · rw [Result.bind_eq_ok] at made
      obtain ⟨above, first, last⟩ := made
      exact (ih first).trans (makeOne_extends last)
    · exact makeOne_extends made

theorem makeDirectories_extends {p : FilePath} (made : tree.makeDirectories p = .ok tree') :
    tree.Extends tree' := by
  rw [makeDirectories] at made
  exact makeAll_extends made

/-- A write changes one place, and that was no directory. -/
structure Fills (tree : FileTree) (slot : Place) (content : Bytes) (tree' : FileTree) : Prop where
  free : tree.at? slot ≠ some .directory
  filled : standardNode? slot = none → tree'.at? slot = some (.file content)
  others : ∀ other, other ≠ slot → tree'.at? other = tree.at? other

theorem Fills.keepsDirectories {slot : Place} {content : Bytes}
    (fills : tree.Fills slot content tree') : tree.KeepsDirectories tree' := by
  intro other there
  have different : other ≠ slot := by
    rintro rfl
    exact fills.free there
  rw [fills.others other different, there]

theorem write_fills {p : FilePath} {content : Bytes} (written : tree.write p content = .ok tree') :
    ∃ slot, (tree.target p.toText).slot? = some slot ∧ slot = walk [] (writtenParts p.toText) ∧
      tree.Fills slot content tree' := by
  obtain ⟨slot, leads, rfl⟩ := write_eq_ok.mp written
  obtain ⟨isPlace, free⟩ := target_slot leads
  exact ⟨slot, leads, isPlace, free, at?_put_self, fun _ => at?_put_other⟩

end Steps

end FileTree

section Outputs

open FileTree (KeepsDirectories standardNode? walk writtenParts)

variable {out : FilePath} {tree final : FileTree} {outputs : List Output} {paths : List String}

def outputFile (out : FilePath) (o : Output) : String := (out.join (.ofText o.path)).toText

def outputSlot (out : FilePath) (o : Output) : Place := walk [] (writtenParts (outputFile out o))

theorem writeOutputs_cons_eq_ok {o : Output}
    (done : writeOutputs out tree (o :: outputs) = (final, .ok paths)) :
    ∃ made written others, tree.Extends made ∧
      (made.target (outputFile out o)).slot? = some (outputSlot out o) ∧
      made.Fills (outputSlot out o) (Text.Utf8.encode o.content) written ∧
      writeOutputs out written outputs = (final, .ok others) ∧
      paths = outputFile out o :: others := by
  rw [writeOutputs] at done
  split at done
  · cases done
  · rename_i made isMade
    split at done
    · cases done
    · rename_i written isWritten
      obtain ⟨isFinal, result⟩ := Prod.mk.inj done
      obtain ⟨others, rest, rfl⟩ := Result.map_eq_ok.mp result
      obtain ⟨slot, leads, rfl, fills⟩ := FileTree.write_fills isWritten
      exact ⟨made, written, others, FileTree.makeDirectories_extends isMade, leads, fills,
        Prod.ext isFinal rest, rfl⟩

theorem writeOutputs_keeps (done : writeOutputs out tree outputs = (final, .ok paths)) :
    tree.KeepsDirectories final ∧ ∀ place content, tree.at? place = some (.file content) →
      (∀ o ∈ outputs, outputSlot out o ≠ place) → final.at? place = some (.file content) := by
  induction outputs generalizing tree paths with
  | nil =>
    cases done
    exact ⟨fun _ there => there, fun _ _ there _ => there⟩
  | cons o rest ih =>
    obtain ⟨made, written, others, grows, _, fills, later, _⟩ := writeOutputs_cons_eq_ok done
    obtain ⟨directories, files⟩ := ih later
    constructor
    · intro place there
      exact directories place (fills.keepsDirectories place (grows place _ there))
    · intro place content there elsewhere
      refine files place content ?_ fun other member => elsewhere other (List.mem_cons_of_mem _ member)
      rw [fills.others place (elsewhere o List.mem_cons_self).symm]
      exact grows place _ there

theorem writeOutputs_reads (slots : (outputs.map (outputSlot out)).Nodup)
    (unknown : ∀ o ∈ outputs, standardNode? (outputSlot out o) = none)
    (done : writeOutputs out tree outputs = (final, .ok paths)) :
    ∀ o ∈ outputs, final.read (outputFile out o) = .ok (Text.Utf8.encode o.content) := by
  induction outputs generalizing tree paths with
  | nil =>
    intro o isOutput
    cases isOutput
  | cons first rest ih =>
    obtain ⟨made, written, others, _, leads, fills, later, _⟩ := writeOutputs_cons_eq_ok done
    rw [List.map_cons, List.nodup_cons] at slots
    intro o isOutput
    rcases List.mem_cons.mp isOutput with rfl | isOutput
    · obtain ⟨directories, files⟩ := writeOutputs_keeps later
      have filled := fills.filled (unknown o List.mem_cons_self)
      have elsewhere : ∀ other ∈ rest, outputSlot out other ≠ outputSlot out o :=
        fun other member same => slots.1 (same ▸ List.mem_map_of_mem member)
      have keeps : made.KeepsDirectories final := fun place there =>
        directories place (fills.keepsDirectories place there)
      exact FileTree.read_of_slot leads keeps
        (files _ _ filled elsewhere)
    · exact ih slots.2 (fun other member => unknown other (List.mem_cons_of_mem _ member)) later o
        isOutput

end Outputs

section Paths

/-- A part of a path that goes down. -/
structure IsStep (part : String) : Prop where
  nonempty : part ≠ ""
  whole : '/' ∉ part.toList
  notDot : part ≠ "."

theorem ofText_isStep {text : String} : ∀ part ∈ (FilePath.ofText text).parts, IsStep part := by
  intro part member
  obtain ⟨isPiece, kept⟩ := List.mem_filter.mp member
  obtain ⟨cs, inText, rfl⟩ := List.mem_map.mp isPiece
  have kept := of_decide_eq_true kept
  refine ⟨kept.1, ?_, kept.2⟩
  rw [String.toList_ofList]
  exact Text.not_mem_of_mem_splitOn inText

theorem ofText_root (text : String) : (FilePath.ofText text).root ∈ ["", "/", "//"] := by
  rw [FilePath.ofText, FilePath.rootOf.eq_def]
  split <;> simp

variable {parts : List String} (steps : ∀ part ∈ parts, IsStep part)

def rooted (root : String) (parts : List String) : List String :=
  List.replicate root.length "" ++ parts

include steps

theorem splitOn_rooted {root : String} (nonempty : parts ≠ []) :
    (Text.splitOn '/' ("/".intercalate (rooted root parts))).filter (· ≠ "") = parts := by
  have apart : ∀ part ∈ rooted root parts, '/' ∉ part.toList := by
    intro part member
    rcases List.mem_append.mp member with blank | member
    · rw [List.eq_of_mem_replicate blank]
      exact List.not_mem_nil
    · exact (steps part member).whole
  have pieces : Text.splitOn '/' ("/".intercalate (rooted root parts)) = rooted root parts :=
    Text.splitOn_intercalate apart (by simp [rooted, nonempty])
  have kept : parts.filter (· ≠ "") = parts :=
    List.filter_eq_self.mpr fun part member => by simpa using (steps part member).nonempty
  rw [pieces, rooted, List.filter_append, kept, List.filter_replicate_of_neg (by simp), List.nil_append]

theorem toText_eq {root : String} (isRoot : root ∈ ["", "/", "//"]) (nonempty : parts ≠ []) :
    (FilePath.mk root parts).toText = "/".intercalate (rooted root parts) := by
  obtain ⟨first, rest, rfl⟩ := List.exists_cons_of_ne_nil nonempty
  rw [FilePath.toText, if_neg (by simp)]
  simp only [List.mem_cons, List.not_mem_nil, or_false] at isRoot
  rcases isRoot with rfl | rfl | rfl
  · rw [String.empty_append]
    rfl
  · have blank : rooted "/" (first :: rest) = "" :: first :: rest := rfl
    rw [blank, String.intercalate_cons_cons, String.empty_append]
  · have blanks : rooted "//" (first :: rest) = "" :: "" :: first :: rest := rfl
    rw [blanks, String.intercalate_cons_cons, String.intercalate_cons_cons, String.empty_append,
      ← String.append_assoc]
    rfl

theorem rootOf_eq {root : String} (isRoot : root ∈ ["", "/", "//"]) (nonempty : parts ≠ []) :
    FilePath.rootOf (root ++ "/".intercalate parts).toList = root := by
  obtain ⟨first, rest, rfl⟩ := List.exists_cons_of_ne_nil nonempty
  have step := steps first List.mem_cons_self
  obtain ⟨c, cs, isFirst⟩ := List.exists_cons_of_ne_nil fun empty =>
    step.nonempty (String.toList_eq_nil_iff.mp empty)
  have other : c ≠ '/' := fun same => step.whole (by simp [isFirst, same])
  obtain ⟨tail, isText⟩ : ∃ tail, ("/".intercalate (first :: rest)).toList = c :: tail := by
    cases rest with
    | nil => exact ⟨cs, by rw [String.intercalate_singleton, isFirst]⟩
    | cons next others =>
      rw [String.intercalate_cons_cons, String.append_assoc, String.toList_append, isFirst]
      exact ⟨_, rfl⟩
  rw [String.toList_append, isText]
  simp only [List.mem_cons, List.not_mem_nil, or_false] at isRoot
  rcases isRoot with rfl | rfl | rfl <;> simp [FilePath.rootOf, other]

omit steps in
theorem not_endsWith_slash {start : List String} {last : String} (step : IsStep last) :
    Text.endsWith ("/".intercalate (start ++ [last])) "/" = false := by
  refine Bool.eq_false_iff.mpr fun ends => ?_
  obtain ⟨before, isText⟩ := List.isSuffixOf_iff_suffix.mp ends
  rw [Name.intercalate_slash, String.toList_append] at isText
  have nonempty : last.toList ≠ [] := fun empty => step.nonempty (String.toList_eq_nil_iff.mp empty)
  have isSlash : last.toList.getLast? = some '/' := by
    rw [← List.getLast?_append_of_ne_nil _ nonempty, ← isText]
    simp
  exact step.whole (List.mem_of_getLast? isSlash)

theorem writtenParts_toText {root : String} (isRoot : root ∈ ["", "/", "//"]) (nonempty : parts ≠ []) :
    FileTree.writtenParts (FilePath.mk root parts).toText =
      if root = "" then parts else root :: parts := by
  have isStart : FilePath.rootOf (FilePath.mk root parts).toText.toList = root := by
    obtain ⟨first, rest, rfl⟩ := List.exists_cons_of_ne_nil nonempty
    rw [FilePath.toText, if_neg (by simp)]
    exact rootOf_eq steps isRoot nonempty
  have ending : Text.endsWith (FilePath.mk root parts).toText "/" = false := by
    rcases List.eq_nil_or_concat parts with rfl | ⟨start, last, rfl⟩
    · exact absurd rfl nonempty
    · rw [List.concat_eq_append] at steps ⊢
      rw [toText_eq steps isRoot (by simp), rooted, ← List.append_assoc]
      exact not_endsWith_slash (steps last (by simp))
  rw [FileTree.writtenParts, isStart, ending, toText_eq steps isRoot nonempty,
    splitOn_rooted steps nonempty]
  rfl

theorem ofText_intercalate (nonempty : parts ≠ []) :
    FilePath.ofText ("/".intercalate parts) = ⟨"", parts⟩ := by
  have noRoot : FilePath.rootOf ("/".intercalate parts).toList = "" := by
    have isStart : FilePath.rootOf ("" ++ "/".intercalate parts).toList = "" :=
      rootOf_eq steps (by simp) nonempty
    rwa [String.empty_append] at isStart
  have pieces : Text.splitOn '/' ("/".intercalate parts) = parts :=
    Text.splitOn_intercalate (fun part member => (steps part member).whole) nonempty
  have kept : parts.filter (fun part => part ≠ "" ∧ part ≠ ".") = parts :=
    List.filter_eq_self.mpr fun part member => by
      simp [(steps part member).nonempty, (steps part member).notDot]
  rw [FilePath.ofText, noRoot, pieces, kept]

end Paths

section Below

open FileTree (standardNode? walk)

/-- The parts of a path that only goes down, to a module. -/
structure IsDownward (parts : List String) : Prop where
  steps : ∀ part ∈ parts, IsStep part
  notAbove : ∀ part ∈ parts, part ≠ ".."
  file : ∃ start name, parts = start ++ [name ++ ".py"]

variable {out : String} {parts : List String}

theorem IsDownward.nonempty (downward : IsDownward parts) : parts ≠ [] := by
  obtain ⟨start, name, rfl⟩ := downward.file
  simp

def followed (p : FilePath) : List String := if p.root = "" then p.parts else p.root :: p.parts

theorem join_ofText (downward : IsDownward parts) :
    (FilePath.ofText out).join (.ofText ("/".intercalate parts)) =
      ⟨(FilePath.ofText out).root, (FilePath.ofText out).parts ++ parts⟩ := by
  rw [ofText_intercalate downward.steps downward.nonempty]
  rfl

theorem outputSlot_eq {o : Output} (downward : IsDownward parts)
    (isPath : o.path = "/".intercalate parts) :
    outputSlot (.ofText out) o = walk [] (followed (.ofText out)) ++ parts := by
  have steps : ∀ part ∈ (FilePath.ofText out).parts ++ parts, IsStep part := by
    intro part member
    rcases List.mem_append.mp member with member | member
    · exact ofText_isStep part member
    · exact downward.steps part member
  have nonempty : (FilePath.ofText out).parts ++ parts ≠ [] :=
    List.append_ne_nil_of_right_ne_nil _ downward.nonempty
  have whole : FileTree.writtenParts (outputFile (.ofText out) o) =
      followed (.ofText out) ++ parts := by
    rw [outputFile, isPath, join_ofText downward,
      writtenParts_toText steps (ofText_root out) nonempty, followed]
    split <;> rfl
  have plain : ∀ part ∈ parts, part ≠ "." ∧ part ≠ ".." := fun part member =>
    ⟨(downward.steps part member).notDot, downward.notAbove part member⟩
  rw [outputSlot, whole, FileTree.walk_append, FileTree.walk_plain plain]

theorem standardNode?_eq_none (downward : IsDownward parts) (place : Place) :
    standardNode? (place ++ parts) = none := by
  obtain ⟨start, name, rfl⟩ := downward.file
  have unlike : ∀ known ∈ ["/", "//", "tmp", "dev", "null", ".."], name ++ ".py" ≠ known := by
    intro known isKnown same
    have hasY : 'y' ∈ known.toList := by simp [← same]
    have none : ∀ known ∈ ["/", "//", "tmp", "dev", "null", ".."], 'y' ∉ known.toList := by decide
    exact none known isKnown hasY
  have ending (known : List String) (same : place ++ (start ++ [name ++ ".py"]) = known) :
      known.getLast? = some (name ++ ".py") := by simp [← same]
  unfold standardNode?
  split
  case h_6 =>
    refine if_neg fun above => ?_
    have last := List.all_eq_true.mp above (name ++ ".py") (by simp)
    exact unlike ".." (by simp) (of_decide_eq_true last)
  all_goals
    rename_i same
    exact absurd (Option.some.inj (ending _ same)).symm (unlike _ (by simp))

theorem writeOutputs_reads_of_distinct {tree final : FileTree} {outputs : List Output}
    {paths : List String}
    (downward : ∀ o ∈ outputs, ∃ parts, IsDownward parts ∧ o.path = "/".intercalate parts)
    (distinct : (outputs.map (·.path)).Nodup)
    (done : writeOutputs (.ofText out) tree outputs = (final, .ok paths)) :
    ∀ o ∈ outputs, final.read (outputFile (.ofText out) o) = .ok (Text.Utf8.encode o.content) := by
  refine writeOutputs_reads ?_ ?_ done
  · rw [List.nodup_map_iff_inj_on distinct.of_map]
    intro o isOutput other isOther same
    obtain ⟨parts, below, isPath⟩ := downward o isOutput
    obtain ⟨parts', below', isPath'⟩ := downward other isOther
    rw [outputSlot_eq below isPath, outputSlot_eq below' isPath', List.append_cancel_left_eq] at same
    have samePath : o.path = other.path := by rw [isPath, isPath', same]
    exact List.inj_on_of_nodup_map distinct isOutput isOther samePath
  · intro o isOutput
    obtain ⟨parts, below, isPath⟩ := downward o isOutput
    rw [outputSlot_eq below isPath]
    exact standardNode?_eq_none below _
end Below

end ProtoBindings.CommandLine
