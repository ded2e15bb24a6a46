import ProtoBindings.Text.Basic
import Mathlib.Data.List.TakeWhile

namespace ProtoBindings.Text

def IsBlank (text : String) : Prop := ∀ c ∈ text.toList, Unicode.isBlank c = true

instance (text : String) : Decidable (IsBlank text) := decidable_of_iff _ List.all_eq_true

structure IsTrimmed (text : String) : Prop where
  start : ∀ c ∈ text.toList.head?, Unicode.isBlank c = false
  ending : ∀ c ∈ text.toList.getLast?, Unicode.isBlank c = false

theorem isTrimmed_iff {text : String} : IsTrimmed text ↔
    text.toList.head?.all (!Unicode.isBlank ·) = true ∧
      text.toList.getLast?.all (!Unicode.isBlank ·) = true := by
  simp only [Option.all_eq_true, Bool.not_eq_true']
  exact ⟨fun trimmed => ⟨trimmed.start, trimmed.ending⟩, fun ⟨start, ending⟩ => ⟨start, ending⟩⟩

instance (text : String) : Decidable (IsTrimmed text) := decidable_of_iff _ isTrimmed_iff.symm

section Lists

variable {before cs after : List Char}

theorem dropBlanks_eq_nil (blank : ∀ c ∈ cs, Unicode.isBlank c = true) :
    cs.dropWhile Unicode.isBlank = [] := List.dropWhile_eq_nil_iff.mpr blank

theorem dropBlanks_of_head (start : ∀ c ∈ cs.head?, Unicode.isBlank c = false) :
    cs.dropWhile Unicode.isBlank = cs := by
  cases cs with
  | nil => rfl
  | cons c rest => exact List.dropWhile_cons_of_neg (by simp [start c rfl])

theorem dropBlanksAround_padded (cs : List Char) (blank : ∀ c ∈ before, Unicode.isBlank c = true)
    (blank' : ∀ c ∈ after, Unicode.isBlank c = true) :
    dropBlanksAround (before ++ cs ++ after) = dropBlanksAround cs := by
  have reversed : ∀ c ∈ after.reverse, Unicode.isBlank c = true := fun c member =>
    blank' c (List.mem_reverse.mp member)
  rw [dropBlanksAround, dropBlanksAround, List.append_assoc, List.dropWhile_append_of_pos blank,
    List.dropWhile_append]
  split
  · rename_i empty
    rw [dropBlanks_eq_nil blank', List.isEmpty_iff.mp empty]
  · rw [List.reverse_append, List.dropWhile_append_of_pos reversed]

theorem dropBlanksAround_of_ends (start : ∀ c ∈ cs.head?, Unicode.isBlank c = false)
    (ending : ∀ c ∈ cs.getLast?, Unicode.isBlank c = false) : dropBlanksAround cs = cs := by
  rw [dropBlanksAround, dropBlanks_of_head start, dropBlanks_of_head (by rwa [List.head?_reverse]),
    List.reverse_reverse]

theorem exists_blank_start (cs : List Char) :
    ∃ before, (∀ c ∈ before, Unicode.isBlank c = true) ∧ before ++ cs.dropWhile Unicode.isBlank = cs :=
  ⟨cs.takeWhile Unicode.isBlank, fun _ member => List.mem_takeWhile_imp member,
    List.takeWhile_append_dropWhile⟩

theorem exists_blank_end (cs : List Char) : ∃ after, (∀ c ∈ after, Unicode.isBlank c = true) ∧
    (cs.reverse.dropWhile Unicode.isBlank).reverse ++ after = cs := by
  obtain ⟨before, blank, whole⟩ := exists_blank_start cs.reverse
  refine ⟨before.reverse, fun c member => blank c (List.mem_reverse.mp member), ?_⟩
  rw [← List.reverse_append, whole, List.reverse_reverse]

theorem exists_padding (cs : List Char) : ∃ before after, (∀ c ∈ before, Unicode.isBlank c = true) ∧
    (∀ c ∈ after, Unicode.isBlank c = true) ∧ before ++ dropBlanksAround cs ++ after = cs := by
  obtain ⟨before, blank, whole⟩ := exists_blank_start cs
  obtain ⟨after, blank', rest⟩ := exists_blank_end (cs.dropWhile Unicode.isBlank)
  refine ⟨before, after, blank, blank', ?_⟩
  rw [dropBlanksAround, List.append_assoc, rest, whole]

theorem dropBlanksAround_eq_nil : dropBlanksAround cs = [] ↔ ∀ c ∈ cs, Unicode.isBlank c = true := by
  constructor
  · intro none
    rw [dropBlanksAround, List.reverse_eq_nil_iff, List.dropWhile_eq_nil_iff] at none
    cases left : cs.dropWhile Unicode.isBlank with
    | nil => exact List.dropWhile_eq_nil_iff.mp left
    | cons c rest =>
      have solid := List.head?_dropWhile_not Unicode.isBlank cs
      have blank := none c (by simp [left])
      rw [left, List.head?_cons] at solid
      exact absurd blank (Bool.eq_false_iff.mp solid)
  · intro blank
    rw [dropBlanksAround, dropBlanks_eq_nil blank]
    rfl

variable {separator : Char} (solid : Unicode.isBlank separator = false)
include solid

theorem dropBlanks_append_cons : (before ++ separator :: after).dropWhile Unicode.isBlank =
    before.dropWhile Unicode.isBlank ++ separator :: after := by
  have stops : (separator :: after).dropWhile Unicode.isBlank = separator :: after :=
    dropBlanks_of_head (by simpa using solid)
  rw [List.dropWhile_append, stops]
  split
  · rename_i empty
    rw [List.isEmpty_iff.mp empty, List.nil_append]
  · rfl

/-- Of a text with a separator in it, the blanks at the one end are those of the part before it, and the
    blanks at the other end those of the part behind it. -/
theorem dropBlanksAround_append_cons (before after : List Char) :
    ∃ left right, dropBlanksAround (before ++ separator :: after) = left ++ separator :: right ∧
      left ⊆ before ∧ dropBlanksAround left = dropBlanksAround before ∧
      dropBlanksAround right = dropBlanksAround after := by
  refine ⟨before.dropWhile Unicode.isBlank, (after.reverse.dropWhile Unicode.isBlank).reverse, ?_,
    (List.dropWhile_sublist _).subset, ?_, ?_⟩
  · rw [dropBlanksAround, dropBlanks_append_cons solid, List.reverse_append, List.reverse_cons,
      List.append_assoc, List.singleton_append, dropBlanks_append_cons solid]
    simp
  · obtain ⟨start, blank, whole⟩ := exists_blank_start before
    have padded := dropBlanksAround_padded (before.dropWhile Unicode.isBlank) blank (List.forall_mem_nil _)
    rw [List.append_nil, whole] at padded
    exact padded.symm
  · obtain ⟨ending, blank, whole⟩ := exists_blank_end after
    have padded := dropBlanksAround_padded (after.reverse.dropWhile Unicode.isBlank).reverse
      (List.forall_mem_nil _) blank
    rw [List.nil_append, whole] at padded
    exact padded.symm

end Lists

section Trim

variable {before s after : String}

theorem trim_eq_empty : trim s = "" ↔ IsBlank s := by
  rw [trim, String.ofList_eq_empty_iff, dropBlanksAround_eq_nil, IsBlank]

theorem trim_padded (blank : IsBlank before) (blank' : IsBlank after) :
    trim (before ++ s ++ after) = trim s := by
  rw [trim, trim, String.toList_append, String.toList_append, dropBlanksAround_padded _ blank blank']

theorem trim_trim (s : String) : trim (trim s) = trim s := by
  obtain ⟨before, after, blank, blank', whole⟩ := exists_padding s.toList
  have padded := dropBlanksAround_padded (dropBlanksAround s.toList) blank blank'
  rw [whole] at padded
  rw [trim, trim, String.toList_ofList, ← padded]

theorem mem_of_mem_trim {c : Char} (member : c ∈ (trim s).toList) : c ∈ s.toList := by
  obtain ⟨before, after, _, _, whole⟩ := exists_padding s.toList
  rw [trim, String.toList_ofList] at member
  rw [← whole]
  simp [member]

theorem IsTrimmed.trim_eq (trimmed : IsTrimmed s) : trim s = s := by
  rw [trim, dropBlanksAround_of_ends trimmed.start trimmed.ending, String.ofList_toList]

variable {separator : Char}

theorem cut_append (absent : separator ∉ before.toList) :
    cut separator (before ++ String.singleton separator ++ after) = (before, after) := by
  have other : ∀ c ∈ before.toList, decide (c ≠ separator) = true := fun c member =>
    decide_eq_true fun same => absent (same ▸ member)
  rw [cut, String.toList_append, String.toList_append, String.toList_singleton, List.append_assoc,
    List.takeWhile_append_of_pos other, List.dropWhile_append_of_pos other]
  simp

theorem cut_of_not_mem (absent : separator ∉ s.toList) : cut separator s = (s, "") := by
  have other : ∀ c ∈ s.toList, decide (c ≠ separator) = true := fun c member =>
    decide_eq_true fun same => absent (same ▸ member)
  rw [cut, List.takeWhile_eq_self_iff.mpr other, List.dropWhile_eq_nil_iff.mpr other]
  simp

theorem trim_cut_trim (solid : Unicode.isBlank separator = false) (s : String) :
    trim (cut separator (trim s)).1 = trim (cut separator s).1 ∧
      trim (cut separator (trim s)).2 = trim (cut separator s).2 := by
  by_cases member : separator ∈ s.toList
  · obtain ⟨before, after, split, absent⟩ := List.eq_append_cons_of_mem member
    obtain ⟨left, right, trimmed, within, ofLeft, ofRight⟩ :=
      dropBlanksAround_append_cons solid before after
    have joined (front back : List Char) : String.ofList (front ++ separator :: back) =
        String.ofList front ++ String.singleton separator ++ String.ofList back := by
      rw [← String.toList_inj]
      simp
    have whole : s = String.ofList before ++ String.singleton separator ++ String.ofList after := by
      rw [← joined, ← split, String.ofList_toList]
    have core : trim s = String.ofList left ++ String.singleton separator ++ String.ofList right := by
      rw [trim, split, trimmed, joined]
    have absent' : separator ∉ left := fun member => absent (within member)
    rw [core, cut_append (by rwa [String.toList_ofList]), whole,
      cut_append (by rwa [String.toList_ofList])]
    simp only [trim, String.toList_ofList, ofLeft, ofRight, and_self]
  · have absent : separator ∉ (trim s).toList := fun inside => member (mem_of_mem_trim inside)
    rw [cut_of_not_mem member, cut_of_not_mem absent, trim_trim]
    exact ⟨rfl, rfl⟩

end Trim

end ProtoBindings.Text
