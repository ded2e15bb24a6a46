import Mathlib.Data.List.Nodup
import ProtoBindings.Proofs.Name.Percent

namespace ProtoBindings.Name

def isSnakeChar (c : Char) : Bool := isSmallOrDigit c || c == '_'

def isWordChar (c : Char) : Bool := isCapital c || isSnakeChar c

def IsWord (s : String) : Prop := ∀ c ∈ s.toList, isWordChar c = true

def IsSnake (s : String) : Prop := ∀ c ∈ s.toList, isSnakeChar c = true

def HasSmall (s : String) : Prop := ∃ c ∈ s.toList, isSmall c = true

instance (s : String) : Decidable (IsWord s) := decidable_of_iff _ List.all_eq_true

instance (s : String) : Decidable (IsSnake s) := decidable_of_iff _ List.all_eq_true

instance (s : String) : Decidable (HasSmall s) := decidable_of_iff _ List.any_eq_true

section Characters

theorem forall_ascii {p : Char → Bool} (all : ∀ n : Fin 128, p (Char.ofNat n) = true) {c : Char}
    (ascii : c.toNat < 128) : p c = true := by
  simpa using all ⟨c.toNat, ascii⟩

variable {c : Char}

theorem ascii_of_isWordChar (word : isWordChar c = true) : c.toNat < 128 := by
  simp only [isWordChar, isSnakeChar, isSmallOrDigit, isSmall, isCapital, Bool.or_eq_true,
    Bool.and_eq_true, decide_eq_true_eq, beq_iff_eq, Char.le_def, UInt32.le_iff_toNat_le] at word
  rcases word with ⟨_, high⟩ | (⟨_, high⟩ | ⟨_, high⟩) | rfl
  · exact Nat.lt_of_le_of_lt high (by decide)
  · exact Nat.lt_of_le_of_lt high (by decide)
  · exact Nat.lt_of_le_of_lt high (by decide)
  · decide

theorem isWordChar_of_isSnakeChar (snake : isSnakeChar c = true) : isWordChar c = true := by
  rw [isWordChar, snake, Bool.or_true]

theorem isSnakeChar_toLower (word : isWordChar c = true) : isSnakeChar c.toLower = true := by
  have all := forall_ascii (p := fun c => !isWordChar c || isSnakeChar c.toLower) (by decide)
    (ascii_of_isWordChar word)
  simpa [word] using all

theorem toLower_toUpper (snake : isSnakeChar c = true) : c.toUpper.toLower = c := by
  have all := forall_ascii (p := fun c => !isSnakeChar c || c.toUpper.toLower == c) (by decide)
    (ascii_of_isWordChar (isWordChar_of_isSnakeChar snake))
  simpa [snake] using all

theorem not_isSmall_toUpper (snake : isSnakeChar c = true) : isSmall c.toUpper = false := by
  have all := forall_ascii (p := fun c => !isSnakeChar c || !isSmall c.toUpper) (by decide)
    (ascii_of_isWordChar (isWordChar_of_isSnakeChar snake))
  simpa [snake] using all

theorem toLower_ne_underscore (other : c ≠ '_') : c.toLower ≠ '_' := by
  by_cases ascii : c.toNat < 128
  · have lowered := forall_ascii (p := fun c => c == '_' || c.toLower != '_') (by decide) ascii
    simpa [other] using lowered
  · have small : ¬ (c.val ≥ 'A'.val ∧ c.val ≤ 'Z'.val) := fun capital =>
      ascii (Nat.lt_of_le_of_lt (UInt32.le_iff_toNat_le.mp capital.2) (by decide))
    have same : c.toLower = c := dif_neg small
    rwa [same]

end Characters

theorem isWord_append {s t : String} : IsWord (s ++ t) ↔ IsWord s ∧ IsWord t := by
  simp [IsWord, or_imp, forall_and]

theorem isSnake_append {s t : String} : IsSnake (s ++ t) ↔ IsSnake s ∧ IsSnake t := by
  simp [IsSnake, or_imp, forall_and]

theorem isWord_intercalate {separator : String} (word : IsWord separator) {parts : List String}
    (each : ∀ part ∈ parts, IsWord part) : IsWord (separator.intercalate parts) := by
  induction parts with
  | nil => simp [IsWord]
  | cons part rest ih =>
    have later := ih fun other member => each other (List.mem_cons_of_mem _ member)
    have first := each part List.mem_cons_self
    cases rest with
    | nil => simpa using first
    | cons next rest =>
      rw [String.intercalate_cons_cons, isWord_append, isWord_append]
      exact ⟨⟨first, word⟩, later⟩

theorem HasSmall.append_left {t : String} (small : HasSmall t) (s : String) : HasSmall (s ++ t) := by
  obtain ⟨c, member, isSmall⟩ := small
  exact ⟨c, by simp [member], isSmall⟩

theorem lowerFrom_eq_map {before cs : List Char} (word : ∀ c ∈ cs, isWordChar c = true) :
    Unicode.lowerFrom before cs = cs.map Char.toLower := by
  induction cs generalizing before with
  | nil => rfl
  | cons c rest ih =>
    have ascii := ascii_of_isWordChar (word c List.mem_cons_self)
    have notSigma : c ≠ 'Σ' := by
      rintro rfl
      exact absurd ascii (by decide)
    rw [Unicode.lowerFrom, if_neg notSigma, Unicode.lowerChar, if_pos ascii,
      ih fun c member => word c (List.mem_cons_of_mem _ member)]
    rfl

theorem isWordChar_squeezed {s : String} (word : IsWord s) :
    ∀ c ∈ squeezeUnderscores (splitWords (splitAcronyms s.toList)), isWordChar c = true := by
  intro c member
  rcases mem_splitWords (mem_squeezeUnderscores member) with member | rfl
  · rcases mem_splitAcronyms member with member | rfl
    · exact word c member
    · decide
  · decide

theorem toList_snakeCase {s : String} (word : IsWord s) : (snakeCase s).toList =
    (squeezeUnderscores (splitWords (splitAcronyms s.toList))).map Char.toLower := by
  rw [snakeCase, Unicode.lower, String.toList_ofList, String.toList_ofList,
    lowerFrom_eq_map (isWordChar_squeezed word)]

theorem isSnake_snakeCase {s : String} (word : IsWord s) : IsSnake (snakeCase s) := by
  rw [IsSnake, toList_snakeCase word]
  intro c member
  obtain ⟨before, isBefore, rfl⟩ := List.mem_map.mp member
  exact isSnakeChar_toLower (isWordChar_squeezed word before isBefore)

theorem upper_append (s t : String) : Unicode.upper (s ++ t) = Unicode.upper s ++ Unicode.upper t := by
  simp [Unicode.upper, ← String.ofList_append]

theorem toList_upper {s : String} (snake : IsSnake s) :
    (Unicode.upper s).toList = s.toList.map Char.toUpper := by
  have single : ∀ c ∈ s.toList, Unicode.upperChar c = [c.toUpper] := by
    intro c member
    rw [Unicode.upperChar, if_pos (ascii_of_isWordChar (isWordChar_of_isSnakeChar (snake c member)))]
  rw [Unicode.upper, String.toList_ofList, List.flatMap_congr single, List.map_eq_flatMap]

theorem upper_inj {s t : String} (ofLeft : IsSnake s) (ofRight : IsSnake t)
    (same : Unicode.upper s = Unicode.upper t) : s = t := by
  have lowered {u : String} (snake : IsSnake u) :
      (Unicode.upper u).toList.map Char.toLower = u.toList := by
    rw [toList_upper snake, List.map_map]
    exact (List.map_congr_left fun c member => toLower_toUpper (snake c member)).trans (List.map_id _)
  rw [← String.toList_inj, ← lowered ofLeft, ← lowered ofRight, same]

theorem nodup_map_upper {names : List String} (snake : ∀ name ∈ names, IsSnake name) :
    (names.map Unicode.upper).Nodup ↔ names.Nodup := by
  constructor
  · exact List.Nodup.of_map _
  · intro distinct
    exact distinct.map_on fun s ofLeft t ofRight => upper_inj (snake s ofLeft) (snake t ofRight)

theorem not_hasSmall_upper {s : String} (snake : IsSnake s) : ¬ HasSmall (Unicode.upper s) := by
  rintro ⟨c, member, small⟩
  rw [toList_upper snake] at member
  obtain ⟨before, isBefore, rfl⟩ := List.mem_map.mp member
  rw [not_isSmall_toUpper (snake before isBefore)] at small
  cases small

/-- Endings of which none is an ending of the other. -/
def Apart (s t : String) : Prop := ¬ s.toList <:+ t.toList ∧ ¬ t.toList <:+ s.toList

instance (s t : String) : Decidable (Apart s t) :=
  inferInstanceAs (Decidable (¬ s.toList <:+ t.toList ∧ ¬ t.toList <:+ s.toList))

theorem Apart.append_ne {first second : String} (apart : Apart first second) (s t : String) :
    s ++ first ≠ t ++ second := by
  intro same
  have ofFirst : first.toList <:+ (s ++ first).toList := ⟨s.toList, String.toList_append.symm⟩
  have ofSecond : second.toList <:+ (s ++ first).toList := ⟨t.toList, by rw [same, String.toList_append]⟩
  rcases List.suffix_or_suffix_of_suffix ofFirst ofSecond with suffix | suffix
  · exact apart.1 suffix
  · exact apart.2 suffix

def familyNames (families : List (String × List String)) : List String :=
  families.flatMap fun family => family.2.map (· ++ family.1)

theorem nodup_familyNames {families : List (String × List String)}
    (apart : (families.map (·.1)).Pairwise Apart) :
    (familyNames families).Nodup ↔ ∀ family ∈ families, family.2.Nodup := by
  have injective (ending : String) : Function.Injective (· ++ ending) := fun s t same => by
    simpa using same
  rw [familyNames, List.nodup_flatMap]
  constructor
  · rintro ⟨distinct, _⟩ family isFamily
    exact (List.nodup_map_iff (injective family.1)).mp (distinct family isFamily)
  · intro distinct
    refine ⟨fun family isFamily => ?_, (List.pairwise_map.mp apart).imp ?_⟩
    · exact (List.nodup_map_iff (injective family.1)).mpr (distinct family isFamily)
    · intro family other apart name ofFamily ofOther
      obtain ⟨s, _, rfl⟩ := List.mem_map.mp ofFamily
      obtain ⟨t, _, same⟩ := List.mem_map.mp ofOther
      exact apart.append_ne s t same.symm

theorem familyNames_disjoint_iff {families others : List (String × List String)}
    (apart : ∀ family ∈ families, ∀ other ∈ others, family.1 = other.1 ∨ Apart family.1 other.1) :
    (∀ name ∈ familyNames families, name ∉ familyNames others) ↔
      ∀ family ∈ families, ∀ other ∈ others, family.1 = other.1 →
        ∀ start ∈ family.2, start ∉ other.2 := by
  have named {families : List (String × List String)} {family : String × List String}
      (isFamily : family ∈ families) {start : String} (isStart : start ∈ family.2) :
      start ++ family.1 ∈ familyNames families :=
    List.mem_flatMap.mpr ⟨family, isFamily, List.mem_map_of_mem isStart⟩
  constructor
  · intro disjoint family isFamily other isOther sameEnding start ofFamily ofOther
    exact disjoint _ (sameEnding ▸ named isFamily ofFamily) (named isOther ofOther)
  · intro starts name ofFamilies ofOthers
    obtain ⟨family, isFamily, ofFamily⟩ := List.mem_flatMap.mp ofFamilies
    obtain ⟨other, isOther, ofOther⟩ := List.mem_flatMap.mp ofOthers
    obtain ⟨start, isStart, rfl⟩ := List.mem_map.mp ofFamily
    obtain ⟨start', isStart', same⟩ := List.mem_map.mp ofOther
    rcases apart family isFamily other isOther with sameEnding | endings
    · have sameStart : start' = start := by
        rw [sameEnding] at same
        exact (String.append_left_inj other.1).mp same
      exact starts family isFamily other isOther sameEnding start isStart (sameStart ▸ isStart')
    · exact endings.append_ne start start' same.symm

end ProtoBindings.Name
