import Mathlib.Data.List.Nodup
import ProtoBindings.Proofs.Result
import ProtoBindings.Name.Reserved

namespace ProtoBindings.Name

/-- The name, with an underscore behind it where it is taken. -/
def suffixed (taken : String → Bool) (name : String) : String :=
  if taken name then name ++ "_" else name

section Suffixed

variable {taken : String → Bool}

theorem suffixed_of_taken {name : String} (isTaken : taken name = true) :
    suffixed taken name = name ++ "_" := by rw [suffixed, if_pos isTaken]

theorem suffixed_of_free {name : String} (free : taken name = false) : suffixed taken name = name := by
  rw [suffixed, if_neg (by simp [free])]

theorem suffixed_eq_iff {name id : String} : suffixed taken name = id ↔
    (taken name = false ∧ name = id) ∨ (taken name = true ∧ name ++ "_" = id) := by
  cases isTaken : taken name with
  | true => simp [suffixed_of_taken isTaken]
  | false => simp [suffixed_of_free isTaken]

theorem suffixed_eq_append_iff {start : String}
    (new : ∀ known, taken known = true → ¬ start.toList <+: (known ++ "_").toList)
    {name rest : String} : suffixed taken name = start ++ rest ↔ name = start ++ rest := by
  have starts : start.toList <+: (start ++ rest).toList := ⟨rest.toList, String.toList_append.symm⟩
  constructor
  · intro same
    rcases suffixed_eq_iff.mp same with ⟨_, same⟩ | ⟨isTaken, same⟩
    · exact same
    · exact absurd (same ▸ starts) (new name isTaken)
  · rintro rfl
    refine suffixed_of_free (Bool.eq_false_iff.mpr fun isTaken => ?_)
    apply new _ isTaken
    rw [String.toList_append]
    exact starts.trans (List.prefix_append ..)

variable (marked : ∀ name, taken (name ++ "_") = false)
include marked

theorem not_taken_suffixed (name : String) : taken (suffixed taken name) = false := by
  cases isTaken : taken name with
  | true => rw [suffixed_of_taken isTaken, marked]
  | false => rw [suffixed_of_free isTaken, isTaken]

theorem suffixed_eq_suffixed_iff {a b : String} : suffixed taken a = suffixed taken b ↔
    a = b ∨ (taken a = true ∧ b = a ++ "_") ∨ (taken b = true ∧ a = b ++ "_") := by
  cases ofLeft : taken a with
  | true =>
    cases ofRight : taken b with
    | true =>
      rw [suffixed_of_taken ofLeft, suffixed_of_taken ofRight, String.append_left_inj]
      constructor
      · exact .inl
      · rintro (same | ⟨_, rfl⟩ | ⟨_, rfl⟩)
        · exact same
        · simp [marked] at ofRight
        · simp [marked] at ofLeft
    | false =>
      have different : a ≠ b := by
        rintro rfl
        simp [ofLeft] at ofRight
      simp [suffixed_of_taken ofLeft, suffixed_of_free ofRight, different, eq_comm]
  | false =>
    cases ofRight : taken b with
    | true =>
      have different : a ≠ b := by
        rintro rfl
        simp [ofLeft] at ofRight
      simp [suffixed_of_free ofLeft, suffixed_of_taken ofRight, different]
    | false => simp [suffixed_of_free ofLeft, suffixed_of_free ofRight]

theorem nodup_map_suffixed_iff {names : List String} : (names.map (suffixed taken)).Nodup ↔
    names.Nodup ∧ ∀ name ∈ names, taken name = true → name ++ "_" ∉ names := by
  constructor
  · intro whole
    have distinct := whole.of_map (suffixed taken)
    refine ⟨distinct, fun name isName isTaken isMarked => ?_⟩
    have same : suffixed taken name = suffixed taken (name ++ "_") :=
      (suffixed_eq_suffixed_iff marked).mpr (.inr (.inl ⟨isTaken, rfl⟩))
    have fixed := (List.nodup_map_iff_inj_on distinct).mp whole name isName _ isMarked same
    rw [fixed, marked] at isTaken
    cases isTaken
  · rintro ⟨distinct, apart⟩
    refine distinct.map_on fun s ofLeft t ofRight same => ?_
    rcases (suffixed_eq_suffixed_iff marked).mp same with same | ⟨isTaken, rfl⟩ | ⟨isTaken, rfl⟩
    · exact same
    · exact absurd ofRight (apart s ofLeft isTaken)
    · exact absurd ofLeft (apart t ofRight isTaken)

end Suffixed

section Escape

theorem escape_eq_suffixed : escape = suffixed isReserved := rfl

theorem mem_of_isReserved {name : String} (reserved : isReserved name = true) :
    name ∈ keywords ++ classBodyNames := by
  simpa [isReserved, isKeyword] using reserved

/-- No reserved name ends like an escaped one. -/
theorem isReserved_append (name : String) : isReserved (name ++ "_") = false := by
  have endings : ∀ known ∈ keywords ++ classBodyNames, known.toList.getLast? ≠ some '_' := by
    decide +kernel
  refine Bool.eq_false_iff.mpr fun reserved => ?_
  apply endings _ (mem_of_isReserved reserved)
  simp

theorem isReserved_escape (name : String) : isReserved (escape name) = false :=
  not_taken_suffixed isReserved_append name

def Escapes (name escaped : String) : Prop := isReserved name = true ∧ escaped = name ++ "_"

instance (name escaped : String) : Decidable (Escapes name escaped) :=
  inferInstanceAs (Decidable (_ ∧ _))

theorem escape_eq_escape_iff {a b : String} :
    escape a = escape b ↔ a = b ∨ Escapes a b ∨ Escapes b a :=
  suffixed_eq_suffixed_iff isReserved_append

theorem escape_eq_append_iff {start : String}
    (new : ∀ known ∈ keywords ++ classBodyNames, ¬ start.toList <+: (known ++ "_").toList)
    {name rest : String} : escape name = start ++ rest ↔ name = start ++ rest :=
  suffixed_eq_append_iff fun known reserved => new known (mem_of_isReserved reserved)

end Escape

end ProtoBindings.Name
