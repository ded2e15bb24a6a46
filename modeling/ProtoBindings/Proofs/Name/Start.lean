import Mathlib.Data.List.Chain
import ProtoBindings.Proofs.Name.Word

namespace ProtoBindings

namespace Name

def StartsPlain (cs : List Char) : Prop := ∃ c, cs.head? = some c ∧ c ≠ '_'

@[simp] theorem startsPlain_nil : ¬ StartsPlain [] := by simp [StartsPlain]

@[simp] theorem startsPlain_cons {c : Char} {cs : List Char} : StartsPlain (c :: cs) ↔ c ≠ '_' := by
  simp [StartsPlain]

instance : DecidablePred StartsPlain
  | [] => .isFalse startsPlain_nil
  | _ :: _ => decidable_of_iff' _ startsPlain_cons

theorem StartsPlain.append {cs : List Char} (plain : StartsPlain cs) (rest : List Char) :
    StartsPlain (cs ++ rest) := by
  cases cs with
  | nil => exact absurd plain startsPlain_nil
  | cons c cs => simpa using plain

end Name

namespace Unicode

open Name (StartsPlain)

theorem ofNat_ne_underscore {n : Nat} (other : n ≠ 95) : Char.ofNat n ≠ '_' :=
  fun same => other (code_of_ofNat same (by decide))

theorem upperRuns_apart : ∀ run ∈ upperRuns, run.high < 128 ∨ (run.high : Int) + run.shift < 95 ∨
    (95 : Int) < run.low + run.shift := by decide +kernel

theorem shiftCode_upper {code : Nat} (large : 128 ≤ code) : shiftCode upperRuns code ≠ 95 := by
  rw [shiftCode]
  split
  · rename_i run found
    have apart := upperRuns_apart run (List.mem_of_find?_eq_some found)
    have holds : run.holds code = true := by simpa using List.find?_some found
    simp [CaseRun.holds] at holds
    omega
  · omega

theorem upperExpansions_plain : ∀ entry ∈ upperExpansions,
    StartsPlain (entry.2.map Char.ofNat) := by decide +kernel

theorem mem_of_lookup {table : List (Nat × List Nat)} {code : Nat} {codes : List Nat}
    (found : table.lookup code = some codes) : (code, codes) ∈ table := by
  obtain ⟨before, after, rfl, _⟩ := List.lookup_eq_some_iff.mp found
  simp

theorem startsPlain_lowerChar {c : Char} (plain : c ≠ '_') : StartsPlain (lowerChar c) := by
  rw [lowerChar]
  split
  · exact Name.startsPlain_cons.mpr (Name.toLower_ne_underscore plain)
  · rename_i large
    rw [mapCode]
    split
    · rename_i codes found
      have expansions : ∀ entry ∈ lowerExpansions, StartsPlain (entry.2.map Char.ofNat) := by decide
      exact expansions _ (mem_of_lookup found)
    · have above := @shiftCode_lower c.toNat (by omega)
      exact Name.startsPlain_cons.mpr (ofNat_ne_underscore (by omega))

theorem startsPlain_upperChar {c : Char} (plain : c ≠ '_') : StartsPlain (upperChar c) := by
  rw [upperChar]
  split
  · rename_i small
    have ascii := Name.forall_ascii (p := fun c => c == '_' || c.toUpper != '_') (by decide) small
    simpa [plain] using ascii
  · rename_i large
    rw [mapCode]
    split
    · rename_i codes found
      exact upperExpansions_plain _ (mem_of_lookup found)
    · exact Name.startsPlain_cons.mpr (ofNat_ne_underscore (shiftCode_upper (by omega)))

theorem startsPlain_lowerFrom {before cs : List Char} :
    StartsPlain (lowerFrom before cs) ↔ StartsPlain cs := by
  cases cs with
  | nil => exact Iff.rfl
  | cons c rest =>
    rw [lowerFrom, Name.startsPlain_cons]
    constructor
    · rintro plain rfl
      have underscore : lowerChar '_' = ['_'] := rfl
      simp [underscore] at plain
    · intro plain
      refine Name.StartsPlain.append ?_ _
      split
      · split <;> decide
      · exact startsPlain_lowerChar plain

theorem startsPlain_upper {s : String} (plain : StartsPlain s.toList) :
    StartsPlain (upper s).toList := by
  rw [upper, String.toList_ofList]
  cases list : s.toList with
  | nil => simp [list] at plain
  | cons c rest =>
    rw [list, Name.startsPlain_cons] at plain
    exact (startsPlain_upperChar plain).append _

end Unicode

namespace Name

variable {cs : List Char}

theorem head_splitAcronyms : (splitAcronyms cs).head? = cs.head? := by
  cases cs with
  | nil => rw [splitAcronyms]
  | cons c rest =>
    rw [splitAcronyms]
    split
    · cases run : rest.takeWhile isCapital with
      | nil => rfl
      | cons d run =>
        rw [splitRun]
        split <;> rfl
    · rfl

theorem head_splitWords : (splitWords cs).head? = cs.head? := by
  fun_cases splitWords cs <;> rfl

theorem head_squeezeUnderscores : (squeezeUnderscores cs).head? = cs.head? := by
  fun_induction squeezeUnderscores cs with
  | case1 rest ih => rw [ih]; rfl
  | case2 => rfl
  | case3 => rfl

theorem startsPlain_snakeCase {s : String} :
    StartsPlain (snakeCase s).toList ↔ StartsPlain s.toList := by
  rw [snakeCase, Unicode.lower, String.toList_ofList, String.toList_ofList,
    Unicode.startsPlain_lowerFrom, StartsPlain, StartsPlain, head_squeezeUnderscores, head_splitWords,
    head_splitAcronyms]

def Spaced (c d : Char) : Prop := ¬ (c = '_' ∧ d = '_')

theorem isChain_squeezeUnderscores : (squeezeUnderscores cs).IsChain Spaced := by
  fun_induction squeezeUnderscores cs with
  | case1 rest ih => exact ih
  | case2 c rest single ih =>
    refine List.isChain_cons.mpr ⟨fun d isNext => ?_, ih⟩
    rw [head_squeezeUnderscores] at isNext
    rintro ⟨rfl, rfl⟩
    obtain ⟨after, rfl⟩ := List.head?_eq_some_iff.mp isNext
    exact single after rfl rfl
  | case3 => exact .nil

theorem isChain_snakeCase {s : String} (word : IsWord s) : (snakeCase s).toList.IsChain Spaced := by
  rw [toList_snakeCase word]
  refine List.isChain_map_of_isChain _ (fun c d spaced => ?_) isChain_squeezeUnderscores
  rintro ⟨ofFirst, ofSecond⟩
  have first : c = '_' := by_contra fun other => toLower_ne_underscore other ofFirst
  have second : d = '_' := by_contra fun other => toLower_ne_underscore other ofSecond
  exact spaced ⟨first, second⟩

end Name

end ProtoBindings
