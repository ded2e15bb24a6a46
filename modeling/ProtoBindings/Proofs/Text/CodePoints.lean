import ProtoBindings.Text.CodePoints

namespace ProtoBindings.Text

theorem isHalf_iff {code : Nat} : isHalf code = true ↔ 0xD800 ≤ code ∧ code < 0xE000 := by
  simp only [isHalf, isHighHalf, isLowHalf, Bool.or_eq_true, Bool.and_eq_true, decide_eq_true_eq]
  omega

theorem isHalf_toNat (c : Char) : isHalf c.toNat = false := by
  rw [Bool.eq_false_iff, Ne, isHalf_iff]
  rcases c.valid with low | high
  · exact fun half => absurd low (Nat.not_lt.mpr half.1)
  · exact fun half => absurd high.1 (Nat.not_lt.mpr (Nat.le_of_lt_succ half.2))

namespace CodePoints

variable {cs front back : List Char} {c : Char}

theorem chars_map_toNat (cs : List Char) : chars (cs.map Char.toNat) = cs := by
  have each : (fun code => if isHalf code then '\uFFFD' else Char.ofNat code) ∘ Char.toNat = id := by
    funext c
    simp [isHalf_toNat]
  rw [chars, List.map_map, each, List.map_id]

theorem toText_ofText (s : String) : (ofText s).toText = s := by
  rw [toText, ofText, chars_map_toNat, String.ofList_toList]

theorem hasHalf_ofText (s : String) : (ofText s).hasHalf = false := by
  rw [hasHalf, ofText, List.any_map, List.any_eq_false]
  exact fun c _ => Bool.not_eq_true _ ▸ isHalf_toNat c

theorem has_map_toNat : has c (cs.map Char.toNat) = true ↔ c ∈ cs := by
  rw [has, List.contains_iff_mem, List.mem_map]
  exact ⟨fun ⟨d, member, same⟩ => Char.toNat_inj.mp same ▸ member, fun member => ⟨c, member, rfl⟩⟩

theorem cut_map_toNat (absent : c ∉ front) : cut c ((front ++ c :: back).map Char.toNat) =
    (front.map Char.toNat, back.map Char.toNat) := by
  have others (code : Nat) (member : code ∈ front.map Char.toNat) : decide (code ≠ c.toNat) = true := by
    obtain ⟨d, isIn, rfl⟩ := List.mem_map.mp member
    exact decide_eq_true fun same => absent (Char.toNat_inj.mp same ▸ isIn)
  rw [cut, List.map_append, List.map_cons, List.takeWhile_append_of_pos others,
    List.dropWhile_append_of_pos others]
  simp

end CodePoints

end ProtoBindings.Text
