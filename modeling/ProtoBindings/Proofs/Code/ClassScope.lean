import Mathlib.Data.List.Nodup
import ProtoBindings.Proofs.Code.Paths

namespace ProtoBindings.Code

/-- What a name inside a class stands for: names that start with two underscores are private to it. -/
def nameInClass (className name : String) : String :=
  let owner := className.toList.dropWhile (· == '_')
  if ['_', '_'] <+: name.toList ∧ ¬ ['_', '_'] <:+ name.toList ∧ owner ≠ [] then
    "_" ++ String.ofList owner ++ name
  else name

def inClass (className : String) (paths : List Path) : List Path :=
  paths.map (·.map (nameInClass className))

def Shown (id : String) : Prop := ¬ ['_', '_'] <+: id.toList

instance (id : String) : Decidable (Shown id) := inferInstanceAs (Decidable (¬ _ <+: _))

def isWrapped (width : Nat) (cs : List Char) : Bool :=
  (cs.takeWhile (· == '_')).length == width && (cs.reverse.takeWhile (· == '_')).length == width &&
    2 * width < cs.length

/-- Whether an enum class with this name in its body has a member of that name. It refuses `mro`, keeps
    names between one or two underscores for itself, and takes those that are private to it for plain
    attributes. -/
def isMemberName (className name : String) : Bool :=
  let ofPrivate := ("_" ++ className ++ "__").toList
  nameInClass className name == name && name != "" && name != "mro" &&
    !isWrapped 1 name.toList && !isWrapped 2 name.toList &&
    !(ofPrivate.isPrefixOf name.toList && ofPrivate != name.toList &&
      !(['_', '_'].isSuffixOf name.toList))

variable {className : String}

theorem nameInClass_of_shown {id : String} (shown : Shown id) : nameInClass className id = id := by
  rw [nameInClass, if_neg fun isPrivate => shown isPrivate.1]

theorem nameInClass_of_private {id : String} (isPrivate : nameInClass className id ≠ id) :
    nameInClass className id =
      "_" ++ String.ofList (className.toList.dropWhile (· == '_')) ++ id ∧
    Shown (nameInClass className id) := by
  have isOwned : ['_', '_'] <+: id.toList ∧ ¬ ['_', '_'] <:+ id.toList ∧
      className.toList.dropWhile (· == '_') ≠ [] := by
    by_contra plain
    exact isPrivate (if_neg plain)
  have owned : nameInClass className id =
      "_" ++ String.ofList (className.toList.dropWhile (· == '_')) ++ id := if_pos isOwned
  refine ⟨owned, fun isPrefix => ?_⟩
  have plain := List.head_dropWhile_not (· == '_') isOwned.2.2
  obtain ⟨c, rest, owner⟩ := List.exists_cons_of_ne_nil isOwned.2.2
  simp only [owner, List.head_cons, beq_eq_false_iff_ne] at plain
  rw [owned, owner] at isPrefix
  simp [plain.symm] at isPrefix

theorem nameInClass_nameInClass (id : String) :
    nameInClass className (nameInClass className id) = nameInClass className id := by
  by_cases same : nameInClass className id = id
  · rw [same, same]
  · exact nameInClass_of_shown (nameInClass_of_private same).2

/-- Names are told apart inside a class unless one is what a private one becomes there. -/
theorem nodup_map_nameInClass_iff {names : List String} : (names.map (nameInClass className)).Nodup ↔
    names.Nodup ∧ ∀ id ∈ names, nameInClass className id ∈ names → nameInClass className id = id := by
  constructor
  · intro distinct
    refine ⟨List.Nodup.of_map _ distinct, fun id isName becomes => ?_⟩
    exact List.inj_on_of_nodup_map distinct becomes isName (nameInClass_nameInClass id)
  · rintro ⟨distinct, apart⟩
    refine List.Nodup.map_on (fun first isFirst second isSecond same => ?_) distinct
    by_cases ofFirst : nameInClass className first = first
    · have isMade : nameInClass className second = first := same.symm.trans ofFirst
      rw [← isMade]
      exact apart second isSecond (isMade ▸ isFirst)
    · by_cases ofSecond : nameInClass className second = second
      · have isMade : nameInClass className first = second := same.trans ofSecond
        rw [← isMade]
        exact (apart first isFirst (isMade ▸ isSecond)).symm
      · rw [(nameInClass_of_private ofFirst).1, (nameInClass_of_private ofSecond).1] at same
        exact (String.append_right_inj _).mp same

theorem inClass_eq {paths : List Path} (shown : ∀ p ∈ paths, ∀ id ∈ p, Shown id) :
    inClass className paths = paths := by
  have same : ∀ p ∈ paths, p.map (nameInClass className) = p := fun p member =>
    (List.map_congr_left fun id isId => nameInClass_of_shown (shown p member id isId)).trans
      (List.map_id p)
  exact (List.map_congr_left same).trans (List.map_id paths)

end ProtoBindings.Code
