import ProtoBindings.Plugin.Parameter
import ProtoBindings.Proofs.Name.Path
import ProtoBindings.Proofs.Result
import ProtoBindings.Proofs.Text.Trim

namespace ProtoBindings.Plugin

open Text (IsBlank IsTrimmed cut trim)

section Written

/-- A key with a value that can be written as an item. -/
structure IsPair (key value : String) : Prop where
  nonempty : key ≠ ""
  trimmedKey : IsTrimmed key
  trimmedValue : IsTrimmed value
  keyCommas : ',' ∉ key.toList
  keyEquals : '=' ∉ key.toList
  valueCommas : ',' ∉ value.toList

/-- The ways to write a pair: with an equals sign, or as the bare key where the value is empty. -/
inductive Writes (key value : String) : String → Prop
  | bare {before after : String} : value = "" → IsBlank before → IsBlank after →
      Writes key value (before ++ key ++ after)
  | pair {before between between' after : String} : IsBlank before → IsBlank between →
      IsBlank between' → IsBlank after →
      Writes key value (before ++ key ++ between ++ "=" ++ (between' ++ value ++ after))

/-- Items that hold pairs, in their order, among blank ones. -/
inductive Written : Options → List String → Prop
  | nil : Written [] []
  | blank {pairs : Options} {item : String} {items : List String} : IsBlank item →
      Written pairs items → Written pairs (item :: items)
  | pair {key value : String} {pairs : Options} {item : String} {items : List String} :
      Writes key value item → Written pairs items → Written ((key, value) :: pairs) (item :: items)

/-- Each key of the pairs once, in the order in which they first come, with the value that comes last. -/
structure Latest (pairs options : Options) : Prop where
  keys : options.map (·.1) = (pairs.map (·.1)).eraseDups
  values : ∀ key, options.get? key = Options.get? key pairs.reverse

def LacksKey (item : String) : Prop := ¬ IsBlank item ∧ IsBlank (cut '=' item).1

instance : DecidablePred LacksKey := fun item => inferInstanceAs (Decidable (¬ IsBlank item ∧ _))

end Written

section Options

variable {key value : String} {options pairs : Options}

theorem Options.keys_insert : (options.insert key value).map (·.1) =
    if key ∈ options.map (·.1) then options.map (·.1) else options.map (·.1) ++ [key] := by
  induction options with
  | nil => rfl
  | cons option rest ih =>
    rw [Options.insert]
    by_cases same : option.1 = key
    · simp [same]
    · rw [if_neg same, List.map_cons, ih]
      by_cases later : key ∈ rest.map (·.1)
      · simp [later]
      · simp [later, Ne.symm same]

theorem Options.get?_cons (option : String × String) (other : String) :
    Options.get? other (option :: options) =
      if other = option.1 then some option.2 else options.get? other := by
  rw [Options.get?, List.lookup_cons]
  by_cases same : other = option.1
  · simp [same]
  · rw [if_neg same, beq_false_of_ne same]
    rfl

theorem Options.get?_insert (other : String) : (options.insert key value).get? other =
    if other = key then some value else options.get? other := by
  induction options with
  | nil => exact Options.get?_cons (key, value) other
  | cons option rest ih =>
    rw [Options.insert, Options.get?_cons]
    by_cases here : option.1 = key
    · rw [if_pos here, Options.get?_cons, here]
      by_cases same : other = key <;> simp [same]
    · rw [if_neg here, Options.get?_cons, ih]
      by_cases first : other = option.1
      · simp [first, here]
      · simp [first]

theorem latest_inserted (pairs : Options) :
    Latest pairs (pairs.foldl (fun options pair => options.insert pair.1 pair.2) []) := by
  induction pairs using List.reverseRecOn with
  | nil => exact ⟨rfl, fun key => rfl⟩
  | append_singleton pairs pair ih =>
    rw [List.foldl_append, List.foldl_cons, List.foldl_nil]
    constructor
    · have known : pair.1 ∈ (pairs.map (·.1)).eraseDups ↔ pair.1 ∈ pairs.map (·.1) :=
        List.mem_eraseDups
      simp only [Options.keys_insert, ih.keys, known, List.map_append, List.map_cons, List.map_nil,
        List.eraseDups_concat]
    · intro key
      rw [Options.get?_insert, ih.values, List.reverse_append, List.reverse_singleton,
        List.singleton_append, Options.get?_cons]

end Options

section Items

variable {key value text item : String} {pairs options : Options} {items : List String}

theorem isBlank_cut (blank : IsBlank text) : IsBlank (cut '=' text).1 := by
  intro c member
  rw [cut, String.toList_ofList] at member
  exact blank c ((List.takeWhile_sublist _).subset member)

theorem ofText_eq (text : String) : Item.ofText text =
    if IsBlank text then .blank
    else if IsBlank (cut '=' text).1 then .malformed (trim text)
    else .option (trim (cut '=' text).1) (trim (cut '=' text).2) := by
  have solid : Unicode.isBlank '=' = false := by decide
  obtain ⟨ofKey, ofValue⟩ := Text.trim_cut_trim solid text
  rw [Item.ofText]
  simp only [ofKey, ofValue, Text.trim_eq_empty]

theorem ofText_eq_option (nonempty : key ≠ "") (ofKey : trim (cut '=' text).1 = key)
    (ofValue : trim (cut '=' text).2 = value) : Item.ofText text = .option key value := by
  have hasKey : ¬ IsBlank (cut '=' text).1 := fun blank =>
    nonempty (ofKey.symm.trans (Text.trim_eq_empty.mpr blank))
  rw [ofText_eq, if_neg fun blank => hasKey (isBlank_cut blank), if_neg hasKey, ofKey, ofValue]

theorem not_mem_of_isBlank {c : Char} (solid : Unicode.isBlank c = false) (blank : IsBlank text) :
    c ∉ text.toList := by
  intro member
  rw [blank c member] at solid
  cases solid

theorem Writes.ofText_eq (isPair : IsPair key value) (writes : Writes key value text) :
    Item.ofText text = .option key value := by
  have noEquals {text : String} : IsBlank text → '=' ∉ text.toList := not_mem_of_isBlank (by decide)
  cases writes with
  | @bare before after empty blank blank' =>
    have absent : '=' ∉ (before ++ key ++ after).toList := by
      simp [noEquals blank, noEquals blank', isPair.keyEquals]
    have parts := Text.cut_of_not_mem absent
    refine ofText_eq_option isPair.nonempty ?_ ?_
    · rw [parts, Text.trim_padded blank blank', isPair.trimmedKey.trim_eq]
    · rw [parts, empty]
      rfl
  | @pair before between between' after blank blank' blank'' blank''' =>
    have absent : '=' ∉ (before ++ key ++ between).toList := by
      simp [noEquals blank, noEquals blank', isPair.keyEquals]
    have parts : cut '=' (before ++ key ++ between ++ "=" ++ (between' ++ value ++ after)) =
        (before ++ key ++ between, between' ++ value ++ after) := Text.cut_append absent
    refine ofText_eq_option isPair.nonempty ?_ ?_
    · rw [parts, Text.trim_padded blank blank', isPair.trimmedKey.trim_eq]
    · rw [parts, Text.trim_padded blank'' blank''', isPair.trimmedValue.trim_eq]

theorem Writes.comma_not_mem (isPair : IsPair key value) (writes : Writes key value text) :
    ',' ∉ text.toList := by
  have noComma {text : String} : IsBlank text → ',' ∉ text.toList := not_mem_of_isBlank (by decide)
  cases writes with
  | bare _ blank blank' => simp [noComma blank, noComma blank', isPair.keyCommas]
  | pair blank blank' blank'' blank''' =>
    simp [noComma blank, noComma blank', noComma blank'', noComma blank''', isPair.keyCommas,
      isPair.valueCommas]

theorem Written.comma_not_mem (arePairs : ∀ pair ∈ pairs, IsPair pair.1 pair.2)
    (written : Written pairs items) : ∀ item ∈ items, ',' ∉ item.toList := by
  induction written with
  | nil => exact List.forall_mem_nil _
  | blank isBlank _ ih =>
    exact List.forall_mem_cons.mpr ⟨not_mem_of_isBlank (by decide) isBlank, ih arePairs⟩
  | pair writes _ ih =>
    rw [List.forall_mem_cons] at arePairs
    exact List.forall_mem_cons.mpr ⟨writes.comma_not_mem arePairs.1, ih arePairs.2⟩

theorem Written.collect_eq (arePairs : ∀ pair ∈ pairs, IsPair pair.1 pair.2)
    (written : Written pairs items) (options : Options) :
    collect options (items.map Item.ofText) =
      .ok (pairs.foldl (fun options pair => options.insert pair.1 pair.2) options) := by
  induction written generalizing options with
  | nil => rfl
  | blank isBlank _ ih =>
    rw [List.map_cons, ofText_eq, if_pos isBlank, collect, ih arePairs]
  | pair writes _ ih =>
    rw [List.forall_mem_cons] at arePairs
    rw [List.map_cons, writes.ofText_eq arePairs.1, collect, ih arePairs.2]
    rfl

theorem collect_eq_error : collect options (items.map Item.ofText) = .error text ↔
    ∃ item, items.find? (LacksKey ·) = some item ∧ trim item = text := by
  induction items generalizing options with
  | nil => simp [collect]
  | cons item rest ih =>
    rw [List.map_cons, ofText_eq, List.find?_cons]
    by_cases blank : IsBlank item
    · simp [blank, LacksKey, collect, ih]
    · by_cases lacks : IsBlank (cut '=' item).1
      · simp [blank, lacks, LacksKey, collect]
      · simp [blank, lacks, LacksKey, collect, ih]

end Items

/-- Pairs that are written as items between commas are read back: each key once, in the order in which they
    first come, with its last value. Only a parameter with an item that lacks its key is refused. -/
theorem parseParameter_written :
    (∀ pairs items, (∀ pair ∈ pairs, IsPair pair.1 pair.2) → Written pairs items →
      ∃ options, parseParameter (",".intercalate items) = .ok options ∧ Latest pairs options) ∧
    ∀ parameter, (∃ text, parseParameter parameter = .error text) ↔
      ∃ item ∈ Text.splitOn ',' parameter, LacksKey item := by
  constructor
  · intro pairs items arePairs written
    refine ⟨_, ?_, latest_inserted pairs⟩
    cases items with
    | nil =>
      cases written
      rfl
    | cons item items =>
      have split : Text.splitOn ',' (",".intercalate (item :: items)) = item :: items :=
        Text.splitOn_intercalate (written.comma_not_mem arePairs) (List.cons_ne_nil item items)
      rw [parseParameter, split, written.collect_eq arePairs]
  · intro parameter
    simp only [parseParameter, collect_eq_error]
    constructor
    · rintro ⟨text, item, found, _⟩
      exact ⟨item, List.mem_of_find?_eq_some found, by simpa using List.find?_some found⟩
    · rintro ⟨item, isItem, lacks⟩
      have some : ((Text.splitOn ',' parameter).find? (LacksKey ·)).isSome :=
        List.find?_isSome.mpr ⟨item, isItem, decide_eq_true lacks⟩
      obtain ⟨first, found⟩ := Option.isSome_iff_exists.mp some
      exact ⟨trim first, first, found, rfl⟩

theorem exclude_written : Written [("exclude", "a:b"), ("services", ""), ("exclude", "x=y")]
      [" exclude = a:b ", "", " services", "exclude=x=y\t"] ∧
    (∃ options, parseParameter " exclude = a:b ,, services,exclude=x=y\t" = .ok options ∧
      options.map (·.1) = ["exclude", "services"] ∧ options.get? "exclude" = some "x=y") ∧
    ∃ text, parseParameter "services, =x" = .error text := by
  have arePairs : ∀ pair ∈ [("exclude", "a:b"), ("services", ""), ("exclude", "x=y")],
      IsPair pair.1 pair.2 := by
    intro pair isPair
    simp only [List.mem_cons, List.not_mem_nil, or_false] at isPair
    rcases isPair with rfl | rfl | rfl <;> constructor <;> decide
  have empty : IsBlank "" := by decide
  have space : IsBlank " " := by decide
  have spaced : Writes "exclude" "a:b" (" " ++ "exclude" ++ " " ++ "=" ++ (" " ++ "a:b" ++ " ")) :=
    .pair space space space space
  have bare : Writes "services" "" (" " ++ "services" ++ "") := .bare rfl space empty
  have tab : Writes "exclude" "x=y" ("" ++ "exclude" ++ "" ++ "=" ++ ("" ++ "x=y" ++ "\t")) :=
    .pair empty empty empty (by decide)
  have written : Written [("exclude", "a:b"), ("services", ""), ("exclude", "x=y")]
      [" exclude = a:b ", "", " services", "exclude=x=y\t"] :=
    .pair spaced (.blank empty (.pair bare (.pair tab .nil)))
  obtain ⟨options, read, latest⟩ := parseParameter_written.1 _ _ arePairs written
  have lacks : LacksKey " =x" := by decide
  have refused := (parseParameter_written.2 "services, =x").mpr ⟨" =x", by decide, lacks⟩
  exact ⟨written, ⟨options, read, latest.keys, latest.values "exclude"⟩, refused⟩

end ProtoBindings.Plugin
