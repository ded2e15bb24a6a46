import Mathlib.Data.List.TakeWhile
import ProtoBindings.Proofs.Name.Percent
import ProtoBindings.Proofs.Text.Pattern
import ProtoBindings.Template

namespace ProtoBindings

open Text (Pattern Substituted)

namespace Template

variable {v before after name : String} {t : Template}

/-- The text of a template, with the mark of its hole. -/
def text : Template → String
  | constant text => text
  | around before after => before ++ "%s" ++ after

/-- The hole has the only percent sign. -/
def Sound : Template → Prop
  | constant text => PercentFree text
  | around before after => PercentFree before ∧ PercentFree after

section Acceptance

theorem ofText_of_free (free : PercentFree v) : ofText v = .ok (constant v) := by
  have none : v.toList.dropWhile (· ≠ '%') = [] :=
    List.dropWhile_eq_nil_iff.mpr fun _ member => decide_eq_true fun same => free (same ▸ member)
  rw [ofText, none]

/-- What comes of a text depends on what stands behind its first percent sign. -/
theorem ofText_of_split (free : PercentFree before) (rest : String) :
    ofText (before ++ "%" ++ rest) =
      if PercentFree rest then
        match rest.toList with
        | 's' :: after => .ok (around before (String.ofList after))
        | _ => .error (.otherPercent (before ++ "%" ++ rest))
      else .error (.severalHoles (before ++ "%" ++ rest)) := by
  have pass : ∀ c ∈ before.toList, decide (c ≠ '%') = true := fun c member =>
    decide_eq_true fun same => free (same ▸ member)
  have split : (before ++ "%" ++ rest).toList = before.toList ++ '%' :: rest.toList := by simp
  have front : (before ++ "%" ++ rest).toList.takeWhile (· ≠ '%') = before.toList := by
    rw [split, List.takeWhile_append_of_pos pass]
    simp
  have back : (before ++ "%" ++ rest).toList.dropWhile (· ≠ '%') = '%' :: rest.toList := by
    rw [split, List.dropWhile_append_of_pos pass]
    simp
  rw [ofText, front, back, String.ofList_toList]
  by_cases again : '%' ∈ rest.toList
  · exact (if_pos (List.contains_iff_mem.mpr again)).trans (if_neg (not_not.mpr again)).symm
  · exact (if_neg (mt List.contains_iff_mem.mp again)).trans (if_pos again).symm

theorem free_or_split (v : String) :
    PercentFree v ∨ ∃ before rest, PercentFree before ∧ v = before ++ "%" ++ rest := by
  by_cases percent : '%' ∈ v.toList
  · obtain ⟨before, rest, split, free⟩ := List.eq_append_cons_of_mem percent
    have whole : v = String.ofList before ++ "%" ++ String.ofList rest := by
      rw [← String.toList_inj, split]
      simp
    exact .inr ⟨_, _, by simpa [PercentFree] using free, whole⟩
  · exact .inl percent

theorem text_around (before after : String) :
    (around before after).text = before ++ "%" ++ ("s" ++ after) := by
  rw [text, ← String.toList_inj]
  simp

theorem split_inj {before' rest rest' : String} (free : PercentFree before) (single : PercentFree rest) :
    before ++ "%" ++ rest = before' ++ "%" ++ rest' ↔ before = before' ∧ rest = rest' := by
  rw [← String.toList_inj, ← String.toList_inj, ← String.toList_inj]
  have inj : before.toList ++ '%' :: rest.toList = before'.toList ++ '%' :: rest'.toList ↔ _ :=
    List.append_cons_inj_of_notMem free single
  simpa using inj

theorem percentFree_mark : PercentFree ("s" ++ after) ↔ PercentFree after := by
  rw [percentFree_append]
  exact and_iff_right (by decide)

/-- Reading a template from its text gives the template back, and nothing else is read. -/
theorem ofText_eq_ok : ofText v = .ok t ↔ t.text = v ∧ t.Sound := by
  constructor
  · intro read
    rcases free_or_split v with free | ⟨before, rest, free, rfl⟩
    · rw [ofText_of_free free] at read
      cases read
      exact ⟨rfl, free⟩
    · rw [ofText_of_split free] at read
      split at read
      · rename_i single
        split at read
        · rename_i after marked
          cases read
          have same : rest = "s" ++ String.ofList after := by
            rw [← String.toList_inj, marked]
            simp
          rw [same, percentFree_mark] at single
          exact ⟨by rw [text_around, same], free, single⟩
        · cases read
      · cases read
  · rintro ⟨rfl, sound⟩
    cases t with
    | constant text => exact ofText_of_free sound
    | around before after =>
      rw [text_around, ofText_of_split sound.1, if_pos (percentFree_mark.mpr sound.2)]
      simp

theorem Sound.eq_constant (sound : t.Sound) (free : PercentFree t.text) : t = constant t.text := by
  cases t with
  | constant text => rfl
  | around before after =>
    rw [text, percentFree_append, percentFree_append] at free
    exact absurd free.1.2 (by decide)

theorem Sound.eq_around (sound : t.Sound) (same : t.text = before ++ "%s" ++ after) :
    t = around before after := by
  cases t with
  | constant text =>
    rw [Sound, show text = before ++ "%s" ++ after from same, percentFree_append,
      percentFree_append] at sound
    exact absurd sound.1.2 (by decide)
  | around before' after' =>
    have whole : (around before' after').text = (around before after).text := same
    rw [text_around, text_around, split_inj sound.1 (percentFree_mark.mpr sound.2)] at whole
    rw [whole.1, (String.append_right_inj _).mp whole.2]

theorem text_call (name ending : String) :
    (around (name ++ "(") ending).text = name ++ ("(%s" ++ ending) := by
  simp [text, String.append_assoc]

theorem ofText_call (free : PercentFree name) :
    ofText (name ++ "(%s)") = .ok (around (name ++ "(") ")") :=
  ofText_eq_ok.mpr ⟨text_call name ")", percentFree_append.mpr ⟨free, by decide⟩, by decide⟩

theorem ofText_call_iff : (∃ t, ofText (name ++ "(%s)") = .ok t) ↔ PercentFree name := by
  constructor
  · rintro ⟨t, read⟩
    obtain ⟨same, sound⟩ := ofText_eq_ok.mp read
    rw [sound.eq_around (same.trans (text_call name ")").symm)] at sound
    exact (percentFree_append.mp sound.1).1
  · exact fun free => ⟨_, ofText_call free⟩

theorem marked_iff {rest : String} (free : PercentFree before) (single : PercentFree rest) :
    ['%', 's'] <:+: (before ++ "%" ++ rest).toList ↔ ∃ after, rest.toList = 's' :: after := by
  constructor
  · rintro ⟨front, back, same⟩
    have whole : before ++ "%" ++ rest = String.ofList front ++ "%" ++ String.ofList ('s' :: back) := by
      rw [← String.toList_inj, ← same]
      simp
    rw [split_inj free single] at whole
    exact ⟨back, by rw [whole.2, String.toList_ofList]⟩
  · rintro ⟨after, marked⟩
    exact ⟨before.toList, after, by simp [marked]⟩

theorem ofText_eq_error {e : Error} : ofText v = .error e ↔
    1 < v.toList.count '%' ∧ e = .severalHoles v ∨
      v.toList.count '%' = 1 ∧ ¬ ['%', 's'] <:+: v.toList ∧ e = .otherPercent v := by
  rcases free_or_split v with free | ⟨before, rest, free, rfl⟩
  · rw [ofText_of_free free, List.count_eq_zero.mpr free]
    simp
  · have count : (before ++ "%" ++ rest).toList.count '%' = rest.toList.count '%' + 1 := by
      simp [List.count_eq_zero.mpr free, Nat.add_comm]
    rw [ofText_of_split free, count]
    by_cases single : PercentFree rest
    · rw [if_pos single, List.count_eq_zero.mpr single, marked_iff free single]
      split
      · rename_i marked
        simp [marked]
      · rename_i other
        simpa [eq_comm] using fun _ after => other after
    · have several : rest.toList.count '%' ≠ 0 := fun none => single (List.count_eq_zero.mp none)
      rw [if_neg single]
      simp [several, Nat.pos_of_ne_zero several, eq_comm]

end Acceptance

section Rendering

def hole : Pattern Unit := .exactly ['%', 's']

theorem hole_eq_nil {cs : List Char} (other : cs.head? ≠ some '%') : hole cs = [] := by
  refine List.eq_nil_iff_forall_not_mem.mpr ?_
  rintro ⟨u, rest⟩ member
  rw [hole, Pattern.mem_exactly] at member
  simp [member] at other

/-- Rendering replaces each mark in the text of the template, and nothing in the expression. -/
theorem render_substituted (read : ofText v = .ok t) (e : String) :
    Substituted hole (fun _ => e.toList) v.toList (t.render e).toList := by
  obtain ⟨rfl, sound⟩ := ofText_eq_ok.mp read
  have passed {s : String} (free : PercentFree s) {rest out : List Char}
      (later : Substituted hole (fun _ => e.toList) rest out) :
      Substituted hole (fun _ => e.toList) (s.toList ++ rest) (s.toList ++ out) := by
    refine Substituted.passed_run (fun suffix nonempty isSuffix => hole_eq_nil ?_) later
    obtain ⟨c, suffix, rfl⟩ := List.exists_cons_of_ne_nil nonempty
    rintro ⟨⟩
    exact free (isSuffix.subset List.mem_cons_self)
  cases t with
  | constant text =>
    have whole := passed sound .done
    rwa [List.append_nil] at whole
  | around before after =>
    have found : (hole ('%' :: 's' :: after.toList)).head? = some ((), after.toList) := by
      simp [hole, Pattern.exactly]
    have behind := passed sound.2 .done
    rw [List.append_nil] at behind
    have whole := passed sound.1 (.found found behind)
    simpa [render, text] using whole

end Rendering

section Calling

structure IsDotted (name : String) : Prop where
  nonempty : name ≠ ""
  characters : ∀ c ∈ name.toList, c = '.' ∨ Unicode.isWordChar c = true

theorem isDottedWord_iff : isDottedWord name.toList = true ↔ IsDotted name := by
  simp only [isDottedWord, Bool.and_eq_true, Bool.not_eq_true', List.isEmpty_eq_false_iff, ne_eq,
    String.toList_eq_nil_iff, List.all_eq_true, Bool.or_eq_true, decide_eq_true_eq]
  exact ⟨fun ⟨nonempty, characters⟩ => ⟨nonempty, characters⟩,
    fun dotted => ⟨dotted.nonempty, dotted.characters⟩⟩

theorem endsWith_iff : before.endsWith "(" = true ↔ ∃ name, before = name ++ "(" := by
  rw [← String.endsWith_toSlice, String.Slice.endsWith_string_iff, String.copy_toSlice]
  constructor
  · rintro ⟨name, same⟩
    refine ⟨String.ofList name, String.toList_inj.mp ?_⟩
    simpa using same.symm
  · rintro ⟨name, rfl⟩
    exact ⟨name.toList, by simp⟩

theorem callee?_around : (around before after).callee? = some name ↔
    IsDotted name ∧ before = name ++ "(" ∧ (after = ")" ∨ after = ")\n") := by
  have bare (name : String) : (name ++ "(").toList.dropLast = name.toList := by simp
  rw [callee?]
  constructor
  · intro found
    split at found
    · rename_i calls
      obtain ⟨opens, dotted, ends⟩ := calls
      obtain ⟨name, rfl⟩ := endsWith_iff.mp opens
      rw [bare] at dotted found
      cases found
      rw [String.ofList_toList]
      exact ⟨isDottedWord_iff.mp dotted, rfl, ends⟩
    · cases found
  · rintro ⟨dotted, rfl, ends⟩
    have opens := endsWith_iff.mpr ⟨name, rfl⟩
    rw [bare, if_pos ⟨opens, isDottedWord_iff.mpr dotted, ends⟩, String.ofList_toList]

theorem callee?_eq_some (sound : t.Sound) : t.callee? = some name ↔
    IsDotted name ∧ (t.text = name ++ "(%s)" ∨ t.text = name ++ "(%s)\n") := by
  constructor
  · intro found
    cases t with
    | constant text => cases found
    | around before after =>
      obtain ⟨dotted, rfl, rfl | rfl⟩ := callee?_around.mp found
      · exact ⟨dotted, .inl (text_call name ")")⟩
      · exact ⟨dotted, .inr (text_call name ")\n")⟩
  · rintro ⟨dotted, same | same⟩
    · rw [sound.eq_around (same.trans (text_call name ")").symm)]
      exact callee?_around.mpr ⟨dotted, rfl, .inl rfl⟩
    · rw [sound.eq_around (same.trans (text_call name ")\n").symm)]
      exact callee?_around.mpr ⟨dotted, rfl, .inr rfl⟩

def calling : Pattern (List Char × Unit × Unit) :=
  .andThen (.many fun c => c = '.' || Unicode.isWordChar c)
    (.andThen (.exactly ['(', '%', 's', ')']) .ending)

theorem mem_calling {cs run rest : List Char} {u : Unit × Unit} : ((run, u), rest) ∈ calling cs ↔
    IsDotted (String.ofList run) ∧ (rest = [] ∨ rest = ['\n']) ∧
      cs = run ++ (['(', '%', 's', ')'] ++ rest) := by
  obtain ⟨⟨⟩, ⟨⟩⟩ := u
  have dotted : IsDotted (String.ofList run) ↔
      run ≠ [] ∧ ∀ c ∈ run, (c = '.' || Unicode.isWordChar c) = true := by
    rw [← isDottedWord_iff, String.toList_ofList]
    simp [isDottedWord]
  rw [calling, Pattern.mem_andThen, dotted]
  constructor
  · rintro ⟨left, found, found'⟩
    obtain ⟨nonempty, each, rfl⟩ := Pattern.mem_many.mp found
    obtain ⟨left', ofCall, ofEnding⟩ := Pattern.mem_andThen.mp found'
    obtain ⟨ends, rfl⟩ := Pattern.mem_ending.mp ofEnding
    exact ⟨⟨nonempty, each⟩, ends, by rw [Pattern.mem_exactly.mp ofCall]⟩
  · rintro ⟨⟨nonempty, each⟩, ends, rfl⟩
    refine ⟨_, Pattern.mem_many.mpr ⟨nonempty, each, rfl⟩, Pattern.mem_andThen.mpr ?_⟩
    exact ⟨rest, Pattern.mem_exactly.mpr rfl, Pattern.mem_ending.mpr ⟨ends, rfl⟩⟩

theorem callee?_eq_some_iff_match (sound : t.Sound) :
    t.callee? = some name ↔ ∃ way ∈ calling t.text.toList, String.ofList way.1.1 = name := by
  rw [callee?_eq_some sound]
  constructor
  · rintro ⟨dotted, same⟩
    have found (rest : List Char) (ends : rest = [] ∨ rest = ['\n'])
        (whole : t.text.toList = name.toList ++ (['(', '%', 's', ')'] ++ rest)) :
        ∃ way ∈ calling t.text.toList, String.ofList way.1.1 = name := by
      refine ⟨((name.toList, (), ()), rest), mem_calling.mpr ⟨?_, ends, whole⟩, String.ofList_toList⟩
      rwa [String.ofList_toList]
    rcases same with same | same
    · exact found [] (.inl rfl) (by simp [same])
    · exact found ['\n'] (.inr rfl) (by simp [same])
  · rintro ⟨⟨⟨run, u⟩, rest⟩, member, rfl⟩
    obtain ⟨dotted, ends, whole⟩ := mem_calling.mp member
    refine ⟨dotted, ends.imp ?_ ?_⟩
    · rintro rfl
      exact String.toList_inj.mp (by simp [whole])
    · rintro rfl
      exact String.toList_inj.mp (by simp [whole])

theorem callee?_eq_match (read : ofText v = .ok t) :
    t.callee? = (calling v.toList).head?.map fun way => String.ofList way.1.1 := by
  obtain ⟨rfl, sound⟩ := ofText_eq_ok.mp read
  cases ways : calling t.text.toList with
  | nil =>
    refine Option.eq_none_iff_forall_ne_some.mpr fun name found => ?_
    obtain ⟨way, member, _⟩ := (callee?_eq_some_iff_match sound).mp found
    simp [ways] at member
  | cons way others =>
    exact (callee?_eq_some_iff_match sound).mpr ⟨way, by simp [ways], rfl⟩

/-- Without a line feed at its end, the text of a template with a callable name is the call of it. -/
theorem callable_cases (sound : t.Sound) (oneLine : '\n' ∉ t.text.toList) :
    (∃ name, IsDotted name ∧ t.text = name ++ "(%s)" ∧ t.callable = name) ∨
      (∀ name, IsDotted name → t.text ≠ name ++ "(%s)") ∧
        t.callable = "lambda value: " ++ t.render "value" := by
  cases callee : t.callee? with
  | some name =>
    obtain ⟨dotted, same | same⟩ := (callee?_eq_some sound).mp callee
    · exact .inl ⟨name, dotted, same, by rw [callable, callee]⟩
    · simp [same] at oneLine
  | none =>
    refine .inr ⟨fun name dotted same => ?_, by rw [callable, callee]⟩
    have found := (callee?_eq_some sound).mpr ⟨dotted, .inl same⟩
    rw [callee] at found
    cases found

theorem render_call (sound : t.Sound) (same : t.text = name ++ "(%s)") (e : String) :
    t.render e = name ++ "(" ++ e ++ ")" := by
  rw [sound.eq_around (same.trans (text_call name ")").symm), render]

end Calling

/-- The texts that are templates, and why others are none; what one makes of an expression, which may hold
    a mark itself; and its callable form, a name exactly if the text is the call of that name on the hole.
    Rendering replaces the marks of the text, and the name is what a pattern finds in it. -/
theorem views_agree (v : String) :
    ((∃ t, ofText v = .ok t) ↔
      PercentFree v ∨ ∃ p q, PercentFree p ∧ PercentFree q ∧ v = p ++ "%s" ++ q) ∧
    (∀ error, ofText v = .error error ↔
      1 < v.toList.count '%' ∧ error = .severalHoles v ∨
        v.toList.count '%' = 1 ∧ ¬ ['%', 's'] <:+: v.toList ∧ error = .otherPercent v) ∧
    ∀ t, ofText v = .ok t →
      (∀ e, Substituted hole (fun _ => e.toList) v.toList (t.render e).toList) ∧
      (PercentFree v → ∀ e, t.render e = v) ∧
      (∀ p q, v = p ++ "%s" ++ q → ∀ e, t.render e = p ++ e ++ q) ∧
      t.callee? = (calling v.toList).head?.map (fun way => String.ofList way.1.1) ∧
      ('\n' ∉ v.toList →
        (∃ name, IsDotted name ∧ v = name ++ "(%s)" ∧ t.callable = name ∧
          ∀ e, name ++ "(" ++ e ++ ")" = t.render e) ∨
        (∀ name, IsDotted name → v ≠ name ++ "(%s)") ∧
          t.callable = "lambda value: " ++ t.render "value") := by
  refine ⟨?_, fun _ => ofText_eq_error, ?_⟩
  · constructor
    · rintro ⟨t, read⟩
      obtain ⟨rfl, sound⟩ := ofText_eq_ok.mp read
      cases t with
      | constant text => exact .inl sound
      | around before after => exact .inr ⟨before, after, sound.1, sound.2, rfl⟩
    · rintro (free | ⟨p, q, before, after, rfl⟩)
      · exact ⟨_, ofText_of_free free⟩
      · exact ⟨around p q, ofText_eq_ok.mpr ⟨rfl, before, after⟩⟩
  · intro t read
    obtain ⟨rfl, sound⟩ := ofText_eq_ok.mp read
    refine ⟨render_substituted read, fun free e => ?_, fun p q same e => ?_, callee?_eq_match read,
      fun oneLine => ?_⟩
    · rw [sound.eq_constant free]
      rfl
    · rw [sound.eq_around same]
      rfl
    · refine (callable_cases sound oneLine).imp_left ?_
      rintro ⟨name, dotted, same, called⟩
      exact ⟨name, dotted, same, called, fun e => (render_call sound same e).symm⟩

theorem wirePack_views : ∃ t, ofText "wire.pack(%s)" = .ok t ∧
    t.render "%s" = "wire.pack(%s)" ∧ t.callable = "wire.pack" := by
  obtain ⟨accepted, _, views⟩ := views_agree "wire.pack(%s)"
  obtain ⟨t, read⟩ := accepted.mpr (.inr ⟨"wire.pack(", ")", by decide, by decide, by decide⟩)
  obtain ⟨_, _, rendered, _, called⟩ := views t read
  refine ⟨t, read, rendered "wire.pack(" ")" (by decide) "%s", ?_⟩
  rcases called (by decide) with ⟨name, _, whole, callable, _⟩ | ⟨none, _⟩
  · have same : name ++ "(%s)" = "wire.pack" ++ "(%s)" := whole.symm
    rw [callable, (String.append_left_inj _).mp same]
  · exact absurd rfl (none "wire.pack" (isDottedWord_iff.mp (by decide +kernel)))

end Template

end ProtoBindings
