import Mathlib.Logic.Function.Iterate
import ProtoBindings.Calendar.Date

namespace ProtoBindings.Calendar

def monthLength (leap : Bool) (month : Nat) : Nat :=
  if month = 2 then if leap then 29 else 28
  else if month ∈ [4, 6, 9, 11] then 30 else 31

/-- A date of the calendar, in any year from the first on. -/
structure Date.Valid (d : Date) : Prop where
  year : 1 ≤ d.year
  month : 1 ≤ d.month ∧ d.month ≤ 12
  day : 1 ≤ d.day ∧ d.day ≤ monthLength (isLeap d.year) d.month

def Date.next (d : Date) : Date :=
  if d.day < monthLength (isLeap d.year) d.month then ⟨d.year, d.month, d.day + 1⟩
  else if d.month < 12 then ⟨d.year, d.month + 1, 1⟩
  else ⟨d.year + 1, 1, 1⟩

def Date.first : Date := ⟨1, 1, 1⟩

def yearLength (year : Nat) : Nat := if isLeap year then 366 else 365

section Month

variable {leap : Bool} {month : Nat}

theorem daysBeforeMonth_succ (leap : Bool) (lower : 1 ≤ month) (upper : month ≤ 12) :
    daysBeforeMonth leap (month + 1) = daysBeforeMonth leap month + monthLength leap month := by
  have each : ∀ leap, ∀ month < 12,
      daysBeforeMonth leap (month + 2) = daysBeforeMonth leap (month + 1) + monthLength leap (month + 1) := by
    decide
  obtain ⟨earlier, rfl⟩ := Nat.exists_eq_add_of_le' lower
  exact each leap earlier (by omega)

theorem monthLength_pos : 1 ≤ monthLength leap month := by
  unfold monthLength
  split
  · cases leap <;> decide
  · split <;> decide

theorem daysBeforeMonth_mono (leap : Bool) {m n : Nat} (lower : 1 ≤ m) (order : m ≤ n) (upper : n ≤ 13) :
    daysBeforeMonth leap m ≤ daysBeforeMonth leap n := by
  induction order with
  | refl => exact Nat.le_refl _
  | @step n later ih =>
    rw [Nat.succ_eq_add_one, daysBeforeMonth_succ leap (Nat.le_trans lower later) (Nat.le_of_succ_le_succ upper)]
    exact Nat.le_add_right_of_le (ih (Nat.le_of_succ_le upper))

theorem daysBeforeMonth_end {year : Nat} : daysBeforeMonth (isLeap year) 13 = yearLength year := by
  have each : ∀ leap, daysBeforeMonth leap 13 = if leap then 366 else 365 := by decide
  exact each (isLeap year)

theorem monthOf_spec {day : Nat} (inYear : day < daysBeforeMonth leap 13) :
    (1 ≤ monthOf leap day ∧ monthOf leap day ≤ 12) ∧
      daysBeforeMonth leap (monthOf leap day) ≤ day ∧
      day < daysBeforeMonth leap (monthOf leap day + 1) := by
  have each : ∀ leap, ∀ day < daysBeforeMonth leap 13,
      (1 ≤ monthOf leap day ∧ monthOf leap day ≤ 12) ∧
        daysBeforeMonth leap (monthOf leap day) ≤ day ∧
        day < daysBeforeMonth leap (monthOf leap day + 1) := by
    decide +kernel
  exact each leap day inYear

end Month

section Year

theorem quotient_succ (n cycle : Nat) :
    (n + 1) / cycle = n / cycle + if (n + 1) % cycle = 0 then 1 else 0 := by
  rw [Nat.succ_div]
  simp only [Nat.dvd_iff_mod_eq_zero]

theorem daysBeforeYear_succ {year : Nat} (lower : 1 ≤ year) :
    daysBeforeYear (year + 1) = daysBeforeYear year + yearLength year := by
  obtain ⟨past, rfl⟩ := Nat.exists_eq_add_of_le' lower
  have order : past / 100 ≤ past / 4 := by omega
  simp only [daysBeforeYear, yearLength, isLeap, Bool.and_eq_true, Bool.or_eq_true, beq_iff_eq,
    bne_iff_ne, Nat.add_sub_cancel, quotient_succ past]
  generalize past / 4 = fours, past / 100 = hundreds, past / 400 = eras at *
  by_cases fourth : (past + 1) % 4 = 0
  · by_cases hundredth : (past + 1) % 100 = 0
    · by_cases era : (past + 1) % 400 = 0
      · simp only [fourth, hundredth, era, if_true, ne_eq, not_true_eq_false, or_true, and_self]
        omega
      · simp only [fourth, hundredth, era, if_true, if_false, ne_eq, not_true_eq_false, or_self, and_false]
        omega
    · have notEra : ¬ (past + 1) % 400 = 0 := by omega
      simp only [fourth, hundredth, notEra, if_true, if_false, ne_eq, not_false_eq_true, true_or, and_self]
      omega
  · have notHundredth : ¬ (past + 1) % 100 = 0 := by omega
    have notEra : ¬ (past + 1) % 400 = 0 := by omega
    simp only [fourth, notHundredth, notEra, if_false, false_and]
    omega

theorem daysBeforeYear_mono {y z : Nat} (lower : 1 ≤ y) (order : y ≤ z) :
    daysBeforeYear y ≤ daysBeforeYear z := by
  induction order with
  | refl => exact Nat.le_refl _
  | step later ih =>
    rw [Nat.succ_eq_add_one, daysBeforeYear_succ (Nat.le_trans lower later)]
    exact Nat.le_add_right_of_le ih

theorem daysBeforeYear_cycles {era century four single : Nat} (centuries : century ≤ 3)
    (fours : four ≤ 24) (singles : single ≤ 3) :
    daysBeforeYear (era * 400 + century * 100 + four * 4 + single + 1) =
      era * 146097 + century * 36524 + four * 1461 + single * 365 := by
  simp only [daysBeforeYear]
  omega

theorem isLeap_cycles (era : Nat) {century four single : Nat} (centuries : century ≤ 3) (fours : four ≤ 24)
    (singles : single ≤ 3) :
    isLeap (era * 400 + century * 100 + four * 4 + single + 1) = true ↔
      single = 3 ∧ (four < 24 ∨ century = 3) := by
  simp only [isLeap, Bool.and_eq_true, Bool.or_eq_true, beq_iff_eq, bne_iff_ne]
  omega

end Year

namespace Date

section Valid

variable {d : Date} (valid : d.Valid)
include valid

theorem toDays_eq : d.toDays + 1 =
    daysBeforeYear d.year + daysBeforeMonth (isLeap d.year) d.month + d.day := by
  have day := valid.day.1
  rw [toDays]
  omega

theorem toDays_in_month :
    daysBeforeYear d.year + daysBeforeMonth (isLeap d.year) d.month ≤ d.toDays ∧
      d.toDays < daysBeforeYear d.year + daysBeforeMonth (isLeap d.year) (d.month + 1) := by
  have number := toDays_eq valid
  have length := daysBeforeMonth_succ (isLeap d.year) valid.month.1 valid.month.2
  have day := valid.day
  omega

theorem toDays_in_year :
    daysBeforeYear d.year ≤ d.toDays ∧ d.toDays < daysBeforeYear (d.year + 1) := by
  obtain ⟨lower, upper⟩ := toDays_in_month valid
  have last : daysBeforeMonth (isLeap d.year) (d.month + 1) ≤ daysBeforeMonth (isLeap d.year) 13 :=
    daysBeforeMonth_mono _ (Nat.le_add_left 1 _) (Nat.succ_le_succ valid.month.2) (Nat.le_refl 13)
  rw [daysBeforeMonth_end] at last
  rw [daysBeforeYear_succ valid.year]
  omega

theorem valid_next : d.next.Valid := by
  obtain ⟨year, month, day⟩ := valid
  rw [next]
  split
  · rename_i inMonth
    exact ⟨year, month, Nat.le_add_left 1 _, inMonth⟩
  · split
    · rename_i inYear
      exact ⟨year, ⟨Nat.le_add_left 1 _, inYear⟩, Nat.le_refl 1, monthLength_pos⟩
    · exact ⟨Nat.le_add_left 1 _, ⟨Nat.le_refl 1, Nat.le_add_left 1 11⟩, Nat.le_refl 1, monthLength_pos⟩

theorem toDays_next : d.next.toDays = d.toDays + 1 := by
  have number := toDays_eq valid
  have after := toDays_eq (valid_next valid)
  have inMonth := valid.day
  have months := daysBeforeMonth_succ (isLeap d.year) valid.month.1 valid.month.2
  have years := daysBeforeYear_succ valid.year
  rw [← daysBeforeMonth_end] at years
  unfold next at after ⊢
  split at after
  · rename_i inside
    rw [if_pos inside]
    dsimp only at after
    omega
  · rename_i lastDay
    rw [if_neg lastDay]
    split at after
    · rename_i inYear
      rw [if_pos inYear]
      dsimp only at after
      omega
    · rename_i lastMonth
      have december : d.month = 12 := Nat.le_antisymm valid.month.2 (Nat.le_of_not_lt lastMonth)
      have january : daysBeforeMonth (isLeap (d.year + 1)) 1 = 0 := rfl
      rw [if_neg lastMonth]
      simp only [december, Nat.reduceAdd] at number months inMonth lastDay
      dsimp only at after
      omega

end Valid

theorem valid_first : first.Valid := ⟨by decide, by decide, by decide⟩

section Order

variable {d e : Date} (validFirst : d.Valid) (validSecond : e.Valid)
include validFirst validSecond

theorem toDays_lt_of_year (before : d.year < e.year) : d.toDays < e.toDays := by
  have order : daysBeforeYear (d.year + 1) ≤ daysBeforeYear e.year :=
    daysBeforeYear_mono (Nat.le_add_left 1 _) before
  have first := toDays_in_year validFirst
  have second := toDays_in_year validSecond
  omega

theorem toDays_lt_of_month (sameYear : d.year = e.year) (before : d.month < e.month) :
    d.toDays < e.toDays := by
  have months := validSecond.month
  have order : daysBeforeMonth (isLeap d.year) (d.month + 1) ≤ daysBeforeMonth (isLeap d.year) e.month :=
    daysBeforeMonth_mono _ (Nat.le_add_left 1 _) before (by omega)
  have first := toDays_in_month validFirst
  have second := toDays_in_month validSecond
  rw [← sameYear] at second
  omega

theorem toDays_injective (same : d.toDays = e.toDays) : d = e := by
  have sameYear : d.year = e.year := by
    rcases Nat.lt_trichotomy d.year e.year with before | equal | after
    · exact absurd same (Nat.ne_of_lt (toDays_lt_of_year validFirst validSecond before))
    · exact equal
    · exact absurd same.symm (Nat.ne_of_lt (toDays_lt_of_year validSecond validFirst after))
  have sameMonth : d.month = e.month := by
    rcases Nat.lt_trichotomy d.month e.month with before | equal | after
    · exact absurd same (Nat.ne_of_lt (toDays_lt_of_month validFirst validSecond sameYear before))
    · exact equal
    · have reverse := toDays_lt_of_month validSecond validFirst sameYear.symm after
      exact absurd same.symm (Nat.ne_of_lt reverse)
  have sameDay : d.day = e.day := by
    have first := toDays_eq validFirst
    have second := toDays_eq validSecond
    rw [← sameYear, ← sameMonth] at second
    omega
  obtain ⟨year, month, day⟩ := d
  obtain ⟨year', month', day'⟩ := e
  cases sameYear
  cases sameMonth
  cases sameDay
  rfl

end Order

/-- A day number is made up of full cycles and a day of a year. The last day of a cycle of four or of
    four hundred years belongs to a leap year. -/
theorem ofDays_spec (days : Nat) : ∃ year day, 1 ≤ year ∧ day < yearLength year ∧
    days = daysBeforeYear year + day ∧
    ofDays days = ⟨year, monthOf (isLeap year) day,
      day - daysBeforeMonth (isLeap year) (monthOf (isLeap year) day) + 1⟩ := by
  obtain ⟨era, isEra⟩ : ∃ era, era = days / 146097 := ⟨_, rfl⟩
  obtain ⟨century, isCentury⟩ : ∃ century, century = min (days % 146097 / 36524) 3 := ⟨_, rfl⟩
  obtain ⟨rest, isRest⟩ : ∃ rest, rest = days % 146097 - century * 36524 := ⟨_, rfl⟩
  obtain ⟨four, isFour⟩ : ∃ four, four = rest / 1461 := ⟨_, rfl⟩
  obtain ⟨single, isSingle⟩ : ∃ single, single = min (rest % 1461 / 365) 3 := ⟨_, rfl⟩
  have centuries : century ≤ 3 := by omega
  have inCentury : rest < 36524 ∨ rest = 36524 ∧ century = 3 := by omega
  have fours : four ≤ 24 := by omega
  have singles : single ≤ 3 := by omega
  refine ⟨era * 400 + century * 100 + four * 4 + single + 1, rest % 1461 - single * 365, by omega,
    ?_, ?_, ?_⟩
  · rw [yearLength]
    have leap := isLeap_cycles era centuries fours singles
    split
    · omega
    · rename_i common
      have notLeap := mt leap.mpr common
      omega
  · rw [daysBeforeYear_cycles centuries fours singles]
    omega
  · subst isSingle isFour isRest isCentury isEra
    rfl

theorem valid_ofDays (days : Nat) : (ofDays days).Valid := by
  obtain ⟨year, day, lower, inYear, _, date⟩ := ofDays_spec days
  rw [← daysBeforeMonth_end] at inYear
  obtain ⟨months, fromStart, beforeEnd⟩ := monthOf_spec inYear
  rw [daysBeforeMonth_succ _ months.1 months.2] at beforeEnd
  rw [date]
  refine ⟨lower, months, Nat.le_add_left 1 _, ?_⟩
  dsimp only
  omega

theorem toDays_ofDays (days : Nat) : (ofDays days).toDays = days := by
  obtain ⟨year, day, _, inYear, number, date⟩ := ofDays_spec days
  rw [← daysBeforeMonth_end] at inYear
  obtain ⟨_, fromStart, _⟩ := monthOf_spec inYear
  rw [date, toDays]
  dsimp only
  omega

theorem ofDays_toDays {d : Date} (valid : d.Valid) : ofDays d.toDays = d :=
  toDays_injective (valid_ofDays _) valid (toDays_ofDays _)

/-- The date of a day number is that many days after the first day. -/
theorem ofDays_eq_iterate (days : Nat) : ofDays days = next^[days] first := by
  have counted : (next^[days] first).Valid ∧ (next^[days] first).toDays = days := by
    induction days with
    | zero => exact ⟨valid_first, rfl⟩
    | succ days ih =>
      obtain ⟨valid, number⟩ := ih
      rw [Function.iterate_succ_apply']
      exact ⟨valid_next valid, by rw [toDays_next valid, number]⟩
  rw [← ofDays_toDays counted.1, counted.2]

end Date

end ProtoBindings.Calendar
