import ProtoBindings.Calendar.DateTime
import ProtoBindings.Proofs.Calendar.Date

namespace ProtoBindings.Calendar.DateTime

/-- A date and time that can be made from its parts. -/
structure Valid (t : DateTime) : Prop where
  date : t.date.Valid
  year : t.date.year ≤ 9999
  hour : t.hour < 24
  minute : t.minute < 60
  second : t.second < 60
  microsecond : t.microsecond < 1000000

/-- What a clock shows when microseconds have passed since the start of the first day. -/
structure Shows (t : DateTime) (micros : Nat) : Prop where
  hour : t.hour < 24
  minute : t.minute < 60
  second : t.second < 60
  microsecond : t.microsecond < 1000000
  passed : ∃ days, t.date = Date.next^[days] Date.first ∧
    micros = (((days * 24 + t.hour) * 60 + t.minute) * 60 + t.second) * 1000000 + t.microsecond

section Shows

variable {t : DateTime} {micros : Nat}

theorem Valid.shows (valid : t.Valid) : t.Shows t.toMicros := by
  refine ⟨valid.hour, valid.minute, valid.second, valid.microsecond, t.date.toDays, ?_, rfl⟩
  rw [← Date.ofDays_eq_iterate, Date.ofDays_toDays valid.date]

theorem Shows.date_eq (shows : t.Shows micros) : t.date = Date.ofDays (micros / 86400000000) := by
  obtain ⟨hour, minute, second, microsecond, days, date, passed⟩ := shows
  have sameDay : micros / 86400000000 = days := by omega
  rw [sameDay, date, Date.ofDays_eq_iterate]

theorem Shows.toMicros_eq (shows : t.Shows micros) : t.toMicros = micros := by
  obtain ⟨_, _, _, _, days, date, passed⟩ := shows
  have number : t.date.toDays = days := by
    rw [date, ← Date.ofDays_eq_iterate, Date.toDays_ofDays]
  rw [toMicros, number, passed]
  rfl

theorem Shows.eq_ofMicros (shows : t.Shows micros) : ofMicros micros = t := by
  have date := shows.date_eq
  obtain ⟨⟨year, month, day⟩, h, m, s, us⟩ := t
  obtain ⟨hour, minute, second, microsecond, days, _, passed⟩ := shows
  have sameDay : micros / microsPerSecond / secondsPerDay = micros / 86400000000 := by
    rw [microsPerSecond, secondsPerDay, Nat.div_div_eq_div_mul]
  rw [ofMicros, sameDay, ← date]
  dsimp only at hour minute second microsecond passed
  simp only [microsPerSecond, secondsPerDay, DateTime.mk.injEq, true_and]
  omega

theorem ofMicros_shows (micros : Nat) : (ofMicros micros).Shows micros := by
  constructor
  · simp only [ofMicros, microsPerSecond, secondsPerDay]
    omega
  · simp only [ofMicros]
    omega
  · simp only [ofMicros]
    omega
  · simp only [ofMicros, microsPerSecond]
    omega
  · refine ⟨micros / microsPerSecond / secondsPerDay, Date.ofDays_eq_iterate _, ?_⟩
    simp only [ofMicros, microsPerSecond, secondsPerDay]
    omega

theorem Shows.valid (shows : t.Shows micros) (inYears : micros < endMicros) : t.Valid := by
  have date := shows.date_eq
  have validDate : t.date.Valid := date ▸ Date.valid_ofDays _
  have number : t.date.toDays = micros / 86400000000 := by rw [date, Date.toDays_ofDays]
  refine ⟨validDate, ?_, shows.hour, shows.minute, shows.second, shows.microsecond⟩
  by_contra beyond
  have lastDay : endMicros = daysBeforeYear 10000 * 86400000000 := rfl
  have order : daysBeforeYear 10000 ≤ daysBeforeYear t.date.year :=
    daysBeforeYear_mono (by decide) (Nat.lt_of_not_le beyond)
  have inYear := (Date.toDays_in_year validDate).1
  omega

theorem Valid.toMicros_lt (valid : t.Valid) : t.toMicros < endMicros := by
  have number : t.date.toDays < daysBeforeYear 10000 := by
    have order : daysBeforeYear (t.date.year + 1) ≤ daysBeforeYear 10000 :=
      daysBeforeYear_mono (Nat.le_add_left 1 _) (Nat.succ_le_succ valid.year)
    exact Nat.lt_of_lt_of_le (Date.toDays_in_year valid.date).2 order
  have lastDay : endMicros = daysBeforeYear 10000 * 86400000000 := rfl
  obtain ⟨_, _, hour, minute, second, microsecond⟩ := valid
  rw [lastDay, toMicros, microsPerSecond]
  omega

theorem Shows.timegm_eq (shows : t.Shows micros) (valid : t.date.Valid) :
    t.timegm = micros / 1000000 - epochSeconds := by
  have number : t.date.toDays = micros / 86400000000 := by rw [shows.date_eq, Date.toDays_ofDays]
  have first : (Date.toDays ⟨t.date.year, t.date.month, 1⟩ : Int) + t.date.day - 1 = t.date.toDays := by
    have counted := valid.day.1
    simp only [Date.toDays]
    omega
  have start : epoch.date.toDays = 719162 := by decide
  have seconds : epochSeconds = 62135596800 := by decide
  obtain ⟨_, _, _, _, days, _, passed⟩ := shows
  simp only [timegm, start, seconds]
  omega

end Shows

theorem epoch_toMicros : epoch.toMicros = epochSeconds * 1000000 := by decide

theorem add?_eq_some {t later : DateTime} {micros : Int} : t.add? micros = some later ↔
    (0 ≤ t.toMicros + micros ∧ t.toMicros + micros < endMicros) ∧
      later = .ofMicros (t.toMicros + micros).toNat := by
  simp only [add?, Option.ite_none_left_eq_some, Option.some.injEq, not_or, Int.not_lt, Int.not_le,
    eq_comm (a := later)]

end ProtoBindings.Calendar.DateTime
