import ProtoBindings.Native.TimeLibrary
import ProtoBindings.Proofs.Calendar.DateTime
import ProtoBindings.Proofs.Native.Duration

namespace ProtoBindings.Native

open Calendar (DateTime Moment TimeDelta)

/-- The nanoseconds from the start of the first day to the instant of a timestamp. -/
def Timestamp.instant (t : Timestamp) : Int :=
  (t.seconds + DateTime.epochSeconds) * 1000000000 + t.nanos

/-- An instant in the years 1 to 9999, counted in nanoseconds from the start of the first day. -/
def InYears (instant : Int) : Prop := 0 ≤ instant ∧ instant < DateTime.endMicros * 1000

structure Timestamp.Forward (t : Timestamp) : Prop where
  lower : 0 ≤ t.nanos
  upper : t.nanos < 1000000000

/-- What the documentation of the library says of timestamps. A valid one becomes the start of 1970 with a
    time delta added, in the zone that is asked for. A moment with an offset becomes the seconds of its
    date and time in universal time and the microsecond that its clock shows. -/
structure TimeLibrary.TimestampsDocumented {ε : Type} (library : TimeLibrary ε) : Prop where
  toDateTime : ∀ t : Timestamp, t.Forward → InYears t.instant → ∀ delta utc zone shown,
    TimeDelta.ofParts 0 t.seconds (Int.tdiv t.nanos 1000) = .ok delta →
    DateTime.epoch.add? delta.micros = some utc → utc.add? zone = some shown →
    library.toDateTime t zone = .ok ⟨shown, some zone⟩
  fromDateTime : ∀ (m : Moment) utc, m.shown.Valid → m.offset.isSome → m.utc? = some utc →
    library.fromDateTime m = .ok ⟨utc.timegm, m.shown.microsecond * 1000⟩

namespace Timestamp

section

variable {t : Timestamp} (forward : t.Forward) (inYears : InYears t.instant)
include forward inYears

theorem validate_eq_self : t.validate = .ok t := by
  obtain ⟨lower, upper⟩ := forward
  have epoch : DateTime.epochSeconds = 62135596800 := by decide
  have last : DateTime.endMicros = 315537897600000000 := by decide
  simp only [InYears, instant, epoch, last] at inYears
  rw [validate, if_neg (by omega), if_neg (by omega)]

theorem delta_eq : ∃ delta, TimeDelta.ofParts 0 t.seconds (Int.tdiv t.nanos 1000) = .ok delta ∧
    delta.micros = t.seconds * 1000000 + t.nanos / 1000 := by
  have cut : Int.tdiv t.nanos 1000 = t.nanos / 1000 := Int.tdiv_eq_ediv_of_nonneg forward.lower
  have epoch : DateTime.epochSeconds = 62135596800 := by decide
  have last : DateTime.endMicros = 315537897600000000 := by decide
  simp only [InYears, instant, epoch, last] at inYears
  obtain ⟨lower, upper⟩ := forward
  obtain ⟨delta, made⟩ : ∃ delta,
      TimeDelta.ofMicros (t.seconds * 1000000 + t.nanos / 1000) = .ok delta :=
    TimeDelta.exists_ofMicros (by omega) (by omega)
  refine ⟨delta, ?_, (TimeDelta.ofMicros_eq_ok.mp made).2⟩
  rw [TimeDelta.ofParts, cut, Int.zero_mul, Int.zero_add, made]

end

theorem epoch_add {t : Timestamp} (inYears : InYears t.instant) :
    DateTime.epoch.add? (t.seconds * 1000000 + t.nanos / 1000) =
      some (.ofMicros (t.instant / 1000).toNat) := by
  have passed : (DateTime.epoch.toMicros : Int) + (t.seconds * 1000000 + t.nanos / 1000) =
      t.instant / 1000 := by
    rw [DateTime.epoch_toMicros, instant]
    omega
  rw [DateTime.add?_eq_some, passed]
  rw [InYears] at inYears
  exact ⟨by omega, rfl⟩

theorem add?_zero {shown : DateTime} (valid : shown.Valid) : shown.add? 0 = some shown := by
  have inYears := valid.toMicros_lt
  rw [DateTime.add?_eq_some, Int.add_zero, Int.toNat_natCast, valid.shows.eq_ofMicros]
  exact ⟨by omega, rfl⟩

section

variable {ε : Type} {library : TimeLibrary ε} (documented : library.TimestampsDocumented)
include documented

theorem timestampToDateTime_shows {t : Timestamp} (forward : t.Forward) (inYears : InYears t.instant) :
    ∃ utc, timestampToDateTime library t = .ok ⟨utc, some 0⟩ ∧ utc.Valid ∧
      utc.Shows (t.instant / 1000).toNat := by
  obtain ⟨delta, made, micros⟩ := delta_eq forward inYears
  have shows := DateTime.ofMicros_shows (t.instant / 1000).toNat
  have valid : (DateTime.ofMicros (t.instant / 1000).toNat).Valid := by
    refine shows.valid ?_
    rw [InYears] at inYears
    omega
  exact ⟨_, documented.toDateTime t forward inYears delta _ 0 _ made (micros ▸ epoch_add inYears)
    (add?_zero valid), valid, shows⟩

/-- A moment without an offset is converted as if its clock showed universal time. -/
theorem dateTimeToTimestamp_eq {shown : DateTime} {micros : Nat} (shows : shown.Shows micros)
    (valid : shown.Valid) {offset : Option Int} (inYears : InYears ((micros - offset.getD 0) * 1000)) :
    dateTimeToTimestamp library ⟨shown, offset⟩ = .ok
      ⟨(micros - offset.getD 0) / 1000000 - DateTime.epochSeconds, shown.microsecond * 1000⟩ := by
  have aware : (if (⟨shown, offset⟩ : Moment).offset.isNone then ⟨shown, some 0⟩ else ⟨shown, offset⟩) =
      (⟨shown, some (offset.getD 0)⟩ : Moment) := by cases offset <;> rfl
  have utc : (⟨shown, some (offset.getD 0)⟩ : Moment).utc? =
      some (.ofMicros (micros - offset.getD 0).toNat) := by
    rw [Moment.utc?, DateTime.add?_eq_some, shows.toMicros_eq]
    rw [InYears] at inYears
    exact ⟨by omega, rfl⟩
  have inCalendar := DateTime.ofMicros_shows (micros - offset.getD 0).toNat
  have seconds := inCalendar.timegm_eq (inCalendar.valid (by rw [InYears] at inYears; omega)).date
  have nonneg : ((micros - offset.getD 0).toNat : Int) = micros - offset.getD 0 := by
    rw [InYears] at inYears
    omega
  rw [dateTimeToTimestamp, aware, documented.fromDateTime _ _ valid rfl utc, seconds, nonneg]

/-- Timestamps and dates with a time are converted into each other at the same instant. On the way to a
    date, shown in universal time, the nanoseconds are cut to microseconds, and the way back leads to the
    cut timestamp. On the way from a date nothing is lost, whether its clock shows whole seconds east or
    west of universal time or has no offset. Only a date shown away from universal time can lie outside
    the years. -/
theorem conversions_keep_instant :
    (∀ t : Timestamp, t.Forward → InYears t.instant →
      ∃ utc, timestampToDateTime library t = .ok ⟨utc, some 0⟩ ∧ utc.Valid ∧
        utc.Shows (t.instant / 1000).toNat ∧
        dateTimeToTimestamp library ⟨utc, some 0⟩ = .ok ⟨t.seconds, t.nanos - t.nanos % 1000⟩) ∧
    ∀ shown : DateTime, shown.Valid → ∃ micros : Nat, shown.Shows micros ∧ ∀ east : Option Int,
      east.getD 0 = 0 ∨ InYears ((micros - east.getD 0 * 1000000) * 1000) →
        ∃ t, dateTimeToTimestamp library ⟨shown, east.map (· * 1000000)⟩ = .ok t ∧ t.Forward ∧
          t.instant = (micros - east.getD 0 * 1000000) * 1000 ∧
          ∃ utc, timestampToDateTime library t = .ok ⟨utc, some 0⟩ ∧ utc.Valid ∧
            utc.Shows (micros - east.getD 0 * 1000000).toNat := by
  constructor
  · intro t forward inYears
    obtain ⟨utc, converted, valid, shows⟩ := timestampToDateTime_shows documented forward inYears
    refine ⟨utc, converted, valid, shows, ?_⟩
    have bounds := inYears
    simp only [InYears] at bounds
    rw [dateTimeToTimestamp_eq documented shows valid (by simp only [InYears, Option.getD_some]; omega)]
    obtain ⟨lower, upper⟩ := forward
    obtain ⟨_, _, _, inSecond, days, _, passed⟩ := shows
    simp only [Option.getD_some, instant] at passed bounds ⊢
    congr 2
    · omega
    · omega
  · intro shown valid
    have shows := valid.shows
    refine ⟨shown.toMicros, shows, fun east near => ?_⟩
    have inYears : InYears ((shown.toMicros - east.getD 0 * 1000000) * 1000) := by
      rcases near with same | inYears
      -- A clock that shows universal time shows a date of the years.
      · have last := valid.toMicros_lt
        rw [same, InYears]
        omega
      · exact inYears
    have offset : (east.map (· * 1000000)).getD 0 = east.getD 0 * 1000000 := by cases east <;> rfl
    obtain ⟨t, same⟩ : ∃ t : Timestamp, t = ⟨(shown.toMicros - east.getD 0 * 1000000) / 1000000 -
      DateTime.epochSeconds, shown.microsecond * 1000⟩ := ⟨_, rfl⟩
    have converted : dateTimeToTimestamp library ⟨shown, east.map (· * 1000000)⟩ = .ok t := by
      rw [dateTimeToTimestamp_eq documented shows valid (by rwa [offset]), offset, same]
    obtain ⟨_, _, _, inSecond, days, _, passed⟩ := shows
    have forward : t.Forward := ⟨by rw [same]; dsimp only; omega, by rw [same]; dsimp only; omega⟩
    have instant : t.instant = (shown.toMicros - east.getD 0 * 1000000) * 1000 := by
      rw [same, Timestamp.instant]
      dsimp only
      omega
    obtain ⟨utc, back, validUtc, showsUtc⟩ :=
      timestampToDateTime_shows documented forward (instant ▸ inYears)
    refine ⟨t, converted, forward, instant, utc, back, validUtc, ?_⟩
    rwa [instant, Int.mul_ediv_cancel _ (by decide)] at showsUtc

end

theorem hostTimes_timestamps : hostTimes.TimestampsDocumented where
  toDateTime := by
    intro t forward inYears delta utc zone shown made added moved
    simp only [hostTimes, validate_eq_self forward inYears]
    simp only [Except.mapError, bind, Except.bind, made, added, moved, orOutside]
    rfl
  fromDateTime := by
    intro m utc _ _ isUtc
    simp only [hostTimes, isUtc, orOutside]
    rfl

/-- An instant before 1970, a clock two hours east of universal time that is a day ahead of it, and the
    same clock without an offset. -/
theorem march_keeps_instant : hostTimes.TimestampsDocumented ∧
    (Forward ⟨-1, 999999999⟩ ∧ InYears (instant ⟨-1, 999999999⟩) ∧
      ∃ utc, timestampToDateTime hostTimes ⟨-1, 999999999⟩ = .ok ⟨utc, some 0⟩ ∧ utc.Valid ∧
        utc.Shows 62135596799999999 ∧
        dateTimeToTimestamp hostTimes ⟨utc, some 0⟩ = .ok ⟨-1, 999999000⟩) ∧
    DateTime.Valid ⟨⟨2000, 3, 1⟩, 0, 30, 0, 1⟩ ∧
    ∃ micros : Nat, DateTime.Shows ⟨⟨2000, 3, 1⟩, 0, 30, 0, 1⟩ micros ∧
      InYears ((micros - 7200 * 1000000) * 1000) ∧
      (∃ t, dateTimeToTimestamp hostTimes ⟨⟨⟨2000, 3, 1⟩, 0, 30, 0, 1⟩, some (7200 * 1000000)⟩ = .ok t ∧
        t.Forward ∧ t.instant = (micros - 7200 * 1000000) * 1000) ∧
      ∃ t, dateTimeToTimestamp hostTimes ⟨⟨⟨2000, 3, 1⟩, 0, 30, 0, 1⟩, none⟩ = .ok t ∧
        t.Forward ∧ t.instant = (micros - 0 * 1000000) * 1000 := by
  have forward : Forward ⟨-1, 999999999⟩ := ⟨by decide, by decide⟩
  have inYears : InYears (instant ⟨-1, 999999999⟩) := ⟨by decide, by decide⟩
  have march : DateTime.Valid ⟨⟨2000, 3, 1⟩, 0, 30, 0, 1⟩ :=
    ⟨⟨by decide, by decide, by decide⟩, by decide, by decide, by decide, by decide, by decide⟩
  refine ⟨hostTimes_timestamps, ⟨forward, inYears,
    (conversions_keep_instant hostTimes_timestamps).1 _ forward inYears⟩, march, ?_⟩
  obtain ⟨micros, shows, converted⟩ := (conversions_keep_instant hostTimes_timestamps).2 _ march
  have inYears' : InYears ((micros - 7200 * 1000000) * 1000) := by
    rw [← shows.toMicros_eq]
    exact ⟨by decide, by decide⟩
  obtain ⟨t, ofEast, forwardEast, instantEast, _⟩ := converted (some 7200) (.inr inYears')
  obtain ⟨t', ofNaive, forwardNaive, instantNaive, _⟩ := converted none (.inl rfl)
  exact ⟨micros, shows, inYears', ⟨t, ofEast, forwardEast, instantEast⟩,
    t', ofNaive, forwardNaive, instantNaive⟩

example : dateTimeToTimestamp hostTimes ⟨⟨⟨2000, 3, 1⟩, 0, 30, 0, 1⟩, some (7200 * 1000000)⟩ =
      .ok ⟨951863400, 1000⟩ ∧
    dateTimeToTimestamp hostTimes ⟨⟨⟨2000, 3, 1⟩, 0, 30, 0, 1⟩, none⟩ = .ok ⟨951870600, 1000⟩ := by
  decide

end Timestamp

end ProtoBindings.Native
