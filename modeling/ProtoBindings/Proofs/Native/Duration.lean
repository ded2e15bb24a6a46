import ProtoBindings.Native.TimeLibrary
import ProtoBindings.Proofs.Result

namespace ProtoBindings.Calendar.TimeDelta

/-- A time delta as it is made: its days are within range and the rest counts forward within a day. -/
structure Normal (t : TimeDelta) : Prop where
  days : -999999999 ≤ t.days ∧ t.days ≤ 999999999
  seconds : t.seconds < 86400
  microseconds : t.microseconds < 1000000

theorem ofMicros_eq_ok {micros : Int} {t : TimeDelta} :
    ofMicros micros = .ok t ↔ t.Normal ∧ t.micros = micros := by
  simp only [ofMicros, Result.unless_eq_ok, Except.ok.injEq, not_or, Int.not_lt, Int.not_le]
  constructor
  · rintro ⟨_, inRange, rfl⟩
    refine ⟨⟨inRange, ?_, ?_⟩, ?_⟩
    · dsimp only
      omega
    · dsimp only
      omega
    · simp only [TimeDelta.micros]
      omega
  · rintro ⟨⟨days, seconds, microseconds⟩, rfl⟩
    obtain ⟨d, s, us⟩ := t
    simp only [TimeDelta.micros, TimeDelta.mk.injEq] at *
    omega

theorem exists_ofMicros {micros : Int} (lower : -86399999913600000000 ≤ micros)
    (upper : micros < 86400000000000000000) : ∃ t, ofMicros micros = .ok t := by
  rw [ofMicros, if_neg (by omega), if_neg (by omega)]
  exact ⟨_, rfl⟩

end ProtoBindings.Calendar.TimeDelta

namespace ProtoBindings.Native

open Calendar (TimeDelta)
open Number (fitSigned)

/-- What the documentation of the library says of durations. A duration becomes the time delta of its
    seconds and of its nanoseconds, cut towards zero to microseconds, or nothing where there is no such
    time delta. A time delta becomes its seconds and nanoseconds, normalized. -/
structure TimeLibrary.DurationsDocumented {ε : Type} (library : TimeLibrary ε) : Prop where
  toTimeDelta : ∀ d t, library.toTimeDelta d = .ok t ↔
    TimeDelta.ofParts 0 d.seconds (Int.tdiv d.nanos 1000) = .ok t
  fromTimeDelta : ∀ t : TimeDelta, t.Normal → library.fromTimeDelta t =
    .ok (.normalized (t.days * 86400 + t.seconds) (t.microseconds * 1000))

/-- Seconds and nanoseconds that do not go opposite ways, and less than a second of the latter. -/
structure Duration.OneSigned (d : Duration) : Prop where
  signs : (0 ≤ d.seconds ∧ 0 ≤ d.nanos) ∨ (d.seconds ≤ 0 ∧ d.nanos ≤ 0)
  lower : -1000000000 < d.nanos
  upper : d.nanos < 1000000000

def Duration.total (d : Duration) : Int := d.seconds * 1000000000 + d.nanos

namespace Duration

theorem eq_of_total {d e : Duration} (signed : d.OneSigned) (signed' : e.OneSigned)
    (same : d.total = e.total) : d = e := by
  obtain ⟨seconds, nanos⟩ := d
  obtain ⟨seconds', nanos'⟩ := e
  obtain ⟨signs, lower, upper⟩ := signed
  obtain ⟨signs', lower', upper'⟩ := signed'
  simp only [total, mk.injEq] at *
  omega

/-- The duration whose nanoseconds are cut towards zero to whole microseconds. -/
def cut (d : Duration) : Duration := ⟨d.seconds, Int.tdiv d.nanos 1000 * 1000⟩

theorem tdiv_cases (n : Int) :
    (0 ≤ n ∧ Int.tdiv n 1000 = n / 1000) ∨ (n ≤ 0 ∧ Int.tdiv n 1000 = -(-n / 1000)) := by
  rcases Int.le_total 0 n with nonneg | nonpos
  · exact .inl ⟨nonneg, Int.tdiv_eq_ediv_of_nonneg nonneg⟩
  · have negated := Int.tdiv_eq_ediv_of_nonneg (b := 1000) (Int.neg_nonneg_of_nonpos nonpos)
    rw [Int.neg_tdiv] at negated
    exact .inr ⟨nonpos, by omega⟩

theorem cut_signed {d : Duration} (signed : d.OneSigned) : d.cut.OneSigned := by
  obtain ⟨signs, lower, upper⟩ := signed
  have nanos := tdiv_cases d.nanos
  refine ⟨?_, ?_, ?_⟩
  all_goals
    dsimp only [cut]
    omega

theorem ofParts_eq_ok {d : Duration} {t : TimeDelta} :
    TimeDelta.ofParts 0 d.seconds (Int.tdiv d.nanos 1000) = .ok t ↔
      t.Normal ∧ t.micros * 1000 = d.cut.total := by
  rw [TimeDelta.ofParts, TimeDelta.ofMicros_eq_ok]
  simp only [cut, total]
  constructor
  · rintro ⟨normal, same⟩
    exact ⟨normal, by omega⟩
  · rintro ⟨normal, same⟩
    exact ⟨normal, by omega⟩

section Normalized

variable {seconds nanos : Int}

theorem normalized_total : (normalized seconds nanos).total = seconds * 1000000000 + nanos := by
  rw [normalized]
  split
  · simp only [total]
    omega
  · rfl

theorem normalized_signed (lower : 0 ≤ nanos) (upper : nanos < 1000000000) :
    (normalized seconds nanos).OneSigned := by
  rw [normalized]
  split
  · refine ⟨.inr ⟨?_, ?_⟩, ?_, ?_⟩
    all_goals
      dsimp only
      omega
  · refine ⟨?_, ?_, ?_⟩
    all_goals
      dsimp only
      omega

theorem cut_normalized (micros : Int) :
    (normalized seconds (micros * 1000)).cut = normalized seconds (micros * 1000) := by
  have whole : ∃ kept, (normalized seconds (micros * 1000)).nanos = kept * 1000 := by
    rw [normalized]
    split
    · exact ⟨micros - 1000000, by dsimp only; omega⟩
    · exact ⟨micros, rfl⟩
  obtain ⟨kept, whole⟩ := whole
  rw [cut, whole, Int.mul_tdiv_cancel kept (by decide), ← whole]

end Normalized

def ofTimeDelta (t : TimeDelta) : Duration :=
  normalized (t.days * 86400 + t.seconds) (t.microseconds * 1000)

theorem ofTimeDelta_total (t : TimeDelta) : (ofTimeDelta t).total = t.micros * 1000 := by
  rw [ofTimeDelta, normalized_total, TimeDelta.micros]
  omega

section TimeDelta

variable {t : TimeDelta} (normal : t.Normal)
include normal

theorem ofTimeDelta_signed : (ofTimeDelta t).OneSigned := by
  have microseconds := normal.microseconds
  exact normalized_signed (by omega) (by omega)

theorem ofTimeDelta_fits :
    ofFields (ofTimeDelta t).seconds (ofTimeDelta t).nanos = .ok (ofTimeDelta t) := by
  have length := ofTimeDelta_total t
  obtain ⟨_, lower, upper⟩ := ofTimeDelta_signed normal
  obtain ⟨days, inDay, inSecond⟩ := normal
  have bounded : -86399999913600 ≤ (ofTimeDelta t).seconds ∧ (ofTimeDelta t).seconds < 86400000000000 := by
    simp only [total, TimeDelta.micros] at length
    omega
  have long : Nat.pow 2 (64 - 1) = 9223372036854775808 := rfl
  have word : Nat.pow 2 (32 - 1) = 2147483648 := rfl
  have seconds : fitSigned 64 (ofTimeDelta t).seconds = .ok (ofTimeDelta t).seconds := by
    rw [fitSigned, long, if_pos (by omega)]
  have nanos : fitSigned 32 (ofTimeDelta t).nanos = .ok (ofTimeDelta t).nanos := by
    rw [fitSigned, word, if_pos (by omega)]
  rw [ofFields, seconds, nanos]
  rfl

end TimeDelta

section

variable {ε : Type} {library : TimeLibrary ε} (documented : library.DurationsDocumented)
include documented

theorem durationToTimeDelta_eq_ok {d : Duration} {t : TimeDelta} :
    durationToTimeDelta library d = .ok t ↔ t.Normal ∧ t.micros * 1000 = d.cut.total :=
  (documented.toTimeDelta d t).trans ofParts_eq_ok

theorem timeDeltaToDuration_eq {t : TimeDelta} (normal : t.Normal) :
    timeDeltaToDuration library t = .ok (ofTimeDelta t) := documented.fromTimeDelta t normal

/-- Durations and time deltas are converted into each other at the same length. Every time delta becomes a
    duration of one sign that leads back to it; a duration of one sign that becomes a time delta comes back
    cut to whole microseconds. -/
theorem conversions_keep_length :
    (∀ t : TimeDelta, t.Normal → ∃ d, timeDeltaToDuration library t = .ok d ∧
      ofFields d.seconds d.nanos = .ok d ∧ d.OneSigned ∧ d.total = t.micros * 1000 ∧
        durationToTimeDelta library d = .ok t) ∧
    ∀ (d : Duration) (t : TimeDelta), d.OneSigned → durationToTimeDelta library d = .ok t →
      t.Normal ∧ t.micros * 1000 = d.cut.total ∧ timeDeltaToDuration library t = .ok d.cut := by
  constructor
  · intro t normal
    refine ⟨_, timeDeltaToDuration_eq documented normal, ofTimeDelta_fits normal,
      ofTimeDelta_signed normal, ofTimeDelta_total t, ?_⟩
    rw [durationToTimeDelta_eq_ok documented]
    refine ⟨normal, ?_⟩
    rw [ofTimeDelta, cut_normalized]
    exact (ofTimeDelta_total t).symm
  · intro d t signed accepted
    obtain ⟨normal, same⟩ := (durationToTimeDelta_eq_ok documented).mp accepted
    refine ⟨normal, same, ?_⟩
    rw [timeDeltaToDuration_eq documented normal]
    refine congrArg _ (eq_of_total (ofTimeDelta_signed normal) (cut_signed signed) ?_)
    rw [ofTimeDelta_total, same]

end

theorem hostTimes_durations : hostTimes.DurationsDocumented where
  toTimeDelta _ _ := Result.mapError_eq_ok
  fromTimeDelta _ _ := rfl

theorem blink_keeps_length : hostTimes.DurationsDocumented ∧ TimeDelta.Normal ⟨-1, 86399, 1⟩ ∧
    (∃ d, timeDeltaToDuration hostTimes ⟨-1, 86399, 1⟩ = .ok d ∧ d.OneSigned ∧ d.total = -999999000 ∧
      durationToTimeDelta hostTimes d = .ok ⟨-1, 86399, 1⟩) ∧
    OneSigned ⟨0, -999999999⟩ ∧
    durationToTimeDelta hostTimes ⟨0, -999999999⟩ = .ok ⟨-1, 86399, 1⟩ ∧
    timeDeltaToDuration hostTimes ⟨-1, 86399, 1⟩ = .ok (cut ⟨0, -999999999⟩) := by
  have normal : TimeDelta.Normal ⟨-1, 86399, 1⟩ := ⟨by decide, by decide, by decide⟩
  have signed : OneSigned ⟨0, -999999999⟩ := ⟨by decide, by decide, by decide⟩
  have accepted : durationToTimeDelta hostTimes ⟨0, -999999999⟩ = .ok ⟨-1, 86399, 1⟩ := by decide
  obtain ⟨forth, back⟩ := conversions_keep_length hostTimes_durations
  obtain ⟨d, converted, _, one, length, again⟩ := forth _ normal
  exact ⟨hostTimes_durations, normal, ⟨d, converted, one, length, again⟩, signed, accepted,
    (back _ _ signed accepted).2.2⟩

end Duration

end ProtoBindings.Native
