import ProtoBindings.Proofs.Native.TimeText
import ProtoBindings.Proofs.Native.Timestamp

namespace ProtoBindings.Calendar.DateTime

open Number (padded)

theorem ofParts_of_valid {x : DateTime} (valid : x.Valid) : ofParts x.date.year x.date.month x.date.day
    x.hour x.minute x.second x.microsecond = .ok x := by
  obtain ⟨⟨first, ⟨january, december⟩, day⟩, year, hour, minute, second, microsecond⟩ := valid
  have length : daysInMonth x.date.year x.date.month = monthLength (isLeap x.date.year) x.date.month := by
    rw [daysInMonth, daysBeforeMonth_succ _ january december, Nat.add_sub_cancel_left]
  rw [ofParts, maxYear]
  simp only [Int.toNat_natCast, length]
  rw [if_neg (by omega), if_neg (by omega), if_neg (by omega), if_neg (by omega), if_neg (by omega),
    if_neg (by omega), if_neg (by omega)]

/-- The date and time with dashes and colons, to the second. -/
def text (x : DateTime) : List Char :=
  padded 4 x.date.year ++ '-' :: (padded 2 x.date.month ++ '-' :: (padded 2 x.date.day ++ 'T' ::
    (padded 2 x.hour ++ ':' :: (padded 2 x.minute ++ ':' :: padded 2 x.second))))

end ProtoBindings.Calendar.DateTime

namespace ProtoBindings.Native

open Calendar (DateTime)
open Number (digitsValue isDigit padded signedBy)
open Text (CodePoints)

section Part

variable {mark : Char} {cs rest : List Char} {shape : List (Char → Bool)} {shapes : List (List (Char → Bool))}

def fits (cs : List Char) (shape : List (Char → Bool)) : Bool :=
  shape.length == cs.length && (shape.zip cs).all fun (accepts, c) => accepts c

theorem fitShape?_whole (length : shape.length = cs.length) :
    fitShape? (some mark) shape (cs ++ mark :: rest) = if fits cs shape then some (cs, rest) else none := by
  have zipped : shape.zip (cs ++ mark :: rest) = shape.zip cs := by
    have both := @List.zip_append _ _ shape [] cs (mark :: rest) length
    rwa [List.append_nil, List.zip_nil_left, List.append_nil] at both
  rw [fitShape?.eq_def]
  dsimp only
  rw [zipped, length, List.drop_left, List.take_left, fits, length, beq_self_eq_true, Bool.true_and]
  cases (shape.zip cs).all fun (accepts, c) => accepts c <;> simp

theorem fitShape?_part (short : shape.length < cs.length) (noMark : mark ∉ cs) :
    fitShape? (some mark) shape (cs ++ mark :: rest) = none := by
  obtain ⟨c, after, dropped⟩ := List.exists_cons_of_ne_nil
    (List.ne_nil_of_length_pos (by rw [List.length_drop]; omega : 0 < (cs.drop shape.length).length))
  have other : c ≠ mark := by
    rintro rfl
    exact noMark (List.mem_of_mem_drop (dropped ▸ List.mem_cons_self))
  rw [fitShape?.eq_def]
  dsimp only
  rw [List.drop_append_of_le_length short.le, dropped, List.cons_append]
  dsimp only
  rw [if_neg other, ite_self]

theorem findSome?_fits (short : ∀ shape ∈ shapes, shape.length ≤ cs.length) (noMark : mark ∉ cs)
    (fit : shapes.any (fits cs) = true) :
    shapes.findSome? (fun shape => fitShape? (some mark) shape (cs ++ mark :: rest)) = some (cs, rest) := by
  induction shapes with
  | nil => cases fit
  | cons shape shapes ih =>
    have later (unfit : fits cs shape = false) := ih
      (fun other member => short other (List.mem_cons_of_mem _ member)) (by
        rwa [List.any_cons, unfit, Bool.false_or] at fit)
    rw [List.findSome?_cons]
    rcases Nat.lt_or_eq_of_le (short shape List.mem_cons_self) with less | same
    · have unfit : fits cs shape = false := by
        rw [fits, beq_eq_false_iff_ne.mpr less.ne, Bool.false_and]
      rw [fitShape?_part less noMark, later unfit]
    · rw [fitShape?_whole same]
      cases first : fits cs shape with
      | true => rfl
      | false => exact later first

theorem mark_not_mem_padded {mark : Char} (noDigit : isDigit mark = false) (width n : ℕ) :
    mark ∉ padded width n := fun member => by
  rw [Number.isDigit_of_mem_padded member] at noDigit
  cases noDigit

theorem readTimeParts?_cons {parts : List TimePart} {width n : ℕ}
    (length : (padded width n).length = width) (short : ∀ shape ∈ shapes, shape.length ≤ width)
    (noDigit : isDigit mark = false) (fit : shapes.any (fits (padded width n)) = true) :
    readTimeParts? (⟨shapes, some mark⟩ :: parts) (padded width n ++ mark :: rest) =
      (readTimeParts? parts rest).map fun (later, after) => ((n : Int) :: later, after) := by
  have noMark := mark_not_mem_padded noDigit width n
  have present : padded width n ≠ [] := by
    rw [padded]
    exact List.append_ne_nil_of_right_ne_nil _ Nat.toDigits_ne_nil
  rw [readTimeParts?, findSome?_fits (fun shape member => (short shape member).trans length.ge) noMark fit]
  simp only [Option.bind_eq_bind, Option.bind_some]
  rw [Number.integer?_digits present fun _ => Number.isDigit_of_mem_padded, Number.digitsValue_padded]
  cases readTimeParts? parts rest <;> rfl

end Part

section Shapes

theorem fits_year {n : ℕ} (small : n < 10000) : timeParts[0].shapes.any (fits (padded 4 n)) = true := by
  have digits : ∀ code : Fin 128, isDigit (Char.ofNat code) = true → anyDigit (Char.ofNat code) = true := by
    decide +kernel
  have any (c : Char) (member : c ∈ padded 4 n) : anyDigit c = true := by
    have digit : isDigit c = true := Number.isDigit_of_mem_padded member
    have entry := digits ⟨c.toNat, (Number.isPlain_of_isDigit digit).ascii⟩
    rw [Char.ofNat_toNat] at entry
    exact entry digit
  have length : (padded 4 n).length = 4 := Number.length_padded (by decide) small
  obtain ⟨a, b, c, d, same⟩ := List.length_eq_four.mp length
  rw [same] at any ⊢
  have all : fits [a, b, c, d] [anyDigit, anyDigit, anyDigit, anyDigit] = true := by
    simp [fits, any a, any b, any c, any d]
  simpa [timeParts] using all

theorem fits_month : ∀ n : Fin 13, 1 ≤ n.val → timeParts[1].shapes.any (fits (padded 2 n)) = true := by
  decide +kernel

theorem fits_day : ∀ n : Fin 32, 1 ≤ n.val → timeParts[2].shapes.any (fits (padded 2 n)) = true := by
  decide +kernel

theorem fits_hour : ∀ n : Fin 24, timeParts[3].shapes.any (fits (padded 2 n)) = true := by
  decide +kernel

theorem fits_minute : ∀ n : Fin 60, timeParts[4].shapes.any (fits (padded 2 n)) = true := by
  decide +kernel

theorem read_second : ∀ n : Fin 60,
    readTimeParts? (timeParts.drop 5) (padded 2 n) = some ([(n : Int)], []) := by
  decide +kernel

end Shapes

section Reading

variable {x : DateTime} (valid : x.Valid)
include valid

theorem readTimeParts?_text : readTimeParts? timeParts x.text =
    some ([(x.date.year : Int), x.date.month, x.date.day, x.hour, x.minute, x.second], []) := by
  obtain ⟨⟨_, ⟨january, december⟩, first, day⟩, year, hour, minute, second, _⟩ := valid
  have inMonth : Calendar.monthLength (Calendar.isLeap x.date.year) x.date.month ≤ 31 := by
    rw [Calendar.monthLength]
    split <;> (try split) <;> decide
  have two {n : ℕ} (small : n < 100) : (padded 2 n).length = 2 := Number.length_padded (by decide) small
  have seconds := read_second ⟨x.second, second⟩
  have minutes : readTimeParts? (timeParts.drop 4) (padded 2 x.minute ++ ':' :: _) = some (_ :: _, []) :=
    (readTimeParts?_cons (two (by omega)) (by decide) (by decide) (fits_minute ⟨x.minute, minute⟩)).trans
      (congrArg (Option.map _) seconds)
  have hours : readTimeParts? (timeParts.drop 3) (padded 2 x.hour ++ ':' :: _) = some (_ :: _, []) :=
    (readTimeParts?_cons (two (by omega)) (by decide) (by decide) (fits_hour ⟨x.hour, hour⟩)).trans
      (congrArg (Option.map _) minutes)
  have days : readTimeParts? (timeParts.drop 2) (padded 2 x.date.day ++ 'T' :: _) = some (_ :: _, []) :=
    (readTimeParts?_cons (two (by omega)) (by decide) (by decide)
      (fits_day ⟨x.date.day, by omega⟩ first)).trans (congrArg (Option.map _) hours)
  have months : readTimeParts? (timeParts.drop 1) (padded 2 x.date.month ++ '-' :: _) = some (_ :: _, []) :=
    (readTimeParts?_cons (two (by omega)) (by decide) (by decide)
      (fits_month ⟨x.date.month, by omega⟩ january)).trans (congrArg (Option.map _) days)
  exact (readTimeParts?_cons (Number.length_padded (by decide) (by omega)) (by decide) (by decide)
    (fits_year (by omega))).trans (congrArg (Option.map _) months)

theorem readDateTime_text (whole : x.microsecond = 0) : readDateTime (x.text.map Char.toNat) = .ok x := by
  have made := Calendar.DateTime.ofParts_of_valid valid
  rw [whole] at made
  rw [readDateTime, Text.CodePoints.chars_map_toNat, readTimeParts?_text valid]
  dsimp only
  rw [show ((0 : ℕ) : Int) = 0 from rfl] at made
  rw [made]

end Reading

/-- A zone: universal time, or hours and minutes that it is behind or ahead. -/
inductive Zone
  | utc
  | offset (behind : Bool) (hours minutes : ℕ)

namespace Zone

def text : Zone → List Char
  | utc => ['Z']
  | offset behind hours minutes => (if behind then '-' else '+') :: (padded 2 hours ++ ':' :: padded 2 minutes)

def seconds : Zone → Int
  | utc => 0
  | offset behind hours minutes => signedBy behind ((hours * 60 + minutes) * 60)

def Short : Zone → Prop
  | utc => True
  | offset _ hours minutes => hours < 100 ∧ minutes < 100

end Zone

section Zone

variable {front : List Char} {zone : Zone}

theorem not_mem_offset {mark : Char} (noDigit : isDigit mark = false) (noColon : mark ≠ ':')
    (hours minutes : ℕ) : mark ∉ padded 2 hours ++ ':' :: padded 2 minutes := by
  simp [mark_not_mem_padded noDigit, noColon]

theorem idxOf_map_toNat {c : Char} {back : List Char} (absent : c ∉ front) :
    ((front ++ c :: back).map Char.toNat).idxOf c.toNat = front.length := by
  have notIn : c.toNat ∉ front.map Char.toNat := fun member => by
    obtain ⟨d, isIn, same⟩ := List.mem_map.mp member
    exact absent (Char.toNat_inj.mp same ▸ isIn)
  rw [List.map_append, List.map_cons, List.idxOf_append_of_notMem notIn, List.idxOf_cons_self, List.length_map,
    Nat.add_zero]

theorem zoneIndex?_text (noZ : 'Z' ∉ front) (noPlus : '+' ∉ front) :
    zoneIndex? ((front ++ zone.text).map Char.toNat) = some front.length := by
  cases zone with
  | utc =>
    rw [zoneIndex?, if_pos (Text.CodePoints.has_map_toNat.mpr (by simp [Zone.text])), Zone.text,
      idxOf_map_toNat noZ]
  | offset behind hours minutes =>
    have noZ' : 'Z' ∉ padded 2 hours ++ ':' :: padded 2 minutes :=
      not_mem_offset (by decide) (by decide) hours minutes
    have noPlus' : '+' ∉ padded 2 hours ++ ':' :: padded 2 minutes :=
      not_mem_offset (by decide) (by decide) hours minutes
    have noMinus : '-' ∉ padded 2 hours ++ ':' :: padded 2 minutes :=
      not_mem_offset (by decide) (by decide) hours minutes
    generalize digits : padded 2 hours ++ ':' :: padded 2 minutes = rest at noZ' noPlus' noMinus
    rw [zoneIndex?, Zone.text, digits]
    cases behind with
    | false =>
      rw [if_neg (by rw [Text.CodePoints.has_map_toNat]; simp [noZ, noZ']),
        if_pos (Text.CodePoints.has_map_toNat.mpr (by simp))]
      exact congrArg some (idxOf_map_toNat noPlus)
    | true =>
      rw [if_neg (by rw [Text.CodePoints.has_map_toNat]; simp [noZ, noZ']),
        if_neg (by rw [Text.CodePoints.has_map_toNat]; simp [noPlus, noPlus']),
        if_pos (Text.CodePoints.has_map_toNat.mpr (by simp)), ← List.map_reverse, List.reverse_append,
        if_pos rfl, List.reverse_cons, List.append_assoc, List.singleton_append,
        idxOf_map_toNat (by rwa [List.mem_reverse])]
      simp only [List.length_map, List.length_append, List.length_cons, List.length_reverse, Option.some.injEq]
      omega

theorem readZone_text (short : zone.Short) (text : String) :
    readZone text (zone.text.map Char.toNat) = .ok zone.seconds := by
  cases zone with
  | utc => rfl
  | offset behind hours minutes =>
    obtain ⟨hoursShort, minutesShort⟩ := short
    have read {n : ℕ} (small : n < 100) :
        Number.readInteger ((padded 2 n).map Char.toNat) = .ok (n : Int) := by
      have length : (padded 2 n).length = 2 := Number.length_padded (by decide) small
      have present : padded 2 n ≠ [] := by
        rw [← List.length_pos_iff, length]
        decide
      rw [Number.readInteger_digits (Text.CodePoints.chars_map_toNat _) present
        (fun _ => Number.isDigit_of_mem_padded) (by rw [length]; decide), Number.digitsValue_padded]
    have colon : CodePoints.cut ':' ((padded 2 hours ++ ':' :: padded 2 minutes).map Char.toNat) =
        ((padded 2 hours).map Char.toNat, (padded 2 minutes).map Char.toNat) :=
      Text.CodePoints.cut_map_toNat (mark_not_mem_padded (by decide) 2 hours)
    have has : CodePoints.has ':' ((padded 2 hours ++ ':' :: padded 2 minutes).map Char.toNat) = true :=
      Text.CodePoints.has_map_toNat.mpr (by simp)
    rw [Zone.text, List.map_cons, readZone, if_neg (by cases behind <;> decide), has, colon]
    dsimp only
    rw [read hoursShort, read minutesShort]
    cases behind <;> rfl

end Zone

namespace Timestamp

section Text

variable {x : DateTime} {fraction : List Char} {zone : Zone}

theorem not_mem_text {mark : Char} (noDigit : isDigit mark = false) (other : mark ∉ ['-', 'T', ':'])
    (x : DateTime) : mark ∉ x.text := by
  simp only [List.mem_cons, List.not_mem_nil, or_false, not_or] at other
  simp [Calendar.DateTime.text, mark_not_mem_padded noDigit, other]

theorem not_mem_fraction {mark : Char} (digits : ∀ c ∈ fraction, isDigit c = true)
    (noDigit : isDigit mark = false) : mark ∉ fraction := fun member => by
  rw [digits mark member] at noDigit
  cases noDigit

/-- A date and time with a zone and at most nine digits after the point is read as its instant. -/
theorem ofCodes_text (valid : x.Valid) (whole : x.microsecond = 0) (digits : ∀ c ∈ fraction, isDigit c = true)
    (short : fraction.length ≤ 9) (zoneShort : zone.Short) {codes : CodePoints}
    (written : codes = (x.text ++ '.' :: fraction ++ zone.text).map Char.toNat) :
    ofCodes codes = (validate ⟨x.timegm - zone.seconds,
      (digitsValue fraction * 10 ^ (9 - fraction.length) : ℕ)⟩).mapError .invalid := by
  have place : zoneIndex? codes = some (x.text ++ '.' :: fraction).length := by
    rw [written]
    refine zoneIndex?_text ?_ ?_
    · simp [not_mem_text, not_mem_fraction digits, isDigit]
    · simp [not_mem_text, not_mem_fraction digits, isDigit]
  have before : codes.take (x.text ++ '.' :: fraction).length = (x.text ++ '.' :: fraction).map Char.toNat := by
    rw [written, List.map_append, List.take_left' (List.length_map _)]
  have after : codes.drop (x.text ++ '.' :: fraction).length = zone.text.map Char.toNat := by
    rw [written, List.map_append, List.drop_left' (List.length_map _)]
  have parts : CodePoints.cut '.' ((x.text ++ '.' :: fraction).map Char.toNat) =
      (x.text.map Char.toNat, fraction.map Char.toNat) :=
    Text.CodePoints.cut_map_toNat (not_mem_text (by decide) (by decide) x)
  have noSmall : CodePoints.has 't' (x.text.map Char.toNat) ≠ true := by
    rw [Ne, Text.CodePoints.has_map_toNat]
    exact not_mem_text (by decide) (by decide) x
  have seconds : ((x.toMicros / Calendar.microsPerSecond : ℕ) : Int) - DateTime.epochSeconds = x.timegm := by
    rw [valid.shows.timegm_eq valid.date]
    rfl
  have few : ¬ 9 < (fraction.map Char.toNat).length := by
    rw [List.length_map]
    omega
  have exact : readNanos (('0' :: '.' :: fraction).map Char.toNat) = .ok (signedBy false _) :=
    readNanos_fraction (Text.CodePoints.chars_map_toNat ('0' :: '.' :: fraction)) digits short
  have nothing : fraction.map Char.toNat = [] →
      digitsValue fraction * 10 ^ (9 - fraction.length) = 0 := by
    intro none
    rw [List.map_eq_nil_iff.mp none]
    rfl
  -- The power of ten is hidden, or Lean would work it out.
  generalize digitsValue fraction * 10 ^ (9 - fraction.length) = nanos at *
  rw [ofCodes, place]
  dsimp only
  rw [before, after, parts]
  dsimp only
  rw [if_neg noSmall, readDateTime_text valid whole]
  rw [Result.ok_bind, if_neg few, readZone_text zoneShort, seconds]
  split
  · rename_i none
    rw [nothing none, Nat.cast_zero, show (pure 0 : Except TimestampTextError Int) = .ok 0 from rfl,
      Result.ok_bind, Result.ok_bind]
  · have read : readNanos (.ofText "0." ++ fraction.map Char.toNat) = .ok (nanos : Int) := exact
    rw [read, Except.mapError, Result.ok_bind, Result.ok_bind]

end Text

structure InRange (t : Timestamp) : Prop extends t.Forward where
  least : -62135596800 ≤ t.seconds
  most : t.seconds ≤ 253402300799

theorem validate_eq_ok {t u : Timestamp} : validate t = .ok u ↔ u = t ∧ t.InRange := by
  simp only [validate, Result.unless_eq_ok, Except.ok.injEq, not_or]
  constructor
  · rintro ⟨seconds, nanos, rfl⟩
    exact ⟨rfl, ⟨by omega, by omega⟩, by omega, by omega⟩
  · rintro ⟨rfl, ⟨lower, upper⟩, least, most⟩
    exact ⟨by omega, by omega, rfl⟩

def shown (t : Timestamp) : DateTime := .ofMicros ((t.seconds + DateTime.epochSeconds).toNat * 1000000)

/-- The text of a timestamp in universal time, with nine digits after the point. -/
def text (t : Timestamp) : List Char := t.shown.text ++ '.' :: padded 9 t.nanos.toNat ++ Zone.utc.text

/-- A timestamp is read back from its text, to the nanosecond. -/
theorem ofCodes_written {t : Timestamp} (inRange : t.InRange) : ofCodes (t.text.map Char.toNat) = .ok t := by
  obtain ⟨⟨lower, upper⟩, least, most⟩ := inRange
  have epoch : DateTime.epochSeconds = 62135596800 := by decide
  have last : DateTime.endMicros = 315537897600000000 := by decide
  have shows := DateTime.ofMicros_shows ((t.seconds + DateTime.epochSeconds).toNat * 1000000)
  have valid : t.shown.Valid := shows.valid (by omega)
  have whole : t.shown.microsecond = 0 := Nat.mul_mod_left _ _
  have seconds : t.shown.timegm = t.seconds := by
    have passed := shows.timegm_eq valid.date
    rw [shown, passed]
    omega
  have length : (padded 9 t.nanos.toNat).length = 9 :=
    Number.length_padded (by decide) (show t.nanos.toNat < 10 ^ 9 by omega)
  have short : Zone.utc.Short := trivial
  rw [text, ofCodes_text valid whole (fun _ => Number.isDigit_of_mem_padded) length.le short rfl, length,
    Number.digitsValue_padded, seconds, Nat.sub_self, Nat.pow_zero, Nat.mul_one, Int.toNat_of_nonneg lower]
  have kept : t.seconds - Zone.utc.seconds = t.seconds := Int.sub_zero _
  rw [kept, validate_eq_ok.mpr ⟨rfl, ⟨lower, upper⟩, least, most⟩]
  rfl

theorem inRange_of_ofCodes {codes : CodePoints} {t : Timestamp} (read : ofCodes codes = .ok t) : t.InRange := by
  have valid {x : Except TimestampError Timestamp} {u : Timestamp} (isValid : x = validate u)
      (made : x.mapError TimestampTextError.invalid = .ok t) : t.InRange := by
    obtain ⟨rfl, inRange⟩ := validate_eq_ok.mp (isValid ▸ Result.mapError_eq_ok.mp made)
    exact inRange
  rw [ofCodes] at read
  split at read
  · dsimp only at read
    split at read
    · cases read
    · obtain ⟨shown, -, read⟩ := Result.bind_eq_ok.mp read
      split at read
      · cases read
      · split at read <;> obtain ⟨nanos, -, read⟩ := Result.bind_eq_ok.mp read <;>
          obtain ⟨east, -, made⟩ := Result.bind_eq_ok.mp read
        · exact valid rfl made
        · exact valid rfl made
  · cases read

end Timestamp

end ProtoBindings.Native
