import Mathlib.Computability.Language
import Mathlib.Data.List.TakeWhile
import Mathlib.Tactic.IntervalCases
import Vitae.Section.Item

/-! Texts that begin with a day.

A day is four, two and two digits with hyphens between them, and a time of it may follow
(`IsoText.form`): hours and minutes, perhaps seconds and a fraction, perhaps an offset. Which days
there are is said here apart from how they are found (`Calendar.HasDay`). The digits alone decide
which day is read, however the text goes on (`IsoText.ofIso?_eq`), and are what it is written with
again (`IsoText.padded_value`). So a day in this form is kept, and a text that names none stays as
it is (`Value.isoDate_never_shifts`). -/

namespace Vitae

/-! ### The calendar -/

namespace Calendar

/-- Every fourth year is a leap year, but of the centuries only every fourth one. -/
def Leap (year : Nat) : Prop := 4 ∣ year ∧ (100 ∣ year → 400 ∣ year)

instance (year : Nat) : Decidable (Leap year) :=
  inferInstanceAs (Decidable (4 ∣ year ∧ (100 ∣ year → 400 ∣ year)))

/-- How many days the months of a year have, from January on. -/
def monthLengths (year : Nat) : List Nat :=
  [31, if Leap year then 29 else 28, 31, 30, 31, 30, 31, 31, 30, 31, 30, 31]

/-- A day of a month of a year from 1 to 9999. -/
structure HasDay (year month day : Nat) : Prop where
  ofYears : 1 ≤ year ∧ year ≤ 9999
  fromJanuary : 1 ≤ month
  ofMonth : 1 ≤ day ∧ ∃ length ∈ (monthLengths year)[month - 1]?, day ≤ length

theorem isLeap_iff {year : Nat} : isLeap year = true ↔ Leap year := by
  simp only [isLeap, Leap, Bool.and_eq_true, Bool.or_eq_true, beq_iff_eq, bne_iff_ne,
    Nat.dvd_iff_mod_eq_zero]
  omega

theorem getElem?_monthLengths (year : Nat) {month : Nat} (h : 1 ≤ month) :
    (monthLengths year)[month - 1]? =
      if month ≤ 12 then some (daysInMonth year month) else none := by
  split
  · interval_cases month <;> simp [monthLengths, daysInMonth, isLeap_iff]
  · exact List.getElem?_eq_none (by simp [monthLengths]; omega)

theorem isReal_iff {year month day : Nat} :
    isReal year month day = true ↔ HasDay year month day := by
  simp only [isReal, Bool.and_eq_true, decide_eq_true_eq]
  constructor
  · rintro ⟨⟨⟨⟨⟨hyear, hlast⟩, hmonth⟩, hdecember⟩, hday⟩, hlength⟩
    refine ⟨⟨hyear, hlast⟩, hmonth, hday, ?_⟩
    rw [getElem?_monthLengths year hmonth, if_pos hdecember]
    exact ⟨_, rfl, hlength⟩
  · rintro ⟨⟨hyear, hlast⟩, hmonth, hday, length, hmem, hlength⟩
    rw [getElem?_monthLengths year hmonth] at hmem
    split at hmem
    · cases hmem
      exact ⟨⟨⟨⟨⟨hyear, hlast⟩, hmonth⟩, ‹_›⟩, hday⟩, hlength⟩
    · cases hmem

end Calendar

/-- A time of a day. -/
structure Clock.Proper (c : Clock) : Prop where
  hour : c.hour < 24
  minute : c.minute < 60
  second : c.second < 60

/-! ### Digits -/

namespace IsoText

/-- So many digits of ASCII. -/
def number (count : Nat) : Language Char := {w | w.length = count ∧ ∀ c ∈ w, c.isDigit = true}

/-- The number that digits write. -/
def value (w : List Char) : Nat := Nat.ofDigitChars 10 w 0

theorem mem_number_length {w : List Char} (h : w.all Char.isDigit = true) : w ∈ number w.length :=
  ⟨rfl, List.all_eq_true.mp h⟩

theorem asciiDigit?_of_isDigit {c : Char} (h : c.isDigit = true) :
    Text.asciiDigit? c = some (c.toNat - '0'.toNat) := by
  rw [Char.isDigit, Bool.and_eq_true, decide_eq_true_eq, decide_eq_true_eq] at h
  exact if_pos h

theorem digits_append {count : Nat} {ds : List Char} (h : ds ∈ number count) (rest : List Char)
    (start : Nat) :
    digits count (ds ++ rest) start = some (Nat.ofDigitChars 10 ds start, rest) := by
  obtain ⟨rfl, hdigits⟩ := h
  induction ds generalizing start with
  | nil => rfl
  | cons c ds ih =>
    obtain ⟨hc, hds⟩ := List.forall_mem_cons.mp hdigits
    simp only [List.length_cons, List.cons_append, digits, asciiDigit?_of_isDigit hc]
    rw [ih _ hds, Nat.ofDigitChars_cons]

theorem value_cons (c : Char) (cs : List Char) :
    value (c :: cs) = 10 ^ cs.length * (c.toNat - '0'.toNat) + value cs := by
  rw [value, value, Nat.ofDigitChars_cons, Nat.ofDigitChars_eq_ofDigitChars_zero]
  simp

theorem toNat_of_isDigit {c : Char} (h : c.isDigit = true) :
    '0'.toNat ≤ c.toNat ∧ c.toNat ≤ '0'.toNat + 9 := by
  rw [Char.isDigit, Bool.and_eq_true, decide_eq_true_eq, decide_eq_true_eq] at h
  exact h

theorem value_lt {count : Nat} {ds : List Char} (h : ds ∈ number count) :
    value ds < 10 ^ count := by
  obtain ⟨rfl, hdigits⟩ := h
  induction ds with
  | nil => simp [value, Nat.ofDigitChars_nil]
  | cons c ds ih =>
    obtain ⟨hc, hds⟩ := List.forall_mem_cons.mp hdigits
    have hrest := ih hds
    have hdigit : c.toNat - '0'.toNat ≤ 9 := by have := toNat_of_isDigit hc; omega
    have hfirst := Nat.mul_le_mul_left (10 ^ ds.length) hdigit
    rw [value_cons, List.length_cons, pow_succ]
    omega

/-- Digits are told by their count and their number. -/
theorem eq_of_value_eq {count : Nat} {ds es : List Char} (hds : ds ∈ number count)
    (hes : es ∈ number count) (h : value ds = value es) : ds = es := by
  induction count generalizing ds es with
  | zero => rw [List.eq_nil_of_length_eq_zero hds.1, List.eq_nil_of_length_eq_zero hes.1]
  | succ count ih =>
    obtain ⟨c, ds, rfl⟩ := List.exists_cons_of_length_eq_add_one hds.1
    obtain ⟨e, es, rfl⟩ := List.exists_cons_of_length_eq_add_one hes.1
    obtain ⟨hc, hds'⟩ := List.forall_mem_cons.mp hds.2
    obtain ⟨he, hes'⟩ := List.forall_mem_cons.mp hes.2
    have hds : ds ∈ number count := ⟨Nat.succ.inj hds.1, hds'⟩
    have hes : es ∈ number count := ⟨Nat.succ.inj hes.1, hes'⟩
    have hd := value_lt hds
    have hw := value_lt hes
    rw [value_cons, value_cons, hds.1, hes.1] at h
    -- The later digits write less than a unit of the first, so division leaves the first.
    have hdigit : c.toNat - '0'.toNat = e.toNat - '0'.toNat := by
      have hdiv := congrArg (· / 10 ^ count) h
      simpa [Nat.mul_add_div, Nat.div_eq_of_lt hd, Nat.div_eq_of_lt hw] using hdiv
    rw [hdigit] at h
    have hchar : c = e := by
      have hlow := (toNat_of_isDigit hc).1
      have hlow' := (toNat_of_isDigit he).1
      exact Char.toNat_inj.mp (by omega)
    rw [hchar, ih hds hes (Nat.add_left_cancel h)]

theorem toList_padded (count n : Nat) :
    (Decimal.padded count n).toList =
      List.replicate (count - (Nat.toDigits 10 n).length) '0' ++ Nat.toDigits 10 n := by
  simp only [Decimal.padded, Decimal.zeros, Nat.toString_eq_ofList_toDigits,
    String.length_ofList, String.toList_append, String.toList_ofList]

theorem value_padded (count n : Nat) : value (Decimal.padded count n).toList = n := by
  have hzeros (places : Nat) : Nat.ofDigitChars 10 (List.replicate places '0') 0 = 0 := by
    rw [Nat.ofDigitChars_replicate_zero, Nat.mul_zero]
  rw [toList_padded, value, Nat.ofDigitChars_append, hzeros, Nat.ofDigitChars_ten_toDigits]

/-- A number that has room is padded to as many digits. -/
theorem padded_mem_number {count n : Nat} (h : n < 10 ^ count) (hcount : 0 < count) :
    (Decimal.padded count n).toList ∈ number count := by
  have hlength := (Nat.length_toDigits_le_iff (by decide) hcount).mpr h
  rw [toList_padded]
  constructor
  · simp
    omega
  · intro c hc
    rcases List.mem_append.mp hc with hzero | hdigit
    · rw [List.eq_of_mem_replicate hzero]
      rfl
    · exact Nat.isDigit_of_mem_toDigits (by decide) (by decide) hdigit

/-- Digits are what their number is padded to. -/
theorem padded_value {count : Nat} {ds : List Char} (h : ds ∈ number count) (hcount : 0 < count) :
    Decimal.padded count (value ds) = String.ofList ds := by
  have hdigits := padded_mem_number (value_lt h) hcount
  have hsame := eq_of_value_eq hdigits h (value_padded count (value ds))
  exact String.toList_inj.mp (hsame.trans String.toList_ofList.symm)

/-! ### Forms -/

/-- One character, and no other. -/
def mark (c : Char) : Language Char := {w | w = [c]}

/-- Two digits that write a number below a bound. -/
def below (bound : Nat) : Language Char := {w | w ∈ number 2 ∧ value w < bound}

/-- One digit or more. -/
def decimals : Language Char := {w | w ≠ [] ∧ ∀ c ∈ w, c.isDigit = true}

def dayForm : Language Char := number 4 * mark '-' * number 2 * mark '-' * number 2

/-- Hours and minutes, and seconds if there are any, which may have a fraction. -/
def clockForm : Language Char :=
  below 24 * mark ':' * below 60 * (1 + mark ':' * below 60 * (1 + mark '.' * decimals))

/-- The letter of universal time, or hours and minutes ahead of it or behind. -/
def offsetForm : Language Char :=
  mark 'Z' + (mark '+' + mark '-') * below 24 * mark ':' * below 60

/-- What may follow a day: nothing, or a time of that day. -/
def tailForm : Language Char := 1 + (mark 'T' + mark ' ') * clockForm * (1 + offsetForm)

/-- A day, and perhaps a time of it. -/
def form : Language Char := dayForm * tailForm

/-- A mark between two words. -/
theorem mem_mul_mark_mul {c : Char} {l r : Language Char} {w : List Char} :
    w ∈ l * (mark c * r) ↔ ∃ u ∈ l, ∃ v ∈ r, w = u ++ c :: v := by
  simp only [Language.mem_mul]
  constructor
  · rintro ⟨u, hu, _, ⟨_, rfl, v, hv, rfl⟩, rfl⟩
    exact ⟨u, hu, v, hv, rfl⟩
  · rintro ⟨u, hu, v, hv, rfl⟩
    exact ⟨u, hu, _, ⟨[c], rfl, v, hv, rfl⟩, rfl⟩

theorem mem_mark_mul {c : Char} {l : Language Char} {w : List Char} :
    w ∈ mark c * l ↔ ∃ v ∈ l, w = c :: v := by
  rw [Language.mem_mul]
  constructor
  · rintro ⟨_, rfl, v, hv, rfl⟩
    exact ⟨v, hv, rfl⟩
  · rintro ⟨v, hv, rfl⟩
    exact ⟨[c], rfl, v, hv, rfl⟩

theorem mem_dayForm {w : List Char} :
    w ∈ dayForm ↔
      ∃ y ∈ number 4, ∃ m ∈ number 2, ∃ d ∈ number 2, w = y ++ '-' :: (m ++ '-' :: d) := by
  simp only [dayForm, mul_assoc, mem_mul_mark_mul]
  constructor
  · rintro ⟨y, hy, _, ⟨m, hm, d, hd, rfl⟩, rfl⟩
    exact ⟨y, hy, m, hm, d, hd, rfl⟩
  · rintro ⟨y, hy, m, hm, d, hd, rfl⟩
    exact ⟨y, hy, _, ⟨m, hm, d, hd, rfl⟩, rfl⟩

theorem mem_clockForm {w : List Char} :
    w ∈ clockForm ↔ ∃ h ∈ below 24, ∃ m ∈ below 60, w = h ++ ':' :: m ∨
      ∃ s ∈ below 60, w = h ++ ':' :: (m ++ ':' :: s) ∨
        ∃ f ∈ decimals, w = h ++ ':' :: (m ++ ':' :: (s ++ '.' :: f)) := by
  simp only [clockForm, mul_assoc, mul_add, mul_one, Language.mem_add, mem_mul_mark_mul]
  constructor
  · rintro (⟨h, hh, m, hm, rfl⟩ | ⟨h, hh, _, ⟨m, hm, s, hs, rfl⟩, rfl⟩ |
      ⟨h, hh, _, ⟨m, hm, _, ⟨s, hs, f, hf, rfl⟩, rfl⟩, rfl⟩)
    · exact ⟨h, hh, m, hm, .inl rfl⟩
    · exact ⟨h, hh, m, hm, .inr ⟨s, hs, .inl rfl⟩⟩
    · exact ⟨h, hh, m, hm, .inr ⟨s, hs, .inr ⟨f, hf, rfl⟩⟩⟩
  · rintro ⟨h, hh, m, hm, rfl | ⟨s, hs, rfl | ⟨f, hf, rfl⟩⟩⟩
    · exact .inl ⟨h, hh, m, hm, rfl⟩
    · exact .inr (.inl ⟨h, hh, _, ⟨m, hm, s, hs, rfl⟩, rfl⟩)
    · exact .inr (.inr ⟨h, hh, _, ⟨m, hm, _, ⟨s, hs, f, hf, rfl⟩, rfl⟩, rfl⟩)

theorem mem_offsetForm {w : List Char} :
    w ∈ offsetForm ↔ w = ['Z'] ∨ ∃ sign, (sign = '+' ∨ sign = '-') ∧
      ∃ h ∈ below 24, ∃ m ∈ below 60, w = sign :: (h ++ ':' :: m) := by
  simp only [offsetForm, mul_assoc, add_mul, Language.mem_add, mem_mark_mul, mem_mul_mark_mul]
  constructor
  · rintro (rfl | ⟨_, ⟨h, hh, m, hm, rfl⟩, rfl⟩ | ⟨_, ⟨h, hh, m, hm, rfl⟩, rfl⟩)
    · exact .inl rfl
    · exact .inr ⟨'+', .inl rfl, h, hh, m, hm, rfl⟩
    · exact .inr ⟨'-', .inr rfl, h, hh, m, hm, rfl⟩
  · rintro (rfl | ⟨sign, rfl | rfl, h, hh, m, hm, rfl⟩)
    · exact .inl rfl
    · exact .inr (.inl ⟨_, ⟨h, hh, m, hm, rfl⟩, rfl⟩)
    · exact .inr (.inr ⟨_, ⟨h, hh, m, hm, rfl⟩, rfl⟩)

theorem mem_tailForm {w : List Char} :
    w ∈ tailForm ↔ w = [] ∨ ∃ separator, (separator = 'T' ∨ separator = ' ') ∧
      ∃ c ∈ clockForm, ∃ z, (z = [] ∨ z ∈ offsetForm) ∧ w = separator :: (c ++ z) := by
  simp only [tailForm, mul_assoc, add_mul, Language.mem_add, mem_mark_mul, Language.mem_one]
  have hrest {v : List Char} : v ∈ clockForm * (1 + offsetForm) ↔
      ∃ c ∈ clockForm, ∃ z, (z = [] ∨ z ∈ offsetForm) ∧ v = c ++ z := by
    simp only [Language.mem_mul, Language.mem_add, Language.mem_one]
    exact exists_congr fun c => and_congr_right fun _ => exists_congr fun z =>
      and_congr_right fun _ => eq_comm
  simp only [hrest]
  refine or_congr_right ⟨?_, ?_⟩
  · rintro (⟨_, ⟨c, hc, z, hz, rfl⟩, rfl⟩ | ⟨_, ⟨c, hc, z, hz, rfl⟩, rfl⟩)
    · exact ⟨'T', .inl rfl, c, hc, z, hz, rfl⟩
    · exact ⟨' ', .inr rfl, c, hc, z, hz, rfl⟩
  · rintro ⟨separator, rfl | rfl, c, hc, z, hz, rfl⟩
    · exact .inl ⟨_, ⟨c, hc, z, hz, rfl⟩, rfl⟩
    · exact .inr ⟨_, ⟨c, hc, z, hz, rfl⟩, rfl⟩

/-! ### Reading times -/

variable {part : Part} {later : List Part} {colons : Bool} {clock : Clock} {ds rest : List Char}

theorem parts_end (hds : ds ∈ number 2) :
    parts colons clock (part :: later) ds = some ⟨part.put (value ds) clock, true⟩ := by
  have hread := digits_append hds [] 0
  rw [List.append_nil] at hread
  show (digits 2 ds 0 >>= _) = _
  rw [hread]
  rfl

/-- After a part comes a colon, and the rest of the time. -/
theorem parts_colon (hds : ds ∈ number 2) (hrest : rest ≠ [])
    (hcolons : part = .hour ∨ colons = true) :
    parts colons clock (part :: later) (ds ++ ':' :: rest) =
      parts true (part.put (value ds) clock) later rest := by
  obtain ⟨c, rest, rfl⟩ := List.exists_cons_of_ne_nil hrest
  show (digits 2 (ds ++ ':' :: c :: rest) 0 >>= _) = _
  rw [digits_append hds]
  rcases hcolons with rfl | rfl
  · rfl
  · cases part <;> rfl

theorem parts_point (hds : ds ∈ number 2) (hrest : rest ≠ []) :
    parts true clock (.second :: later) (ds ++ '.' :: rest) =
      fraction (Part.second.put (value ds) clock) rest := by
  obtain ⟨c, rest, rfl⟩ := List.exists_cons_of_ne_nil hrest
  show (digits 2 (ds ++ '.' :: c :: rest) 0 >>= _) = _
  rw [digits_append hds]
  rfl

/-- A fraction of digits is read to its end. -/
theorem exists_fraction {f : List Char} (hf : f ∈ decimals) :
    ∃ micro, fraction clock f = some ⟨{ clock with micro := micro }, true⟩ := by
  have htake : f.take (min 6 f.length) ∈ number (min 6 f.length) :=
    ⟨by simp, fun c hc => hf.2 c (List.mem_of_mem_take hc)⟩
  have hread := digits_append htake (f.drop (min 6 f.length)) 0
  rw [List.take_append_drop] at hread
  have hdrop : ((f.drop (min 6 f.length)).dropWhile fun c => (Text.asciiDigit? c).isSome) = [] := by
    refine List.dropWhile_eq_nil_iff.mpr fun c hc => ?_
    rw [asciiDigit?_of_isDigit (hf.2 c (List.mem_of_mem_drop hc))]
    rfl
  exact ⟨_, by simp [fraction, hread, hdrop]; rfl⟩

theorem ne_nil_of_mem_number {count : Nat} (h : ds ∈ number (count + 1)) : ds ≠ [] :=
  List.ne_nil_of_length_eq_add_one h.1

/-- Every time of the form is read to its end, as one of a day. -/
theorem exists_time {w : List Char} (hw : w ∈ clockForm) :
    ∃ clock : Clock, time w = some ⟨clock, true⟩ ∧ clock.Proper := by
  obtain ⟨h, hh, m, hm, hparts⟩ := mem_clockForm.mp hw
  unfold time
  rcases hparts with rfl | ⟨s, hs, rfl | ⟨f, hf, rfl⟩⟩
  · rw [parts_colon hh.1 (ne_nil_of_mem_number hm.1) (.inl rfl), parts_end hm.1]
    exact ⟨_, rfl, hh.2, hm.2, Nat.zero_lt_succ _⟩
  · rw [parts_colon hh.1 (by simp) (.inl rfl),
      parts_colon hm.1 (ne_nil_of_mem_number hs.1) (.inr rfl), parts_end hs.1]
    exact ⟨_, rfl, hh.2, hm.2, hs.2⟩
  · rw [parts_colon hh.1 (by simp) (.inl rfl), parts_colon hm.1 (by simp) (.inr rfl),
      parts_point hs.1 hf.1]
    obtain ⟨micro, hmicro⟩ := exists_fraction hf
    exact ⟨_, hmicro, hh.2, hm.2, hs.2⟩

/-- An offset is shorter than a day. -/
theorem exists_offset {w : List Char} (hw : w ∈ clockForm) (negative : Bool) :
    ∃ micros, offset negative w = some micros := by
  obtain ⟨clock, hclock, hproper⟩ := exists_time hw
  have hshort : clock.seconds < 86400 := by
    obtain ⟨hhour, hminute, hsecond⟩ := hproper
    unfold Clock.seconds
    omega
  exact ⟨_, by simp [offset, hclock, hshort]; rfl⟩

/-- What times are written with. -/
def isOfTime (c : Char) : Bool := c.isDigit || c == ':' || c == '.'

theorem isOfTime_of_mem_clockForm {w : List Char} (hw : w ∈ clockForm) :
    ∀ c ∈ w, isOfTime c = true := by
  have hdigits {ds : List Char} (hds : ∀ c ∈ ds, c.isDigit = true) : ∀ c ∈ ds, isOfTime c = true :=
    fun c hc => by simp [isOfTime, hds c hc]
  have hcolon : isOfTime ':' = true := by decide
  have hpoint : isOfTime '.' = true := by decide
  obtain ⟨h, hh, m, hm, hparts⟩ := mem_clockForm.mp hw
  have hhours := hdigits hh.1.2
  have hminutes := hdigits hm.1.2
  rcases hparts with rfl | ⟨s, hs, rfl | ⟨f, hf, rfl⟩⟩
  · simp only [List.forall_mem_append, List.forall_mem_cons]
    exact ⟨hhours, hcolon, hminutes⟩
  · simp only [List.forall_mem_append, List.forall_mem_cons]
    exact ⟨hhours, hcolon, hminutes, hcolon, hdigits hs.1.2⟩
  · simp only [List.forall_mem_append, List.forall_mem_cons]
    exact ⟨hhours, hcolon, hminutes, hcolon, hdigits hs.1.2, hpoint, hdigits hf.2⟩

theorem isSign_of_isOfTime {c : Char} (h : isOfTime c = true) : isSign c = false := by
  by_contra hsign
  rw [Bool.not_eq_false, isSign, Bool.or_eq_true, beq_iff_eq, beq_iff_eq] at hsign
  rcases hsign with rfl | rfl <;> cases h

/-- An offset as it is read: a sign, and a time after it. -/
def Signed (z : List Char) : Prop := ∃ sign w, isSign sign = true ∧ w ∈ clockForm ∧ z = sign :: w

theorem exists_clockAndOffset {w z : List Char} (hw : w ∈ clockForm) (hz : z = [] ∨ Signed z) :
    ∃ found, clockAndOffset (w ++ z) = some found := by
  obtain ⟨clock, hclock, hproper⟩ := exists_time hw
  -- No character of a time is a sign, so the text is cut where the offset begins.
  have hunsigned : ∀ c ∈ w, (!isSign c) = true := fun c hc => by
    rw [isSign_of_isOfTime (isOfTime_of_mem_clockForm hw c hc)]
    rfl
  have htake : (w ++ z).takeWhile (fun c => !isSign c) = w := by
    rw [List.takeWhile_append_of_pos hunsigned]
    rcases hz with rfl | ⟨sign, v, hsign, _, rfl⟩ <;> simp [*]
  have hdrop : (w ++ z).dropWhile (fun c => !isSign c) = z := by
    rw [List.dropWhile_append_of_pos hunsigned]
    rcases hz with rfl | ⟨sign, v, hsign, _, rfl⟩ <;> simp [*]
  obtain ⟨hhour, hminute, hsecond⟩ := hproper
  unfold clockAndOffset
  rw [htake, hdrop, hclock]
  rcases hz with rfl | ⟨sign, v, _, hv, rfl⟩
  · exact ⟨_, by simp [hhour, hminute, hsecond]; rfl⟩
  · obtain ⟨micros, hmicros⟩ := exists_offset hv (sign == '-')
    exact ⟨_, by simp [hhour, hminute, hsecond, hmicros]; rfl⟩

/-! ### Universal time -/

theorem spelledOut_append (a b : List Char) : spelledOut (a ++ b) = spelledOut a ++ spelledOut b :=
  List.flatMap_append

theorem spelledOut_of_not_mem {w : List Char} (h : 'Z' ∉ w) : spelledOut w = w := by
  have hsame : spelledOut w = w.flatMap fun c => [c] := by
    refine List.flatMap_congr fun c hc => if_neg ?_
    rintro rfl
    exact h hc
  rw [hsame, List.flatMap_singleton']

theorem not_mem_of_isOfTime {w : List Char} (h : ∀ c ∈ w, isOfTime c = true) : 'Z' ∉ w :=
  fun hmem => absurd (h 'Z' hmem) (by decide)

/-- Offsets are spelled out as signed times. -/
theorem signed_spelledOut {z : List Char} (hz : z ∈ offsetForm) : Signed (spelledOut z) := by
  rcases mem_offsetForm.mp hz with rfl | ⟨sign, hsign, h, hh, m, hm, rfl⟩
  · have hzero : ['0', '0'] ∈ number 2 := mem_number_length rfl
    have hmidnight : ['0', '0', ':', '0', '0'] ∈ clockForm :=
      mem_clockForm.mpr ⟨['0', '0'], ⟨hzero, by decide⟩, ['0', '0'], ⟨hzero, by decide⟩, .inl rfl⟩
    exact ⟨'+', _, rfl, hmidnight, rfl⟩
  · have hclock : h ++ ':' :: m ∈ clockForm := mem_clockForm.mpr ⟨h, hh, m, hm, .inl rfl⟩
    have hword := not_mem_of_isOfTime (isOfTime_of_mem_clockForm hclock)
    have hsame : spelledOut (sign :: (h ++ ':' :: m)) = sign :: (h ++ ':' :: m) := by
      refine spelledOut_of_not_mem fun hmem => ?_
      rcases List.mem_cons.mp hmem with heq | hmem
      · rcases hsign with rfl | rfl <;> cases heq
      · exact hword hmem
    rw [hsame]
    refine ⟨sign, _, ?_, hclock, rfl⟩
    rcases hsign with rfl | rfl <;> rfl

/-! ### Reading days -/

variable {y m d : List Char}

theorem ne_week {c : Char} (h : c.isDigit = true) : c ≠ 'W' := by
  rintro rfl
  cases h

/-- A day of digits with hyphens is read as what its digits write. -/
theorem date_eq (hy : y ∈ number 4) (hm : m ∈ number 2) (hd : d ∈ number 2) :
    date (y ++ '-' :: (m ++ '-' :: d)) = Date.of? (value y) (value m) (value d) := by
  have hmonth := digits_append hm ('-' :: d) 0
  have hday := digits_append hd [] 0
  -- The first digit of the month shows that no week follows.
  obtain ⟨first, second, rfl⟩ := List.length_eq_two.mp hm.1
  have hfirst := ne_week (hm.2 first (List.mem_cons_self ..))
  rw [List.append_nil] at hday
  simp only [List.cons_append, List.nil_append] at hmonth ⊢
  rw [date, digits_append hy]
  simp [hyphen, hmonth, hday, hfirst, value]

theorem length_day (hy : y ∈ number 4) (hm : m ∈ number 2) (hd : d ∈ number 2) :
    (y ++ '-' :: (m ++ '-' :: d)).length = 10 := by
  simp [hy.1, hm.1, hd.1]

/-- The form of a day shows where it ends, whatever follows. -/
theorem dateLength_eq (hy : y ∈ number 4) (hm : m ∈ number 2) (hd : d ∈ number 2)
    (rest : List Char) : dateLength (y ++ '-' :: (m ++ '-' :: d) ++ rest) = 10 := by
  have hlength : (y ++ '-' :: (m ++ '-' :: d) ++ rest).length ≠ 7 := by
    rw [List.length_append, length_day hy hm hd]
    omega
  have hhyphen : (y ++ '-' :: (m ++ '-' :: d) ++ rest)[4]? = some '-' := by
    simp [hy.1]
  obtain ⟨first, second, rfl⟩ := List.length_eq_two.mp hm.1
  have hfirst := ne_week (hm.2 first (List.mem_cons_self ..))
  have hmonth : (y ++ '-' :: ([first, second] ++ '-' :: d) ++ rest)[5]? = some first := by
    simp [List.getElem?_append, hy.1]
  simp only [dateLength, hlength, hhyphen, hmonth, Option.some.injEq, hfirst, if_true, if_false]

theorem not_mem_of_digits {ds : List Char} (h : ∀ c ∈ ds, c.isDigit = true) : 'Z' ∉ ds :=
  fun hmem => absurd (h 'Z' hmem) (by decide)

theorem spelledOut_day (hy : y ∈ number 4) (hm : m ∈ number 2) (hd : d ∈ number 2) :
    spelledOut (y ++ '-' :: (m ++ '-' :: d)) = y ++ '-' :: (m ++ '-' :: d) := by
  refine spelledOut_of_not_mem ?_
  simp [not_mem_of_digits hy.2, not_mem_of_digits hm.2, not_mem_of_digits hd.2]

/-- What follows a day is read to its end. -/
theorem exists_tail {tail : List Char} (htail : tail ∈ tailForm) :
    spelledOut tail = [] ∨ ∃ separator rest found, spelledOut tail = separator :: rest ∧
      clockAndOffset rest = some found := by
  rcases mem_tailForm.mp htail with rfl | ⟨separator, hseparator, c, hc, z, hz, rfl⟩
  · exact .inl rfl
  · have hmark : 'Z' ∉ [separator] := by rcases hseparator with rfl | rfl <;> decide
    have hclock := not_mem_of_isOfTime (isOfTime_of_mem_clockForm hc)
    have hspelled : spelledOut (separator :: (c ++ z)) = separator :: (c ++ spelledOut z) := by
      show spelledOut ([separator] ++ (c ++ z)) = [separator] ++ (c ++ spelledOut z)
      rw [spelledOut_append, spelledOut_append, spelledOut_of_not_mem hmark,
        spelledOut_of_not_mem hclock]
    have hsigned : spelledOut z = [] ∨ Signed (spelledOut z) :=
      hz.imp (fun hnil => by rw [hnil]; rfl) signed_spelledOut
    obtain ⟨found, hfound⟩ := exists_clockAndOffset hc hsigned
    exact .inr ⟨separator, _, found, hspelled, hfound⟩

/-- What follows a day does not change which day is read. -/
theorem ofIso?_eq {text : String} {tail : List Char} (hy : y ∈ number 4) (hm : m ∈ number 2)
    (hd : d ∈ number 2) (htail : tail ∈ tailForm)
    (h : text.toList = y ++ '-' :: (m ++ '-' :: d) ++ tail) :
    Date.ofIso? text = Date.of? (value y) (value m) (value d) := by
  have hspelled : spelledOut text.toList = y ++ '-' :: (m ++ '-' :: d) ++ spelledOut tail := by
    rw [h, spelledOut_append, spelledOut_day hy hm hd]
  have hlength := length_day hy hm hd
  have hlong : ¬ (y ++ '-' :: (m ++ '-' :: d) ++ spelledOut tail).length < 7 := by
    rw [List.length_append, hlength]
    omega
  rw [Date.ofIso?, Moment.ofIso?]
  simp only [hspelled, hlong, if_false, dateLength_eq hy hm hd, List.take_left' hlength,
    List.drop_left' hlength, date_eq hy hm hd]
  cases hday : Date.of? (value y) (value m) (value d) with
  | none => rfl
  | some day =>
    rcases exists_tail htail with hnil | ⟨separator, rest, found, hcons, hfound⟩
    · simp [hnil]
    · simp [hcons, hfound]

end IsoText

namespace Date

/-- A date that digits write is written as they write it. -/
theorem text_eq {y m d : List Char} (hy : y ∈ IsoText.number 4) (hm : m ∈ IsoText.number 2)
    (hd : d ∈ IsoText.number 2) {date : Date}
    (h : Date.of? (IsoText.value y) (IsoText.value m) (IsoText.value d) = some date) :
    date.text = String.ofList (y ++ '-' :: (m ++ '-' :: d)) := by
  unfold of? at h
  split at h
  · cases h
    simp only [Date.text, IsoText.padded_value hy (by decide), IsoText.padded_value hm (by decide),
      IsoText.padded_value hd (by decide)]
    have hhyphen : "-" = String.ofList ['-'] := rfl
    rw [hhyphen, ← String.ofList_append, ← String.ofList_append, ← String.ofList_append,
      ← String.ofList_append]
    simp
  · cases h

end Date

namespace IsoText

/-- The first characters of a text name a day, as digits that write its year, month and place
in the month. -/
def NamesDay (cs : List Char) : Prop :=
  Calendar.HasDay (value (cs.take 4)) (value ((cs.drop 5).take 2)) (value ((cs.drop 8).take 2))

theorem namesDay_iff {y m d : List Char} (hy : y ∈ number 4) (hm : m ∈ number 2)
    (hd : d ∈ number 2) (tail : List Char) :
    NamesDay (y ++ '-' :: (m ++ '-' :: d) ++ tail) ↔
      Calendar.HasDay (value y) (value m) (value d) := by
  have hyear : (y ++ '-' :: (m ++ '-' :: d) ++ tail).take 4 = y := by
    simp [hy.1]
  have hmonth : ((y ++ '-' :: (m ++ '-' :: d) ++ tail).drop 5).take 2 = m := by
    simp [List.drop_append, List.take_append, hy.1, hm.1]
  have hday : ((y ++ '-' :: (m ++ '-' :: d) ++ tail).drop 8).take 2 = d := by
    have hpast : y.drop 8 = [] ∧ m.drop 3 = [] :=
      ⟨List.drop_eq_nil_of_le (by rw [hy.1]; decide), List.drop_eq_nil_of_le (by rw [hm.1]; decide)⟩
    simp [List.drop_append, hy.1, hm.1, hd.1, hpast]
  rw [NamesDay, hyear, hmonth, hday]

end IsoText

namespace Value

open IsoText in
/-- **A date is never shifted**: a text that is a day, perhaps with a time, in the form of digits
gives that day as it is written, if there is such a day, and stays as it is otherwise. -/
theorem isoDate_never_shifts {text : String} (h : text.toList ∈ form) :
    (NamesDay text.toList → isoDate (.str text) = .str (String.ofList (text.toList.take 10))) ∧
      (¬ NamesDay text.toList → isoDate (.str text) = .str text) := by
  obtain ⟨_, hday, tail, htail, htext⟩ := Language.mem_mul.mp h
  obtain ⟨y, hy, m, hm, d, hd, rfl⟩ := mem_dayForm.mp hday
  have hread := ofIso?_eq hy hm hd htail htext.symm
  rw [← htext, namesDay_iff hy hm hd, List.take_left' (length_day hy hm hd),
    ← Calendar.isReal_iff]
  constructor
  · intro hreal
    have hof : Date.of? (value y) (value m) (value d) = some ⟨_, _, _, hreal⟩ := dif_pos hreal
    rw [hof] at hread
    simp only [isoDate, hread, Date.text_eq hy hm hd hof]
  · intro hunreal
    have hof : Date.of? (value y) (value m) (value d) = none := dif_neg hunreal
    rw [hof] at hread
    simp only [isoDate, hread]

/-- The last moments of a leap day, with more of a fraction than counts, behind universal time. -/
def lateOnLeapDay : String := "2024-02-29 23:59:59.9999999-05:30"

open IsoText in
theorem isoDate_never_shifts_lateOnLeapDay :
    lateOnLeapDay.toList ∈ form ∧ NamesDay lateOnLeapDay.toList ∧
      isoDate (.str lateOnLeapDay) = .str "2024-02-29" := by
  have hpair {bound : Nat} {a b : Char} (ha : a.isDigit = true) (hb : b.isDigit = true)
      (hbound : value [a, b] < bound) : [a, b] ∈ below bound := ⟨⟨rfl, by simp [ha, hb]⟩, hbound⟩
  have hday : "2024-02-29".toList ∈ dayForm :=
    mem_dayForm.mpr ⟨"2024".toList, mem_number_length rfl, "02".toList, mem_number_length rfl,
      "29".toList, mem_number_length rfl, rfl⟩
  have hclock : "23:59:59.9999999".toList ∈ clockForm :=
    mem_clockForm.mpr ⟨"23".toList, hpair rfl rfl (by decide), "59".toList,
      hpair rfl rfl (by decide), .inr ⟨"59".toList, hpair rfl rfl (by decide),
        .inr ⟨"9999999".toList, ⟨by decide, (mem_number_length rfl).2⟩, rfl⟩⟩⟩
  have hoffset : "-05:30".toList ∈ offsetForm :=
    mem_offsetForm.mpr (.inr ⟨'-', .inr rfl, "05".toList, hpair rfl rfl (by decide),
      "30".toList, hpair rfl rfl (by decide), rfl⟩)
  have hform : lateOnLeapDay.toList ∈ form :=
    Language.mem_mul.mpr ⟨_, hday, _,
      mem_tailForm.mpr (.inr ⟨' ', .inr rfl, _, hclock, _, .inr hoffset, rfl⟩), rfl⟩
  have hreal : NamesDay lateOnLeapDay.toList := Calendar.isReal_iff.mp (by decide)
  exact ⟨hform, hreal, (isoDate_never_shifts hform).1 hreal⟩

end Value

end Vitae
