import Vitae.Proofs.DateTexts

/-! Dates in one form.

What a date is written with is a day of digits (`Date.isDay_text`), and it is read as that date
again (`Date.ofIso?_text`). So a value that stands for a date, in whatever form a text may give it,
is brought to one form at once, and a value in that form stays as it is, like one that stands for no
date (`Value.isoDate_settles`). -/

namespace Vitae

namespace Calendar

theorem daysInMonth_le (year month : Nat) : daysInMonth year month ≤ 31 := by
  unfold daysInMonth
  split
  · split <;> decide
  · split <;> decide

/-- Four, two and two digits are enough for every day. -/
theorem lt_of_isReal {year month day : Nat} (h : isReal year month day = true) :
    year < 10 ^ 4 ∧ month < 10 ^ 2 ∧ day < 10 ^ 2 := by
  simp only [isReal, Bool.and_eq_true, decide_eq_true_eq] at h
  have hday := daysInMonth_le year month
  omega

end Calendar

/-- A text of ten characters that names a day of the calendar, as digits with hyphens. -/
def IsoText.IsDay (text : String) : Prop := text.toList ∈ dayForm ∧ NamesDay text.toList

namespace Date

open IsoText

theorem of?_self (d : Date) : of? d.year d.month d.day = some d := dif_pos d.real

/-- A date is written with the digits of its year, month and day. -/
theorem exists_digits (d : Date) : ∃ y ∈ number 4, ∃ m ∈ number 2, ∃ n ∈ number 2,
    of? (value y) (value m) (value n) = some d ∧ d.text.toList = y ++ '-' :: (m ++ '-' :: n) := by
  obtain ⟨hyear, hmonth, hday⟩ := Calendar.lt_of_isReal d.real
  have hy := padded_mem_number hyear (by decide)
  have hm := padded_mem_number hmonth (by decide)
  have hn := padded_mem_number hday (by decide)
  have hof : of? (value (Decimal.padded 4 d.year).toList) (value (Decimal.padded 2 d.month).toList)
      (value (Decimal.padded 2 d.day).toList) = some d := by
    simp only [value_padded]
    exact d.of?_self
  refine ⟨_, hy, _, hm, _, hn, hof, ?_⟩
  rw [text_eq hy hm hn hof, String.toList_ofList]

/-- What is written for a date is read as that date. -/
theorem ofIso?_text (d : Date) : Date.ofIso? d.text = some d := by
  obtain ⟨y, hy, m, hm, n, hn, hof, htext⟩ := d.exists_digits
  rw [ofIso?_eq hy hm hn (mem_tailForm.mpr (.inl rfl)) (htext.trans (List.append_nil _).symm), hof]

theorem isDay_text (d : Date) : IsDay d.text := by
  obtain ⟨y, hy, m, hm, n, hn, hof, htext⟩ := d.exists_digits
  refine ⟨mem_dayForm.mpr ⟨y, hy, m, hm, n, hn, htext⟩, ?_⟩
  rw [htext, ← List.append_nil (y ++ _), namesDay_iff hy hm hn, ← Calendar.isReal_iff]
  unfold of? at hof
  split at hof
  · assumption
  · cases hof

end Date

namespace Value

/-- The date that a value stands for: it is one, or a moment of one, or a text that reads as one. -/
def date? : Value → Option Date
  | .date d => some d
  | .moment m => some m.date
  | .str s => Date.ofIso? s
  | _ => none

variable {v : Value} {d : Date}

theorem isoDate_of_date (h : v.date? = some d) : v.isoDate = .str d.text := by
  cases v with
  | date found => cases h; rfl
  | moment m => cases h; rfl
  | str s =>
    have hread : Date.ofIso? s = some d := h
    simp only [isoDate, hread]
  | _ => cases h

theorem isoDate_of_no_date (h : v.date? = none) : v.isoDate = v := by
  cases v with
  | date found => cases h
  | moment m => cases h
  | str s =>
    have hread : Date.ofIso? s = none := h
    simp only [isoDate, hread]
  | _ => rfl

/-- A date that was brought to one form is read as it was. -/
theorem isoDate_again (h : v.date? = some d) : v.isoDate.isoDate = v.isoDate := by
  have hread : date? (.str d.text) = some d := d.ofIso?_text
  rw [isoDate_of_date h, isoDate_of_date hread]

/-- What bringing a value to one form leads to. -/
structure Settles (v : Value) : Prop where
  /-- An item that asks a record for such a date gets an answer, whatever stands there. -/
  given : ∀ record name, field record name = v →
    (Item.Source.date name).value record = .ok v.isoDate
  again : v.isoDate.isoDate = v.isoDate
  ofText : ∀ s, v = .str s → v.isoDate = v ∨ ∃ day, v.isoDate = .str day ∧ IsoText.IsDay day
  dated : ∀ d, v.date? = some d →
    ∃ day, v.isoDate = .str day ∧ IsoText.IsDay day ∧ Date.ofIso? day = some d
  undated : v.date? = none → v.isoDate = v

/-- **Every value is brought to one form at once, and a value in that form stays as it is.** -/
theorem isoDate_settles (v : Value) : v.Settles := by
  have hgiven : ∀ record name, field record name = v →
      (Item.Source.date name).value record = .ok v.isoDate := by
    rintro record name rfl
    rfl
  cases hdate : v.date? with
  | none =>
    have hself := isoDate_of_no_date hdate
    exact
      { given := hgiven
        again := congrArg isoDate hself
        ofText := fun _ _ => .inl hself
        dated := fun _ h => absurd (hdate.symm.trans h) nofun
        undated := fun _ => hself }
  | some d =>
    have hday := isoDate_of_date hdate
    exact
      { given := hgiven
        again := isoDate_again hdate
        ofText := fun _ _ => .inr ⟨d.text, hday, d.isDay_text⟩
        dated := fun e h => by
          cases hdate.symm.trans h
          exact ⟨d.text, hday, d.isDay_text, d.ofIso?_text⟩
        undated := fun h => absurd (hdate.symm.trans h) nofun }

example : (Value.str "2020-W53-7").isoDate = .str "2021-01-03" := by rfl

end Value

end Vitae
