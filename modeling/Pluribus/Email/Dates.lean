import Mathlib.Order.Monotone.Basic
import Pluribus.Email.Compose

namespace Pluribus.Email

open List

def isLeap (year : Int) : Bool := year % 4 = 0 && (year % 100 ≠ 0 || year % 400 = 0)

def daysInMonth (year : Int) (month : Nat) : Nat :=
  if month = 2 then if isLeap year then 29 else 28 else if month ∈ [4, 6, 9, 11] then 30 else 31

/-- The calendar successor of a date. -/
def nextDay : Int × Nat × Nat → Int × Nat × Nat
  | (year, month, day) =>
    if day < daysInMonth year month then (year, month, day + 1)
    else if month = 12 then (year + 1, 1, 1) else (year, month + 1, 1)

def IsDate (date : Int × Nat × Nat) : Prop :=
  1 ≤ date.2.1 ∧ date.2.1 ≤ 12 ∧ 1 ≤ date.2.2 ∧ date.2.2 ≤ daysInMonth date.1 date.2.1

/-- The days of an era before one of its years, which begin in March. -/
def yearStart (y : Nat) : Nat := 365 * y + y / 4 - y / 100 + y / 400

def yearDays (n : Nat) : Nat := n - n / 1460 + n / 36524 - n / 146096

def monthOf (doy : Nat) : Nat := if (5 * doy + 2) / 153 < 10 then (5 * doy + 2) / 153 + 3 else (5 * doy + 2) / 153 - 9

def dayOf (doy : Nat) : Nat := doy - (153 * ((5 * doy + 2) / 153) + 2) / 5 + 1

/-- The date of a day of a year of an era. -/
def dateOf (era : Int) (y doy : Nat) : Int × Nat × Nat :=
  (y + era * 400 + if monthOf doy ≤ 2 then 1 else 0, monthOf doy, dayOf doy)

theorem yearDays_monotone : Monotone yearDays := by
  apply monotone_nat_of_le_succ
  unfold yearDays
  omega

theorem yearStart_lt (y : Nat) : yearStart y < yearStart (y + 1) := by
  unfold yearStart
  omega

/-- The year of a day: only the first and the last day of a year need to be looked at. -/
theorem yearDays_div {y n : Nat} (hy : y < 400) (hstart : yearStart y ≤ n) (hend : n < yearStart (y + 1)) :
    yearDays n / 365 = y := by
  have hbounds : ∀ y < 400, 365 * y ≤ yearDays (yearStart y) ∧ yearDays (yearStart (y + 1) - 1) < 365 * (y + 1) := by
    decide +kernel
  have hlow := yearDays_monotone hstart
  have hhigh := yearDays_monotone (Nat.le_sub_one_of_lt hend)
  have hyear := hbounds y hy
  apply Nat.div_eq_of_lt_le <;> omega

theorem exists_year {n m : Nat} (h : n < yearStart m) : ∃ y < m, yearStart y ≤ n ∧ n < yearStart (y + 1) := by
  induction m with
  | zero => simp [yearStart] at h
  | succ m ih =>
    by_cases hlast : n < yearStart m
    · obtain ⟨y, hy, hyear⟩ := ih hlast
      exact ⟨y, by omega, hyear⟩
    · exact ⟨m, by omega, by omega, h⟩

theorem yearStart_lt_era {y n : Nat} (hy : y < 400) (h : n < yearStart (y + 1)) : n < 146097 := by
  unfold yearStart at h
  omega

theorem yearStart_succ_le : ∀ y < 400, yearStart (y + 1) ≤ yearStart y + 366 := by
  decide +kernel

/-- The values of the closed form for a day of a year of an era. -/
theorem civil_values {days era : Int} {y doy n : Nat} (hy : y < 400) (hdoy : yearStart y + doy < yearStart (y + 1))
    (hn : yearStart y + doy = n) (hdays : days + 719468 = era * 146097 + n) :
    (days + 719468) / 146097 = era ∧ (days + 719468) % 146097 = n ∧
      ((n : Int) - (n : Int).tdiv 1460 + (n : Int).tdiv 36524 - (n : Int).tdiv 146096).tdiv 365 = y ∧
      (n : Int) - (365 * y + (y : Int).tdiv 4 - (y : Int).tdiv 100) = doy ∧ n < 146097 ∧ doy < 366 := by
  have hyear := yearDays_div hy (Nat.le_add_right _ doy) hdoy
  have hlength := yearStart_succ_le y hy
  rw [hn] at hdoy hyear
  have hera := yearStart_lt_era hy hdoy
  have hstart : yearStart y = 365 * y + y / 4 - y / 100 := by
    unfold yearStart
    omega
  have hyears : (n : Int) - n / 1460 + n / 36524 - n / 146096 = yearDays n := by
    unfold yearDays
    omega
  simp (disch := omega) only [Int.tdiv_eq_ediv_of_nonneg, hyears]
  exact ⟨by omega, by omega, by omega, by omega, hera, by omega⟩

theorem civilFromDays_eq {days era : Int} {y doy : Nat} (hy : y < 400) (hdoy : yearStart y + doy < yearStart (y + 1))
    (hdays : days + 719468 = era * 146097 + (yearStart y + doy : Nat)) : civilFromDays days = dateOf era y doy := by
  obtain ⟨hera, hrest, hyear, hday, -, hshort⟩ := civil_values hy hdoy rfl hdays
  have hmonth : (5 * (doy : Int) + 2).tdiv 153 = ((5 * doy + 2) / 153 : Nat) := rfl
  have hbefore (month : Nat) : (153 * (month : Int) + 2).tdiv 5 = ((153 * month + 2) / 5 : Nat) := rfl
  simp only [civilFromDays, hera, hrest, hyear, hday, hmonth, hbefore]
  unfold dateOf monthOf dayOf
  clear hyear hday hera hrest hdays hdoy hmonth
  generalize hshifted : (5 * doy + 2) / 153 = shifted
  rw [Prod.mk.injEq, Prod.mk.injEq]
  refine ⟨?_, ?_, by omega⟩
  · split_ifs <;> omega
  · split_ifs <;> omega

/-- Every day is a day of a year of an era. -/
theorem exists_date (days : Int) : ∃ (era : Int) (y doy : Nat), y < 400 ∧ yearStart y + doy < yearStart (y + 1) ∧
    days + 719468 = era * 146097 + (yearStart y + doy : Nat) := by
  have hn : ((days + 719468) % 146097).toNat < yearStart 400 := by
    have hwhole : yearStart 400 = 146097 := by decide
    omega
  obtain ⟨y, hy, hstart, hend⟩ := exists_year hn
  exact ⟨(days + 719468) / 146097, y, ((days + 719468) % 146097).toNat - yearStart y, hy, by omega, by omega⟩

theorem leap_year (era : Int) {y : Nat} (hy : y < 400) :
    yearStart (y + 1) = yearStart y + if isLeap (y + era * 400 + 1) then 366 else 365 := by
  unfold yearStart isLeap
  simp only [Bool.and_eq_true, Bool.or_eq_true, decide_eq_true_eq]
  split_ifs <;> omega

/-- Within a year the day moves on, or the next month begins after the last day of its month. -/
theorem monthDay_succ : ∀ doy < 365,
    monthOf (doy + 1) = monthOf doy ∧ dayOf (doy + 1) = dayOf doy + 1 ∧
      (if monthOf doy = 2 then dayOf doy < 28 ∨ doy = 364 ∧ dayOf doy = 28 else dayOf doy < daysInMonth 1 (monthOf doy)) ∨
    monthOf doy ≠ 2 ∧ dayOf doy = daysInMonth 1 (monthOf doy) ∧ dayOf (doy + 1) = 1 ∧
      monthOf (doy + 1) = if monthOf doy = 12 then 1 else monthOf doy + 1 := by
  decide +kernel

theorem daysInMonth_plain {month : Nat} (h : month ≠ 2) (year : Int) : daysInMonth year month = daysInMonth 1 month := by
  rw [daysInMonth, daysInMonth, if_neg h, if_neg h]

theorem nextDay_within {era : Int} {y doy : Nat} (hy : y < 400) (h : yearStart y + (doy + 1) < yearStart (y + 1)) :
    nextDay (dateOf era y doy) = dateOf era y (doy + 1) := by
  have hleap := leap_year era hy
  have hdoy : doy < 365 := by
    have := yearStart_succ_le y hy
    omega
  rw [dateOf, dateOf, nextDay]
  rcases monthDay_succ doy hdoy with ⟨hmonth, hday, hlast⟩ | ⟨hfeb, hday, hfirst, hmonth⟩
  · rw [hmonth, hday]
    apply if_pos
    by_cases hfeb : monthOf doy = 2
    · rw [if_pos hfeb] at hlast
      rw [hfeb, if_pos le_rfl, daysInMonth, if_pos rfl]
      split_ifs at hleap ⊢ <;> omega
    · rwa [if_neg hfeb, ← daysInMonth_plain hfeb] at hlast
  · rw [daysInMonth_plain hfeb, if_neg (by omega), hmonth, hfirst]
    by_cases hyear : monthOf doy = 12
    · simp [hyear]
    · rw [if_neg hyear, if_neg hyear]
      congr 1
      split_ifs <;> omega

theorem nextDay_last {era : Int} {y doy : Nat} (hy : y < 400) (h : yearStart y + doy + 1 = yearStart (y + 1)) :
    nextDay (dateOf era y doy) = (y + 1 + era * 400, 3, 1) := by
  have hleap := leap_year era hy
  have hends : ∀ doy, doy = 364 ∨ doy = 365 → monthOf doy = 2 ∧ dayOf doy + 336 = doy := by
    rintro doy (rfl | rfl) <;> decide
  obtain ⟨hmonth, hday⟩ := hends doy (by split_ifs at hleap <;> omega)
  have hlast : ¬ dayOf doy < daysInMonth (y + era * 400 + 1) 2 := by
    rw [daysInMonth, if_pos rfl]
    split_ifs at hleap ⊢ <;> omega
  rw [dateOf, nextDay, hmonth, if_pos le_rfl, if_neg hlast, if_neg (by decide)]
  congr 1
  omega

theorem civilFromDays_succ (days : Int) : civilFromDays (days + 1) = nextDay (civilFromDays days) := by
  obtain ⟨era, y, doy, hy, hdoy, hdays⟩ := exists_date days
  rw [civilFromDays_eq hy hdoy hdays]
  by_cases hwithin : yearStart y + (doy + 1) < yearStart (y + 1)
  · rw [nextDay_within hy hwithin]
    apply civilFromDays_eq hy hwithin
    omega
  · have hend : yearStart y + doy + 1 = yearStart (y + 1) := by omega
    have hfirst (era : Int) (y : Nat) : dateOf era y 0 = (y + era * 400, 3, 1) := by
      rw [dateOf, if_neg (by decide), add_zero]
      rfl
    rw [nextDay_last hy hend]
    by_cases hera : y + 1 < 400
    · have hnext := @civilFromDays_eq (days + 1) era _ 0 hera (yearStart_lt (y + 1)) (by omega)
      rw [hnext, hfirst, Nat.cast_succ]
    · have hwhole : yearStart (y + 1) = 146097 := by
        rw [show y + 1 = 400 by omega]
        rfl
      have hzero : yearStart 0 = 0 := rfl
      have hnext := @civilFromDays_eq (days + 1) (era + 1) 0 0 (by decide) (by decide) (by omega)
      rw [hnext, hfirst]
      congr 1
      omega

theorem monthDay_range : ∀ doy < 366, 1 ≤ monthOf doy ∧ monthOf doy ≤ 12 ∧ 1 ≤ dayOf doy ∧
    dayOf doy ≤ if monthOf doy = 2 then if doy = 365 then 29 else 28 else daysInMonth 1 (monthOf doy) := by
  decide +kernel

theorem civilFromDays_isDate (days : Int) : IsDate (civilFromDays days) := by
  obtain ⟨era, y, doy, hy, hdoy, hdays⟩ := exists_date days
  have hleap := leap_year era hy
  obtain ⟨hfirst, htwelve, hone, hlast⟩ := monthDay_range doy (civil_values hy hdoy rfl hdays).2.2.2.2.2
  rw [civilFromDays_eq hy hdoy hdays]
  refine ⟨hfirst, htwelve, hone, hlast.trans ?_⟩
  by_cases hfeb : monthOf doy = 2
  · rw [if_pos hfeb, dateOf, hfeb, if_pos le_rfl, daysInMonth, if_pos rfl]
    split_ifs at hleap ⊢ <;> omega
  · rw [if_neg hfeb]
    exact le_of_eq (daysInMonth_plain hfeb _).symm

/-- The sums, differences and products the closed form computes on the way, in its order. -/
def civilSteps (days : Int) : List Int :=
  let shifted := days + 719468
  let era := shifted / 146097
  let dayOfEra := shifted % 146097
  let fewer := dayOfEra - dayOfEra.tdiv 1460
  let more := fewer + dayOfEra.tdiv 36524
  let plain := more - dayOfEra.tdiv 146096
  let yearOfEra := plain.tdiv 365
  let leaps := 365 * yearOfEra + yearOfEra.tdiv 4
  let before := leaps - yearOfEra.tdiv 100
  let dayOfYear := dayOfEra - before
  let shiftedMonth := (5 * dayOfYear + 2).tdiv 153
  let gone := (153 * shiftedMonth + 2).tdiv 5
  [shifted, fewer, more, plain, era * 400, yearOfEra + era * 400, 365 * yearOfEra, leaps, before, dayOfYear, 5 * dayOfYear,
    5 * dayOfYear + 2, 153 * shiftedMonth, 153 * shiftedMonth + 2, dayOfYear - gone, dayOfYear - gone + 1, shiftedMonth + 3,
    shiftedMonth - 9, yearOfEra + era * 400 + 1]

theorem civilSteps_fit {days : Int} (h : -2 ^ 50 ≤ days ∧ days < 2 ^ 50) :
    ∀ step ∈ civilSteps days, -2 ^ 63 ≤ step ∧ step < 2 ^ 63 := by
  obtain ⟨era, y, doy, hy, hdoy, hdays⟩ := exists_date days
  obtain ⟨hera, hrest, hyear, hday, hn, hshort⟩ := civil_values hy hdoy rfl hdays
  have hbound : -2 ^ 40 < era ∧ era < 2 ^ 40 := by omega
  simp only [civilSteps, hera, hrest, hyear, hday]
  simp (disch := omega) only [Int.tdiv_eq_ediv_of_nonneg, forall_mem_cons, not_mem_nil,
    false_implies, implies_true, and_true]
  clear hera hrest hdays hdoy hyear hday
  omega

theorem twoDigits_eq : ∀ n < 60, twoDigits n = [Nat.digitChar (n / 10), Nat.digitChar (n % 10)] := by
  decide +kernel

/-- Two digits of a number below a hundred. -/
def pad (n : Nat) : String := String.ofList [Nat.digitChar (n / 10), Nat.digitChar (n % 10)]

theorem dateText_eq (weekday name : String) (year : Int) (day : Nat) {hour minute second : Nat} (hhour : hour < 24)
    (hminute : minute < 60) (hsecond : second < 60) : dateText weekday name year day hour minute second =
      s!"{weekday}, {day} {name} {year} {pad hour}:{pad minute}:{pad second} +0000".toList := by
  rw [dateText, twoDigits_eq hour (by omega), twoDigits_eq minute hminute, twoDigits_eq second hsecond]
  simp [toString, pad]

/-- Every instant of an i64 clock is named by its Gregorian date, its weekday and its time of day, and no step overflows. -/
theorem rfc5322Date_calendar :
    civilFromDays 0 = (1970, 1, 1) ∧
    (∀ days, IsDate (civilFromDays days) ∧ civilFromDays (days + 1) = nextDay (civilFromDays days) ∧
      ((days + 1) % 7).toNat = ((days % 7).toNat + 1) % 7) ∧
    ∀ ms : Int, -2 ^ 63 ≤ ms → ms < 2 ^ 63 →
      (∀ step ∈ civilSteps (ms / 86400000), -2 ^ 63 ≤ step ∧ step < 2 ^ 63) ∧
      ∃ weekday name, ["Thu", "Fri", "Sat", "Sun", "Mon", "Tue", "Wed"][(ms / 86400000 % 7).toNat]? = some weekday ∧
        ["Jan", "Feb", "Mar", "Apr", "May", "Jun", "Jul", "Aug", "Sep", "Oct", "Nov", "Dec"][
          (civilFromDays (ms / 86400000)).2.1 - 1]? = some name ∧
        ∃ hour minute second, hour < 24 ∧ minute < 60 ∧ second < 60 ∧
          ms / 1000 = ms / 86400000 * 86400 + (hour * 3600 + minute * 60 + second : Nat) ∧
          ∃ year month day, civilFromDays (ms / 86400000) = (year, month, day) ∧ rfc5322Date ms =
            some s!"{weekday}, {day} {name} {year} {pad hour}:{pad minute}:{pad second} +0000".toList := by
  refine ⟨by decide, fun days => ⟨civilFromDays_isDate days, civilFromDays_succ days, by omega⟩, ?_⟩
  intro ms hlow hhigh
  refine ⟨civilSteps_fit (by omega), ?_⟩
  obtain ⟨hfirst, htwelve, -, -⟩ := civilFromDays_isDate (ms / 86400000)
  have hweekday : (ms / 86400000 % 7).toNat < weekdays.length := by
    rw [show weekdays.length = 7 from rfl]
    omega
  have hname : (civilFromDays (ms / 86400000)).2.1 - 1 < months.length := by
    rw [show months.length = 12 from rfl]
    omega
  have hhour : (ms % 86400000).toNat / 1000 / 3600 < 24 := by omega
  have hminute : (ms % 86400000).toNat / 1000 / 60 % 60 < 60 := by omega
  have hsecond : (ms % 86400000).toNat / 1000 % 60 < 60 := by omega
  refine ⟨_, _, getElem?_eq_getElem hweekday, getElem?_eq_getElem hname, _, _, _, hhour, hminute, hsecond, by omega,
    (civilFromDays (ms / 86400000)).1, (civilFromDays (ms / 86400000)).2.1, (civilFromDays (ms / 86400000)).2.2, rfl, ?_⟩
  rw [← dateText_eq _ _ _ _ hhour hminute hsecond]
  simp only [rfc5322Date, getElem?_eq_getElem hweekday, getElem?_eq_getElem hname, Option.bind_some, Option.map_some]

end Pluribus.Email
