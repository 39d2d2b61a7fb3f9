import Semp.NumberText
import Semp.JsDate

/-! The text of a time: `toISOString`, and the part of `Date.parse` that reads such texts
back, with or without milliseconds.  Years begin in March here, so that a leap day is the
last day of its year. -/
namespace Semp
namespace IsoDate
open NumberText

structure Civil where
  year : ℤ
  month : ℕ
  day : ℕ
  deriving DecidableEq, Repr

def daysPerEra : ℤ := 146097

/-- From the first of March of the year 0 to the epoch. -/
def epochDay : ℤ := 719468

/-- The year of an era, and the day in it, of a day of the era: centuries of 36524 days,
of which the last has one more, then fours of years, then years. -/
def yearOfEra (doe : ℕ) : ℕ × ℕ :=
  let century := min 3 (doe/36524)
  let doc := doe-36524*century
  let four := doc/1461
  let year := min 3 ((doc-1461*four)/365)
  (100*century+4*four+year,doc-1461*four-365*year)

/-- The month and its day, of a day in a year that begins in March. -/
def monthOfYear (doy : ℕ) : ℕ × ℕ :=
  let month := (5*doy+2)/153
  (month,doy-(153*month+2)/5)

/-- The date of a day, counted from the epoch. -/
def civil (day : ℤ) : Civil :=
  let era := (day+epochDay)/daysPerEra
  let (year,doy) := yearOfEra ((day+epochDay)%daysPerEra).toNat
  let (month,dom) := monthOfYear doy
  { year := era*400+year+(if month < 10 then 0 else 1)
    month := if month < 10 then month+3 else month-9
    day := dom+1 }

/-- The day of a date. -/
def dayNumber (c : Civil) : ℤ :=
  let year := c.year-(if c.month < 3 then 1 else 0)
  let month := if c.month < 3 then c.month+9 else c.month-3
  let yoe := (year%400).toNat
  let doe := 365*yoe+yoe/4-yoe/100+(153*month+2)/5+(c.day-1)
  year/400*daysPerEra+doe-epochDay

theorem yearOfEra_spec {doe : ℕ} (h : doe < 146097) :
    (yearOfEra doe).1 < 400 ∧ (yearOfEra doe).2 < 366 ∧
      365*(yearOfEra doe).1+(yearOfEra doe).1/4-(yearOfEra doe).1/100+(yearOfEra doe).2 = doe := by
  simp only [yearOfEra]
  generalize hc : min 3 (doe/36524) = century
  generalize hf : (doe-36524*century)/1461 = four
  generalize hy : min 3 ((doe-36524*century-1461*four)/365) = year
  have hcentury : 36524*century ≤ doe ∧ doe-36524*century ≤ 36524 ∧ century ≤ 3 := by omega
  have hfour : 1461*four ≤ doe-36524*century ∧ doe-36524*century < 1461*four+1461 ∧
      four ≤ 24 := by omega
  have hyear : 365*year ≤ doe-36524*century-1461*four ∧
      doe-36524*century-1461*four < 365*year+366 ∧ year ≤ 3 := by omega
  have hq : (100*century+4*four+year)/4 = 25*century+four := by omega
  have hd : (100*century+4*four+year)/100 = century := by omega
  rw [hq,hd]
  omega

theorem monthOfYear_spec {doy : ℕ} (h : doy < 366) : (monthOfYear doy).1 < 12 ∧
    (153*(monthOfYear doy).1+2)/5+(monthOfYear doy).2 = doy := by
  simp only [monthOfYear]
  omega

/-- The date that begins at the `doy`-th day of a year of an era. -/
def dateOf (era : ℤ) (year month dom : ℕ) : Civil where
  year := era*400+year+(if month < 10 then 0 else 1)
  month := if month < 10 then month+3 else month-9
  day := dom+1

theorem dayNumber_dateOf (era : ℤ) {year month : ℕ} (dom : ℕ) (hy : year < 400) (hm : month < 12) :
    dayNumber (dateOf era year month dom) =
      era*daysPerEra+(365*year+year/4-year/100+(153*month+2)/5+dom : ℕ)-epochDay := by
  have hyear : (dateOf era year month dom).year-
      (if (dateOf era year month dom).month < 3 then 1 else 0) = era*400+year := by
    simp only [dateOf]
    split_ifs <;> omega
  have hmonth : (if (dateOf era year month dom).month < 3 then
      (dateOf era year month dom).month+9 else (dateOf era year month dom).month-3) = month := by
    simp only [dateOf]
    split_ifs <;> omega
  have hmod : ((era*400+(year : ℤ))%400).toNat = year := by omega
  have hdiv : (era*400+(year : ℤ))/400 = era := by omega
  rw [dayNumber,hyear,hmonth,hmod,hdiv]
  simp [dateOf]

/-- Every day has one date. -/
theorem dayNumber_civil (day : ℤ) : dayNumber (civil day) = day := by
  obtain ⟨hyoe,hdoy,hdoe⟩ := yearOfEra_spec
    (show ((day+epochDay)%daysPerEra).toNat < 146097 by simp only [daysPerEra]; omega)
  obtain ⟨hmonth,hdom⟩ := monthOfYear_spec hdoy
  have hcivil : civil day = dateOf ((day+epochDay)/daysPerEra)
      (yearOfEra ((day+epochDay)%daysPerEra).toNat).1
      (monthOfYear (yearOfEra ((day+epochDay)%daysPerEra).toNat).2).1
      (monthOfYear (yearOfEra ((day+epochDay)%daysPerEra).toNat).2).2 := rfl
  rw [hcivil,dayNumber_dateOf _ _ hyoe hmonth,add_assoc _ ((153*_+2)/5),hdom,hdoe,
    Int.toNat_of_nonneg (Int.emod_nonneg _ (by decide)),mul_comm,Int.mul_ediv_add_emod]
  omega

example : civil 0 = ⟨1970,1,1⟩ := by decide

example : civil 11016 = ⟨2000,2,29⟩ ∧ civil (-1) = ⟨1969,12,31⟩ := by decide

def msPerDay : ℤ := 86400000

def colonUnit : UInt16 := 58
def timeUnit : UInt16 := 84
def zoneUnit : UInt16 := 90

def yearText (year : ℤ) : JsString :=
  if 0 ≤ year ∧ year ≤ 9999 then digits 4 year.natAbs
  else (if year < 0 then minusUnit else plusUnit)::digits 6 year.natAbs

def dateText (c : Civil) : JsString :=
  yearText c.year++minusUnit::(digits 2 c.month++minusUnit::digits 2 c.day)

/-- Hours, minutes and seconds of a second of the day. -/
def timeText (second : ℕ) : JsString :=
  digits 2 (second/3600)++colonUnit::(digits 2 (second/60%60)++colonUnit::digits 2 (second%60))

/-- The second of a time, written without milliseconds. -/
def secondText (second : ℤ) : JsString :=
  dateText (civil (second/86400))++timeUnit::timeText (second%86400).toNat

/-- `new Date(t).toISOString()` -/
def text (t : ℤ) : JsString :=
  secondText (t/1000)++dotUnit::(digits 3 (t%1000).toNat++[zoneUnit])

/-- `s.replace(/\.\d{3}Z$/, "Z")` -/
def cutMillis (s : JsString) : JsString :=
  match s.reverse with
  | zone::c::b::a::dot::rest =>
    if zone = zoneUnit ∧ isDigit c ∧ isDigit b ∧ isDigit a ∧ dot = dotUnit then
      rest.reverse++[zoneUnit]
    else s
  | _ => s

/-- A number of `k` digits. -/
def field (k : ℕ) (s : JsString) : Option (ℕ × JsString) :=
  if (s.take k).length = k ∧ (s.take k).all isDigit then some (readDigits (s.take k),s.drop k)
  else none

def skip (u : UInt16) : JsString → Option JsString
  | [] => none
  | v::s => if v = u then some s else none

def parseYear : JsString → Option (ℤ × JsString)
  | [] => none
  | u::s =>
    if u = plusUnit then (field 6 s).map fun r => ((r.1 : ℤ),r.2)
    else if u = minusUnit then
      (field 6 s).bind fun r => if r.1 = 0 then none else some (-(r.1 : ℤ),r.2)
    else (field 4 (u::s)).map fun r => ((r.1 : ℤ),r.2)

/-- The day of a date that exists. -/
def parseDate (s : JsString) : Option (ℤ × JsString) := do
  let (year,s) ← parseYear s
  let s ← skip minusUnit s
  let (month,s) ← field 2 s
  let s ← skip minusUnit s
  let (day,s) ← field 2 s
  let c : Civil := ⟨year,month,day⟩
  if civil (dayNumber c) = c then some (dayNumber c,s) else none

def parseMillis : JsString → Option (ℕ × JsString)
  | [] => some (0,[])
  | u::s => if u = dotUnit then field 3 s else some (0,u::s)

/-- The milliseconds of a time of day. -/
def parseTime (s : JsString) : Option (ℕ × JsString) := do
  let (hour,s) ← field 2 s
  let s ← skip colonUnit s
  let (minute,s) ← field 2 s
  let s ← skip colonUnit s
  let (second,s) ← field 2 s
  let (ms,s) ← parseMillis s
  if (hour < 24 ∧ minute < 60 ∧ second < 60) ∨ (hour = 24 ∧ minute = 0 ∧ second = 0 ∧ ms = 0) then
    some (((hour*60+minute)*60+second)*1000+ms,s)
  else none

/-- A text in the form of `toISOString`, perhaps without milliseconds; `none` for every
other form. -/
def parse (s : JsString) : Option JsDate := do
  let (day,s) ← parseDate s
  let s ← skip timeUnit s
  let (ms,s) ← parseTime s
  if s = [zoneUnit] then
    let t := day*msPerDay+ms
    some (if |t| ≤ JsDate.maxTime then some t else none)
  else none

section Reading
variable {rest : JsString}

theorem field_digits {k n : ℕ} (h : n < 10^k) (rest : JsString) :
    field k (digits k n++rest) = some (n,rest) := by
  have htake : (digits k n++rest).take k = digits k n := by
    rw [List.take_left' (digits_length k n)]
  rw [field,htake,if_pos ⟨digits_length k n,List.all_eq_true.mpr (isDigit_of_mem_digits k n)⟩,
    readDigits_digits,Nat.mod_eq_of_lt h,List.drop_left' (digits_length k n)]

@[simp] theorem skip_cons (u : UInt16) (s : JsString) : skip u (u::s) = some s := if_pos rfl

theorem parseYear_yearText {year : ℤ} (h : year.natAbs < 10^6) (rest : JsString) :
    parseYear (yearText year++rest) = some (year,rest) := by
  unfold yearText
  split_ifs with hfour hneg
  · have hlt : year.natAbs < 10^4 := by omega
    obtain ⟨u,ds,hds⟩ : ∃ u ds, digits 4 year.natAbs = u::ds :=
      List.exists_cons_of_length_pos (by simp)
    have hu : isDigit u = true := isDigit_of_mem_digits 4 year.natAbs u (by simp [hds])
    have hplus : u ≠ plusUnit := by
      rintro rfl
      exact absurd hu (by decide)
    have hminus : u ≠ minusUnit := by
      rintro rfl
      exact absurd hu (by decide)
    have hfield := field_digits hlt rest
    rw [hds] at hfield ⊢
    rw [List.cons_append] at hfield ⊢
    rw [parseYear,if_neg hplus,if_neg hminus,hfield,Option.map_some,Option.some.injEq,
      Prod.mk.injEq]
    exact ⟨by omega,rfl⟩
  · rw [List.cons_append,parseYear,if_neg (by decide),if_pos rfl,field_digits h,Option.bind_some,
      if_neg (by omega),Option.some.injEq,Prod.mk.injEq]
    exact ⟨by omega,rfl⟩
  · rw [List.cons_append,parseYear,if_pos rfl,field_digits h,Option.map_some,Option.some.injEq,
      Prod.mk.injEq]
    exact ⟨by omega,rfl⟩

theorem civil_bounds {day : ℤ} (h : |day| ≤ 100000000) :
    (civil day).year.natAbs < 10^6 ∧ (civil day).month < 10^2 ∧ (civil day).day < 10^2 := by
  obtain ⟨hlo,hhi⟩ := abs_le.mp h
  obtain ⟨hyoe,hdoy,-⟩ := yearOfEra_spec
    (show ((day+epochDay)%daysPerEra).toNat < 146097 by simp only [daysPerEra]; omega)
  have hmonth : (monthOfYear (yearOfEra ((day+epochDay)%daysPerEra).toNat).2).1 < 12 :=
    (monthOfYear_spec hdoy).1
  have hera : -700 ≤ (day+epochDay)/daysPerEra ∧ (day+epochDay)/daysPerEra ≤ 700 := by
    simp only [epochDay,daysPerEra]
    omega
  refine ⟨?_,?_,?_⟩
  · simp only [civil]
    split_ifs <;> omega
  · simp only [civil]
    split_ifs <;> omega
  · have hdom : (monthOfYear (yearOfEra ((day+epochDay)%daysPerEra).toNat).2).2 < 99 := by
      simp only [monthOfYear]
      omega
    simp only [civil]
    omega

theorem parseDate_dateText {day : ℤ} (h : |day| ≤ 100000000) (rest : JsString) :
    parseDate (dateText (civil day)++rest) = some (day,rest) := by
  obtain ⟨hyear,hmonth,hday⟩ := civil_bounds h
  rw [parseDate,dateText]
  simp only [List.append_assoc,List.cons_append,parseYear_yearText hyear,skip_cons,
    field_digits hmonth,field_digits hday,Option.bind_eq_bind,Option.bind_some]
  rw [dayNumber_civil,if_pos rfl]

theorem parseTime_timeText {second ms : ℕ} (h : second < 86400) {s : JsString}
    (hms : parseMillis s = some (ms,rest)) :
    parseTime (timeText second++s) = some (second*1000+ms,rest) := by
  have hhour : second/3600 < 10^2 := by omega
  have hminute : second/60%60 < 10^2 := by omega
  have hsecond : second%60 < 10^2 := by omega
  rw [parseTime,timeText]
  simp only [List.append_assoc,List.cons_append,field_digits hhour,skip_cons,
    field_digits hminute,field_digits hsecond,hms,Option.bind_eq_bind,Option.bind_some]
  rw [if_pos (.inl (by omega)),Option.some.injEq,Prod.mk.injEq]
  exact ⟨by omega,rfl⟩

theorem parse_secondText {second : ℤ} {ms : ℕ} (hms : ms < 1000)
    (h : |second*1000+ms| ≤ JsDate.maxTime) {s : JsString}
    (hs : parseMillis s = some (ms,[zoneUnit])) :
    parse (secondText second++s) = some (some (second*1000+ms)) := by
  have hday : |second/86400| ≤ 100000000 := by
    simp only [JsDate.maxTime] at h
    rw [abs_le] at h ⊢
    omega
  have htime : (second%86400).toNat < 86400 := by omega
  have ht : second/86400*msPerDay+(((second%86400).toNat*1000+ms : ℕ) : ℤ) = second*1000+ms := by
    simp only [msPerDay]
    omega
  rw [parse,secondText]
  simp only [List.append_assoc,List.cons_append,parseDate_dateText hday,skip_cons,
    parseTime_timeText htime hs,Option.bind_eq_bind,Option.bind_some,if_true]
  rw [ht,if_pos h]

/-- What `toISOString` writes is read back. -/
theorem parse_text {t : ℤ} (h : |t| ≤ JsDate.maxTime) : parse (text t) = some (some t) := by
  have ht : t/1000*1000+(((t%1000).toNat : ℕ) : ℤ) = t := by omega
  have hms : parseMillis (dotUnit::(digits 3 (t%1000).toNat++[zoneUnit])) =
      some ((t%1000).toNat,[zoneUnit]) := by
    rw [parseMillis,if_pos rfl,field_digits (by omega)]
  rw [text,parse_secondText (by omega) (by rwa [ht]) hms,ht]

theorem cutMillis_text (t : ℤ) : cutMillis (text t) = secondText (t/1000)++[zoneUnit] := by
  obtain ⟨a,b,c,habc⟩ : ∃ a b c, digits 3 (t%1000).toNat = [a,b,c] :=
    List.length_eq_three.mp (digits_length 3 _)
  have hdigit := isDigit_of_mem_digits 3 (t%1000).toNat
  rw [habc] at hdigit
  have hrev : (text t).reverse =
      zoneUnit::c::b::a::dotUnit::(secondText (t/1000)).reverse := by simp [text,habc]
  rw [cutMillis,hrev]
  dsimp only
  rw [if_pos ⟨rfl,hdigit c (by simp),hdigit b (by simp),hdigit a (by simp),rfl⟩,
    List.reverse_reverse]

/-- Without its milliseconds the text is that of the second. -/
theorem parse_cutMillis {t : ℤ} (h : |t| ≤ JsDate.maxTime) :
    parse (cutMillis (text t)) = some (some (t/1000*1000)) := by
  have hle : |t/1000*1000+((0 : ℕ) : ℤ)| ≤ JsDate.maxTime := by
    simp only [JsDate.maxTime] at h ⊢
    rw [abs_le] at h ⊢
    omega
  have hms : parseMillis [zoneUnit] = some (0,[zoneUnit]) := rfl
  rw [cutMillis_text,parse_secondText (by decide) hle hms]
  simp

theorem cutMillis_ne_nil (t : ℤ) : cutMillis (text t) ≠ [] := by
  rw [cutMillis_text]
  simp

end Reading

end IsoDate

namespace JsDate

/-- `Date.parse(s)`; `other` is what the host makes of the texts of other forms. -/
def parseText (other : JsString → JsDate) (s : JsString) : JsDate :=
  (IsoDate.parse s).getD (other s)

/-- `d.toISOString()` -/
def toISOString : JsDate → Js JsString
  | none => .error (.engine .rangeError)
  | some t => .ok (IsoDate.text t)

@[simp] theorem parseText_text (other : JsString → JsDate) {t : ℤ} (h : |t| ≤ maxTime) :
    parseText other (IsoDate.text t) = some t := by
  rw [parseText,IsoDate.parse_text h,Option.getD_some]

/-- A text is read as a time that dates have, if the host reads other forms so. -/
theorem parseText_range {other : JsString → JsDate}
    (hother : ∀ s t, other s = some t → |t| ≤ maxTime) {s : JsString} {t : ℤ}
    (h : parseText other s = some t) : |t| ≤ maxTime := by
  rw [parseText] at h
  cases hp : IsoDate.parse s with
  | none =>
    rw [hp] at h
    exact hother s t h
  | some d =>
    rw [hp,Option.getD_some] at h
    subst h
    simp only [IsoDate.parse,Option.bind_eq_bind,Option.bind_eq_some_iff] at hp
    obtain ⟨_,-,_,-,_,-,hp⟩ := hp
    split_ifs at hp with hz ht
    · obtain rfl := Option.some.inj (Option.some.inj hp)
      exact ht
    · cases Option.some.inj hp

/-- `new Date(t)` -/
def ofTime (t : ℤ) : JsDate := if |t| ≤ maxTime then some t else none

end JsDate
end Semp
