import Mathlib.Algebra.Order.BigOperators.Group.Finset
import Mathlib.Tactic.IntervalCases
import Mathlib.Tactic.Linarith
import Cdenv.StateFile

/-!
# The text of a clock reading

The calendar that `format_unix_timestamp` is measured against counts days by the lengths of
years and months, where the source divides.
-/
namespace Cdenv.UnixTime
open StateFile TextScan List

/-- The numbers the source divides by truncation are not negative. -/
def civilDateFromDays (daysSinceEpoch : ℤ) : ℤ × ℤ × ℤ :=
  let shifted := daysSinceEpoch+719468
  let era := shifted/146097
  let dayOfEra := shifted-era*146097
  let yearOfEra := (dayOfEra-dayOfEra/1460+dayOfEra/36524-dayOfEra/146096)/365
  let year := yearOfEra+era*400
  let dayOfYear := dayOfEra-(365*yearOfEra+yearOfEra/4-yearOfEra/100)
  let monthPrime := (5*dayOfYear+2)/153
  let day := dayOfYear-(153*monthPrime+2)/5+1
  let month := monthPrime+if monthPrime < 10 then 3 else -9
  (year+if month ≤ 2 then 1 else 0, month, day)

/-- Padding with zeros between the sign and the digits. -/
def padded (width : ℕ) (value : ℤ) : Text :=
  let digits := Nat.toDigits 10 value.natAbs
  if value < 0 then '-'::digits.leftpad (width-1) '0' else digits.leftpad width '0'

/-- A number of seconds as a date and time of day. -/
def formatUnixTimestamp (seconds : ℤ) : Text :=
  let days := seconds/86400
  let secondsOfDay := seconds%86400
  let (year, month, day) := civilDateFromDays days
  let hour := secondsOfDay/3600
  let minute := secondsOfDay%3600/60
  let second := secondsOfDay%60
  padded 4 year++ '-'::(padded 2 month++ '-'::(padded 2 day++ 'T'::(padded 2 hour++
    ':'::(padded 2 minute++ ':'::(padded 2 second++['Z'])))))

def isLeap (year : ℕ) : Prop := year%4 = 0 ∧ (year%100 ≠ 0 ∨ year%400 = 0)

instance (year : ℕ) : Decidable (isLeap year) := inferInstanceAs (Decidable (_ ∧ _))

def monthLength (year : ℕ) : ℕ → ℕ
  | 2 => if isLeap year then 29 else 28
  | 4 | 6 | 9 | 11 => 30
  | _ => 31

def daysBeforeMonth (year month : ℕ) : ℕ := ∑ i ∈ Finset.range (month-1), monthLength year (i+1)

def yearLength (year : ℕ) : ℕ := daysBeforeMonth year 13

/-- Days from the first of January 1970 to that of the year. -/
def daysBeforeYear (year : ℕ) : ℕ := ∑ i ∈ Finset.range (year-1970), yearLength (i+1970)

/-- A date of the proleptic Gregorian calendar. -/
structure Date where
  year : ℕ
  month : ℕ
  day : ℕ
  epoch : 1970 ≤ year
  month_pos : 1 ≤ month
  month_le : month ≤ 12
  day_pos : 1 ≤ day
  day_le : day ≤ monthLength year month

def Date.number (t : Date) : ℕ := daysBeforeYear t.year+daysBeforeMonth t.year t.month+(t.day-1)

/-- A date with a time of day in UTC. -/
structure Instant extends Date where
  hour : ℕ
  minute : ℕ
  second : ℕ
  hour_lt : hour < 24
  minute_lt : minute < 60
  second_lt : second < 60

def Instant.seconds (t : Instant) : ℕ := 86400*t.number+3600*t.hour+60*t.minute+t.second

/-- The last digits of a number, as many as the width. -/
def decimal : ℕ → ℕ → Text
  | 0, _ => []
  | width+1, n => decimal width (n/10)++[Nat.digitChar (n%10)]

def Instant.text (t : Instant) : Text :=
  decimal 4 t.year++ '-'::(decimal 2 t.month++ '-'::(decimal 2 t.day++ 'T'::(decimal 2 t.hour++
    ':'::(decimal 2 t.minute++ ':'::(decimal 2 t.second++['Z'])))))

theorem yearLength_eq (y : ℕ) : yearLength y = if isLeap y then 366 else 365 := by
  simp only [yearLength,daysBeforeMonth,Finset.sum_range_succ,Finset.sum_range_zero,monthLength]
  split_ifs <;> rfl

theorem leapDays_succ (y : ℕ) : (y+1)/4+(y+1)/400+y/100 =
    y/4+y/400+(y+1)/100+if isLeap (y+1) then 1 else 0 := by
  have h4 : (y+1)/4 = y/4+if (y+1)%4 = 0 then 1 else 0 := by split_ifs <;> omega
  have h100 : (y+1)/100 = y/100+if (y+1)%100 = 0 then 1 else 0 := by split_ifs <;> omega
  have h400 : (y+1)/400 = y/400+if (y+1)%400 = 0 then 1 else 0 := by split_ifs <;> omega
  rw [h4,h100,h400]
  unfold isLeap
  grind

theorem daysBeforeYear_succ {y : ℕ} (h : 1969 ≤ y) :
    daysBeforeYear (y+1)+719162+y/100 = 365*y+y/4+y/400 := by
  induction y, h using Nat.le_induction with
  | base => rfl
  | succ y h ih =>
    have hs : daysBeforeYear (y+1+1) = daysBeforeYear (y+1)+yearLength (y+1) := by
      unfold daysBeforeYear
      rw [show y+1+1-1970 = y+1-1970+1 by omega,Finset.sum_range_succ,
        show y+1-1970+1970 = y+1 by omega]
    have hl := leapDays_succ y
    rw [hs,yearLength_eq]
    split_ifs at hl ⊢ <;> linarith

theorem daysBeforeYear_march {y : ℕ} (h : 1970 ≤ y) :
    daysBeforeYear y+(monthLength y 2+31)+719468+y/100 = 365*y+y/4+y/400 := by
  obtain ⟨y,rfl⟩ := Nat.exists_eq_add_of_le' (show 1 ≤ y by omega)
  have hb := daysBeforeYear_succ (show 1969 ≤ y by omega)
  have hl := leapDays_succ y
  simp only [monthLength]
  split_ifs at hl ⊢ <;> linarith

theorem sum_add_le_sum (f : ℕ → ℕ) {m n : ℕ} (h : m < n) :
    ∑ i ∈ Finset.range m, f i+f m ≤ ∑ i ∈ Finset.range n, f i := by
  rw [← Finset.sum_range_succ]
  exact Finset.sum_le_sum_of_subset (Finset.range_subset_range.mpr h)

theorem daysBeforeMonth_add_le (y : ℕ) {m n : ℕ} (hm : 1 ≤ m) (h : m < n) :
    daysBeforeMonth y m+monthLength y m ≤ daysBeforeMonth y n := by
  have hs := sum_add_le_sum (fun i => monthLength y (i+1)) (show m-1 < n-1 by omega)
  rwa [show m-1+1 = m by omega] at hs

theorem daysBeforeYear_add_le {m n : ℕ} (hm : 1970 ≤ m) (h : m < n) :
    daysBeforeYear m+yearLength m ≤ daysBeforeYear n := by
  have hs := sum_add_le_sum (fun i => yearLength (i+1970)) (show m-1970 < n-1970 by omega)
  rwa [show m-1970+1970 = m by omega] at hs

/-- Four hundred years from a first of March: a day beyond the three hundred and sixty-fifth of
its year is in a year that ends with a leap day. -/
theorem yearOfEra_exists (doe : ℤ) (h : 0 ≤ doe) (hlt : doe < 146097) :
    ∃ y r : ℤ, (doe-doe/1460+doe/36524-doe/146096)/365 = y ∧
      doe-(365*y+y/4-y/100) = r ∧ 0 ≤ y ∧ y ≤ 399 ∧ 0 ≤ r ∧
        (r ≤ 364 ∨ r = 365 ∧ y%4 = 3 ∧ (y%100 ≠ 99 ∨ y = 399)) := by
  refine ⟨_,_,rfl,rfl,?_⟩
  obtain rfl | hl := (show doe ≤ 146096 by omega).eq_or_lt
  · decide
  have he : doe/146096 = 0 := by omega
  rw [he]
  -- whole centuries, cycles of four years in the century, and the day in the cycle
  obtain ⟨c,hc⟩ : ∃ c, doe/36524 = c := ⟨_,rfl⟩
  obtain ⟨q,hq⟩ : ∃ q, doe%36524/1461 = q := ⟨_,rfl⟩
  obtain ⟨p,hp⟩ : ∃ p, doe%36524%1461 = p := ⟨_,rfl⟩
  have hy : (doe-doe/1460+doe/36524-0)/365 = 100*c+4*q+if p = 1460 then 3 else p/365 := by
    split_ifs <;> omega
  have hqu : (100*c+4*q+if p = 1460 then 3 else p/365)/4 = 25*c+q := by split_ifs <;> omega
  have hce : (100*c+4*q+if p = 1460 then 3 else p/365)/100 = c := by split_ifs <;> omega
  rw [hy,hqu,hce]
  split_ifs <;> omega

theorem daysBeforeMonth_from_march (y : ℕ) {mo : ℕ} (h : 3 ≤ mo) (hle : mo ≤ 12) :
    daysBeforeMonth y mo = monthLength y 2+31+(153*(mo-3)+2)/5 ∧
      monthLength y mo+(153*(mo-3)+2)/5 = (153*(mo-2)+2)/5 := by
  interval_cases mo <;> simp [daysBeforeMonth,Finset.sum_range_succ,monthLength] <;> omega

/-- The year begins in March, so that its leap day is the last. -/
theorem date_from_march (y day : ℕ) (hy : 1969 ≤ y) (hst : y = 1969 → 306 ≤ day)
    (hd : day ≤ 364 ∨ day = 365 ∧ isLeap (y+1)) : ∃ t : Date,
      t.number+719468+y/100 = 365*y+y/4+y/400+day ∧
      t.day+(153*((5*day+2)/153)+2)/5 = day+1 ∧
      if (5*day+2)/153 < 10 then t.year = y ∧ t.month = (5*day+2)/153+3
      else t.year = y+1 ∧ t.month+9 = (5*day+2)/153 := by
  obtain ⟨month,hm⟩ : ∃ month, (5*day+2)/153 = month := ⟨_,rfl⟩
  rw [hm]
  split_ifs with hlt
  · have hma := daysBeforeYear_march (show 1970 ≤ y by omega)
    have ⟨hb,hl⟩ := daysBeforeMonth_from_march y (Nat.le_add_left 3 month)
      (show month+3 ≤ 12 by omega)
    rw [Nat.add_sub_cancel,show month+3-2 = month+1 by omega] at *
    refine ⟨⟨y,month+3,day+1-(153*month+2)/5,by omega,by omega,by omega,by omega,by omega⟩,
      ?_,by dsimp only; omega,rfl,rfl⟩
    dsimp only [Date.number]
    rw [hb]
    omega
  · have hj := daysBeforeYear_succ hy
    obtain rfl | rfl : month = 10 ∨ month = 11 := by omega
    · refine ⟨⟨y+1,1,day+1-306,by omega,le_rfl,by decide,by omega,by simp [monthLength]; omega⟩,
        ?_,by dsimp only; omega,rfl,rfl⟩
      have hf : daysBeforeMonth (y+1) 1 = 0 := rfl
      dsimp only [Date.number]
      omega
    · have hl : day+1-337 ≤ monthLength (y+1) 2 := by
        simp only [monthLength]
        split_ifs with hle
        · omega
        · have hla := hd.resolve_right fun h => hle h.2
          omega
      refine ⟨⟨y+1,2,day+1-337,by omega,by decide,by decide,by omega,hl⟩,
        ?_,by dsimp only; omega,rfl,rfl⟩
      have hs : daysBeforeMonth (y+1) 2 = 31 := rfl
      dsimp only [Date.number]
      omega

theorem civilDateFromDays_eq (days : ℕ) : ∃ t : Date, t.number = days ∧
    civilDateFromDays days = (↑t.year,↑t.month,↑t.day) := by
  obtain ⟨era,he⟩ : ∃ era, ((days : ℤ)+719468)/146097 = era := ⟨_,rfl⟩
  obtain ⟨y,r,hy,hr,hy0,hy399,hr0,hl⟩ :=
    yearOfEra_exists ((days : ℤ)+719468-era*146097) (by omega) (by omega)
  simp only [civilDateFromDays,he,hy,hr]
  obtain ⟨day,rfl⟩ := Int.eq_ofNat_of_zero_le hr0
  obtain ⟨year,hye⟩ := Int.eq_ofNat_of_zero_le (show 0 ≤ y+era*400 by omega)
  have hq : (year : ℤ)/4 = y/4+100*era := by omega
  have hc : (year : ℤ)/100 = y/100+4*era := by omega
  have he' : (year : ℤ)/400 = era := by omega
  obtain ⟨t,hn,hd,hmo⟩ := date_from_march year day (by omega) (by omega) (by unfold isLeap; omega)
  refine ⟨t,?_,?_⟩
  · zify at hn ⊢
    linarith
  · have hle : (5*day+2)/153 ≤ 11 := by omega
    have hm : (5*(day : ℤ)+2)/153 = ((5*day+2)/153 : ℕ) := by norm_cast
    rw [hm]
    generalize (5*day+2)/153 = mo at *
    have ho : (153*(mo : ℤ)+2)/5 = ((153*mo+2)/5 : ℕ) := by norm_cast
    rw [hye,ho]
    generalize (153*mo+2)/5 = offset at *
    split_ifs at hmo ⊢ <;> simp only [Prod.mk.injEq] <;> omega

theorem length_decimal (width n : ℕ) : (decimal width n).length = width := by
  induction width generalizing n with
  | zero => rfl
  | succ width ih => rw [decimal,length_append,ih,length_singleton]

theorem decimal_zero (w : ℕ) : decimal w 0 = replicate w '0' := by
  induction w with
  | zero => rfl
  | succ w ih => rw [decimal,Nat.zero_div,ih,replicate_succ']; rfl

theorem padded_eq {w n : ℕ} (h : n < 10^(w+1)) : padded (w+1) n = decimal (w+1) n := by
  rw [padded,if_neg (by omega),Int.natAbs_natCast]
  induction w generalizing n with
  | zero =>
    have hn : n < 10 := h
    rw [Nat.toDigits_of_lt_base hn,decimal,Nat.mod_eq_of_lt hn]
    rfl
  | succ w ih =>
    by_cases hn : n < 10
    · rw [Nat.toDigits_of_lt_base hn,decimal,Nat.div_eq_of_lt hn,decimal_zero,Nat.mod_eq_of_lt hn]
      rfl
    · rw [Nat.toDigits_of_base_le (by decide) (by omega),decimal,← ih (by omega)]
      simp [leftpad]

theorem append_lt_append {s s' t t' : Text} (hl : s.length = s'.length) (h : s < s') :
    s++t < s'++t' := by
  induction s generalizing s' with
  | nil => cases s' with
    | nil => exact absurd h (lt_irrefl _)
    | cons => cases hl
  | cons c s ih => cases s' with
    | nil => cases hl
    | cons c' s' =>
      rw [cons_append,cons_append,cons_lt_cons_iff]
      exact (cons_lt_cons_iff.mp h).imp_right (And.imp_right (ih (Nat.succ.inj hl)))

theorem decimal_lt {w m n : ℕ} (h : m < n) (hn : n < 10^w) : decimal w m < decimal w n := by
  have hd : ∀ b < 10, ∀ a < b, Nat.digitChar a < Nat.digitChar b := by decide
  induction w generalizing m n with
  | zero => omega
  | succ w ih =>
    rw [decimal,decimal]
    obtain hlt | heq := (Nat.div_le_div_right (c := 10) h.le).lt_or_eq
    · exact append_lt_append (by rw [length_decimal,length_decimal]) (ih hlt (by omega))
    · rw [heq]
      exact append_left_lt (cons_lt_cons_iff.mpr (.inl
        (hd _ (Nat.mod_lt _ (by decide)) _ (by omega))))

theorem field_lt {w m n : ℕ} {sep : Char} {s t : Text} {P : Prop} (hn : n < 10^w)
    (h : m < n ∨ m = n ∧ P) (hr : P → s < t) :
    decimal w m++sep::s < decimal w n++sep::t := by
  obtain hlt | ⟨rfl,hlt⟩ := h
  · exact append_lt_append (by rw [length_decimal,length_decimal]) (decimal_lt hlt hn)
  · exact append_left_lt (cons_lt_cons_iff.mpr (.inr ⟨rfl,hr hlt⟩))

theorem monthLength_le (y mo : ℕ) : monthLength y mo ≤ 31 := by
  unfold monthLength
  grind

namespace Instant
variable {t t' : Instant}

def fields (t : Instant) : List ℕ := [t.year,t.month,t.day,t.hour,t.minute,t.second]

theorem text_lt (hy : t'.year ≤ 9999) (h : t.fields < t'.fields) : t.text < t'.text := by
  have hmo := t'.month_le
  have hd := t'.day_le.trans (monthLength_le _ _)
  have ⟨hh,hm,hs⟩ := And.intro t'.hour_lt (And.intro t'.minute_lt t'.second_lt)
  simp only [fields,cons_lt_cons_iff] at h
  refine field_lt (by omega) h fun h => field_lt (by omega) h fun h => field_lt (by omega) h
    fun h => field_lt (by omega) h fun h => field_lt (by omega) h fun h => field_lt (by omega) h
      fun h => absurd h (lt_irrefl _)

theorem number_lt (h : t.year < t'.year ∨ t.year = t'.year ∧ (t.month < t'.month ∨
    t.month = t'.month ∧ t.day < t'.day)) : t.number < t'.number := by
  have ⟨hp,hd,hle⟩ := And.intro t.day_pos (And.intro t.day_le t.month_le)
  unfold Date.number
  obtain hy | ⟨hy,hm | ⟨hm,hlt⟩⟩ := h
  · have hb := daysBeforeYear_add_le t.epoch hy
    have hm := daysBeforeMonth_add_le t.year t.month_pos (show t.month < 13 by omega)
    unfold yearLength at hb
    omega
  · have hb := daysBeforeMonth_add_le t.year t.month_pos hm
    rw [← hy]
    omega
  · rw [hy,hm]
    omega

theorem seconds_lt (h : t.fields < t'.fields) : t.seconds < t'.seconds := by
  have ⟨hh,hmi,hs⟩ := And.intro t.hour_lt (And.intro t.minute_lt t.second_lt)
  simp only [fields,cons_lt_cons_iff,lt_irrefl,and_false,or_false] at h
  have hn : t.number < t'.number ∨ t.number = t'.number ∧ (t.hour < t'.hour ∨
      t.hour = t'.hour ∧ (t.minute < t'.minute ∨ t.minute = t'.minute ∧ t.second < t'.second)) := by
    obtain hlt | ⟨hy,hlt | ⟨hm,hlt | ⟨hd,hlt⟩⟩⟩ := h
    · exact .inl (number_lt (.inl hlt))
    · exact .inl (number_lt (.inr ⟨hy,.inl hlt⟩))
    · exact .inl (number_lt (.inr ⟨hy,.inr ⟨hm,hlt⟩⟩))
    · exact .inr ⟨by rw [Date.number,hy,hm,hd,Date.number],hlt⟩
  unfold seconds
  omega

theorem text_lt_iff (hye : t.year ≤ 9999) (hye' : t'.year ≤ 9999) :
    t.text < t'.text ↔ t.seconds < t'.seconds := by
  obtain hlt | heq | hgt := lt_trichotomy t.fields t'.fields
  · exact iff_of_true (text_lt hye' hlt) (seconds_lt hlt)
  · simp only [fields,cons.injEq] at heq
    obtain ⟨hy,hm,hd,hh,hmi,hs,-⟩ := heq
    rw [text,text,seconds,seconds,Date.number,Date.number,hy,hm,hd,hh,hmi,hs]
    exact iff_of_false (lt_irrefl _) (lt_irrefl _)
  · exact iff_of_false (lt_asymm (text_lt hye hgt)) (lt_asymm (seconds_lt hgt))

theorem isTimestamp_text (t : Instant) : isTimestamp t.text = true := by
  have hd : ∀ k < 10, String.utf8EncodeChar (Nat.digitChar k) =
      [(Nat.digitChar k).toUInt8] ∧ isControl (Nat.digitChar k) = false := by decide
  have hs : ∀ c ∈ ['-','T',':','Z'], String.utf8EncodeChar c = [c.toUInt8] ∧
      isControl c = false := all_iff_forall_prop.mp (by decide)
  simp [isTimestamp,utf8,text,decimal,hd,hs,Nat.mod_lt]

end Instant

theorem formatUnixTimestamp_eq (secs : ℕ) (h : secs ≤ 253402300799) : ∃ t : Instant,
    t.seconds = secs ∧ t.year ≤ 9999 ∧ formatUnixTimestamp secs = t.text := by
  obtain ⟨date,hn,hd⟩ := civilDateFromDays_eq (secs/86400)
  have hy : date.year ≤ 9999 := by
    by_contra hy
    obtain ⟨y,hs⟩ := Nat.exists_eq_add_of_le' (show 1 ≤ date.year by omega)
    have hb := daysBeforeYear_succ (show 1969 ≤ y by omega)
    unfold Date.number at hn
    rw [← hs] at hb
    omega
  have hm := date.month_le
  have hdy := date.day_le.trans (monthLength_le _ _)
  refine ⟨⟨date,secs%86400/3600,secs%86400%3600/60,secs%86400%60,by omega,by omega,
    by omega⟩,?_,hy,?_⟩
  · dsimp only [Instant.seconds]
    rw [hn]
    omega
  · have hda : (secs : ℤ)/86400 = (secs/86400 : ℕ) := by norm_cast
    unfold formatUnixTimestamp Instant.text
    dsimp only
    rw [hda,hd]
    norm_cast
    rw [padded_eq,padded_eq,padded_eq,padded_eq,padded_eq,padded_eq]
    all_goals omega

/-- The text of a reading is that of the date and time it names; it is a timestamp, and texts are
ordered as readings are. -/
theorem formatUnixTimestamp_faithful (seconds other : ℕ) (h : seconds ≤ 253402300799)
    (h' : other ≤ 253402300799) :
    (∃ t : Instant, t.seconds = seconds ∧ t.year ≤ 9999 ∧ formatUnixTimestamp seconds = t.text) ∧
    isTimestamp (formatUnixTimestamp seconds) = true ∧
    (formatUnixTimestamp seconds = formatUnixTimestamp other → seconds = other) ∧
    (formatUnixTimestamp seconds < formatUnixTimestamp other ↔ seconds < other) := by
  obtain ⟨t,hs,hy,ht⟩ := formatUnixTimestamp_eq seconds h
  obtain ⟨t',hs',hy',ht'⟩ := formatUnixTimestamp_eq other h'
  have ho := Instant.text_lt_iff hy hy'
  have ho' := Instant.text_lt_iff hy' hy
  rw [hs,hs'] at ho ho'
  rw [ht,ht']
  refine ⟨⟨t,hs,hy,rfl⟩,t.isTimestamp_text,fun heq => ?_,ho⟩
  rw [heq] at ho ho'
  exact le_antisymm (not_lt.mp fun hlt => lt_irrefl _ (ho'.mpr hlt))
    (not_lt.mp fun hlt => lt_irrefl _ (ho.mpr hlt))

theorem formatUnixTimestamp_faithful_leap : formatUnixTimestamp 1582934400 <
    formatUnixTimestamp 1582934401 :=
  (formatUnixTimestamp_faithful 1582934400 1582934401 (by decide) (by decide)).2.2.2.mpr (by decide)

end Cdenv.UnixTime
