import Blocxx.DateTime.TmUtils

/-!
This file embeds the `DateTime` class and what it needs of `TimeDuration`.
-/

namespace Blocxx.Time

inductive ESpecialTime where
  | negInfinity
  | notSpecial
  | posInfinity
  | nadt
  deriving DecidableEq

inductive ETimeOffset where
  | localTime
  | utcTime
  deriving DecidableEq

def MICROSECONDS_PER_SECOND : Int := 1000000

def POS_INF_SEC : Int := 2 ^ 63 - 1

def POS_INF_USEC : Int := 2 ^ 31 - 1

def NEG_INF_SEC : Int := -2 ^ 63

def NEG_INF_USEC : Int := -2 ^ 31

def NADT_SEC : Int := 0

def NADT_USEC : Int := MICROSECONDS_PER_SECOND

structure TimeDuration where
  m_microseconds : Int
  m_special : ESpecialTime
  deriving DecidableEq

namespace TimeDuration

def ofSpecial (special : ESpecialTime) : TimeDuration := ⟨0, special⟩

def ofMicroseconds (microseconds : Int) : TimeDuration := ⟨microseconds, .notSpecial⟩

def microsecondInSecond (td : TimeDuration) : Int :=
  if td.m_microseconds < 0 then
    wrap32 (MICROSECONDS_PER_SECOND - (wrap64 (-td.m_microseconds)).tmod MICROSECONDS_PER_SECOND)
  else td.m_microseconds.tmod MICROSECONDS_PER_SECOND

/-- The unary minus. -/
def neg (td : TimeDuration) : TimeDuration :=
  match td.m_special with
  | .notSpecial => ofMicroseconds (wrap64 (-td.m_microseconds))
  | .negInfinity => ofSpecial .posInfinity
  | .posInfinity => ofSpecial .negInfinity
  | .nadt => td

end TimeDuration

structure DateTime where
  m_seconds : Int
  m_microseconds : Int
  deriving DecidableEq

/-- The calls of the C library. What `mktime` returns comes with `errno`. A call that fails leaves
its `struct tm` as it is. -/
structure CLibrary where
  gmtime_r : Int → Tm
  localtime_r : Int → Tm
  mktime : Tm → Int × Int

def haveSpecialValue (microsecond : Int) : Prop :=
  microsecond < 0 ∨ microsecond ≥ MICROSECONDS_PER_SECOND

instance (microsecond : Int) : Decidable (haveSpecialValue microsecond) :=
  inferInstanceAs (Decidable (_ ∨ _))

def checkNormalTime (microsecond : Int) : Except DateTimeException Unit :=
  if haveSpecialValue microsecond then
    .error ⟨"Special DateTime (infinite or NADT) used where a normal DateTime is required."⟩
  else .ok ()

def normalizeTime (seconds microseconds : Int) : Except DateTimeException (Int × Int) :=
  let t1 := wrap64 (seconds + divFloor microseconds MICROSECONDS_PER_SECOND)
  let m1 := remFloor microseconds MICROSECONDS_PER_SECOND
  if t1 < DATETIME_MINIMUM_TIME ∨ t1 > DATETIME_MAXIMUM_TIME then
    .error ⟨"Supplied time values are out of range: \x7b" ++ toString seconds ++ "," ++
      toString microseconds ++ "\x7d"⟩
  else .ok (t1, m1)

def badDateTime (str : String) : DateTimeException := ⟨"Invalid DateTime: " ++ str⟩

def validateRange (value minValue maxValue : Int) (str : String) :
    Except DateTimeException Unit :=
  if value < minValue ∨ value > maxValue then
    .error (badDateTime ("Bad value \"" ++ toString value ++ "\" should be within [" ++
      toString minValue ++ "," ++ toString maxValue ++ "] in \"" ++ str ++ "\". "))
  else .ok ()

namespace DateTime

/-- The default constructor. -/
def epoch : DateTime := ⟨0, 0⟩

def ofSpecial : ESpecialTime → DateTime
  | .notSpecial => ⟨0, 0⟩
  | .posInfinity => ⟨POS_INF_SEC, POS_INF_USEC⟩
  | .negInfinity => ⟨NEG_INF_SEC, NEG_INF_USEC⟩
  | .nadt => ⟨NADT_SEC, NADT_USEC⟩

def getPosInfinity : DateTime := ofSpecial .posInfinity

def getNegInfinity : DateTime := ofSpecial .negInfinity

def getNADT : DateTime := ofSpecial .nadt

def getSpecialTimeFlag (dt : DateTime) : ESpecialTime :=
  if dt.m_microseconds < 0 then .negInfinity
  else if dt.m_microseconds < MICROSECONDS_PER_SECOND then .notSpecial
  else if dt.m_microseconds > MICROSECONDS_PER_SECOND then .posInfinity
  else .nadt

/-- The constructor and the overload of `set` that take a `time_t`. -/
def ofTimeT (t microseconds : Int) : Except DateTimeException DateTime := do
  let normal ← normalizeTime t microseconds
  return ⟨normal.1, normal.2⟩

section Mutators

variable (library : CLibrary) (dt : DateTime) (timeOffset : ETimeOffset)

def getTm : Except DateTimeException Tm := do
  checkNormalTime dt.m_microseconds
  match timeOffset with
  | .localTime => return library.localtime_r dt.m_seconds
  | .utcTime => return library.gmtime_r dt.m_seconds

/-- The seconds that the private overload of `setTime` stores. -/
def secondsOf (tmarg : Tm) : Except DateTimeException Int :=
  match timeOffset with
  | .localTime =>
      let (t, errno) := library.mktime tmarg
      if (t < 0 ∧ errno ≠ 0) ∨ t < DATETIME_MINIMUM_TIME ∨ t > DATETIME_MAXIMUM_TIME then
        .error ⟨"Attempt to set value outside of allowed DateTime range in DateTime::setTime()"⟩
      else .ok t
  | .utcTime => timeGm tmarg

def setTm (tmarg : Tm) : Except DateTimeException DateTime := do
  let seconds ← secondsOf library timeOffset tmarg
  return { dt with m_seconds := seconds }

/-- The shape of the setters: the broken-down time is read, changed, and stored. -/
def changeTm (change : Tm → Except DateTimeException Tm) : Except DateTimeException DateTime := do
  let theTime ← getTm library dt timeOffset
  let changed ← change theTime
  setTm library dt timeOffset changed

def setHour (hour : Int) : Except DateTimeException DateTime :=
  changeTm library dt timeOffset fun theTime => .ok { theTime with tm_hour := hour }

def setMinute (minute : Int) : Except DateTimeException DateTime :=
  changeTm library dt timeOffset fun theTime => .ok { theTime with tm_min := minute }

def setSecond (second : Int) : Except DateTimeException DateTime :=
  changeTm library dt timeOffset fun theTime => .ok { theTime with tm_sec := second }

def setTime (hour minute second : Int) : Except DateTimeException DateTime :=
  changeTm library dt timeOffset fun theTime =>
    .ok { theTime with tm_hour := hour, tm_min := minute, tm_sec := second }

def setDay (day : Int) : Except DateTimeException DateTime :=
  changeTm library dt timeOffset fun theTime => .ok { theTime with tm_mday := day }

def setMonth (month : Int) : Except DateTimeException DateTime :=
  if month = 0 then .error ⟨"invalid month: 0"⟩
  else changeTm library dt timeOffset fun theTime =>
    .ok { theTime with tm_mon := wrap32 (month - 1) }

def setYear (year : Int) : Except DateTimeException DateTime :=
  if year < DATETIME_MINIMUM_YEAR ∨ year > DATETIME_MAXIMUM_YEAR then
    .error ⟨"invalid year: " ++ toString year⟩
  else changeTm library dt timeOffset fun theTime => .ok { theTime with tm_year := year - 1900 }

def setMicrosecond (microseconds : Int) : Except DateTimeException DateTime := do
  checkNormalTime dt.m_microseconds
  if microseconds < 0 ∨ microseconds ≥ MICROSECONDS_PER_SECOND then
    .error ⟨"invalid microseconds: " ++ toString microseconds⟩
  else return { dt with m_microseconds := microseconds }

/-- The days and months of a special time do not change. -/
def addDays (days : Int) : Except DateTimeException DateTime :=
  if haveSpecialValue dt.m_microseconds then .ok dt
  else changeTm library dt .utcTime fun theTime =>
    .ok { theTime with tm_mday := wrap32 (theTime.tm_mday + days) }

def addMonths (months : Int) : Except DateTimeException DateTime :=
  if haveSpecialValue dt.m_microseconds then .ok dt
  else changeTm library dt .utcTime fun theTime =>
    .ok { theTime with tm_mon := wrap32 (theTime.tm_mon + months) }

/-- The range check is made of the years since 1900. -/
def addYears (years : Int) : Except DateTimeException DateTime :=
  if haveSpecialValue dt.m_microseconds then .ok dt
  else changeTm library dt .utcTime fun theTime => do
    let tm_year := wrap32 (theTime.tm_year + years)
    validateRange tm_year DATETIME_MINIMUM_YEAR DATETIME_MAXIMUM_YEAR
      ("addyears(" ++ toString years ++ ")")
    return { theTime with tm_year := tm_year }

end Mutators

/-- The arguments of `set`. -/
structure Fields where
  year : Int
  month : Int
  day : Int
  hour : Int
  minute : Int
  second : Int
  microseconds : UInt32
  timeOffset : ETimeOffset

/-- The `struct tm` that `set` builds. Whole seconds of the microseconds are carried. -/
def Fields.tm (fields : Fields) : Tm where
  tm_sec := wrap32 (fields.second + fields.microseconds.toNat / 1000000)
  tm_min := fields.minute
  tm_hour := fields.hour
  tm_mday := fields.day
  tm_mon := wrap32 (fields.month - 1)
  tm_year := wrap32 (fields.year - 1900)
  tm_isdst := if fields.timeOffset = .utcTime then 0 else -1

/-- `set` and the constructor from fields. All the microseconds are stored. -/
def set (library : CLibrary) (fields : Fields) : Except DateTimeException DateTime := do
  let seconds ← secondsOf library fields.timeOffset fields.tm
  return ⟨seconds, wrap32 fields.microseconds.toNat⟩

def addSeconds (dt : DateTime) (seconds : Int) : DateTime :=
  if haveSpecialValue dt.m_microseconds then dt
  else { dt with m_seconds := wrap64 (dt.m_seconds + seconds) }

def addMinutes (dt : DateTime) (minutes : Int) : DateTime :=
  if haveSpecialValue dt.m_microseconds then dt
  else { dt with m_seconds := wrap64 (dt.m_seconds + wrap64 (minutes * 60)) }

def addHours (dt : DateTime) (hours : Int) : DateTime :=
  if haveSpecialValue dt.m_microseconds then dt
  else { dt with m_seconds := wrap64 (dt.m_seconds + wrap64 (wrap64 (hours * 60) * 60)) }

/-- The sum is stored before the check that may throw. -/
def addMicroseconds (dt : DateTime) (microseconds : Int) :
    DateTime × Except DateTimeException Unit :=
  if haveSpecialValue dt.m_microseconds then (dt, .ok ())
  else
    let added : DateTime := { dt with m_microseconds := wrap32 (dt.m_microseconds + microseconds) }
    match normalizeTime added.m_seconds added.m_microseconds with
    | .ok normal => (⟨normal.1, normal.2⟩, .ok ())
    | .error exception => (added, .error exception)

/-- The unary minus. -/
def neg (x : DateTime) : Except DateTimeException DateTime :=
  match x.getSpecialTimeFlag with
  | .notSpecial =>
      if x.m_microseconds > 0 then
        ofTimeT (wrap64 (wrap64 (-x.m_seconds) - 1)) (MICROSECONDS_PER_SECOND - x.m_microseconds)
      else ofTimeT (wrap64 (-x.m_seconds)) 0
  | .nadt => .ok x
  | .posInfinity => .ok getNegInfinity
  | .negInfinity => .ok getPosInfinity

/-- The sum with a duration. -/
def add (dt : DateTime) (td : TimeDuration) : Except DateTimeException DateTime :=
  let flag1 := dt.getSpecialTimeFlag
  let flag2 := td.m_special
  if flag1 = .nadt ∨ flag2 = .nadt then .ok getNADT
  else if (flag1 = .posInfinity ∧ flag2 = .negInfinity) ∨
      (flag1 = .negInfinity ∧ flag2 = .posInfinity) then .ok getNADT
  else if flag1 ≠ .notSpecial then .ok dt
  else
    match flag2 with
    | .notSpecial =>
        let td_seconds :=
          (wrap64 (td.m_microseconds - td.microsecondInSecond)).tdiv MICROSECONDS_PER_SECOND
        ofTimeT (wrap64 (dt.m_seconds + td_seconds))
          (wrap32 (dt.m_microseconds + td.microsecondInSecond))
    | .negInfinity => .ok getNegInfinity
    | .posInfinity => .ok getPosInfinity
    | .nadt => .ok getNADT

def sub (dt : DateTime) (td : TimeDuration) : Except DateTimeException DateTime := dt.add td.neg

/-- The difference of two times. -/
def difference (x y : DateTime) : TimeDuration :=
  let flag1 := x.getSpecialTimeFlag
  let flag2 := y.getSpecialTimeFlag
  if flag1 ≠ .notSpecial ∨ flag2 ≠ .notSpecial then
    if flag1 = .nadt ∨ flag2 = .nadt then .ofSpecial .nadt
    else if flag1 = flag2 then .ofSpecial .nadt
    else if flag2 = .negInfinity then .ofSpecial .posInfinity
    else if flag2 = .posInfinity then .ofSpecial .negInfinity
    else .ofSpecial flag1
  else
    let seconds := wrap64 (x.m_seconds - y.m_seconds)
    let microseconds := wrap32 (x.m_microseconds - y.m_microseconds)
    .ofMicroseconds (wrap64 (wrap64 (seconds * MICROSECONDS_PER_SECOND) + microseconds))

def lt (x tm : DateTime) : Bool :=
  if x.m_microseconds = NADT_USEC ∨ tm.m_microseconds = NADT_USEC then false
  else if x.m_seconds = tm.m_seconds then x.m_microseconds < tm.m_microseconds
  else x.m_seconds < tm.m_seconds

def le (x tm : DateTime) : Bool := x = tm ∨ x.lt tm

end DateTime

end Blocxx.Time
