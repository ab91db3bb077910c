import VoidFrame.Library.Intervals

-- The real-time clock: its registers, and the conversion between dates and seconds since 1970.

namespace Rtc

-- The registers keep what is written to them.
abbrev Cmos := UInt8 → UInt8

def cmosAddress : UInt8 := 0x70

def seconds : UInt8 := 0x00
def minutes : UInt8 := 0x02
def hours : UInt8 := 0x04
def dayOfMonth : UInt8 := 0x07
def month : UInt8 := 0x08
def year : UInt8 := 0x09
def century : UInt8 := 0x32
def statusA : UInt8 := 0x0A
def statusB : UInt8 := 0x0B

def writeRegister (cmos : Cmos) (reg value : UInt8) : Cmos :=
  Function.update cmos reg value

def bcdToBinary (bcd : UInt8) : UInt8 :=
  (bcd &&& 0x0F) + bcd / 16 * 10

def binaryToBcd (binary : UInt8) : UInt8 :=
  (binary / 10) <<< 4 ||| binary % 10

def isUpdating (cmos : Cmos) : Bool :=
  cmos statusA &&& 0x80 ≠ 0

structure DateTime where
  second : UInt8
  minute : UInt8
  hour : UInt8
  day : UInt8
  month : UInt8
  year : UInt16

-- The value of a register with the status `b`, and the other way round.
def decode (b value : UInt8) : UInt8 :=
  if b &&& 0x04 = 0 then bcdToBinary value else value

def encode (b value : UInt8) : UInt8 :=
  if b &&& 0x04 = 0 then binaryToBcd value else value

-- In the 12-hour format the highest bit stands for the second half of the day.
def decodeHour (b value : UInt8) : UInt8 :=
  if b &&& 0x02 = 0 ∧ decode b value &&& 0x80 ≠ 0 then ((decode b value &&& 0x7F) + 12) % 24 else decode b value

-- Waits for ever while the clock is being updated.
def rtcReadTime (cmos : Cmos) : Option DateTime :=
  if isUpdating cmos then none
  else
    let b := cmos statusB
    some {
      second := decode b (cmos seconds)
      minute := decode b (cmos minutes)
      hour := decodeHour b (cmos hours)
      day := decode b (cmos dayOfMonth)
      month := decode b (cmos month)
      year := (decode b (cmos year)).toUInt16 + (decode b (cmos century)).toUInt16 * 100
    }

def rtcSetTime (cmos : Cmos) (t : DateTime) : Cmos :=
  let b := cmos statusB
  let cmos := writeRegister cmos cmosAddress (statusB ||| 0x80)
  let cmos := writeRegister cmos statusB (b ||| 0x80)
  let cmos := writeRegister cmos seconds (encode b t.second)
  let cmos := writeRegister cmos minutes (encode b t.minute)
  let cmos := writeRegister cmos hours (encode b t.hour)
  let cmos := writeRegister cmos dayOfMonth (encode b t.day)
  let cmos := writeRegister cmos month (encode b t.month)
  let cmos := writeRegister cmos year (encode b (t.year % 100).toUInt8)
  let cmos := writeRegister cmos century (encode b (t.year / 100).toUInt8)
  let cmos := writeRegister cmos statusB b
  writeRegister cmos cmosAddress statusB

def daysInMonth : List Nat := [31, 28, 31, 30, 31, 30, 31, 31, 30, 31, 30, 31]

def isLeapYear (year : UInt16) : Bool :=
  (year % 4 = 0 ∧ year % 100 ≠ 0) ∨ year % 400 = 0

def yearDays (year : UInt16) : Nat :=
  if isLeapYear year then 366 else 365

-- Years are counted with 16 bits.
def yearLen (year : Nat) : Option Nat :=
  some (yearDays (UInt16.ofNat year))

-- There is no such month if it is not in the table.
def monthLen (year : UInt16) (month : Nat) : Option Nat := do
  return (← daysInMonth[month - 1]?) + if month = 2 ∧ isLeapYear year then 1 else 0

-- The days before a month, from 1970 on.
def daysBefore (year : UInt16) (month : UInt8) : Option Nat := do
  return (← Intervals.total yearLen 1970 (year.toNat - 1970)) +
    (← Intervals.total (monthLen year) 1 (month.toNat - 1))

def rtcGetUnixTime (cmos : Cmos) : Option UInt64 := do
  let t ← rtcReadTime cmos
  let days := UInt64.ofNat (← daysBefore t.year t.month) + (t.day.toUInt64 - 1)
  return days * 86400 + t.hour.toUInt64 * 3600 + t.minute.toUInt64 * 60 + t.second.toUInt64

-- The year and the days in it, then the month and the days in it.
def dateOf (days : Nat) : Option (UInt16 × Nat × Nat) := do
  let (days, year) ← Intervals.locate yearLen (days + 1) days 1970
  let (days, month) ← Intervals.locate (monthLen (UInt16.ofNat year)) (days + 1) days 1
  return (UInt16.ofNat year, month, days)

def rtcSetUnixTime (cmos : Cmos) (unixTime : UInt64) : Option Cmos := do
  let (year, month, days) ← dateOf (unixTime / 60 / 60 / 24).toNat
  return rtcSetTime cmos {
    second := (unixTime % 60).toUInt8
    minute := (unixTime / 60 % 60).toUInt8
    hour := (unixTime / 60 / 60 % 24).toUInt8
    day := UInt8.ofNat (days + 1)
    month := UInt8.ofNat month
    year
  }

end Rtc
