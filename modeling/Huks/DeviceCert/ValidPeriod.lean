import Huks.Common.Types
import Huks.Lib.Access

namespace Huks.InPlace

-- `struct timeval`
structure Timeval where
  tvSec  : Int64
  tvUsec : Int64
  deriving DecidableEq, Repr

structure DataTime where
  seconds : UInt32
  min     : UInt32
  hour    : UInt32
  day     : UInt32
  month   : UInt32
  year    : UInt32
  deriving DecidableEq, Repr

def utctimeLen : Nat := 13

structure ValidPeriod where
  start : Vector UInt8 utctimeLen
  «end» : Vector UInt8 utctimeLen
  deriving DecidableEq, Repr

-- What may go wrong where a date is computed: a difference of unsigned numbers wraps around, or a loop is not
-- at its end after as many rounds as are looked at.
inductive DateFault
  | underflow | unfinished
  deriving DecidableEq, Repr

abbrev DateM := Except (Stop DateFault)

def monthLengths : List (List UInt32) :=
  [[31, 28, 31, 30, 31, 30, 31, 31, 30, 31, 30, 31],
   [31, 29, 31, 30, 31, 30, 31, 31, 30, 31, 30, 31]]

def yearLengths : List UInt32 := [365, 366]

-- A difference of two `uint32_t`
def difference (a b : UInt32) : DateM UInt32 :=
  if a < b then throw (.error .underflow) else return a - b

def getYearIndex (year : UInt32) : Nat :=
  if year % 4 = 0 ∧ (year % 100 ≠ 0 ∨ year % 400 = 0) then 1 else 0

def getLeapDays (year : UInt32) : DateM UInt32 := do
  return (← difference (year / 4) (year / 100)) + year / 400

def getTimeStampTee (time : DataTime) : Vector UInt8 utctimeLen :=
  let year := time.year - time.year / 100 * 100
  let tens (n : UInt32) : UInt8 := (n / 10 + 48).toUInt8
  let units (n : UInt32) : UInt8 := (n % 10 + 48).toUInt8
  #v[tens year, units year, tens time.month, units time.month, tens time.day, units time.day,
    tens time.hour, units time.hour, tens time.min, units time.min, tens time.seconds, units time.seconds, 90]

-- The `while` loop of `GenerateSysDateTime`, for so many rounds at most
def skipYears : Nat → UInt32 → UInt32 → DateM (UInt32 × UInt32)
  | 0, _, _                   => throw (.error .unfinished)
  | rounds + 1, year, tDays => do
    if tDays < (← elemAt yearLengths (getYearIndex year)) then
      return (year, tDays)
    else
      let carryOver := if tDays / 366 = 0 then 1 else tDays / 366
      let newYear := year + carryOver
      let leapDays ← difference (← getLeapDays (← difference newYear 1)) (← getLeapDays (← difference year 1))
      let tDays ← difference tDays ((← difference newYear year) * 365)
      let tDays ← difference tDays leapDays
      skipYears rounds newYear tDays

-- The `for` loop, at a month and with the lengths of the months from there on
def skipMonths : List UInt32 → UInt32 → UInt32 → DateM (UInt32 × UInt32)
  | [], _, _                     => throw .outside
  | length :: ip, month, iDays =>
    if length ≤ iDays then do
      skipMonths ip (month + 1) (← difference iDays length)
    else
      return (month, iDays)

def generateSysDateTime (rounds : Nat) (rtcTime : UInt32) : DateM DataTime := do
  let seconds := rtcTime
  let tDays := seconds / 86400
  let remainSec ← difference seconds (tDays * 86400)
  let (year, iDays) ← skipYears rounds 1970 tDays
  let hour := remainSec / 3600
  let remainSec := remainSec % 3600
  let ip ← elemAt monthLengths (getYearIndex year)
  let (month, iDays) ← skipMonths ip 0 iDays
  return { seconds := remainSec % 60, min := remainSec / 60, hour, day := iDays + 1, month := month + 1, year }

def addYears (start : Vector UInt8 utctimeLen) (years : UInt32) : Vector UInt8 utctimeLen :=
  let tens : UInt32 := start[0].toUInt32 - 48
  let units : UInt32 := start[1].toUInt32 - 48
  let units := units + years
  let tens := tens + units / 10
  let units := units % 10
  (start.set 0 (tens + 48).toUInt8).set 1 (units + 48).toUInt8

-- The seconds of a time in milliseconds, where there is no division of `uint64_t`
def secondsOfMillis (activeDateTime : UInt64) : UInt64 :=
  let tmpSec := activeDateTime >>> 10
  let tmpSec := tmpSec + ((3 * tmpSec) >>> 7) + ((9 * tmpSec) >>> 14)
  tmpSec + ((activeDateTime - tmpSec * 1000).toUInt32 / 1000).toUInt64

def activeDateTime (curTime : Timeval) : UInt64 :=
  curTime.tvSec.toUInt64 * 1000 + curTime.tvUsec.toUInt64 / 1000

-- `curTime` is what `gettimeofday` gives.
def setAttestCertValid (rounds : Nat) (curTime : Option Timeval) (valid : ValidPeriod) : DateM ValidPeriod :=
  match curTime with
  | none         => return valid
  | some curTime => do
    let tmpSec := secondsOfMillis (activeDateTime curTime)
    let notBefore ← generateSysDateTime rounds tmpSec.toUInt32
    let start := getTimeStampTee notBefore
    return { start, «end» := addYears start 10 }

end Huks.InPlace
