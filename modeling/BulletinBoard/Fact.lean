/-
# Facts

What a template can ask the board about: the system, the caller, and the call. A board answers each
question afresh, and may have no answer.

Key definitions: `Fact`, `Facts`, `ChangingFacts`.
-/
namespace BulletinBoard

/-- A question a template can ask. -/
inductive Fact where
  | systemName
  | sysopName
  | userName
  | firstName
  | realName
  | city
  | phone
  | date
  | time
  | nodeNumber
  | ipAddress
  | lastCall
  | lastUser
  | minutesOnline
  | minutesRemaining
  | timeOff
  | userCalls
  | systemCalls
  | uploads
  | downloads
  | ratio
  | messageArea
  | fileArea
  | privilegeLevel
  | helpLevel
  | graphics
  | locality
  deriving DecidableEq, Repr

namespace Fact

/-- Every fact. -/
def all : List Fact := [
  systemName, sysopName, userName, firstName, realName, city, phone, date, time, nodeNumber,
  ipAddress, lastCall, lastUser, minutesOnline, minutesRemaining, timeOff, userCalls, systemCalls,
  uploads, downloads, ratio, messageArea, fileArea, privilegeLevel, helpLevel, graphics, locality]

/-- The name a fact has in messages. -/
def name : Fact → String
  | systemName => "SystemName"
  | sysopName => "SysopName"
  | userName => "UserName"
  | firstName => "FirstName"
  | realName => "RealName"
  | city => "City"
  | phone => "Phone"
  | date => "Date"
  | time => "Time"
  | nodeNumber => "NodeNumber"
  | ipAddress => "IpAddress"
  | lastCall => "LastCall"
  | lastUser => "LastUser"
  | minutesOnline => "MinutesOnline"
  | minutesRemaining => "MinutesRemaining"
  | timeOff => "TimeOff"
  | userCalls => "UserCalls"
  | systemCalls => "SystemCalls"
  | uploads => "Uploads"
  | downloads => "Downloads"
  | ratio => "Ratio"
  | messageArea => "MessageArea"
  | fileArea => "FileArea"
  | privilegeLevel => "PrivilegeLevel"
  | helpLevel => "HelpLevel"
  | graphics => "Graphics"
  | locality => "Locality"

/-- The fact of a name. -/
def ofName? (s : String) : Option Fact :=
  all.find? fun f => f.name == s

end Fact

/-- The answers of a board at one moment. -/
abbrev Facts := Fact → Option String

namespace Facts

/-- A board that answers nothing. -/
def empty : Facts := fun _ => none

/-- The same board with another answer to one question. -/
def set (facts : Facts) (f : Fact) (value : String) : Facts :=
  fun g => if g = f then some value else facts g

@[simp] theorem set_self (facts : Facts) (f : Fact) (value : String) :
    facts.set f value f = some value := by
  simp [set]

theorem set_of_ne (facts : Facts) {f g : Fact} (value : String) (h : g ≠ f) :
    facts.set f value g = facts g := by
  simp [set, h]

end Facts

/-- The answers of a board that is asked at every step of a run: `facts n` are those at the step
that `n` others come before. -/
def ChangingFacts := Nat → Facts

/-- Answers that stay as they are. -/
def Facts.steady (facts : Facts) : ChangingFacts := fun _ => facts

instance : Coe Facts ChangingFacts := ⟨Facts.steady⟩

@[simp] theorem Facts.steady_apply (facts : Facts) (n : Nat) : facts.steady n = facts := rfl

end BulletinBoard
