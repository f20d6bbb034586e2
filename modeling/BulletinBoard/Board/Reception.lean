/-
# The reception

Callers are let in up to a limit. An arrival is first counted in and then judged by the count before
it: if that has reached the limit, the arrival is turned away, counted out again and told why.
Calls may end at any time, also between these steps. A reception that is shut takes no arrivals.

Key definitions: `Reception`, `Reception.Event`, `Reception.step?`, `Reception.told?`.
-/
namespace BulletinBoard

/-- What callers are told who are turned away. -/
def busyMessage : String := "All nodes are busy, please call back later.\r\n"

/-- How far the arrival at the door has got. -/
inductive Arrival where
  /-- Nobody is at the door. -/
  | nobody
  /-- Somebody has been counted in, after so many others. -/
  | counted (before : Nat)
  /-- Somebody has been turned away and is still counted. -/
  | turnedAway
  deriving DecidableEq, Repr

/-- The state of the door. -/
structure Reception where
  /-- How many calls are served at once. -/
  limit : Nat
  /-- The count. -/
  active : Nat
  /-- The calls that have been let in and have not ended. -/
  served : Nat
  arrival : Arrival
  /-- Whether arrivals are taken. -/
  accepting : Bool
  deriving DecidableEq, Repr

namespace Reception

/-- A door that nobody has come to. -/
def start (limit : Nat) : Reception := ⟨limit, 0, 0, .nobody, true⟩

/-- What can happen next. -/
inductive Event where
  /-- Somebody arrives and is counted in. -/
  | arrive
  /-- The arrival is let in or turned away. -/
  | judge
  /-- The one who was turned away is counted out and told why. -/
  | dismiss
  /-- A call ends and is counted out. -/
  | hangUp
  /-- The reception is shut. -/
  | shut
  deriving DecidableEq, Repr

/-- What an event leads to, if it can happen. -/
def step? (r : Reception) : Event → Option Reception
  | .arrive =>
    if r.accepting && r.arrival == .nobody then
      some { r with active := r.active + 1, arrival := .counted r.active }
    else none
  | .judge =>
    match r.arrival with
    | .counted before =>
      if r.limit ≤ before then some { r with arrival := .turnedAway }
      else some { r with arrival := .nobody, served := r.served + 1 }
    | _ => none
  | .dismiss =>
    match r.arrival with
    | .turnedAway => some { r with active := r.active - 1, arrival := .nobody }
    | _ => none
  | .hangUp =>
    if r.served = 0 then none
    else some { r with active := r.active - 1, served := r.served - 1 }
  | .shut => if r.accepting then some { r with accepting := false } else none

/-- What is sent to the arrival at the door with an event. -/
def told? (r : Reception) : Event → Option String
  | .dismiss =>
    match r.arrival with
    | .turnedAway => some busyMessage
    | _ => none
  | _ => none

end Reception

end BulletinBoard
