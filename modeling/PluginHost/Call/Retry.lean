/-
  PluginHost.Call.Retry

  Calling again after a failure: at a fixed interval, up to a ceiling if there
  is one, and not at all after an error of a terminal kind.
-/
import PluginHost.Error

namespace PluginHost

namespace Retry

/-- When a call is made again. -/
structure Policy where
  /-- The wait between two attempts, in milliseconds. -/
  interval : Nat := 3000
  /-- After how many attempts the call is given up. -/
  maxAttempts : Option Nat := none
  /-- The kinds of errors after which no attempt is made. -/
  terminal : List Error.Kind := [.pingRefused, .execRefused, .callFailed]

/-- Whether a kind of errors ends a call. -/
def Policy.isTerminal (p : Policy) (k : Error.Kind) : Bool :=
  p.terminal.contains k

/-- What is to be done after an attempt. -/
inductive Verdict (α : Type) where
  | finish (result : Except Error α)
  | again

/-- The greatest number that the count of attempts reaches. -/
def maxCount : Nat :=
  UInt32.size - 1

/-- The count of attempts at the attempt of an index, which starts at zero. -/
def countAt (index : Nat) : Nat :=
  min (index + 1) maxCount

/-- What is to be done after an attempt, which was the one of the given
    count. -/
def Policy.judge {α : Type} (p : Policy) (count : Nat) : Except Error α → Verdict α
  | .ok a => .finish (.ok a)
  | .error e =>
    if p.isTerminal e.kind then .finish (.error e)
    else
      match p.maxAttempts with
      | some limit =>
        if limit ≤ count then .finish (.error (.retriesExhausted count e)) else .again
      | none => .again

/-- An attempt as it went: how long it took, in milliseconds, and what it came
    to. -/
structure Attempt (α : Type) where
  elapsed : Nat := 0
  outcome : Except Error α

/-- A call that came to an end: when its attempts were started, its result, and
    when that was there. -/
structure Run (α : Type) where
  starts : List Nat
  result : Except Error α
  finish : Nat

/-- A call from the attempt of an index on, which is due at `now`.  Every attempt
    finds the state that the one before it has left.  There is no result if the call
    outlasts the number of attempts given as fuel. -/
def Policy.runFrom {α σ : Type} (p : Policy) (attempt : σ → Attempt α × σ) :
    (fuel index now : Nat) → σ → Option (Run α × σ)
  | 0, _, _, _ => none
  | fuel + 1, index, now, s =>
    let (a, s) := attempt s
    let ended := now + a.elapsed
    match p.judge (countAt index) a.outcome with
    | .finish result => some (⟨[now], result, ended⟩, s)
    | .again => do
      let (run, s) ← p.runFrom attempt fuel (index + 1) (ended + p.interval) s
      return ({ run with starts := now :: run.starts }, s)

/-- A call that is begun now, if it ends within a number of attempts, which go as
    `attempts` says. -/
def Policy.run {α : Type} (p : Policy) (now : Nat) (attempts : Nat → Attempt α) (fuel : Nat) :
    Option (Run α) :=
  (p.runFrom (fun index => (attempts index, index + 1)) fuel 0 now 0).map (·.1)

/-- A call that is given up at a moment: when its attempts were started, and its result
    and when that was there, if it was there before. -/
structure Cut (α : Type) where
  starts : List Nat := []
  ended : Option (Except Error α × Nat) := none

/-- A call from the attempt of an index on, which is due at `now`, as far as it goes
    before a moment and within the number of attempts given as fuel. -/
def Policy.runUntil {α σ : Type} (p : Policy) (attempt : σ → Attempt α × σ) (limit : Nat) :
    (fuel index now : Nat) → σ → Cut α
  | 0, _, _, _ => {}
  | fuel + 1, index, now, s =>
    if limit ≤ now then {}
    else
      let (a, s) := attempt s
      let ended := now + a.elapsed
      if limit ≤ ended then { starts := [now] }
      else
        match p.judge (countAt index) a.outcome with
        | .finish result => { starts := [now], ended := some (result, ended) }
        | .again =>
          let later := p.runUntil attempt limit fuel (index + 1) (ended + p.interval) s
          { later with starts := now :: later.starts }

end Retry

end PluginHost
