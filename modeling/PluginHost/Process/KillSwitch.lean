/-
  PluginHost.Process.KillSwitch

  The switch by which a process is told to stop.  A switch works once: it sends
  the process a terminate signal and tells whoever watches the process.  All
  clones of a switch share one state, which is what `KillSwitch` stands for.
-/

namespace PluginHost

/-- Why a signal could not be sent. -/
inductive SignalFault where
  /-- The number is none that a process can have. -/
  | invalid
  | notPermitted
  deriving DecidableEq

/-- The short name of a fault. -/
def SignalFault.name : SignalFault → String
  | .invalid => "EINVAL"
  | .notPermitted => "EPERM"

/-- The text of a fault. -/
def SignalFault.message (f : SignalFault) : String :=
  match f with
  | .invalid => f.name ++ ": Invalid argument"
  | .notPermitted => f.name ++ ": Operation not permitted"

/-- What comes of sending a signal to a process. -/
inductive Delivery where
  | delivered
  | noSuchProcess
  | failed (fault : SignalFault)
  deriving DecidableEq

/-- The way from a switch to the watcher of its process. -/
inductive Mailbox where
  /-- The watcher waits. -/
  | waiting
  /-- The watcher has been told, and has not looked yet. -/
  | told
  /-- Nothing will come any more. -/
  | over
  /-- There is no watcher. -/
  | gone
  deriving DecidableEq

/-- The shared state of all clones of a switch.  A switch without a process has
    a watcher only. -/
structure KillSwitch where
  process : Option Nat := none
  spent : Bool := false
  mailbox : Mailbox := .waiting
  deriving DecidableEq

namespace KillSwitch

/-- The greatest number that a process can have. -/
def maxPid : Nat :=
  UInt32.size / 2 - 1

/-- What triggering a switch leads to: the switch afterwards, the answer, and
    the process to which a signal was sent or tried to be sent. -/
structure Triggered where
  switch : KillSwitch
  answer : Except SignalFault Bool
  signalled : Option Nat := none

/-- The switch after its only use, if that did not reach the watcher. -/
def spend (s : KillSwitch) : KillSwitch :=
  { s with
    spent := true
    mailbox := match s.mailbox with
      | .waiting => .over
      | m => m }

/-- The switch after its only use, if the watcher was told. -/
def tell (s : KillSwitch) : KillSwitch :=
  { s with spent := true, mailbox := .told }

/-- Triggers a switch.  The answer is whether the watcher has been told.  A
    signal is sent only while there is a watcher, since without one the number
    of the process may belong to another process by now. -/
def trigger (send : Nat → Delivery) (s : KillSwitch) : Triggered :=
  if s.spent then ⟨s, .ok false, none⟩
  else if s.mailbox ≠ .waiting then ⟨s.spend, .ok false, none⟩
  else
    match s.process with
    | none => ⟨s.tell, .ok true, none⟩
    | some pid =>
      if pid = 0 ∨ maxPid < pid then ⟨s.spend, .error .invalid, none⟩
      else
        match send pid with
        | .delivered => ⟨s.tell, .ok true, some pid⟩
        | .noSuchProcess => ⟨s.spend, .ok false, some pid⟩
        | .failed fault => ⟨s.spend, .error fault, some pid⟩

/-- The switch after its last clone has gone: nobody can use it any more, and the
    watcher is not told. -/
def dropSender (s : KillSwitch) : KillSwitch :=
  { s with
    mailbox := match s.mailbox with
      | .waiting => .over
      | m => m }

/-! ## The watcher's side -/

/-- What the watcher finds when it looks. -/
inductive Received where
  | notified
  | empty
  | closed
  | noReceiver
  deriving DecidableEq

/-- The watcher looks, which takes the message away. -/
def receive (s : KillSwitch) : Received × KillSwitch :=
  match s.mailbox with
  | .waiting => (.empty, s)
  | .told => (.notified, { s with mailbox := .over })
  | .over => (.closed, s)
  | .gone => (.noReceiver, s)

/-- The watcher takes no message any more, except one that is there. -/
def closeReceiver (s : KillSwitch) : KillSwitch :=
  match s.mailbox with
  | .waiting => { s with mailbox := .over }
  | _ => s

/-- The watcher goes away. -/
def dropReceiver (s : KillSwitch) : KillSwitch :=
  { s with mailbox := .gone }

end KillSwitch

end PluginHost
