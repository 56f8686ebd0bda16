/-
  PluginHost.Proofs.Process.Life

  The life of a program from its start to the moment at which it is reaped.  Three take
  part in it: the program, which ends when it likes; everybody who holds a clone of its
  switch; and its watcher, a task that waits for the end of the program and for the
  message of the switch at once.

    * `Moves a l m` — one act of one of them.  Time goes on only when the watcher has
      nothing to do (`AtRest`), and not beyond the end of its patience.
    * `Run l₀ log l` — a life has come from `l₀` to `l`, and `log` has all that was done,
      each act with its moment.

  What the watcher is at tells how far a life has come, and what happened before
  (`Chapter`).  Every act keeps to this (`Inv.move`), and all that can be said of a
  program at any time follows from it (`Run.lifecycle`).
-/
import PluginHost.Process.Child
import PluginHost.Proofs.Process.OneShot

namespace PluginHost

namespace KillSwitch.Act

/-- Whether it is done by somebody who has a clone, and not by the watcher. -/
def isUse : Act → Bool
  | .dropReceiver => false
  | .receive _ => false
  | _ => true

/-- Whether a signal gets to the process. -/
def delivers : Act → Bool
  | .trigger _ .delivered _ (some _) => true
  | _ => false

end KillSwitch.Act

/-- The program after it got a signal. -/
def Child.signal (c : Child) (moment : Nat) (signal : ChildSignal) : Child :=
  { c with signals := c.signals ++ [(moment, signal)] }

/-- The program as it was when it was started. -/
def Child.newborn (c : Child) : Child :=
  { c with signals := [], ended := none }

/-- What the watcher of a program is at. -/
inductive Watcher where
  /-- It waits for the end of the program and for the message. -/
  | selecting
  /-- There will be no message: it waits for the end of the program. -/
  | deaf
  /-- It has got the message, and gives the program time up to a moment. -/
  | patient (deadline : Nat)
  /-- It has killed the program, and waits for its end. -/
  | killing
  /-- It has reaped the program, and is gone. -/
  | done
  deriving DecidableEq

/-- A program, its switch with all clones, and its watcher. -/
structure Life where
  now : Nat
  child : Child
  shared : KillSwitch.Shared
  watcher : Watcher := .selecting

namespace Life

/-- The life of a program that was just started. -/
def begin (c : Child) : Life where
  now := c.started
  child := c.newborn
  shared := .fresh (some c.pid)

/-- What is done in the life of a program. -/
inductive Act where
  /-- A clone of the switch is used. -/
  | use (a : KillSwitch.Act)
  /-- The program ends. -/
  | exit
  /-- The watcher takes the message. -/
  | hear
  /-- The watcher finds that there will be no message. -/
  | miss
  /-- The watcher finds that the program has ended. -/
  | reap
  /-- The watcher has lost its patience. -/
  | kill
  /-- Time passes up to a moment. -/
  | wait (moment : Nat)

/-- The watcher has nothing to do now. -/
def AtRest (l : Life) : Prop :=
  l.watcher = .done ∨ l.child.isRunning = true ∧
    (l.watcher = .selecting → l.shared.switch.mailbox = .waiting) ∧
    ∀ deadline, l.watcher = .patient deadline → l.now < deadline

/-- What one act makes of a life. -/
inductive Moves : Act → Life → Life → Prop
  | use {l : Life} {a : KillSwitch.Act} {y : KillSwitch.Shared} (ha : a.isUse = true)
      (h : KillSwitch.Moves a l.shared y) :
      Moves (.use a) l { l with
        shared := y
        child := if a.delivers then l.child.signal l.now .terminate else l.child }
  | exit {l : Life} (h : l.child.isRunning = true) :
      Moves .exit l { l with child := l.child.endAt l.now }
  /-- The watcher's end of the switch goes with the message. -/
  | hear {l : Life} (hw : l.watcher = .selecting) (h : l.shared.switch.receive.1 = .notified) :
      Moves .hear l { l with
        shared := { l.shared with switch := l.shared.switch.receive.2.dropReceiver }
        watcher := .patient (l.now + Child.patience) }
  | miss {l : Life} (hw : l.watcher = .selecting) (h : l.shared.switch.receive.1 = .closed) :
      Moves .miss l { l with watcher := .deaf }
  | reap {l : Life} (hw : l.watcher ≠ .done) (h : l.child.isRunning = false) :
      Moves .reap l { l with
        shared := { l.shared with switch := l.shared.switch.dropReceiver }
        watcher := .done }
  | kill {l : Life} {deadline : Nat} (hw : l.watcher = .patient deadline) (hd : deadline ≤ l.now)
      (h : l.child.isRunning = true) :
      Moves .kill l { l with child := l.child.signal l.now .kill, watcher := .killing }
  | wait {l : Life} {moment : Nat} (hrest : l.AtRest) (hnow : l.now ≤ moment)
      (hd : ∀ deadline, l.watcher = .patient deadline → moment ≤ deadline) :
      Moves (.wait moment) l { l with now := moment }

/-- A life has come to a state, and what was done up to then. -/
inductive Run (l₀ : Life) : List (Nat × Act) → Life → Prop
  | nil : Run l₀ [] l₀
  | snoc {log : List (Nat × Act)} {a : Act} {l m : Life} (h : Run l₀ log l) (hm : Moves a l m) :
      Run l₀ (log ++ [(l.now, a)]) m

/-! ## What a log tells -/

/-- Whether a trigger answers yes. -/
def Act.asks : Act → Bool
  | .use a => a.tells
  | _ => false

def Act.isReap : Act → Bool
  | .reap => true
  | _ => false

/-- The moments at which a trigger has answered yes. -/
def asks (log : List (Nat × Act)) : List Nat :=
  (log.filter (·.2.asks)).map (·.1)

/-- The moments at which the program was reaped. -/
def reaps (log : List (Nat × Act)) : List Nat :=
  (log.filter (·.2.isReap)).map (·.1)

variable {log : List (Nat × Act)} {c : Child} {a : Act} {l m : Life} {t : Nat}

theorem asks_snoc (log : List (Nat × Act)) (t : Nat) (a : Act) :
    asks (log ++ [(t, a)]) = asks log ++ if a.asks then [t] else [] := by
  rw [asks, List.filter_append, List.map_append]
  cases h : a.asks <;> simp [asks, h]

theorem reaps_snoc (log : List (Nat × Act)) (t : Nat) (a : Act) :
    reaps (log ++ [(t, a)]) = reaps log ++ if a.isReap then [t] else [] := by
  rw [reaps, List.filter_append, List.map_append]
  cases h : a.isReap <;> simp [reaps, h]

theorem asks_snoc_of_not (h : a.asks = false) : asks (log ++ [(t, a)]) = asks log := by
  rw [asks_snoc, h]
  exact List.append_nil _

theorem reaps_snoc_of_not (h : a.isReap = false) : reaps (log ++ [(t, a)]) = reaps log := by
  rw [reaps_snoc, h]
  exact List.append_nil _

/-! ## Chapters -/

/-- How far a life has come at a moment.  The watcher and its mailbox say which triggers
    have answered yes up to then, which signals the program got, and when it ended. -/
inductive Chapter (now : Nat) :
    Watcher → Mailbox → List Nat → List (Nat × ChildSignal) → Option Nat → Prop
  | waiting {ended : Option Nat} : Chapter now .selecting .waiting [] [] ended
  /-- The message is there, and was sent just now. -/
  | told {ended : Option Nat} :
      Chapter now .selecting .told [now] [(now, .terminate)] ended
  /-- The switch can tell the watcher nothing any more. -/
  | mute {ended : Option Nat} : Chapter now .selecting .over [] [] ended
  | deaf {ended : Option Nat} : Chapter now .deaf .over [] [] ended
  | patient {t : Nat} {ended : Option Nat} (h : now ≤ t + Child.patience) :
      Chapter now (.patient (t + Child.patience)) .gone [t] [(t, .terminate)] ended
  | killing {t : Nat} {ended : Option Nat} (hnow : t + Child.patience ≤ now)
      (h : ∀ e ∈ ended, t + Child.patience ≤ e) :
      Chapter now .killing .gone [t] [(t, .terminate), (t + Child.patience, .kill)] ended
  /-- The program has ended, and nobody has told it to. -/
  | untold {e : Nat} : Chapter now .done .gone [] [] (some e)
  /-- The program has ended before the watcher lost its patience. -/
  | obeyed {t e : Nat} (h : e ≤ t + Child.patience) :
      Chapter now .done .gone [t] [(t, .terminate)] (some e)
  | killed {t e : Nat} (h : t + Child.patience ≤ e) :
      Chapter now .done .gone [t] [(t, .terminate), (t + Child.patience, .kill)] (some e)

/-- What every act keeps. -/
structure Inv (log : List (Nat × Act)) (l : Life) : Prop where
  process : l.shared.switch.process = some l.child.pid
  used : l.shared.switch.spent = true → l.shared.switch.mailbox ≠ .waiting
  chapter : Chapter l.now l.watcher l.shared.switch.mailbox (asks log) l.child.signals
    l.child.ended
  -- Time does not go on between the end of the program and its reaping.
  ended : ∀ e ∈ l.child.ended, e ≤ l.now ∧ (l.watcher ≠ .done → e = l.now)
  reaped : reaps log = if l.watcher = .done then l.child.ended.toList else []

theorem Inv.init (c : Child) : Inv [] (begin c) where
  process := rfl
  used := nofun
  chapter := .waiting
  ended := nofun
  reaped := rfl

/-! ### Uses of the switch -/

end Life

namespace KillSwitch

variable {a : Act} {x y : Shared} {pid : Nat}

/-- What a use of a clone makes of the mailbox.  A message goes out together with a
    signal, and only while the watcher waits. -/
structure MailboxUse (a : Act) (x y : Shared) : Prop where
  process : y.switch.process = x.switch.process
  used : y.switch.spent = true → y.switch.mailbox ≠ .waiting
  cases : (y.switch.mailbox = x.switch.mailbox ∧ a.tells = false ∧ a.delivers = false) ∨
    x.switch.mailbox = .waiting ∧
      ((y.switch.mailbox = .told ∧ a.tells = true ∧ a.delivers = true) ∨
        y.switch.mailbox = .over ∧ a.tells = false ∧ a.delivers = false)

theorem mailboxUse_same (hswitch : y.switch = x.switch) (htells : a.tells = false)
    (hdelivers : a.delivers = false) (hused : x.switch.spent = true → x.switch.mailbox ≠ .waiting) :
    MailboxUse a x y where
  process := by rw [hswitch]
  used := by
    rw [hswitch]
    exact hused
  cases := .inl ⟨by rw [hswitch], htells, hdelivers⟩

theorem mailboxUse_trigger (i : Nat) (outcome : Delivery) (hp : x.switch.process = some pid)
    (hused : x.switch.spent = true → x.switch.mailbox ≠ .waiting) :
    MailboxUse (.trigger i outcome (x.switch.trigger fun _ => outcome).answer
        (x.switch.trigger fun _ => outcome).signalled) x
      { x with switch := (x.switch.trigger fun _ => outcome).switch } := by
  by_cases harmed : x.switch.IsArmed
  · have hwaiting := harmed.2
    by_cases hpid : IsValid pid
    · rw [trigger_of_valid harmed hp hpid]
      -- The watcher is told exactly if the process gets the signal.
      cases outcome with
      | delivered => exact ⟨rfl, nofun, .inr ⟨hwaiting, .inl ⟨rfl, rfl, rfl⟩⟩⟩
      | noSuchProcess =>
        refine ⟨rfl, ?_, .inr ⟨hwaiting, .inr ⟨?_, rfl, rfl⟩⟩⟩ <;> simp [spend, hwaiting]
      | failed fault =>
        refine ⟨rfl, ?_, .inr ⟨hwaiting, .inr ⟨?_, rfl, rfl⟩⟩⟩ <;> simp [spend, hwaiting]
    · rw [trigger_of_not_valid harmed hp hpid]
      have hdelivers : (Act.trigger i outcome (.error .invalid) none).delivers = false := by
        cases outcome <;> rfl
      refine ⟨rfl, ?_, .inr ⟨hwaiting, .inr ⟨?_, rfl, hdelivers⟩⟩⟩ <;> simp [spend, hwaiting]
  · have hmail : x.switch.mailbox ≠ .waiting := by
      intro hwaiting
      cases hs : x.switch.spent with
      | true => exact hused hs hwaiting
      | false => exact harmed ⟨hs, hwaiting⟩
    have hdelivers : (Act.trigger i outcome (.ok false) none).delivers = false := by
      cases outcome <;> rfl
    rw [trigger_of_not_armed harmed hused]
    exact ⟨rfl, fun _ => hmail, .inl ⟨rfl, rfl, hdelivers⟩⟩

theorem Moves.mailboxUse (hm : Moves a x y) (ha : a.isUse = true)
    (hp : x.switch.process = some pid)
    (hused : x.switch.spent = true → x.switch.mailbox ≠ .waiting) : MailboxUse a x y := by
  cases hm with
  | clone hi => exact mailboxUse_same rfl rfl rfl hused
  | @trigger _ i hi outcome => exact mailboxUse_trigger i outcome hp hused
  | isSpent hi => exact mailboxUse_same rfl rfl rfl hused
  | @dropClone _ i hi =>
    by_cases hlast : x.clones.erase i = []
    · -- The sender goes, which the watcher sees if it still waits.
      cases hmail : x.switch.mailbox <;>
        exact ⟨by simp [hlast, dropSender], by simp [hlast, dropSender, hmail],
          by simp [hlast, dropSender, hmail, Act.tells, Act.delivers]⟩
    · exact mailboxUse_same (by simp [hlast]) rfl rfl hused
  | dropReceiver => cases ha
  | receive => cases ha

end KillSwitch

namespace Life

variable {log : List (Nat × Act)} {c : Child} {a : Act} {l m : Life}

/-- A clone of the switch is used. -/
theorem Inv.use (inv : Inv log l) {a : KillSwitch.Act} {y : KillSwitch.Shared}
    (ha : a.isUse = true) (h : KillSwitch.Moves a l.shared y) :
    Inv (log ++ [(l.now, .use a)]) { l with
      shared := y
      child := if a.delivers then l.child.signal l.now .terminate else l.child } := by
  obtain ⟨hprocess, hused, hcases⟩ := h.mailboxUse ha inv.process inv.used
  have hpid : (if a.delivers then l.child.signal l.now .terminate else l.child).pid
      = l.child.pid := by
    split <;> rfl
  have hended : (if a.delivers then l.child.signal l.now .terminate else l.child).ended
      = l.child.ended := by
    split <;> rfl
  refine ⟨?_, hused, ?_, ?_, ?_⟩
  · rw [hpid]
    exact hprocess.trans inv.process
  · dsimp only
    rw [hended]
    have hchapter := inv.chapter
    obtain ⟨hmail, htells, hdelivers⟩ | ⟨hwaiting, hcases⟩ := hcases
    · -- The watcher sees no difference.
      rw [hmail, hdelivers, asks_snoc_of_not (a := .use a) htells]
      exact hchapter
    · rw [hwaiting] at hchapter
      generalize l.watcher = w, hbefore : asks log = before, hs : l.child.signals = signals
        at hchapter ⊢
      cases hchapter with
      | waiting =>
        obtain ⟨hmail, htells, hdelivers⟩ | ⟨hmail, htells, hdelivers⟩ := hcases
        · have hasks : (Act.use a).asks = true := htells
          rw [hmail, hdelivers, asks_snoc, hbefore, hasks, if_pos rfl, if_pos rfl, Child.signal, hs]
          exact .told
        · rw [hmail, hdelivers, asks_snoc_of_not (a := .use a) htells, hbefore,
            if_neg Bool.false_ne_true, hs]
          exact .mute
  · dsimp only
    rw [hended]
    exact inv.ended
  · dsimp only
    rw [hended, reaps_snoc_of_not rfl]
    exact inv.reaped

/-! ### The other acts -/

/-- A program that runs was not reaped. -/
theorem Inv.not_done (inv : Inv log l) (h : l.child.isRunning = true) : l.watcher ≠ .done := by
  intro hdone
  have hchapter := inv.chapter
  rw [hdone, Option.isNone_iff_eq_none.1 h] at hchapter
  generalize l.shared.switch.mailbox = mailbox, asks log = before,
    l.child.signals = signals at hchapter
  cases hchapter

theorem Inv.exit (inv : Inv log l) (h : l.child.isRunning = true) :
    Inv (log ++ [(l.now, .exit)]) { l with child := l.child.endAt l.now } := by
  have hrunning : l.child.ended = none := Option.isNone_iff_eq_none.1 h
  have hchapter := inv.chapter
  have hreaped := inv.reaped
  rw [hrunning] at hchapter
  have hended : (l.child.endAt l.now).ended = some l.now := rfl
  refine ⟨inv.process, inv.used, ?_, fun e he => ?_, ?_⟩
  · have hsignals : (l.child.endAt l.now).signals = l.child.signals := rfl
    rw [asks_snoc_of_not rfl, hended, hsignals]
    generalize l.watcher = w, l.shared.switch.mailbox = mailbox, asks log = before,
      l.child.signals = signals at hchapter ⊢
    cases hchapter with
    | waiting => exact .waiting
    | told => exact .told
    | mute => exact .mute
    | deaf => exact .deaf
    | patient h => exact .patient h
    | killing hnow _ => exact .killing hnow fun e he => Option.some.inj he ▸ hnow
  · obtain rfl : l.now = e := Option.some.inj he
    exact ⟨Nat.le_refl _, fun _ => rfl⟩
  · rw [reaps_snoc_of_not rfl, hreaped]
    rw [if_neg (inv.not_done h), if_neg (inv.not_done h)]

/-- The message was sent just now, and the watcher is patient from now on. -/
theorem Inv.hear (inv : Inv log l) (hw : l.watcher = .selecting)
    (h : l.shared.switch.receive.1 = .notified) :
    Inv (log ++ [(l.now, .hear)]) { l with
      shared := { l.shared with switch := l.shared.switch.receive.2.dropReceiver }
      watcher := .patient (l.now + Child.patience) } := by
  have hmail := (KillSwitch.receive_eq_notified_iff _).1 h
  have hreceive : l.shared.switch.receive.2 = { l.shared.switch with mailbox := .over } := by
    rw [KillSwitch.receive, hmail]
  have hchapter := inv.chapter
  have hreaped := inv.reaped
  rw [hw, hmail] at hchapter
  rw [hw] at hreaped
  refine ⟨?_, fun _ => ?_, ?_, fun e he => ?_, ?_⟩
  · rw [hreceive]
    exact inv.process
  · simp [KillSwitch.dropReceiver]
  · rw [asks_snoc_of_not rfl]
    generalize asks log = before, l.child.signals = signals at hchapter ⊢
    cases hchapter with
    | told => exact .patient (Nat.le_add_right _ _)
  · obtain ⟨hle, heq⟩ := inv.ended e he
    exact ⟨hle, fun _ => heq (by simp [hw])⟩
  · rw [reaps_snoc_of_not rfl]
    exact hreaped

theorem Inv.miss (inv : Inv log l) (hw : l.watcher = .selecting)
    (h : l.shared.switch.receive.1 = .closed) :
    Inv (log ++ [(l.now, .miss)]) { l with watcher := .deaf } := by
  have hmail := (KillSwitch.receive_eq_closed_iff _).1 h
  have hchapter := inv.chapter
  have hreaped := inv.reaped
  rw [hw, hmail] at hchapter
  rw [hw] at hreaped
  refine ⟨inv.process, inv.used, ?_, fun e he => ?_, ?_⟩
  · dsimp only
    rw [asks_snoc_of_not rfl, hmail]
    generalize asks log = before, l.child.signals = signals at hchapter ⊢
    cases hchapter with
    | mute => exact .deaf
  · obtain ⟨hle, heq⟩ := inv.ended e he
    exact ⟨hle, fun _ => heq (by simp [hw])⟩
  · rw [reaps_snoc_of_not rfl]
    exact hreaped

/-- The program has ended just now, wherever the watcher was. -/
theorem Inv.reap (inv : Inv log l) (hw : l.watcher ≠ .done) (h : l.child.isRunning = false) :
    Inv (log ++ [(l.now, .reap)]) { l with
      shared := { l.shared with switch := l.shared.switch.dropReceiver }
      watcher := .done } := by
  obtain ⟨e, he⟩ : ∃ e, l.child.ended = some e := by
    rw [Child.isRunning, Option.isNone_eq_false_iff] at h
    exact Option.isSome_iff_exists.1 h
  obtain ⟨-, heq⟩ := inv.ended e he
  obtain rfl : e = l.now := heq hw
  have hchapter := inv.chapter
  rw [he] at hchapter
  refine ⟨inv.process, fun _ => ?_, ?_, fun e he' => ?_, ?_⟩
  · simp [KillSwitch.dropReceiver]
  · have hmail : l.shared.switch.dropReceiver.mailbox = .gone := rfl
    dsimp only
    rw [asks_snoc_of_not rfl, he, hmail]
    generalize l.watcher = w, l.shared.switch.mailbox = mailbox, asks log = before,
      l.child.signals = signals at hchapter hw ⊢
    cases hchapter with
    | waiting => exact .untold
    | told => exact .obeyed (Nat.le_add_right _ _)
    | mute => exact .untold
    | deaf => exact .untold
    | patient hle => exact .obeyed hle
    | killing _ hle => exact .killed (hle _ rfl)
    | untold => exact absurd rfl hw
    | obeyed => exact absurd rfl hw
    | killed => exact absurd rfl hw
  · exact ⟨(inv.ended e he').1, fun hnot => absurd rfl hnot⟩
  · rw [reaps_snoc, inv.reaped, if_neg hw, if_pos rfl, he]
    rfl

/-- The watcher's patience ends at its moment, and neither earlier nor later. -/
theorem Inv.kill (inv : Inv log l) {deadline : Nat} (hw : l.watcher = .patient deadline)
    (hd : deadline ≤ l.now) (h : l.child.isRunning = true) :
    Inv (log ++ [(l.now, .kill)])
      { l with child := l.child.signal l.now .kill, watcher := .killing } := by
  have hrunning : l.child.ended = none := Option.isNone_iff_eq_none.1 h
  have hended : (l.child.signal l.now .kill).ended = none := hrunning
  have hsignals : (l.child.signal l.now .kill).signals = l.child.signals ++ [(l.now, .kill)] := rfl
  have hchapter := inv.chapter
  have hreaped := inv.reaped
  rw [hw, hrunning] at hchapter
  rw [hw] at hreaped
  refine ⟨inv.process, inv.used, ?_, fun e he => ?_, ?_⟩
  · dsimp only
    rw [asks_snoc_of_not rfl, hended, hsignals]
    generalize l.shared.switch.mailbox = mailbox, asks log = before,
      l.child.signals = signals at hchapter ⊢
    cases hchapter with
    | @patient t _ hle =>
      obtain heq : l.now = t + Child.patience := Nat.le_antisymm hle hd
      rw [heq]
      exact .killing (Nat.le_refl _) nofun
  · rw [hended] at he
    cases he
  · rw [reaps_snoc_of_not rfl]
    exact hreaped

/-- Time passes while the watcher has nothing to do. -/
theorem Inv.wait (inv : Inv log l) {moment : Nat} (hrest : l.AtRest) (hnow : l.now ≤ moment)
    (hd : ∀ deadline, l.watcher = .patient deadline → moment ≤ deadline) :
    Inv (log ++ [(l.now, .wait moment)]) { l with now := moment } := by
  have hchapter := inv.chapter
  refine ⟨inv.process, inv.used, ?_, fun e he => ?_, ?_⟩
  · -- A message that is there, or will never come, would have woken the watcher.
    have hselecting : l.watcher = .selecting → l.shared.switch.mailbox = .waiting := by
      obtain hdone | ⟨-, hselecting, -⟩ := hrest
      · intro hw
        rw [hdone] at hw
        cases hw
      · exact hselecting
    dsimp only
    rw [asks_snoc_of_not rfl]
    generalize l.watcher = w, l.shared.switch.mailbox = mailbox, asks log = before,
      l.child.signals = signals, l.child.ended = ended at hchapter hselecting hd ⊢
    cases hchapter with
    | waiting => exact .waiting
    | told => cases hselecting rfl
    | mute => cases hselecting rfl
    | deaf => exact .deaf
    | patient => exact .patient (hd _ rfl)
    | killing hle h => exact .killing (Nat.le_trans hle hnow) h
    | untold => exact .untold
    | obeyed h => exact .obeyed h
    | killed h => exact .killed h
  · obtain ⟨hle, -⟩ := inv.ended e he
    refine ⟨Nat.le_trans hle hnow, fun hw => ?_⟩
    obtain hdone | ⟨hrunning, -⟩ := hrest
    · exact absurd hdone hw
    · rw [Child.isRunning, Option.isNone_iff_eq_none] at hrunning
      rw [hrunning] at he
      cases he
  · rw [reaps_snoc_of_not rfl]
    exact inv.reaped

theorem Inv.move (inv : Inv log l) (hm : Moves a l m) : Inv (log ++ [(l.now, a)]) m := by
  cases hm with
  | use ha h => exact inv.use ha h
  | exit h => exact inv.exit h
  | hear hw h => exact inv.hear hw h
  | miss hw h => exact inv.miss hw h
  | reap hw h => exact inv.reap hw h
  | kill hw hd h => exact inv.kill hw hd h
  | wait hrest hnow hd => exact inv.wait hrest hnow hd

theorem Run.inv (h : Run (begin c) log l) : Inv log l := by
  induction h with
  | nil => exact .init c
  | snoc _ hm ih => exact ih.move hm

theorem Run.happens {l₀ : Life} (h : Run l₀ log l) {before : List (Nat × Act)}
    (ha : Happens log before (t, a)) : ∃ m n, Run l₀ before m ∧ m.now = t ∧ Moves a m n := by
  induction h with
  | nil =>
    obtain ⟨after, hlog⟩ := ha
    simp at hlog
  | snoc h hm ih =>
    obtain ⟨rfl, heq⟩ | hbefore := happens_snoc ha
    · obtain ⟨rfl, rfl⟩ := Prod.mk.inj heq
      exact ⟨_, _, h, rfl, hm⟩
    · exact ih hbefore

/-! ## What becomes of a program -/

/-- Whether it is done by the watcher. -/
def Act.isWatching : Act → Bool
  | .hear | .miss | .reap | .kill => true
  | _ => false

/-- All that is known of a program at any time of its life. -/
structure Lifecycle (log : List (Nat × Act)) (l : Life) : Prop where
  /-- It is reaped at the moment of its end, and at no other. -/
  reaps : reaps log = [] ∨ ∃ e ∈ l.child.ended, reaps log = [e]
  /-- Once the watcher has done what it has to do then, or time has gone on, it was reaped. -/
  reaped : ∀ e ∈ l.child.ended, l.AtRest ∨ e < l.now → Life.reaps log = [e]
  /-- The watcher is never stuck with something to do. -/
  settles : l.AtRest ∨ ∃ a m, a.isWatching = true ∧ Moves a l m ∧ m.AtRest
  terminatedOnce : l.child.signals.countP (fun s => s.2 = .terminate) ≤ 1
  killedOnce : l.child.signals.countP (fun s => s.2 = .kill) ≤ 1
  /-- It is killed only after a trigger has answered yes and all of the patience has
      passed, and not after its end. -/
  killed : ∀ {u}, (u, .kill) ∈ l.child.signals →
    ∃ t ∈ asks log, u = t + Child.patience ∧ ∀ e ∈ l.child.ended, u ≤ e
  /-- If that has happened, then it is killed. -/
  kills : ∀ t ∈ asks log, t + Child.patience < l.now ∨ t + Child.patience = l.now ∧ l.AtRest →
    (∀ e ∈ l.child.ended, t + Child.patience < e) →
      (t + Child.patience, .kill) ∈ l.child.signals
  /-- A program that nobody has told to stop gets no signal. -/
  untold : asks log = [] → l.child.signals = []
  /-- A trigger after the reaping sends nothing. -/
  late : ∀ {before t i outcome answer signalled},
    Happens log before (t, .use (.trigger i outcome answer signalled)) →
      Life.reaps before ≠ [] → answer = .ok false ∧ signalled = none

theorem Inv.settles (inv : Inv log l) :
    l.AtRest ∨ ∃ a m, a.isWatching = true ∧ Moves a l m ∧ m.AtRest := by
  cases hrun : l.child.isRunning with
  | false =>
    by_cases hw : l.watcher = .done
    · exact .inl (.inl hw)
    · exact .inr ⟨_, _, rfl, .reap hw hrun, .inl rfl⟩
  | true =>
    have hchapter := inv.chapter
    cases hw : l.watcher with
    | selecting =>
      cases hmail : l.shared.switch.mailbox with
      | waiting => exact .inl (.inr ⟨hrun, fun _ => hmail, by simp [hw]⟩)
      | told =>
        have hheard := (KillSwitch.receive_eq_notified_iff _).2 hmail
        refine .inr ⟨_, _, rfl, .hear hw hheard, .inr ⟨hrun, nofun, fun d hd => ?_⟩⟩
        obtain rfl := Watcher.patient.inj hd
        exact Nat.lt_add_of_pos_right (by decide)
      | gone =>
        rw [hw, hmail] at hchapter
        cases hchapter
      | _ =>
        have hclosed := (KillSwitch.receive_eq_closed_iff _).2 hmail
        exact .inr ⟨_, _, rfl, .miss hw hclosed, .inr ⟨hrun, nofun, nofun⟩⟩
    | deaf => exact .inl (.inr ⟨hrun, by simp [hw], by simp [hw]⟩)
    | patient d =>
      by_cases hd : l.now < d
      · refine .inl (.inr ⟨hrun, by simp [hw], fun d' hd' => ?_⟩)
        obtain rfl := Watcher.patient.inj (hw.symm.trans hd')
        exact hd
      · exact .inr ⟨_, _, rfl, .kill hw (Nat.not_lt.1 hd) hrun, .inr ⟨hrun, nofun, nofun⟩⟩
    | killing => exact .inl (.inr ⟨hrun, by simp [hw], by simp [hw]⟩)
    | done => exact absurd hw (inv.not_done hrun)

theorem Inv.reaps_of_done (inv : Inv log l) (hw : l.watcher = .done) :
    ∃ e ∈ l.child.ended, reaps log = [e] := by
  have hreaped := inv.reaped
  rw [if_pos hw] at hreaped
  cases he : l.child.ended with
  | none => exact absurd hw (inv.not_done (Option.isNone_iff_eq_none.2 he))
  | some e =>
    rw [he] at hreaped
    exact ⟨e, rfl, hreaped⟩

/-- Nobody can reach a program through its switch once it was reaped. -/
theorem Inv.late (inv : Inv log l) (hreaped : reaps log ≠ []) (outcome : Delivery) :
    (l.shared.switch.trigger fun _ => outcome).answer = .ok false ∧
      (l.shared.switch.trigger fun _ => outcome).signalled = none := by
  have hw : l.watcher = .done := by
    by_cases hw : l.watcher = .done
    · exact hw
    · rw [inv.reaped, if_neg hw] at hreaped
      exact absurd rfl hreaped
  have hgone : l.shared.switch.mailbox = .gone := by
    have hchapter := inv.chapter
    rw [hw] at hchapter
    generalize l.shared.switch.mailbox = mailbox, asks log = before, l.child.signals = signals,
      l.child.ended = ended at hchapter ⊢
    cases hchapter <;> rfl
  have harmed : ¬ l.shared.switch.IsArmed := by
    rintro ⟨-, hwaiting⟩
    rw [hgone] at hwaiting
    cases hwaiting
  rw [KillSwitch.trigger_of_not_armed harmed inv.used]
  exact ⟨rfl, rfl⟩

theorem AtRest.lt_deadline (h : l.AtRest) {deadline : Nat} (hw : l.watcher = .patient deadline) :
    l.now < deadline := by
  obtain hdone | ⟨-, -, hlt⟩ := h
  · rw [hdone] at hw
    cases hw
  · exact hlt deadline hw

section Chapters

variable {now : Nat} {w : Watcher} {mailbox : Mailbox} {before : List Nat}
  {signals : List (Nat × ChildSignal)} {ended : Option Nat}

theorem Chapter.signals_once (h : Chapter now w mailbox before signals ended)
    (signal : ChildSignal) : signals.countP (fun s => s.2 = signal) ≤ 1 := by
  cases h <;> cases signal <;> simp

theorem Chapter.untold_signals (h : Chapter now w mailbox before signals ended)
    (hnone : before = []) : signals = [] := by
  cases h <;> first | rfl | cases hnone

theorem Chapter.of_kill (h : Chapter now w mailbox before signals ended) {u : Nat}
    (hu : (u, .kill) ∈ signals) :
    ∃ t ∈ before, u = t + Child.patience ∧ ∀ e ∈ ended, u ≤ e := by
  cases h with
  | killing _ he =>
    obtain rfl : u = _ := by simpa using hu
    exact ⟨_, List.mem_singleton_self _, rfl, he⟩
  | killed he =>
    obtain rfl : u = _ := by simpa using hu
    exact ⟨_, List.mem_singleton_self _, rfl, fun e he' => Option.some.inj he' ▸ he⟩
  | _ => simp at hu

theorem Chapter.kill_mem (h : Chapter now w mailbox before signals ended) (ht : t ∈ before)
    (hpast : t + Child.patience < now ∨
      t + Child.patience = now ∧ ∀ deadline, w = .patient deadline → now < deadline)
    (he : ∀ e ∈ ended, t + Child.patience < e) : (t + Child.patience, .kill) ∈ signals := by
  have hpatience : 0 < Child.patience := by decide
  cases h with
  | waiting => cases ht
  | told =>
    obtain rfl := List.mem_singleton.1 ht
    omega
  | mute => cases ht
  | deaf => cases ht
  | patient hle =>
    -- The patience has not passed: the watcher would have something to do.
    obtain rfl := List.mem_singleton.1 ht
    obtain hlt | ⟨heq, hlt⟩ := hpast
    · omega
    · have hlater := hlt _ rfl
      omega
  | killing =>
    obtain rfl := List.mem_singleton.1 ht
    simp
  | untold => cases ht
  | @obeyed _ e hle =>
    obtain rfl := List.mem_singleton.1 ht
    have hlt := he e rfl
    omega
  | killed =>
    obtain rfl := List.mem_singleton.1 ht
    simp

end Chapters

/-- In every life, however triggers, drops of clones and the end of the program fall
    together, the watcher reaps the program once, and kills it exactly if it goes on for
    all of the time that it was given. -/
theorem Run.lifecycle (h : Run (begin c) log l) : Lifecycle log l := by
  have inv := h.inv
  refine ⟨?_, fun e he hpast => ?_, inv.settles, inv.chapter.signals_once _,
    inv.chapter.signals_once _, inv.chapter.of_kill, fun t ht hpast => ?_,
    inv.chapter.untold_signals, fun ha hreaped => ?_⟩
  · by_cases hw : l.watcher = .done
    · exact .inr (inv.reaps_of_done hw)
    · exact .inl (inv.reaped.trans (if_neg hw))
  · have hw : l.watcher = .done := by
      obtain (hdone | ⟨hrun, -⟩) | hlt := hpast
      · exact hdone
      · rw [Child.isRunning, he] at hrun
        cases hrun
      · by_cases hw : l.watcher = .done
        · exact hw
        · have heq := (inv.ended e he).2 hw
          omega
    obtain ⟨e', he', hreaps⟩ := inv.reaps_of_done hw
    obtain rfl : e' = e := Option.some.inj (he'.symm.trans he)
    exact hreaps
  · exact inv.chapter.kill_mem ht (hpast.imp_right fun ⟨heq, hrest⟩ =>
      ⟨heq, fun _ => hrest.lt_deadline⟩)
  · obtain ⟨m, n, hm, -, hmove⟩ := h.happens ha
    cases hmove with
    | use _ hmove =>
      cases hmove with
      | trigger _ => exact hm.inv.late hreaped _

end Life
end PluginHost
