/-
  PluginHost.Proofs.Supervision.Sessions

  A supervisor and all the sessions that it has opened.  Setups, starts and shutdowns
  come in any order and number.  Between them, and while a shutdown waits, the tasks of
  every session may make whatever move they can.

    * `Moves a w w'` — the supervisor, or a task, may do `a`, and all is as in `w'` then.
    * `Run w₀ acts w` — it has come from `w₀` to `w` by `acts`, the first one first.

  A shutdown has the supervisor to itself until it returns, and it returns when the
  ticker and the dispatcher of the session that it has stopped have ended.  Then that
  session is over and can do nothing any more.  So only the session opened last ever does
  anything (`Record.newest`), and each session is a run of its own from what the last
  setup had left (`Record.led`).

  At a station the calls have their moments, and the session under way goes on in its own
  order between them (`Calls`).  All of that is one of the runs (`Calls.follows`), so that
  what is known of runs is known of stations (`sessions_kept_apart`).
-/
import PluginHost.Proofs.Process.OneShot
import PluginHost.Proofs.Supervision.Delivery

namespace PluginHost

/-! ## Tasks of a session -/

namespace Session

variable {n₀ n n' : Session} {a : Act} {r : Registry} {s s' : System} {limit : Option Nat}

/-- The ticker is there. -/
def HasTicker (n : Session) : Prop :=
  n.ticker ≠ .stopped ∧ n.ticker ≠ .broken

/-- The dispatcher is there: a signal may still come, or one is under way. -/
def HasDispatcher (n : Session) : Prop :=
  n.HasTicker ∨ ¬ n.IsIdle

theorem HasTicker.hasDispatcher (h : n.HasTicker) : n.HasDispatcher :=
  .inl h

theorem IsOver.not_hasTicker (h : n.IsOver) : ¬ n.HasTicker :=
  fun hticker => hticker.1 h.ticker

theorem IsOver.not_hasDispatcher (h : n.IsOver) : ¬ n.HasDispatcher := by
  rintro (hticker | hbusy)
  · exact h.not_hasTicker hticker
  · exact hbusy h.toIsIdle

/-- A session without a dispatcher is over, unless its ticker broke down. -/
theorem isOver_of_not_hasDispatcher (h : ¬ n.HasDispatcher) (hbroken : n.ticker ≠ .broken) :
    n.IsOver := by
  obtain ⟨hticker, hbusy⟩ := not_or.1 h
  have hidle : n.IsIdle := Classical.not_not.1 hbusy
  have hstop : n.ticker = .stopped := by
    by_cases hstop : n.ticker = .stopped
    · exact hstop
    · exact absurd ⟨hstop, hbroken⟩ hticker
  exact ⟨hidle, hstop⟩

theorem hasTicker_start {targets : List Target} {hs : List Handler} {p : Probe} {interval now : Nat}
    (h : now + interval < Clock.range) : (start targets hs p interval now).HasTicker := by
  have hdue : (start targets hs p interval now).ticker = .due (now + interval) := by
    rw [start, Ticker.start, Ticker.startIn]
    exact if_pos h
  rw [HasTicker, hdue]
  exact ⟨nofun, nofun⟩

theorem tight_start (targets : List Target) (hs : List Handler) (p : Probe) (interval now : Nat) :
    (start targets hs p interval now).Tight :=
  ⟨Nat.zero_le _, fun hne => absurd rfl hne⟩

/-- A ticker that has ticked waits for its next moment, or for the stop. -/
theorem hasTicker_tick (s : System) (h : n.HasTicker) : (n.tick s).1.HasTicker := by
  have hticker : (n.tick s).1.ticker = n.ticker.tick n.interval s.now := rfl
  rw [HasTicker, hticker]
  cases ht : n.ticker with
  | due moment =>
    simp only [Ticker.tick, Ticker.tickIn]
    split <;> exact ⟨nofun, nofun⟩
  | exhausted => exact ⟨nofun, nofun⟩
  | stopped => exact absurd ht h.1
  | broken => exact absurd ht h.2

/-- Only by a stop does a session lose its ticker. -/
theorem Moves.hasTicker (hm : Moves a n n') (ha : a ≠ .stop) (h : n.HasTicker) : n'.HasTicker := by
  cases hm with
  | tick s hdue => exact hasTicker_tick s h
  | stop hticker => exact absurd rfl ha
  | _ => exact h

/-- A session with a ticker had it before. -/
theorem Moves.hasTicker_before (hm : Moves a n n') (h : n'.HasTicker) :
    a ≠ .stop ∧ n.HasTicker := by
  cases hm with
  | tick s hdue =>
    refine ⟨nofun, ?_, ?_⟩
    · intro hticker
      rw [hticker] at hdue
      cases hdue
    · intro hticker
      rw [hticker] at hdue
      cases hdue
  | stop hticker => exact absurd rfl h.1
  | _ => exact ⟨nofun, h⟩

/-- A ticker that goes on at first does not break down. -/
theorem Moves.not_broken (hm : Moves a n n') (h : n.ticker ≠ .broken) : n'.ticker ≠ .broken := by
  cases hm with
  | tick s hdue =>
    have hstop : n.ticker ≠ .stopped := by
      intro hticker
      rw [hticker] at hdue
      cases hdue
    exact (hasTicker_tick s ⟨hstop, h⟩).2
  | stop hticker => exact nofun
  | _ => exact h

theorem ticker_conclude (n : Session) (r : Registry) (s : System) (t : Target) :
    (n.conclude r s t).ticker = n.ticker := by
  rw [conclude_eq]
  split
  · rw [send]
    split <;> rfl
  · rfl

theorem ticker_stepNow (h : n.stepNow r s = some (n', s')) : n'.ticker = n.ticker := by
  rcases stepNow_cases h with ⟨before, due, t, after, -, rfl, -⟩ | ⟨d, -, hadvance⟩ |
    ⟨signal, rest, -, -, rfl, -⟩
  · exact ticker_conclude _ r s t
  · have hsame : (n.advance r s d).1.ticker = n.ticker := by
      unfold advance
      split
      · rfl
      · rfl
      · split <;> rfl
    rwa [hadvance] at hsame
  · rfl

theorem HasTicker.step (h : n.HasTicker) (hs : n.step r s limit = some (n', s')) :
    n'.HasTicker := by
  rcases step_cases hs with hnow | ⟨-, moment, -, ⟨-, htick⟩ | ⟨-, rfl, -⟩⟩
  · rw [HasTicker, ticker_stepNow hnow]
    exact h
  · have hticked := hasTicker_tick (s.advanceTo moment) h
    rwa [htick] at hticked
  · exact h

theorem Goes.hasTicker (h : Goes n₀ n) (h₀ : n₀.HasTicker) : n.HasTicker := by
  induction h with
  | refl => exact h₀
  | step _ hs ih => exact ih.step hs

theorem goes_run (r : Registry) (limit : Option Nat) (fuel : Nat) (n : Session) (s : System) :
    Goes n (run r limit fuel (n, s)).1 := by
  induction fuel generalizing n s with
  | zero => exact .refl
  | succ fuel ih =>
    rw [run]
    cases hstep : n.step r s limit with
    | none => exact .refl
    | some next => exact (Goes.refl.step hstep).trans (ih next.1 next.2)

end Session

/-! ## Calls and tasks -/

/-- A supervisor with all the sessions that it has opened. -/
structure Supervision where
  supervisor : Supervisor
  /-- The session that a shutdown waits for. -/
  closing : Option Session := none
  /-- The sessions whose shutdowns have returned, the first one first. -/
  closed : List Session := []

namespace Supervision

/-- A supervisor that nothing was done with. -/
def fresh (interval : Nat) (probe : Probe) : Supervision where
  supervisor := { interval, probe }

/-- All sessions, in the order in which they were opened. -/
def sessions (w : Supervision) : List Session :=
  w.closed ++ (w.closing.toList ++ w.supervisor.session.toList)

/-- What is done with a supervisor, and what the tasks of its sessions do. -/
inductive Act where
  /-- A setup that has found these plugins. -/
  | setup (plugins : List (String × PluginSet)) (handlers : List Handler)
  /-- A setup that fails. -/
  | refuse (e : Error)
  /-- A start, and whether it opens a session. -/
  | start (now : Nat) (opens : Bool)
  /-- A shutdown begins. -/
  | shutdown
  /-- It returns. -/
  | returned
  /-- A task of a session does something. -/
  | task (k : Nat) (a : Session.Act)

/-- What may be done. -/
inductive Moves : Act → Supervision → Supervision → Prop
  | setup {w : Supervision} {v : Supervisor} {r : Registry} {plugins : List (String × PluginSet)}
      {hs : List Handler} (hfree : w.closing = none) (hplugins : r.allPlugins = .ok plugins)
      (h : w.supervisor.setup r hs = .ok v) : Moves (.setup plugins hs) w { w with supervisor := v }
  | refuse {w : Supervision} {r : Registry} {hs : List Handler} {e : Error}
      (hfree : w.closing = none) (h : w.supervisor.setup r hs = .error e) : Moves (.refuse e) w w
  /-- The clock can show when the first tick is due. -/
  | start {w : Supervision} (now : Nat) (hfree : w.closing = none)
      (hclock : w.supervisor.isWatching = false → now + w.supervisor.interval < Clock.range) :
      Moves (.start now (!w.supervisor.isWatching)) w
        { w with supervisor := w.supervisor.start now }
  | shutdown {w : Supervision} (hfree : w.closing = none) :
      Moves .shutdown w { w with
        supervisor := { w.supervisor with session := none }, closing := w.supervisor.session }
  /-- A shutdown waits for the ticker, and then for the dispatcher. -/
  | returned {w : Supervision} {n : Session} (h : w.closing = some n) (hticker : ¬ n.HasTicker)
      (hdispatcher : ¬ n.HasDispatcher) :
      Moves .returned w { w with closing := none, closed := w.closed ++ [n] }
  /-- Nobody stops the session that is under way. -/
  | watch {w : Supervision} {n n' : Session} {a : Session.Act} (h : w.supervisor.session = some n)
      (hm : Session.Moves a n n') (ha : a ≠ .stop) :
      Moves (.task w.closed.length a) w
        { w with supervisor := { w.supervisor with session := some n' } }
  | drain {w : Supervision} {n n' : Session} {a : Session.Act} (h : w.closing = some n)
      (hm : Session.Moves a n n') :
      Moves (.task w.closed.length a) w { w with closing := some n' }
  /-- A task that a shutdown would have left behind. -/
  | linger {w : Supervision} {before after : List Session} {n n' : Session} {a : Session.Act}
      (h : w.closed = before ++ n :: after) (hm : Session.Moves a n n') :
      Moves (.task before.length a) w { w with closed := before ++ n' :: after }

/-- All has come to what it is by acts. -/
inductive Run (w₀ : Supervision) : List Act → Supervision → Prop
  | nil : Run w₀ [] w₀
  | snoc {acts : List Act} {a : Act} {w w' : Supervision} (h : Run w₀ acts w)
      (hm : Moves a w w') : Run w₀ (acts ++ [a]) w'

/-! ## What a history tells -/

/-- What a setup leaves to the next start. -/
def Act.installs? : Act → Option (List Target × List Handler)
  | .setup plugins hs => some (Supervisor.targetsOf plugins, hs ++ [.restart])
  | _ => none

/-- What the tasks of one session do. -/
def Act.task? (k : Nat) : Act → Option Session.Act
  | .task i a => if i = k then some a else none
  | _ => none

def Act.opens : Act → Bool
  | .start _ opens => opens
  | _ => false

/-- Whether somebody calls the supervisor. -/
def Act.isCall : Act → Bool
  | .returned | .task .. => false
  | _ => true

/-- What the last setup has left, if there was one. -/
def installed (acts : List Act) : List Target × List Handler :=
  (acts.filterMap Act.installs?).getLast?.getD ([], [])

/-- How many sessions were opened. -/
def opened (acts : List Act) : Nat :=
  acts.countP Act.opens

/-- What a session has done. -/
def tasksOf (k : Nat) (acts : List Act) : List Session.Act :=
  acts.filterMap (Act.task? k)

variable {interval : Nat} {probe : Probe} {w₀ w w' : Supervision} {acts before : List Act}
  {a b : Act} {k : Nat}

theorem installed_snoc (acts : List Act) (b : Act) :
    installed (acts ++ [b]) = b.installs?.getD (installed acts) := by
  rw [installed, List.filterMap_append]
  cases hb : b.installs? <;> simp [hb, installed]

theorem opened_snoc (acts : List Act) (b : Act) :
    opened (acts ++ [b]) = opened acts + if b.opens then 1 else 0 := by
  simp [opened, List.countP_append, List.countP_singleton]

theorem tasksOf_snoc (k : Nat) (acts : List Act) (b : Act) :
    tasksOf k (acts ++ [b]) = tasksOf k acts ++ (b.task? k).toList := by
  rw [tasksOf, List.filterMap_append]
  cases hb : b.task? k <;> simp [hb, tasksOf]

theorem opened_le_of_happens (h : Happens acts before a) : opened before ≤ opened acts := by
  obtain ⟨after, rfl⟩ := h
  rw [opened, opened, List.countP_append]
  exact Nat.le_add_right _ _

/-! ## Records -/

/-- What a supervisor is after a history, next to its session. -/
def configured (interval : Nat) (probe : Probe) (before : List Act) (session : Option Session) :
    Supervisor where
  interval
  probe
  targets := (installed before).1
  handlers := (installed before).2
  session

/-- The session that a start opens after a history. -/
def opening (interval : Nat) (probe : Probe) (before : List Act) (now : Nat) : Session :=
  .start (installed before).1 (installed before).2 probe interval now

/-- A session has come by its own tasks from what the last setup before the start that
    has opened it had left. -/
def Led (interval : Nat) (probe : Probe) (acts : List Act) (k : Nat) (n : Session) : Prop :=
  ∃ before now, Happens acts before (.start now true) ∧ opened before = k ∧
    Session.Run (opening interval probe before now) (tasksOf k acts) n

/-- What a history tells of the sessions. -/
structure Record (interval : Nat) (probe : Probe) (acts : List Act) (ns : List Session) :
    Prop where
  length : ns.length = opened acts
  led : ∀ k n, ns[k]? = some n → Led interval probe acts k n
  -- Whatever a session does is done by the one that was opened last.
  newest : ∀ before k a, Happens acts before (.task k a) → opened before = k + 1

variable {ns : List Session} {n n' : Session}

theorem Record.init : Record interval probe [] [] where
  length := rfl
  led := by
    intro k n hk
    cases hk
  newest := by
    rintro before k a ⟨after, hacts⟩
    cases before <;> cases hacts

theorem Led.snoc (h : Led interval probe acts k n) (hb : b.task? k = none) :
    Led interval probe (acts ++ [b]) k n := by
  obtain ⟨before, now, ⟨after, rfl⟩, hk, hrun⟩ := h
  refine ⟨before, now, ⟨after ++ [b], by simp⟩, hk, ?_⟩
  rw [tasksOf_snoc, hb, Option.toList_none, List.append_nil]
  exact hrun

theorem Led.task {a : Session.Act} (h : Led interval probe acts k n) (hm : Session.Moves a n n') :
    Led interval probe (acts ++ [.task k a]) k n' := by
  obtain ⟨before, now, ⟨after, rfl⟩, hk, hrun⟩ := h
  refine ⟨before, now, ⟨after ++ [.task k a], by simp⟩, hk, ?_⟩
  rw [tasksOf_snoc, Act.task?, if_pos rfl]
  exact hrun.snoc hm

/-- A call does not count among what sessions do. -/
theorem Record.newest_snoc (h : Record interval probe acts ns) (hb : ∀ k, b.task? k = none) :
    ∀ before k a, Happens (acts ++ [b]) before (.task k a) → opened before = k + 1 := by
  intro before k a hhappens
  rcases happens_snoc hhappens with ⟨-, rfl⟩ | hold
  · have hnone := hb k
    rw [Act.task?, if_pos rfl] at hnone
    cases hnone
  · exact h.newest _ _ _ hold

/-- An act that opens no session and is no task's. -/
theorem Record.snoc (h : Record interval probe acts ns) (hopens : b.opens = false)
    (hb : ∀ k, b.task? k = none) : Record interval probe (acts ++ [b]) ns where
  length := by
    rw [opened_snoc, hopens, h.length]
    rfl
  led := fun k n hk => (h.led k n hk).snoc (hb k)
  newest := h.newest_snoc hb

/-- Nothing was done yet by a session that is only being opened. -/
theorem Record.tasksOf_opened (h : Record interval probe acts ns) :
    tasksOf (opened acts) acts = [] := by
  rw [tasksOf, List.filterMap_eq_nil_iff]
  intro b hmem
  cases b with
  | task i a =>
    obtain ⟨before, after, rfl⟩ := List.append_of_mem hmem
    have hhappens : Happens (before ++ .task i a :: after) before (.task i a) := ⟨after, rfl⟩
    have hnewest := h.newest before i a hhappens
    have hle := opened_le_of_happens hhappens
    rw [Act.task?, if_neg (by omega)]
  | _ => rfl

theorem Record.start (h : Record interval probe acts ns) (now : Nat) :
    Record interval probe (acts ++ [.start now true])
      (ns ++ [opening interval probe acts now]) where
  length := by
    rw [opened_snoc, List.length_append, h.length]
    rfl
  led := by
    intro k n hk
    by_cases hlt : k < ns.length
    · rw [List.getElem?_append_left hlt] at hk
      exact (h.led k n hk).snoc rfl
    · obtain ⟨hlen, -⟩ := List.getElem?_eq_some_iff.1 hk
      rw [List.length_append, List.length_singleton] at hlen
      obtain rfl : k = ns.length := by omega
      rw [List.getElem?_concat_length] at hk
      obtain rfl := Option.some.inj hk
      refine ⟨acts, now, ⟨[], rfl⟩, h.length.symm, ?_⟩
      rw [tasksOf_snoc, h.length, h.tasksOf_opened]
      exact .nil
  newest := h.newest_snoc fun _ => rfl

/-- The last session goes on. -/
theorem Record.task {a : Session.Act} (h : Record interval probe acts (ns ++ [n]))
    (hm : Session.Moves a n n') :
    Record interval probe (acts ++ [.task ns.length a]) (ns ++ [n']) where
  length := by
    have hlength := h.length
    rw [List.length_append, List.length_singleton] at hlength ⊢
    rw [opened_snoc, hlength]
    rfl
  led := by
    intro k m hk
    obtain ⟨hlen, -⟩ := List.getElem?_eq_some_iff.1 hk
    rw [List.length_append, List.length_singleton] at hlen
    by_cases hlt : k < ns.length
    · have hsame : (ns ++ [n'])[k]? = (ns ++ [n])[k]? := by
        rw [List.getElem?_append_left hlt, List.getElem?_append_left hlt]
      refine (h.led k m (hsame ▸ hk)).snoc ?_
      rw [Act.task?, if_neg (by omega)]
    · obtain rfl : k = ns.length := by omega
      rw [List.getElem?_concat_length] at hk
      obtain rfl := Option.some.inj hk
      exact (h.led _ n List.getElem?_concat_length).task hm
  newest := by
    intro before k b hhappens
    rcases happens_snoc hhappens with ⟨rfl, hb⟩ | hold
    · obtain ⟨rfl, -⟩ := Act.task.inj hb
      rw [← h.length, List.length_append, List.length_singleton]
    · exact h.newest _ _ _ hold

/-! ## One act more -/

/-- What every run keeps. -/
structure Inv (interval : Nat) (probe : Probe) (acts : List Act) (w : Supervision) : Prop where
  configured : w.supervisor = configured interval probe acts w.supervisor.session
  -- While a shutdown waits no session is under way.
  apart : w.closing = none ∨ w.supervisor.session = none
  unbroken : ∀ n ∈ w.closing, n.ticker ≠ .broken
  ended : ∀ n ∈ w.closed, n.IsOver
  ticking : ∀ n ∈ w.supervisor.session, n.HasTicker
  record : Record interval probe acts w.sessions

theorem forall_mem_none {p : Session → Prop} : ∀ n ∈ (none : Option Session), p n :=
  fun n hn => absurd hn (Option.not_mem_none n)

theorem Inv.init (interval : Nat) (probe : Probe) :
    Inv interval probe [] (fresh interval probe) where
  configured := rfl
  apart := .inl rfl
  unbroken := forall_mem_none
  ended := List.forall_mem_nil _
  ticking := forall_mem_none
  record := .init

theorem sessions_of_watching (hfree : w.closing = none) (h : w.supervisor.session = some n) :
    w.sessions = w.closed ++ [n] := by
  rw [sessions, hfree, h]
  rfl

theorem sessions_of_closing (hidle : w.supervisor.session = none) (h : w.closing = some n) :
    w.sessions = w.closed ++ [n] := by
  rw [sessions, hidle, h]
  rfl

theorem sessions_of_idle (hfree : w.closing = none) (h : w.supervisor.session = none) :
    w.sessions = w.closed := by
  rw [sessions, hfree, h]
  exact List.append_nil _

theorem session_eq_none_iff {v : Supervisor} : v.session = none ↔ v.isWatching = false :=
  Option.isSome_eq_false_iff.trans Option.isNone_iff_eq_none |>.symm

theorem Inv.free (h : Inv interval probe acts w) (hs : w.supervisor.session = some n) :
    w.closing = none := by
  rcases h.apart with hfree | hidle
  · exact hfree
  · rw [hs] at hidle
    cases hidle

theorem Inv.idle (h : Inv interval probe acts w) (hs : w.closing = some n) :
    w.supervisor.session = none := by
  rcases h.apart with hfree | hidle
  · rw [hs] at hfree
    cases hfree
  · exact hidle

/-- Only a setup changes what the next start begins with. -/
theorem Inv.configured_snoc (h : Inv interval probe acts w) (hb : b.installs? = none)
    (session : Option Session) :
    { w.supervisor with session }
      = Supervision.configured interval probe (acts ++ [b]) session := by
  rw [h.configured, Supervision.configured, Supervision.configured, installed_snoc, hb]
  rfl

theorem Inv.configured_setup (h : Inv interval probe acts w)
    (plugins : List (String × PluginSet)) (hs : List Handler) :
    ({ w.supervisor with
        targets := Supervisor.targetsOf plugins, handlers := hs ++ [.restart] } : Supervisor)
      = Supervision.configured interval probe (acts ++ [.setup plugins hs])
          w.supervisor.session := by
  rw [h.configured, Supervision.configured, Supervision.configured, installed_snoc]
  rfl

theorem start_of_watching {v : Supervisor} (h : v.isWatching = true) (now : Nat) :
    v.start now = v := by
  rw [Supervisor.start, if_pos h]

theorem Inv.start_of_idle (h : Inv interval probe acts w) (hw : w.supervisor.isWatching = false)
    (now : Nat) : w.supervisor.start now
      = { w.supervisor with session := some (opening interval probe acts now) } := by
  have hnot : ¬ w.supervisor.isWatching = true := by simp [hw]
  rw [Supervisor.start, if_neg hnot, h.configured]
  rfl

/-- The session under way stays as it is. -/
theorem Inv.setup {v : Supervisor} {r : Registry} {plugins : List (String × PluginSet)}
    {hs : List Handler} (h : Inv interval probe acts w) (hplugins : r.allPlugins = .ok plugins)
    (hv : w.supervisor.setup r hs = .ok v) :
    Inv interval probe (acts ++ [.setup plugins hs]) { w with supervisor := v } := by
  obtain ⟨plugins', hplugins', hv⟩ := bind_eq_ok_iff.1 hv
  obtain rfl := Except.ok.inj (hplugins.symm.trans hplugins')
  obtain rfl := Except.ok.inj hv
  exact ⟨h.configured_setup plugins hs, h.apart, h.unbroken, h.ended, h.ticking,
    h.record.snoc rfl fun _ => rfl⟩

/-- A call that leaves everything as it is. -/
theorem Inv.same (h : Inv interval probe acts w) (hinstalls : b.installs? = none)
    (hopens : b.opens = false) (hb : ∀ k, b.task? k = none) :
    Inv interval probe (acts ++ [b]) w :=
  ⟨h.configured_snoc hinstalls w.supervisor.session, h.apart, h.unbroken, h.ended, h.ticking,
    h.record.snoc hopens hb⟩

/-- A session is opened, of which nothing has been done yet. -/
theorem Inv.open (h : Inv interval probe acts w) (hfree : w.closing = none)
    (hw : w.supervisor.isWatching = false) {now : Nat} (hclock : now + interval < Clock.range) :
    Inv interval probe (acts ++ [.start now true])
      { w with supervisor := w.supervisor.start now } := by
  have hrecord := h.record.start now
  rw [sessions_of_idle hfree (session_eq_none_iff.2 hw)] at hrecord
  rw [h.start_of_idle hw]
  refine ⟨h.configured_snoc rfl _, .inl hfree, h.unbroken, h.ended, ?_, ?_⟩
  · rintro n ⟨⟩
    exact Session.hasTicker_start hclock
  · rw [sessions, hfree]
    exact hrecord

theorem Inv.shutdown (h : Inv interval probe acts w) (hfree : w.closing = none) :
    Inv interval probe (acts ++ [.shutdown]) { w with
      supervisor := { w.supervisor with session := none }, closing := w.supervisor.session } := by
  have hrecord : Record interval probe (acts ++ [.shutdown]) w.sessions :=
    h.record.snoc rfl fun _ => rfl
  refine ⟨h.configured_snoc rfl none, .inr rfl, fun n hn => (h.ticking n hn).2, h.ended,
    forall_mem_none, ?_⟩
  rw [sessions, hfree, Option.toList_none, List.nil_append] at hrecord
  rw [sessions, Option.toList_none, List.append_nil]
  exact hrecord

/-- What a shutdown has waited for is over. -/
theorem Inv.returned (h : Inv interval probe acts w) (hclosing : w.closing = some n)
    (hdispatcher : ¬ n.HasDispatcher) :
    Inv interval probe (acts ++ [.returned])
      { w with closing := none, closed := w.closed ++ [n] } := by
  have hover := Session.isOver_of_not_hasDispatcher hdispatcher (h.unbroken n hclosing)
  have hidle := h.idle hclosing
  have hrecord : Record interval probe (acts ++ [.returned]) w.sessions :=
    h.record.snoc rfl fun _ => rfl
  rw [sessions_of_closing hidle hclosing] at hrecord
  refine ⟨h.configured_snoc rfl w.supervisor.session, .inl rfl, forall_mem_none, ?_, h.ticking,
    ?_⟩
  · intro m hm
    rcases List.mem_append.1 hm with hold | hnew
    · exact h.ended m hold
    · obtain rfl := List.mem_singleton.1 hnew
      exact hover
  · rw [sessions, hidle, Option.toList_none, List.append_nil, List.append_nil]
    exact hrecord

theorem Inv.watch {a : Session.Act} (h : Inv interval probe acts w)
    (hs : w.supervisor.session = some n) (hm : Session.Moves a n n') (ha : a ≠ .stop) :
    Inv interval probe (acts ++ [.task w.closed.length a])
      { w with supervisor := { w.supervisor with session := some n' } } := by
  have hfree := h.free hs
  have hrecord := h.record
  rw [sessions_of_watching hfree hs] at hrecord
  refine ⟨h.configured_snoc rfl (some n'), .inl hfree, h.unbroken, h.ended, ?_, ?_⟩
  · rintro m ⟨⟩
    exact hm.hasTicker ha (h.ticking n hs)
  · rw [sessions, hfree]
    exact hrecord.task hm

theorem Inv.drain {a : Session.Act} (h : Inv interval probe acts w) (hclosing : w.closing = some n)
    (hm : Session.Moves a n n') :
    Inv interval probe (acts ++ [.task w.closed.length a]) { w with closing := some n' } := by
  have hidle := h.idle hclosing
  have hrecord := h.record
  rw [sessions_of_closing hidle hclosing] at hrecord
  refine ⟨h.configured_snoc rfl w.supervisor.session, .inr hidle, ?_, h.ended, h.ticking, ?_⟩
  · rintro m ⟨⟩
    exact hm.not_broken (h.unbroken n hclosing)
  · rw [sessions, hidle]
    exact hrecord.task hm

/-- A shutdown leaves nothing behind that could do something. -/
theorem Inv.not_linger {closed after : List Session} {a : Session.Act}
    (h : Inv interval probe acts w) (hclosed : w.closed = closed ++ n :: after) :
    ¬ Session.Moves a n n' := by
  have hmem : n ∈ w.closed := by
    rw [hclosed]
    exact List.mem_append_right closed List.mem_cons_self
  exact (h.ended n hmem).not_moves a n'

theorem Inv.move (h : Inv interval probe acts w) (hm : Moves a w w') :
    Inv interval probe (acts ++ [a]) w' := by
  cases hm with
  | setup _ hplugins hv => exact h.setup hplugins hv
  | refuse _ hv => exact h.same rfl rfl fun _ => rfl
  | start now hfree hclock =>
    cases hw : w.supervisor.isWatching with
    | true =>
      rw [start_of_watching hw]
      exact h.same rfl rfl fun _ => rfl
    | false =>
      have hclock := hclock hw
      rw [h.configured] at hclock
      exact h.open hfree hw hclock
  | shutdown hfree => exact h.shutdown hfree
  | returned hclosing _ hdispatcher => exact h.returned hclosing hdispatcher
  | watch hs hm ha => exact h.watch hs hm ha
  | drain hclosing hm => exact h.drain hclosing hm
  | linger hclosed hm => exact absurd hm (h.not_linger hclosed)

theorem Run.inv (h : Run (fresh interval probe) acts w) : Inv interval probe acts w := by
  induction h with
  | nil => exact .init interval probe
  | snoc _ hm ih => exact ih.move hm

/-! ## Shutdowns return -/

variable {m : Session} {tasks : List Session.Act}

/-- What the session under way does, as long as nobody stops it. -/
theorem Run.watch (h : Run w₀ acts w) (hs : w.supervisor.session = some n)
    (hrun : Session.Run n tasks m) (hm : m.HasTicker) :
    Run w₀ (acts ++ tasks.map (.task w.closed.length))
      { w with supervisor := { w.supervisor with session := some m } } := by
  induction hrun with
  | nil =>
    rw [List.map_nil, List.append_nil, ← hs]
    exact h
  | @snoc _ _ n' _ _ hmove ih =>
    obtain ⟨hstop, hbefore⟩ := hmove.hasTicker_before hm
    have hlast := @Moves.watch { w with supervisor := { w.supervisor with session := some n' } }
      _ _ _ rfl hmove hstop
    rw [List.map_append, ← List.append_assoc]
    exact (ih hbefore).snoc hlast

/-- What is done in a session that a shutdown waits for. -/
theorem Run.drain (h : Run w₀ acts w) (hclosing : w.closing = some n)
    (hrun : Session.Run n tasks m) :
    Run w₀ (acts ++ tasks.map (.task w.closed.length)) { w with closing := some m } := by
  induction hrun with
  | nil =>
    rw [List.map_nil, List.append_nil, ← hclosing]
    exact h
  | @snoc _ _ n' _ _ hmove ih =>
    have hlast := @Moves.drain { w with closing := some n' } _ _ _ rfl hmove
    rw [List.map_append, ← List.append_assoc]
    exact ih.snoc hlast

/-- A session can be stopped and brought to its end. -/
theorem exists_run_of_closing (n : Session) : ∃ tasks m, Session.Run n tasks m ∧ m.IsOver := by
  by_cases hstop : n.ticker = .stopped
  · exact Session.exists_run_isOver n hstop
  · obtain ⟨tasks, m, hrun, hover⟩ := Session.exists_run_isOver n.stop rfl
    exact ⟨_, m, (Session.Moves.stop hstop).run.append hrun, hover⟩

/-- A shutdown can return. -/
theorem exists_run_of_shutdown (w : Supervision) :
    ∃ rest w', Run w rest w' ∧ w'.closing = none ∧ ∀ b ∈ rest, b.isCall = false := by
  cases hclosing : w.closing with
  | none => exact ⟨[], w, .nil, hclosing, nofun⟩
  | some n =>
    obtain ⟨tasks, m, hrun, hover⟩ := exists_run_of_closing n
    have hdrained := Run.nil.drain hclosing hrun
    have hreturned := hdrained.snoc (.returned rfl hover.not_hasTicker hover.not_hasDispatcher)
    refine ⟨_, _, hreturned, rfl, fun b hb => ?_⟩
    rw [List.nil_append, List.mem_append, List.mem_map, List.mem_singleton] at hb
    obtain ⟨a, -, rfl⟩ | rfl := hb
    · rfl
    · rfl

/-! ## Sessions kept apart -/

/-- Whatever still runs belongs to the session that is under way, or that a shutdown
    waits for. -/
theorem Inv.index_eq (h : Inv interval probe acts w) (hk : w.sessions[k]? = some n)
    (hn : n.HasDispatcher) : k = w.closed.length := by
  obtain ⟨hlt, -⟩ := List.getElem?_eq_some_iff.1 hk
  have hlength : w.sessions.length ≤ w.closed.length + 1 := by
    have hone : w.closing.toList.length + w.supervisor.session.toList.length ≤ 1 := by
      rcases h.apart with hfree | hidle
      · rw [hfree, Option.toList_none, List.length_nil, Nat.zero_add]
        exact Option.length_toList_le
      · rw [hidle, Option.toList_none, List.length_nil, Nat.add_zero]
        exact Option.length_toList_le
    rw [sessions, List.length_append, List.length_append]
    omega
  have hge : ¬ k < w.closed.length := by
    intro hclosed
    rw [sessions, List.getElem?_append_left hclosed] at hk
    exact (h.ended n (List.mem_of_getElem? hk)).not_hasDispatcher hn
  omega

/-- A supervisor that nobody is shutting down is watching exactly if a session has what
    every ticking session has, and none that is over. -/
theorem Inv.isWatching_iff (h : Inv interval probe acts w) (hfree : w.closing = none)
    {p : Session → Prop} (hticking : ∀ n, n.HasTicker → p n) (hover : ∀ n, n.IsOver → ¬ p n) :
    w.supervisor.isWatching = true ↔ ∃ n ∈ w.sessions, p n := by
  cases hs : w.supervisor.session with
  | none =>
    rw [sessions_of_idle hfree hs, Supervisor.isWatching, hs]
    constructor
    · intro hwatching
      cases hwatching
    · rintro ⟨n, hn, hp⟩
      exact absurd hp (hover n (h.ended n hn))
  | some n =>
    rw [sessions_of_watching hfree hs, Supervisor.isWatching, hs]
    refine iff_of_true rfl ⟨n, ?_, hticking n (h.ticking n hs)⟩
    exact List.mem_append_right w.closed List.mem_cons_self

/-- What is known of a supervisor and its sessions after a history. -/
structure KeptApart (interval : Nat) (probe : Probe) (acts : List Act) (w : Supervision) :
    Prop where
  /-- One ticker is there at most. -/
  ticker : ∀ (i j : Nat) (n m : Session), w.sessions[i]? = some n → w.sessions[j]? = some m →
    n.HasTicker → m.HasTicker → i = j
  /-- One dispatcher is there at most. -/
  dispatcher : ∀ (i j : Nat) (n m : Session), w.sessions[i]? = some n →
    w.sessions[j]? = some m → n.HasDispatcher → m.HasDispatcher → i = j
  /-- Both are there exactly if the supervisor is watching.  A shutdown has it to itself,
      so that nobody can ask it before that has returned. -/
  watching : w.closing = none →
    (w.supervisor.isWatching = true ↔ ∃ n ∈ w.sessions, n.HasTicker) ∧
    (w.supervisor.isWatching = true ↔ ∃ n ∈ w.sessions, n.HasDispatcher)
  /-- To start again changes nothing. -/
  again : w.supervisor.isWatching = true → ∀ now opens w', Moves (.start now opens) w w' →
    opens = false ∧ w' = w
  /-- Otherwise a start opens a session, with what the last setup has left. -/
  afresh : w.supervisor.isWatching = false → ∀ now opens w', Moves (.start now opens) w w' →
    opens = true ∧ w'.sessions = w.sessions ++ [opening interval probe acts now]
  length : w.sessions.length = opened acts
  /-- Each session has the targets and the handlers that the last setup before its start
      had left, whatever was set up since. -/
  sessions : ∀ (k : Nat) (n : Session), w.sessions[k]? = some n → ∃ before now,
    Happens acts before (.start now true) ∧ opened before = k ∧
    Session.Run (opening interval probe before now) (tasksOf k acts) n ∧
    Session.Account (opening interval probe before now) (tasksOf k acts) n ∧
    Session.Delivery (opening interval probe before now) (installed before).2 (tasksOf k acts) n
  /-- No session does anything once the next one was opened. -/
  newest : ∀ before k a, Happens acts before (.task k a) → opened before = k + 1
  /-- A shutdown can return, without anybody calling the supervisor. -/
  returns : ∃ rest w', Run w rest w' ∧ w'.closing = none ∧ ∀ b ∈ rest, b.isCall = false

theorem Run.keptApart (h : Run (fresh interval probe) acts w) :
    KeptApart interval probe acts w where
  ticker := by
    intro i j n m hi hj hn hm
    rw [h.inv.index_eq hi hn.hasDispatcher, h.inv.index_eq hj hm.hasDispatcher]
  dispatcher := by
    intro i j n m hi hj hn hm
    rw [h.inv.index_eq hi hn, h.inv.index_eq hj hm]
  watching hfree :=
    ⟨h.inv.isWatching_iff hfree (fun _ hn => hn)
        fun _ hover hn => hover.not_hasDispatcher hn.hasDispatcher,
      h.inv.isWatching_iff hfree (fun _ hn => hn.hasDispatcher)
        fun _ hover => hover.not_hasDispatcher⟩
  again := by
    intro hw now opens w' hm
    cases hm with
    | start now hfree hclock =>
      rw [hw, start_of_watching hw]
      exact ⟨rfl, rfl⟩
  afresh := by
    intro hw now opens w' hm
    cases hm with
    | start now hfree hclock =>
      have hidle := session_eq_none_iff.2 hw
      rw [hw, h.inv.start_of_idle hw, sessions_of_idle hfree hidle, Supervision.sessions, hfree]
      exact ⟨rfl, rfl⟩
  length := h.inv.record.length
  sessions := by
    intro k n hk
    obtain ⟨before, now, hopen, hopened, hrun⟩ := h.inv.record.led k n hk
    have hidle := Session.isIdle_start (installed before).1 (installed before).2 probe interval now
    exact ⟨before, now, hopen, hopened, hrun, hrun.account hidle, hrun.delivery hidle⟩
  newest := h.inv.record.newest
  returns := exists_run_of_shutdown w

/-! ## Stations -/

/-- What is called on the supervisor of a station, one call after another, and time that
    passes.  Anything may happen to hosts and processes between. -/
inductive Calls (st₀ : Station) : List Act → Station → Prop
  | nil : Calls st₀ [] st₀
  | setup {calls : List Act} {st : Station} {plugins : List (String × PluginSet)}
      {hs : List Handler} {v : Supervisor} (h : Calls st₀ calls st)
      (hplugins : st.registry.allPlugins = .ok plugins)
      (hv : st.supervisor.setup st.registry hs = .ok v) :
      Calls st₀ (calls ++ [.setup plugins hs]) { st with supervisor := v }
  | refuse {calls : List Act} {st : Station} {hs : List Handler} {e : Error}
      (h : Calls st₀ calls st) (hv : st.supervisor.setup st.registry hs = .error e) :
      Calls st₀ (calls ++ [.refuse e]) st
  | start {calls : List Act} {st : Station} (h : Calls st₀ calls st)
      (hclock : st.supervisor.isWatching = false →
        st.system.now + st.supervisor.interval < Clock.range) :
      Calls st₀ (calls ++ [.start st.system.now (!st.supervisor.isWatching)])
        { st with supervisor := st.supervisor.start st.system.now }
  | shutdown {calls : List Act} {st : Station} (h : Calls st₀ calls st) :
      Calls st₀ (calls ++ [.shutdown]) st.shutdown
  | wait {calls : List Act} {st : Station} (h : Calls st₀ calls st) (moment : Nat) :
      Calls st₀ calls (st.waitUntil moment)
  | other {calls : List Act} {st : Station} (h : Calls st₀ calls st) (r : Registry) (s : System) :
      Calls st₀ calls { st with registry := r, system := s }

/-- A station has come by these calls, with every shutdown returned. -/
structure Follows (interval : Nat) (probe : Probe) (calls : List Act) (st : Station) : Prop where
  run : ∃ acts closed, Run (fresh interval probe) acts { supervisor := st.supervisor, closed } ∧
    acts.filter Act.isCall = calls
  tight : ∀ n ∈ st.supervisor.session, n.Tight

theorem filter_isCall_tasks (k : Nat) (tasks : List Session.Act) :
    (tasks.map (Act.task k)).filter Act.isCall = [] := by
  rw [List.filter_eq_nil_iff]
  intro b hb
  obtain ⟨a, -, rfl⟩ := List.mem_map.1 hb
  exact Bool.false_ne_true

variable {calls : List Act} {st : Station}

theorem Follows.call (h : Follows interval probe calls st) (ha : a.isCall = true) {v : Supervisor}
    (hm : ∀ closed, Moves a { supervisor := st.supervisor, closed } { supervisor := v, closed })
    (htight : ∀ n ∈ v.session, n.Tight) :
    Follows interval probe (calls ++ [a]) { st with supervisor := v } := by
  obtain ⟨acts, closed, hrun, rfl⟩ := h.run
  refine ⟨⟨acts ++ [a], closed, hrun.snoc (hm closed), ?_⟩, htight⟩
  rw [List.filter_append, List.filter_cons_of_pos ha, List.filter_nil]

theorem Follows.wait (h : Follows interval probe calls st) (moment : Nat) :
    Follows interval probe calls (st.waitUntil moment) := by
  cases hs : st.supervisor.session with
  | none =>
    have hsame : (st.waitUntil moment).supervisor = st.supervisor := by
      rw [Station.waitUntil, hs]
    exact ⟨by rw [hsame]; exact h.run, by rw [hsame]; exact h.tight⟩
  | some n =>
    obtain ⟨acts, closed, hrun, rfl⟩ := h.run
    have hgoes : Session.Goes n (n.runUntil st.registry st.system moment).1 :=
      Session.goes_run st.registry (some moment) (n.costUntil moment) n st.system
    have htight := h.tight n hs
    obtain ⟨tasks, htasks⟩ := hgoes.exists_run htight
    have hticker := hgoes.hasTicker (hrun.inv.ticking n hs)
    have hwatched := hrun.watch hs htasks hticker
    have hsame : (st.waitUntil moment).supervisor = { st.supervisor with
        session := some (n.runUntil st.registry st.system moment).1 } := by
      rw [Station.waitUntil, hs]
    refine ⟨⟨acts ++ tasks.map (.task closed.length), closed, ?_, ?_⟩, ?_⟩
    · rw [hsame]
      exact hwatched
    · rw [List.filter_append, filter_isCall_tasks, List.append_nil]
    · rw [hsame]
      rintro m ⟨⟩
      exact hgoes.tight htight

theorem Follows.shutdown (h : Follows interval probe calls st) :
    Follows interval probe (calls ++ [.shutdown]) st.shutdown := by
  obtain ⟨acts, closed, hrun, rfl⟩ := h.run
  have hbegun : Run (fresh interval probe) (acts ++ [.shutdown])
      { supervisor := { st.supervisor with session := none }
        closing := st.supervisor.session, closed } :=
    hrun.snoc (.shutdown rfl)
  cases hs : st.supervisor.session with
  | none =>
    have hsame : st.shutdown = st := by
      rw [Station.shutdown, hs]
    have hidle : { st.supervisor with session := none } = st.supervisor := by
      rw [← hs]
    rw [hs, hidle] at hbegun
    rw [hsame]
    refine ⟨⟨acts ++ [.shutdown], closed, hbegun, ?_⟩, h.tight⟩
    rw [List.filter_append]
    rfl
  | some n =>
    -- The session is stopped, and what is under way is done before the shutdown returns.
    obtain ⟨m, tasks, -, htasks, hover⟩ :=
      Session.isOver_drain (h.tight n hs) st.registry st.system
    have hstop : Session.Moves .stop n n.stop := .stop (hrun.inv.ticking n hs).1
    have hdrained := hbegun.drain hs (hstop.run.append htasks)
    have hsame : st.shutdown.supervisor = { st.supervisor with session := none } := by
      rw [Station.shutdown, hs]
    refine ⟨⟨acts ++ [.shutdown] ++ (.stop :: tasks).map (.task closed.length) ++ [.returned],
      closed ++ [m], ?_, ?_⟩, ?_⟩
    · rw [hsame]
      exact hdrained.snoc (.returned rfl hover.not_hasTicker hover.not_hasDispatcher)
    · rw [List.filter_append, List.filter_append, List.filter_append, filter_isCall_tasks,
        List.append_nil]
      exact List.append_nil _
    · rw [hsame]
      exact forall_mem_none

theorem Calls.follows {st₀ : Station} (h : Calls st₀ calls st)
    (h₀ : st₀.supervisor = { interval, probe }) : Follows interval probe calls st := by
  induction h with
  | nil =>
    refine ⟨⟨[], [], ?_, rfl⟩, ?_⟩
    · rw [h₀]
      exact .nil
    · rw [h₀]
      exact forall_mem_none
  | setup _ hplugins hv ih =>
    refine ih.call rfl (fun closed => .setup rfl hplugins hv) ?_
    obtain ⟨plugins, -, hv⟩ := bind_eq_ok_iff.1 hv
    obtain rfl := Except.ok.inj hv
    exact ih.tight
  | refuse _ hv ih => exact ih.call rfl (fun closed => .refuse rfl hv) ih.tight
  | @start calls st _ hclock ih =>
    refine ih.call rfl (fun closed => @Moves.start ⟨st.supervisor, none, closed⟩ _ rfl hclock) ?_
    intro n hn
    rw [Supervisor.start] at hn
    split at hn
    · exact ih.tight n hn
    · obtain rfl := Option.some.inj hn
      exact Session.tight_start _ _ _ _ _
  | shutdown _ ih => exact ih.shutdown
  | wait _ moment ih => exact ih.wait moment
  | other _ r s ih => exact ⟨ih.run, ih.tight⟩

/-- Whatever is called on a supervisor, in any order and number, and whatever its tasks do
    meanwhile: its sessions are kept apart.  So they are at a station, where the calls
    and the time between them are one of these runs. -/
theorem sessions_kept_apart (interval : Nat) (probe : Probe) :
    (∀ acts w, Run (fresh interval probe) acts w → KeptApart interval probe acts w) ∧
    ∀ st₀ calls st, st₀.supervisor = { interval, probe } → Calls st₀ calls st →
      ∃ acts closed, Run (fresh interval probe) acts { supervisor := st.supervisor, closed } ∧
        acts.filter Act.isCall = calls := by
  constructor
  · intro acts w hrun
    exact hrun.keptApart
  · intro st₀ calls st h₀ hcalls
    exact (hcalls.follows h₀).run

/-! ## Two sessions -/

def echoTarget : Target :=
  ⟨"host", "echo"⟩

/-- The plugins that are found at first. -/
def echoPlugins : List (String × PluginSet) :=
  ((Traffic.ready []).registry.allPlugins).toOption.getD []

/-- A session watches one plugin.  A setup that finds nothing comes meanwhile, and another
    start; then the session is shut down and the next one begun. -/
def twoSessions : List Act :=
  [.setup echoPlugins [], .start 0 true, .task 0 .tick, .setup [] [], .start 1 false,
    .task 0 (.judge echoTarget .alive), .shutdown, .task 0 .stop, .returned, .start 10 true]

theorem exists_run_twoSessions : ∃ w, Run (fresh 5000 {}) twoSessions w ∧
    w.sessions.map (·.targets) = [[echoTarget], []] := by
  have hclock (now : Nat) (hnow : now ≤ 10) : now + 5000 < Clock.range := by
    have hrange : 10 + 5000 < Clock.range := by decide
    omega
  have hplugins : (Traffic.ready []).registry.allPlugins = .ok echoPlugins := rfl
  have hstart : Run (fresh 5000 {}) [] (fresh 5000 {}) := .nil
  have hsetup : Run (fresh 5000 {}) [.setup echoPlugins []]
      { supervisor := { targets := [echoTarget], handlers := [.restart] } } :=
    hstart.snoc (.setup rfl hplugins rfl)
  have h := hsetup.snoc (.start 0 rfl fun _ => hclock 0 (by decide))
  have h := (h.snoc (.watch rfl (.tick {} rfl) nofun)).snoc
    (@Moves.setup _ _ ({} : Registry) [] [] rfl rfl rfl)
  have h := (h.snoc (.start 1 rfl nofun)).snoc
    (.watch rfl (@Session.Moves.judge _ [] [] 0 echoTarget .alive rfl) nofun)
  have h := (h.snoc (.shutdown rfl)).snoc (.drain rfl (.stop nofun))
  have hover : Session.IsOver (opening 5000 {} [.setup echoPlugins []] 0).stop :=
    ⟨⟨rfl, rfl, rfl, rfl⟩, rfl⟩
  have h := h.snoc (.returned rfl hover.not_hasTicker hover.not_hasDispatcher)
  have h := h.snoc (.start 10 rfl fun _ => hclock 10 (by decide))
  exact ⟨_, h, rfl⟩

/-- The first session keeps its plugin, and the second one has what was found in between.
    A station that is begun and shut down has made a run, too. -/
theorem two_sessions_kept_apart :
    (∃ w, KeptApart 5000 {} twoSessions w ∧ w.sessions.map (·.targets) = [[echoTarget], []]) ∧
    ∃ acts closed, Run (fresh 5000 {}) acts { supervisor := {}, closed } ∧
      acts.filter Act.isCall = [.start 0 true, .shutdown] := by
  constructor
  · obtain ⟨w, hrun, htargets⟩ := exists_run_twoSessions
    exact ⟨w, (sessions_kept_apart 5000 {}).1 twoSessions w hrun, htargets⟩
  · have hbegun : Calls {} [.start 0 true] { supervisor := Supervisor.start {} 0 } :=
      Calls.nil.start fun _ => by decide
    have hclosed : Calls {} [.start 0 true, .shutdown] { supervisor := {} } := hbegun.shutdown
    exact (sessions_kept_apart 5000 {}).2 _ _ _ rfl hclosed

end Supervision
end PluginHost
