/-
  PluginHost.Proofs.Supervision.Moves

  What the tasks of a session may do, in any order: the ticker ticks, probes return
  one by one and hand over their signals, signals enter the queue while there is
  room, and the dispatcher takes one after another through the handlers.  How long
  a probe or a handler takes, and what a probe finds, is left open.

    * `Moves a n n'` — the session `n` may do `a`, and is `n'` then.
    * `Run n₀ acts n` — it has come from `n₀` to `n` by `acts`, the first one first.

  `Account` says where everything is that came of a run: each probe that a tick
  started has returned or is under way, each signal was received, waits in the
  queue or waits outside, and the handlers were called for the signals in the
  order in which these were received.
-/
import PluginHost.Supervisor

namespace PluginHost
namespace Session

/-! ## Moves -/

/-- What a session does. -/
inductive Act where
  /-- The ticker ticks. -/
  | tick
  /-- The probe of a target returns. -/
  | judge (t : Target) (found : Liveness)
  /-- A signal that has waited outside enters the queue. -/
  | accept (signal : Signal)
  /-- The dispatcher takes a signal. -/
  | receive (signal : Signal)
  | call (h : Handler) (signal : Signal)
  /-- The handler that was called returns. -/
  | finish
  /-- The signal has passed all handlers. -/
  | pass
  /-- The ticker ends. -/
  | stop
  deriving DecidableEq

/-- The signal that a probe gives. -/
def signalOf (t : Target) : Liveness → Option Signal
  | .dead pid => some ⟨t.host, t.plugin, pid⟩
  | _ => none

/-- A move that the tasks of a session may make. -/
inductive Moves : Act → Session → Session → Prop
  | tick {n : Session} (s : System) (h : n.ticker.next?.isSome = true) : Moves .tick n (n.tick s).1
  | judge {n : Session} {before after : List (Nat × Target)} {due : Nat} {t : Target}
      (found : Liveness) (h : n.probing = before ++ (due, t) :: after) :
      Moves (.judge t found) n { n with
        probing := before ++ after, blocked := n.blocked ++ (signalOf t found).toList }
  /-- Whoever waits outside may come next. -/
  | accept {n : Session} {before after : List Signal} {signal : Signal}
      (h : n.blocked = before ++ signal :: after) (hroom : n.queue.length < queueLimit) :
      Moves (.accept signal) n { n with
        queue := n.queue ++ [signal], blocked := before ++ after }
  | receive {n : Session} {signal : Signal} {rest : List Signal} (h : n.dispatch = none)
      (hq : n.queue = signal :: rest) :
      Moves (.receive signal) n { n with
        queue := rest, dispatch := some { signal, remaining := n.handlers } }
  | call {n : Session} {signal : Signal} {h : Handler} {remaining : List Handler}
      (hd : n.dispatch = some ⟨signal, h :: remaining, .ready⟩) (handling : Handling)
      (hwait : handling.wake?.isSome = true) :
      Moves (.call h signal) n { n with dispatch := some ⟨signal, remaining, handling⟩ }
  | finish {n : Session} {d : Dispatch} (hd : n.dispatch = some d)
      (hwait : d.handling.wake?.isSome = true) :
      Moves .finish n { n with dispatch := some { d with handling := .ready } }
  | pass {n : Session} {signal : Signal} (hd : n.dispatch = some ⟨signal, [], .ready⟩) :
      Moves .pass n { n with dispatch := none }
  | stop {n : Session} (h : n.ticker ≠ .stopped) : Moves .stop n n.stop

/-- A session has come to where it is by acts. -/
inductive Run (n₀ : Session) : List Act → Session → Prop
  | nil : Run n₀ [] n₀
  | snoc {acts : List Act} {a : Act} {n n' : Session} (h : Run n₀ acts n) (hm : Moves a n n') :
      Run n₀ (acts ++ [a]) n'

variable {n₀ n n' m : Session} {acts acts' : List Act} {a : Act}

theorem Moves.run (h : Moves a n n') : Run n [a] n' :=
  Run.nil.snoc h

theorem Run.append (h : Run n₀ acts n) (h' : Run n acts' m) : Run n₀ (acts ++ acts') m := by
  induction h' with
  | nil => rwa [List.append_nil]
  | snoc _ hm ih =>
    rw [← List.append_assoc]
    exact ih.snoc hm

/-! ## Accounts -/

/-- The target whose probe returns. -/
def Act.judged? : Act → Option Target
  | .judge t _ => some t
  | _ => none

/-- The signal of a probe that returns. -/
def Act.found? : Act → Option Signal
  | .judge t found => signalOf t found
  | _ => none

def Act.received? : Act → Option Signal
  | .receive signal => some signal
  | _ => none

/-- Whether a handler is called, or returns. -/
def Act.isHandling : Act → Bool
  | .call .. | .finish => true
  | _ => false

/-- The way of a signal through handlers: each is called, and returns before the next
    one is called. -/
def passage (hs : List Handler) (signal : Signal) : List Act :=
  hs.flatMap fun h => [.call h signal, .finish]

/-- What is left of the way of the signal that the dispatcher has taken. -/
def ahead (n : Session) : List Act :=
  match n.dispatch with
  | none => []
  | some d => (if d.handling.wake?.isSome then [.finish] else []) ++ passage d.remaining d.signal

theorem ahead_of_ready {d : Dispatch} (hd : n.dispatch = some d) (hready : d.handling = .ready) :
    n.ahead = passage d.remaining d.signal := by
  rw [ahead, hd]
  simp only [hready]
  rfl

theorem ahead_of_waiting {d : Dispatch} (hd : n.dispatch = some d)
    (hwait : d.handling.wake?.isSome = true) :
    n.ahead = .finish :: passage d.remaining d.signal := by
  rw [ahead, hd]
  simp only [hwait, if_true]
  rfl

/-- Nothing is under way. -/
structure IsIdle (n : Session) : Prop where
  probing : n.probing = []
  queue : n.queue = []
  blocked : n.blocked = []
  dispatch : n.dispatch = none

/-- Where everything is that came of a run. -/
structure Account (n₀ : Session) (acts : List Act) (n : Session) : Prop where
  targets : n.targets = n₀.targets
  handlers : n.handlers = n₀.handlers
  -- A probe that was started has returned or is under way.
  probes : (acts.filterMap Act.judged? ++ n.probing.map (·.2)).Perm
    (List.replicate (acts.count .tick) n₀.targets).flatten
  -- A signal was received, waits in the queue, or waits outside.
  signals : (acts.filterMap Act.found?).Perm
    (acts.filterMap Act.received? ++ (n.queue ++ n.blocked))
  -- What was done about the signals, and what lies ahead, are their whole ways.
  calls : acts.filter Act.isHandling ++ n.ahead
    = (acts.filterMap Act.received?).flatMap (passage n₀.handlers)

theorem Account.init (h : n.IsIdle) : Account n [] n where
  targets := rfl
  handlers := rfl
  probes := by
    rw [h.probing]
    exact List.Perm.refl _
  signals := by
    rw [h.queue, h.blocked]
    exact List.Perm.refl _
  calls := by
    rw [ahead, h.dispatch]
    rfl

theorem probing_of_tick (h : Moves .tick n n') :
    n'.probing.map (·.2) = n.probing.map (·.2) ++ n.targets := by
  cases h with
  | tick s h =>
    simp only [Session.tick, List.map_append, List.map_map]
    congr 1
    exact List.map_id _

theorem filterMap_snoc {α : Type} (f : Act → Option α) (acts : List Act) (a : Act) :
    (acts ++ [a]).filterMap f = acts.filterMap f ++ (f a).toList := by
  rw [List.filterMap_append]
  cases h : f a <;> simp [h]

theorem count_tick_snoc (acts : List Act) (ha : a ≠ .tick) :
    (acts ++ [a]).count .tick = acts.count .tick := by
  rw [List.count_append, List.count_singleton, if_neg (by simpa using ha), Nat.add_zero]

-- One lemma for each kind of account, for the moves that do not show in it.

theorem Account.probes_snoc (h : Account n₀ acts n) (ha : a ≠ .tick) (hj : a.judged? = none)
    (hp : n'.probing = n.probing) :
    ((acts ++ [a]).filterMap Act.judged? ++ n'.probing.map (·.2)).Perm
      (List.replicate ((acts ++ [a]).count .tick) n₀.targets).flatten := by
  rw [filterMap_snoc, hj, Option.toList_none, List.append_nil, hp, count_tick_snoc acts ha]
  exact h.probes

theorem Account.signals_snoc (h : Account n₀ acts n) (hf : a.found? = none)
    (hr : a.received? = none) (hn : (n'.queue ++ n'.blocked).Perm (n.queue ++ n.blocked)) :
    ((acts ++ [a]).filterMap Act.found?).Perm
      ((acts ++ [a]).filterMap Act.received? ++ (n'.queue ++ n'.blocked)) := by
  rw [filterMap_snoc, filterMap_snoc, hf, hr, Option.toList_none, List.append_nil, List.append_nil]
  exact h.signals.trans (hn.symm.append_left _)

/-- What is done about a signal is the next thing on its way. -/
theorem Account.calls_snoc (h : Account n₀ acts n) (hr : a.received? = none)
    (hn : [a].filter Act.isHandling ++ n'.ahead = n.ahead) :
    (acts ++ [a]).filter Act.isHandling ++ n'.ahead
      = ((acts ++ [a]).filterMap Act.received?).flatMap (passage n₀.handlers) := by
  rw [List.filter_append, List.append_assoc, hn, filterMap_snoc, hr, Option.toList_none,
    List.append_nil]
  exact h.calls

theorem Account.move (h : Account n₀ acts n) (hm : Moves a n n') :
    Account n₀ (acts ++ [a]) n' := by
  cases hm with
  | tick s hdue =>
    have hprobing := probing_of_tick (.tick s hdue)
    refine ⟨h.targets, h.handlers, ?_, h.signals_snoc rfl rfl (List.Perm.refl _),
      h.calls_snoc rfl rfl⟩
    rw [hprobing, h.targets, filterMap_snoc, List.count_append, List.count_singleton_self,
      List.replicate_succ', List.flatten_append]
    simpa [Act.judged?] using h.probes.append_right n₀.targets
  | @judge _ before after due t found hp =>
    refine ⟨h.targets, h.handlers, ?_, ?_, h.calls_snoc rfl rfl⟩
    · -- The target moves from the probes under way to those that have returned.
      have hperm : ((acts ++ [Act.judge t found]).filterMap Act.judged?
          ++ (before ++ after).map (·.2)).Perm
          (acts.filterMap Act.judged? ++ n.probing.map (·.2)) := by
        rw [filterMap_snoc, hp, List.append_assoc, List.map_append, List.map_append, List.map_cons]
        have hmove : (t :: (before.map (·.2) ++ after.map (·.2))).Perm
            (before.map (·.2) ++ t :: after.map (·.2)) := List.perm_middle.symm
        exact hmove.append_left _
      refine hperm.trans ?_
      rw [count_tick_snoc acts (by simp)]
      exact h.probes
    · have hnone : (Act.judge t found).received? = none := rfl
      rw [filterMap_snoc, filterMap_snoc, hnone, Option.toList_none, List.append_nil,
        ← List.append_assoc n.queue, ← List.append_assoc]
      exact h.signals.append_right _
  | @accept _ before after signal hb hroom =>
    refine ⟨h.targets, h.handlers, h.probes_snoc (by simp) rfl rfl, ?_, h.calls_snoc rfl rfl⟩
    refine h.signals_snoc rfl rfl ?_
    have hmove : (signal :: (before ++ after)).Perm (before ++ signal :: after) :=
      List.perm_middle.symm
    rw [hb, List.append_assoc]
    exact hmove.append_left n.queue
  | @receive _ signal rest hd hq =>
    refine ⟨h.targets, h.handlers, h.probes_snoc (by simp) rfl rfl, ?_, ?_⟩
    · have hnone : (Act.receive signal).found? = none := rfl
      have hsome : (Act.receive signal).received? = some signal := rfl
      rw [filterMap_snoc, filterMap_snoc, hnone, hsome, Option.toList_none, List.append_nil,
        Option.toList_some, List.append_assoc]
      have hsignals := h.signals
      rw [hq] at hsignals
      exact hsignals
    · -- The whole way of the signal lies ahead.
      have hcalls := h.calls
      have hsome : (Act.receive signal).received? = some signal := rfl
      rw [ahead, hd, List.append_nil] at hcalls
      rw [filterMap_snoc, hsome, Option.toList_some, List.flatMap_append, ← hcalls,
        List.filter_append, h.handlers, ahead_of_ready rfl rfl]
      simp [Act.isHandling]
  | @call _ signal hd remaining hdisp handling hwait =>
    -- From here on what is done is what lay next on the way of the signal.
    refine ⟨h.targets, h.handlers, h.probes_snoc (by simp) rfl rfl,
      h.signals_snoc rfl rfl (List.Perm.refl _), h.calls_snoc rfl ?_⟩
    rw [ahead_of_ready hdisp rfl, ahead_of_waiting rfl hwait]
    rfl
  | @finish _ d hdisp hwait =>
    refine ⟨h.targets, h.handlers, h.probes_snoc (by simp) rfl rfl,
      h.signals_snoc rfl rfl (List.Perm.refl _), h.calls_snoc rfl ?_⟩
    rw [ahead_of_waiting hdisp hwait, ahead_of_ready rfl rfl]
    rfl
  | @pass _ signal hdisp =>
    refine ⟨h.targets, h.handlers, h.probes_snoc (by simp) rfl rfl,
      h.signals_snoc rfl rfl (List.Perm.refl _), h.calls_snoc rfl ?_⟩
    rw [ahead_of_ready hdisp rfl]
    rfl
  | stop hticker =>
    exact ⟨h.targets, h.handlers, h.probes_snoc (by simp) rfl rfl,
      h.signals_snoc rfl rfl (List.Perm.refl _), h.calls_snoc rfl rfl⟩

theorem Run.account (h : Run n₀ acts n) (hidle : n₀.IsIdle) : Account n₀ acts n := by
  induction h with
  | nil => exact Account.init hidle
  | snoc _ hm ih => exact ih.move hm

/-! ## The end of a session -/

/-- The ticker has ended, and nothing is under way any more. -/
structure IsOver (n : Session) : Prop extends IsIdle n where
  ticker : n.ticker = .stopped

theorem Account.judged_of_isOver (h : Account n₀ acts n) (hover : n.IsOver) :
    (acts.filterMap Act.judged?).Perm
      (List.replicate (acts.count .tick) n₀.targets).flatten := by
  have hprobes := h.probes
  rwa [hover.probing, List.map_nil, List.append_nil] at hprobes

/-- When a session is over, each signal has passed all handlers, one signal after
    another. -/
theorem Account.handled_of_isOver (h : Account n₀ acts n) (hover : n.IsOver) :
    ∃ received : List Signal, received.Perm (acts.filterMap Act.found?) ∧
      acts.filter Act.isHandling = received.flatMap (passage n₀.handlers) := by
  have hsignals := h.signals
  have hcalls := h.calls
  rw [hover.queue, hover.blocked, List.append_nil, List.append_nil] at hsignals
  rw [ahead, hover.dispatch, List.append_nil] at hcalls
  exact ⟨_, hsignals.symm, hcalls⟩

/-- When a session is over, nothing happens any more. -/
theorem IsOver.not_moves (h : n.IsOver) (a : Act) (n' : Session) : ¬ Moves a n n' := by
  intro hm
  cases hm with
  | tick s hdue =>
    rw [h.ticker] at hdue
    cases hdue
  | judge found hp => simp [h.probing] at hp
  | accept hb hroom => simp [h.blocked] at hb
  | receive hd hq => simp [h.queue] at hq
  | call hd handling hwait => simp [h.dispatch] at hd
  | finish hd hwait => simp [h.dispatch] at hd
  | pass hd => simp [h.dispatch] at hd
  | stop hticker => exact hticker h.ticker

/-- As long as a session is not over, something can happen. -/
theorem exists_moves (hstop : n.ticker = .stopped) (h : ¬ n.IsOver) : ∃ a n', Moves a n n' := by
  cases hd : n.dispatch with
  | some d =>
    obtain ⟨signal, remaining, handling⟩ := d
    cases hwait : handling.wake? with
    | some wake => exact ⟨_, _, .finish hd (by rw [hwait]; rfl)⟩
    | none =>
      obtain rfl : handling = .ready := by
        cases handling <;> first | rfl | cases hwait
      cases remaining with
      | nil => exact ⟨_, _, .pass hd⟩
      | cons first rest => exact ⟨_, _, .call hd (.pausing 0) rfl⟩
  | none =>
    match hq : n.queue, hb : n.blocked, hp : n.probing with
    | signal :: rest, _, _ => exact ⟨_, _, .receive hd hq⟩
    | [], signal :: rest, _ =>
      -- The queue is empty, so that there is room.
      have hfirst : n.blocked = [] ++ signal :: rest := hb
      exact ⟨_, _, .accept hfirst (by rw [hq]; decide)⟩
    | [], [], (due, t) :: rest =>
      have hfirst : n.probing = [] ++ (due, t) :: rest := hp
      exact ⟨_, _, .judge .alive hfirst⟩
    | [], [], [] => exact absurd ⟨⟨hp, hq, hb, hd⟩, hstop⟩ h

/-- What is left to do for a signal that was taken: each handler is called and returns,
    and the signal is done with. -/
def dispatchWork (d : Dispatch) : Nat :=
  1 + 2 * d.remaining.length + (if d.handling.wake?.isSome then 1 else 0)

theorem dispatchWork_of_ready {d : Dispatch} (h : d.handling = .ready) :
    dispatchWork d = 1 + 2 * d.remaining.length := by
  rw [dispatchWork, h]
  rfl

theorem dispatchWork_of_waiting {d : Dispatch} (h : d.handling.wake?.isSome = true) :
    dispatchWork d = 2 + 2 * d.remaining.length := by
  rw [dispatchWork, if_pos h]
  omega

/-- What is left to do in a session without further ticks.  For a signal that waits it
    is to be taken, and to pass all handlers. -/
def work (n : Session) : Nat :=
  n.probing.length * (n.signalCost + 1) + (n.queue.length + n.blocked.length) * n.signalCost
    + (n.dispatch.map dispatchWork).getD 0

/-- What an act takes off that.  A signal that enters the queue comes no nearer to the
    handlers. -/
def Act.cost : Act → Nat
  | .accept _ => 0
  | _ => 1

/-- A session without further ticks stays one, and every move takes something off the
    work. -/
theorem Moves.work_add_le (hm : Moves a n n') (hstop : n.ticker = .stopped) :
    n'.ticker = .stopped ∧ n'.work + a.cost ≤ n.work := by
  cases hm with
  | tick s hdue =>
    rw [hstop] at hdue
    cases hdue
  | @judge _ before after due t found hp =>
    refine ⟨hstop, ?_⟩
    -- A probe gives one signal at most, and its own unit pays for its return.
    have hlen : (signalOf t found).toList.length ≤ 1 := Option.length_toList_le
    have hcost : (signalOf t found).toList.length * n.signalCost ≤ n.signalCost := by
      simpa using Nat.mul_le_mul_right n.signalCost hlen
    simp only [work, signalCost, Act.cost, hp, List.length_append, List.length_cons, Nat.add_mul,
      Nat.one_mul] at hcost ⊢
    omega
  | @accept _ before after signal hb hroom =>
    refine ⟨hstop, ?_⟩
    simp only [work, signalCost, Act.cost, hb, List.length_append, List.length_cons,
      List.length_nil, Nat.add_mul, Nat.one_mul]
    omega
  | @receive _ signal rest hd hq =>
    refine ⟨hstop, ?_⟩
    simp only [work, signalCost, Act.cost, hd, hq, List.length_cons, Nat.add_mul, Nat.one_mul,
      Option.map_some, Option.map_none, Option.getD_some, Option.getD_none, dispatchWork_of_ready]
    omega
  | @call _ signal hd remaining hdisp handling hwait =>
    refine ⟨hstop, ?_⟩
    have hnew : dispatchWork ⟨signal, remaining, handling⟩ = 2 + 2 * remaining.length :=
      dispatchWork_of_waiting hwait
    simp only [work, signalCost, Act.cost, hdisp, List.length_cons, Option.map_some,
      Option.getD_some, dispatchWork_of_ready, hnew]
    omega
  | @finish _ d hdisp hwait =>
    refine ⟨hstop, ?_⟩
    simp only [work, signalCost, Act.cost, hdisp, Option.map_some, Option.getD_some,
      dispatchWork_of_ready, dispatchWork_of_waiting hwait]
    omega
  | @pass _ signal hdisp =>
    refine ⟨hstop, ?_⟩
    simp only [work, signalCost, Act.cost, hdisp, Option.map_some, Option.map_none,
      Option.getD_some, Option.getD_none, dispatchWork_of_ready]
    omega
  | stop hticker => exact absurd hstop hticker

/-- A run of a session without further ticks adds no work. -/
theorem Run.work_le (h : Run n acts n') (hstop : n.ticker = .stopped) :
    n'.ticker = .stopped ∧ n'.work ≤ n.work := by
  induction h with
  | nil => exact ⟨hstop, Nat.le_refl _⟩
  | snoc _ hm ih =>
    obtain ⟨hstop', hle⟩ := ih
    obtain ⟨hstop'', hle'⟩ := hm.work_add_le hstop'
    exact ⟨hstop'', by omega⟩

/-- How many acts there may still be in a session without further ticks: a signal
    outside has to enter the queue, too. -/
def toGo (n : Session) : Nat :=
  2 * n.work + n.blocked.length

/-- Every move of a session without further ticks brings it nearer to its end. -/
theorem Moves.toGo_lt (hm : Moves a n n') (hstop : n.ticker = .stopped) : n'.toGo < n.toGo := by
  obtain ⟨-, hwork⟩ := hm.work_add_le hstop
  -- Only a probe that returns adds to the signals outside, and one at most.
  have hblocked : n'.blocked.length < n.blocked.length + 2 * a.cost := by
    cases hm with
    | @judge _ before after due t found hp =>
      have hlen : (signalOf t found).toList.length ≤ 1 := Option.length_toList_le
      simp only [List.length_append, Act.cost]
      omega
    | accept hb hroom => simp [hb, Act.cost]
    | _ => simp [Act.cost, Session.tick, Session.stop]
  rw [toGo, toGo]
  omega

/-- A run of a session without further ticks is no longer than what is to do. -/
theorem Run.length_le (h : Run n acts n') (hstop : n.ticker = .stopped) :
    acts.length + n'.toGo ≤ n.toGo := by
  induction h with
  | nil => simp
  | snoc hrun hm ih =>
    have hlt := hm.toGo_lt (hrun.work_le hstop).1
    rw [List.length_append, List.length_singleton]
    omega

/-- A session without further ticks can be brought to its end. -/
theorem exists_run_isOver (n : Session) (hstop : n.ticker = .stopped) :
    ∃ acts m, Run n acts m ∧ m.IsOver := by
  by_cases hover : n.IsOver
  · exact ⟨[], n, .nil, hover⟩
  · -- Whichever move it is, less is to do after it.
    obtain ⟨a, n', hm⟩ := exists_moves hstop hover
    have hlt := hm.toGo_lt hstop
    obtain ⟨acts, m, hrun, hm'⟩ := exists_run_isOver n' (hm.work_add_le hstop).1
    exact ⟨[a] ++ acts, m, hm.run.append hrun, hm'⟩
termination_by n.toGo

end Session
end PluginHost
