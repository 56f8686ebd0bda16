/-
  PluginHost.Proofs.Supervision.Draining

  The order that a session gives its moves.  It goes on by `step`, which lets time
  pass only if nothing can be done at once; each of its steps is a run of moves, or
  waits.  So whatever holds of all runs holds of a session, and what is left of it
  when it is shut down is done to the end (`isOver_drain`).
-/
import PluginHost.Proofs.Supervision.Moves
import PluginHost.Proofs.System.Frame

namespace PluginHost
namespace Session

variable {n₀ n n' : Session} {r : Registry} {s s' : System} {limit : Option Nat}

/-! ## Steps are runs -/

theorem takeDue_eq_some {now : Nat} {t : Target} {ps rest : List (Nat × Target)}
    (h : takeDue now ps = some (t, rest)) :
    ∃ before due after, ps = before ++ (due, t) :: after ∧ rest = before ++ after := by
  induction ps generalizing rest with
  | nil => cases h
  | cons p ps ih =>
    obtain ⟨due, t'⟩ := p
    rw [takeDue] at h
    split at h
    · obtain ⟨rfl, rfl⟩ := Prod.mk.inj (Option.some.inj h)
      exact ⟨[], due, ps, rfl, rfl⟩
    · obtain ⟨⟨found, rest'⟩, hfound, heq⟩ := Option.bind_eq_some_iff.1 h
      obtain ⟨rfl, rfl⟩ := Prod.mk.inj (Option.some.inj heq)
      obtain ⟨before, due', after, rfl, rfl⟩ := ih hfound
      exact ⟨(due, t') :: before, due', after, rfl, rfl⟩

theorem takeDue_eq_none_iff {now : Nat} {ps : List (Nat × Target)} :
    takeDue now ps = none ↔ ∀ p ∈ ps, now < p.1 := by
  induction ps with
  | nil => simp [takeDue]
  | cons p ps ih =>
    obtain ⟨due, t⟩ := p
    rw [takeDue]
    split
    · rename_i hdue
      simp only [reduceCtorEq, List.mem_cons, forall_eq_or_imp, false_iff, not_and]
      omega
    · rename_i hdue
      rw [List.forall_mem_cons, ← ih]
      cases takeDue now ps with
      | none => simpa using hdue
      | some found => simp

/-- All that a step at once can be. -/
theorem stepNow_cases (h : n.stepNow r s = some (n', s')) :
    (∃ before due t after, n.probing = before ++ (due, t) :: after ∧
      n' = { n with probing := before ++ after }.conclude r s t ∧ s' = s) ∨
    (∃ d, n.dispatch = some d ∧ n.advance r s d = (n', s')) ∨
    ∃ signal rest, n.dispatch = none ∧ n.queue = signal :: rest ∧ n' = n.take signal rest ∧
      s' = s := by
  unfold stepNow at h
  split at h
  · rename_i t probing hdue
    obtain ⟨rfl, rfl⟩ := Prod.mk.inj (Option.some.inj h)
    obtain ⟨before, due, after, hp, rfl⟩ := takeDue_eq_some hdue
    exact Or.inl ⟨before, due, t, after, hp, rfl, rfl⟩
  · split at h
    · rename_i d hd
      split at h
      · exact Or.inr (Or.inl ⟨d, hd, Option.some.inj h⟩)
      · split at h
        · exact Or.inr (Or.inl ⟨d, hd, Option.some.inj h⟩)
        · cases h
    · rename_i hd
      split at h
      · cases h
      · rename_i signal rest hq
        obtain ⟨rfl, rfl⟩ := Prod.mk.inj (Option.some.inj h)
        exact Or.inr (Or.inr ⟨signal, rest, hd, hq, rfl, rfl⟩)

theorem conclude_eq (n : Session) (r : Registry) (s : System) (t : Target) :
    n.conclude r s t = match signalOf t (n.probe.decide r s t.host t.plugin) with
      | some signal => n.send signal
      | none => n := by
  rw [conclude]
  cases n.probe.decide r s t.host t.plugin <;> rfl

/-- A run by acts of which the first one is more than a signal that enters the queue. -/
def Works (acts : List Act) (n n' : Session) : Prop :=
  ∃ a rest m, acts = a :: rest ∧ Moves a n m ∧ a.cost = 1 ∧ Run m rest n'

theorem Moves.works {a : Act} (h : Moves a n n') (ha : a.cost = 1) : Works [a] n n' :=
  ⟨a, [], n', rfl, h, ha, .nil⟩

theorem Moves.works_then {a b : Act} {m : Session} (h : Moves a n m) (h' : Moves b m n')
    (ha : a.cost = 1) : Works [a, b] n n' :=
  ⟨a, [b], m, rfl, h, ha, h'.run⟩

theorem Works.run {acts : List Act} (h : Works acts n n') : Run n acts n' := by
  obtain ⟨a, rest, m, rfl, hm, -, hrun⟩ := h
  exact hm.run.append hrun

/-! ### What each step does -/

/-- The signals that enter the queue at once when a probe has decided. -/
def entering (n : Session) (t : Target) (found : Liveness) : List Act :=
  if n.queue.length < queueLimit ∧ n.blocked = [] then
    (signalOf t found).toList.map .accept
  else []

/-- What follows a call at once: the handler returns, unless it has to be waited for. -/
def returning : Handling → List Act
  | .ready => [.finish]
  | _ => []

/-- What a session does in one step, in terms of its tasks, and what becomes of everything
    else by that. -/
inductive Does (n : Session) (r : Registry) (s : System) : List Act → System → Prop
  /-- The first probe that is due returns with what it has decided. -/
  | judge {t : Target} {rest : List (Nat × Target)}
      (hdue : takeDue s.now n.probing = some (t, rest)) :
      Does n r s (.judge t (n.probe.decide r s t.host t.plugin)
        :: n.entering t (n.probe.decide r s t.host t.plugin)) s
  /-- The signal reaches its next handler. -/
  | call {signal : Signal} {h : Handler} {remaining : List Handler}
      (hd : n.dispatch = some ⟨signal, h :: remaining, .ready⟩) :
      Does n r s (.call h signal :: returning (handle r s signal h).1) (handle r s signal h).2
  /-- The wait is over, and the handler returns. -/
  | pause {signal : Signal} {remaining : List Handler} {wake : Nat}
      (hd : n.dispatch = some ⟨signal, remaining, .pausing wake⟩) (hdue : wake ≤ s.now) :
      Does n r s [.finish] s
  /-- The process that was waited for is there, and the handler returns. -/
  | restart {signal : Signal} {remaining : List Handler} {l : Launch}
      (hd : n.dispatch = some ⟨signal, remaining, .starting l⟩) (hdue : l.due ≤ s.now) :
      Does n r s [.finish] (Registry.finishRestart s l)
  | pass {signal : Signal} (hd : n.dispatch = some ⟨signal, [], .ready⟩) : Does n r s [.pass] s
  /-- A signal is taken, and one from outside enters the queue. -/
  | receive {signal : Signal} {rest : List Signal} (hd : n.dispatch = none)
      (hq : n.queue = signal :: rest) :
      Does n r s (.receive signal :: (n.blocked.take 1).map .accept) s
  | tick {moment : Nat} (h : n.ticker.next? = some moment) :
      Does n r s [.tick] (n.tick (s.advanceTo moment)).2
  | wait (moment : Nat) : Does n r s [] (s.advanceTo moment)

theorem works_conclude {before after : List (Nat × Target)} {due : Nat} {t : Target}
    (hp : n.probing = before ++ (due, t) :: after) (r : Registry) (s : System) :
    Works (.judge t (n.probe.decide r s t.host t.plugin)
        :: n.entering t (n.probe.decide r s t.host t.plugin))
      n ({ n with probing := before ++ after }.conclude r s t) := by
  have hjudge := Moves.judge (n.probe.decide r s t.host t.plugin) hp
  rw [conclude_eq, entering]
  cases hsignal : signalOf t (n.probe.decide r s t.host t.plugin) with
  | none =>
    rw [hsignal, Option.toList_none, List.append_nil] at hjudge
    rw [Option.toList_none, List.map_nil, ite_self]
    exact hjudge.works rfl
  | some signal =>
    rw [hsignal, Option.toList_some] at hjudge
    simp only [send]
    split
    · rename_i hroom
      obtain ⟨hlt, hb⟩ := hroom
      -- There is room, and the signal does not have to wait outside.
      have hwaits : n.blocked ++ [signal] = [] ++ signal :: [] := by rw [hb]
      have haccept := @Moves.accept
        { n with probing := before ++ after, blocked := n.blocked ++ [signal] } _ _ _ hwaits hlt
      have hnone : { n with probing := before ++ after, queue := n.queue ++ [signal] }
          = { n with probing := before ++ after, queue := n.queue ++ [signal], blocked := [] } := by
        simp only [hb]
      rw [hnone]
      exact hjudge.works_then haccept rfl
    · exact hjudge.works rfl

theorem works_call {signal : Signal} {h : Handler} {remaining : List Handler}
    (hd : n.dispatch = some ⟨signal, h :: remaining, .ready⟩) (r : Registry) (s : System) :
    Works (.call h signal :: returning (handle r s signal h).1) n
      { n with dispatch := some ⟨signal, remaining, (handle r s signal h).1⟩ } := by
  cases hwait : (handle r s signal h).1 with
  | pausing wake => exact (Moves.call hd _ rfl).works rfl
  | starting launch => exact (Moves.call hd _ rfl).works rfl
  | ready =>
    -- The handler returns at once.
    have hcall := Moves.call hd (.pausing 0) rfl
    have hfinish := @Moves.finish { n with dispatch := some ⟨signal, remaining, .pausing 0⟩ }
      ⟨signal, remaining, .pausing 0⟩ rfl rfl
    exact hcall.works_then hfinish rfl

theorem works_take {signal : Signal} {rest : List Signal} (hroom : n.queue.length ≤ queueLimit)
    (hd : n.dispatch = none) (hq : n.queue = signal :: rest) :
    Works (.receive signal :: (n.blocked.take 1).map .accept) n (n.take signal rest) := by
  have hreceive := Moves.receive hd hq
  cases hb : n.blocked with
  | nil =>
    have htake : n.take signal rest
        = { n with queue := rest, dispatch := some { signal, remaining := n.handlers } } := by
      rw [take, hb, List.take_nil, List.append_nil, List.drop_nil, ← hb]
    rw [htake]
    exact hreceive.works rfl
  | cons next others =>
    -- The place that has become free is taken by the first one outside.
    have hlt : rest.length < queueLimit := by
      rw [hq, List.length_cons] at hroom
      omega
    have hwaits : n.blocked = [] ++ next :: others := hb
    have haccept := @Moves.accept
      { n with queue := rest, dispatch := some { signal, remaining := n.handlers } } _ _ _ hwaits hlt
    rw [take, hb]
    exact hreceive.works_then haccept rfl

/-- A step of the dispatcher, once what it waits for is over. -/
theorem does_advance {d : Dispatch} (hd : n.dispatch = some d)
    (hdue : ∀ wake, d.handling.wake? = some wake → wake ≤ s.now) :
    ∃ acts, Does n r s acts (n.advance r s d).2 ∧ Works acts n (n.advance r s d).1 := by
  obtain ⟨signal, remaining, handling⟩ := d
  cases handling with
  | pausing wake =>
    exact ⟨_, .pause hd (hdue wake rfl), (Moves.finish hd rfl).works rfl⟩
  | starting launch =>
    exact ⟨_, .restart hd (hdue launch.due rfl), (Moves.finish hd rfl).works rfl⟩
  | ready =>
    cases remaining with
    | nil => exact ⟨_, .pass hd, (Moves.pass hd).works rfl⟩
    | cons h remaining => exact ⟨_, .call hd, works_call hd r s⟩

/-- A step at once does something. -/
theorem does_of_stepNow (hroom : n.queue.length ≤ queueLimit)
    (h : n.stepNow r s = some (n', s')) : ∃ acts, Does n r s acts s' ∧ Works acts n n' := by
  unfold stepNow at h
  split at h
  · rename_i t probing hdue
    obtain ⟨rfl, rfl⟩ := Prod.mk.inj (Option.some.inj h)
    obtain ⟨before, due, after, hp, rfl⟩ := takeDue_eq_some hdue
    exact ⟨_, .judge hdue, works_conclude hp r s⟩
  · split at h
    · rename_i d hd
      split at h
      · rename_i hwake
        obtain ⟨acts, hdoes, hworks⟩ := does_advance (r := r) (s := s) hd
          fun wake hsome => by rw [hwake] at hsome; cases hsome
        rw [Option.some.inj h] at hdoes hworks
        exact ⟨acts, hdoes, hworks⟩
      · split at h
        · rename_i wake hwake hle
          obtain ⟨acts, hdoes, hworks⟩ := does_advance (r := r) (s := s) hd
            fun wake' hsome => by rw [hwake] at hsome; exact Option.some.inj hsome ▸ hle
          rw [Option.some.inj h] at hdoes hworks
          exact ⟨acts, hdoes, hworks⟩
        · cases h
    · rename_i hd
      split at h
      · cases h
      · rename_i signal rest hq
        obtain ⟨rfl, rfl⟩ := Prod.mk.inj (Option.some.inj h)
        exact ⟨_, .receive hd hq, works_take hroom hd hq⟩

/-- A step is one at once, or there is none and the clock moves to the next moment; if
    that is one of the ticker's, it ticks. -/
theorem step_cases (h : n.step r s limit = some (n', s')) :
    n.stepNow r s = some (n', s') ∨
    n.stepNow r s = none ∧ ∃ moment, n.nextMoment = some moment ∧
      ((n.ticker.next? = some moment ∧ n.tick (s.advanceTo moment) = (n', s')) ∨
        (n.ticker.next? ≠ some moment ∧ n' = n ∧ s' = s.advanceTo moment)) := by
  unfold step at h
  split at h
  · cases h
  · split at h
    · rename_i next hnow
      exact Or.inl (hnow.trans h)
    · rename_i hnow
      obtain ⟨moment, hmoment, hrest⟩ := Option.bind_eq_some_iff.1 h
      refine Or.inr ⟨hnow, moment, hmoment, ?_⟩
      split at hrest
      · cases hrest
      · split at hrest
        · rename_i htick
          exact Or.inl ⟨htick, Option.some.inj hrest⟩
        · rename_i htick
          obtain ⟨rfl, rfl⟩ := Prod.mk.inj (Option.some.inj hrest)
          exact Or.inr ⟨htick, rfl, rfl⟩

/-- A step of a session is a run of moves by just what the step does. -/
theorem does_of_step (hroom : n.queue.length ≤ queueLimit)
    (h : n.step r s limit = some (n', s')) : ∃ acts, Does n r s acts s' ∧ Run n acts n' := by
  rcases step_cases h with hnow | ⟨-, moment, -, ⟨htick, hn⟩ | ⟨-, rfl, rfl⟩⟩
  · obtain ⟨acts, hdoes, hworks⟩ := does_of_stepNow hroom hnow
    exact ⟨acts, hdoes, hworks.run⟩
  · have hmove : Moves .tick n (n.tick (s.advanceTo moment)).1 := .tick _ (by rw [htick]; rfl)
    have hdoes : Does n r s [.tick] (n.tick (s.advanceTo moment)).2 := .tick htick
    rw [hn] at hmove hdoes
    exact ⟨_, hdoes, hmove.run⟩
  · exact ⟨[], .wait moment, .nil⟩

/-! ## The bounded queue -/

/-- No signal waits outside while there is room. -/
structure Tight (n : Session) : Prop where
  room : n.queue.length ≤ queueLimit
  full : n.blocked ≠ [] → n.queue.length = queueLimit

theorem Tight.send (h : n.Tight) (signal : Signal) : (n.send signal).Tight := by
  unfold Session.send
  split
  · rename_i hroom
    refine ⟨?_, fun hb => absurd hroom.2 hb⟩
    rw [List.length_append, List.length_singleton]
    omega
  · rename_i hfull
    refine ⟨h.room, fun _ => ?_⟩
    by_cases hb : n.blocked = []
    · have hroom := h.room
      have hge : queueLimit ≤ n.queue.length := by simpa [hb] using hfull
      exact Nat.le_antisymm hroom hge
    · exact h.full hb

theorem Tight.take {signal : Signal} {rest : List Signal} (h : n.Tight)
    (hq : n.queue = signal :: rest) : (n.take signal rest).Tight := by
  have hroom := h.room
  have hfull := h.full
  rw [hq, List.length_cons] at hroom hfull
  cases hb : n.blocked with
  | nil =>
    refine ⟨?_, fun hne => absurd ?_ hne⟩
    · simp only [Session.take, hb, List.take_nil, List.append_nil]
      omega
    · rw [Session.take, hb, List.drop_nil]
  | cons next others =>
    -- The queue was full, and is full again.
    have hlen : rest.length + 1 = queueLimit := hfull (by simp [hb])
    have hnew : (n.take signal rest).queue.length = queueLimit := by
      rw [Session.take, hb, ← hlen]
      simp
    exact ⟨Nat.le_of_eq hnew, fun _ => hnew⟩

theorem Tight.stepNow (h : n.Tight) (hs : n.stepNow r s = some (n', s')) : n'.Tight := by
  rcases stepNow_cases hs with ⟨before, due, t, after, -, rfl, -⟩ | ⟨d, -, hadvance⟩ |
    ⟨signal, rest, -, hq, rfl, -⟩
  · rw [conclude_eq]
    have hsame : { n with probing := before ++ after }.Tight := ⟨h.room, h.full⟩
    split
    · exact hsame.send _
    · exact hsame
  · have hsame : (n.advance r s d).1.Tight := by
      unfold advance
      split
      · exact ⟨h.room, h.full⟩
      · exact ⟨h.room, h.full⟩
      · split <;> exact ⟨h.room, h.full⟩
    rw [hadvance] at hsame
    exact hsame
  · exact h.take hq

theorem Tight.step (h : n.Tight) (hs : n.step r s limit = some (n', s')) : n'.Tight := by
  rcases step_cases hs with hnow | ⟨-, moment, -, ⟨-, hn⟩ | ⟨-, rfl, -⟩⟩
  · exact h.stepNow hnow
  · obtain ⟨rfl, -⟩ := Prod.mk.inj hn
    exact ⟨h.room, h.full⟩
  · exact h

/-- A session that has gone on in its own order, whatever happened to everything else
    between its steps. -/
inductive Goes (n₀ : Session) : Session → Prop
  | refl : Goes n₀ n₀
  | step {n n' : Session} {r : Registry} {s s' : System} {limit : Option Nat} (h : Goes n₀ n)
      (hs : n.step r s limit = some (n', s')) : Goes n₀ n'

theorem Goes.trans {m : Session} (h : Goes n₀ n) (h' : Goes n m) : Goes n₀ m := by
  induction h' with
  | refl => exact h
  | step _ hs ih => exact ih.step hs

theorem Goes.tight (h : Goes n₀ n) (h₀ : n₀.Tight) : n.Tight := by
  induction h with
  | refl => exact h₀
  | step _ hs ih => exact ih.step hs

theorem Goes.exists_run (h : Goes n₀ n) (h₀ : n₀.Tight) : ∃ acts, Run n₀ acts n := by
  induction h with
  | refl => exact ⟨[], .nil⟩
  | step h hs ih =>
    obtain ⟨acts, hrun⟩ := ih
    obtain ⟨acts', -, hrun'⟩ := does_of_step (h.tight h₀).room hs
    exact ⟨_, hrun.append hrun'⟩

/-! ## Draining -/

/-- What comes next in a session without further ticks is a probe that decides, or a
    handler that goes on. -/
theorem mem_of_nextMoment {moment : Nat} (hstop : n.ticker = .stopped)
    (h : n.nextMoment = some moment) :
    (∃ t, (moment, t) ∈ n.probing) ∨
      ∃ d, n.dispatch = some d ∧ d.handling.wake? = some moment := by
  have hmem := List.min?_mem h
  rw [moments, hstop] at hmem
  rcases List.mem_append.1 hmem with hprobing | hdispatch
  · obtain ⟨⟨due, t⟩, hp, rfl⟩ := List.mem_map.1 hprobing
    exact Or.inl ⟨t, hp⟩
  · rw [Option.mem_toList] at hdispatch
    exact Or.inr (Option.bind_eq_some_iff.1 hdispatch)

/-- Once its moment has come, it is done at once. -/
theorem stepNow_isSome_of_nextMoment {moment : Nat} (hstop : n.ticker = .stopped)
    (h : n.nextMoment = some moment) (hnow : moment ≤ s.now) : (n.stepNow r s).isSome = true := by
  unfold stepNow
  split
  · rfl
  · rename_i hdue
    rcases mem_of_nextMoment hstop h with ⟨t, hp⟩ | ⟨d, hd, hwake⟩
    · have hlt := takeDue_eq_none_iff.1 hdue _ hp
      omega
    · simp only [hd, hwake, if_pos hnow, Option.isSome_some]

/-- How many steps there may still be: between two that do something there is one at
    most that lets time pass. -/
def stepsLeft (n : Session) (r : Registry) (s : System) : Nat :=
  2 * n.work + (if (n.stepNow r s).isSome then 0 else 1)

theorem stepsLeft_lt (htight : n.Tight) (hstop : n.ticker = .stopped)
    (h : n.step r s limit = some (n', s')) :
    n'.ticker = .stopped ∧ n'.stepsLeft r s' < n.stepsLeft r s := by
  rcases step_cases h with hnow | ⟨hnow, moment, hmoment, ⟨htick, -⟩ | ⟨-, rfl, rfl⟩⟩
  · -- A unit of work pays for this step and for one that only lets time pass.
    obtain ⟨acts, -, a, rest, m, -, hm, hcost, hrun⟩ := does_of_stepNow htight.room hnow
    obtain ⟨hstop', hfirst⟩ := hm.work_add_le hstop
    obtain ⟨hstop'', hrest⟩ := hrun.work_le hstop'
    rw [hcost] at hfirst
    refine ⟨hstop'', ?_⟩
    rw [stepsLeft, stepsLeft, hnow]
    split <;> simp <;> omega
  · rw [hstop] at htick
    cases htick
  · have hsome : (n'.stepNow r (s.advanceTo moment)).isSome = true := by
      refine stepNow_isSome_of_nextMoment hstop hmoment ?_
      rw [System.now_advanceTo]
      exact Nat.le_max_right _ _
    refine ⟨hstop, ?_⟩
    rw [stepsLeft, stepsLeft, if_pos hsome, hnow]
    simp

/-- With so much fuel a session without further ticks goes on until there is no step
    left. -/
theorem step_run_eq_none (fuel : Nat) (n : Session) (s : System) (htight : n.Tight)
    (hstop : n.ticker = .stopped) (hfuel : n.stepsLeft r s ≤ fuel) :
    ∃ m s', run r none fuel (n, s) = (m, s') ∧ m.step r s' none = none ∧ Goes n m ∧
      m.ticker = .stopped := by
  induction fuel generalizing n s with
  | zero =>
    -- Every step would leave less than nothing.
    cases hstep : n.step r s none with
    | none => exact ⟨n, s, rfl, hstep, .refl, hstop⟩
    | some next =>
      have hlt := (stepsLeft_lt htight hstop hstep).2
      omega
  | succ fuel ih =>
    rw [run]
    cases hstep : n.step r s none with
    | none => exact ⟨n, s, rfl, hstep, .refl, hstop⟩
    | some next =>
      obtain ⟨hstop', hlt⟩ := stepsLeft_lt htight hstop hstep
      obtain ⟨m, s', hrun, hnone, hgoes, hm⟩ :=
        ih next.1 next.2 (htight.step hstep) hstop' (by omega)
      refine ⟨m, s', hrun, hnone, ?_, hm⟩
      exact (Goes.refl.step hstep).trans hgoes

/-- A session without further ticks that has no step left is over. -/
theorem isOver_of_step_eq_none (htight : n.Tight) (hstop : n.ticker = .stopped)
    (h : n.step r s none = none) : n.IsOver := by
  have hnow : n.stepNow r s = none := by
    cases hnow : n.stepNow r s with
    | none => rfl
    | some next =>
      rw [step, hnow] at h
      cases h
  have hmoment : n.nextMoment = none := by
    cases hmoment : n.nextMoment with
    | none => rfl
    | some moment =>
      rw [step, hnow, hmoment] at h
      simp only [Option.any_none, Bool.false_eq_true, if_false, Option.bind_eq_bind,
        Option.bind_some] at h
      split at h <;> cases h
  have hmoments : n.moments = [] := List.min?_eq_none_iff.1 hmoment
  rw [moments, hstop] at hmoments
  obtain ⟨hprobing, hwake⟩ := List.append_eq_nil_iff.1 hmoments
  have hp : n.probing = [] := List.map_eq_nil_iff.1 hprobing
  have hd : n.dispatch = none := by
    cases hd : n.dispatch with
    | none => rfl
    | some d =>
      have hready : d.handling.wake? = none := by
        rw [hd] at hwake
        exact Option.toList_eq_nil_iff.1 hwake
      simp only [stepNow, hp, takeDue, hd, hready] at hnow
      cases hnow
  have hq : n.queue = [] := by
    cases hq : n.queue with
    | nil => rfl
    | cons signal rest =>
      simp only [stepNow, hp, takeDue, hd, hq] at hnow
      cases hnow
  have hb : n.blocked = [] := by
    cases hb : n.blocked with
    | nil => rfl
    | cons signal rest =>
      have hfull := htight.full (by simp [hb])
      rw [hq] at hfull
      cases hfull
  exact ⟨⟨hp, hq, hb, hd⟩, hstop⟩

theorem work_le_pendingCost (n : Session) : n.work ≤ n.pendingCost := by
  have hprobing : n.probing.length * (n.signalCost + 1) ≤ n.probing.length * (n.signalCost + 2) :=
    Nat.mul_le_mul_left _ (by omega)
  have hdispatch : (n.dispatch.map dispatchWork).getD 0
      ≤ (n.dispatch.map fun d => 3 + 3 * d.remaining.length).getD 0 := by
    cases n.dispatch with
    | none => exact Nat.le_refl _
    | some d =>
      simp only [Option.map_some, Option.getD_some, dispatchWork]
      split <;> omega
  rw [work, pendingCost]
  omega

/-- The fuel with which a session is drained is enough: what is under way is done, to
    the end, and by moves. -/
theorem isOver_drain (h : n.Tight) (r : Registry) (s : System) :
    ∃ m acts, run r none (2 * n.stop.pendingCost + 1) (n.stop, s) = (m, n.drain r s) ∧
      Run n.stop acts m ∧ m.IsOver := by
  have htight : n.stop.Tight := ⟨h.room, h.full⟩
  have hfuel : n.stop.stepsLeft r s ≤ 2 * n.stop.pendingCost + 1 := by
    have hwork := work_le_pendingCost n.stop
    rw [stepsLeft]
    split <;> omega
  obtain ⟨m, s', hrun, hnone, hgoes, hstop⟩ := step_run_eq_none _ n.stop s htight rfl hfuel
  obtain ⟨acts, hacts⟩ := hgoes.exists_run htight
  refine ⟨m, acts, ?_, hacts, isOver_of_step_eq_none (hgoes.tight htight) hstop hnone⟩
  rw [drain, hrun]

end Session

end PluginHost
