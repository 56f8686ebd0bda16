/-
  PluginHost.Proofs.Serving

  The program that serves hosts works as a household does.  It starts plugins at once,
  ends the starts in the order in which they come, and lets its supervisor go on until
  it is asked to stop; what is under way then is done to the end.  Each part is a run of
  household steps (`Household.Steps`) in which no start is given up, and none is left
  when the supervisor has ended: `steps_supervise` uses for it that a session is
  drained.
-/
import PluginHost.CommandLine.Serve
import PluginHost.Proofs.Household
import PluginHost.Proofs.Supervision.Draining

namespace PluginHost

/-- The containers of a registry use pools of a system. -/
def Registry.UsesPools (r : Registry) (s : System) : Prop :=
  ∀ host c, r.container host = .ok c → c.pool < s.pools.length

theorem Registry.UsesPools.congr {r : Registry} {s s' : System} (h : r.UsesPools s)
    (hlength : s'.pools.length = s.pools.length) : r.UsesPools s' := by
  intro host c hc
  rw [hlength]
  exact h host c hc

/-- A request for a handle that does not have to wait changes nothing. -/
theorem Registry.beginHandle_eq (r : Registry) (s : System) (host plugin : String) :
    (∃ route l s', r.beginHandle s host plugin = (.ok (.starting route l), s')) ∨
      ∃ step, r.beginHandle s host plugin = (step, s) ∧
        ∀ route l, step ≠ .ok (.starting route l) := by
  unfold beginHandle
  split
  · exact .inr ⟨_, rfl, by simp⟩
  · rename_i route hroute
    split
    · exact .inr ⟨_, rfl, by simp⟩
    · -- A start that cannot begin has asked nobody.
      have hsame {e : Error} {s' : System}
          (h : route.container.beginRun s plugin route.port = (.error e, s')) : s' = s := by
        have hfailed := Container.beginRun_of_error (congrArg Prod.fst h)
        rw [h] at hfailed
        exact hfailed
      split
      · exact .inl ⟨_, _, _, rfl⟩
      · rename_i hrun
        exact .inr ⟨.ok (.ready route), by rw [hsame hrun], by simp⟩
      · rename_i e _ _ hrun
        exact .inr ⟨.error e, by rw [hsame hrun], by simp⟩

namespace Household

theorem Steps.length_pools {x y : Household} (h : Steps x y) :
    y.system.pools.length = x.system.pools.length := by
  induction h with
  | refl => rfl
  | tail _ hstep ih => rw [hstep.length_pools, ih]

end Household

/-! ## Starting plugins -/

namespace CommandLine

open Household (Step Steps)

variable {x : Household} {r : Registry} {t : Target}

/-- The launch that a request for a handle waits for. -/
def launch? : Except Error Registry.HandleStep → Option Launch
  | .ok (.starting _ l) => some l
  | _ => none

theorem steps_beginStarts (hr : r.UsesPools x.system) (ts : List Target) :
    Steps x { x with
      system := (beginStarts r ts x.system).2
      launches := ((beginStarts r ts x.system).1.filterMap fun p => launch? p.2).reverse
        ++ x.launches } := by
  induction ts generalizing x with
  | nil => exact .refl
  | cons t ts ih =>
    rw [beginStarts]
    obtain ⟨route, l, s', hbegin⟩ | ⟨step, hbegin, hnone⟩ :=
      r.beginHandle_eq x.system t.host t.plugin
    · have hroute := (Registry.beginRun_of_beginHandle hbegin).1
      have hstep := Step.beginHandle (hr _ _ (Registry.container_of_route hroute)) hbegin
      have hrest := ih (hr.congr hstep.length_pools)
      rw [hbegin]
      refine Relation.ReflTransGen.head hstep ?_
      simpa [launch?] using hrest
    · have hlaunch : launch? step = none := by
        unfold launch?
        split
        · exact absurd rfl (hnone _ _)
        · rfl
      rw [hbegin]
      simpa [hlaunch] using ih hr

/-- What a start has waited for ends with it. -/
theorem endStart_system (s : System) (t : Target) (step : Except Error Registry.HandleStep) :
    (endStart s t step).2 = (launch? step).elim s fun l => (Container.finishRun s l).2 := by
  rcases step with e | route | ⟨route, l⟩
  · rfl
  · rfl
  · exact Registry.finishHandle_system s t.host t.plugin route l

/-- Before the end of a start time passes; the first call after it is made to a plugin and
    changes nothing here. -/
theorem finishStart_system (s : System) (t : Target) (step : Except Error Registry.HandleStep) :
    (finishStart s t step).2 = (endStart (s.advanceTo (startDue step)) t step).2 := by
  unfold CommandLine.finishStart
  split <;> rename_i h <;> rw [h]

theorem steps_finishStart {step : Except Error Registry.HandleStep} {rest : List Launch}
    (h : x.launches.Perm ((launch? step).toList ++ rest)) :
    ∃ ls, ls.Perm rest ∧
      Steps x { x with system := (finishStart x.system t step).2, launches := ls } := by
  have hpass := Step.pass (x := x) (startDue step)
  rw [finishStart_system, endStart_system]
  cases hl : launch? step with
  | none =>
    rw [hl] at h
    exact ⟨x.launches, h, .single hpass⟩
  | some l =>
    rw [hl] at h
    exact ⟨rest, .refl _, (Relation.ReflTransGen.single hpass).tail (.finish h)⟩

theorem steps_finishStarts {steps : List (Nat × Target × Except Error Registry.HandleStep)}
    {rest : List Launch}
    (h : x.launches.Perm ((steps.filterMap fun p => launch? p.2.2) ++ rest)) :
    ∃ ls, ls.Perm rest ∧
      Steps x { x with system := (finishStarts steps x.system).2, launches := ls } := by
  induction steps generalizing x with
  | nil => exact ⟨x.launches, h, .refl⟩
  | cons p steps ih =>
    obtain ⟨index, t, step⟩ := p
    have hsplit : x.launches.Perm ((launch? step).toList ++
        ((steps.filterMap fun p => launch? p.2.2) ++ rest)) := by
      rw [List.filterMap_cons] at h
      cases hl : launch? step <;> rw [hl] at h <;> exact h
    obtain ⟨ls, hls, hfirst⟩ := steps_finishStart (t := t) hsplit
    obtain ⟨ls', hls', hrest⟩ := ih (x := { x with
      system := (finishStart x.system t step).2, launches := ls }) hls
    exact ⟨ls', hls', hfirst.trans hrest⟩

/-- The starts in the order in which they end. -/
def inOrder (steps : List (Target × Except Error Registry.HandleStep)) :
    List (Nat × Target × Except Error Registry.HandleStep) :=
  (steps.zipIdx.map fun ((t, step), index) => (index, t, step)).mergeSort
    fun a b => startDue a.2.2 ≤ startDue b.2.2

/-- All that have begun end. -/
theorem map_inOrder_perm (steps : List (Target × Except Error Registry.HandleStep)) :
    ((inOrder steps).map (·.2)).Perm steps := by
  have hsorted : (inOrder steps).Perm (steps.zipIdx.map fun x => (x.2, x.1.1, x.1.2)) :=
    List.mergeSort_perm _ _
  have hfst : (steps.zipIdx.map fun x => (x.2, x.1.1, x.1.2)).map (·.2) = steps := by
    rw [List.map_map]
    exact List.zipIdx_map_fst 0 steps
  have hperm := hsorted.map (·.2)
  rw [hfst] at hperm
  exact hperm

theorem perm_inOrder (steps : List (Target × Except Error Registry.HandleStep)) :
    ((inOrder steps).filterMap fun p => launch? p.2.2).Perm
      (steps.filterMap fun p => launch? p.2) := by
  have hperm := (map_inOrder_perm steps).filterMap fun p => launch? p.2
  rw [List.filterMap_map] at hperm
  exact hperm

/-- All plugins are started, and no start is left. -/
theorem steps_startAll {s : System} {targets : List Target} (hr : r.UsesPools s) :
    Steps { system := s } { system := (startAll r s targets).2 } := by
  have hbegin := steps_beginStarts (x := { system := s }) hr targets
  -- The starts end in another order than that in which they began.
  have hperm := (List.reverse_perm _).trans (perm_inOrder (beginStarts r targets s).1).symm
  rw [← List.append_nil (List.reverse _), ← List.append_nil (List.filterMap _ (inOrder _))] at hperm
  obtain ⟨ls, hls, hfinish⟩ := steps_finishStarts
    (x := { system := (beginStarts r targets s).2, launches := _ }) hperm
  obtain rfl := List.perm_nil.1 hls
  exact (hbegin.trans hfinish).tail (.pass _)

end CommandLine

/-! ## The supervisor -/

/-- The launch that a handler waits for. -/
def Handling.launches : Handling → List Launch
  | .starting l => [l]
  | _ => []

namespace Session

open Household (Step Steps)

variable {n n' : Session} {r : Registry} {s s' : System} {limit : Option Nat}

/-- The launch that a signal on its way waits for. -/
def launches (n : Session) : List Launch :=
  n.dispatch.elim [] fun d => d.handling.launches

theorem launches_of_none (h : n.dispatch = none) : n.launches = [] := by
  rw [launches, h]
  rfl

theorem launches_of_some {d : Dispatch} (h : n.dispatch = some d) :
    n.launches = d.handling.launches := by
  rw [launches, h]
  rfl

/-- Recording what happens concerns neither processes nor pools. -/
theorem steps_record {ls : List Launch} (e : Event) :
    Step { system := s, launches := ls } { system := s.record e, launches := ls } :=
  .aside rfl rfl rfl rfl

theorem steps_stopPlugin (r : Registry) (s : System) (signal : Signal) :
    Steps { system := s } { system := stopPlugin r s signal } := by
  unfold stopPlugin
  cases r.container signal.host with
  | error e => exact .single (steps_record _)
  | ok c => exact .tail (.single (.kill c.pool signal.plugin)) (steps_record _)

theorem steps_handle {signal : Signal} {h : Handler} (hr : r.UsesPools s) :
    Steps { system := s }
      { system := (handle r s signal h).2, launches := (handle r s signal h).1.launches } := by
  cases h with
  | record label => exact .single (steps_record _)
  | pause duration =>
    simp only [handle]
    split <;> exact .refl
  | stop => exact steps_stopPlugin r s signal
  | restart =>
    simp only [handle]
    rcases hbegin : r.beginRestart s signal with ⟨o, s'⟩
    have hstep := Step.beginRestart (x := { system := s }) (fun c hc => hr _ c hc) hbegin
    cases o with
    | none => exact .single hstep
    | some l =>
      -- A program without grace is not waited for.
      dsimp only
      split
      · exact .tail (.single hstep) (.finish (.refl _))
      · exact .single hstep

theorem steps_advance {d : Dispatch} (hd : n.dispatch = some d) (hr : r.UsesPools s)
    (h : n.advance r s d = (n', s')) :
    Steps { system := s, launches := n.launches } { system := s', launches := n'.launches } := by
  obtain ⟨signal, remaining, handling⟩ := d
  rw [launches_of_some hd]
  cases handling with
  | pausing wake =>
    obtain ⟨rfl, rfl⟩ := Prod.mk.inj h
    exact .refl
  | starting l =>
    obtain ⟨rfl, rfl⟩ := Prod.mk.inj h
    exact .single (.finish (.refl _))
  | ready =>
    cases remaining with
    | nil =>
      obtain ⟨rfl, rfl⟩ := Prod.mk.inj h
      exact .refl
    | cons handler remaining =>
      obtain ⟨rfl, rfl⟩ := Prod.mk.inj h
      exact steps_handle hr

theorem steps_tick {ls : List Launch} (n : Session) (s : System) :
    Step { system := s, launches := ls } { system := (n.tick s).2, launches := ls } := by
  have hrecords (ts : List Target) (s : System) :
      ∃ journal, ts.foldl (fun s t => s.record (.probed t.host t.plugin)) s
        = { s with journal } := by
    induction ts generalizing s with
    | nil => exact ⟨s.journal, rfl⟩
    | cons t ts ih => exact ih (s.record (.probed t.host t.plugin))
  obtain ⟨journal, hjournal⟩ := hrecords n.targets s
  rw [tick]
  dsimp only
  split
  · rw [hjournal]
    exact .aside rfl rfl rfl rfl
  · exact .aside rfl rfl rfl rfl

/-- A step of a session is a run of steps of the household. -/
theorem steps_step (hr : r.UsesPools s) (h : n.step r s limit = some (n', s')) :
    Steps { system := s, launches := n.launches } { system := s', launches := n'.launches } := by
  rcases step_cases h with hnow | ⟨-, moment, -, ⟨-, htick⟩ | ⟨-, rfl, rfl⟩⟩
  · rcases stepNow_cases hnow with ⟨before, due, t, after, -, rfl, rfl⟩ | ⟨d, hd, hadvance⟩ |
      ⟨signal, rest, hd, -, rfl, rfl⟩
    · -- What a probe finds out is put into the queue, and does not begin anything.
      have hsame : ({ n with probing := before ++ after }.conclude r s' t).launches
          = n.launches := by
        rw [conclude_eq]
        split
        · rw [send]
          split <;> rfl
        · rfl
      rw [hsame]
    · exact steps_advance hd hr hadvance
    · rw [launches_of_none hd]
      exact .refl
  · obtain ⟨rfl, rfl⟩ := Prod.mk.inj htick
    exact (Relation.ReflTransGen.single (.pass moment)).tail (steps_tick n _)
  · exact .single (.pass moment)

theorem steps_run (limit : Option Nat) (fuel : Nat) (hr : r.UsesPools s) :
    Steps { system := s, launches := n.launches }
      { system := (run r limit fuel (n, s)).2
        launches := (run r limit fuel (n, s)).1.launches } := by
  induction fuel generalizing n s with
  | zero => exact .refl
  | succ fuel ih =>
    rw [run]
    rcases hstep : n.step r s limit with _ | ⟨n', s'⟩
    · exact .refl
    · have hsteps := steps_step hr hstep
      exact hsteps.trans (ih (hr.congr hsteps.length_pools))

theorem Tight.run (fuel : Nat) (h : n.Tight) : (run r limit fuel (n, s)).1.Tight := by
  induction fuel generalizing n s with
  | zero => exact h
  | succ fuel ih =>
    rw [Session.run]
    rcases hstep : n.step r s limit with _ | ⟨n', s'⟩
    · exact h
    · exact ih (h.step hstep)

/-- What is under way in a session that was stopped is done, and no launch is left. -/
theorem steps_drain (h : n.Tight) (hr : r.UsesPools s) :
    Steps { system := s, launches := n.launches } { system := n.drain r s } := by
  obtain ⟨m, acts, hrun, -, hover⟩ := isOver_drain h r s
  have hsteps := steps_run (n := n.stop) none (2 * n.stop.pendingCost + 1) hr
  rw [hrun, launches_of_none hover.dispatch] at hsteps
  exact hsteps

end Session

namespace CommandLine

open Household (Steps)

/-- The supervisor goes on until the program is asked to stop, and leaves no start
    behind. -/
theorem steps_supervise {w : World} {interval : UInt64} {r : Registry} {s : System}
    (hr : r.UsesPools s) : Steps { system := s } { system := (supervise w interval r s).2 } := by
  cases hsetup : (Supervisor.withInterval {} (interval.toNat * 1000)).setup r [.record ""] with
  | error e => rw [supervise, hsetup]
  | ok v =>
    let n : Session := .start v.targets v.handlers v.probe v.interval s.now
    have hstart : v.start s.now = { v with session := some n } := by
      have hnone : v.isWatching = false := by
        obtain ⟨plugins, -, hv⟩ := bind_eq_ok_iff.1 hsetup
        rw [← Except.ok.inj hv, Supervisor.withInterval]
        split <;> rfl
      rw [Supervisor.start, if_neg (by rw [hnone]; exact Bool.false_ne_true)]
    -- A session that begins has nothing on its way, and stays tight up to its end.
    have htight : n.Tight := ⟨Nat.zero_le _, fun hne => absurd rfl hne⟩
    let moment := s.now + w.stopAfter
    let m := (n.runUntil r s moment).1
    have hrun : Steps { system := s }
        { system := (n.runUntil r s moment).2, launches := m.launches } :=
      Session.steps_run (n := n) _ _ hr
    have hpass := hrun.tail (.pass moment)
    have hdrain := Session.steps_drain (n := m) (htight.run _)
      (hr.congr (Household.Steps.length_pools hpass))
    have hsystem : (supervise w interval r s).2
        = m.drain r ((n.runUntil r s moment).2.advanceTo moment) := by
      rw [supervise, hsetup]
      dsimp only
      rw [hstart]
      rfl
    rw [hsystem]
    exact hpass.trans hdrain

end CommandLine

end PluginHost
