/-
  PluginHost.Proofs.Supervision.Delivery

  What a session does for those who have set it up.  At every tick each plugin that
  was found installed is probed once; and when the session is over, each signal of a
  probe was given once to every handler, one signal after another, restarting last
  (`signals_delivered_once`).  That holds of all runs, however long the probes and
  the handlers take, and so of the session's own order.
-/
import Mathlib.Data.List.Nodup
import PluginHost.Proofs.NameMap
import PluginHost.Proofs.Supervision.Draining
import PluginHost.Proofs.Traffic

namespace PluginHost

/-! ## Setups -/

theorem Registry.hosts_of_allPlugins {r : Registry} {plugins : List (String × PluginSet)}
    (h : r.allPlugins = .ok plugins) : plugins.map (·.1) = r.hosts.map (·.name) := by
  rw [allPlugins] at h
  generalize r.hosts = hosts at h
  induction hosts generalizing plugins with
  | nil =>
    cases h
    rfl
  | cons x xs ih =>
    rw [List.mapM_cons] at h
    obtain ⟨y, hy, h⟩ := bind_eq_ok_iff.1 h
    obtain ⟨ys, hys, h⟩ := bind_eq_ok_iff.1 h
    obtain ⟨c, -, hy⟩ := bind_eq_ok_iff.1 hy
    rw [← Except.ok.inj h, ← Except.ok.inj hy, List.map_cons, List.map_cons, ih hys]

/-- With hosts that differ no plugin occurs twice, if none does on its host. -/
theorem Target.nodup_flatMap {α : Type} {xs : List α} {host : α → String}
    {plugins : α → List String} (hhosts : (xs.map host).Nodup)
    (hplugins : ∀ x ∈ xs, (plugins x).Nodup) :
    (xs.flatMap fun x => (plugins x).map (Target.mk (host x))).Nodup := by
  have hhost : ∀ {x : α} {t : Target}, t ∈ (plugins x).map (Target.mk (host x)) →
      t.host = host x := by
    intro x t ht
    obtain ⟨plugin, -, rfl⟩ := List.mem_map.1 ht
    rfl
  rw [List.nodup_flatMap]
  constructor
  · intro x hx
    refine (hplugins x hx).map ?_
    intro p q hpq
    exact congrArg Target.plugin hpq
  · refine (List.pairwise_map.1 hhosts).imp ?_
    intro x y hne t hx hy
    exact hne ((hhost hx).symm.trans (hhost hy))

namespace Supervisor

/-- With names of hosts that differ no plugin is watched twice. -/
theorem nodup_targetsOf {plugins : List (String × PluginSet)} (h : (plugins.map (·.1)).Nodup) :
    (targetsOf plugins).Nodup :=
  Target.nodup_flatMap h fun x _ => NameMap.nodup_names x.2

end Supervisor

/-! ## Delivery -/

namespace Session

variable {n₀ n : Session} {acts : List Act} {hs : List Handler}

theorem isIdle_start (targets : List Target) (hs : List Handler) (p : Probe) (interval now : Nat) :
    (start targets hs p interval now).IsIdle :=
  ⟨rfl, rfl, rfl, rfl⟩

/-- What a run of a session comes to. -/
structure Delivery (n₀ : Session) (hs : List Handler) (acts : List Act) (n : Session) : Prop where
  /-- A tick starts one probe of every target. -/
  ticks : ∀ n', Moves .tick n n' → n'.probing.map (·.2) = n.probing.map (·.2) ++ n₀.targets
  /-- In the end all of them have returned. -/
  judged : n.IsOver → (acts.filterMap Act.judged?).Perm
    (List.replicate (acts.count .tick) n₀.targets).flatten
  /-- In the end each signal of a probe has passed all handlers, one after another. -/
  handled : n.IsOver → ∃ received : List Signal, received.Perm (acts.filterMap Act.found?) ∧
    acts.filter Act.isHandling = received.flatMap (passage hs)
  /-- The end is one. -/
  silent : n.IsOver → ∀ a n', ¬ Moves a n n'
  /-- Without further ticks the end can be reached, and nothing goes on for ever. -/
  ends : n.ticker = .stopped → (∃ rest m, Run n rest m ∧ m.IsOver) ∧
    ∀ rest m, Run n rest m → rest.length ≤ n.toGo

theorem Run.delivery (h : Run n₀ acts n) (hidle : n₀.IsIdle) :
    Delivery n₀ n₀.handlers acts n := by
  have haccount := h.account hidle
  refine ⟨fun n' ht => ?_, haccount.judged_of_isOver, haccount.handled_of_isOver,
    IsOver.not_moves, fun hstop => ⟨exists_run_isOver n hstop, fun rest m hrest => ?_⟩⟩
  · rw [probing_of_tick ht, haccount.targets]
  · have hle := hrest.length_le hstop
    omega

/-- A session that is begun after a setup probes every plugin that was found installed
    once at each tick.  In whatever order its tasks go on: when it is over, each signal
    of a probe was given to every handler once, restarting last, and nothing happens
    any more.  The session's own order is one of these: each of its steps does what
    probes have decided and what handlers do about signals.  And draining leads to the
    end. -/
theorem signals_delivered_once {v v' : Supervisor} {r : Registry}
    (hsetup : v.setup r hs = .ok v') (now : Nat) :
    ∃ plugins n₀, r.allPlugins = .ok plugins ∧
      ({ v' with session := none }.start now).session = some n₀ ∧
      n₀.targets = Supervisor.targetsOf plugins ∧
      ((r.hosts.map (·.name)).Nodup → n₀.targets.Nodup) ∧
      (∀ acts n, Run n₀ acts n → Delivery n₀ (hs ++ [.restart]) acts n) ∧
      ∀ n, Goes n₀ n → (∃ acts, Run n₀ acts n) ∧
        (∀ r s limit n' s', n.step r s limit = some (n', s') →
          ∃ acts, Does n r s acts s' ∧ Run n acts n') ∧
        ∀ (r : Registry) (s : System), ∃ m acts,
          run r none (2 * n.stop.pendingCost + 1) (n.stop, s) = (m, n.drain r s) ∧
          Run n.stop acts m ∧ m.IsOver := by
  obtain ⟨plugins, hplugins, hv⟩ := bind_eq_ok_iff.1 hsetup
  obtain rfl := Except.ok.inj hv
  have hidle := isIdle_start (Supervisor.targetsOf plugins) (hs ++ [.restart]) v.probe v.interval now
  refine ⟨plugins, _, hplugins, rfl, rfl, fun hnames => ?_, fun acts n hrun => hrun.delivery hidle,
    fun n hgoes => ?_⟩
  · -- The setup lists the plugins host by host.
    rw [← Registry.hosts_of_allPlugins hplugins] at hnames
    exact Supervisor.nodup_targetsOf hnames
  · have htight : (start (Supervisor.targetsOf plugins) (hs ++ [.restart]) v.probe v.interval
        now).Tight := ⟨Nat.zero_le _, fun hne => absurd rfl hne⟩
    exact ⟨hgoes.exists_run htight,
      fun r s limit n' s' hstep => does_of_step (hgoes.tight htight).room hstep,
      isOver_drain (hgoes.tight htight)⟩

/-! ## One signal -/

/-- A session that watches one plugin. -/
def echoSession : Session :=
  start [⟨"host", "echo"⟩] [.record "log", .restart] {} 5000 0

def echoSignal : Signal :=
  ⟨"host", "echo", 5⟩

/-- The plugin is found dead at the first tick, and then the session is ended. -/
def echoActs : List Act :=
  [.tick, .judge ⟨"host", "echo"⟩ (.dead 5), .stop, .accept echoSignal, .receive echoSignal,
    .call (.record "log") echoSignal, .finish, .call .restart echoSignal, .finish, .pass]

theorem exists_run_echoActs : ∃ n, Run echoSession echoActs n ∧ n.IsOver := by
  have hstart : Run echoSession [] echoSession := .nil
  have h := ((hstart.snoc (.tick {} rfl)).snoc
    (@Moves.judge _ [] [] 0 ⟨"host", "echo"⟩ (.dead 5) rfl)).snoc (.stop (by decide))
  have h := (h.snoc (@Moves.accept _ [] [] echoSignal rfl (by decide))).snoc (.receive rfl rfl)
  have h := (h.snoc (.call rfl (.pausing 0) rfl)).snoc (.finish rfl rfl)
  have h := ((h.snoc (.call rfl (.pausing 0) rfl)).snoc (.finish rfl rfl)).snoc (.pass rfl)
  exact ⟨_, h, ⟨rfl, rfl, rfl, rfl⟩, rfl⟩

/-- One signal is given to the recorder, and then to the restarting. -/
theorem echo_signal_delivered :
    (∃ n, Run echoSession echoActs n ∧ n.IsOver) ∧
    ∃ received : List Signal, received.Perm [echoSignal] ∧
      echoActs.filter Act.isHandling = received.flatMap (passage [.record "log", .restart]) := by
  have hsetup : ({} : Supervisor).setup (Traffic.ready []).registry [.record "log"]
      = .ok { targets := [⟨"host", "echo"⟩], handlers := [.record "log", .restart] } := rfl
  obtain ⟨plugins, n₀, -, hstart, -, -, hall, -⟩ := signals_delivered_once hsetup 0
  obtain rfl : echoSession = n₀ := Option.some.inj hstart
  obtain ⟨n, hrun, hover⟩ := exists_run_echoActs
  exact ⟨⟨n, hrun, hover⟩, (hall _ _ hrun).handled hover⟩

end Session
end PluginHost
