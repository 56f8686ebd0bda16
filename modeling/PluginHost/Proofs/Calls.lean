/-
  PluginHost.Proofs.Calls

  What the calls on containers and hosts do up to the point at which they wait
  for a runner, and after it.  Each of them comes to one look into a table, one
  killing at most, and one question to a runner; here is under what conditions.
-/
import PluginHost.Proofs.Schema
import PluginHost.Proofs.System.Starting
import PluginHost.Registry

namespace PluginHost

/-! ## Containers -/

namespace Container

variable {c : Container} {s : System} {plugin : String} {port : UInt16}

/-- A plugin that is not installed is not started, and nothing happens. -/
theorem beginRun_of_info_error {e : Error} (h : c.info plugin = .error e) :
    c.beginRun s plugin port = (.error e, s) := by
  rw [beginRun, h]

/-- A plugin that runs is not started again, and nothing happens. -/
theorem beginRun_of_ready {p : PluginMeta} (h : c.info plugin = .ok p)
    (hr : s.isReady c.pool plugin = true) :
    c.beginRun s plugin port = (.error (.alreadyStarted plugin), s) := by
  rw [beginRun, h]
  exact System.beginStart_of_ready (r := request plugin p port) hr

/-- Otherwise the runner is asked. -/
theorem beginRun_of_not_ready {p : PluginMeta} (h : c.info plugin = .ok p)
    (hr : s.isReady c.pool plugin = false) :
    c.beginRun s plugin port = (.ok (s.askRunner c.pool (request plugin p port)).1,
      (s.askRunner c.pool (request plugin p port)).2) := by
  rw [beginRun, h]
  exact System.beginStart_of_not_ready (r := request plugin p port) hr

/-- A start gets as far as its runner exactly if the plugin is installed and does
    not run. -/
theorem beginRun_eq_ok_iff {l : Launch} {s' : System} :
    c.beginRun s plugin port = (.ok l, s') ↔ ∃ p, c.info plugin = .ok p ∧
      s.isReady c.pool plugin = false ∧ s.askRunner c.pool (request plugin p port) = (l, s') := by
  cases hi : c.info plugin with
  | error e =>
    rw [beginRun_of_info_error hi]
    simp
  | ok p =>
    cases hr : s.isReady c.pool plugin with
    | true =>
      rw [beginRun_of_ready hi hr]
      simp
    | false =>
      rw [beginRun_of_not_ready hi hr]
      simp [Prod.ext_iff]

/-- A start that waits is that of the plugin.  It has asked the runner, and has put
    nothing into a table. -/
theorem beginRun_spec {l : Launch} {s' : System} (h : c.beginRun s plugin port = (.ok l, s')) :
    l.pool = c.pool ∧ l.name = plugin ∧ System.Grows s s' ∧
      (∃ q, q.name = plugin ∧ q.port = port ∧
        s'.journal = (s.now, .requested (s.pool c.pool).label q) :: s.journal) ∧
      ∀ p, l.process? = some p → p.name = plugin ∧ System.IsNew s s' p := by
  obtain ⟨m, -, -, hask⟩ := beginRun_eq_ok_iff.1 h
  obtain ⟨hpool, hname, hgrow, hjournal, hnew⟩ :=
    System.askRunner_spec s c.pool (request plugin m port)
  rw [hask] at hpool hname hgrow hjournal hnew
  exact ⟨hpool, hname, hgrow, ⟨_, rfl, rfl, hjournal⟩, hnew⟩

/-- A start that gets no further changes nothing. -/
theorem beginRun_of_error {e : Error} (h : (c.beginRun s plugin port).1 = .error e) :
    (c.beginRun s plugin port).2 = s := by
  cases hi : c.info plugin with
  | error e' => rw [beginRun_of_info_error hi]
  | ok p =>
    cases hr : s.isReady c.pool plugin with
    | true => rw [beginRun_of_ready hi hr]
    | false =>
      rw [beginRun_of_not_ready hi hr] at h
      cases h

/-- What is known of a plugin is what was installed under its name. -/
theorem info_eq_ok_iff {p : PluginMeta} : c.info plugin = .ok p ↔ c.plugins.get? plugin = some p := by
  rw [info]
  cases c.plugins.get? plugin <;> simp

/-- Nothing else can be wrong with a plugin that is looked up. -/
theorem info_eq_error {e : Error} (h : c.info plugin = .error e) : e = .pluginUnknown plugin := by
  unfold info at h
  split at h
  · cases h
  · exact (Except.error.inj h).symm

/-- A setup leaves a container as it is, or installs its plugins, which were not
    installed before. -/
theorem setup_cases (c : Container) (storage : Storage) :
    (c.setup storage).container = c ∨
    ∃ plugins, c.installed = false ∧
      (c.installer.install storage c.installer.resolve).outcome = .ok plugins ∧
      (c.setup storage).result = .ok () ∧
      (c.setup storage).container = { c with plugins, installed := true } := by
  unfold setup
  by_cases hi : c.isInstalled = true
  · rw [if_pos hi]
    exact Or.inl rfl
  · rw [if_neg hi]
    have hnone : c.installed = false := Bool.eq_false_iff.2 hi
    rcases hinst : c.installer.install storage c.installer.resolve with ⟨_ | plugins, asked⟩
    · exact Or.inl rfl
    · exact Or.inr ⟨plugins, hnone, rfl, rfl, rfl⟩

/-- A start that has come to a process ends with entering it. -/
theorem finishRun_of_ok {l : Launch} {p : PluginProcess} (h : (s.finishStart l).1 = .ok p) :
    finishRun s l = (s.finishStart l).2.enter l.pool p := by
  rw [finishRun]
  rcases hfin : s.finishStart l with ⟨result, t⟩
  rw [hfin] at h
  cases h
  rfl

/-- A start that has come to nothing ends with that. -/
theorem finishRun_of_error {l : Launch} {e : Error} (h : (s.finishStart l).1 = .error e) :
    finishRun s l = (.error e, (s.finishStart l).2) := by
  rw [finishRun]
  rcases hfin : s.finishStart l with ⟨result, t⟩
  rw [hfin] at h
  cases h
  rfl

theorem finishRun_pools (s : System) (l : Launch) :
    (finishRun s l).2.pools.length = s.pools.length := by
  have hstart := (System.finishStart_grows s l).pools
  cases hp : (s.finishStart l).1 with
  | error e => rw [finishRun_of_error hp, hstart]
  | ok p =>
    rw [finishRun_of_ok hp]
    cases hr : (s.finishStart l).2.isReady l.pool p.name with
    | true =>
      rw [System.enter_of_ready hr, (System.triggerProcess_spends _ p).pools, hstart]
    | false =>
      rw [System.enter_of_not_ready hr, System.length_updatePool, hstart]

/-- The end of a start asks for nothing more. -/
theorem finishRun_journal (s : System) (l : Launch) : (finishRun s l).2.journal = s.journal := by
  have hstart := System.finishStart_journal s l
  unfold finishRun
  split
  · rename_i e t heq
    rw [heq] at hstart
    exact hstart
  · rename_i p t heq
    rw [heq] at hstart
    rw [System.enter_journal, hstart]

end Container

/-! ## Hosts -/

namespace Registry

variable {r : Registry} {s s' : System} {name host plugin : String} {signal : Signal}

theorem container_eq_ok_iff {c : Container} :
    r.container name = .ok c ↔ (∃ h, r.host name = .ok h) ∧ r.kept name = .ok c := by
  rw [container, bind_eq_ok_iff, exists_and_right]

theorem kept_eq_ok_iff {c : Container} : r.kept name = .ok c ↔ r.containers.get? name = some c := by
  rw [kept]
  cases r.containers.get? name <;> simp

theorem kept_setContainer (r : Registry) (name other : String) (c : Container) :
    (r.setContainer name c).kept other = if other = name then .ok c else r.kept other := by
  rw [kept, setContainer, NameMap.get?_insert, kept]
  by_cases h : other = name
  · rw [if_pos h, if_pos h]
  · rw [if_neg h, if_neg h]

theorem pid_eq_ok_iff {pid : Nat} :
    r.pid s host plugin = .ok pid ↔ ∃ h p, r.host host = .ok h ∧
      (s.table h.pool).get? plugin = some p ∧ p.pid = pid := by
  have hpool (i : Nat) : s.pid i plugin = .ok pid ↔
      ∃ p, (s.table i).get? plugin = some p ∧ p.pid = pid := by
    simp only [← System.process_eq_ok_iff, System.pid]
    cases s.process i plugin <;> simp [Functor.map, Except.map]
  simp only [Registry.pid, bind_eq_ok_iff, hpool, exists_and_left]

/-- A plugin with a port is one that its container has installed. -/
theorem info_of_port {port : UInt16} (h : r.port host plugin = .ok port) :
    ∃ c p, r.container host = .ok c ∧ c.info plugin = .ok p := by
  rw [Registry.port, bind_eq_ok_iff] at h
  obtain ⟨x, -, h⟩ := h
  obtain ⟨conn, -, h⟩ := bind_eq_ok_iff.1 h
  obtain ⟨c, hc, h⟩ := bind_eq_ok_iff.1 h
  obtain ⟨p, hp, -⟩ := bind_eq_ok_iff.1 h
  exact ⟨c, p, hc, hp⟩

/-! ## Handles -/

/-- A request for a handle that waits has begun to start the plugin. -/
theorem beginRun_of_beginHandle {route : Route} {l : Launch}
    (h : r.beginHandle s host plugin = (.ok (.starting route l), s')) :
    r.route host plugin = .ok route ∧
      route.container.beginRun s plugin route.port = (.ok l, s') := by
  unfold beginHandle at h
  split at h
  · cases h
  · rename_i route' hroute
    split at h
    · cases h
    · split at h
      · rename_i l' t hrun
        simp only [Prod.mk.injEq, Except.ok.injEq, HandleStep.starting.injEq] at h
        obtain ⟨⟨rfl, rfl⟩, rfl⟩ := h
        exact ⟨hroute, hrun⟩
      · cases h
      · cases h

/-- A request for a handle changes nothing before it starts the plugin. -/
theorem beginHandle_cases (r : Registry) (s : System) (host plugin : String) :
    (r.beginHandle s host plugin).2 = s ∨ ∃ route, r.route host plugin = .ok route ∧
      (r.beginHandle s host plugin).2 = (route.container.beginRun s plugin route.port).2 := by
  unfold beginHandle
  split
  · exact Or.inl rfl
  · rename_i route hroute
    split
    · exact Or.inl rfl
    · -- Whatever the start answers, the system is the one it leaves.
      refine Or.inr ⟨route, hroute, ?_⟩
      split <;> simp_all

/-- The container of a route is that of its host. -/
theorem container_of_route {route : Route} (h : r.route host plugin = .ok route) :
    r.container host = .ok route.container := by
  rw [Registry.route, bind_eq_ok_iff] at h
  obtain ⟨x, -, h⟩ := h
  obtain ⟨conn, -, h⟩ := bind_eq_ok_iff.1 h
  obtain ⟨c, hc, h⟩ := bind_eq_ok_iff.1 h
  obtain ⟨port, -, h⟩ := bind_eq_ok_iff.1 h
  rw [← Except.ok.inj h]
  exact hc

/-- A request for a handle ends as the start that it waited for. -/
theorem finishHandle_system (s : System) (host plugin : String) (route : Route) (l : Launch) :
    (finishHandle s host plugin (.starting route l)).2 = (Container.finishRun s l).2 := by
  rw [finishHandle]
  rcases Container.finishRun s l with ⟨_ | u, t⟩
  · split <;> simp_all
  · rfl

/-! ## Restarting -/

/-- A signal about a process that is not the registered one is ignored. -/
theorem beginRestart_of_stale (h : r.pid s signal.host signal.plugin ≠ .ok signal.pid) :
    r.beginRestart s signal = (none, s) := by
  unfold beginRestart
  split
  · rfl
  · rename_i pid hpid
    have hne : pid ≠ signal.pid := fun heq => h (by rw [hpid, heq])
    rw [if_pos hne]

/-- Without a port nothing is killed. -/
theorem beginRestart_of_port_error {e : Error}
    (h : r.port signal.host signal.plugin = .error e) :
    r.beginRestart s signal = (none, s) := by
  unfold beginRestart
  rw [h]
  split
  · rfl
  · split
    · rfl
    · split
      · rename_i heq
        cases heq
      · rfl

/-- If the process cannot be killed, nothing is started. -/
theorem beginRestart_of_kill_error {c : Container} {port : UInt16} {e : Error}
    (hpid : r.pid s signal.host signal.plugin = .ok signal.pid)
    (hc : r.container signal.host = .ok c) (hport : r.port signal.host signal.plugin = .ok port)
    (hk : (s.kill c.pool signal.plugin).1 = .error e) :
    r.beginRestart s signal = (none, (s.kill c.pool signal.plugin).2) := by
  unfold beginRestart
  rw [hpid]
  simp only [ne_eq, not_true_eq_false, if_false, hc, hport]
  rcases hkill : s.kill c.pool signal.plugin with ⟨result, t⟩
  rw [hkill] at hk
  cases hk
  rfl

/-- If it was killed, its place is free, and the runner is asked for another
    one. -/
theorem beginRestart_of_kill_ok {c : Container} {port : UInt16} {p : PluginMeta}
    (hpid : r.pid s signal.host signal.plugin = .ok signal.pid)
    (hc : r.container signal.host = .ok c) (hport : r.port signal.host signal.plugin = .ok port)
    (hp : c.info signal.plugin = .ok p) (hk : (s.kill c.pool signal.plugin).1 = .ok ()) :
    r.beginRestart s signal =
      (some ((s.kill c.pool signal.plugin).2.askRunner c.pool
          (Container.request signal.plugin p port)).1,
        ((s.kill c.pool signal.plugin).2.askRunner c.pool
          (Container.request signal.plugin p port)).2) := by
  -- The name has just been freed, so that the start cannot be refused.
  have hgone := (System.kill_kills s c.pool signal.plugin).gone signal.plugin rfl
  have hrun : c.beginRun (s.kill c.pool signal.plugin).2 signal.plugin port = _ :=
    Container.beginRun_of_not_ready hp (System.isReady_eq_false_iff.2 hgone)
  unfold beginRestart
  rw [hpid]
  simp only [ne_eq, not_true_eq_false, if_false, hc, hport]
  rcases hkill : s.kill c.pool signal.plugin with ⟨result, t⟩
  rw [hkill] at hk hrun
  cases hk
  simp only
  rw [hrun]

/-- All that can come of a signal before a runner has to be waited for. -/
theorem beginRestart_cases (r : Registry) (s : System) (signal : Signal) :
    r.beginRestart s signal = (none, s) ∨
    ∃ c port, r.pid s signal.host signal.plugin = .ok signal.pid ∧
      r.container signal.host = .ok c ∧ r.port signal.host signal.plugin = .ok port ∧
      ((∃ e, (s.kill c.pool signal.plugin).1 = .error e ∧
          r.beginRestart s signal = (none, (s.kill c.pool signal.plugin).2)) ∨
        ∃ l s', (s.kill c.pool signal.plugin).1 = .ok () ∧
          c.beginRun (s.kill c.pool signal.plugin).2 signal.plugin port = (.ok l, s') ∧
          r.beginRestart s signal = (some l, s')) := by
  by_cases hpid : r.pid s signal.host signal.plugin = .ok signal.pid
  · cases hport : r.port signal.host signal.plugin with
    | error e => exact Or.inl (beginRestart_of_port_error hport)
    | ok port =>
      -- Only an installed plugin has a port, so that nothing but the killing can fail.
      obtain ⟨c, p, hc, hp⟩ := info_of_port hport
      refine Or.inr ⟨c, port, hpid, hc, rfl, ?_⟩
      cases hk : (s.kill c.pool signal.plugin).1 with
      | error e => exact Or.inl ⟨e, rfl, beginRestart_of_kill_error hpid hc hport hk⟩
      | ok u =>
        have hgone := (System.kill_kills s c.pool signal.plugin).gone signal.plugin rfl
        refine Or.inr ⟨_, _, rfl, ?_, beginRestart_of_kill_ok hpid hc hport hp hk⟩
        exact Container.beginRun_of_not_ready hp (System.isReady_eq_false_iff.2 hgone)
  · exact Or.inl (beginRestart_of_stale hpid)

/-- A signal for which a runner is asked is about the registered process, which was
    killed. -/
theorem of_beginRestart_eq_some {l : Launch}
    (h : r.beginRestart s signal = (some l, s')) :
    ∃ c port, r.pid s signal.host signal.plugin = .ok signal.pid ∧
      r.container signal.host = .ok c ∧
      c.beginRun (s.kill c.pool signal.plugin).2 signal.plugin port = (.ok l, s') := by
  rcases r.beginRestart_cases s signal with hnone | ⟨c, port, hpid, hc, -, hrest⟩
  · rw [hnone] at h
    cases h
  · rcases hrest with ⟨e, -, hnone⟩ | ⟨l', t, -, hrun, hsome⟩
    · rw [hnone] at h
      cases h
    · rw [hsome] at h
      obtain ⟨hl, rfl⟩ := Prod.mk.inj h
      exact ⟨c, port, hpid, hc, Option.some.inj hl ▸ hrun⟩

/-- Otherwise nothing was done, or it was the registered process that could not be
    killed. -/
theorem of_beginRestart_eq_none (h : r.beginRestart s signal = (none, s')) :
    s' = s ∨ ∃ c, r.pid s signal.host signal.plugin = .ok signal.pid ∧
      r.container signal.host = .ok c ∧ s' = (s.kill c.pool signal.plugin).2 := by
  rcases r.beginRestart_cases s signal with hnone | ⟨c, port, hpid, hc, -, hrest⟩
  · rw [hnone] at h
    exact Or.inl (Prod.mk.inj h).2.symm
  · rcases hrest with ⟨e, -, hnone⟩ | ⟨l, t, -, -, hsome⟩
    · rw [hnone] at h
      exact Or.inr ⟨c, hpid, hc, (Prod.mk.inj h).2.symm⟩
    · rw [hsome] at h
      cases h

end Registry
end PluginHost
