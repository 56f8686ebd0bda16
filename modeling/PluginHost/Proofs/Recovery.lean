/-
  PluginHost.Proofs.Recovery

  What becomes of a plugin whose process was found dead.  The answer to the signal
  kills what is left and starts the plugin anew; while it waits for the runner,
  others may do anything but kill the plugin.

  The old process leaves the table before there is a new one, even if it could not
  be killed.  So a plugin that is not there afterwards counts as never started, and
  no probe by processes finds it dead again.  `restart_gives_up_iff` says exactly
  when that happens: when the killing fails, and when the runner does and nobody
  else has started the plugin meanwhile.
-/
import PluginHost.Proofs.Calls
import PluginHost.Supervisor.Probe

namespace PluginHost

/-- A probe by processes finds nothing exactly if there is no entry. -/
theorem Probe.decide_eq_notStarted_iff {p : Probe} (hp : p.kind = .process) {r : Registry}
    {s : System} {host plugin : String} {h : Host} (hh : r.host host = .ok h) :
    p.decide r s host plugin = .notStarted ↔ (s.table h.pool).get? plugin = none := by
  rw [decide, hp]
  cases hpid : r.pid s host plugin with
  | error e =>
    have hnone : (s.table h.pool).get? plugin = none := by
      cases hq : (s.table h.pool).get? plugin with
      | none => rfl
      | some q =>
        rw [Registry.pid_eq_ok_iff.2 ⟨h, q, hh, hq, rfl⟩] at hpid
        cases hpid
    simp [hnone]
  | ok pid =>
    obtain ⟨h', q, hh', hq, -⟩ := Registry.pid_eq_ok_iff.1 hpid
    obtain rfl : h = h' := Except.ok.inj (hh.symm.trans hh')
    have hne : ofPid s pid ≠ .notStarted := by
      unfold ofPid
      split <;> simp
    simp [hq, hne]

namespace Recovery

/-- Others have been at work, and have not killed a plugin in pool `i`. -/
structure Meanwhile (i : Nat) (plugin : String) (s s' : System) : Prop where
  pools : s.pools.length ≤ s'.pools.length
  kept : ∀ p, (s.table i).get? plugin = some p → (s'.table i).get? plugin = some p

/-- The system when the answer to a signal is complete: at once if nothing is being
    started, and else at the end of the launch, which others may have come before. -/
def returned (o : Option Launch) (s₁ s₂ : System) : System :=
  match o with
  | none => s₁
  | some l => Registry.finishRestart s₂ l

/-- The answer to a signal ends without a process.  The plugin's port is known, and
    its container starts processes where they are looked for. -/
inductive GivesUp (r : Registry) (s : System) (signal : Signal) (h : Host) (o : Option Launch)
    (s₂ : System) : Prop
  /-- What is left of the plugin could not be killed. -/
  | unkillable {c : Container} {port : UInt16} {e : Error} (hc : r.container signal.host = .ok c)
      (hport : r.port signal.host signal.plugin = .ok port) (hpool : c.pool = h.pool)
      (hk : (s.kill c.pool signal.plugin).1 = .error e)
  /-- The runner failed, and nobody else has started the plugin. -/
  | unstartable {c : Container} {port : UInt16} {l : Launch} {e : Error}
      (hc : r.container signal.host = .ok c)
      (hport : r.port signal.host signal.plugin = .ok port) (hpool : c.pool = h.pool)
      (hk : (s.kill c.pool signal.plugin).1 = .ok ()) (ho : o = some l)
      (hl : l.outcome = .error e) (hfree : (s₂.table h.pool).get? signal.plugin = none)

variable {r : Registry} {s s₁ s₂ : System} {signal : Signal} {h : Host} {c : Container}
  {port : UInt16}

/-- The end of a start with a process leaves an entry under its name. -/
theorem exists_entry_of_finishRun {l : Launch} {p : PluginProcess}
    (hpool : l.pool < s.pools.length) (hp : (s.finishStart l).1 = .ok p) (hname : p.name = l.name) :
    ∃ q, ((Container.finishRun s l).2.table l.pool).get? l.name = some q := by
  have hgrow := System.finishStart_grows s l
  rw [Container.finishRun_of_ok hp, ← hname]
  exact System.exists_entry_of_enter (by rw [hgrow.pools]; exact hpool) p

/-- The end of a start changes no table but that of its pool. -/
theorem table_finishRun_of_ne {l : Launch} {j : Nat} (hj : l.pool ≠ j) :
    (Container.finishRun s l).2.table j = s.table j := by
  have hgrow := System.finishStart_grows s l
  cases hp : (s.finishStart l).1 with
  | error e => rw [Container.finishRun_of_error hp, hgrow.tables]
  | ok p => rw [Container.finishRun_of_ok hp, System.table_enter_of_ne hj, hgrow.tables]

/-- What the restart of a plugin that was killed leaves under its name. -/
theorem entry_of_kill_ok {l : Launch} {p₀ : PluginProcess} (hpool : c.pool = h.pool)
    (hp₀ : (s.table h.pool).get? signal.plugin = some p₀)
    (hrun : c.beginRun (s.kill c.pool signal.plugin).2 signal.plugin port = (.ok l, s₁))
    (hm : Meanwhile h.pool signal.plugin s₁ s₂) :
    ((Registry.finishRestart s₂ l).table h.pool).get? signal.plugin = none ↔
      (∃ e, l.outcome = .error e) ∧ (s₂.table h.pool).get? signal.plugin = none := by
  obtain ⟨m, -, -, hask⟩ := Container.beginRun_eq_ok_iff.1 hrun
  obtain ⟨hlpool, hlname, hgrow, -, hcarried⟩ := System.askRunner_spec
    (s.kill c.pool signal.plugin).2 c.pool (Container.request signal.plugin m port)
  rw [hask] at hlpool hlname hgrow hcarried
  cases hp : (s₂.finishStart l).1 with
  | error e =>
    -- The end of a launch that failed leaves everything as others have made it.
    obtain ⟨-, hfin, -⟩ := System.finishStart_error hp
    have hsame : Registry.finishRestart s₂ l = s₂ := by
      rw [Registry.finishRestart, Container.finishRun_of_error hp, hfin]
    rw [hsame]
    exact ⟨fun hnone => ⟨⟨e, System.outcome_of_finishStart_error hp⟩, hnone⟩, fun h => h.2⟩
  | ok p =>
    have hname : p.name = l.name :=
      System.name_of_finishStart (fun q hq => (hcarried q hq).1.trans hlname.symm) hp
    have hlt : l.pool < s₂.pools.length :=
      calc l.pool = c.pool := hlpool
        _ = h.pool := hpool
        _ < s.pools.length := System.lt_of_get?_table hp₀
        _ = (s.kill c.pool signal.plugin).2.pools.length :=
          (System.kill_kills s c.pool signal.plugin).pools.symm
        _ = s₁.pools.length := hgrow.pools.symm
        _ ≤ s₂.pools.length := hm.pools
    obtain ⟨q, hq⟩ := exists_entry_of_finishRun hlt hp hname
    rw [hlpool, hpool, hlname] at hq
    rw [Registry.finishRestart]
    constructor
    · intro hnone
      rw [show (Container.request signal.plugin m port).name = signal.plugin from rfl] at hq
      rw [hq] at hnone
      cases hnone
    · rintro ⟨⟨e, he⟩, -⟩
      rw [System.finishStart_of_error he] at hp
      cases hp

/-- Whether a plugin that was found dead is out of supervision once the signal has
    been answered: exactly if the killing failed, or the runner did and nobody else
    has started the plugin meanwhile. -/
theorem restart_gives_up_iff {o : Option Launch} {p : Probe} (hp : p.kind = .process)
    (hh : r.host signal.host = .ok h)
    (hpid : r.pid s signal.host signal.plugin = .ok signal.pid)
    (hbegin : r.beginRestart s signal = (o, s₁))
    (hm : Meanwhile h.pool signal.plugin s₁ s₂) :
    p.decide r (returned o s₁ s₂) signal.host signal.plugin = .notStarted ↔
      GivesUp r s signal h o s₂ := by
  rw [Probe.decide_eq_notStarted_iff hp hh]
  obtain ⟨h', p₀, hh', hp₀, -⟩ := Registry.pid_eq_ok_iff.1 hpid
  obtain rfl : h = h' := Except.ok.inj (hh.symm.trans hh')
  cases hport : r.port signal.host signal.plugin with
  | error e =>
    -- Nothing was killed.
    rw [Registry.beginRestart_of_port_error hport] at hbegin
    obtain ⟨rfl, rfl⟩ := Prod.mk.inj hbegin
    refine ⟨fun hnone => ?_, fun hup => ?_⟩
    · rw [returned, hp₀] at hnone
      cases hnone
    · cases hup with
      | unkillable _ hport' => rw [hport] at hport'; cases hport'
      | unstartable _ hport' => rw [hport] at hport'; cases hport'
  | ok port =>
    obtain ⟨c, m, hc, hinfo⟩ := Registry.info_of_port hport
    have hone : ∀ {c' : Container}, r.container signal.host = .ok c' → c' = c :=
      fun hc' => Except.ok.inj (hc'.symm.trans hc)
    have hkills := System.kill_kills s c.pool signal.plugin
    cases hk : (s.kill c.pool signal.plugin).1 with
    | error e =>
      rw [Registry.beginRestart_of_kill_error hpid hc hport hk] at hbegin
      obtain ⟨rfl, rfl⟩ := Prod.mk.inj hbegin
      by_cases hpool : c.pool = h.pool
      · -- The entry is gone although the process could not be told.
        refine ⟨fun _ => .unkillable hc hport hpool hk, fun _ => ?_⟩
        rw [returned, ← hpool]
        exact hkills.gone signal.plugin rfl
      · refine ⟨fun hnone => ?_, fun hup => ?_⟩
        · rw [returned, hkills.others h.pool hpool, hp₀] at hnone
          cases hnone
        · cases hup with
          | unkillable hc' _ hpool' => exact absurd (hone hc' ▸ hpool') hpool
          | unstartable hc' _ hpool' => exact absurd (hone hc' ▸ hpool') hpool
    | ok u =>
      have hrun : c.beginRun (s.kill c.pool signal.plugin).2 signal.plugin port = _ :=
        Container.beginRun_of_not_ready hinfo
          (System.isReady_eq_false_iff.2 (hkills.gone signal.plugin rfl))
      rw [Registry.beginRestart_of_kill_ok hpid hc hport hinfo hk] at hbegin
      obtain ⟨rfl, rfl⟩ := Prod.mk.inj hbegin
      by_cases hpool : c.pool = h.pool
      · rw [returned, entry_of_kill_ok hpool hp₀ hrun hm]
        constructor
        · rintro ⟨⟨e, he⟩, hfree⟩
          exact .unstartable hc hport hpool hk rfl he hfree
        · intro hup
          cases hup with
          | unkillable hc' _ _ hk' =>
            rw [hone hc', hk] at hk'
            cases hk'
          | unstartable _ _ _ _ ho hl hfree =>
            obtain rfl := Option.some.inj ho
            exact ⟨⟨_, hl⟩, hfree⟩
      · -- The dead process was looked for in a pool that the container does not use.
        obtain ⟨hlpool, -, hgrow, -⟩ := System.askRunner_spec
          (s.kill c.pool signal.plugin).2 c.pool (Container.request signal.plugin m port)
        refine ⟨fun hnone => ?_, fun hup => ?_⟩
        · have hkept := hm.kept p₀ (by rw [hgrow.tables, hkills.others h.pool hpool, hp₀])
          rw [returned, Registry.finishRestart, table_finishRun_of_ne (by rw [hlpool]; exact hpool),
            hkept] at hnone
          cases hnone
        · cases hup with
          | unkillable hc' _ hpool' => exact absurd (hone hc' ▸ hpool') hpool
          | unstartable hc' _ hpool' => exact absurd (hone hc' ▸ hpool') hpool

/-! ## One plugin -/

/-- The answer to a signal when nobody comes between. -/
def answered (r : Registry) (s : System) (signal : Signal) : System :=
  let (o, s₁) := r.beginRestart s signal
  returned o s₁ s₁

/-- A host that reaches its plugin at port 7. -/
def echoHost : Host where
  name := "host"
  config := none
  pool := 0
  connections := .ofList [("echo", { rest := some { address := "localhost", port := 7 } })]

/-- The host, with its plugin installed. -/
def echoRegistry : Registry where
  hosts := [echoHost]
  containers := .ofList [("host", {
    installer := ⟨"host", none, .md5⟩
    pool := 0
    installed := true
    plugins := .ofList [("echo", ⟨"echo", [], "echo", 0, "", "rest"⟩)] })]

/-- The process of the plugin was found dead. -/
def echoSignal : Signal :=
  ⟨"host", "echo", 5⟩

/-- The process of the plugin is gone, and the runner has answers at hand. -/
def gone (answers : List PreparedStart) (switches : List (Nat × KillSwitch)) : System where
  pools := [{
    label := "host"
    runner := .prepared answers
    table := .ofList [("echo", { name := "echo", pid := 5, switch := some 0 })] }]
  switches

/-- The runner cannot start the plugin. -/
def unstartable : System :=
  gone [{ outcome := .error (.cannotStart "echo" .notFound) }] [(5, {})]

/-- No signal can be sent to the process. -/
def unkillable : System :=
  gone [] [(5, { process := some (UInt32.size - 1) })]

/-- The runner starts the plugin. -/
def startable : System :=
  gone [{ outcome := .ok (6, .watched) }] [(5, {})]

/-- The end of supervision for a plugin whose runner fails, and its going on for one
    whose runner works. -/
theorem echo_given_up_or_restarted :
    GivesUp echoRegistry unstartable echoSignal echoHost
      (echoRegistry.beginRestart unstartable echoSignal).1
      (echoRegistry.beginRestart unstartable echoSignal).2 ∧
    ¬ GivesUp echoRegistry startable echoSignal echoHost
      (echoRegistry.beginRestart startable echoSignal).1
      (echoRegistry.beginRestart startable echoSignal).2 := by
  have hm (s : System) : Meanwhile 0 "echo" s s := ⟨Nat.le_refl _, fun _ h => h⟩
  refine ⟨(restart_gives_up_iff (p := {}) rfl rfl rfl rfl (hm _)).1 ?_, fun hup => ?_⟩
  · decide +kernel
  · have hnone := (restart_gives_up_iff (p := {}) rfl rfl rfl rfl (hm _)).2 hup
    revert hnone
    decide +kernel

/-- A plugin that was found dead counts as never started after its restart has
    failed, be it that its runner or that the killing fails. -/
theorem failed_restarts_end_supervision :
    ({} : Probe).decide echoRegistry unstartable "host" "echo" = .dead 5 ∧
    ({} : Probe).decide echoRegistry (answered echoRegistry unstartable echoSignal) "host" "echo"
      = .notStarted ∧
    ({} : Probe).decide echoRegistry unkillable "host" "echo" = .dead 5 ∧
    ({} : Probe).decide echoRegistry (answered echoRegistry unkillable echoSignal) "host" "echo"
      = .notStarted := by
  decide +kernel

end Recovery
end PluginHost
