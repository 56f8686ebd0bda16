/-
  PluginHost.Proofs.Traffic

  Everybody who works on the hosts of one registry at the same time: calls that
  start plugins, requests for handles, answers to signals, killings, probes and
  setups.  Each of them goes on without a break until it waits for a runner; while
  it waits, all the others may go on.  The runner may answer in any order.

  `Reachable` is the set of all states that can come of this.  Beside the state
  itself it keeps what happened: the processes that were handed out, the signals
  for which a runner was asked, and the signals that probes gave.
-/
import PluginHost.Proofs.Hosts
import PluginHost.Supervisor.Probe

namespace PluginHost

/-- On whose behalf a start waits for its runner. -/
inductive Errand where
  | run
  /-- Somebody wants to call the plugin. -/
  | handle (host plugin : String) (route : Registry.Route)
  /-- The process of the plugin was found dead. -/
  | restart (signal : Signal)

/-- What the end of a start leaves, whoever has asked for it. -/
def Errand.finish (s : System) (l : Launch) : Errand → System
  | .run => (Container.finishRun s l).2
  | .handle host plugin route => (Registry.finishHandle s host plugin (.starting route l)).2
  | .restart _ => Registry.finishRestart s l

theorem Errand.finish_eq (s : System) (l : Launch) (e : Errand) :
    e.finish s l = (Container.finishRun s l).2 := by
  cases e with
  | run => rfl
  | handle host plugin route => exact Registry.finishHandle_system s host plugin route l
  | restart signal => rfl

/-- Hosts at work, and what has happened so far, the last first. -/
structure Traffic where
  registry : Registry
  system : System
  /-- The starts that wait for a runner, in any order. -/
  waiting : List (Errand × Launch) := []
  /-- The processes that runners have handed out, each with its pool. -/
  started : List (Nat × PluginProcess) := []
  /-- The signals for which a runner was asked. -/
  answered : List Signal := []
  /-- The signals that probes by processes gave. -/
  found : List Signal := []

namespace Traffic

/-- The process that a launch carries already, with its pool. -/
def carried (l : Launch) : List (Nat × PluginProcess) :=
  (l.process?.map fun p => (l.pool, p)).toList

/-- The process that comes into being only when a launch ends, with its pool. -/
def born (s : System) (l : Launch) : List (Nat × PluginProcess) :=
  ((s.born l).map fun p => (l.pool, p)).toList

/-- Something else happens: time passes, children end, files change, runners are
    exchanged.  The tables are left alone, and a process that was handed out and
    has ended stays ended, since its number is not given to another one. -/
structure Aside (started : List (Nat × PluginProcess)) (s s' : System) : Prop where
  tables : ∀ i, s'.table i = s.table i
  pools : s'.pools.length = s.pools.length
  switches : s.switches.length ≤ s'.switches.length
  ended : ∀ x ∈ started, s.isAlive x.2.pid = false → s'.isAlive x.2.pid = false

/-- One step, up to the next point at which somebody waits. -/
inductive Step : Traffic → Traffic → Prop
  /-- The container of a host is set up. -/
  | setup {w : Traffic} (storage : Storage) (name : String) :
      Step w { w with registry := (w.registry.setup storage name).2 }
  /-- A container begins to start a plugin. -/
  | beginRun {w : Traffic} {c : Container} {plugin : String} {port : UInt16} {l : Launch}
      {s' : System} (h : c.beginRun w.system plugin port = (.ok l, s')) :
      Step w { w with
        system := s', waiting := (.run, l) :: w.waiting, started := carried l ++ w.started }
  /-- A handle on a plugin that does not run is asked for. -/
  | beginHandle {w : Traffic} {host plugin : String} {route : Registry.Route} {l : Launch}
      {s' : System}
      (h : w.registry.beginHandle w.system host plugin = (.ok (.starting route l), s')) :
      Step w { w with
        system := s', waiting := (.handle host plugin route, l) :: w.waiting
        started := carried l ++ w.started }
  /-- A signal is answered, and nothing has to be waited for. -/
  | answer {w : Traffic} {signal : Signal} {s' : System}
      (h : w.registry.beginRestart w.system signal = (none, s')) : Step w { w with system := s' }
  /-- A signal is answered, and a runner is asked for a process. -/
  | beginRestart {w : Traffic} {signal : Signal} {l : Launch} {s' : System}
      (h : w.registry.beginRestart w.system signal = (some l, s')) :
      Step w { w with
        system := s', waiting := (.restart signal, l) :: w.waiting
        started := carried l ++ w.started, answered := signal :: w.answered }
  /-- A runner has answered, and the start that waited for it ends. -/
  | finish {w : Traffic} {e : Errand} {l : Launch} {rest : List (Errand × Launch)}
      (h : w.waiting.Perm ((e, l) :: rest)) :
      Step w { w with
        system := e.finish w.system l, waiting := rest, started := born w.system l ++ w.started }
  /-- One process is killed. -/
  | kill {w : Traffic} (i : Nat) (name : String) :
      Step w { w with system := (w.system.kill i name).2 }
  /-- All processes of a pool are killed. -/
  | killAll {w : Traffic} (i : Nat) : Step w { w with system := (w.system.killAll i).2 }
  /-- A probe by processes finds the process of a plugin dead. -/
  | probe {w : Traffic} {p : Probe} {host plugin : String} {pid : Nat} (hp : p.kind = .process)
      (h : p.decide w.registry w.system host plugin = .dead pid) :
      Step w { w with found := ⟨host, plugin, pid⟩ :: w.found }
  | aside {w : Traffic} {s' : System} (h : Aside w.started w.system s') :
      Step w { w with system := s' }

/-- What can come of hosts whose pools are there and empty. -/
inductive Reachable (hosts : List Host) (policy : Retry.Policy) : Traffic → Prop
  | init {s : System} (hpools : ∀ h ∈ hosts, h.pool < s.pools.length)
      (hempty : ∀ i, s.table i = .empty) :
      Reachable hosts policy { registry := .ofHosts hosts policy, system := s }
  | step {w w' : Traffic} (h : Reachable hosts policy w) (hs : Step w w') :
      Reachable hosts policy w'

variable {hosts : List Host} {policy : Retry.Policy} {w w' : Traffic}

/-! ## What the registry stays -/

theorem Step.serves (hs : Step w w') (h : Registry.Serves hosts w.registry) :
    Registry.Serves hosts w'.registry := by
  cases hs with
  | setup storage name => exact h.setup storage name
  | _ => exact h

/-- Which hosts and pools a registry stands for never changes. -/
theorem Reachable.serves (hw : Reachable hosts policy w) : Registry.Serves hosts w.registry := by
  induction hw with
  | init hpools hempty => exact Registry.serves_ofHosts hosts policy
  | step _ hs ih => exact hs.serves ih

/-! ## What the systems of a step have in common -/

/-- A step opens and closes no pool. -/
theorem Step.pools_length (hs : Step w w') :
    w'.system.pools.length = w.system.pools.length := by
  have hkill : ∀ i name, (w.system.kill i name).2.pools.length = w.system.pools.length :=
    fun i name => (System.kill_kills w.system i name).pools
  cases hs with
  | setup storage name => rfl
  | beginRun h => exact (Container.beginRun_spec h).2.2.1.pools
  | beginHandle h =>
    exact (Container.beginRun_spec (Registry.beginRun_of_beginHandle h).2).2.2.1.pools
  | answer h =>
    rcases Registry.of_beginRestart_eq_none h with rfl | ⟨c, -, -, rfl⟩
    · rfl
    · exact hkill c.pool _
  | beginRestart h =>
    obtain ⟨c, port, -, -, hrun⟩ := Registry.of_beginRestart_eq_some h
    exact (Container.beginRun_spec hrun).2.2.1.pools.trans (hkill c.pool _)
  | @finish e l rest h =>
    rw [Errand.finish_eq]
    exact Container.finishRun_pools w.system l
  | kill i name => exact hkill i name
  | killAll i => exact (System.killAll_kills w.system i).pools
  | probe hp h => rfl
  | aside h => exact h.pools

/-- The pools of the hosts are there. -/
theorem Reachable.pool_lt (hw : Reachable hosts policy w) :
    ∀ h ∈ hosts, h.pool < w.system.pools.length := by
  induction hw with
  | init hpools hempty => exact hpools
  | step _ hs ih =>
    intro h hmem
    rw [hs.pools_length]
    exact ih h hmem

/-! ## One host -/

/-- A host that may start one plugin, and reaches it at port 7. -/
def echoHost : Host where
  name := "host"
  config := some {
    plugins := .ofList [("echo", {
      digest := "ab", command := "run", arguments := [], file := "echo", protocol := "rest" })]
    hosts := .ofList [("host", { plugins := ["echo"] })] }
  check := .fixed "AB"
  pool := 0
  connections := .ofList [("echo", { rest := some { address := "localhost", port := 7 } })]

/-- A pool that has not been used, with a runner that has answers at hand. -/
def idle (answers : List PreparedStart) : System where
  pools := [{ label := "host", runner := .prepared answers }]

/-- The host after its setup, while the file of the plugin was there. -/
def ready (answers : List PreparedStart) : Traffic where
  registry := ((Registry.ofHosts [echoHost] {}).setup { known := [("echo", .file [])] } "host").2
  system := idle answers

theorem reachable_ready (answers : List PreparedStart) :
    Reachable [echoHost] {} (ready answers) := by
  have hempty : ∀ i, (idle answers).table i = .empty := by
    intro i
    cases i with
    | zero => rfl
    | succ i => rfl
  have hpools : ∀ h ∈ [echoHost], h.pool < (idle answers).pools.length := by
    intro h hmem
    rw [List.mem_singleton.1 hmem]
    exact Nat.zero_lt_one
  exact (Reachable.init hpools hempty).step (.setup _ _)

/-- The way to the plugin of the host. -/
def echoRoute : Registry.Route where
  connection := { rest := some { address := "localhost", port := 7 } }
  container := ((echoHost.container {}).setup { known := [("echo", .file [])] }).container
  port := 7

/-- The runner works on the plugin. -/
def echoLaunch : Launch :=
  ⟨0, "echo", 0, .ok (.due 5 .watched)⟩

/-- A request for a handle has asked the runner. -/
def oneRequest : Traffic :=
  let w := ready [{ outcome := .ok (5, .watched) }]
  { w with
    system := (w.registry.beginHandle w.system "host" "echo").2
    waiting := [(.handle "host" "echo" echoRoute, echoLaunch)] }

theorem reachable_oneRequest : Reachable [echoHost] {} oneRequest := by
  have hbegin : oneRequest.registry.beginHandle (idle [{ outcome := .ok (5, .watched) }])
      "host" "echo" = (.ok (.starting echoRoute echoLaunch), oneRequest.system) := rfl
  exact (reachable_ready _).step (.beginHandle hbegin)

end Traffic
end PluginHost
