/-
  PluginHost.Proofs.HostViews

  Where a registry looks for the process of a plugin, and where it starts it.  It
  looks in the pool of the first host of a name, and starts in the pool of the
  container that it keeps, which is that of the last host of the name.

  This makes no difference exactly if the two hosts share their pool
  (`Registry.SamePool`).  With a pool for each host, as on the command line, that
  means that no name is given twice.
-/
import PluginHost.CommandLine.Serve
import PluginHost.Proofs.Handles

namespace PluginHost
namespace Registry

variable {hosts : List Host} {policy : Retry.Policy} {r : Registry} {name plugin : String}

/-! ## One pool for a name -/

/-- The first and the last host of a name have their processes in one pool. -/
def SamePool (hosts : List Host) (name : String) : Prop :=
  (firstHost? hosts name).map (·.pool) = (lastHost? hosts name).map (·.pool)

/-- Whatever the pools hold, the registry finds a plugin of a host exactly where the
    container of the host starts and kills it. -/
def OneView (r : Registry) (name : String) : Prop :=
  ∀ c, r.container name = .ok c → ∀ (s : System) plugin, r.pid s name plugin = s.pid c.pool plugin

theorem pid_eq_of_host {x : Host} (hx : r.host name = .ok x) (s : System) (plugin : String) :
    r.pid s name plugin = s.pid x.pool plugin := by
  rw [Registry.pid, hx]
  rfl

theorem SamePool.of_nodup (hnames : (hosts.map (·.name)).Nodup) (name : String) :
    SamePool hosts name := by
  rw [SamePool, firstHost?_eq_lastHost? hnames]

/-- A process in one pool is not found in another one. -/
theorem exists_pid_ne {i j : Nat} (hij : i ≠ j) : ∃ s : System, s.pid i "" ≠ s.pid j "" := by
  let process : PluginProcess := { name := "", pid := 1 }
  let empty : System := { pools := List.replicate (i + 1) { label := "" } }
  let s := empty.updatePool i fun pool => { pool with table := .ofList [("", process)] }
  have hi : (s.table i).get? "" = some process := by
    rw [System.table_updatePool_self]
    · rfl
    · simp [empty]
  have hj : (s.table j).get? "" = none := by
    rw [System.table_updatePool_of_ne _ hij]
    simp only [System.table, System.pool, empty, List.getD_eq_getElem?_getD, List.getElem?_replicate]
    split <;> rfl
  refine ⟨s, ?_⟩
  rw [System.pid, System.pid, System.process_eq_ok_iff.2 hi,
    System.process_eq_error_iff.2 ⟨hj, rfl⟩]
  intro hsame
  cases hsame

/-- A registry has one view of a host exactly if the first and the last host of its
    name share their pool. -/
theorem Serves.oneView_iff (hr : Serves hosts r) (name : String) :
    OneView r name ↔ SamePool hosts name := by
  cases hfirst : firstHost? hosts name with
  | none =>
    -- There is no such host, and no container of it.
    have hlast : lastHost? hosts name = none := by
      rw [firstHost?, List.find?_eq_none] at hfirst
      rw [lastHost?, List.find?_eq_none]
      exact fun x hmem => hfirst x (List.mem_reverse.1 hmem)
    refine ⟨fun _ => by rw [SamePool, hfirst, hlast], fun _ c hc => ?_⟩
    obtain ⟨⟨x, hx⟩, -⟩ := container_eq_ok_iff.1 hc
    rw [host_eq_ok_iff, hr.listed, hfirst] at hx
    cases hx
  | some first =>
    have hhost : r.host name = .ok first := host_eq_ok_iff.2 (by rw [hr.listed, hfirst])
    obtain ⟨c, hcont⟩ := hr.exists_container hhost
    obtain ⟨last, hlast, hpool⟩ := hr.pool_of_kept (container_eq_ok_iff.1 hcont).2
    rw [SamePool, hfirst, hlast, Option.map_some, Option.map_some, Option.some.injEq, hpool]
    constructor
    · intro hview
      by_contra hne
      obtain ⟨s, hs⟩ := exists_pid_ne hne
      exact hs (by rw [← pid_eq_of_host hhost, hview c hcont])
    · intro hsame c' hc' s plugin
      obtain rfl : c = c' := Except.ok.inj (hcont.symm.trans hc')
      rw [pid_eq_of_host hhost, hsame]

/-- With a pool for each host there is one view exactly of the names that occur
    once. -/
theorem samePool_iff_of_nodup (hpools : (hosts.map (·.pool)).Nodup) (name : String) :
    SamePool hosts name ↔ (hosts.filter fun h => h.name = name).length ≤ 1 := by
  have hfirst : firstHost? hosts name = (hosts.filter fun h => h.name = name).head? := by
    rw [firstHost?, List.head?_filter]
  have hlast : lastHost? hosts name = (hosts.filter fun h => h.name = name).getLast? := by
    rw [lastHost?, ← List.head?_reverse, ← List.filter_reverse, List.head?_filter]
  have hnodup : ((hosts.filter fun h => h.name = name).map (·.pool)).Nodup :=
    hpools.sublist (List.filter_sublist.map _)
  rw [SamePool, hfirst, hlast]
  generalize hosts.filter (fun h => h.name = name) = found at hnodup ⊢
  rcases found with _ | ⟨x, _ | ⟨y, rest⟩⟩
  · simp
  · simp
  · -- The last one is another host than the first, and has another pool.
    have hne : x.pool ∉ (y :: rest).map (·.pool) := (List.nodup_cons.1 hnodup).1
    obtain ⟨z, hz⟩ : ∃ z, (y :: rest).getLast? = some z := ⟨_, List.getLast?_cons⟩
    have hmem : z ∈ y :: rest := List.mem_of_getLast? hz
    rw [List.getLast?_cons_cons, hz, List.head?_cons, Option.map_some, Option.map_some,
      Option.some.injEq, List.length_cons, List.length_cons]
    constructor
    · intro heq
      exact absurd (heq ▸ List.mem_map_of_mem hmem) hne
    · intro hlen
      omega

/-- On the command line every host has a pool of its own. -/
theorem samePool_makeHosts_iff (config : Config) (address : String) (names : List String)
    (name : String) :
    SamePool (CommandLine.makeHosts config address names) name ↔ names.count name ≤ 1 := by
  have hpools := CommandLine.pools_makeHosts config address names
  have hnames := CommandLine.names_makeHosts config address names
  rw [samePool_iff_of_nodup (by rw [hpools]; exact List.nodup_range),
    ← List.countP_eq_length_filter]
  have hcount : names.count name
      = (CommandLine.makeHosts config address names).countP fun h => h.name = name := by
    conv_lhs => rw [← hnames]
    rw [List.count_eq_countP, List.countP_map]
    refine List.countP_congr fun h _ => ?_
    simp
  rw [hcount]

end Registry

namespace Traffic

open Registry

variable {hosts : List Host} {policy : Retry.Policy} {w : Traffic} {host plugin : String}

/-! ## Processes that are seen -/

/-- A plugin has a process in a pool, and who asks the registry, or probes by
    processes, finds that one. -/
def Seen (r : Registry) (s : System) (i : Nat) (host plugin : String) : Prop :=
  ∃ p, (s.table i).get? plugin = some p ∧ r.pid s host plugin = .ok p.pid ∧
    ∀ probe : Probe, probe.kind = .process → probe.decide r s host plugin = Probe.ofPid s p.pid

/-- Where there is one view of a host, what its container has is seen. -/
theorem seen_of_ready {r : Registry} {s : System} {c : Container} (hview : OneView r host)
    (hc : r.container host = .ok c) (hready : s.isReady c.pool plugin = true) :
    Seen r s c.pool host plugin := by
  obtain ⟨p, hp⟩ := System.isReady_eq_true_iff.1 hready
  have hpid : r.pid s host plugin = .ok p.pid := by
    rw [hview c hc, System.pid, System.process_eq_ok_iff.2 hp]
    rfl
  refine ⟨p, hp, hpid, fun probe hkind => ?_⟩
  rw [Probe.decide, hkind]
  simp only [hpid]

/-- What a plugin has stays there while nobody kills it. -/
theorem isReady_of_meanwhile {s s' : System} {i : Nat} (hm : Recovery.Meanwhile i plugin s s')
    (hready : s.isReady i plugin = true) : s'.isReady i plugin = true := by
  obtain ⟨p, hp⟩ := System.isReady_eq_true_iff.1 hready
  exact System.isReady_eq_true_iff.2 ⟨p, hm.kept p hp⟩

/-- There is one view of a host exactly if the first and the last host of its name
    have their processes in one pool; on the command line, if the name is not given
    twice.  If that is so, a plugin on which somebody was given a handle is seen,
    whatever else has happened, as long as nobody kills it. -/
theorem one_view_iff (hw : Reachable hosts policy w)
    (hrunner : ∀ x ∈ w.waiting, ∀ e, x.2.outcome = .error e → e.kind = .cannotStart)
    (host : String) :
    (OneView w.registry host ↔ SamePool hosts host) ∧
    (∀ config address names, hosts = CommandLine.makeHosts config address names →
      (OneView w.registry host ↔ names.count host ≤ 1)) ∧
    (SamePool hosts host → ∀ plugin,
      (∀ route s, w.registry.beginHandle w.system host plugin = (.ok (.ready route), w.system) →
        Recovery.Meanwhile route.container.pool plugin w.system s →
        Seen w.registry s route.container.pool host plugin) ∧
      ∀ route l x s₁ s₂, (.handle host plugin route, l) ∈ w.waiting →
        finishHandle w.system host plugin (.starting route l) = (.ok x, s₁) →
        Recovery.Meanwhile route.container.pool plugin s₁ s₂ →
        Seen w.registry s₂ route.container.pool host plugin) := by
  have hone : OneView w.registry host ↔ SamePool hosts host := hw.serves.oneView_iff host
  refine ⟨hone, fun config address names heq => ?_, fun hsame plugin => ?_⟩
  · rw [hone, heq, samePool_makeHosts_iff]
  have hview : OneView w.registry host := hone.2 hsame
  constructor
  · intro route s hbegin hm
    obtain ⟨-, hrouted, hready, -⟩ :=
      (firstPart hw.serves w.system host plugin).ready route (by rw [hbegin])
    exact seen_of_ready hview hrouted.container (isReady_of_meanwhile hm hready)
  · intro route l x s₁ s₂ hmem hfinish hm
    have hsecond := hw.secondPart hrunner hmem
    cases hl : l.outcome with
    | error e =>
      -- The runner has failed, so that there was no handle.
      obtain ⟨-, hfailed⟩ := hsecond.failed e hl
      rw [hfailed] at hfinish
      cases hfinish
    | ok b =>
      obtain ⟨-, hready⟩ := hsecond.made b hl
      rw [hfinish] at hready
      exact seen_of_ready hview hsecond.routed.container (isReady_of_meanwhile hm hready)

/-- The process of one host's plugin is found once there is a handle. -/
theorem echo_seen :
    SamePool [echoHost] "host" ∧
    Seen oneRequest.registry
      (finishHandle oneRequest.system "host" "echo" (.starting echoRoute echoLaunch)).2 0
      "host" "echo" := by
  have hrunner : ∀ x ∈ oneRequest.waiting, ∀ e, x.2.outcome = .error e → e.kind = .cannotStart := by
    intro x hmem e he
    rw [List.mem_singleton.1 hmem] at he
    cases he
  have hsame : SamePool [echoHost] "host" := SamePool.of_nodup (by decide) "host"
  have hviews := one_view_iff reachable_oneRequest hrunner "host"
  exact ⟨hsame, (hviews.2.2 hsame "echo").2 echoRoute echoLaunch _ _ _ List.mem_cons_self rfl
    ⟨Nat.le_refl _, fun _ h => h⟩⟩

/-! ## A name given twice -/

/-- Two hosts of one name, each with a pool. -/
def twins : List Host :=
  [echoHost, { echoHost with pool := 1 }]

/-- Both hosts after the setup, with empty pools. -/
def twinsReady : Traffic where
  registry := ((ofHosts twins {}).setup { known := [("echo", .file [])] } "host").2
  system := { pools := [{ label := "first" }, { label := "last" }] }

def twinRoute : Route :=
  { echoRoute with container := { echoRoute.container with pool := 1 } }

def twinLaunch : Launch :=
  ⟨1, "echo", 0, .ok (.due 1000 .none)⟩

/-- A handle on the plugin was asked for. -/
def twinsAsked : Traffic :=
  { twinsReady with
    system := (twinsReady.registry.beginHandle twinsReady.system "host" "echo").2
    waiting := [(.handle "host" "echo" twinRoute, twinLaunch)] }

/-- The handle was given. -/
def twinsAtWork : Traffic :=
  { twinsAsked with
    system := (finishHandle twinsAsked.system "host" "echo" (.starting twinRoute twinLaunch)).2
    waiting := []
    started := born twinsAsked.system twinLaunch }

theorem reachable_twinsAtWork : Reachable twins {} twinsAtWork := by
  have hempty : ∀ i, twinsReady.system.table i = .empty := by
    intro i
    match i with
    | 0 => rfl
    | 1 => rfl
    | i + 2 => rfl
  have hready : Reachable twins {} twinsReady :=
    (Reachable.init (by decide) hempty).step (.setup _ _)
  have hbegin : twinsReady.registry.beginHandle twinsReady.system "host" "echo"
      = (.ok (.starting twinRoute twinLaunch), twinsAsked.system) := rfl
  have hasked : Reachable twins {} twinsAsked := hready.step (.beginHandle hbegin)
  have hfinish : twinsAsked.Step
      { twinsAsked with
        system := (Errand.handle "host" "echo" twinRoute).finish twinsAsked.system twinLaunch
        waiting := []
        started := born twinsAsked.system twinLaunch ++ twinsAsked.started } :=
    .finish (List.Perm.refl _)
  exact hasked.step hfinish

/-- Of two hosts of one name the last one starts the plugin, while the first one is
    looked at: the plugin runs, and counts as never started. -/
theorem twins_hide_a_process :
    Reachable twins {} twinsAtWork ∧
    (∃ c, twinsAtWork.registry.container "host" = .ok c ∧
      twinsAtWork.system.pid c.pool "echo" = .ok 1000) ∧
    twinsAtWork.registry.pid twinsAtWork.system "host" "echo" = .error (.pluginUnknown "echo") ∧
    ({} : Probe).decide twinsAtWork.registry twinsAtWork.system "host" "echo" = .notStarted :=
  ⟨reachable_twinsAtWork, ⟨_, rfl, rfl⟩, rfl, rfl⟩

end Traffic
end PluginHost
