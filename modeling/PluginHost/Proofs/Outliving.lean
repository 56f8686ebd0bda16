/-
  PluginHost.Proofs.Outliving

  What is left of plugins when the program that served them has ended.  At the end every
  process is told to stop, wherever it came from: no start is under way any more, so
  that each switch that was not used stands in a table (`System.Held`), and all tables
  are killed.  But the program does not wait for its plugins, and with it the watchers
  go that would kill those who take no notice.

  So a plugin outlives the program exactly if it runs when the supervisor has ended and
  does not end at once when it is told to (`nothing_outlives_iff`).
-/
import PluginHost.Proofs.Hosts
import PluginHost.Proofs.Serving

namespace PluginHost

/-! ## Killing the processes of hosts -/

namespace Registry

variable {s : System} {h : Host} {hosts : List Host}

theorem killHosts_cons (s : System) (h : Host) (hosts : List Host) :
    (killHosts s (h :: hosts)).2 = (killHosts (s.killAll h.pool).2 hosts).2 :=
  rfl

/-- What is left in a table was there before, and none of the hosts uses it. -/
theorem entry_of_killHosts {i : Nat} {n : String} {p : PluginProcess}
    (hp : ((killHosts s hosts).2.table i).get? n = some p) :
    (s.table i).get? n = some p ∧ ∀ h ∈ hosts, h.pool ≠ i := by
  induction hosts generalizing s with
  | nil => exact ⟨hp, by simp⟩
  | cons h hosts ih =>
    rw [killHosts_cons] at hp
    obtain ⟨hbefore, hothers⟩ := ih hp
    have hkills := System.killAll_kills s h.pool
    by_cases hi : h.pool = i
    · subst hi
      rw [hkills.gone n (by simp)] at hbefore
      cases hbefore
    · rw [hkills.others i hi] at hbefore
      exact ⟨hbefore, List.forall_mem_cons.2 ⟨hi, hothers⟩⟩

/-- Whatever stands in a table stands in that of one of the hosts. -/
def Cover (hosts : List Host) (s : System) : Prop :=
  ∀ i n p, (s.table i).get? n = some p → ∃ h ∈ hosts, h.pool = i

theorem Cover.not_isEntry (h : Cover hosts s) (p : PluginProcess) :
    ¬ (killHosts s hosts).2.IsEntry p := by
  rintro ⟨i, n, hp⟩
  obtain ⟨hbefore, hothers⟩ := entry_of_killHosts hp
  obtain ⟨host, hmem, hpool⟩ := h i n p hbefore
  exact hothers host hmem hpool

end Registry

namespace Household

variable {x : Household} {c : Child} {hosts : List Host}

/-- The household after the processes of hosts were killed. -/
def killHosts (x : Household) (hosts : List Host) : Household :=
  { x with system := (Registry.killHosts x.system hosts).2 }

theorem Inv.killHosts (inv : Inv x) (hosts : List Host) : Inv (x.killHosts hosts) := by
  induction hosts generalizing x with
  | nil => exact inv
  | cons h hosts ih => exact ih (inv.killAll h.pool)

theorem Inv.killHosts_tells (inv : Inv x) (hosts : List Host) :
    System.Tells x.system (x.killHosts hosts).system := by
  induction hosts generalizing x with
  | nil => exact System.Tells.refl x.system
  | cons h hosts ih =>
    have hfirst := inv.tended.killAll_tells (i := h.pool) fun _ _ _ hp hid =>
      inv.not_forsaken_of_entry hp hid
    exact hfirst.trans (ih (inv.killAll h.pool))

/-- If nobody holds a switch and all tables are empty, then every program that can be
    told was asked to stop. -/
theorem Inv.exists_askedAt (inv : Inv x) (hhands : x.hands = [])
    (hempty : ∀ p, ¬ x.system.IsEntry p) (hc : c ∈ x.system.children)
    (hrun : c.isRunning = true) (hpid : c.pid ≤ KillSwitch.maxPid) :
    ∃ a, c.askedAt = some a ∧ a ≤ x.system.now ∧ x.system.now < a + Child.patience := by
  obtain ⟨k, hk⟩ := List.mem_iff_getElem?.1 hc
  obtain ⟨sw, hsw, hpair⟩ := inv.tended.exists_pair hk
  have hspent : sw.spent = true := by
    rw [← Bool.not_eq_false]
    intro hunused
    rw [← System.isSpent_of_switch? hsw] at hunused
    obtain ⟨p, hp, -⟩ | ⟨p, hp, -⟩ := inv.held.placed k (System.lt_of_switch? hsw) hunused
    · rw [hhands] at hp
      cases hp
    · exact hempty p hp
  obtain ⟨a, ha⟩ := Option.isSome_iff_exists.1 (hpair.used hspent hrun hpid)
  have hpatience := ((Child.elapse_eq_self_iff hrun hpair.watched).1 hpair.settled).2
  exact ⟨a, ha, hpair.past a ha, hpatience a ha⟩

/-- Only a child that has ended was killed by its watcher. -/
theorem Inv.not_killed (inv : Inv x) (hc : c ∈ x.system.children) (hrun : c.isRunning = true)
    (t : Nat) : (t, ChildSignal.kill) ∉ c.signals := by
  obtain ⟨k, hk⟩ := List.mem_iff_getElem?.1 hc
  obtain ⟨sw, -, hpair⟩ := inv.tended.exists_pair hk
  exact hpair.unkilled hrun t

/-- When all processes have been told, the programs that are left are those that do not
    end at once. -/
theorem Inv.all_ended_iff (inv : Inv x) (hhands : x.hands = [])
    (hcover : Registry.Cover hosts x.system) :
    (∀ c ∈ (x.killHosts hosts).system.children, c.isRunning = false) ↔
      ∀ c ∈ x.system.children, c.isRunning = true →
        c.pid ≤ KillSwitch.maxPid ∧ c.behaviour.reaction = some 0 := by
  have hafter := inv.killHosts hosts
  have htells := inv.killHosts_tells hosts
  constructor
  · intro hended c hc hrun
    obtain ⟨k, hk⟩ := List.mem_iff_getElem?.1 hc
    have hthen := htells k
    rw [hk] at hthen
    cases hlater : (x.killHosts hosts).system.children[k]? with
    | none =>
      rw [hlater] at hthen
      cases hthen
    | some c' =>
      rw [hlater] at hthen
      obtain ⟨-, -, -, hstubborn⟩ := Option.rel_some_some.1 hthen
      -- Otherwise it would still run after it was told.
      by_contra hnot
      have hwhy : c.behaviour.reaction ≠ some 0 ∨ KillSwitch.maxPid < c.pid := by
        obtain hlarge | hslow := not_and_or.1 hnot
        · exact .inr (Nat.not_le.1 hlarge)
        · exact .inl hslow
      have hrun' := hstubborn ⟨hrun, hwhy⟩
      rw [hended c' (List.mem_of_getElem? hlater)] at hrun'
      cases hrun'
  · intro hobedient c' hc'
    rw [Bool.eq_false_iff]
    intro hrun'
    obtain ⟨k, hk⟩ := List.mem_iff_getElem?.1 hc'
    have hthen := htells k
    rw [hk] at hthen
    cases hbefore : x.system.children[k]? with
    | none =>
      rw [hbefore] at hthen
      cases hthen
    | some c =>
      rw [hbefore] at hthen
      obtain ⟨hpid, hbehaviour, hrunning, -⟩ := Option.rel_some_some.1 hthen
      obtain ⟨hvalid, hreaction⟩ :=
        hobedient c (List.mem_of_getElem? hbefore) (hrunning hrun')
      -- It was asked, and its reaction takes no time.
      obtain ⟨a, ha, hle, -⟩ :=
        hafter.exists_askedAt hhands hcover.not_isEntry hc' hrun' (hpid ▸ hvalid)
      obtain ⟨sw, -, hpair⟩ := hafter.tended.exists_pair hk
      have hended := Child.not_isRunning_of_asked hpair.watched hpair.settled ha hle
        (hbehaviour ▸ hreaction)
      rw [hrun'] at hended
      cases hended

end Household

/-! ## The end of the program -/

namespace CommandLine

/-- A program was sent the signal that it cannot ignore. -/
def IsKilled (c : Child) : Prop :=
  ∃ t, (t, ChildSignal.kill) ∈ c.signals

/-- The pools of hosts before anything is started. -/
def idleSystem (w : World) (o : ServeOptions) (names : List String) : System where
  storage := w.surroundings.storage
  programs := w.programs
  network := w.network
  pools := makePools o.portFlag names

/-- What runs when the supervisor has ended, and the plugins have not been told yet. -/
def supervised (w : World) (path : Option String) (o : ServeOptions) : System :=
  match loadConfig w.surroundings path with
  | .error _ => {}
  | .ok (_, config) =>
    match selectedHosts config o.hosts with
    | .error _ => {}
    | .ok names =>
      let s := idleSystem w o names
      match (Registry.ofHosts (makeHosts config o.address names) {}).install s.storage with
      | .error _ => s
      | .ok r => (supervise w o.interval r (startAll r s (startTargets r)).2).2

variable {w : World} {path : Option String} {o : ServeOptions} {names : List String}
  {config : Config} {r : Registry}

/-- Either nothing was started, or the plugins of a registry are killed in the end, and
    their watchers go. -/
theorem serve_cases (w : World) (path : Option String) (o : ServeOptions) :
    ((supervised w path o).children = [] ∧ (serve w path o).system.children = []) ∨
      ∃ config names r,
        (Registry.ofHosts (makeHosts config o.address names) {}).install
          w.surroundings.storage = .ok r ∧
        supervised w path o
          = (supervise w o.interval r (startAll r (idleSystem w o names) (startTargets r)).2).2 ∧
        (serve w path o).system = (r.killPlugins (supervised w path o)).2.abandonChildren := by
  unfold serve supervised
  cases loadConfig w.surroundings path with
  | error failure => exact .inl ⟨rfl, rfl⟩
  | ok found =>
    obtain ⟨found, config⟩ := found
    cases hnames : selectedHosts config o.hosts with
    | error failure =>
      simp only [hnames]
      exact .inl ⟨trivial, trivial⟩
    | ok names =>
      simp only [hnames, serveHosts]
      cases hr : (Registry.ofHosts (makeHosts config o.address names) {}).install
          w.surroundings.storage with
      | error e => exact .inl ⟨by simp [idleSystem, hr], rfl⟩
      | ok r =>
        refine .inr ⟨config, names, r, hr, ?_, ?_⟩
        · simp [idleSystem, hr]
        · simp only [idleSystem, hr]
          rfl

theorem pool_of_mem_makeHosts {h : Host} (hh : h ∈ makeHosts config o.address names) :
    h.pool < names.length := by
  have hmem := List.mem_map_of_mem (f := fun h : Host => h.pool) hh
  rw [pools_makeHosts] at hmem
  exact List.mem_range.1 hmem

theorem exists_mem_makeHosts (config : Config) (address : String) {i : Nat}
    (hi : i < names.length) : ∃ h ∈ makeHosts config address names, h.pool = i := by
  rw [← List.mem_range, ← pools_makeHosts config address names] at hi
  exact List.mem_map.1 hi

theorem length_idleSystem (w : World) (o : ServeOptions) (names : List String) :
    (idleSystem w o names).pools.length = names.length :=
  List.length_map _

theorem table_idleSystem (w : World) (o : ServeOptions) (names : List String) (i : Nat) :
    (idleSystem w o names).table i = .empty := by
  rw [System.table, System.pool, idleSystem, makePools, List.getD_eq_getElem?_getD,
    List.getElem?_map]
  cases names[i]? <;> rfl

theorem reachable_idleSystem (w : World) (o : ServeOptions) (names : List String) :
    Household.Reachable { system := idleSystem w o names } := by
  refine .init (fun runner hrunner => ⟨o.portFlag, ?_⟩) rfl rfl (table_idleSystem w o names)
  obtain ⟨pool, hpool, rfl⟩ := List.mem_map.1 hrunner
  obtain ⟨label, -, rfl⟩ := List.mem_map.1 hpool
  rfl

/-- All that a program does up to the end of its supervisor is done by a household that
    gives nothing up, and no start is left. -/
theorem steps_supervised (hserves : Registry.Serves (makeHosts config o.address names) r) :
    Household.Steps { system := idleSystem w o names } { system :=
      (supervise w o.interval r (startAll r (idleSystem w o names) (startTargets r)).2).2 } := by
  have huses : r.UsesPools (idleSystem w o names) := by
    intro host c hc
    obtain ⟨last, hlast, hpool⟩ := hserves.pool_of_kept (Registry.container_eq_ok_iff.1 hc).2
    rw [length_idleSystem, ← hpool]
    exact pool_of_mem_makeHosts (Registry.mem_of_lastHost? hlast).1
  have hstart : Household.Steps { system := idleSystem w o names }
      { system := (startAll r (idleSystem w o names) (startTargets r)).2 } := steps_startAll huses
  exact hstart.trans (steps_supervise (huses.congr (Household.Steps.length_pools hstart)))

/-- No plugin outlives the program that served it, neither ended nor killed, exactly if
    each one that runs when the supervisor has ended is one that ends at once when it is
    told to.  Those that are left were told to stop a short time ago, and nobody watches
    them any more. -/
theorem nothing_outlives_iff (w : World) (path : Option String) (o : ServeOptions) :
    ((∀ c ∈ (serve w path o).system.children, c.isRunning = false ∨ IsKilled c) ↔
      ∀ c ∈ (supervised w path o).children, c.isRunning = true →
        c.pid ≤ KillSwitch.maxPid ∧ c.behaviour.reaction = some 0) ∧
    ∀ c ∈ (serve w path o).system.children, c.isRunning = true →
      c.watched = false ∧ ¬ IsKilled c ∧ (c.pid ≤ KillSwitch.maxPid →
        ∃ a, c.askedAt = some a ∧ a ≤ (serve w path o).system.now ∧
          (serve w path o).system.now < a + Child.patience) := by
  obtain ⟨hnone, hnone'⟩ | ⟨config, names, r, hr, hsupervised, hserve⟩ := serve_cases w path o
  · rw [hnone, hnone']
    simp
  have hserves := (Registry.serves_ofHosts (makeHosts config o.address names) {}).install hr
  have hsteps := steps_supervised (w := w) hserves
  rw [← hsupervised] at hsteps
  have inv := ((reachable_idleSystem w o names).steps hsteps).inv
  have hafter := inv.killHosts r.hosts
  -- There is a host for each pool, so that no table is left out.
  have hcover : Registry.Cover r.hosts (supervised w path o) := by
    intro i n p hp
    have hi := System.lt_of_get?_table hp
    rw [Household.Steps.length_pools hsteps, length_idleSystem] at hi
    rw [hserves.listed]
    exact exists_mem_makeHosts config o.address hi
  -- With the program its watchers go, and that is all that happens to its children.
  obtain ⟨switches, habandon⟩ :=
    System.exists_abandonChildren_eq (r.killPlugins (supervised w path o)).2
  rw [hserve, habandon, List.forall_mem_map, List.forall_mem_map]
  constructor
  · rw [← inv.all_ended_iff rfl hcover]
    refine forall₂_congr fun c hc => ⟨fun hleft => ?_, .inl⟩
    obtain hended | ⟨t, ht⟩ := hleft
    · exact hended
    · rw [Bool.eq_false_iff]
      exact fun hrun => hafter.not_killed hc hrun t ht
  · intro c hc hrun
    have hrun : c.isRunning = true := hrun
    have hasked := hafter.exists_askedAt rfl hcover.not_isEntry hc hrun
    exact ⟨rfl, fun ⟨t, ht⟩ => hafter.not_killed hc hrun t ht, hasked⟩

/-! ## A plugin that takes no notice -/

/-- One host with one plugin. -/
def oneHost : String :=
  "[plugins.P]
exec = \"p\"
exec_file = \"f\"
md5 = \"d41d8cd98f00b204e9800998ecf8427e\"
protocol_type = \"rest\"
port = 9123
[hosts.H]
plugins = [\"P\"]
"

/-- A machine whose programs go on when they are told to stop, and on which the hosts
    are served for some time. -/
def stubbornWorld : World where
  surroundings := { storage := { known := [
    ("tether.toml", .file (Utf8.encode oneHost)), ("f", .file [])] } }
  programs _ _ _ := .ok { lifetime := none, reaction := none }
  stopAfter := 20000

/-- A plugin may outlive the program that served it, neither ended nor killed. -/
theorem stubborn_plugin_outlives :
    ¬ ∀ c ∈ (serve stubbornWorld (some "tether.toml") {}).system.children,
      c.isRunning = false ∨ IsKilled c := by
  have hleft : ∃ c ∈ (serve stubbornWorld (some "tether.toml") {}).system.children,
      c.isRunning = true ∧ c.signals.all (·.2 = .terminate) = true := by
    decide +kernel
  obtain ⟨c, hc, hrun, hsignals⟩ := hleft
  intro h
  obtain hended | ⟨t, ht⟩ := h c hc
  · rw [hrun] at hended
    cases hended
  · cases of_decide_eq_true (List.all_eq_true.1 hsignals _ ht)

end CommandLine

end PluginHost
