/-
  PluginHost.Proofs.Checking

  A check and an installation look at the same hosts in two ways.  A check inspects
  the plugins of each host for itself; an installation goes through a registry, which
  keeps one container for each name and sets it up once, however often the name is
  given.

  They come to the same all the same (`check_agrees_with_serving`).  What carries this
  through the loop over the hosts is `Follows`: whatever a container has installed
  already is what a check finds now.
-/
import PluginHost.CommandLine.Serve
import PluginHost.Proofs.Hosts

namespace PluginHost
namespace Checking

open CommandLine

variable {storage : Storage} {config : Config} {r : Registry} {name address : String}

/-- What a check finds out about each of the hosts that it is given. -/
def verdicts (storage : Storage) (config : Config) (names : List String) :
    List (String × Except Error PluginSet) :=
  names.map fun name => (name, runnable storage config name)

/-- The error of a host that has failed, with its name. -/
def failure? : String × Except Error PluginSet → Option (String × Error)
  | (name, .error e) => some (name, e)
  | (_, .ok _) => none

/-- The hosts that a check reports as failing, in order, each with its error. -/
def failures (vs : List (String × Except Error PluginSet)) : List (String × Error) :=
  vs.filterMap failure?

theorem failures_cons_of_ok {vs : List (String × Except Error PluginSet)} {plugins : PluginSet} :
    failures ((name, .ok plugins) :: vs) = failures vs :=
  List.filterMap_cons_none rfl

theorem failures_cons_of_error {vs : List (String × Except Error PluginSet)} {e : Error} :
    failures ((name, .error e) :: vs) = (name, e) :: failures vs :=
  List.filterMap_cons_some rfl

/-- Nobody has failed exactly if there is something to run for everybody. -/
theorem failures_eq_nil_iff {vs : List (String × Except Error PluginSet)} :
    failures vs = [] ↔ ∀ v ∈ vs, ∃ plugins, v.2 = .ok plugins := by
  rw [failures, List.filterMap_eq_nil_iff]
  constructor
  · intro h v hv
    obtain ⟨n, result⟩ := v
    cases result with
    | error e => exact absurd (h _ hv) (by simp [failure?])
    | ok plugins => exact ⟨plugins, rfl⟩
  · intro h v hv
    obtain ⟨n, result⟩ := v
    obtain ⟨plugins, hok⟩ := h _ hv
    obtain rfl : result = .ok plugins := hok
    rfl

/-- The container is that of a configuration, and what it has installed is what a check
    finds. -/
structure Finds (storage : Storage) (config : Config) (name : String) (c : Container) : Prop where
  installer : c.installer = ⟨name, some config, .md5⟩
  unset : c.installed = false → c.plugins = .empty
  installed : c.installed = true → runnable storage config name = .ok c.plugins

/-- The containers of a registry find what a check finds. -/
def Follows (storage : Storage) (config : Config) (r : Registry) : Prop :=
  ∀ name c, r.kept name = .ok c → Finds storage config name c

/-- The container of a host after its setup. -/
def settled (storage : Storage) (config : Config) (name : String) (c : Container) : Container :=
  match runnable storage config name with
  | .ok plugins => { c with plugins, installed := true }
  | .error _ => c

theorem settled_settled (c : Container) :
    settled storage config name (settled storage config name c) = settled storage config name c := by
  unfold settled
  cases runnable storage config name <;> rfl

/-- A setup answers what a check says, whether or not it was done before. -/
theorem Finds.setup_eq {c : Container} (h : Finds storage config name c) :
    (c.setup storage).result = (fun _ => ()) <$> runnable storage config name ∧
      (c.setup storage).container = settled storage config name c := by
  have hfound : runnable storage config name
      = (c.installer.install storage c.installer.resolve).outcome := by
    rw [runnable, h.installer]
  unfold Container.setup settled
  -- What was set up before is not looked at again, but would be found the same.
  by_cases hi : c.isInstalled = true
  · rw [if_pos hi, h.installed hi]
    refine ⟨rfl, ?_⟩
    have htrue : c.installed = true := hi
    simp only [← htrue]
  · rw [if_neg hi, hfound]
    rcases (c.installer.install storage c.installer.resolve) with ⟨_ | plugins, asked⟩ <;>
      exact ⟨rfl, rfl⟩

/-- Only what a check finds can have been installed. -/
theorem Finds.settled {c : Container} (h : Finds storage config name c) :
    Finds storage config name (settled storage config name c) := by
  unfold Checking.settled
  cases hrun : runnable storage config name with
  | error e => exact h
  | ok plugins => exact ⟨h.installer, (nomatch ·), fun _ => hrun⟩

theorem policy_settled (c : Container) : (settled storage config name c).policy = c.policy := by
  unfold settled
  cases runnable storage config name <;> rfl

/-- After its setup a container has what a check finds. -/
theorem Finds.installed_settled {c : Container} (h : Finds storage config name c) :
    (Checking.settled storage config name c).isInstalled
        = (runnable storage config name).isOk ∧
      (Checking.settled storage config name c).plugins
        = (runnable storage config name).toOption.getD .empty := by
  unfold Checking.settled
  cases hrun : runnable storage config name with
  | error e =>
    -- What fails now cannot have been installed before.
    have hnot : c.installed = false := by
      refine Bool.eq_false_iff.2 fun hset => ?_
      rw [h.installed hset] at hrun
      cases hrun
    exact ⟨hnot, h.unset hnot⟩
  | ok plugins => exact ⟨rfl, rfl⟩

theorem Follows.setup_eq (h : Follows storage config r) {c : Container} (hc : r.kept name = .ok c) :
    r.setup storage name = ((fun _ => ()) <$> runnable storage config name,
      r.setContainer name (settled storage config name c)) := by
  obtain ⟨hresult, hcontainer⟩ := (h name c hc).setup_eq
  rw [Registry.setup, hc]
  simp only [hresult, hcontainer]

theorem Follows.setContainer (h : Follows storage config r) {c : Container}
    (hc : r.kept name = .ok c) :
    Follows storage config (r.setContainer name (settled storage config name c)) := by
  intro other d hd
  rw [Registry.kept_setContainer] at hd
  by_cases hn : other = name
  · rw [if_pos hn] at hd
    rw [← Except.ok.inj hd, hn]
    exact (h name c hc).settled
  · rw [if_neg hn] at hd
    exact h other d hd

/-! ## All hosts -/

/-- What setting up hosts one after another comes to: the failures are those that a
    check reports, and every container that was reached has what a check finds. -/
theorem Follows.setupEach {names : List String} (h : Follows storage config r)
    (hkept : ∀ name ∈ names, ∃ c, r.kept name = .ok c) :
    (r.setupEach storage names).1 = failures (verdicts storage config names) ∧
      (r.setupEach storage names).2.hosts = r.hosts ∧
      ∀ name c, r.kept name = .ok c → (r.setupEach storage names).2.kept name
        = .ok (if name ∈ names then settled storage config name c else c) := by
  induction names generalizing r with
  | nil => exact ⟨rfl, rfl, fun name c hc => hc⟩
  | cons n names ih =>
    obtain ⟨c₀, hc₀⟩ := hkept n List.mem_cons_self
    have hfollows := h.setContainer hc₀
    -- A container that was there still is, and only that of this name has changed.
    have hstill : ∀ name c, r.kept name = .ok c →
        (r.setContainer n (settled storage config n c₀)).kept name
          = .ok (if name = n then settled storage config name c else c) := by
      intro name c hc
      rw [Registry.kept_setContainer]
      by_cases hn : name = n
      · subst hn
        obtain rfl : c₀ = c := Except.ok.inj (hc₀.symm.trans hc)
        rw [if_pos rfl, if_pos rfl]
      · rw [if_neg hn, if_neg hn, hc]
    obtain ⟨hfailures, hhosts, hrest⟩ := ih hfollows fun name hname => by
      obtain ⟨c, hc⟩ := hkept name (List.mem_cons_of_mem _ hname)
      exact ⟨_, hstill name c hc⟩
    have hregistry : (r.setupEach storage (n :: names)).2
        = ((r.setContainer n (settled storage config n c₀)).setupEach storage names).2 := by
      rw [Registry.setupEach, h.setup_eq hc₀]
      cases runnable storage config n <;> rfl
    refine ⟨?_, by rw [hregistry]; exact hhosts, fun name c hc => ?_⟩
    · have hverdicts : verdicts storage config (n :: names)
          = (n, runnable storage config n) :: verdicts storage config names := rfl
      rw [hverdicts, Registry.setupEach, h.setup_eq hc₀]
      cases hrun : runnable storage config n with
      | error e =>
        rw [failures_cons_of_error, ← hfailures]
        rfl
      | ok plugins =>
        rw [failures_cons_of_ok, ← hfailures]
        rfl
    · rw [hregistry, hrest name _ (hstill name c hc)]
      by_cases hn : name = n
      · rw [if_pos hn, settled_settled, ite_self, if_pos (hn ▸ List.mem_cons_self)]
      · simp only [List.mem_cons, hn, false_or, if_false]

/-! ## The hosts of a command -/

/-- The hosts that are served go by the configuration and by MD5. -/
theorem follows_makeHosts (storage : Storage) (config : Config) (address : String)
    (names : List String) (policy : Retry.Policy) :
    Follows storage config (.ofHosts (makeHosts config address names) policy) := by
  intro name c hc
  rw [Registry.kept_eq_ok_iff, Registry.get?_containers_ofHosts, Option.map_eq_some_iff] at hc
  obtain ⟨x, hx, rfl⟩ := hc
  obtain ⟨hmem, rfl⟩ := Registry.mem_of_lastHost? hx
  obtain ⟨y, -, rfl⟩ := List.mem_map.1 hmem
  -- Nothing is installed yet.
  exact ⟨rfl, fun _ => rfl, fun hset => by cases hset⟩

/-- Every name that is asked for has a container. -/
theorem exists_kept_makeHosts (config : Config) (address : String) {names : List String}
    (policy : Retry.Policy) (hname : name ∈ names) :
    ∃ c, (Registry.ofHosts (makeHosts config address names) policy).kept name = .ok c ∧
      c.policy = policy := by
  rw [← names_makeHosts config address names] at hname
  obtain ⟨x, hx, rfl⟩ := List.mem_map.1 hname
  obtain ⟨c, hc⟩ := (Registry.serves_ofHosts _ policy).exists_kept_iff.2 ⟨x, hx, rfl⟩
  refine ⟨c, hc, ?_⟩
  rw [Registry.kept_eq_ok_iff, Registry.get?_containers_ofHosts, Option.map_eq_some_iff] at hc
  obtain ⟨y, -, rfl⟩ := hc
  rfl

section
variable {names : List String} {policy : Retry.Policy}

/-- An installation answers by the failures alone. -/
theorem install_eq (storage : Storage) (config : Config) (address : String) (names : List String)
    (policy : Retry.Policy) :
    (Registry.ofHosts (makeHosts config address names) policy).install storage
      = match failures (verdicts storage config names) with
        | [] => .ok ((Registry.ofHosts (makeHosts config address names) policy).setupEach
            storage names).2
        | fs => .error (.setupFailed fs) := by
  have hnames : (Registry.ofHosts (makeHosts config address names) policy).hosts.map (·.name)
      = names := names_makeHosts config address names
  have hfailures := ((follows_makeHosts storage config address names policy).setupEach
    fun name hname => (exists_kept_makeHosts config address policy hname).imp fun _ h => h.1).1
  rw [Registry.install, hnames, ← hfailures]
  rcases (Registry.ofHosts (makeHosts config address names) policy).setupEach storage names with
    ⟨_ | ⟨f, fs⟩, r'⟩ <;> rfl

/-- Each host has been set up as far as it can be. -/
theorem exists_kept_setupEach (storage : Storage) (config : Config) (address : String)
    (policy : Retry.Policy) (hname : name ∈ names) :
    ∃ c, ((Registry.ofHosts (makeHosts config address names) policy).setupEach
      storage names).2.kept name = .ok c ∧
        c.isInstalled = (runnable storage config name).isOk ∧
        c.plugins = (runnable storage config name).toOption.getD .empty ∧ c.policy = policy := by
  have hfollows := follows_makeHosts storage config address names policy
  obtain ⟨-, -, hkept⟩ := hfollows.setupEach
    fun name hname => (exists_kept_makeHosts config address policy hname).imp fun _ h => h.1
  obtain ⟨c, hc, hpolicy⟩ := exists_kept_makeHosts config address policy hname
  have hc' := hkept name c hc
  rw [if_pos hname] at hc'
  obtain ⟨hinstalled, hplugins⟩ := (hfollows name c hc).installed_settled
  exact ⟨_, hc', hinstalled, hplugins, (policy_settled c).trans hpolicy⟩

end

end Checking
end PluginHost
