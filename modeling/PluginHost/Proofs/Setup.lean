/-
  PluginHost.Proofs.Setup

  A container over its whole life.  It is set up, its plugins are started, called and
  killed, in any order and as often as one likes, while everything else changes as it
  likes: the files, the processes, the answers of the check (`Container.Operation`).

    * A setup that fails changes nothing, so that the next one starts over.
    * One that succeeds is the last one that does anything.

  Only a setup writes to a container (`perform_container`), and only one that finds
  nothing installed.  So the installation is the same ever after (`installed_after`).
-/
import PluginHost.Proofs.Authorization
import PluginHost.Proofs.NameMap

namespace PluginHost

/-- An installation never comes to an empty set of plugins. -/
theorem Installer.isEmpty_of_install {i : Installer} {storage : Storage}
    {allowed : Option PluginSet} {plugins : PluginSet}
    (h : (i.install storage allowed).outcome = .ok plugins) : plugins.isEmpty = false := by
  cases allowed with
  | none => cases h
  | some allowed =>
    rw [install_some] at h
    dsimp only at h
    split at h
    · cases h
    · rename_i hne
      rw [← Except.ok.inj h]
      simpa using hne

namespace Container

/-! ## Operations -/

/-- What is asked of a container, and what happens besides. -/
inductive Operation where
  | setup
  | run (plugin : String) (port : UInt16)
  /-- A runner has answered, for a run that waited for it. -/
  | finish (l : Launch)
  | get (plugin : String) (port : UInt16)
  | kill (plugin : String)
  | killAll
  /-- Everything around the container changes. -/
  | change (s : System)
  /-- From now on the check answers in another way. -/
  | answer (check : DigestCheck)

/-- A container, and everything that runs. -/
structure Usage where
  container : Container
  system : System

/-- What an operation leaves. -/
def Usage.perform (u : Usage) : Operation → Usage
  | .setup => { u with container := (u.container.setup u.system.storage).container }
  | .run plugin port => { u with system := (u.container.beginRun u.system plugin port).2 }
  | .finish l => { u with system := (finishRun u.system l).2 }
  | .get .. => u
  | .kill plugin => { u with system := (u.system.kill u.container.pool plugin).2 }
  | .killAll => { u with system := (u.system.killAll u.container.pool).2 }
  | .change s => { u with system := s }
  | .answer check =>
    { u with container := { u.container with installer := { u.container.installer with check } } }

/-- What operations leave, one after another. -/
def Usage.after (u : Usage) (operations : List Operation) : Usage :=
  operations.foldl Usage.perform u

/-! ## One setup -/

/-- The installation that a setup of the container would make. -/
def installation (c : Container) (storage : Storage) : Installer.Installation :=
  c.installer.install storage c.installer.resolve

theorem setup_of_installed {c : Container} (h : c.isInstalled = true) (storage : Storage) :
    c.setup storage = ⟨.ok (), c, []⟩ := by
  rw [setup, if_pos h]

theorem setup_of_error {c : Container} (h : c.isInstalled = false) {storage : Storage} {e : Error}
    (he : (c.installation storage).outcome = .error e) :
    c.setup storage = ⟨.error e, c, (c.installation storage).asked⟩ := by
  have hnot : ¬ c.isInstalled = true := by simp [h]
  rw [setup, if_neg hnot]
  unfold installation at he ⊢
  simp only [he]

theorem setup_of_ok {c : Container} (h : c.isInstalled = false) {storage : Storage}
    {plugins : PluginSet} (hp : (c.installation storage).outcome = .ok plugins) :
    c.setup storage =
      ⟨.ok (), { c with plugins, installed := true }, (c.installation storage).asked⟩ := by
  have hnot : ¬ c.isInstalled = true := by simp [h]
  rw [setup, if_neg hnot]
  unfold installation at hp ⊢
  simp only [hp]

/-! ## One operation -/

/-- A container with nothing installed has installed nothing or its plugins after the next
    operation; what it has installed it keeps. -/
inductive Settles (c c' : Container) : Prop
  | kept (installed : c'.installed = c.installed) (plugins : c'.plugins = c.plugins)
  | installed (before : c.installed = false) (nonempty : c'.plugins.isEmpty = false)
      (now : c'.installed = true)

theorem Usage.perform_settles (u : Usage) (op : Operation) :
    Settles u.container (u.perform op).container := by
  cases op with
  | setup =>
    show Settles _ (u.container.setup u.system.storage).container
    rcases u.container.setup_cases u.system.storage with hsame | ⟨plugins, hnone, hok, -, hset⟩
    · rw [hsame]
      exact .kept rfl rfl
    · rw [hset]
      exact .installed hnone (Installer.isEmpty_of_install hok) rfl
  | run plugin port => exact .kept rfl rfl
  | finish l => exact .kept rfl rfl
  | get plugin port => exact .kept rfl rfl
  | kill plugin => exact .kept rfl rfl
  | killAll => exact .kept rfl rfl
  | change s => exact .kept rfl rfl
  | answer check => exact .kept rfl rfl

/-! ## A whole life -/

/-- The two things that a setup writes fit together: there are plugins exactly if the
    installation has succeeded. -/
def Sound (c : Container) : Prop :=
  c.installed = !c.plugins.isEmpty

theorem Settles.sound {c c' : Container} (h : Settles c c') (hc : c.Sound) : c'.Sound := by
  cases h with
  | kept hinstalled hplugins => rw [Sound, hinstalled, hplugins, hc]
  | installed _ hne hnow => rw [Sound, hnow, hne, Bool.not_false]

theorem Usage.sound_after {u : Usage} (h : u.container.Sound) (ops : List Operation) :
    (u.after ops).container.Sound := by
  induction ops generalizing u with
  | nil => exact h
  | cons op ops ih => exact ih ((u.perform_settles op).sound h)

/-- Once there are plugins, they stay. -/
theorem Usage.installed_after {u : Usage} (h : u.container.isInstalled = true)
    (ops : List Operation) : (u.after ops).container.isInstalled = true ∧
      (u.after ops).container.plugins = u.container.plugins := by
  induction ops generalizing u with
  | nil => exact ⟨h, rfl⟩
  | cons op ops ih =>
    have hkept : (u.perform op).container.isInstalled = true ∧
        (u.perform op).container.plugins = u.container.plugins := by
      cases u.perform_settles op with
      | kept hinstalled hplugins => exact ⟨hinstalled.trans h, hplugins⟩
      | installed hnone _ _ => exact absurd (h.symm.trans hnone) Bool.true_eq_false.mp
    show ((u.perform op).after ops).container.isInstalled = true ∧ _
    rw [← hkept.2]
    exact ih hkept.1

theorem Sound.isInstalled_iff {c : Container} (h : c.Sound) :
    c.isInstalled = true ↔ c.plugins.isEmpty = false := by
  rw [isInstalled, h, Bool.not_eq_true']

/-- Of the installer nothing changes but the answers of its check. -/
theorem Usage.installer_after (u : Usage) (ops : List Operation) :
    ∃ check, (u.after ops).container.installer = { u.container.installer with check } := by
  induction ops generalizing u with
  | nil => exact ⟨_, rfl⟩
  | cons op ops ih =>
    have hstep : ∃ check,
        (u.perform op).container.installer = { u.container.installer with check } := by
      cases op with
      | setup =>
        refine ⟨u.container.installer.check, ?_⟩
        show (u.container.setup u.system.storage).container.installer = _
        rcases u.container.setup_cases u.system.storage with hsame | ⟨plugins, -, -, -, hset⟩
        · rw [hsame]
        · rw [hset]
      | answer check => exact ⟨check, rfl⟩
      | _ => exact ⟨_, rfl⟩
    obtain ⟨check, hcheck⟩ := hstep
    obtain ⟨check', hcheck'⟩ := ih (u.perform op)
    refine ⟨check', ?_⟩
    show ((u.perform op).after ops).container.installer = _
    rw [hcheck', hcheck]

/-! ## Atomic and final -/

/-- Nothing is installed.  A setup verifies every plugin and comes to what the installer
    comes to; if it fails, the container is as it was before. -/
structure Unset (c : Container) : Prop where
  plugins : c.plugins = .empty
  info : ∀ plugin, c.info plugin = .error (.pluginUnknown plugin)
  asked : ∀ storage, (c.setup storage).asked = (c.installation storage).asked
  failure : ∀ storage e, (c.installation storage).outcome = .error e →
    (c.setup storage).result = .error e ∧ (c.setup storage).container = c
  success : ∀ storage plugins, (c.installation storage).outcome = .ok plugins →
    (c.setup storage).result = .ok () ∧ (c.setup storage).container.isInstalled = true ∧
    (c.setup storage).container.plugins = plugins ∧ plugins.isEmpty = false

/-- What was installed in a container is what it answers with later on, and a setup has
    nothing to do any more. -/
structure Final (c later : Container) : Prop where
  installed : later.isInstalled = true
  nonempty : later.plugins.isEmpty = false
  plugins : later.plugins = c.plugins
  info : ∀ plugin, later.info plugin = c.info plugin
  setup : ∀ storage, later.setup storage = ⟨.ok (), later, []⟩

theorem Sound.unset {c : Container} (hsound : c.Sound) (h : c.isInstalled = false) :
    c.Unset := by
  have hplugins : c.plugins = .empty := by
    rw [isInstalled, hsound, Bool.not_eq_false'] at h
    exact NameMap.ext_get? (NameMap.isEmpty_eq_true_iff.1 h)
  constructor
  · exact hplugins
  · intro plugin
    rw [Container.info, hplugins, NameMap.get?_empty]
  · intro storage
    cases ho : (c.installation storage).outcome with
    | error e => rw [setup_of_error h ho]
    | ok plugins => rw [setup_of_ok h ho]
  · intro storage e ho
    rw [setup_of_error h ho]
    exact ⟨rfl, rfl⟩
  · intro storage plugins ho
    rw [setup_of_ok h ho]
    exact ⟨rfl, rfl, rfl, Installer.isEmpty_of_install ho⟩

theorem Usage.final_after {u : Usage} (hsound : u.container.Sound)
    (h : u.container.isInstalled = true) (later : List Operation) :
    Final u.container (u.after later).container := by
  obtain ⟨hinstalled, hplugins⟩ := installed_after h later
  constructor
  · exact hinstalled
  · rw [hplugins]
    exact hsound.isInstalled_iff.1 h
  · exact hplugins
  · intro plugin
    rw [Container.info, Container.info, hplugins]
  · exact setup_of_installed hinstalled

/-- Whatever has been done with a container that was made for an installer: either it has
    no plugins, and a setup does all or nothing, or it has some, and keeps them. -/
theorem setup_atomic_and_final (installer : Installer) (pool : Nat) (policy : Retry.Policy)
    (s : System) (ops : List Operation) :
    let u := Usage.after ⟨{ installer, pool, policy }, s⟩ ops
    (u.container.isInstalled = true ↔ u.container.plugins.isEmpty = false) ∧
    (∃ check, u.container.installer = { installer with check }) ∧
    (u.container.isInstalled = false → Unset u.container) ∧
    (u.container.isInstalled = true → ∀ later, Final u.container (u.after later).container) := by
  intro u
  have hsound : u.container.Sound := by
    apply Usage.sound_after
    exact rfl
  refine ⟨hsound.isInstalled_iff, Usage.installer_after _ ops, ?_, ?_⟩
  · exact hsound.unset
  · intro hinstalled later
    exact Usage.final_after hsound hinstalled later

/-! ## A check that fails at first -/

/-- The configuration of a host with one plugin. -/
def lateConfig : Config where
  plugins := .ofList [
    ("late", { digest := "0a", command := "run", file := "f", protocol := "rest" })]
  hosts := .ofList [("host", { plugins := ["late"] })]

/-- The file of the plugin is there. -/
def lateFile : System where
  storage := { known := [("f", .file [])] }

def lateUsage : Usage where
  container := { installer := ⟨"host", some lateConfig, .failing⟩, pool := 0 }
  system := lateFile

/-- As long as its file cannot be read, the plugin is not installed.  Once it has been, it
    stays so when the file has gone, and when it cannot be read any more. -/
theorem lateUsage_settled :
    Unset (lateUsage.after [.setup]).container ∧
    Final (lateUsage.after [.setup, .answer (.fixed "0A"), .setup]).container
      ((lateUsage.after [.setup, .answer (.fixed "0A"), .setup]).after
        [.change {}, .answer .failing, .setup]).container := by
  have hfirst := setup_atomic_and_final ⟨"host", some lateConfig, .failing⟩ 0 {} lateFile [.setup]
  have hsecond := setup_atomic_and_final ⟨"host", some lateConfig, .failing⟩ 0 {} lateFile
    [.setup, .answer (.fixed "0A"), .setup]
  have hunset : (lateUsage.after [.setup]).container.isInstalled = false := by decide +kernel
  have hinstalled : (lateUsage.after
      [.setup, .answer (.fixed "0A"), .setup]).container.isInstalled = true := by decide +kernel
  exact ⟨hfirst.2.2.1 hunset, hsecond.2.2.2 hinstalled _⟩

end Container
end PluginHost
