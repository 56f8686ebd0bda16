/-
  PluginHost.Proofs.Authorization

  Which programs are ever asked for.  A registry made of hosts is used in any
  way, at moments between which everything else may change: files, digests,
  processes, runners.

    * A container knows no plugin but those of its one installation, so what it
      asks a runner for was checked then (`requests_authorized`).
    * Nothing that is done later reads the configuration or the files again.

  The history of a registry is kept the last moment first, and each moment is
  looked at in the registry that the earlier ones have left.
-/
import PluginHost.Proofs.Calls

namespace PluginHost

/-! ## Installing -/

namespace Installer

variable {i : Installer} {storage : Storage} {name : String} {p : PluginMeta}

/-- An allowed plugin is listed under the host, and defined. -/
theorem of_get?_allowed {config : Config} {host : String}
    (h : (allowed config host).get? name = some p) :
    ∃ entry e, config.hosts.get? host = some entry ∧ name ∈ entry.plugins ∧
      config.plugins.get? name = some e ∧ p = PluginMeta.ofEntry e := by
  unfold allowed at h
  cases hh : config.hosts.get? host with
  | none =>
    rw [hh, NameMap.get?_empty] at h
    cases h
  | some entry =>
    rw [hh] at h
    obtain ⟨n, hn, hpair⟩ := List.mem_filterMap.1 (NameMap.mem_of_get?_ofList h)
    obtain ⟨e, he, heq⟩ := Option.map_eq_some_iff.1 hpair
    obtain ⟨rfl, rfl⟩ := Prod.mk.inj heq
    exact ⟨entry, e, rfl, hn, he, rfl⟩

/-! ### One question after another -/

/-- The answers to questions, one after another. -/
def askEach {σ : Type} (digest : String → σ → Except IoFault String × σ) :
    List String → σ → List (Except IoFault String) × σ
  | [], s => ([], s)
  | file :: files, s =>
    let (answer, s) := digest file s
    let (answers, s) := askEach digest files s
    (answer :: answers, s)

/-- Whether an answer is the digest that is declared of a plugin. -/
def confirms (p : PluginMeta) : Except IoFault String → Bool
  | .ok d => sameDigest d p.digest
  | .error _ => false

/-- Those of some plugins whose files are there. -/
def found (storage : Storage) (es : List (String × PluginMeta)) : List (String × PluginMeta) :=
  es.filter fun e => storage.isPresent e.2.file

/-- Whoever is asked, and whatever it remembers: the files that are there are asked for, one
    after another, and a plugin is kept exactly if its own answer is the digest declared. -/
theorem inspectEach_eq {σ : Type} (digest : String → σ → Except IoFault String × σ)
    (storage : Storage) (es : List (String × PluginMeta)) (s : σ) :
    inspectEach digest storage es s =
      let asked := askEach digest ((found storage es).map (·.2.file)) s
      (((found storage es).zip asked.1).filterMap fun (e, a) =>
        if confirms e.2 a then some e else none, asked.2) := by
  induction es generalizing s with
  | nil => rfl
  | cons e es ih =>
    by_cases hpresent : storage.isPresent e.2.file = true
    · have hfound : found storage (e :: es) = e :: found storage es := by simp [found, hpresent]
      rw [inspectEach, inspect, if_pos hpresent, hfound]
      rcases hasked : digest e.2.file s with ⟨fault | d, s'⟩
      · simp [askEach, hasked, ih, confirms]
      · cases hsame : sameDigest d e.2.digest <;> simp [askEach, hasked, ih, confirms, hsame]
    · have hfound : found storage (e :: es) = found storage es := by simp [found, hpresent]
      rw [inspectEach, inspect, if_neg hpresent, hfound]
      simp [ih]

/-- A check that remembers nothing gives each file its own answer. -/
theorem askEach_noting (i : Installer) (storage : Storage) (files asked : List String) :
    askEach (i.noting storage) files asked = (files.map (i.check storage), asked ++ files) := by
  induction files generalizing asked with
  | nil => rw [askEach, List.map_nil, List.append_nil]
  | cons file files ih => simp [askEach, noting, ih]

/-- Whether a plugin has its file, with the digest that is declared. -/
def accepts (i : Installer) (storage : Storage) (p : PluginMeta) : Bool :=
  storage.isPresent p.file && confirms p (i.check storage p.file)

/-- The plugins that are kept. -/
def survivors (i : Installer) (storage : Storage) (plugins : PluginSet) : PluginSet :=
  plugins.filterMap fun _ p => if i.accepts storage p then some p else none

theorem accepts_iff : i.accepts storage p = true ↔ storage.isPresent p.file = true ∧
    ∃ d, i.check storage p.file = .ok d ∧ sameDigest d p.digest = true := by
  rw [accepts, Bool.and_eq_true]
  refine and_congr_right fun _ => ?_
  cases i.check storage p.file <;> simp [confirms]

/-- What an installation comes to, if there is a configuration. -/
theorem install_some (i : Installer) (storage : Storage) (plugins : PluginSet) :
    i.install storage (some plugins) =
      ⟨if (i.survivors storage plugins).isEmpty then .error .noPluginsAvailable
        else .ok (i.survivors storage plugins),
        (found storage plugins.entries).map (·.2.file)⟩ := by
  have hkept : ((found storage plugins.entries).zip
      ((found storage plugins.entries).map fun e => i.check storage e.2.file)).filterMap
        (fun (e, a) => if confirms e.2 a then some e else none)
        = (i.survivors storage plugins).entries := by
    rw [survivors, NameMap.entries_filterMap_ite, found]
    induction plugins.entries with
    | nil => rfl
    | cons e es ih =>
      by_cases hpresent : storage.isPresent e.2.file = true
      · cases hconfirmed : confirms e.2 (i.check storage e.2.file) <;>
          simpa [accepts, hpresent, hconfirmed] using ih
      · simpa [accepts, hpresent] using ih
  have hdone : inspectEach (i.noting storage) storage plugins.entries [] =
      ((i.survivors storage plugins).entries, (found storage plugins.entries).map (·.2.file)) := by
    rw [inspectEach_eq, askEach_noting, List.map_map, List.nil_append, ← hkept]
    rfl
  simp only [install, hdone, NameMap.ofList_of_perm (.refl _)]
  rfl

/-- An installed plugin was allowed and accepted. -/
theorem of_install {plugins : PluginSet}
    (h : (i.install storage i.resolve).outcome = .ok plugins) (hp : plugins.get? name = some p) :
    ∃ config, i.config = some config ∧ (allowed config i.host).get? name = some p ∧
      i.accepts storage p = true := by
  unfold resolve at h
  cases hc : i.config with
  | none =>
    rw [hc] at h
    cases h
  | some config =>
    rw [hc, Option.map_some, install_some] at h
    dsimp only at h
    -- An installation that accepts nothing fails.
    split at h
    · cases h
    · rw [← Except.ok.inj h, survivors, NameMap.get?_filterMap_eq_some_iff] at hp
      obtain ⟨q, hq, hacc⟩ := hp
      split at hacc
      · rename_i haccepted
        obtain rfl : q = p := Option.some.inj hacc
        exact ⟨config, rfl, hq, haccepted⟩
      · cases hacc

end Installer

namespace Authorization

/-! ## Histories -/

/-- What is asked of the container of a host, directly or by way of its
    registry. -/
inductive Operation where
  | setup
  | run (plugin : String) (port : UInt16)
  /-- A handle on a plugin that is known is made, without starting it. -/
  | get (plugin : String) (port : UInt16)
  /-- A handle on a plugin is made, and the plugin is started if need be. -/
  | handle (plugin : String)
  /-- A process was found dead. -/
  | restart (plugin : String) (pid : Nat)
  /-- A runner has answered, for a start that waited for it. -/
  | finish (l : Launch)

/-- An operation, and everything that runs when it is performed. -/
structure Moment where
  system : System
  host : String
  operation : Operation

/-- What a moment leaves. -/
def Moment.perform (r : Registry) (m : Moment) : Registry × System :=
  match m.operation with
  | .setup => ((r.setup m.system.storage m.host).2, m.system)
  | .run plugin port =>
    match r.kept m.host with
    | .ok c => (r, (c.beginRun m.system plugin port).2)
    | .error _ => (r, m.system)
  | .get .. => (r, m.system)
  | .handle plugin => (r, (r.beginHandle m.system m.host plugin).2)
  | .restart plugin pid => (r, (r.beginRestart m.system ⟨m.host, plugin, pid⟩).2)
  | .finish l => (r, (Container.finishRun m.system l).2)

/-- The request that an event of a journal is about. -/
def request? : Nat × Event → Option SpawnRequest
  | (_, .requested _ q) => some q
  | _ => none

/-- What runners were asked for at a moment: the requests that its journal has
    more than before. -/
def Moment.passed (r : Registry) (m : Moment) : List SpawnRequest :=
  let journal := (m.perform r).2.journal
  (journal.take (journal.length - m.system.journal.length)).filterMap request?

/-- The registry of hosts after the moments of a history. -/
def after (hosts : List Host) (policy : Retry.Policy) : List Moment → Registry
  | [] => .ofHosts hosts policy
  | m :: earlier => (m.perform (after hosts policy earlier)).1

/-- A moment is the setup by which the container of a host got its plugins. -/
structure Installs (r : Registry) (m : Moment) (host : String) : Prop where
  place : m.host = host
  operation : m.operation = .setup
  fresh : ∀ c, r.kept host = .ok c → c.isInstalled = false
  success : (r.setup m.system.storage host).1 = .ok ()

/-- What a host may ask a runner for: a plugin that its configuration lists under
    it and defines as `e`, whose file was there with the digest declared, to be
    started as `e` says. -/
structure Authorized (h : Host) (storage : Storage) (config : Config) (e : Config.PluginEntry)
    (q : SpawnRequest) : Prop where
  configured : h.config = some config
  listed : ∃ entry, config.hosts.get? h.name = some entry ∧ q.name ∈ entry.plugins
  defined : config.plugins.get? q.name = some e
  present : storage.isPresent e.file = true
  verified : ∃ d, h.check storage e.file = .ok d ∧ sameDigest d e.digest = true
  command : q.command = e.command
  arguments : q.arguments = e.arguments
  grace : q.grace = e.graceSeconds.toNat * 1000

/-! ## What a moment asks for -/

/-- No runner was asked for anything, or one of them for a plugin that a container
    knows. -/
def AsksFor (c : Container) (s s' : System) : Prop :=
  s'.journal = s.journal ∨ ∃ plugin p port time label, c.info plugin = .ok p ∧
    s'.journal = (time, .requested label (Container.request plugin p port)) :: s.journal

theorem beginRun_asksFor (c : Container) (s : System) (plugin : String) (port : UInt16) :
    AsksFor c s (c.beginRun s plugin port).2 := by
  cases hrun : (c.beginRun s plugin port).1 with
  | error e => exact Or.inl (by rw [Container.beginRun_of_error hrun])
  | ok l =>
    obtain ⟨p, hp, -, hask⟩ := Container.beginRun_eq_ok_iff.1 (Prod.ext hrun rfl)
    obtain ⟨-, -, -, hjournal, -⟩ :=
      System.askRunner_spec s c.pool (Container.request plugin p port)
    rw [hask] at hjournal
    exact Or.inr ⟨plugin, p, port, _, _, hp, hjournal⟩

theorem beginHandle_asksFor {r : Registry} {host : String} {c : Container}
    (hc : r.kept host = .ok c) (s : System) (plugin : String) :
    AsksFor c s (r.beginHandle s host plugin).2 := by
  rcases r.beginHandle_cases s host plugin with hs | ⟨route, hroute, hs⟩
  · exact Or.inl (by rw [hs])
  · have hkept := (Registry.container_eq_ok_iff.1 (Registry.container_of_route hroute)).2
    obtain rfl : c = route.container := Except.ok.inj (hc.symm.trans hkept)
    rw [hs]
    exact beginRun_asksFor _ s plugin _

theorem beginRestart_asksFor {r : Registry} (signal : Signal) {c : Container}
    (hc : r.kept signal.host = .ok c) (s : System) :
    AsksFor c s (r.beginRestart s signal).2 := by
  -- A killing on the way asks for nothing.
  rcases r.beginRestart_cases s signal with hnone | ⟨c', port, -, hcont, -, hrest⟩
  · exact Or.inl (by rw [hnone])
  · have hkept := (Registry.container_eq_ok_iff.1 hcont).2
    obtain rfl : c = c' := Except.ok.inj (hc.symm.trans hkept)
    have hkill := (System.kill_kills s c.pool signal.plugin).journal
    rcases hrest with ⟨e, -, hnone⟩ | ⟨l, s', -, hrun, hsome⟩
    · rw [hnone]
      exact Or.inl hkill
    · have hasks := beginRun_asksFor c (s.kill c.pool signal.plugin).2 signal.plugin port
      rw [hsome]
      rw [AsksFor, hrun, hkill] at hasks
      exact hasks

/-- Without a container nothing is asked for. -/
theorem journal_of_kept_error {r : Registry} {m : Moment} {e : Error}
    (h : r.kept m.host = .error e) : (m.perform r).2.journal = m.system.journal := by
  have hcont : ∀ c, r.container m.host ≠ .ok c := fun c hc => by
    rw [(Registry.container_eq_ok_iff.1 hc).2] at h
    cases h
  unfold Moment.perform
  split
  · rfl
  · rw [h]
  · rfl
  · rename_i plugin hop
    rcases r.beginHandle_cases m.system m.host plugin with hs | ⟨route, hroute, -⟩
    · rw [hs]
    · exact absurd (Registry.container_of_route hroute) (hcont _)
  · rename_i plugin pid hop
    rcases r.beginRestart_cases m.system ⟨m.host, plugin, pid⟩ with hnone | ⟨c, -, -, hc, -⟩
    · rw [hnone]
    · exact absurd hc (hcont c)
  · exact Container.finishRun_journal m.system _

/-- One moment asks for one plugin at most, and only for one that the container of
    its host knows. -/
theorem perform_asksFor {r : Registry} {m : Moment} {c : Container} (hc : r.kept m.host = .ok c) :
    AsksFor c m.system (m.perform r).2 := by
  unfold Moment.perform
  split
  · exact Or.inl rfl
  · rw [hc]
    exact beginRun_asksFor c m.system _ _
  · exact Or.inl rfl
  · exact beginHandle_asksFor hc m.system _
  · exact beginRestart_asksFor ⟨m.host, _, _⟩ hc m.system
  · exact Or.inl (Container.finishRun_journal m.system _)

theorem passed_of_journal {r : Registry} {m : Moment}
    (h : (m.perform r).2.journal = m.system.journal) : m.passed r = [] := by
  simp [Moment.passed, h]

/-- What is asked for at a moment is a plugin that the container of its host
    knows. -/
theorem known_of_mem_passed {r : Registry} {m : Moment} {q : SpawnRequest}
    (hq : q ∈ m.passed r) :
    ∃ c plugin p port, r.kept m.host = .ok c ∧ c.info plugin = .ok p ∧
      q = Container.request plugin p port := by
  cases hc : r.kept m.host with
  | error e =>
    rw [passed_of_journal (journal_of_kept_error hc)] at hq
    cases hq
  | ok c =>
    rcases perform_asksFor hc with hsame | ⟨plugin, p, port, time, label, hp, hmore⟩
    · rw [passed_of_journal hsame] at hq
      cases hq
    · have hone : m.passed r = [Container.request plugin p port] := by
        simp [Moment.passed, hmore, request?]
      rw [hone, List.mem_singleton] at hq
      exact ⟨c, plugin, p, port, rfl, hp, hq⟩

/-! ## The invariant -/

section
variable {hosts : List Host} {policy : Retry.Policy}

/-- What a container has installed, it has installed at one of the earlier
    moments, from its own host's configuration. -/
structure Inv (hosts : List Host) (policy : Retry.Policy) (earlier : List Moment) (name : String)
    (c : Container) (h : Host) : Prop where
  known : h ∈ hosts
  named : h.name = name
  origin : (Registry.ofHosts hosts policy).kept name = .ok (h.container policy)
  installer : c.installer = ⟨h.name, h.config, h.check⟩
  unset : c.installed = false → c.plugins = .empty
  installed : c.installed = true →
    ∃ later m before, earlier = later ++ m :: before ∧
      Installs (after hosts policy before) m name ∧
      (c.installer.install m.system.storage c.installer.resolve).outcome = .ok c.plugins

/-- A moment later the same moments are among the earlier ones. -/
theorem Inv.cons {earlier : List Moment} {name : String} {c : Container} {h : Host}
    (inv : Inv hosts policy earlier name c h) (m : Moment) :
    Inv hosts policy (m :: earlier) name c h where
  known := inv.known
  named := inv.named
  origin := inv.origin
  installer := inv.installer
  unset := inv.unset
  installed hset := by
    obtain ⟨later, m', before, hsplit, hrest⟩ := inv.installed hset
    exact ⟨m :: later, m', before, by rw [hsplit, List.cons_append], hrest⟩

/-- Only a setup changes a registry, and only the container of its host. -/
theorem perform_kept {r : Registry} {m : Moment} {name : String} {c : Container}
    (h : (m.perform r).1.kept name = .ok c) :
    r.kept name = .ok c ∨ (m.operation = .setup ∧ m.host = name ∧
      ∃ c₀, r.kept name = .ok c₀ ∧ c = (c₀.setup m.system.storage).container ∧
        (r.setup m.system.storage name).1 = (c₀.setup m.system.storage).result) := by
  unfold Moment.perform at h
  split at h
  · rename_i hop
    unfold Registry.setup at h
    cases hc : r.kept m.host with
    | error e =>
      rw [hc] at h
      exact Or.inl h
    | ok c₀ =>
      rw [hc] at h
      simp only [Registry.kept_setContainer] at h
      by_cases hn : name = m.host
      · rw [if_pos hn] at h
        refine Or.inr ⟨hop, hn.symm, c₀, by rw [hn, hc], (Except.ok.inj h).symm, ?_⟩
        rw [Registry.setup, hn, hc]
      · rw [if_neg hn] at h
        exact Or.inl h
  · split at h <;> exact Or.inl h
  all_goals exact Or.inl h

/-- What is kept under a name comes from a host of that name, and knows what it
    knows by one setup. -/
theorem exists_inv (earlier : List Moment) {name : String} {c : Container}
    (hc : (after hosts policy earlier).kept name = .ok c) :
    ∃ h, Inv hosts policy earlier name c h := by
  induction earlier generalizing c with
  | nil =>
    -- Nothing is installed yet, whichever host of that name the container is of.
    obtain ⟨h, hmem, hpair⟩ :=
      List.mem_map.1 (NameMap.mem_of_get?_ofList (Registry.kept_eq_ok_iff.1 hc))
    obtain ⟨hname, rfl⟩ := Prod.mk.inj hpair
    exact ⟨h, hmem, hname, hc, rfl, fun _ => rfl, fun hset => by cases hset⟩
  | cons m before ih =>
    rcases perform_kept hc with hold | ⟨hop, hhost, c₀, hold, rfl, hresult⟩
    · obtain ⟨h, inv⟩ := ih hold
      exact ⟨h, inv.cons m⟩
    · obtain ⟨h, inv⟩ := ih hold
      rcases c₀.setup_cases m.system.storage with hsame | ⟨plugins, hnone, hok, hres, hset⟩
      · -- A setup that fails, or that comes after one that succeeded.
        rw [hsame]
        exact ⟨h, inv.cons m⟩
      · -- This moment is the installation.
        rw [hset]
        refine ⟨h, inv.known, inv.named, inv.origin, inv.installer, (nomatch ·),
          fun _ => ?_⟩
        refine ⟨[], m, before, rfl, ⟨hhost, hop, fun c' hc' => ?_, by rw [hresult, hres]⟩, hok⟩
        obtain rfl : c₀ = c' := Except.ok.inj (hold.symm.trans hc')
        exact hnone

/-! ## No other programs -/

/-- A request for an installed plugin is authorized by the installation. -/
theorem authorized_of_install {h : Host} {storage : Storage} {i : Installer}
    (hi : i = ⟨h.name, h.config, h.check⟩) {plugins : PluginSet} {plugin : String} {p : PluginMeta}
    (hinst : (i.install storage i.resolve).outcome = .ok plugins)
    (hp : plugins.get? plugin = some p) (port : UInt16) :
    ∃ config e, Authorized h storage config e (Container.request plugin p port) := by
  obtain ⟨config, hconfig, hallowed, haccepted⟩ := Installer.of_install hinst hp
  obtain ⟨entry, e, hentry, hlisted, he, rfl⟩ := Installer.of_get?_allowed hallowed
  obtain ⟨hpresent, hverified⟩ := Installer.accepts_iff.1 haccepted
  subst hi
  exact ⟨config, e, hconfig, ⟨entry, hentry, hlisted⟩, he, hpresent, hverified, rfl, rfl, rfl⟩

/-- Whatever is done with a registry, its containers ask for nothing but what was
    authorized when their plugins were installed, and for nothing at all before a
    setup has succeeded. -/
theorem requests_authorized (hosts : List Host) (policy : Retry.Policy) (earlier : List Moment)
    (m : Moment) :
    (∀ q ∈ m.passed (after hosts policy earlier), ∃ h ∈ hosts,
      (Registry.ofHosts hosts policy).kept m.host = .ok (h.container policy) ∧
      ∃ later setup before, earlier = later ++ setup :: before ∧
        Installs (after hosts policy before) setup m.host ∧
        ∃ config e, Authorized h setup.system.storage config e q) ∧
    ((∀ later setup before, earlier = later ++ setup :: before → setup.operation = .setup →
        setup.host = m.host →
        ((after hosts policy before).setup setup.system.storage m.host).1 ≠ .ok ()) →
      m.passed (after hosts policy earlier) = []) := by
  have hall : ∀ q ∈ m.passed (after hosts policy earlier), ∃ h ∈ hosts,
      (Registry.ofHosts hosts policy).kept m.host = .ok (h.container policy) ∧
      ∃ later setup before, earlier = later ++ setup :: before ∧
        Installs (after hosts policy before) setup m.host ∧
        ∃ config e, Authorized h setup.system.storage config e q := by
    intro q hq
    obtain ⟨c, plugin, p, port, hc, hp, rfl⟩ := known_of_mem_passed hq
    obtain ⟨h, inv⟩ := exists_inv earlier hc
    rw [Container.info_eq_ok_iff] at hp
    cases hi : c.installed with
    | false =>
      -- Without an installation no plugin is known.
      rw [inv.unset hi] at hp
      cases hp
    | true =>
      obtain ⟨later, setup, before, hsplit, hinstalls, hok⟩ := inv.installed hi
      exact ⟨h, inv.known, inv.origin, later, setup, before, hsplit, hinstalls,
        authorized_of_install inv.installer hok hp port⟩
  refine ⟨hall, fun hnever => List.eq_nil_iff_forall_not_mem.2 fun q hq => ?_⟩
  obtain ⟨-, -, -, later, setup, before, hsplit, hinstalls, -⟩ := hall q hq
  exact hnever later setup before hsplit hinstalls.operation hinstalls.place hinstalls.success

end

/-! ## One plugin -/

/-- A host that may start one plugin, which is given two seconds. -/
def echoHost : Host where
  name := "host"
  config := some {
    plugins := .ofList [("echo", {
      digest := "ab", command := "run", arguments := ["-v"], file := "echo", graceSeconds := 2,
      protocol := "http" })]
    hosts := .ofList [("host", { plugins := ["echo"] })] }
  check := .fixed "AB"
  pool := 0

/-- The host is set up while the file of the plugin is there. -/
def echoSetup : Moment where
  system := { storage := { known := [("echo", .file [])] } }
  host := "host"
  operation := .setup

/-- The plugin is started after the file has gone. -/
def echoRun : Moment where
  system := {}
  host := "host"
  operation := .run "echo" 7

def echoRequest : SpawnRequest where
  name := "echo"
  command := "run"
  arguments := ["-v"]
  port := 7
  grace := 2000

theorem echo_request_authorized :
    echoRun.passed (after [echoHost] {} [echoSetup]) = [echoRequest] ∧
    ∃ h ∈ [echoHost], ∃ later setup before, [echoSetup] = later ++ setup :: before ∧
      ∃ config e, Authorized h setup.system.storage config e echoRequest := by
  have hpassed : echoRun.passed (after [echoHost] {} [echoSetup]) = [echoRequest] := by
    decide +kernel
  refine ⟨hpassed, ?_⟩
  obtain ⟨h, hh, -, later, setup, before, hsplit, -, hauth⟩ :=
    (requests_authorized [echoHost] {} [echoSetup] echoRun).1 echoRequest
      (hpassed ▸ List.mem_cons_self)
  exact ⟨h, hh, later, setup, before, hsplit, hauth⟩

end Authorization
end PluginHost
