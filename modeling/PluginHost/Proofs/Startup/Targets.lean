/-
  PluginHost.Proofs.Startup.Targets

  Which plugins are started when hosts are served.  Three things are found out apart from
  one another, and have to be told of a plugin all at once: there are settings for it,
  its host has installed it, and there is a way to it.

  Each comes down to the configuration and the files (`Startable`):

    * `get?_connections_makeHost`: the settings are those of the plugins offered that
      have a port and speak the one protocol that needs no more.
    * `get?_installed_iff`: a container has installed what is offered and verified.
    * `mem_startTargets_iff`, `Startable.reached`: together.
-/
import PluginHost.Proofs.Checking
import PluginHost.Proofs.Handles
import PluginHost.Proofs.Installation
import PluginHost.Proofs.Supervision.Delivery

namespace PluginHost

theorem Protocol.parse_eq_ok_iff {s : String} {q : Protocol} :
    Protocol.parse s = .ok q ↔ q.name = s := by
  cases hp : Protocol.parse s with
  | ok p =>
    have hname : p.name = s := by
      unfold Protocol.parse at hp
      split at hp
      · rename_i p' hf
        rw [← Except.ok.inj hp]
        simpa using List.find?_some hf
      · cases hp
    constructor
    · intro h
      rw [← Except.ok.inj h]
      exact hname
    · intro h
      have hsame : p.name = q.name := hname.trans h.symm
      cases p <;> cases q <;> first | rfl | simp [Protocol.name] at hsame
  | error e =>
    have hno := (Protocol.parse_eq_error_iff.1 hp).1 q
    simp [hno]

namespace CommandLine

variable {config : Config} {storage : Storage} {names : List String} {address name plugin : String}
  {e : Config.PluginEntry} {port : UInt16} {r : Registry} {t : Target}

/-- A plugin that is to be started on a host, at its port: the host is among those that are
    served and lists it, it is defined as `e`, its file is there with the MD5 digest
    declared, and it can be reached. -/
structure Startable (config : Config) (storage : Storage) (names : List String) (t : Target)
    (e : Config.PluginEntry) (port : UInt16) : Prop where
  chosen : t.host ∈ names
  offered : config.Offers t.host t.plugin e
  verified : Installer.Verifies ⟨t.host, some config, .md5⟩ storage e
  protocol : e.protocol = "rest"
  port : e.port = some port

/-- A plugin is to be started in one way only. -/
theorem Startable.unique {e' : Config.PluginEntry} {port' : UInt16}
    (h : Startable config storage names t e port) (h' : Startable config storage names t e' port') :
    e = e' ∧ port = port' := by
  have he : e = e' := Option.some.inj (h.offered.defined.symm.trans h'.offered.defined)
  have hport : some port = some port' := by rw [← h.port, ← h'.port, he]
  exact ⟨he, Option.some.inj hport⟩

/-- The settings for reaching a plugin at a port. -/
def settings (address : String) (port : UInt16) : Connection where
  rest := some { address, port }

/-! ## Settings -/

theorem connection?_eq_some_iff {c : Connection} :
    connection? address e = some c ↔
      ∃ port, e.port = some port ∧ e.protocol = "rest" ∧ c = settings address port := by
  have hrest : Protocol.parse e.protocol = .ok .rest ↔ "rest" = e.protocol :=
    Protocol.parse_eq_ok_iff
  unfold connection?
  split
  · rename_i port hport hparse
    simp only [Option.some.injEq, hport, ← hrest.1 hparse, true_and, exists_eq_left']
    exact eq_comm
  · rename_i hno
    constructor
    · intro h
      cases h
    · rintro ⟨port, hport, hprotocol, -⟩
      exact absurd (hrest.2 hprotocol.symm) (hno port hport)

theorem mem_listedPlugins_iff : (plugin, e) ∈ listedPlugins config name ↔
    config.Offers name plugin e := by
  unfold listedPlugins
  rw [List.mem_filterMap]
  constructor
  · rintro ⟨n, hn, hpair⟩
    obtain ⟨e', he', heq⟩ := Option.map_eq_some_iff.1 hpair
    obtain ⟨rfl, rfl⟩ := Prod.mk.inj heq
    cases hentry : config.hosts.get? name with
    | none =>
      rw [hentry] at hn
      cases hn
    | some entry =>
      rw [hentry] at hn
      exact ⟨⟨entry, hentry, hn⟩, he'⟩
  · rintro ⟨⟨entry, hentry, hlisted⟩, hdefined⟩
    refine ⟨plugin, ?_, ?_⟩
    · rw [hentry]
      exact hlisted
    · rw [hdefined]
      rfl

theorem get?_connections_makeHost {pool : Nat} {c : Connection} :
    (makeHost config address name pool).connections.get? plugin = some c ↔
      ∃ e, config.Offers name plugin e ∧ connection? address e = some c := by
  have hmem (c : Connection) :
      (plugin, c) ∈ ((listedPlugins config name).filterMap fun x =>
        (connection? address x.2).map (x.1, ·)) ↔
      ∃ e, config.Offers name plugin e ∧ connection? address e = some c := by
    rw [List.mem_filterMap]
    constructor
    · rintro ⟨⟨n, e⟩, hlisted, hpair⟩
      obtain ⟨c', hc', heq⟩ := Option.map_eq_some_iff.1 hpair
      obtain ⟨rfl, rfl⟩ := Prod.mk.inj heq
      exact ⟨e, mem_listedPlugins_iff.1 hlisted, hc'⟩
    · rintro ⟨e, hoffers, hc⟩
      refine ⟨(plugin, e), mem_listedPlugins_iff.2 hoffers, ?_⟩
      rw [hc]
      rfl
  constructor
  · intro h
    exact (hmem c).1 (NameMap.mem_of_get?_ofList h)
  · rintro ⟨e, hoffers, hc⟩
    apply NameMap.get?_ofList_of_forall_eq ((hmem c).2 ⟨e, hoffers, hc⟩)
    -- A plugin that is listed twice has the same settings twice.
    intro c' hc'
    obtain ⟨e', hoffers', hc'⟩ := (hmem c').1 hc'
    have hsame : e' = e := Option.some.inj (hoffers'.defined.symm.trans hoffers.defined)
    rw [hsame, hc] at hc'
    exact (Option.some.inj hc').symm

/-! ## Hosts and pools -/

/-- The pool of a host has the place of its name. -/
theorem of_mem_makeHosts {h : Host} (hh : h ∈ makeHosts config address names) :
    names[h.pool]? = some h.name ∧ h = makeHost config address h.name h.pool := by
  obtain ⟨⟨n, i⟩, hmem, rfl⟩ := List.mem_map.1 hh
  exact ⟨List.mem_zipIdx_iff_getElem?.1 hmem, rfl⟩

/-- The pool of a container has the place of the name of its host. -/
theorem name_of_container (hserves : Registry.Serves (makeHosts config address names) r)
    {c : Container} (hc : r.container name = .ok c) : names[c.pool]? = some name := by
  obtain ⟨last, hlast, hpool⟩ := hserves.pool_of_kept (Registry.container_eq_ok_iff.1 hc).2
  obtain ⟨hmem, hname⟩ := Registry.mem_of_lastHost? hlast
  have hplace := (of_mem_makeHosts hmem).1
  rw [hpool, hname] at hplace
  exact hplace

/-- A name that is served is that of one host, and the host has a container. -/
theorem exists_host (hserves : Registry.Serves (makeHosts config address names) r)
    (hname : name ∈ names) :
    ∃ i c, r.host name = .ok (makeHost config address name i) ∧ r.container name = .ok c := by
  have hmem : name ∈ (makeHosts config address names).map (·.name) := by
    rw [names_makeHosts]
    exact hname
  obtain ⟨h, hh, rfl⟩ := List.mem_map.1 hmem
  have hfirst : (Registry.firstHost? r.hosts h.name).isSome = true := by
    rw [hserves.listed, Registry.firstHost?, List.find?_isSome]
    exact ⟨h, hh, by simp⟩
  obtain ⟨x, hx⟩ := Option.isSome_iff_exists.1 hfirst
  obtain ⟨hxmem, hxname⟩ := Registry.mem_of_firstHost? hx
  rw [hserves.listed] at hxmem
  have hhost := Registry.host_eq_ok_iff.2 hx
  obtain ⟨c, hc⟩ := hserves.exists_container hhost
  have hmake := (of_mem_makeHosts hxmem).2
  rw [hxname] at hmake
  exact ⟨x.pool, c, by rw [hhost, ← hmake], hc⟩

/-! ## Installed plugins -/

/-- When everything is installed, the container of a host has what a check finds, and calls
    as usual. -/
theorem of_container
    (hr : (Registry.ofHosts (makeHosts config address names) {}).install storage = .ok r)
    (hname : name ∈ names) {c : Container} (hc : r.container name = .ok c) :
    runnable storage config name = .ok c.plugins ∧ c.policy = {} := by
  rw [Checking.install_eq] at hr
  cases hf : Checking.failures (Checking.verdicts storage config names) with
  | cons f fs =>
    rw [hf] at hr
    cases hr
  | nil =>
    rw [hf] at hr
    -- The container is the one that was set up, with what can be run.
    have hr := Except.ok.inj hr
    obtain ⟨c', hc', -, hplugins, hpolicy⟩ :=
      Checking.exists_kept_setupEach storage config address {} hname
    rw [hr] at hc'
    have hsame : c' = c := Except.ok.inj (hc'.symm.trans (Registry.container_eq_ok_iff.1 hc).2)
    have hverdict : (name, runnable storage config name) ∈
      Checking.verdicts storage config names := List.mem_map_of_mem hname
    obtain ⟨plugins, hrun⟩ : ∃ plugins, runnable storage config name = .ok plugins :=
      Checking.failures_eq_nil_iff.1 hf _ hverdict
    rw [hrun, hsame] at hplugins
    have hset : c.plugins = plugins := hplugins
    exact ⟨hset ▸ hrun, hsame ▸ hpolicy⟩

/-- What the container of a host has installed when everything is installed. -/
theorem get?_installed_iff
    (hr : (Registry.ofHosts (makeHosts config address names) {}).install storage = .ok r)
    (hname : name ∈ names) {c : Container} (hc : r.container name = .ok c) {p : PluginMeta} :
    c.plugins.get? plugin = some p ↔ ∃ e, config.Offers name plugin e ∧
      Installer.Verifies ⟨name, some config, .md5⟩ storage e ∧ p = PluginMeta.ofEntry e :=
  Installer.get?_of_install (i := ⟨name, some config, .md5⟩) rfl (of_container hr hname hc).1

/-! ## The way to a plugin -/

/-- What a registry knows of a plugin that is to be started: the way to it, and the handle
    by which it can be called. -/
structure Reached (r : Registry) (address : String) (t : Target) (e : Config.PluginEntry)
    (port : UInt16) (c : Container) : Prop where
  container : r.container t.host = .ok c
  info : c.info t.plugin = .ok (PluginMeta.ofEntry e)
  route : r.route t.host t.plugin = .ok ⟨settings address port, c, port⟩
  handle : Registry.handle t.host t.plugin ⟨settings address port, c, port⟩
    = .ok ⟨t.plugin, .rest, PluginMeta.ofEntry e,
        ⟨.rest { address, port }, Registry.peerName t.host t.plugin, {}⟩⟩

theorem Startable.reached (h : Startable config storage names t e port)
    (hr : (Registry.ofHosts (makeHosts config address names) {}).install storage = .ok r) :
    ∃ c, Reached r address t e port c := by
  have hserves := (Registry.serves_ofHosts (makeHosts config address names) {}).install hr
  obtain ⟨i, c, hhost, hcontainer⟩ := exists_host hserves h.chosen
  have hplugins : c.plugins.get? t.plugin = some (PluginMeta.ofEntry e) :=
    (get?_installed_iff hr h.chosen hcontainer).2 ⟨e, h.offered, h.verified, rfl⟩
  have hinfo := Container.info_eq_ok_iff.2 hplugins
  have hsettings : (makeHost config address t.host i).connections.get? t.plugin
      = some (settings address port) :=
    get?_connections_makeHost.2
      ⟨e, h.offered, connection?_eq_some_iff.2 ⟨port, h.port, h.protocol, rfl⟩⟩
  have hparse : Protocol.parse (PluginMeta.ofEntry e).protocol = .ok .rest :=
    Protocol.parse_eq_ok_iff.2 h.protocol.symm
  refine ⟨c, hcontainer, hinfo, ?_, ?_⟩
  · simp [Registry.route, Registry.port, hhost, hcontainer, Host.connection, hsettings, hinfo,
      hparse, settings, Connection.port, bind, Except.bind, pure, Except.pure]
  · simp [Registry.handle, settings, Connection.isEmpty, Container.handle, hinfo, hparse,
      (of_container hr h.chosen hcontainer).2, Connection.line, bind, Except.bind, pure,
      Except.pure]

/-! ## Targets -/

/-- The plugins that are started on one host. -/
def pluginsOn (r : Registry) (h : Host) : List String :=
  match r.container h.name with
  | .ok c => c.plugins.names.filter fun p => (h.connection p).isOk
  | .error _ => []

theorem startTargets_eq (r : Registry) :
    startTargets r = r.hosts.flatMap fun h => (pluginsOn r h).map (Target.mk h.name) := by
  unfold startTargets
  congr 1
  funext h
  unfold pluginsOn
  cases r.container h.name <;> rfl

/-- They are those that the host has installed and has settings for. -/
theorem mem_pluginsOn_iff {h : Host} {c : Container} (hc : r.container h.name = .ok c) :
    plugin ∈ pluginsOn r h ↔ (∃ p, c.plugins.get? plugin = some p) ∧
      ∃ connection, h.connections.get? plugin = some connection := by
  have hok : (h.connection plugin).isOk = true ↔
      ∃ connection, h.connections.get? plugin = some connection := by
    unfold Host.connection
    cases h.connections.get? plugin <;> simp [Except.isOk, Except.toBool]
  unfold pluginsOn
  rw [hc]
  dsimp only
  rw [List.mem_filter, NameMap.mem_names_iff, hok]

/-- What is started is what can be. -/
theorem mem_startTargets_iff
    (hr : (Registry.ofHosts (makeHosts config address names) {}).install storage = .ok r) :
    t ∈ startTargets r ↔ ∃ e port, Startable config storage names t e port := by
  have hserves := (Registry.serves_ofHosts (makeHosts config address names) {}).install hr
  rw [startTargets_eq, List.mem_flatMap, hserves.listed]
  constructor
  · rintro ⟨h, hh, ht⟩
    obtain ⟨plugin, hplugin, rfl⟩ := List.mem_map.1 ht
    have hchosen : h.name ∈ names := List.mem_of_getElem? (of_mem_makeHosts hh).1
    obtain ⟨i, c, -, hcontainer⟩ := exists_host hserves hchosen
    obtain ⟨⟨p, hp⟩, connection, hset⟩ := (mem_pluginsOn_iff hcontainer).1 hplugin
    obtain ⟨e, hoffers, hverifies, -⟩ := (get?_installed_iff hr hchosen hcontainer).1 hp
    rw [(of_mem_makeHosts hh).2, get?_connections_makeHost] at hset
    obtain ⟨e', hoffers', hconnection⟩ := hset
    -- The settings and the installation go by the same definition.
    have hsame : e' = e := Option.some.inj (hoffers'.defined.symm.trans hoffers.defined)
    obtain ⟨port, hport, hprotocol, -⟩ := connection?_eq_some_iff.1 hconnection
    rw [hsame] at hport hprotocol
    exact ⟨e, port, hchosen, hoffers, hverifies, hprotocol, hport⟩
  · rintro ⟨e, port, h⟩
    have hmem : t.host ∈ (makeHosts config address names).map (·.name) := by
      rw [names_makeHosts]
      exact h.chosen
    obtain ⟨x, hx, hname⟩ := List.mem_map.1 hmem
    obtain ⟨i, c, -, hcontainer⟩ := exists_host hserves h.chosen
    have hplugins : c.plugins.get? t.plugin = some (PluginMeta.ofEntry e) :=
      (get?_installed_iff hr h.chosen hcontainer).2 ⟨e, h.offered, h.verified, rfl⟩
    have hset : x.connections.get? t.plugin = some (settings address port) := by
      rw [(of_mem_makeHosts hx).2, hname, get?_connections_makeHost]
      exact ⟨e, h.offered, connection?_eq_some_iff.2 ⟨port, h.port, h.protocol, rfl⟩⟩
    rw [← hname] at hcontainer
    have hplugin := (mem_pluginsOn_iff hcontainer).2 ⟨⟨_, hplugins⟩, _, hset⟩
    exact ⟨x, hx, List.mem_map.2 ⟨t.plugin, hplugin, by rw [hname]⟩⟩

/-- No plugin is started twice on a host, if no host is served twice. -/
theorem nodup_startTargets (hserves : Registry.Serves (makeHosts config address names) r)
    (hnames : names.Nodup) : (startTargets r).Nodup := by
  have hhosts : (r.hosts.map (·.name)).Nodup := by
    rw [hserves.listed, names_makeHosts]
    exact hnames
  rw [startTargets_eq]
  apply Target.nodup_flatMap hhosts
  intro h _
  unfold pluginsOn
  split
  · exact (NameMap.nodup_names _).filter _
  · exact List.nodup_nil

end CommandLine
end PluginHost
