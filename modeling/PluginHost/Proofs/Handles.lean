/-
  PluginHost.Proofs.Handles

  Asking for a handle on a plugin.  Everything that can be wrong with a plugin is
  looked at before its runner is asked, so a request is refused for a reason that
  lies in hosts, settings and installed plugins, and then nothing has happened; or
  the runner fails; or there is a handle (`handle_made_or_refused`).

  Between the first part of a request and the second one others may do anything.
  What the request has found out stays true all the same: a container that knows a
  plugin is not set up again (`Reachable.routed`).
-/
import PluginHost.Proofs.Recovery
import PluginHost.Proofs.Traffic

namespace PluginHost

/-! ## Protocols -/

/-- A name belongs to no protocol exactly if it cannot be read as one. -/
theorem Protocol.parse_eq_error_iff {s : String} {e : Error} :
    Protocol.parse s = .error e ↔ (∀ q : Protocol, q.name ≠ s) ∧ e = .protocolUnknown s := by
  have hall : (∀ q ∈ Protocol.all, q.name ≠ s) ↔ ∀ q : Protocol, q.name ≠ s := by
    constructor
    · intro h q
      apply h
      cases q <;> simp [Protocol.all]
    · exact fun h q _ => h q
  rw [Protocol.parse, ← hall]
  cases hf : Protocol.all.find? fun p => decide (p.name = s) with
  | some q =>
    have hmem := List.mem_of_find?_eq_some hf
    have hname : q.name = s := by simpa using List.find?_some hf
    simp only [reduceCtorEq, false_iff, not_and]
    exact fun h => absurd hname (h q hmem)
  | none =>
    rw [List.find?_eq_none] at hf
    have hno : ∀ q ∈ Protocol.all, q.name ≠ s := fun q hmem => by simpa using hf q hmem
    rw [Except.error.injEq, eq_comm]
    exact ⟨fun he => ⟨hno, he⟩, fun h => h.2⟩

/-- A connection has a line for exactly the protocols for which it has a port. -/
theorem Connection.exists_line {c : Connection} {q : Protocol} {port : UInt16}
    (h : c.port q = some port) : c.isEmpty = false ∧ ∃ line, c.line q port = some line := by
  cases q with
  | rest =>
    obtain ⟨o, ho, -⟩ := Option.map_eq_some_iff.1 h
    simp [Connection.isEmpty, Connection.line, ho]
  | grpc =>
    have hrpc : c.rpc = some port := h
    simp [Connection.isEmpty, Connection.line, hrpc]

/-- A container that knows a plugin is not set up any more, if without an installation it
    knows none. -/
theorem Container.setup_of_info {c : Container} {plugin : String} {p : PluginMeta}
    (hunset : c.installed = false → c.plugins = .empty) (h : c.info plugin = .ok p)
    (storage : Storage) : (c.setup storage).container = c := by
  rcases c.setup_cases storage with hsame | ⟨plugins, hnone, -⟩
  · exact hsame
  · rw [Container.info_eq_ok_iff, hunset hnone] at h
    cases h

namespace Registry

variable {hosts : List Host} {r : Registry} {s : System} {host plugin : String}

/-! ## The way to a plugin -/

/-- Why there is no way to a plugin, as hosts, settings and installed plugins have
    it. -/
inductive Refusal (r : Registry) (host plugin : String) : Error → Prop
  | hostUnknown (h : ∀ x ∈ r.hosts, x.name ≠ host) : Refusal r host plugin (.hostUnknown host)
  /-- The host has no settings for the plugin. -/
  | unset {x : Host} (hx : r.host host = .ok x) (hset : x.connections.get? plugin = none) :
      Refusal r host plugin (.connectionUnset plugin)
  | notInstalled {x : Host} {connection : Connection} {c : Container} (hx : r.host host = .ok x)
      (hset : x.connections.get? plugin = some connection) (hc : r.container host = .ok c)
      (hp : c.plugins.get? plugin = none) : Refusal r host plugin (.pluginUnknown plugin)
  /-- The plugin declares a protocol that there is not. -/
  | unspoken {x : Host} {connection : Connection} {c : Container} {p : PluginMeta}
      (hx : r.host host = .ok x) (hset : x.connections.get? plugin = some connection)
      (hc : r.container host = .ok c) (hp : c.plugins.get? plugin = some p)
      (hq : ∀ q : Protocol, q.name ≠ p.protocol) :
      Refusal r host plugin (.protocolUnknown p.protocol)
  /-- The settings are for another protocol than that of the plugin. -/
  | noPort {x : Host} {connection : Connection} {c : Container} {p : PluginMeta} {q : Protocol}
      (hx : r.host host = .ok x) (hset : x.connections.get? plugin = some connection)
      (hc : r.container host = .ok c) (hp : c.plugins.get? plugin = some p)
      (hq : Protocol.parse p.protocol = .ok q) (hport : connection.port q = none) :
      Refusal r host plugin (.connectionUnset plugin)

/-- What a route stands for. -/
structure Routed (r : Registry) (host plugin : String) (route : Route) : Prop where
  container : r.container host = .ok route.container
  connection : ∃ x, r.host host = .ok x ∧ x.connections.get? plugin = some route.connection
  speaks : ∃ p q, route.container.info plugin = .ok p ∧ Protocol.parse p.protocol = .ok q ∧
    route.connection.port q = some route.port

/-- A reason to refuse a route is what looking for the route comes to. -/
theorem Refusal.route_eq {e : Error} (h : Refusal r host plugin e) :
    r.route host plugin = .error e := by
  cases h with
  | hostUnknown h =>
    have hnone : firstHost? r.hosts host = none := by
      rw [firstHost?, List.find?_eq_none]
      intro x hmem hname
      exact h x hmem (by simpa using hname)
    simp [route, host_eq, hnone, bind, Except.bind]
  | unset hx hset => simp [route, hx, Host.connection, hset, bind, Except.bind]
  | notInstalled hx hset hc hp =>
    simp [route, Registry.port, hx, hc, Host.connection, hset, Container.info, hp, bind,
      Except.bind]
  | unspoken hx hset hc hp hq =>
    have hparse := Protocol.parse_eq_error_iff.2 ⟨hq, rfl⟩
    simp [route, Registry.port, hx, hc, Host.connection, hset, Container.info, hp, hparse, bind,
      Except.bind]
  | noPort hx hset hc hp hq hport =>
    simp [route, Registry.port, hx, hc, Host.connection, hset, Container.info, hp, hq, hport, bind,
      Except.bind, throw, throwThe, MonadExceptOf.throw]

/-- A route is found, or refused for its reason. -/
theorem Serves.route_cases (hr : Serves hosts r) (host plugin : String) :
    (∃ e, r.route host plugin = .error e ∧ Refusal r host plugin e) ∨
      ∃ route, r.route host plugin = .ok route ∧ Routed r host plugin route := by
  have refuse : ∀ {e}, Refusal r host plugin e →
      (∃ e, r.route host plugin = .error e ∧ Refusal r host plugin e) ∨
        ∃ route, r.route host plugin = .ok route ∧ Routed r host plugin route :=
    fun h => Or.inl ⟨_, h.route_eq, h⟩
  -- The checks in the order in which they are made.
  cases hx : firstHost? r.hosts host with
  | none =>
    rw [firstHost?, List.find?_eq_none] at hx
    exact refuse (.hostUnknown fun x hmem hname => hx x hmem (by simpa using hname))
  | some x =>
  have hx := host_eq_ok_iff.2 hx
  obtain ⟨c, hc⟩ := hr.exists_container hx
  cases hset : x.connections.get? plugin with
  | none => exact refuse (.unset hx hset)
  | some connection =>
  cases hp : c.plugins.get? plugin with
  | none => exact refuse (.notInstalled hx hset hc hp)
  | some p =>
  cases hq : Protocol.parse p.protocol with
  | error e => exact refuse (.unspoken hx hset hc hp (Protocol.parse_eq_error_iff.1 hq).1)
  | ok q =>
  cases hport : connection.port q with
  | none => exact refuse (.noPort hx hset hc hp hq hport)
  | some port =>
    refine Or.inr ⟨⟨connection, c, port⟩, ?_, hc, ⟨x, hx, hset⟩, p, q,
      Container.info_eq_ok_iff.2 hp, hq, hport⟩
    simp [route, Registry.port, hx, hc, Host.connection, hset, Container.info, hp, hq, hport, bind,
      Except.bind, pure, Except.pure]

theorem Serves.route_eq_error_iff (hr : Serves hosts r) {e : Error} :
    r.route host plugin = .error e ↔ Refusal r host plugin e := by
  refine ⟨fun h => ?_, Refusal.route_eq⟩
  rcases hr.route_cases host plugin with ⟨e', he', hrefused⟩ | ⟨route, hroute, -⟩
  · rw [h] at he'
    exact Except.error.inj he' ▸ hrefused
  · rw [h] at hroute
    cases hroute

theorem Serves.routed (hr : Serves hosts r) {route : Route}
    (h : r.route host plugin = .ok route) : Routed r host plugin route := by
  rcases hr.route_cases host plugin with ⟨e, he, -⟩ | ⟨route', hroute, hrouted⟩
  · rw [h] at he
    cases he
  · rw [h] at hroute
    exact Except.ok.inj hroute ▸ hrouted

/-- A route stays one when containers are set up: its own is set up already. -/
theorem Routed.setup {route : Route} (hr : Serves hosts r) (h : Routed r host plugin route)
    (storage : Storage) (name : String) :
    Routed (r.setup storage name).2 host plugin route := by
  obtain ⟨⟨x, hx⟩, hkept⟩ := container_eq_ok_iff.1 h.container
  obtain ⟨p, q, hp, hrest⟩ := h.speaks
  have hhosts : ∀ other, (r.setup storage name).2.host other = r.host other := by
    intro other
    unfold Registry.setup
    cases r.kept name <;> rfl
  have hkept' : (r.setup storage name).2.kept host = .ok route.container := by
    unfold Registry.setup
    cases hc : r.kept name with
    | error e => exact hkept
    | ok c =>
      rw [kept_setContainer]
      by_cases hn : host = name
      · subst hn
        obtain rfl : c = route.container := Except.ok.inj (hc.symm.trans hkept)
        rw [if_pos rfl, Container.setup_of_info (hr.unset _ _ hc) hp]
      · rw [if_neg hn, hkept]
  refine ⟨container_eq_ok_iff.2 ⟨⟨x, by rw [hhosts, hx]⟩, hkept'⟩, ?_, p, q, hp, hrest⟩
  obtain ⟨y, hy, hset⟩ := h.connection
  exact ⟨y, by rw [hhosts, hy], hset⟩

/-! ## Handles -/

/-- A handle by which a plugin can be called: over the protocol that it declares, at
    the port that is set for it. -/
structure Usable (host plugin : String) (route : Route) (h : Handle) : Prop where
  name : h.name = plugin
  info : route.container.info plugin = .ok h.info
  protocol : Protocol.parse h.info.protocol = .ok h.protocol
  port : route.connection.port h.protocol = some route.port
  line : route.connection.line h.protocol route.port = some h.call.line
  peer : h.call.peer = peerName host plugin

/-- For a route there is a handle. -/
theorem Routed.exists_handle {route : Route} (h : Routed r host plugin route) :
    ∃ x, handle host plugin route = .ok x ∧ Usable host plugin route x := by
  obtain ⟨p, q, hp, hq, hport⟩ := h.speaks
  obtain ⟨hempty, line, hline⟩ := Connection.exists_line hport
  refine ⟨⟨plugin, q, p, ⟨line, peerName host plugin, route.container.policy⟩⟩, ?_, rfl, hp, hq,
    hport, hline, rfl⟩
  simp [handle, hempty, Container.handle, hp, hq, hline, bind, Except.bind, pure, Except.pure]

/-- What the first part of a request comes to. -/
theorem beginHandle_of_route_error {e : Error} (h : r.route host plugin = .error e) :
    r.beginHandle s host plugin = (.error e, s) := by
  rw [beginHandle, h]

theorem beginHandle_of_ready {route : Route} (h : r.route host plugin = .ok route)
    (hr : s.isReady route.container.pool plugin = true) :
    r.beginHandle s host plugin = (.ok (.ready route), s) := by
  rw [beginHandle, h]
  simp only [hr, if_true]

theorem beginHandle_of_not_ready {route : Route} {p : PluginMeta}
    (h : r.route host plugin = .ok route) (hp : route.container.info plugin = .ok p)
    (hr : s.isReady route.container.pool plugin = false) :
    r.beginHandle s host plugin =
      (.ok (.starting route (s.askRunner route.container.pool
          (Container.request plugin p route.port)).1),
        (s.askRunner route.container.pool (Container.request plugin p route.port)).2) := by
  rw [beginHandle, h]
  simp only [hr, Bool.false_eq_true, if_false]
  rw [Container.beginRun_of_not_ready hp hr]

/-- The second part of a request that has started the plugin fails exactly if the
    runner did; that somebody else was faster does not matter. -/
theorem finishHandle_of_ok {route : Route} {l : Launch} {b : Birth} {x : Handle}
    (hx : handle host plugin route = .ok x) (hl : l.outcome = .ok b) :
    (finishHandle s host plugin (.starting route l)).1 = .ok x := by
  have hok : ∃ p, (s.finishStart l).1 = .ok p := by
    cases hp : (s.finishStart l).1 with
    | ok p => exact ⟨p, rfl⟩
    | error e =>
      rw [System.outcome_of_finishStart_error hp] at hl
      cases hl
  obtain ⟨p, hp⟩ := hok
  rw [finishHandle, Container.finishRun_of_ok hp]
  cases hr : (s.finishStart l).2.isReady l.pool p.name with
  | true => rw [System.enter_of_ready hr, hx]
  | false => rw [System.enter_of_not_ready hr, hx]

theorem finishHandle_of_error {route : Route} {l : Launch} {e : Error} (hl : l.outcome = .error e)
    (he : e.kind = .cannotStart) :
    finishHandle s host plugin (.starting route l) = (.error e, s) := by
  have hfin := System.finishStart_of_error (s := s) hl
  have hrun : Container.finishRun s l = (.error e, s) := by
    rw [Container.finishRun, hfin]
  rw [finishHandle, hrun]
  -- An error of another kind is none of a name that is taken.
  cases e <;> first | rfl | cases he

end Registry

/-! ## Requests among other calls -/

namespace Traffic

open Registry

variable {hosts : List Host} {policy : Retry.Policy} {w w' : Traffic} {host plugin : String}
  {route : Route} {l : Launch}

/-- What is known of a request that waits for a runner. -/
structure Awaited (r : Registry) (host plugin : String) (route : Route) (l : Launch) : Prop where
  routed : Routed r host plugin route
  pool : l.pool = route.container.pool
  name : l.name = plugin
  carried : ∀ p, l.process? = some p → p.name = plugin

theorem awaited_of_beginHandle {s' : System} (hr : Serves hosts w.registry)
    (h : w.registry.beginHandle w.system host plugin = (.ok (.starting route l), s')) :
    Awaited w.registry host plugin route l := by
  obtain ⟨hroute, hrun⟩ := beginRun_of_beginHandle h
  obtain ⟨hpool, hname, -, -, hnew⟩ := Container.beginRun_spec hrun
  exact ⟨hr.routed hroute, hpool, hname, fun q hq => (hnew q hq).1⟩

/-- What a request has found out stays true while it waits. -/
theorem Reachable.awaited (hw : Reachable hosts policy w) :
    ∀ host plugin route l, (.handle host plugin route, l) ∈ w.waiting →
      Awaited w.registry host plugin route l := by
  induction hw with
  | init hpools hempty =>
    intro host plugin route l hmem
    cases hmem
  | @step w w' hw hs ih =>
    intro host plugin route l hmem
    cases hs with
    | setup storage name =>
      have h := ih host plugin route l hmem
      exact ⟨h.routed.setup hw.serves storage name, h.pool, h.name, h.carried⟩
    | beginHandle h =>
      rcases List.mem_cons.1 hmem with heq | hold
      · obtain ⟨hsame, rfl⟩ := Prod.mk.inj heq
        cases hsame
        exact awaited_of_beginHandle (w := w) hw.serves h
      · exact ih host plugin route l hold
    -- The other steps leave the registry alone, and add no request.
    | beginRun h =>
      rcases List.mem_cons.1 hmem with heq | hold
      · cases heq
      · exact ih host plugin route l hold
    | beginRestart h =>
      rcases List.mem_cons.1 hmem with heq | hold
      · cases heq
      · exact ih host plugin route l hold
    | finish h => exact ih host plugin route l (h.mem_iff.2 (List.mem_cons_of_mem _ hmem))
    | answer h => exact ih host plugin route l hmem
    | kill i name => exact ih host plugin route l hmem
    | killAll i => exact ih host plugin route l hmem
    | probe hp h => exact ih host plugin route l hmem
    | aside h => exact ih host plugin route l hmem

/-- The pool of a route is there. -/
theorem Reachable.pool_of_routed (hw : Reachable hosts policy w)
    (h : Routed w.registry host plugin route) :
    route.container.pool < w.system.pools.length := by
  obtain ⟨last, hlast, hpool⟩ := hw.serves.pool_of_kept (container_eq_ok_iff.1 h.container).2
  rw [← hpool]
  exact hw.pool_lt last (mem_of_lastHost? hlast).1

/-- How a request begins: it is refused for a reason that lies in hosts, settings and
    installed plugins, and then nothing has happened; or the plugin runs, and there is
    a handle at once; or its runner is asked. -/
structure FirstPart (r : Registry) (s : System) (host plugin : String) : Prop where
  refused : ∀ e, (r.beginHandle s host plugin).1 = .error e ↔ Refusal r host plugin e
  unchanged : ∀ e, (r.beginHandle s host plugin).1 = .error e → (r.beginHandle s host plugin).2 = s
  ready : ∀ route, (r.beginHandle s host plugin).1 = .ok (.ready route) →
    (r.beginHandle s host plugin).2 = s ∧ Routed r host plugin route ∧
      s.isReady route.container.pool plugin = true ∧
      ∃ x, finishHandle s host plugin (.ready route) = (.ok x, s) ∧ Usable host plugin route x
  starting : ∀ route l, (r.beginHandle s host plugin).1 = .ok (.starting route l) →
    Routed r host plugin route ∧ s.isReady route.container.pool plugin = false ∧
      ∃ label q, q.name = plugin ∧ q.port = route.port ∧
        (r.beginHandle s host plugin).2.journal = (s.now, .requested label q) :: s.journal

/-- How a request ends that waited for its runner: with a handle on a plugin that
    runs, or, if the runner could not start it, with the runner's error, and then
    nothing has happened. -/
structure SecondPart (w : Traffic) (host plugin : String) (route : Route) (l : Launch) :
    Prop where
  routed : Routed w.registry host plugin route
  made : ∀ b, l.outcome = .ok b →
    (∃ x, (finishHandle w.system host plugin (.starting route l)).1 = .ok x ∧
      Usable host plugin route x) ∧
    (finishHandle w.system host plugin (.starting route l)).2.isReady
      route.container.pool plugin = true
  failed : ∀ e, l.outcome = .error e → e.kind = .cannotStart ∧
    finishHandle w.system host plugin (.starting route l) = (.error e, w.system)

theorem firstPart {r : Registry} (hr : Serves hosts r) (s : System) (host plugin : String) :
    FirstPart r s host plugin := by
  rcases hr.route_cases host plugin with ⟨e, hroute, -⟩ | ⟨route, hroute, hrouted⟩
  · have hbegin : r.beginHandle s host plugin = (.error e, s) := beginHandle_of_route_error hroute
    refine ⟨fun e' => ?_, fun e' _ => by rw [hbegin], fun route h => ?_, fun route l h => ?_⟩
    · rw [hbegin, ← hr.route_eq_error_iff, hroute, Except.error.injEq, Except.error.injEq]
    · rw [hbegin] at h
      cases h
    · rw [hbegin] at h
      cases h
  · have hno : ∀ e, ¬ Refusal r host plugin e := by
      intro e h
      have herr := h.route_eq
      rw [hroute] at herr
      cases herr
    obtain ⟨p, q, hp, -⟩ := hrouted.speaks
    cases hready : s.isReady route.container.pool plugin with
    | true =>
      have hbegin := beginHandle_of_ready hroute hready
      refine ⟨fun e => ?_, fun e h => ?_, fun route' h => ?_, fun route' l h => ?_⟩
      · rw [hbegin]
        simp [hno e]
      · rw [hbegin]
      · rw [hbegin] at h ⊢
        cases h
        obtain ⟨x, hx, husable⟩ := hrouted.exists_handle
        exact ⟨rfl, hrouted, hready, x, by rw [finishHandle, hx], husable⟩
      · rw [hbegin] at h
        cases h
    | false =>
      have hbegin := beginHandle_of_not_ready hroute hp hready
      refine ⟨fun e => ?_, fun e h => ?_, fun route' h => ?_, fun route' l h => ?_⟩
      · rw [hbegin]
        simp [hno e]
      · rw [hbegin] at h
        cases h
      · rw [hbegin] at h
        cases h
      · rw [hbegin] at h ⊢
        cases h
        obtain ⟨-, -, -, hjournal, -⟩ := System.askRunner_spec s route.container.pool
          (Container.request plugin p route.port)
        exact ⟨hrouted, hready, _, _, rfl, rfl, hjournal⟩

theorem Reachable.secondPart (hw : Reachable hosts policy w)
    (hrunner : ∀ x ∈ w.waiting, ∀ e, x.2.outcome = .error e → e.kind = .cannotStart)
    (hmem : (.handle host plugin route, l) ∈ w.waiting) : SecondPart w host plugin route l := by
  have h := hw.awaited host plugin route l hmem
  refine ⟨h.routed, fun b hl => ?_, fun e hl => ?_⟩
  · obtain ⟨x, hx, husable⟩ := h.routed.exists_handle
    refine ⟨⟨x, finishHandle_of_ok hx hl, husable⟩, ?_⟩
    -- Whoever was faster, the name is taken now.
    have hlt : l.pool < w.system.pools.length := by
      rw [h.pool]
      exact hw.pool_of_routed h.routed
    cases hp : (w.system.finishStart l).1 with
    | error e =>
      rw [System.outcome_of_finishStart_error hp] at hl
      cases hl
    | ok p =>
      have hname : p.name = l.name :=
        System.name_of_finishStart (fun q hq => (h.carried q hq).trans h.name.symm) hp
      obtain ⟨q, hq⟩ := Recovery.exists_entry_of_finishRun hlt hp hname
      rw [h.pool, h.name] at hq
      rw [finishHandle_system]
      exact System.isReady_eq_true_iff.2 ⟨q, hq⟩
  · have hkind := hrunner _ hmem e hl
    exact ⟨hkind, finishHandle_of_error hl hkind⟩

/-- Whatever else goes on, a request for a handle is refused for a reason that lies in
    hosts, settings and installed plugins, before anything has happened; or it ends
    with the error of the runner that it has asked, if that cannot start the plugin;
    or it ends with a handle. -/
theorem handle_made_or_refused (hw : Reachable hosts policy w)
    (hrunner : ∀ x ∈ w.waiting, ∀ e, x.2.outcome = .error e → e.kind = .cannotStart) :
    (∀ host plugin, FirstPart w.registry w.system host plugin) ∧
    ∀ host plugin route l, (.handle host plugin route, l) ∈ w.waiting →
      SecondPart w host plugin route l :=
  ⟨firstPart hw.serves w.system, fun _ _ _ _ hmem => hw.secondPart hrunner hmem⟩

/-! ## One request -/

/-- The request ends with a handle, while one for a plugin that the host has no
    settings for is refused. -/
theorem echo_handle_made :
    (∃ x, (finishHandle oneRequest.system "host" "echo" (.starting echoRoute echoLaunch)).1 = .ok x ∧
      Usable "host" "echo" echoRoute x) ∧
    (oneRequest.registry.beginHandle oneRequest.system "host" "other").1
      = .error (.connectionUnset "other") := by
  have hrunner : ∀ x ∈ oneRequest.waiting, ∀ e, x.2.outcome = .error e → e.kind = .cannotStart := by
    intro x hmem e he
    rw [List.mem_singleton.1 hmem] at he
    cases he
  obtain ⟨hfirst, hsecond⟩ := handle_made_or_refused reachable_oneRequest hrunner
  refine ⟨((hsecond _ _ _ _ List.mem_cons_self).made _ rfl).1, ?_⟩
  exact ((hfirst "host" "other").refused _).2 (.unset (x := echoHost) rfl rfl)

end Traffic
end PluginHost
