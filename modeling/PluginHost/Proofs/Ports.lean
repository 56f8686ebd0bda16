/-
  PluginHost.Proofs.Ports

  The port of a plugin takes three ways: to the runner that starts the plugin first, to
  the runner that replaces its process, and into the handle that calls go by.  `Ledger`
  keeps what was told and given away during a run, for all hosts together, and all of it
  agrees with the port that the registry answers from then on (`ports_agree`).
-/
import PluginHost.Proofs.Handles
import PluginHost.Proofs.Wire.Retrying

namespace PluginHost

/-! ## Settings -/

namespace Connection

/-- The settings for one protocol alone. -/
def only (c : Connection) : Protocol → Connection
  | .rest => { rest := c.rest }
  | .grpc => { rpc := c.rpc, connector := c.connector }

theorem port_only (c : Connection) (q : Protocol) : (c.only q).port q = c.port q := by
  cases q <;> rfl

theorem line_only (c : Connection) (q : Protocol) (port : UInt16) :
    (c.only q).line q port = c.line q port := by
  cases q <;> rfl

/-- At the port that is set, the line is what is set. -/
theorem line_eq {c : Connection} {q : Protocol} {port : UInt16} {line : Line}
    (hport : c.port q = some port) (hline : c.line q port = some line) :
    (∃ o, q = .rest ∧ c.rest = some o ∧ o.port = port ∧ line = .rest o) ∨
      q = .grpc ∧ c.rpc = some port ∧ line = .rpc port c.connector := by
  cases q with
  | rest =>
    obtain ⟨o, ho, hset⟩ := Option.map_eq_some_iff.1 hport
    obtain ⟨o', ho', rfl⟩ := Option.map_eq_some_iff.1 hline
    rw [ho] at ho'
    cases ho'
    subst hset
    exact .inl ⟨o, rfl, ho, rfl, rfl⟩
  | grpc =>
    have hset : c.rpc = some port := hport
    obtain ⟨-, -, rfl⟩ := Option.map_eq_some_iff.1 hline
    exact .inr ⟨rfl, hset, rfl⟩

end Connection

namespace Registry

variable {hosts : List Host} {r : Registry} {s s' : System} {host plugin : String} {route : Route}

/-! ## One way to a plugin -/

theorem Routed.port_eq (h : Routed r host plugin route) :
    r.port host plugin = .ok route.port := by
  obtain ⟨x, hx, hset⟩ := h.connection
  obtain ⟨p, q, hp, hq, hport⟩ := h.speaks
  simp [Registry.port, hx, Host.connection, hset, h.container, hp, hq, hport, bind, Except.bind,
    pure, Except.pure]

theorem Routed.route_eq (h : Routed r host plugin route) :
    r.route host plugin = .ok route := by
  obtain ⟨x, hx, hset⟩ := h.connection
  simp [Registry.route, hx, Host.connection, hset, h.container, h.port_eq, bind, Except.bind, pure,
    Except.pure]

theorem Routed.handle_eq (h : Routed r host plugin route) {p : PluginMeta} {q : Protocol}
    {line : Connection.Line} (hp : route.container.info plugin = .ok p)
    (hq : Protocol.parse p.protocol = .ok q)
    (hline : route.connection.line q route.port = some line) :
    handle host plugin route =
      .ok ⟨plugin, q, p, ⟨line, peerName host plugin, route.container.policy⟩⟩ := by
  obtain ⟨p', q', hp', hq', hport⟩ := h.speaks
  obtain rfl : p' = p := Except.ok.inj (hp'.symm.trans hp)
  obtain rfl : q' = q := Except.ok.inj (hq'.symm.trans hq)
  obtain ⟨hempty, -⟩ := Connection.exists_line hport
  simp [handle, hempty, Container.handle, hp, hq, hline, bind, Except.bind, pure, Except.pure]

theorem Routed.usable (h : Routed r host plugin route) {x : Handle}
    (hx : handle host plugin route = .ok x) : Usable host plugin route x := by
  obtain ⟨x', hx', husable⟩ := h.exists_handle
  exact Except.ok.inj (hx'.symm.trans hx) ▸ husable

/-- Where the port is known there is a way. -/
theorem Serves.exists_routed_of_port (hr : Serves hosts r) {port : UInt16}
    (h : r.port host plugin = .ok port) :
    ∃ route, Routed r host plugin route ∧ route.port = port := by
  rcases hr.route_cases host plugin with ⟨e, hroute, -⟩ | ⟨route, -, hrouted⟩
  · -- Whatever stands in the way of a route stands in the way of the port.
    rw [Registry.port, bind_eq_ok_iff] at h
    obtain ⟨x, hx, h⟩ := h
    obtain ⟨connection, hset, h⟩ := bind_eq_ok_iff.1 h
    obtain ⟨p, hp, h'⟩ := bind_eq_ok_iff.1 h
    have hport : r.port host plugin = .ok port := by
      simp only [Registry.port, hx, hset, bind, Except.bind]
      exact h
    obtain ⟨c, hc, -⟩ := bind_eq_ok_iff.1 h
    simp [Registry.route, hx, hset, hc, hport, bind, Except.bind, pure, Except.pure] at hroute
  · exact ⟨route, hrouted, Except.ok.inj (hrouted.port_eq.symm.trans h)⟩

theorem route_of_beginHandle_ready
    (h : r.beginHandle s host plugin = (.ok (.ready route), s')) :
    r.route host plugin = .ok route := by
  unfold beginHandle at h
  split at h
  · cases h
  · rename_i route' hroute
    have hsame : route' = route := by
      split at h
      · cases h
        rfl
      · split at h <;> cases h
        rfl
    rw [hroute, hsame]

/-- A handle that a request ends with is that of its route. -/
theorem handle_of_finishHandle {l : Launch} {x : Handle}
    (h : (finishHandle s host plugin (.starting route l)).1 = .ok x) :
    handle host plugin route = .ok x := by
  rw [finishHandle] at h
  split at h
  · exact h
  · exact h
  · cases h

/-! ## Other settings -/

/-- The registry with other settings for a plugin. -/
def withSettings (r : Registry) (host plugin : String) (other : Connection) : Registry where
  hosts := r.hosts.map fun h =>
    if h.name = host then { h with connections := h.connections.insert plugin other } else h
  containers := r.containers

theorem host_withSettings {x : Host} (hx : r.host host = .ok x) (plugin : String)
    (other : Connection) :
    (r.withSettings host plugin other).host host
      = .ok { x with connections := x.connections.insert plugin other } := by
  rw [host_eq_ok_iff, firstHost?] at hx
  have hname : x.name = host := by simpa using List.find?_some hx
  have hsame : ((fun h : Host => decide (h.name = host)) ∘ fun h : Host =>
      if h.name = host then { h with connections := h.connections.insert plugin other } else h)
      = fun h : Host => decide (h.name = host) := by
    funext h
    simp only [Function.comp_apply]
    split <;> rfl
  rw [host_eq_ok_iff, firstHost?, withSettings, List.find?_map, hsame, hx, Option.map_some,
    if_pos hname]

/-- Settings for the other protocol make no difference to the way to a plugin. -/
theorem Routed.withSettings {other : Connection} (h : Routed r host plugin route)
    {p : PluginMeta} {q : Protocol} (hp : route.container.info plugin = .ok p)
    (hq : Protocol.parse p.protocol = .ok q) (hother : other.only q = route.connection.only q) :
    Routed (r.withSettings host plugin other) host plugin
      { route with connection := other } := by
  obtain ⟨x, hx, -⟩ := h.connection
  obtain ⟨p', q', hp', hq', hport⟩ := h.speaks
  obtain rfl : p' = p := Except.ok.inj (hp'.symm.trans hp)
  obtain rfl : q' = q := Except.ok.inj (hq'.symm.trans hq)
  obtain ⟨-, hkept⟩ := container_eq_ok_iff.1 h.container
  have hnew := host_withSettings hx plugin other
  refine ⟨container_eq_ok_iff.2 ⟨⟨_, hnew⟩, hkept⟩, ⟨_, hnew, ?_⟩, p', q', hp, hq, ?_⟩
  · rw [NameMap.get?_insert, if_pos rfl]
  · rw [← Connection.port_only, hother, Connection.port_only, hport]

theorem Routed.handle_withSettings {other : Connection} (h : Routed r host plugin route)
    {x : Handle} (hx : handle host plugin route = .ok x)
    (hother : other.only x.protocol = route.connection.only x.protocol) :
    handle host plugin { route with connection := other } = .ok x := by
  have husable := h.usable hx
  have hline : other.line x.protocol route.port = some x.call.line := by
    rw [← Connection.line_only, hother, Connection.line_only, husable.line]
  rw [← hx, h.handle_eq husable.info husable.protocol husable.line,
    (h.withSettings husable.info husable.protocol hother).handle_eq husable.info husable.protocol
      hline]

end Registry

/-! ## Whole runs -/

/-- The handle that a start ends with, if it was asked for one. -/
def Errand.given (s : System) (l : Launch) : Errand → List (String × String × Handle)
  | .handle host plugin route =>
    match (Registry.finishHandle s host plugin (.starting route l)).1 with
    | .ok x => [(host, plugin, x)]
    | .error _ => []
  | _ => []

/-- Hosts at work, with what was told and given away on behalf of each plugin. -/
structure Ledger where
  traffic : Traffic
  /-- What runners were asked for, to start a plugin or to replace its process. -/
  asked : List (String × String × SpawnRequest) := []
  given : List (String × String × Handle) := []

namespace Ledger

open Registry Traffic

/-- One step with an entry for all that is told or given away in it.  What a runner is
    asked for is read off the journal. -/
inductive Step : Ledger → Ledger → Prop
  /-- Nobody asks a runner on behalf of a plugin of a host, and no request ends. -/
  | other {b : Ledger} {w : Traffic} (h : Traffic.Step b.traffic w)
      (hwaiting : w.waiting = b.traffic.waiting ∨ ∃ l, w.waiting = (.run, l) :: b.traffic.waiting) :
      Step b { b with traffic := w }
  | beginHandle {b : Ledger} {host plugin label : String} {route : Route} {l : Launch}
      {s' : System} {q : SpawnRequest} {now : Nat}
      (h : b.traffic.registry.beginHandle b.traffic.system host plugin
        = (.ok (.starting route l), s'))
      (hq : s'.journal = (now, .requested label q) :: b.traffic.system.journal) :
      Step b { b with
        traffic := { b.traffic with
          system := s', waiting := (.handle host plugin route, l) :: b.traffic.waiting
          started := carried l ++ b.traffic.started }
        asked := (host, plugin, q) :: b.asked }
  /-- The plugin runs, and there is a handle at once. -/
  | ready {b : Ledger} {host plugin : String} {route : Route} {s' : System} {x : Handle}
      (h : b.traffic.registry.beginHandle b.traffic.system host plugin = (.ok (.ready route), s'))
      (hx : (finishHandle s' host plugin (.ready route)).1 = .ok x) :
      Step b { b with given := (host, plugin, x) :: b.given }
  | beginRestart {b : Ledger} {signal : Signal} {label : String} {l : Launch} {s' : System}
      {q : SpawnRequest} {now : Nat}
      (h : b.traffic.registry.beginRestart b.traffic.system signal = (some l, s'))
      (hq : s'.journal = (now, .requested label q) :: b.traffic.system.journal) :
      Step b { b with
        traffic := { b.traffic with
          system := s', waiting := (.restart signal, l) :: b.traffic.waiting
          started := carried l ++ b.traffic.started, answered := signal :: b.traffic.answered }
        asked := (signal.host, signal.plugin, q) :: b.asked }
  | finish {b : Ledger} {e : Errand} {l : Launch} {rest : List (Errand × Launch)}
      (h : b.traffic.waiting.Perm ((e, l) :: rest)) :
      Step b { b with
        traffic := { b.traffic with
          system := e.finish b.traffic.system l, waiting := rest
          started := born b.traffic.system l ++ b.traffic.started }
        given := e.given b.traffic.system l ++ b.given }

/-- What can come of hosts whose pools are there and empty. -/
inductive Reachable (hosts : List Host) (policy : Retry.Policy) : Ledger → Prop
  | init {s : System} (hpools : ∀ h ∈ hosts, h.pool < s.pools.length)
      (hempty : ∀ i, s.table i = .empty) :
      Reachable hosts policy { traffic := { registry := .ofHosts hosts policy, system := s } }
  | step {b b' : Ledger} (h : Reachable hosts policy b) (hs : Step b b') :
      Reachable hosts policy b'

variable {hosts : List Host} {policy : Retry.Policy} {b b' : Ledger} {w : Traffic}

/-- What a runner is asked for to replace a process is a start at the known port. -/
theorem asked_of_beginRestart {r : Registry} {s s' : System} {signal : Signal} {l : Launch}
    (h : r.beginRestart s signal = (some l, s')) :
    ∃ port q, r.port signal.host signal.plugin = .ok port ∧ q.name = signal.plugin ∧
      q.port = port ∧ ∃ now label, s'.journal = (now, .requested label q) :: s.journal := by
  rcases r.beginRestart_cases s signal with hnone | ⟨c, port, -, -, hport, hrest⟩
  · rw [hnone] at h
    cases h
  · rcases hrest with ⟨e, -, hnone⟩ | ⟨l', t, -, hrun, hsome⟩
    · rw [hnone] at h
      cases h
    · rw [hsome] at h
      obtain ⟨-, rfl⟩ := Prod.mk.inj h
      obtain ⟨-, -, -, ⟨q, hname, hq, hjournal⟩, -⟩ := Container.beginRun_spec hrun
      -- The killing before it has left the journal alone.
      rw [(System.kill_kills s c.pool signal.plugin).journal] at hjournal
      exact ⟨port, q, hport, hname, hq, _, _, hjournal⟩

/-- A step of a ledger is one of the hosts, or nothing happens to them. -/
theorem Step.traffic (hs : Step b b') :
    Traffic.Step b.traffic b'.traffic ∨ b'.traffic = b.traffic := by
  cases hs with
  | other h => exact .inl h
  | beginHandle h => exact .inl (.beginHandle h)
  | ready => exact .inr rfl
  | beginRestart h => exact .inl (.beginRestart h)
  | finish h => exact .inl (.finish h)

/-- Whatever the hosts do can be entered. -/
theorem exists_step (h : Traffic.Step b.traffic w) : ∃ b', Step b b' ∧ b'.traffic = w := by
  have hother : ∀ hwaiting, ∃ b', Step b b' ∧ b'.traffic = w :=
    fun hwaiting => ⟨_, .other h hwaiting, rfl⟩
  cases h with
  | beginHandle hbegin =>
    obtain ⟨-, -, -, ⟨q, -, -, hjournal⟩, -⟩ :=
      Container.beginRun_spec (beginRun_of_beginHandle hbegin).2
    exact ⟨_, .beginHandle hbegin hjournal, rfl⟩
  | beginRestart hbegin =>
    obtain ⟨_, q, -, -, -, _, _, hjournal⟩ := asked_of_beginRestart hbegin
    exact ⟨_, .beginRestart hbegin hjournal, rfl⟩
  | finish hperm => exact ⟨_, .finish hperm, rfl⟩
  | beginRun hrun => exact hother (.inr ⟨_, rfl⟩)
  | _ => exact hother (.inl rfl)

theorem Reachable.traffic (hb : Reachable hosts policy b) :
    Traffic.Reachable hosts policy b.traffic := by
  induction hb with
  | init hpools hempty => exact .init hpools hempty
  | step _ hs ih =>
    rcases hs.traffic with h | h
    · exact ih.step h
    · rw [h]
      exact ih

/-! ## The invariant -/

/-- Everything in a ledger belongs to a way that the registry knows. -/
structure Agrees (b : Ledger) : Prop where
  asked : ∀ host plugin q, (host, plugin, q) ∈ b.asked →
    ∃ route, Routed b.traffic.registry host plugin route ∧ q.name = plugin ∧ q.port = route.port
  given : ∀ host plugin x, (host, plugin, x) ∈ b.given →
    ∃ route, Routed b.traffic.registry host plugin route ∧ handle host plugin route = .ok x

theorem routed_of_step {host plugin : String} {route : Route} {w' : Traffic}
    (hserves : Serves hosts w.registry) (hs : Traffic.Step w w')
    (h : Routed w.registry host plugin route) : Routed w'.registry host plugin route := by
  cases hs with
  | setup storage name => exact h.setup hserves storage name
  | _ => exact h

/-- What agrees goes on to do so while the hosts work. -/
theorem Agrees.moved (h : Agrees b) (hserves : Serves hosts b.traffic.registry)
    (hs : Traffic.Step b.traffic w) :
    Agrees { b with traffic := w } where
  asked := by
    intro host plugin q hmem
    obtain ⟨route, hrouted, hq⟩ := h.asked host plugin q hmem
    exact ⟨route, routed_of_step hserves hs hrouted, hq⟩
  given := by
    intro host plugin x hmem
    obtain ⟨route, hrouted, hx⟩ := h.given host plugin x hmem
    exact ⟨route, routed_of_step hserves hs hrouted, hx⟩

theorem Agrees.ask (h : Agrees b) {host plugin : String} {q : SpawnRequest} {route : Route}
    (hrouted : Routed b.traffic.registry host plugin route) (hname : q.name = plugin)
    (hport : q.port = route.port) : Agrees { b with asked := (host, plugin, q) :: b.asked } where
  asked := by
    intro host' plugin' q' hmem
    rcases List.mem_cons.1 hmem with heq | hold
    · cases heq
      exact ⟨route, hrouted, hname, hport⟩
    · exact h.asked host' plugin' q' hold
  given := h.given

theorem Agrees.give (h : Agrees b) {new : List (String × String × Handle)}
    (hnew : ∀ host plugin x, (host, plugin, x) ∈ new →
      ∃ route, Routed b.traffic.registry host plugin route ∧ handle host plugin route = .ok x) :
    Agrees { b with given := new ++ b.given } where
  asked := h.asked
  given := by
    intro host plugin x hmem
    rcases List.mem_append.1 hmem with hnow | hold
    · exact hnew host plugin x hnow
    · exact h.given host plugin x hold

theorem Agrees.step (h : Agrees b) (hb : Reachable hosts policy b) (hs : Step b b') :
    Agrees b' := by
  have hserves := hb.traffic.serves
  cases hs with
  | other hstep => exact h.moved hserves hstep
  | @beginHandle host plugin label route l s' q now hbegin hq =>
    -- The request that the journal shows is the one that the start has made.
    obtain ⟨hroute, hrun⟩ := beginRun_of_beginHandle hbegin
    obtain ⟨-, -, -, ⟨q', hname, hport, hjournal⟩, -⟩ := Container.beginRun_spec hrun
    rw [hjournal] at hq
    cases hq
    have hasked := h.ask (hserves.routed hroute) hname hport
    exact hasked.moved hserves (.beginHandle hbegin)
  | @ready host plugin route s' x hbegin hx =>
    have hrouted := hserves.routed (route_of_beginHandle_ready hbegin)
    have hnew : ∀ host' plugin' x', (host', plugin', x') ∈ [(host, plugin, x)] →
        ∃ route, Routed b.traffic.registry host' plugin' route ∧
          handle host' plugin' route = .ok x' := by
      intro host' plugin' x' hmem
      cases List.mem_singleton.1 hmem
      exact ⟨route, hrouted, hx⟩
    exact h.give hnew
  | @beginRestart signal label l s' q now hbegin hq =>
    obtain ⟨port, q', hknown, hname, hport, now', label', hjournal⟩ := asked_of_beginRestart hbegin
    rw [hjournal] at hq
    cases hq
    obtain ⟨route, hrouted, rfl⟩ := hserves.exists_routed_of_port hknown
    have hasked := h.ask hrouted hname hport
    exact hasked.moved hserves (.beginRestart hbegin)
  | @finish e l rest hperm =>
    have hgiven : ∀ host plugin x, (host, plugin, x) ∈ e.given b.traffic.system l →
        ∃ route, Routed b.traffic.registry host plugin route ∧
          handle host plugin route = .ok x := by
      intro host plugin x hmem
      cases e with
      | run => cases hmem
      | restart signal => cases hmem
      | handle host' plugin' route =>
        have hwaits := hb.traffic.awaited host' plugin' route l (hperm.mem_iff.2 List.mem_cons_self)
        rw [Errand.given] at hmem
        split at hmem
        · rename_i x' hx
          cases List.mem_singleton.1 hmem
          exact ⟨route, hwaits.routed, handle_of_finishHandle hx⟩
        · cases hmem
    exact (h.give hgiven).moved hserves (.finish hperm)

theorem Reachable.agrees (hb : Reachable hosts policy b) : Agrees b := by
  induction hb with
  | init =>
    exact ⟨fun _ _ _ h => absurd h List.not_mem_nil, fun _ _ _ h => absurd h List.not_mem_nil⟩
  | step hb hs ih => exact ih.step hb hs

/-! ## The port of a plugin -/

/-- Where a plugin is reached: by the settings of its host for it, over the protocol that
    it declares, at the port that is set for this protocol. -/
structure Addressed (r : Registry) (host plugin : String) (connection : Connection)
    (protocol : Protocol) (port : UInt16) : Prop where
  settings : ∃ x, r.host host = .ok x ∧ x.connections.get? plugin = some connection
  declared : ∃ c p, r.container host = .ok c ∧ c.info plugin = .ok p ∧
    Protocol.parse p.protocol = .ok protocol
  set : connection.port protocol = some port
  answered : r.port host plugin = .ok port

/-- Who makes the requests to a plugin at a port: they go to the address that is set, with
    that port, and may take as long as is set; zero stands for five seconds. -/
def callerAt (o : Rest.Options) (port : UInt16) : Rest.Caller where
  base := Rest.origin o.address ++ ":" ++ toString port.toNat
  timeout := if o.timeout = 0 then 5000 else o.timeout

/-- What a call may do that keeps to a protocol and a port.  Connections are made by the
    connector that is set, or if none is by that of the plugin itself. -/
inductive Keeps {κ : Type} (host plugin : String) (connection : Connection) (port : UInt16) :
    Protocol → Wire.Interaction κ → Prop
  | request {o : Rest.Options} {r : Http.Request} (ho : connection.rest = some o) :
      Keeps host plugin connection port .rest (.request (callerAt o port) r)
  | dial {connector : String} (hset : connection.connector = some connector) :
      Keeps host plugin connection port .grpc (.dial connector port)
  | dialOwn (hset : connection.connector = none) :
      Keeps host plugin connection port .grpc (.dial (peerName host plugin) port)
  | call {k : κ} {c : Call} : Keeps host plugin connection port .grpc (.call k c)

/-- That a handle keeps to a port: as the settings for its protocol say, with their
    address and their timeout or their connector, in all that its calls do. -/
structure Talks (host plugin : String) (connection : Connection) (port : UInt16) (x : Handle) :
    Prop where
  /-- An attempt is one request, and over the servers of this machine it takes no longer
      than it may. -/
  rest : x.protocol = .rest → ∃ o, connection.rest = some o ∧ o.port = port ∧
    x.call.line = .rest o ∧
    (∀ {σ κ : Type} (w : Wire σ κ) (c : Call) (s : σ), ∃ r, Rest.Carries c r ∧
      (w.recorded.attempt c x.call (s, [])).2.2 = [.request (callerAt o port) r]) ∧
    ∀ (network : Http.Network) (c : Call) (s : NameMap Peer × Nat),
      ((Peer.wire network).attempt c x.call s).1.elapsed ≤ (callerAt o port).timeout
  /-- An attempt begins with a connection to the port. -/
  grpc : x.protocol = .grpc → connection.rpc = some port ∧
    x.call.line = .rpc port connection.connector ∧
    ∀ {σ κ : Type} (w : Wire σ κ) (c : Call) (s : σ),
      (w.recorded.attempt c x.call (s, [])).2.2
        = w.dialled (connection.connector.getD (peerName host plugin)) port c s
  keeps : ∀ {σ κ : Type} (w : Wire σ κ) (c : Call) (now fuel : Nat) (s s' : σ)
    (run : Retry.Run Answer) (log : List (Wire.Interaction κ)),
      x.call.runOver w.recorded c now fuel (s, []) = some (run, s', log) →
        ∀ i ∈ log, Keeps host plugin connection port x.protocol i

theorem addressed_of_routed {r : Registry} {host plugin : String} {route : Route} {p : PluginMeta}
    {q : Protocol} (h : Routed r host plugin route) (hp : route.container.info plugin = .ok p)
    (hq : Protocol.parse p.protocol = .ok q) (hport : route.connection.port q = some route.port) :
    Addressed r host plugin route.connection q route.port :=
  ⟨h.connection, ⟨route.container, p, h.container, hp, hq⟩, hport, h.port_eq⟩

theorem callerAt_port (o : Rest.Options) : callerAt o o.port = o.caller :=
  rfl

section
variable {host plugin : String} {route : Route} {x : Handle}

theorem keeps_of_mem_trace {σ κ : Type} (h : Usable host plugin route x) (w : Wire σ κ)
    (c : Call) (s : σ) :
    ∀ i ∈ w.trace c x.call s, Keeps host plugin route.connection route.port x.protocol i := by
  intro i hi
  rcases Connection.line_eq h.port h.line with ⟨o, hq, ho, hset, hline⟩ | ⟨hq, -, hline⟩
  · rw [Wire.trace_rest hline, List.mem_singleton] at hi
    rw [hi, hq, ← callerAt_port, hset]
    exact .request ho
  · have hdial : Keeps (κ := κ) host plugin route.connection route.port .grpc
        (.dial (route.connection.connector.getD (peerName host plugin)) route.port) := by
      cases hset : route.connection.connector with
      | none => exact .dialOwn hset
      | some connector => exact .dial hset
    rw [Wire.trace_rpc hline, h.peer, Wire.dialled] at hi
    rw [hq]
    split at hi
    · rcases List.mem_cons.1 hi with rfl | hi
      · exact hdial
      · rw [List.mem_singleton.1 hi]
        exact .call
    · rw [List.mem_singleton.1 hi]
      exact hdial

theorem talks_of_usable (h : Usable host plugin route x) :
    Talks host plugin route.connection route.port x where
  rest := by
    intro hq
    rcases Connection.line_eq h.port h.line with ⟨o, -, ho, hset, hline⟩ | ⟨hgrpc, -⟩
    · refine ⟨o, ho, hset, hline, ?_, ?_⟩
      · intro σ κ w c s
        refine ⟨Rest.request c, Rest.carries_request c, ?_⟩
        rw [Wire.attempt_recorded, Wire.trace_rest hline, ← hset]
        rfl
      · intro network c s
        rw [Wire.elapsed_attempt_rest hline, ← hset, callerAt_port]
        exact Rest.elapsed_exchange_le o.caller network s.2 (Rest.request c)
    · rw [hq] at hgrpc
      cases hgrpc
  grpc := by
    intro hq
    rcases Connection.line_eq h.port h.line with ⟨o, hrest, -⟩ | ⟨-, hrpc, hline⟩
    · rw [hq] at hrest
      cases hrest
    · refine ⟨hrpc, hline, fun w c s => ?_⟩
      rw [Wire.attempt_recorded, Wire.trace_rpc hline, h.peer]
      rfl
  keeps := by
    intro σ κ w c now fuel s s' run log hrun i hi
    obtain ⟨n, -, -, -, rfl⟩ := (Wire.runOver_recorded w c x.call s).1 hrun
    obtain ⟨k, -, hk⟩ := List.mem_flatMap.1 hi
    exact keeps_of_mem_trace h w c _ i hk

end

/-- During a whole run of all hosts, whoever asks for handles and whatever is restarted:
    every runner that was asked for a plugin was told the port that the registry answers,
    which is that of the settings for the declared protocol, and every handle that was
    given away keeps to the same port and protocol.  With other settings for the other
    protocol it would be the same port and the same handle. -/
theorem ports_agree (hb : Reachable hosts policy b) :
    (∀ host plugin q, (host, plugin, q) ∈ b.asked →
      q.name = plugin ∧ ∃ connection protocol,
        Addressed b.traffic.registry host plugin connection protocol q.port ∧
        ∀ other : Connection, other.only protocol = connection.only protocol →
          (b.traffic.registry.withSettings host plugin other).port host plugin = .ok q.port) ∧
    (∀ host plugin x, (host, plugin, x) ∈ b.given →
      ∃ connection port, Addressed b.traffic.registry host plugin connection x.protocol port ∧
        Talks host plugin connection port x ∧
        ∀ other : Connection, other.only x.protocol = connection.only x.protocol →
          ∃ route, (b.traffic.registry.withSettings host plugin other).route host plugin
              = .ok route ∧ handle host plugin route = .ok x) := by
  have hagrees := hb.agrees
  constructor
  · intro host plugin q hmem
    obtain ⟨route, hrouted, hname, hport⟩ := hagrees.asked host plugin q hmem
    obtain ⟨p, protocol, hp, hq, hset⟩ := hrouted.speaks
    rw [hport]
    refine ⟨hname, route.connection, protocol, addressed_of_routed hrouted hp hq hset, ?_⟩
    intro other hother
    exact (hrouted.withSettings hp hq hother).port_eq
  · intro host plugin x hmem
    obtain ⟨route, hrouted, hx⟩ := hagrees.given host plugin x hmem
    have husable := hrouted.usable hx
    refine ⟨route.connection, route.port,
      addressed_of_routed hrouted husable.info husable.protocol husable.port,
      talks_of_usable husable, ?_⟩
    intro other hother
    exact ⟨_, (hrouted.withSettings husable.info husable.protocol hother).route_eq,
      hrouted.handle_withSettings hx hother⟩

/-! ## One plugin with two ports -/

/-- Settings for both protocols, without a timeout of their own. -/
def twoWays : Connection where
  rest := some { address := "localhost/", port := 7, timeout := 0 }
  rpc := some 8
  connector := some "dialler"

def twoWayHost : Host :=
  { echoHost with connections := .ofList [("echo", twoWays)] }

/-- The host after its setup. -/
def setUp : Ledger where
  traffic := {
    registry :=
      ((Registry.ofHosts [twoWayHost] {}).setup { known := [("echo", .file [])] } "host").2
    system := idle [{ outcome := .ok (5, .watched) }, { outcome := .ok (6, .watched) }] }

def twoWayRoute : Route :=
  { echoRoute with
    connection := twoWays
    container := ((twoWayHost.container {}).setup { known := [("echo", .file [])] }).container }

def firstRequest : SpawnRequest where
  name := "echo"
  command := "run"
  arguments := []
  port := 7

def asking : Ledger where
  traffic := { setUp.traffic with
    system := (setUp.traffic.registry.beginHandle setUp.traffic.system "host" "echo").2
    waiting := [(.handle "host" "echo" twoWayRoute, echoLaunch)] }
  asked := [("host", "echo", firstRequest)]

/-- The first process has come, and the request has ended. -/
def serving : Ledger where
  traffic := { asking.traffic with
    system := Errand.finish asking.traffic.system echoLaunch (.handle "host" "echo" twoWayRoute)
    waiting := []
    started := born asking.traffic.system echoLaunch }
  asked := asking.asked
  given := Errand.given asking.traffic.system echoLaunch (.handle "host" "echo" twoWayRoute)

/-- The process was found dead, and another one is asked for. -/
def replacing : Ledger where
  traffic := { serving.traffic with
    system := (serving.traffic.registry.beginRestart serving.traffic.system ⟨"host", "echo", 5⟩).2
    waiting := [(.restart ⟨"host", "echo", 5⟩, ⟨0, "echo", 0, .ok (.due 6 .watched)⟩)]
    answered := [⟨"host", "echo", 5⟩] }
  asked := [("host", "echo", firstRequest), ("host", "echo", firstRequest)]
  given := serving.given

theorem reachable_replacing : Reachable [twoWayHost] {} replacing := by
  have hempty : ∀ i, setUp.traffic.system.table i = .empty := by
    intro i
    cases i with
    | zero => rfl
    | succ i => rfl
  have hpools : ∀ h ∈ [twoWayHost], h.pool < setUp.traffic.system.pools.length := by
    intro h hmem
    rw [List.mem_singleton.1 hmem]
    exact Nat.zero_lt_one
  have hsetUp : Reachable [twoWayHost] {} setUp :=
    (Reachable.init hpools hempty).step (.other (.setup _ _) (.inl rfl))
  have hasking : Reachable [twoWayHost] {} asking :=
    hsetUp.step (.beginHandle rfl rfl)
  have hserving : Reachable [twoWayHost] {} serving :=
    hasking.step (.finish (.refl _))
  exact hserving.step (.beginRestart rfl rfl)

/-- Both processes were told the port of the declared protocol, and the handle calls by
    it, though there is another port and a connector. -/
theorem echo_ports_agree :
    replacing.asked.length = 2 ∧ (∀ q, ("host", "echo", q) ∈ replacing.asked → q.port = 7) ∧
    ∃ x, ("host", "echo", x) ∈ replacing.given ∧ ∃ r, Rest.Carries .ping r ∧
      ((Peer.wire fun _ => .silent).recorded.attempt .ping x.call ((.empty, 0), [])).2.2
        = [.request ⟨"http://localhost:7", 5000⟩ r] := by
  have hknown : replacing.traffic.registry.port "host" "echo" = .ok 7 := rfl
  have hbase : Rest.origin "localhost/" ++ ":" ++ toString (7 : UInt16).toNat
      = "http://localhost:7" := by decide +kernel
  obtain ⟨hasked, hgiven⟩ := ports_agree reachable_replacing
  refine ⟨rfl, ?_, ?_⟩
  · intro q hmem
    obtain ⟨-, connection, protocol, haddressed, -⟩ := hasked "host" "echo" q hmem
    exact Except.ok.inj (haddressed.answered.symm.trans hknown)
  · obtain ⟨x, hx, hrest⟩ : ∃ x, ("host", "echo", x) ∈ replacing.given ∧ x.protocol = .rest :=
      ⟨_, List.mem_cons_self, rfl⟩
    obtain ⟨connection, port, haddressed, htalks, -⟩ := hgiven "host" "echo" x hx
    obtain ⟨o, ho, -, -, hrequest, -⟩ := htalks.rest hrest
    have hseven : port = 7 := Except.ok.inj (haddressed.answered.symm.trans hknown)
    obtain ⟨y, hy, hset⟩ := haddressed.settings
    cases hy
    cases hset
    cases ho
    obtain ⟨r, hr, hdone⟩ := hrequest (Peer.wire fun _ => .silent) .ping (.empty, 0)
    rw [hseven, callerAt, hbase, if_pos rfl] at hdone
    exact ⟨x, hx, r, hr, hdone⟩

end Ledger

end PluginHost
