/-
  PluginHost.Proofs.Startup.Course

  Starting the plugins of hosts, all at once.  Each start asks a runner, waits, and is
  followed by the first call of its plugin, which may take its time; meanwhile the other
  ones do the same, in any order (`Startup.Step`).

  What keeps them apart is that a table knows a plugin only when its start has ended
  (`Inv.entries`), and that no plugin is started twice.  So a start always finds its place
  free and asks its runner once, and its call comes to what the replies to it make of it
  (`FirstCall.UnderWay`), whatever becomes of the others (`Steps.inv`).
-/
import PluginHost.Proofs.Outliving
import PluginHost.Proofs.Startup.FirstCall
import PluginHost.Proofs.Startup.Targets
import PluginHost.Proofs.System.Scene

namespace PluginHost

open CommandLine

/-- Plugins that are being started: those whose start has not begun, those whose start
    waits, those that are being called, and those that have been dealt with. -/
structure Startup (σ κ : Type) where
  system : System
  pending : List Target
  waiting : List (Target × Except Error Registry.HandleStep) := []
  calling : List (Target × FirstCall σ) := []
  greeted : List (Target × Greeting) := []
  /-- What first calls have done at the other ends, for which plugin and when, as it was
      taken note of. -/
  done : List (Target × Nat × Wire.Interaction κ) := []

namespace Startup

variable {σ κ : Type}

/-- The plugins whose start has come to its end. -/
def started (x : Startup σ κ) : List Target :=
  x.calling.map (·.1) ++ x.greeted.map (·.1)

/-- The plugins whose start has begun. -/
def begun (x : Startup σ κ) : List Target :=
  x.waiting.map (·.1) ++ x.started

/-- What the first call of a plugin has done, and when. -/
def doneFor (x : Startup σ κ) (t : Target) : List (Nat × Wire.Interaction κ) :=
  x.done.filterMap fun d => if d.1 = t then some d.2 else none

/-- Everything has come to its end. -/
structure IsOver (x : Startup σ κ) : Prop where
  pending : x.pending = []
  waiting : x.waiting = []
  calling : x.calling = []

/-- One start goes on, or nothing but time, in which children may end.  What the other ends
    are like for a plugin when it is called for the first time, `ends` says: each of them
    may take the requests as it likes. -/
inductive Step (r : Registry) (wire : Wire σ κ) (ends : Target → σ) :
    Option Target → Startup σ κ → Startup σ κ → Prop
  /-- A start looks whether its plugin runs, and asks the runner if it does not. -/
  | begin {x : Startup σ κ} {t : Target} {rest : List Target}
      (h : x.pending.Perm (t :: rest)) :
      Step r wire ends (some t) x { x with
        system := (r.beginHandle x.system t.host t.plugin).2
        pending := rest
        waiting := (t, (r.beginHandle x.system t.host t.plugin).1) :: x.waiting }
  /-- The start has come to nothing. -/
  | fail {x : Startup σ κ} {t : Target} {step : Except Error Registry.HandleStep}
      {rest : List (Target × Except Error Registry.HandleStep)} {e : Error} {s : System}
      (h : x.waiting.Perm ((t, step) :: rest)) (hdue : startDue step ≤ x.system.now)
      (hend : endStart x.system t step = (.error e, s)) :
      Step r wire ends (some t) x { x with
        system := s, waiting := rest, greeted := (t, ⟨.error e, s.now, []⟩) :: x.greeted }
  /-- The start has come to a handle, by which the plugin is called. -/
  | call {x : Startup σ κ} {t : Target} {step : Except Error Registry.HandleStep}
      {rest : List (Target × Except Error Registry.HandleStep)} {h : Handle} {s : System}
      (hperm : x.waiting.Perm ((t, step) :: rest)) (hdue : startDue step ≤ x.system.now)
      (hend : endStart x.system t step = (.ok h, s)) :
      Step r wire ends (some t) x { x with
        system := s, waiting := rest
        calling := (t, .start h.call s.now (ends t)) :: x.calling }
  /-- A first call goes on. -/
  | goOn {x : Startup σ κ} {t : Target} {c c' : FirstCall σ}
      {rest : List (Target × FirstCall σ)} {new : List (Nat × Wire.Interaction κ)}
      (h : x.calling.Perm ((t, c) :: rest)) (hstep : c.Step wire x.system.now c' new) :
      Step r wire ends (some t) x { x with
        calling := (t, c') :: rest, done := x.done ++ new.map (t, ·) }
  /-- A first call is over. -/
  | greet {x : Startup σ κ} {t : Target} {c : FirstCall σ} {rest : List (Target × FirstCall σ)}
      {g : Greeting} (h : x.calling.Perm ((t, c) :: rest))
      (hcomes : c.Comes wire x.system.now g) :
      Step r wire ends (some t) x { x with
        calling := rest, greeted := (t, g) :: x.greeted }
  | pass {x : Startup σ κ} (moment : Nat) :
      Step r wire ends none x { x with system := x.system.advanceTo moment }
  | crash {x : Startup σ κ} (pid : Nat) :
      Step r wire ends none x { x with system := x.system.crash pid }

/-- Starts go on in any order. -/
abbrev Steps (r : Registry) (wire : Wire σ κ) (ends : Target → σ) :
    Startup σ κ → Startup σ κ → Prop :=
  Relation.ReflTransGen fun x y => ∃ who, Step r wire ends who x y

/-- Only one start goes on, while time passes; nothing else happens, and nobody else does
    anything. -/
abbrev Alone (r : Registry) (wire : Wire σ κ) (ends : Target → σ) (t : Target) :
    Startup σ κ → Startup σ κ → Prop :=
  Relation.ReflTransGen fun x y => Step r wire ends (some t) x y ∨
    ∃ moment, y = { x with system := x.system.advanceTo moment }

/-- Nothing has begun. -/
def init (w : World) (o : ServeOptions) (names : List String) (r : Registry) : Startup σ κ where
  system := idleSystem w o names
  pending := startTargets r

variable {w : World} {config : Config} {o : ServeOptions} {names : List String} {r : Registry}
  {wire : Wire σ κ} {ends : Target → σ} {x y : Startup σ κ} {t : Target}
  {e : Config.PluginEntry} {port : UInt16} {c : Container}

theorem Step.steps {who : Option Target} (h : Step r wire ends who x y) :
    Steps r wire ends x y :=
  .single ⟨who, h⟩

theorem Alone.steps (h : Alone r wire ends t x y) : Steps r wire ends x y := by
  refine Relation.ReflTransGen.mono (fun x y hstep => ?_) _ _ h
  rcases hstep with hstep | ⟨moment, rfl⟩
  · exact ⟨_, hstep⟩
  · exact ⟨_, .pass moment⟩

/-- What a first call does concerns its own plugin alone. -/
theorem doneFor_append (x : Startup σ κ) (t t' : Target) (new : List (Nat × Wire.Interaction κ)) :
    doneFor { x with done := x.done ++ new.map (t, ·) } t'
      = x.doneFor t' ++ if t = t' then new else [] := by
  rw [doneFor, List.filterMap_append, List.filterMap_map, doneFor]
  by_cases ht : t = t' <;> simp [ht]

/-! ## Spawned programs -/

/-- A program that a runner is asked for, on behalf of a plugin. -/
structure Spawn where
  target : Target
  command : String
  arguments : List String
  deriving DecidableEq

/-- What a runner of the machine starts, when it is asked. -/
def spawn? (flag : String) : Nat × Event → Option Spawn
  | (_, .requested label q) => some ⟨⟨label, q.name⟩, q.command, q.commandLine flag⟩
  | _ => none

/-- The programs spawned for a plugin so far, the last one first. -/
def spawns (flag : String) (s : System) (t : Target) : List Spawn :=
  (s.journal.filterMap (spawn? flag)).filter fun sp => sp.target = t

/-- The program of a plugin: its own command and arguments, then the flag and the port. -/
def spawnOf (flag : String) (t : Target) (e : Config.PluginEntry) (port : UInt16) : Spawn where
  target := t
  command := e.command
  arguments := e.arguments ++ [flag, toString port.toNat]

theorem spawns_of_journal {s s' : System} (h : s'.journal = s.journal) (flag : String)
    (t : Target) : spawns flag s' t = spawns flag s t := by
  rw [spawns, h, spawns]

/-- One request more is one program more, for its own plugin alone. -/
theorem spawns_of_requested {flag label : String} {q : SpawnRequest} {s s' : System} {now : Nat}
    (h : s'.journal = (now, .requested label q) :: s.journal) (t : Target) :
    spawns flag s' t = (if (⟨label, q.name⟩ : Target) = t
      then [⟨⟨label, q.name⟩, q.command, q.commandLine flag⟩] else []) ++ spawns flag s t := by
  have hone : spawn? flag (now, .requested label q)
      = some ⟨⟨label, q.name⟩, q.command, q.commandLine flag⟩ := rfl
  rw [spawns, h, List.filterMap_cons_some hone, List.filter_cons]
  by_cases ht : (⟨label, q.name⟩ : Target) = t
  · simp [ht, spawns]
  · simp [ht, spawns]

/-! ## How a start ends -/

/-- How the program of a plugin goes on, or why it cannot be started. -/
def program (w : World) (o : ServeOptions) (e : Config.PluginEntry) (port : UInt16) :
    Except IoFault Behaviour :=
  w.programs w.surroundings.storage e.command (e.arguments ++ [o.portFlag, toString port.toNat])

/-- How a plugin is called that was started at a port. -/
def callOn (o : ServeOptions) (t : Target) (port : UInt16) : CallLine :=
  ⟨.rest { address := o.address, port }, Registry.peerName t.host t.plugin, {}⟩

/-- Who makes the requests to a plugin at a port: they go to that port of the address that
    is set, and each of them may take five seconds. -/
def caller (o : ServeOptions) (port : UInt16) : Rest.Caller :=
  ⟨Rest.origin o.address ++ ":" ++ toString port.toNat, 5000⟩

/-- A start ends with the fault of its own program, if that cannot be started, and then its
    plugin is not asked anything.  Otherwise the plugin is pinged at its own port, at once
    and as long as the replies ask for it, for ten seconds at most; and what comes of it is
    what the replies make of it. -/
structure EndsAs (w : World) (o : ServeOptions) (wire : Wire σ κ) (s : σ) (t : Target)
    (e : Config.PluginEntry) (port : UInt16) (done : List (Nat × Wire.Interaction κ))
    (g : Greeting) : Prop where
  failed : ∀ fault, program w o e port = .error fault →
    g.reply = .error (.cannotStart t.plugin fault) ∧ done = []
  called : ∀ behaviour, program w o e port = .ok behaviour → ∃ began n,
    FirstCall.Pinged wire (caller o port) s began n g.reply g.finish ∧
    done = ((List.range (n + 1)).map fun i =>
      (FirstCall.pingedAt wire (caller o port) s began i,
        .request (caller o port) FirstCall.ping)) ∧
    (∀ i ≤ n, FirstCall.pingedAt wire (caller o port) s began i ≤ began + 10000) ∧
    g.asked = if ({ address := o.address, port } : Rest.Options).isLocal
      then List.replicate (n + 1) (port, FirstCall.ping) else []

/-- A first call that is over was made to its own plugin. -/
theorem endsAs_of_comes {behaviour : Behaviour} (hprogram : program w o e port = .ok behaviour)
    {s : σ} {done : List (Nat × Wire.Interaction κ)} {first : FirstCall σ} {now : Nat}
    {g : Greeting} (h : FirstCall.UnderWay wire (callOn o t port) s done first)
    (hcomes : first.Comes wire now g) : EndsAs w o wire s t e port done g where
  failed fault hfault := by
    rw [hprogram] at hfault
    cases hfault
  called _ _ := by
    have hten : pingLimit = 10000 := rfl
    have hdue : FirstCall.dueAt wire (callOn o t port) s first.began
        = FirstCall.pingedAt wire (caller o port) s first.began :=
      FirstCall.dueAt_rest wire s first.began
    obtain ⟨n, hgreets, hdone, htimely⟩ := h.greets hcomes
    rw [hdue, hten] at htimely
    obtain ⟨hpinged, hasked⟩ := hgreets.pinged
    refine ⟨first.began, n, hpinged, ?_, htimely, hasked⟩
    rw [hdone]
    exact FirstCall.doneBy_rest wire s first.began (n + 1)

/-- What is known of a start that waits: a launch is under way for it, and will come to
    what the program makes of it. -/
structure Awaits (w : World) (o : ServeOptions) (r : Registry) (t : Target)
    (step : Except Error Registry.HandleStep) (e : Config.PluginEntry) (port : UInt16)
    (c : Container) (l : Launch) : Prop where
  reached : Reached r o.address t e port c
  step_eq : step = .ok (.starting ⟨settings o.address port, c, port⟩ l)
  pool : l.pool = c.pool
  name : l.name = t.plugin
  carried : ∀ p, l.process? = some p → p.name = l.name
  failed : ∀ fault, program w o e port = .error fault →
    l.outcome = .error (.cannotStart t.plugin fault)
  started : ∀ behaviour, program w o e port = .ok behaviour → ∃ b, l.outcome = .ok b

/-- What the end of a start that was awaited comes to. -/
theorem Awaits.endStart_eq {step : Except Error Registry.HandleStep} {l : Launch} (s : System)
    (h : Awaits w o r t step e port c l) :
    (∃ fault, program w o e port = .error fault ∧
      endStart s t step = (.error (.cannotStart t.plugin fault), s)) ∨
    ∃ behaviour h', program w o e port = .ok behaviour ∧ h'.call = callOn o t port ∧
      endStart s t step = (.ok h', (Container.finishRun s l).2) := by
  rw [h.step_eq]
  cases hprogram : program w o e port with
  | error fault =>
    have hfinish : Registry.finishHandle s t.host t.plugin
        (.starting ⟨settings o.address port, c, port⟩ l)
        = (.error (.cannotStart t.plugin fault), s) :=
      Registry.finishHandle_of_error (h.failed fault hprogram) rfl
    exact .inl ⟨fault, rfl, hfinish⟩
  | ok behaviour =>
    obtain ⟨b, hb⟩ := h.started behaviour hprogram
    refine .inr ⟨behaviour, ⟨t.plugin, .rest, PluginMeta.ofEntry e, callOn o t port⟩, rfl, rfl, ?_⟩
    exact Prod.ext (Registry.finishHandle_of_ok h.reached.handle hb)
      (Registry.finishHandle_system s t.host t.plugin ⟨settings o.address port, c, port⟩ l)

/-! ## The invariant -/

/-- What holds of starts under way, in whatever order they go on. -/
structure Inv (w : World) (config : Config) (o : ServeOptions) (names : List String)
    (r : Registry) (wire : Wire σ κ) (ends : Target → σ) (x : Startup σ κ) : Prop where
  scene : System.SameScene (idleSystem w o names) x.system
  targets : (x.pending ++ x.begun).Perm (startTargets r)
  -- A plugin is entered when its start ends, and not before.
  entries : ∀ host c n p, r.container host = .ok c → (x.system.table c.pool).get? n = some p →
    ⟨host, n⟩ ∈ x.started
  awaited : ∀ t step, (t, step) ∈ x.waiting → ∃ e port c l,
    Startable config w.surroundings.storage names t e port ∧ Awaits w o r t step e port c l
  called : ∀ t first, (t, first) ∈ x.calling → ∃ e port behaviour,
    Startable config w.surroundings.storage names t e port ∧
    program w o e port = .ok behaviour ∧
    FirstCall.UnderWay wire (callOn o t port) (ends t) (x.doneFor t) first
  ended : ∀ t g, (t, g) ∈ x.greeted → ∃ e port,
    Startable config w.surroundings.storage names t e port ∧
    EndsAs w o wire (ends t) t e port (x.doneFor t) g
  undone : ∀ t, t ∉ x.started → x.doneFor t = []
  spawned : ∀ t e port, t ∈ x.begun → Startable config w.surroundings.storage names t e port →
    spawns o.portFlag x.system t = [spawnOf o.portFlag t e port]
  unspawned : ∀ t, t ∉ x.begun → spawns o.portFlag x.system t = []

/-- The pool of a container, before anything is started. -/
theorem seat_idleSystem (hserves : Registry.Serves (makeHosts config o.address names) r)
    {host : String} (hc : r.container host = .ok c) :
    System.seat ((idleSystem w o names).pool c.pool) = (host, .machine o.portFlag) := by
  rw [System.pool, idleSystem, makePools, List.getD_eq_getElem?_getD, List.getElem?_map,
    name_of_container hserves hc]
  rfl

theorem Inv.init (w : World) (config : Config) (o : ServeOptions) (names : List String)
    (r : Registry) (wire : Wire σ κ) (ends : Target → σ) :
    Inv w config o names r wire ends (init w o names r) where
  scene := .refl _
  targets := by
    show (startTargets r ++ []).Perm (startTargets r)
    rw [List.append_nil]
  entries host c n p hc hp := by
    have hempty : (idleSystem w o names).table c.pool = .empty := table_idleSystem w o names c.pool
    have hp : ((idleSystem w o names).table c.pool).get? n = some p := hp
    rw [hempty] at hp
    cases hp
  awaited t step h := by cases h
  called t first h := by cases h
  ended t g h := by cases h
  undone t _ := rfl
  spawned t e port h := by cases h
  unspawned t _ := rfl

/-- What nobody notices, not even the runners. -/
theorem Inv.quiet (inv : Inv w config o names r wire ends x) {s' : System}
    (hscene : System.SameScene x.system s') (h : System.Quiet x.system s') :
    Inv w config o names r wire ends { x with system := s' } where
  scene := inv.scene.trans hscene
  targets := inv.targets
  entries host c n p hc hp := by
    rw [h.table] at hp
    exact inv.entries host c n p hc hp
  awaited := inv.awaited
  called := inv.called
  ended := inv.ended
  undone := inv.undone
  spawned t e port ht hstartable := by
    rw [spawns_of_journal h.journal]
    exact inv.spawned t e port ht hstartable
  unspawned t ht := by
    rw [spawns_of_journal h.journal]
    exact inv.unspawned t ht

section
variable (hnames : names.Nodup)
  (hr : (Registry.ofHosts (makeHosts config o.address names) {}).install
    w.surroundings.storage = .ok r)
include hnames hr

theorem Inv.nodup (inv : Inv w config o names r wire ends x) : (x.pending ++ x.begun).Nodup := by
  have hserves := (Registry.serves_ofHosts (makeHosts config o.address names) {}).install hr
  exact inv.targets.nodup_iff.2 (nodup_startTargets hserves hnames)

/-- A start that begins finds its place free, whatever the others do. -/
theorem Inv.free (inv : Inv w config o names r wire ends x) (ht : t ∈ x.pending)
    (hc : r.container t.host = .ok c) : t ∉ x.begun ∧ x.system.isReady c.pool t.plugin = false := by
  have hnew : t ∉ x.begun := fun hbegun =>
    List.disjoint_of_nodup_append (inv.nodup hnames hr) ht hbegun
  refine ⟨hnew, ?_⟩
  rw [System.isReady_eq_false_iff]
  cases hp : (x.system.table c.pool).get? t.plugin with
  | none => rfl
  | some p =>
    have hstarted := inv.entries t.host c t.plugin p hc hp
    exact absurd (List.mem_append_right _ hstarted) hnew

/-- What the beginning of a start does: its runner is asked for its program. -/
theorem Inv.begins (inv : Inv w config o names r wire ends x) (ht : t ∈ x.pending) :
    ∃ e port c l, Startable config w.surroundings.storage names t e port ∧
      Awaits w o r t (r.beginHandle x.system t.host t.plugin).1 e port c l ∧
      System.SameScene x.system (r.beginHandle x.system t.host t.plugin).2 ∧
      System.Grows x.system (r.beginHandle x.system t.host t.plugin).2 ∧
      (r.beginHandle x.system t.host t.plugin).2.journal = (x.system.now, .requested t.host
        (Container.request t.plugin (PluginMeta.ofEntry e) port)) :: x.system.journal := by
  have hserves := (Registry.serves_ofHosts (makeHosts config o.address names) {}).install hr
  have hmem : t ∈ startTargets r := inv.targets.subset (List.mem_append_left _ ht)
  obtain ⟨e, port, hstartable⟩ := (mem_startTargets_iff hr).1 hmem
  obtain ⟨c, hreached⟩ := hstartable.reached hr
  obtain ⟨-, hfree⟩ := inv.free hnames hr ht hreached.container
  have hbegin := Registry.beginHandle_of_not_ready hreached.route hreached.info hfree
  -- The pool is that of the host, and its runner is the machine.
  have hseat := (inv.scene.seat_eq c.pool).trans (seat_idleSystem hserves hreached.container)
  have hlabel : (x.system.pool c.pool).label = t.host := congrArg Prod.fst hseat
  have hrunner : (x.system.pool c.pool).runner = .machine o.portFlag := congrArg Prod.snd hseat
  let q := Container.request t.plugin (PluginMeta.ofEntry e) port
  obtain ⟨hscene, hfailed, hstarted⟩ := System.askRunner_of_scene hrunner q
  obtain ⟨hpool, hname, hgrows, hjournal, hnew⟩ := System.askRunner_spec x.system c.pool q
  have hprogram : x.system.programs x.system.storage q.command (q.commandLine o.portFlag)
      = program w o e port := by
    rw [inv.scene.programs, inv.scene.storage]
    rfl
  rw [hprogram] at hfailed hstarted
  rw [hlabel] at hjournal
  rw [hbegin]
  refine ⟨e, port, c, (x.system.askRunner c.pool q).1, hstartable, ?_, hscene, hgrows, hjournal⟩
  exact ⟨hreached, rfl, hpool, hname, fun p hp => (hnew p hp).1.trans hname.symm, hfailed, hstarted⟩

theorem Inv.begin (inv : Inv w config o names r wire ends x) {rest : List Target}
    (h : x.pending.Perm (t :: rest)) :
    Inv w config o names r wire ends { x with
      system := (r.beginHandle x.system t.host t.plugin).2
      pending := rest
      waiting := (t, (r.beginHandle x.system t.host t.plugin).1) :: x.waiting } := by
  have ht : t ∈ x.pending := h.symm.subset List.mem_cons_self
  obtain ⟨e, port, c, l, hstartable, hawaits, hscene, hgrows, hjournal⟩ :=
    inv.begins hnames hr ht
  have hnew := (inv.free hnames hr ht hawaits.reached.container).1
  have hspawns (t' : Target) :
      spawns o.portFlag (r.beginHandle x.system t.host t.plugin).2 t'
        = (if t = t' then [spawnOf o.portFlag t e port] else [])
          ++ spawns o.portFlag x.system t' :=
    spawns_of_requested hjournal t'
  constructor
  · exact inv.scene.trans hscene
  · have hmoved : (rest ++ t :: x.begun).Perm (t :: rest ++ x.begun) := List.perm_middle
    exact hmoved.trans ((h.symm.append_right _).trans inv.targets)
  · intro host c n p hc hp
    rw [hgrows.tables] at hp
    exact inv.entries host c n p hc hp
  · intro t' step hmem
    rcases List.mem_cons.1 hmem with heq | hold
    · obtain ⟨rfl, rfl⟩ := Prod.mk.inj heq
      exact ⟨e, port, c, l, hstartable, hawaits⟩
    · exact inv.awaited t' step hold
  · exact inv.called
  · exact inv.ended
  · exact inv.undone
  · intro t' e' port' hbegun hstartable'
    rw [hspawns]
    by_cases heq : t = t'
    · -- The one that has just begun: nothing was spawned for it before.
      subst heq
      obtain ⟨rfl, rfl⟩ := hstartable.unique hstartable'
      rw [if_pos rfl, inv.unspawned t hnew, List.append_nil]
    · have hold : t' ∈ x.begun := (List.mem_cons.1 hbegun).resolve_left (Ne.symm heq)
      rw [if_neg heq, List.nil_append]
      exact inv.spawned t' e' port' hold hstartable'
  · intro t' hnot
    have hne : t ≠ t' := fun heq => hnot (heq ▸ List.mem_cons_self)
    have hold : t' ∉ x.begun := fun hmem => hnot (List.mem_cons_of_mem _ hmem)
    rw [hspawns, if_neg hne, List.nil_append]
    exact inv.unspawned t' hold

/-- A start that waits has not come to its end, and no other one waits for its plugin. -/
theorem Inv.waits (inv : Inv w config o names r wire ends x)
    {step : Except Error Registry.HandleStep}
    {rest : List (Target × Except Error Registry.HandleStep)}
    (h : x.waiting.Perm ((t, step) :: rest)) :
    t ∉ x.started ∧ (rest.map (·.1) ++ t :: x.started).Perm x.begun := by
  have hperm : (rest.map (·.1) ++ t :: x.started).Perm x.begun :=
    List.perm_middle.trans ((h.symm.map Prod.fst).append_right x.started)
  have hbegun : (t :: (rest.map (·.1) ++ x.started)).Nodup :=
    (List.perm_middle.symm.trans hperm).nodup_iff.2 (inv.nodup hnames hr).of_append_right
  exact ⟨fun hmem => (List.nodup_cons.1 hbegun).1 (List.mem_append_right _ hmem), hperm⟩

/-- What the end of a start does: its plugin is entered, and no other one. -/
theorem Inv.finish (inv : Inv w config o names r wire ends x)
    {step : Except Error Registry.HandleStep}
    {rest : List (Target × Except Error Registry.HandleStep)}
    {calling : List (Target × FirstCall σ)} {greeted : List (Target × Greeting)}
    (h : x.waiting.Perm ((t, step) :: rest))
    (hstarted : (calling.map (·.1) ++ greeted.map (·.1)).Perm (t :: x.started))
    (hcalled : ∀ t' first, (t', first) ∈ calling → ∃ e port behaviour,
      Startable config w.surroundings.storage names t' e port ∧
      program w o e port = .ok behaviour ∧
      FirstCall.UnderWay wire (callOn o t' port) (ends t') (x.doneFor t') first)
    (hended : ∀ t' g, (t', g) ∈ greeted → ∃ e port,
      Startable config w.surroundings.storage names t' e port ∧
      EndsAs w o wire (ends t') t' e port (x.doneFor t') g) :
    Inv w config o names r wire ends { x with
      system := (endStart x.system t step).2, waiting := rest, calling, greeted } := by
  have hserves := (Registry.serves_ofHosts (makeHosts config o.address names) {}).install hr
  obtain ⟨e, port, c, l, hstartable, hawaits⟩ :=
    inv.awaited t step (h.symm.subset List.mem_cons_self)
  have hsystem : (endStart x.system t step).2 = (Container.finishRun x.system l).2 := by
    rw [endStart_system, hawaits.step_eq]
    rfl
  have hjournal : (endStart x.system t step).2.journal = x.system.journal := by
    rw [hsystem, Container.finishRun_journal]
  -- Begun is what was begun before, in another order.
  have hbegun := (hstarted.append_left (rest.map (·.1))).trans (inv.waits hnames hr h).2
  constructor
  · rw [hsystem]
    exact inv.scene.trans (System.finishRun_scene _ l)
  · exact (hbegun.append_left _).trans inv.targets
  · intro host c' n p hc' hp
    rw [hsystem] at hp
    apply hstarted.symm.subset
    rcases System.entry_of_finishRun hawaits.carried hp with hold | ⟨hpool, hname⟩
    · exact List.mem_cons_of_mem _ (inv.entries host c' n p hc' hold)
    · -- Only one host has the pool that the process was entered into.
      have hplace := name_of_container hserves hc'
      rw [← hpool, hawaits.pool, name_of_container hserves hawaits.reached.container] at hplace
      have hhost : t.host = host := Option.some.inj hplace
      have ht : (⟨host, n⟩ : Target) = t := by rw [← hhost, hname, hawaits.name]
      rw [ht]
      exact List.mem_cons_self
  · intro t' step' hmem
    exact inv.awaited t' step' (h.symm.subset (List.mem_cons_of_mem _ hmem))
  · exact hcalled
  · exact hended
  · intro t' ht'
    exact inv.undone t' fun hmem => ht' (hstarted.symm.subset (List.mem_cons_of_mem _ hmem))
  · intro t' e' port' ht' hstartable'
    rw [spawns_of_journal hjournal]
    exact inv.spawned t' e' port' (hbegun.subset ht') hstartable'
  · intro t' ht'
    rw [spawns_of_journal hjournal]
    exact inv.unspawned t' fun hmem => ht' (hbegun.symm.subset hmem)

theorem Inv.fail (inv : Inv w config o names r wire ends x)
    {step : Except Error Registry.HandleStep}
    {rest : List (Target × Except Error Registry.HandleStep)} {error : Error} {s : System}
    (h : x.waiting.Perm ((t, step) :: rest)) (hend : endStart x.system t step = (.error error, s)) :
    Inv w config o names r wire ends { x with
      system := s, waiting := rest, greeted := (t, ⟨.error error, s.now, []⟩) :: x.greeted } := by
  obtain ⟨e, port, c, l, hstartable, hawaits⟩ :=
    inv.awaited t step (h.symm.subset List.mem_cons_self)
  have hnew := (inv.waits hnames hr h).1
  obtain rfl : (endStart x.system t step).2 = s := by rw [hend]
  refine inv.finish hnames hr h List.perm_middle inv.called fun t' g hmem => ?_
  rcases List.mem_cons.1 hmem with heq | hold
  · obtain ⟨rfl, rfl⟩ := Prod.mk.inj heq
    refine ⟨e, port, hstartable, fun fault hfault => ?_, fun behaviour hok => ?_⟩
    -- A start fails with the fault of its program, and for no other reason.
    · rcases hawaits.endStart_eq x.system with ⟨fault', hfault', hfailed⟩ | ⟨_, _, hok, -⟩
      · rw [hfault] at hfault'
        rw [hend] at hfailed
        obtain rfl := Except.error.inj hfault'
        exact ⟨congrArg Except.error (Except.error.inj (Prod.mk.inj hfailed).1), inv.undone t' hnew⟩
      · rw [hfault] at hok
        cases hok
    · rcases hawaits.endStart_eq x.system with ⟨fault', hfault', -⟩ | ⟨_, _, -, -, hok'⟩
      · rw [hok] at hfault'
        cases hfault'
      · rw [hend] at hok'
        cases (Prod.mk.inj hok').1
  · exact inv.ended t' g hold

theorem Inv.call (inv : Inv w config o names r wire ends x)
    {step : Except Error Registry.HandleStep}
    {rest : List (Target × Except Error Registry.HandleStep)} {handle : Handle} {s : System}
    (h : x.waiting.Perm ((t, step) :: rest)) (hend : endStart x.system t step = (.ok handle, s)) :
    Inv w config o names r wire ends { x with
      system := s, waiting := rest
      calling := (t, .start handle.call s.now (ends t)) :: x.calling } := by
  obtain ⟨e, port, c, l, hstartable, hawaits⟩ :=
    inv.awaited t step (h.symm.subset List.mem_cons_self)
  have hnew := (inv.waits hnames hr h).1
  obtain rfl : (endStart x.system t step).2 = s := by rw [hend]
  refine inv.finish hnames hr h (.refl _) (fun t' first hmem => ?_) inv.ended
  rcases List.mem_cons.1 hmem with heq | hold
  · obtain ⟨rfl, rfl⟩ := Prod.mk.inj heq
    rcases hawaits.endStart_eq x.system with ⟨_, -, hfailed⟩ | ⟨behaviour, h', hok, hcall, hok'⟩
    · rw [hend] at hfailed
      cases (Prod.mk.inj hfailed).1
    · rw [hend] at hok'
      obtain rfl := Except.ok.inj (Prod.mk.inj hok').1
      rw [inv.undone t' hnew, hcall]
      exact ⟨e, port, behaviour, hstartable, hok, .start wire _ _ _⟩
  · exact inv.called t' first hold

/-- A plugin that is being called is not being called twice, nor was it dealt with before. -/
theorem Inv.calls (inv : Inv w config o names r wire ends x) {first : FirstCall σ}
    {rest : List (Target × FirstCall σ)} (h : x.calling.Perm ((t, first) :: rest)) :
    t ∉ rest.map (·.1) ++ x.greeted.map (·.1) ∧
      (t :: (rest.map (·.1) ++ x.greeted.map (·.1))).Perm x.started := by
  have hperm : (t :: (rest.map (·.1) ++ x.greeted.map (·.1))).Perm x.started :=
    (h.symm.map Prod.fst).append_right (x.greeted.map Prod.fst)
  have hstarted : x.started.Nodup := (inv.nodup hnames hr).of_append_right.of_append_right
  exact ⟨(List.nodup_cons.1 (hperm.nodup_iff.2 hstarted)).1, hperm⟩

theorem Inv.goOn (inv : Inv w config o names r wire ends x) {first first' : FirstCall σ}
    {rest : List (Target × FirstCall σ)} {new : List (Nat × Wire.Interaction κ)}
    (h : x.calling.Perm ((t, first) :: rest)) (hstep : first.Step wire x.system.now first' new) :
    Inv w config o names r wire ends { x with
      calling := (t, first') :: rest, done := x.done ++ new.map (t, ·) } := by
  obtain ⟨e, port, behaviour, hstartable, hok, hunder⟩ :=
    inv.called t first (h.symm.subset List.mem_cons_self)
  obtain ⟨hnew, hstarted⟩ := inv.calls hnames hr h
  -- What the call has done now is its own.
  have hothers (t' : Target) (ht : t ≠ t') :
      doneFor { x with done := x.done ++ new.map (t, ·) } t' = x.doneFor t' := by
    rw [doneFor_append, if_neg ht, List.append_nil]
  have hbegun := hstarted.append_left (x.waiting.map (·.1))
  constructor
  · exact inv.scene
  · exact (hbegun.append_left _).trans inv.targets
  · intro host c n p hc hp
    exact hstarted.symm.subset (inv.entries host c n p hc hp)
  · exact inv.awaited
  · intro t' first'' hmem
    rcases List.mem_cons.1 hmem with heq | hold
    · obtain ⟨rfl, rfl⟩ := Prod.mk.inj heq
      refine ⟨e, port, behaviour, hstartable, hok, ?_⟩
      show FirstCall.UnderWay _ _ _ (doneFor { x with done := _ } t') first''
      rw [doneFor_append, if_pos rfl]
      exact hunder.step hstep
    · have ht : t ≠ t' := fun heq =>
        hnew (heq ▸ List.mem_append_left _ (List.mem_map_of_mem hold))
      show ∃ e port behaviour, _ ∧ _ ∧
        FirstCall.UnderWay _ _ _ (doneFor { x with done := _ } t') first''
      rw [hothers t' ht]
      exact inv.called t' first'' (h.symm.subset (List.mem_cons_of_mem _ hold))
  · intro t' g hmem
    have ht : t ≠ t' := fun heq =>
      hnew (heq ▸ List.mem_append_right _ (List.mem_map_of_mem hmem))
    show ∃ e port, _ ∧ EndsAs _ _ _ _ _ _ _ (doneFor { x with done := _ } t') g
    rw [hothers t' ht]
    exact inv.ended t' g hmem
  · intro t' ht'
    have ht : t ≠ t' := fun heq => ht' (heq ▸ List.mem_cons_self)
    show doneFor { x with done := _ } t' = []
    rw [hothers t' ht]
    exact inv.undone t' fun hmem => ht' (hstarted.symm.subset hmem)
  · intro t' e' port' hmem hstartable'
    exact inv.spawned t' e' port' (hbegun.subset hmem) hstartable'
  · intro t' ht'
    exact inv.unspawned t' fun hmem => ht' (hbegun.symm.subset hmem)

theorem Inv.greet (inv : Inv w config o names r wire ends x) {first : FirstCall σ}
    {rest : List (Target × FirstCall σ)} {g : Greeting}
    (h : x.calling.Perm ((t, first) :: rest)) (hcomes : first.Comes wire x.system.now g) :
    Inv w config o names r wire ends { x with
      calling := rest, greeted := (t, g) :: x.greeted } := by
  obtain ⟨e, port, behaviour, hstartable, hok, hunder⟩ :=
    inv.called t first (h.symm.subset List.mem_cons_self)
  have hstarted : (rest.map (·.1) ++ t :: x.greeted.map (·.1)).Perm x.started :=
    List.perm_middle.trans (inv.calls hnames hr h).2
  have hbegun := hstarted.append_left (x.waiting.map (·.1))
  constructor
  · exact inv.scene
  · exact (hbegun.append_left _).trans inv.targets
  · intro host c n p hc hp
    exact hstarted.symm.subset (inv.entries host c n p hc hp)
  · exact inv.awaited
  · intro t' first' hmem
    exact inv.called t' first' (h.symm.subset (List.mem_cons_of_mem _ hmem))
  · intro t' g' hmem
    rcases List.mem_cons.1 hmem with heq | hold
    · obtain ⟨rfl, rfl⟩ := Prod.mk.inj heq
      exact ⟨e, port, hstartable, endsAs_of_comes hok hunder hcomes⟩
    · exact inv.ended t' g' hold
  · intro t' ht'
    exact inv.undone t' fun hmem => ht' (hstarted.symm.subset hmem)
  · intro t' e' port' hmem hstartable'
    exact inv.spawned t' e' port' (hbegun.subset hmem) hstartable'
  · intro t' ht'
    exact inv.unspawned t' fun hmem => ht' (hbegun.symm.subset hmem)

theorem Step.preserves {who : Option Target} (inv : Inv w config o names r wire ends x)
    (h : Step r wire ends who x y) : Inv w config o names r wire ends y := by
  cases h with
  | begin h => exact inv.begin hnames hr h
  | fail h _ hend => exact inv.fail hnames hr h hend
  | call h _ hend => exact inv.call hnames hr h hend
  | goOn h hstep => exact inv.goOn hnames hr h hstep
  | greet h hcomes => exact inv.greet hnames hr h hcomes
  | pass moment =>
    exact inv.quiet (System.advanceTo_scene _ moment) (System.advanceTo_quiet _ moment)
  | crash pid => exact inv.quiet (System.crash_scene _ pid) (System.crash_quiet _ pid)

/-- Whatever order the starts go on in. -/
theorem Steps.inv (h : Steps r wire ends x y) (inv : Inv w config o names r wire ends x) :
    Inv w config o names r wire ends y := by
  induction h with
  | refl => exact inv
  | tail _ hstep ih =>
    obtain ⟨who, hstep⟩ := hstep
    exact hstep.preserves hnames hr ih

end

end Startup
end PluginHost
