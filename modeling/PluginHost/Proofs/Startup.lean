/-
  PluginHost.Proofs.Startup

  Starting the plugins of hosts comes to its end, and has then started exactly the right
  ones.  No start needs another one for that: whatever the others do or fail to do, a
  plugin comes to its end by what is done for itself (`Inv.exists_alone`).
-/
import PluginHost.Proofs.Startup.Course

namespace PluginHost

open CommandLine

namespace Startup

variable {σ κ : Type} {w : World} {config : Config} {o : ServeOptions} {names : List String}
  {r : Registry} {wire : Wire σ κ} {ends : Target → σ} {x y : Startup σ κ} {t : Target}
  {e : Config.PluginEntry} {port : UInt16}

/-! ## Coming to an end -/

/-- A first call that goes on until it is over needs nobody else. -/
theorem alone_of_ends {now : Nat} {first : FirstCall σ} {rest : List (Target × FirstCall σ)}
    {done : List (Nat × Wire.Interaction κ)} {g : Greeting} (h : first.Ends wire now done g)
    (hnow : x.system.now = now) (hperm : x.calling.Perm ((t, first) :: rest)) :
    Alone r wire ends t x { x with
      calling := rest, greeted := (t, g) :: x.greeted, done := x.done ++ done.map (t, ·) } := by
  induction h generalizing x with
  | last hcomes =>
    rw [List.map_nil, List.append_nil]
    exact .single (.inl (.greet hperm (hnow ▸ hcomes)))
  | @step first next new later g hstep _ ih =>
    have hfirst : Step r wire ends (some t) x _ := .goOn hperm (hnow ▸ hstep)
    have hlater := ih (x := { x with
      calling := (t, next) :: rest, done := x.done ++ new.map (t, ·) }) hnow (.refl _)
    rw [List.map_append, ← List.append_assoc]
    exact .head (.inl hfirst) hlater

/-- A plugin that is being called comes to its end alone. -/
theorem Inv.alone_of_calling (inv : Inv w config o names r wire ends x)
    (ht : t ∈ x.calling.map (·.1)) :
    ∃ y, Alone r wire ends t x y ∧ t ∈ y.greeted.map (·.1) := by
  obtain ⟨⟨t, first⟩, hmem, rfl⟩ := List.mem_map.1 ht
  obtain ⟨e, port, behaviour, -, -, hunder⟩ := inv.called t first hmem
  obtain ⟨rest, hperm⟩ := (List.singleton_sublist.2 hmem).exists_perm_append
  have hinterval : 0 < first.line.policy.interval := by
    rw [hunder.line]
    exact Nat.succ_pos _
  obtain ⟨moment, hmoment⟩ := FirstCall.exists_moment wire first hinterval
  obtain ⟨done, g, hends⟩ := hmoment _ (Nat.le_max_right x.system.now moment)
  -- Time passes up to that moment, and then the call is looked after.
  have hpass : Alone r wire ends t x { x with system := x.system.advanceTo moment } :=
    .single (.inr ⟨moment, rfl⟩)
  have hcalls : Alone r wire ends t { x with system := x.system.advanceTo moment } _ :=
    alone_of_ends hends (System.now_advanceTo _ _) hperm
  exact ⟨_, hpass.trans hcalls, List.mem_cons_self⟩

/-- Who has been dealt with stays so. -/
theorem Steps.greeted_subset (h : Steps r wire ends x y) : x.greeted ⊆ y.greeted := by
  induction h with
  | refl => exact fun _ h => h
  | tail _ hstep ih =>
    obtain ⟨who, hstep⟩ := hstep
    cases hstep with
    | fail => exact fun _ h => List.mem_cons_of_mem _ (ih h)
    | greet => exact fun _ h => List.mem_cons_of_mem _ (ih h)
    | _ => exact ih

section
variable (hnames : names.Nodup)
  (hr : (Registry.ofHosts (makeHosts config o.address names) {}).install
    w.surroundings.storage = .ok r)
include hnames hr

/-- So does one whose start waits for its runner. -/
theorem Inv.alone_of_waiting (inv : Inv w config o names r wire ends x)
    (ht : t ∈ x.waiting.map (·.1)) :
    ∃ y, Alone r wire ends t x y ∧ t ∈ y.greeted.map (·.1) := by
  obtain ⟨⟨t, step⟩, hmem, rfl⟩ := List.mem_map.1 ht
  obtain ⟨rest, hwaiting⟩ := (List.singleton_sublist.2 hmem).exists_perm_append
  let y : Startup σ κ := { x with system := x.system.advanceTo (startDue step) }
  have hpass : Alone r wire ends t x y := .single (.inr ⟨startDue step, rfl⟩)
  have hperm : y.waiting.Perm ((t, step) :: rest) := hwaiting
  have hdue : startDue step ≤ y.system.now := by
    rw [System.now_advanceTo]
    exact Nat.le_max_right _ _
  rcases hend : endStart y.system t step with ⟨error | handle, s⟩
  · exact ⟨_, hpass.tail (.inl (.fail hperm hdue hend)), List.mem_cons_self⟩
  · have hcall : Alone r wire ends t x { y with
        system := s, waiting := rest
        calling := (t, .start handle.call s.now (ends t)) :: y.calling } :=
      hpass.tail (.inl (.call hperm hdue hend))
    obtain ⟨z, hz, hgreeted⟩ :=
      (Steps.inv hnames hr hcall.steps inv).alone_of_calling List.mem_cons_self
    exact ⟨z, hcall.trans hz, hgreeted⟩

/-- Whatever the others do or fail to do, a plugin that is to be started comes to its end by
    what is done for itself. -/
theorem Inv.exists_alone (inv : Inv w config o names r wire ends x) (ht : t ∈ startTargets r) :
    ∃ y, Alone r wire ends t x y ∧ t ∈ y.greeted.map (·.1) := by
  have hmem := inv.targets.symm.subset ht
  simp only [begun, started, List.mem_append] at hmem
  rcases hmem with hpending | hwaiting | hcalling | hgreeted
  · obtain ⟨rest, hperm⟩ := (List.singleton_sublist.2 hpending).exists_perm_append
    have hbegin : Alone r wire ends t x { x with
        system := (r.beginHandle x.system t.host t.plugin).2
        pending := rest
        waiting := (t, (r.beginHandle x.system t.host t.plugin).1) :: x.waiting } :=
      .single (.inl (.begin hperm))
    obtain ⟨z, hz, hgreeted⟩ :=
      (Steps.inv hnames hr hbegin.steps inv).alone_of_waiting hnames hr List.mem_cons_self
    exact ⟨z, hbegin.trans hz, hgreeted⟩
  · exact inv.alone_of_waiting hnames hr hwaiting
  · exact inv.alone_of_calling hcalling
  · exact ⟨x, .refl, hgreeted⟩

/-- If every plugin has been dealt with, everything is over. -/
theorem Inv.isOver (inv : Inv w config o names r wire ends x)
    (h : ∀ t ∈ startTargets r, t ∈ x.greeted.map (·.1)) : x.IsOver := by
  have hnodup := inv.nodup hnames hr
  simp only [begun, started, ← List.append_assoc] at hnodup
  have hdisjoint := List.disjoint_of_nodup_append hnodup
  have hnone {t : Target} (ht : t ∈ x.pending ++ x.waiting.map (·.1) ++ x.calling.map (·.1)) :
      False := by
    apply hdisjoint ht (h t (inv.targets.subset _))
    simp only [begun, started, ← List.append_assoc]
    exact List.mem_append_left _ ht
  simp only [List.mem_append, or_imp, forall_and] at hnone
  obtain ⟨⟨hpending, hwaiting⟩, hcalling⟩ := hnone
  constructor
  · exact List.eq_nil_iff_forall_not_mem.2 hpending
  · exact List.map_eq_nil_iff.1 (List.eq_nil_iff_forall_not_mem.2 hwaiting)
  · exact List.map_eq_nil_iff.1 (List.eq_nil_iff_forall_not_mem.2 hcalling)

/-- Nothing that has happened keeps the starts from coming to their ends. -/
theorem Inv.exists_isOver (inv : Inv w config o names r wire ends x) :
    ∃ y, Steps r wire ends x y ∧ y.IsOver := by
  -- They are looked after one after another, each alone.
  have hall (ts : List Target) (hts : ts ⊆ startTargets r) :
      ∃ y, Steps r wire ends x y ∧ ∀ t ∈ ts, t ∈ y.greeted.map (·.1) := by
    induction ts with
    | nil => exact ⟨x, .refl, fun t ht => by cases ht⟩
    | cons t ts ih =>
      obtain ⟨y, hy, hgreeted⟩ := ih fun _ h => hts (List.mem_cons_of_mem _ h)
      obtain ⟨z, hz, ht⟩ :=
        (Steps.inv hnames hr hy inv).exists_alone hnames hr (hts List.mem_cons_self)
      refine ⟨z, hy.trans hz.steps, fun t' ht' => ?_⟩
      rcases List.mem_cons.1 ht' with rfl | hold
      · exact ht
      · exact List.map_subset _ (Steps.greeted_subset hz.steps) (hgreeted t' hold)
  obtain ⟨y, hy, hgreeted⟩ := hall (startTargets r) fun _ h => h
  exact ⟨y, hy, (Steps.inv hnames hr hy inv).isOver hnames hr hgreeted⟩

end

/-! ## The order in which the program starts its plugins -/

/-- Starts may begin one after another. -/
theorem steps_beginStarts (r : Registry) (wire : Wire σ κ) (ends : Target → σ) (ts : List Target)
    (x : Startup σ κ) :
    Steps r wire ends { x with pending := ts } { x with
      system := (beginStarts r ts x.system).2
      pending := []
      waiting := (beginStarts r ts x.system).1.reverse ++ x.waiting } := by
  induction ts generalizing x with
  | nil => exact .refl
  | cons t ts ih =>
    have hfirst : Step r wire ends (some t) { x with pending := t :: ts } { x with
        system := (r.beginHandle x.system t.host t.plugin).2
        pending := ts
        waiting := (t, (r.beginHandle x.system t.host t.plugin).1) :: x.waiting } :=
      .begin (.refl _)
    have hrest := ih { x with
      system := (r.beginHandle x.system t.host t.plugin).2
      waiting := (t, (r.beginHandle x.system t.host t.plugin).1) :: x.waiting }
    have hall := hfirst.steps.trans hrest
    simpa [beginStarts] using hall

section
variable (hnames : names.Nodup)
  (hr : (Registry.ofHosts (makeHosts config o.address names) {}).install
    w.surroundings.storage = .ok r)
  {x : Startup (NameMap Peer × Nat) (String × Rpc.Prepared)}
include hnames hr

/-- Starts that wait may end one after another when they are due.  Meanwhile the first calls
    of those that have ended go on, and when time has passed, they are over. -/
theorem exists_finishStarts (steps : List (Nat × Target × Except Error Registry.HandleStep))
    (inv : Inv w config o names r (Peer.wire w.network) (fun _ => (.empty, 0)) x)
    (h : x.waiting.Perm (steps.map (·.2))) {moment : Nat}
    (hmoment : ∀ g ∈ (finishStarts steps x.system).1, g.2.2.finish ≤ moment) :
    ∃ y, Steps r (Peer.wire w.network) (fun _ => (.empty, 0)) x y ∧
      y.pending = x.pending ∧ y.waiting = [] ∧ y.calling = x.calling ∧
      y.system = (finishStarts steps x.system).2.advanceTo moment ∧
      y.greeted.Perm ((finishStarts steps x.system).1.map (·.2) ++ x.greeted) := by
  induction steps generalizing x with
  | nil => exact ⟨_, .single ⟨_, .pass moment⟩, rfl, List.perm_nil.1 h, rfl, rfl, .refl _⟩
  | cons p steps ih =>
    obtain ⟨index, t, step⟩ := p
    have hpass : Step r (Peer.wire w.network) (fun _ => (.empty, 0)) none x
        { x with system := x.system.advanceTo (startDue step) } := .pass _
    have hdue : startDue step ≤ (x.system.advanceTo (startDue step)).now := by
      rw [System.now_advanceTo]
      exact Nat.le_max_right _ _
    rcases hend : endStart (x.system.advanceTo (startDue step)) t step with ⟨error | handle, s⟩
    · -- The start has come to nothing, and that is all.
      have hfinish : CommandLine.finishStart x.system t step = (⟨.error error, s.now, []⟩, s) := by
        rw [CommandLine.finishStart, hend]
      have hfail : Step r (Peer.wire w.network) (fun _ => (.empty, 0)) (some t) _ _ :=
        .fail (x := { x with system := x.system.advanceTo (startDue step) }) h hdue hend
      have hfirst := hpass.steps.trans hfail.steps
      simp only [finishStarts, hfinish, List.map_cons, List.cons_append] at hmoment ⊢
      obtain ⟨y, hy, hpending, hwaiting, hcalling, hsystem, hgreeted⟩ :=
        ih (Steps.inv hnames hr hfirst inv) (.refl _) fun g hg =>
          hmoment g (List.mem_cons_of_mem _ hg)
      exact ⟨y, hfirst.trans hy, hpending, hwaiting, hcalling, hsystem,
        hgreeted.trans List.perm_middle⟩
    · have hfinish : CommandLine.finishStart x.system t step = (greet s handle, s) := by
        rw [CommandLine.finishStart, hend]
      have hcall : Step r (Peer.wire w.network) (fun _ => (.empty, 0)) (some t) _ _ :=
        .call (x := { x with system := x.system.advanceTo (startDue step) }) h hdue hend
      have hfirst := hpass.steps.trans hcall.steps
      have inv' := Steps.inv hnames hr hfirst inv
      simp only [finishStarts, hfinish, List.map_cons, List.cons_append] at hmoment ⊢
      obtain ⟨y, hy, hpending, hwaiting, hcalling, hsystem, hgreeted⟩ :=
        ih inv' (.refl _) fun g hg => hmoment g (List.mem_cons_of_mem _ hg)
      -- The call was begun in this scene, and by now its time has come.
      obtain ⟨e, port, behaviour, -, -, hunder⟩ := inv'.called t _ List.mem_cons_self
      have hinterval : 0 < handle.call.policy.interval := by
        rw [show handle.call = callOn o t port from hunder.line]
        exact Nat.succ_pos _
      have hnow : (greet s handle).finish ≤ y.system.now := by
        rw [hsystem, System.now_advanceTo]
        exact Nat.le_trans (hmoment _ List.mem_cons_self) (Nat.le_max_right _ _)
      obtain ⟨done, hends⟩ := FirstCall.exists_ends_greet hinterval hnow
      -- Nothing since then has changed who listens.
      rw [inv'.scene.network, inv'.scene.peers] at hends
      have hlast : Alone r (Peer.wire w.network) (fun _ => (.empty, 0)) t y _ :=
        alone_of_ends hends rfl (.of_eq hcalling)
      exact ⟨_, (hfirst.trans hy).trans hlast.steps, hpending, hwaiting, rfl, hsystem,
        hgreeted.cons _⟩

/-- The program starts its plugins in one of these orders. -/
theorem exists_startAll :
    ∃ x, Steps r (Peer.wire w.network) (fun _ => (.empty, 0)) (init w o names r) x ∧ x.IsOver ∧
      x.system = (startAll r (idleSystem w o names) (startTargets r)).2 ∧
      x.greeted.Perm (startAll r (idleSystem w o names) (startTargets r)).1 := by
  let steps := (beginStarts r (startTargets r) (idleSystem w o names)).1
  let s := (beginStarts r (startTargets r) (idleSystem w o names)).2
  have hbegin := steps_beginStarts r (Peer.wire w.network) (fun _ => (.empty, 0)) (startTargets r)
    (init w o names r)
  let greetings : List (Target × Greeting) :=
    ((finishStarts (inOrder steps) s).1.mergeSort fun a b => a.1 ≤ b.1).map (·.2)
  have hgreetings : greetings.Perm ((finishStarts (inOrder steps) s).1.map (·.2)) :=
    (List.mergeSort_perm _ _).map Prod.snd
  let moment := (greetings.map (·.2.finish)).max?.getD 0
  have hmoment : ∀ g ∈ (finishStarts (inOrder steps) s).1, g.2.2.finish ≤ moment := by
    intro g hg
    have hmem : g.2 ∈ greetings := hgreetings.symm.subset (List.mem_map_of_mem hg)
    exact List.le_max?_getD_of_mem (List.mem_map.2 ⟨g.2, hmem, rfl⟩)
  have hwaiting : (steps.reverse ++ []).Perm ((inOrder steps).map Prod.snd) := by
    rw [List.append_nil]
    exact (List.reverse_perm steps).trans (map_inOrder_perm steps).symm
  obtain ⟨y, hy, hpending, hnone, hcalling, hsystem, hgreeted⟩ := exists_finishStarts hnames hr
    (inOrder steps) (Steps.inv hnames hr hbegin (.init w config o names r _ _)) hwaiting hmoment
  refine ⟨y, hbegin.trans hy, ⟨hpending, hnone, hcalling⟩, hsystem, ?_⟩
  rw [show (init w o names r : Startup (NameMap Peer × Nat) (String × Rpc.Prepared)).greeted = []
    from rfl, List.append_nil] at hgreeted
  exact hgreeted.trans hgreetings.symm

end

/-! ## Exactly the right plugins -/

/-- At no time has a program been spawned but for a plugin that is to be started, as it is
    defined, and never twice; and nobody has been asked anything but such a plugin, if its
    program could be started, and that was pinged. -/
structure Within (w : World) (config : Config) (o : ServeOptions) (names : List String)
    (x : Startup σ κ) : Prop where
  /-- What the runners are asked for they start with the flag. -/
  runners : ∀ pool ∈ x.system.pools, pool.runner = .machine o.portFlag
  spawned : ∀ t, spawns o.portFlag x.system t = [] ∨
    ∃ e port, Startable config w.surroundings.storage names t e port ∧
      spawns o.portFlag x.system t = [spawnOf o.portFlag t e port]
  pinged : ∀ t moment i, (t, moment, i) ∈ x.done → ∃ e port behaviour,
    Startable config w.surroundings.storage names t e port ∧
    program w o e port = .ok behaviour ∧ i = .request (caller o port) FirstCall.ping

/-- In the end one program has been spawned for each plugin that is to be started, and
    each of them has been dealt with by itself. -/
structure Exact (w : World) (config : Config) (o : ServeOptions) (names : List String)
    (wire : Wire σ κ) (ends : Target → σ) (x : Startup σ κ) : Prop where
  spawned : ∀ t e port, Startable config w.surroundings.storage names t e port →
    spawns o.portFlag x.system t = [spawnOf o.portFlag t e port]
  others : ∀ t, (∀ e port, ¬ Startable config w.surroundings.storage names t e port) →
    spawns o.portFlag x.system t = [] ∧ x.doneFor t = []
  greeted : ∀ t, t ∈ x.greeted.map (·.1) ↔
    ∃ e port, Startable config w.surroundings.storage names t e port
  once : (x.greeted.map (·.1)).Nodup
  ends : ∀ t g e port, (t, g) ∈ x.greeted →
    Startable config w.surroundings.storage names t e port →
    EndsAs w o wire (ends t) t e port (x.doneFor t) g

theorem mem_doneFor_iff {d : Nat × Wire.Interaction κ} : d ∈ x.doneFor t ↔ (t, d) ∈ x.done := by
  rw [doneFor, List.mem_filterMap]
  constructor
  · rintro ⟨⟨t', d'⟩, hmem, hd⟩
    split at hd
    · rename_i ht
      obtain rfl : t' = t := ht
      rwa [← Option.some.inj hd]
    · cases hd
  · intro hmem
    exact ⟨(t, d), hmem, if_pos rfl⟩

/-- Whoever has been asked something was pinged. -/
theorem Inv.pinged (inv : Inv w config o names r wire ends x) {moment : Nat}
    {i : Wire.Interaction κ} (h : (t, moment, i) ∈ x.done) : ∃ e port behaviour,
      Startable config w.surroundings.storage names t e port ∧
      program w o e port = .ok behaviour ∧ i = .request (caller o port) FirstCall.ping := by
  have hmem := mem_doneFor_iff.2 h
  have hstarted : t ∈ x.started := by
    by_contra hnot
    rw [inv.undone t hnot] at hmem
    cases hmem
  rcases List.mem_append.1 hstarted with hcalling | hgreeted
  · obtain ⟨⟨t, first⟩, hfirst, rfl⟩ := List.mem_map.1 hcalling
    obtain ⟨e, port, behaviour, hstartable, hok, hunder⟩ := inv.called t first hfirst
    rw [hunder.done, callOn, FirstCall.doneBy_rest] at hmem
    obtain ⟨_, -, heq⟩ := List.mem_map.1 hmem
    exact ⟨e, port, behaviour, hstartable, hok, (Prod.mk.inj heq).2.symm⟩
  · obtain ⟨⟨t, g⟩, hg, rfl⟩ := List.mem_map.1 hgreeted
    obtain ⟨e, port, hstartable, hends⟩ := inv.ended t g hg
    cases hprogram : program w o e port with
    | error fault =>
      rw [(hends.failed fault hprogram).2] at hmem
      cases hmem
    | ok behaviour =>
      obtain ⟨_, _, -, hdone, -⟩ := hends.called behaviour hprogram
      rw [hdone] at hmem
      obtain ⟨_, -, heq⟩ := List.mem_map.1 hmem
      exact ⟨e, port, behaviour, hstartable, hprogram, (Prod.mk.inj heq).2.symm⟩

/-- Whoever's start has begun is to be started. -/
theorem Inv.startable (inv : Inv w config o names r wire ends x) (ht : t ∈ x.begun) :
    ∃ e port, Startable config w.surroundings.storage names t e port := by
  simp only [begun, started, List.mem_append, List.mem_map] at ht
  rcases ht with ⟨⟨t, step⟩, hmem, rfl⟩ | ⟨⟨t, first⟩, hmem, rfl⟩ | ⟨⟨t, g⟩, hmem, rfl⟩
  · obtain ⟨e, port, -, -, h, -⟩ := inv.awaited t step hmem
    exact ⟨e, port, h⟩
  · obtain ⟨e, port, -, h, -⟩ := inv.called t first hmem
    exact ⟨e, port, h⟩
  · obtain ⟨e, port, h, -⟩ := inv.ended t g hmem
    exact ⟨e, port, h⟩

theorem Inv.within (inv : Inv w config o names r wire ends x) : Within w config o names x := by
  refine ⟨fun pool hpool => ?_, fun t => ?_, fun t moment i h => inv.pinged h⟩
  · have hseat : System.seat pool ∈ x.system.pools.map System.seat := List.mem_map_of_mem hpool
    rw [inv.scene.seats, idleSystem, makePools, List.map_map] at hseat
    obtain ⟨label, -, heq⟩ := List.mem_map.1 hseat
    exact (congrArg Prod.snd heq).symm
  · by_cases ht : t ∈ x.begun
    · obtain ⟨e, port, h⟩ := inv.startable ht
      exact .inr ⟨e, port, h, inv.spawned t e port ht h⟩
    · exact .inl (inv.unspawned t ht)

/-- Whoever has been dealt with was dealt with as is right. -/
theorem Inv.endsAs (inv : Inv w config o names r wire ends x) {g : Greeting}
    (hg : (t, g) ∈ x.greeted) (h : Startable config w.surroundings.storage names t e port) :
    spawns o.portFlag x.system t = [spawnOf o.portFlag t e port] ∧
      EndsAs w o wire (ends t) t e port (x.doneFor t) g := by
  obtain ⟨e', port', hstartable', hends⟩ := inv.ended t g hg
  obtain ⟨rfl, rfl⟩ := h.unique hstartable'
  have hbegun : t ∈ x.begun :=
    List.mem_append_right _ (List.mem_append_right _ (List.mem_map_of_mem hg))
  exact ⟨inv.spawned t e port hbegun h, hends⟩

section
variable (hr : (Registry.ofHosts (makeHosts config o.address names) {}).install
    w.surroundings.storage = .ok r)
include hr

theorem Inv.exact_of_isOver (inv : Inv w config o names r wire ends x) (hnames : names.Nodup)
    (h : x.IsOver) : Exact w config o names wire ends x := by
  have hserves := (Registry.serves_ofHosts (makeHosts config o.address names) {}).install hr
  have hbegun : x.begun = x.greeted.map (·.1) := by
    rw [begun, started, h.waiting, h.calling]
    rfl
  have hperm : (x.greeted.map (·.1)).Perm (startTargets r) := by
    have htargets := inv.targets
    rw [h.pending, List.nil_append, hbegun] at htargets
    exact htargets
  have hgreeted (t : Target) : t ∈ x.greeted.map (·.1) ↔
      ∃ e port, Startable config w.surroundings.storage names t e port :=
    hperm.mem_iff.trans (mem_startTargets_iff hr)
  constructor
  · intro t e port hstartable
    apply inv.spawned t e port _ hstartable
    rw [hbegun]
    exact (hgreeted t).2 ⟨e, port, hstartable⟩
  · intro t hno
    have hnot : t ∉ x.begun := by
      rw [hbegun, hgreeted]
      rintro ⟨e, port, hstartable⟩
      exact hno e port hstartable
    exact ⟨inv.unspawned t hnot, inv.undone t fun hmem => hnot (List.mem_append_right _ hmem)⟩
  · exact hgreeted
  · exact hperm.nodup_iff.2 (nodup_startTargets hserves hnames)
  · intro t g e port hmem hstartable
    exact (inv.endsAs hmem hstartable).2

/-- Serving hosts whose installation succeeds starts exactly the right plugins, in whatever
    order the starts go on and end, and whatever plugins answer to their first calls: never
    anything but the program of a plugin that is to be started, and in the end each of
    these, once.  Each of them is pinged that could be started.  No plugin needs another one
    for that: wherever things stand, it comes to its end alone, while nobody else does
    anything.  And the order in which the program starts its plugins is one of these. -/
theorem startup_exact (hnames : names.Nodup) (wire : Wire σ κ) (ends : Target → σ) :
    (∀ x, Steps r wire ends (init w o names r) x → Within w config o names x ∧
      (∀ t e port, Startable config w.surroundings.storage names t e port →
        ∃ y g, Alone r wire ends t x y ∧ (t, g) ∈ y.greeted ∧
          spawns o.portFlag y.system t = [spawnOf o.portFlag t e port] ∧
          EndsAs w o wire (ends t) t e port (y.doneFor t) g) ∧
      ∃ y, Steps r wire ends x y ∧ y.IsOver) ∧
    (∀ x, Steps r wire ends (init w o names r) x → x.IsOver →
      Exact w config o names wire ends x) ∧
    ∃ x, Steps r (Peer.wire w.network) (fun _ => (.empty, 0)) (init w o names r) x ∧ x.IsOver ∧
      x.system = (startAll r (idleSystem w o names) (startTargets r)).2 ∧
      x.greeted.Perm (startAll r (idleSystem w o names) (startTargets r)).1 := by
  have hinit : Inv w config o names r wire ends (init w o names r) := .init w config o names r _ _
  refine ⟨fun x hx => ?_, fun x hx hover => ?_, exists_startAll hnames hr⟩
  · have inv := Steps.inv hnames hr hx hinit
    refine ⟨inv.within, fun t e port hstartable => ?_, inv.exists_isOver hnames hr⟩
    obtain ⟨y, hy, ht⟩ :=
      inv.exists_alone hnames hr ((mem_startTargets_iff hr).2 ⟨e, port, hstartable⟩)
    obtain ⟨⟨t, g⟩, hg, rfl⟩ := List.mem_map.1 ht
    exact ⟨y, g, hy, hg, (Steps.inv hnames hr hy.steps inv).endsAs hg hstartable⟩
  · exact (Steps.inv hnames hr hx hinit).exact_of_isOver hr hnames hover

end

/-! ## A host with two plugins -/

def pairEntry (command : String) (arguments : List String) (digest : String) (port : UInt16) :
    Config.PluginEntry :=
  { digest, command, arguments, file := "f", protocol := "rest", port := some port }

def steadyEntry : Config.PluginEntry :=
  pairEntry "run-p" ["-v"] "D41D8CD98F00B204E9800998ECF8427E" 9001

def missingEntry : Config.PluginEntry :=
  pairEntry "run-q" [] "d41d8cd98f00b204e9800998ecf8427e" 9002

/-- The host lists one plugin twice, and one that is not defined. -/
def pairConfig : Config where
  plugins := .ofList [("p", steadyEntry), ("q", missingEntry)]
  hosts := .ofList [("host", { plugins := ["q", "p", "u", "q"] })]

/-- The program of one of the plugins is not there. -/
def pairWorld : World where
  surroundings := { storage := { known := [("f", .file [])] } }
  programs _ command _ := if command = "run-p" then .ok {} else .error .notFound

def steady : Target := ⟨"host", "p"⟩

def missing : Target := ⟨"host", "q"⟩

/-- Where nobody listens, every request is lost at once. -/
theorem reply_of_absent {k : Rest.Caller} (htimeout : 0 < k.timeout) (s : NameMap Peer × Nat)
    (i : Nat) : ∃ detail,
      FirstCall.reply (Peer.wire fun _ => .absent) k s i = { value := .lost detail } := by
  unfold FirstCall.reply
  dsimp only [Peer.wire]
  unfold Rest.exchange
  split
  · exact ⟨_, rfl⟩
  · exact ⟨_, if_pos htimeout⟩

/-- Then a plugin is pinged every three seconds, and four times before it is given up. -/
theorem pinged_of_absent {k : Rest.Caller} (htimeout : 0 < k.timeout) {s : NameMap Peer × Nat}
    {began n finish : Nat} {reply : Except Error String}
    (h : FirstCall.Pinged (Peer.wire fun _ => .absent) k s began n reply finish)
    (htimely : ∀ i ≤ n, FirstCall.pingedAt (Peer.wire fun _ => .absent) k s began i
      ≤ began + 10000) :
    n = 3 ∧ reply = .error pingTimeout ∧
      ∀ i, FirstCall.pingedAt (Peer.wire fun _ => .absent) k s began i = began + 3000 * i := by
  have hdue (i : Nat) : FirstCall.pingedAt (Peer.wire fun _ => .absent) k s began i
      = began + 3000 * i := by
    induction i with
    | zero => rfl
    | succ i ih =>
      obtain ⟨detail, hreply⟩ := reply_of_absent htimeout s i
      rw [FirstCall.pingedAt, Retry.schedule, hreply]
      rw [FirstCall.pingedAt] at ih
      rw [ih]
      dsimp only
      omega
  have hlast := htimely n (Nat.le_refl n)
  rw [hdue] at hlast
  cases h with
  | @answered run h hlimit =>
    -- A lost request ends no call, and there is no ceiling.
    obtain ⟨detail, hreply⟩ := reply_of_absent htimeout s n
    rcases h.last with hfinal | ⟨_, -, ⟨_, hmem, -⟩, -⟩
    · simp only [hreply] at hfinal
      cases hfinal
    · cases hmem
  | givenUp hnext hlate =>
    rw [hdue] at hnext
    exact ⟨by omega, rfl, hdue⟩

/-- Whatever order they are started in: one of them cannot be, and is not asked anything;
    the other one is, and is called four times before it is given up. -/
theorem pair_started : ∃ r,
    (Registry.ofHosts (makeHosts pairConfig "127.0.0.1" ["host"]) {}).install
      pairWorld.surroundings.storage = .ok r ∧
    ∀ x, Steps r (Peer.wire pairWorld.network) (fun _ => (.empty, 0))
        (init pairWorld {} ["host"] r) x → x.IsOver →
      spawns "--port" x.system steady = [⟨steady, "run-p", ["-v", "--port", "9001"]⟩] ∧
      spawns "--port" x.system missing = [⟨missing, "run-q", ["--port", "9002"]⟩] ∧
      (∃ g, (missing, g) ∈ x.greeted ∧ g.reply = .error (.cannotStart "q" .notFound)) ∧
      x.doneFor missing = [] ∧
      ∃ g began, (steady, g) ∈ x.greeted ∧ g.reply = .error pingTimeout ∧
        x.doneFor steady = [0, 3000, 6000, 9000].map fun later =>
          (began + later, .request ⟨"http://127.0.0.1:9001", 5000⟩ FirstCall.ping) := by
  have hok : ((Registry.ofHosts (makeHosts pairConfig "127.0.0.1" ["host"]) {}).install
      pairWorld.surroundings.storage).isOk = true := by decide +kernel
  have hverified (e : Config.PluginEntry) (hfile : e.file = "f")
      (hsame : sameDigest "d41d8cd98f00b204e9800998ecf8427e" e.digest = true) :
      Installer.Verifies ⟨"host", some pairConfig, .md5⟩ pairWorld.surroundings.storage e := by
    have hcheck : DigestCheck.md5 pairWorld.surroundings.storage "f"
        = .ok "d41d8cd98f00b204e9800998ecf8427e" := by decide +kernel
    refine ⟨?_, _, ?_, hsame⟩
    · rw [hfile]
      decide +kernel
    · rw [hfile]
      exact hcheck
  have hsteady : Startable pairConfig pairWorld.surroundings.storage ["host"] steady
      steadyEntry 9001 := by
    refine ⟨List.mem_singleton.2 rfl, ⟨⟨_, rfl, ?_⟩, rfl⟩, hverified _ rfl ?_, rfl, rfl⟩
    · decide
    · decide +kernel
  have hmissing : Startable pairConfig pairWorld.surroundings.storage ["host"] missing
      missingEntry 9002 := by
    refine ⟨List.mem_singleton.2 rfl, ⟨⟨_, rfl, ?_⟩, rfl⟩, hverified _ rfl ?_, rfl, rfl⟩
    · decide
    · decide +kernel
  have hcaller : caller {} 9001 = ⟨"http://127.0.0.1:9001", 5000⟩ := by decide +kernel
  cases hr : (Registry.ofHosts (makeHosts pairConfig "127.0.0.1" ["host"]) {}).install
      pairWorld.surroundings.storage with
  | error e =>
    rw [hr] at hok
    cases hok
  | ok r =>
    refine ⟨r, rfl, ?_⟩
    intro x hx hover
    have hexact := (startup_exact (o := {}) hr (List.nodup_singleton _)
      (Peer.wire pairWorld.network) fun _ => (.empty, 0)).2.1 x hx hover
    obtain ⟨⟨t, g⟩, hg, hsame⟩ := List.mem_map.1 ((hexact.greeted missing).2 ⟨_, _, hmissing⟩)
    obtain ⟨⟨t', g'⟩, hg', hsame'⟩ := List.mem_map.1 ((hexact.greeted steady).2 ⟨_, _, hsteady⟩)
    obtain rfl : t = missing := hsame
    obtain rfl : t' = steady := hsame'
    obtain ⟨hfailed, hnothing⟩ := (hexact.ends _ _ _ _ hg hmissing).failed .notFound rfl
    obtain ⟨began, n, hpinged, hdone, htimely, -⟩ :=
      (hexact.ends _ _ _ _ hg' hsteady).called {} rfl
    obtain ⟨rfl, hreply, hdue⟩ := pinged_of_absent (Nat.succ_pos 4999) hpinged htimely
    refine ⟨hexact.spawned _ _ _ hsteady, hexact.spawned _ _ _ hmissing, ⟨g, hg, hfailed⟩,
      hnothing, g', began, hg', hreply, ?_⟩
    have hdue' : ∀ i, FirstCall.pingedAt (Peer.wire pairWorld.network) (caller {} 9001) (.empty, 0)
        began i = began + 3000 * i := hdue
    rw [hdone]
    simp only [hdue']
    rw [hcaller]
    rfl

end Startup
end PluginHost
