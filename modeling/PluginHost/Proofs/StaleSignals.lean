/-
  PluginHost.Proofs.StaleSignals

  Signals that come late.  A signal names the process that was found dead, and by
  the time it is answered that process may be gone, replaced, or killed.  Only a
  signal about the entry has an effect: it takes the entry out, and a number that
  is not handed out again never stands in a table a second time.

  So the answers to signals stop nothing but the processes that were found dead,
  however many signals there are and however late they come
  (`stale_signals_harmless`).  `Inv` ties the numbers in the signals to the tables.
-/
import PluginHost.Proofs.System.Ending
import PluginHost.Proofs.Traffic

namespace PluginHost
namespace Traffic

open Registry

variable {hosts : List Host} {policy : Retry.Policy} {w w' : Traffic} {s s' s'' : System}
  {signal : Signal}

/-! ## Processes -/

/-- A process is the entry under its name. -/
def IsEntered (s : System) (x : Nat × PluginProcess) : Prop :=
  (s.table x.1).get? x.2.name = some x.2

/-- A process is in the hands of the call that started it. -/
def IsStarting (w : Traffic) (x : Nat × PluginProcess) : Prop :=
  ∃ y ∈ w.waiting, x ∈ carried y.2

/-- A process of a number is there, as a probe by processes sees it. -/
def Runs (s : System) (pid : Nat) : Prop :=
  pid ≤ KillSwitch.maxPid ∧ s.isAlive pid = true

/-- Between two systems a process is told to stop, or loses its entry. -/
def Stops (s s' : System) (x : Nat × PluginProcess) : Prop :=
  (s.isTold x.2 = false ∧ s'.isTold x.2 = true) ∨ (IsEntered s x ∧ ¬ IsEntered s' x)

theorem not_stops_self (x : Nat × PluginProcess) : ¬ Stops s s x := by
  rintro (⟨hno, hyes⟩ | ⟨hent, hgone⟩)
  · rw [hno] at hyes
    cases hyes
  · exact hgone hent

theorem carried_of_none {l : Launch} (h : l.process? = none) : carried l = [] := by
  rw [carried, h]
  rfl

theorem carried_of_some {l : Launch} {p : PluginProcess} (h : l.process? = some p) :
    carried l = [(l.pool, p)] := by
  rw [carried, h]
  rfl

theorem Runs.of_fades {pid : Nat} (h : System.Fades s s') (hr : Runs s' pid) : Runs s pid := by
  obtain ⟨hle, halive⟩ := hr
  refine ⟨hle, ?_⟩
  rw [System.isAlive, Bool.or_eq_true] at halive ⊢
  exact halive.imp_right (h pid)

/-- A probe by processes that finds a process dead has found an entry, and none that
    runs. -/
theorem pid_of_probe_dead {p : Probe} {r : Registry} {host plugin : String} {pid : Nat}
    (hp : p.kind = .process) (h : p.decide r s host plugin = .dead pid) :
    r.pid s host plugin = .ok pid ∧ ¬ Runs s pid := by
  rw [Probe.decide, hp] at h
  cases hpid : r.pid s host plugin with
  | error e =>
    rw [hpid] at h
    cases h
  | ok found =>
    simp only [hpid, Probe.ofPid] at h
    split at h
    · cases h
    · rename_i hruns
      obtain rfl : found = pid := Liveness.dead.inj h
      exact ⟨rfl, hruns⟩

/-! ## The invariant -/

/-- What ties the numbers in the signals to the tables. -/
structure Inv (w : Traffic) : Prop where
  entered : ∀ i n p, (w.system.table i).get? n = some p → p.name = n ∧ (i, p) ∈ w.started
  -- What a start carries has not been entered yet, and no other start carries it.
  starting : ∀ x, IsStarting w x → x ∈ w.started ∧ ¬ IsEntered w.system x
  single : (w.waiting.flatMap fun y => carried y.2).Nodup
  switched : ∀ x ∈ w.started, ∀ id, x.2.switch = some id → id < w.system.switches.length
  distinct : ∀ x ∈ w.started, ∀ y ∈ w.started, ∀ id, x.2.switch = some id →
    y.2.switch = some id → x = y
  -- A process that was replaced has had its entry, and will not have one again.
  answered : ∀ g ∈ w.answered, ∃ x ∈ w.started, x.2.pid = g.pid ∧ ¬ IsEntered w.system x ∧
    ¬ IsStarting w x
  once : (w.answered.map (·.pid)).Nodup
  found : ∀ g ∈ w.found, ∃ x ∈ w.started, x.2.pid = g.pid ∧ ¬ Runs w.system g.pid

theorem Inv.init {r : Registry} (hempty : ∀ i, s.table i = .empty) :
    Inv { registry := r, system := s } where
  entered i n p hp := by
    rw [hempty, NameMap.get?_empty] at hp
    cases hp
  starting := by simp [IsStarting]
  single := List.nodup_nil
  switched := by simp
  distinct := by simp
  answered := by simp
  once := List.nodup_nil
  found := by simp

/-- Whatever happens to the system does no harm as long as no entry comes, no switch
    goes, and none of the processes comes back. -/
theorem Inv.mono (inv : Inv w)
    (hent : ∀ i n p, (s'.table i).get? n = some p → (w.system.table i).get? n = some p)
    (hswitches : w.system.switches.length ≤ s'.switches.length)
    (hruns : ∀ x ∈ w.started, Runs s' x.2.pid → Runs w.system x.2.pid) :
    Inv { w with system := s' } where
  entered i n p hp := inv.entered i n p (hent i n p hp)
  starting x hx :=
    have h := inv.starting x hx
    ⟨h.1, fun hin => h.2 (hent _ _ _ hin)⟩
  single := inv.single
  switched x hx id hid := Nat.lt_of_lt_of_le (inv.switched x hx id hid) hswitches
  distinct := inv.distinct
  answered g hg := by
    obtain ⟨x, hx, hpid, hout, hstart⟩ := inv.answered g hg
    exact ⟨x, hx, hpid, fun hin => hout (hent _ _ _ hin), hstart⟩
  once := inv.once
  found g hg := by
    obtain ⟨x, hx, hpid, hdead⟩ := inv.found g hg
    exact ⟨x, hx, hpid, fun hr => hdead (hpid ▸ hruns x hx (hpid ▸ hr))⟩

theorem Inv.kills {i : Nat} {who : String → Prop} (inv : Inv w)
    (hk : System.Kills i who w.system s') (hf : System.Fades w.system s') :
    Inv { w with system := s' } := by
  refine inv.mono (fun j n p hp => ?_) (Nat.le_of_eq hk.switches.symm) fun x _ => Runs.of_fades hf
  by_cases hj : i = j
  · subst hj
    by_cases hn : who n
    · rw [hk.gone n hn] at hp
      cases hp
    · rwa [hk.kept n hn] at hp
  · rwa [hk.others j hj] at hp

theorem Inv.aside (inv : Inv w) (h : Aside w.started w.system s') :
    Inv { w with system := s' } := by
  refine inv.mono (fun i n p hp => by rwa [h.tables] at hp) h.switches fun x hx hr => ?_
  refine ⟨hr.1, ?_⟩
  by_contra hdead
  rw [Bool.not_eq_true] at hdead
  have hstill := h.ended x hx hdead
  rw [hr.2] at hstill
  cases hstill

/-- A probe finds an entry whose process has ended. -/
theorem Inv.probe {p : Probe} {host plugin : String} {pid : Nat} (inv : Inv w)
    (hp : p.kind = .process) (h : p.decide w.registry w.system host plugin = .dead pid) :
    Inv { w with found := ⟨host, plugin, pid⟩ :: w.found } where
  entered := inv.entered
  starting := inv.starting
  single := inv.single
  switched := inv.switched
  distinct := inv.distinct
  answered := inv.answered
  once := inv.once
  found g hg := by
    rcases List.mem_cons.1 hg with rfl | hold
    · obtain ⟨hpid, hdead⟩ := pid_of_probe_dead hp h
      obtain ⟨x, q, -, hq, hpid⟩ := pid_eq_ok_iff.1 hpid
      exact ⟨(x.pool, q), (inv.entered _ _ q hq).2, hpid, hdead⟩
    · exact inv.found g hold

/-! ## Starts -/

/-- A start is added that carries nothing. -/
theorem Inv.wait {e : Errand} {l : Launch} (inv : Inv w) (hl : l.process? = none) :
    Inv { w with waiting := (e, l) :: w.waiting } := by
  have hstart : ∀ x, IsStarting { w with waiting := (e, l) :: w.waiting } x → IsStarting w x := by
    rintro x ⟨y, hy, hx⟩
    rcases List.mem_cons.1 hy with rfl | hold
    · rw [carried_of_none hl] at hx
      cases hx
    · exact ⟨y, hold, hx⟩
  refine ⟨inv.entered, fun x hx => inv.starting x (hstart x hx), ?_, inv.switched, inv.distinct,
    fun g hg => ?_, inv.once, inv.found⟩
  · rw [List.flatMap_cons, carried_of_none hl]
    exact inv.single
  · obtain ⟨x, hx, hpid, hout, hno⟩ := inv.answered g hg
    exact ⟨x, hx, hpid, hout, fun h => hno (hstart x h)⟩

/-- A start is added that carries a process.  The number and the switch of that are
    new. -/
theorem Inv.carry {e : Errand} {l : Launch} {p : PluginProcess} (inv : Inv w)
    (hl : l.process? = some p) (hpid : ∀ x ∈ w.started, x.2.pid ≠ p.pid)
    (hswitch : ∀ id, p.switch = some id →
      id < w.system.switches.length ∧ ∀ x ∈ w.started, x.2.switch ≠ some id) :
    Inv { w with waiting := (e, l) :: w.waiting, started := (l.pool, p) :: w.started } := by
  have hnew : (l.pool, p) ∉ w.started := fun hmem => hpid _ hmem rfl
  have hstart : ∀ x, IsStarting { w with waiting := (e, l) :: w.waiting } x →
      x = (l.pool, p) ∨ IsStarting w x := by
    rintro x ⟨y, hy, hx⟩
    rcases List.mem_cons.1 hy with rfl | hold
    · rw [carried_of_some hl] at hx
      exact Or.inl (List.mem_singleton.1 hx)
    · exact Or.inr ⟨y, hold, hx⟩
  refine ⟨fun i n q hq => ?_, fun x hx => ?_, ?_, fun x hx id hid => ?_, ?_, fun g hg => ?_,
    inv.once, fun g hg => ?_⟩
  · obtain ⟨hname, hmem⟩ := inv.entered i n q hq
    exact ⟨hname, List.mem_cons_of_mem _ hmem⟩
  · rcases hstart x hx with rfl | hold
    · exact ⟨List.mem_cons_self, fun hin => hnew (inv.entered _ _ p hin).2⟩
    · obtain ⟨hmem, hout⟩ := inv.starting x hold
      exact ⟨List.mem_cons_of_mem _ hmem, hout⟩
  · rw [List.flatMap_cons, carried_of_some hl]
    refine List.nodup_cons.2 ⟨fun hmem => ?_, inv.single⟩
    obtain ⟨y, hy, hin⟩ := List.mem_flatMap.1 hmem
    exact hnew (inv.starting _ ⟨y, hy, hin⟩).1
  · rcases List.mem_cons.1 hx with rfl | hold
    · exact (hswitch id hid).1
    · exact inv.switched x hold id hid
  · intro x hx y hy id hxid hyid
    rcases List.mem_cons.1 hx with rfl | hxold
    · rcases List.mem_cons.1 hy with rfl | hyold
      · rfl
      · exact absurd hyid ((hswitch id hxid).2 y hyold)
    · rcases List.mem_cons.1 hy with rfl | hyold
      · exact absurd hxid ((hswitch id hyid).2 x hxold)
      · exact inv.distinct x hxold y hyold id hxid hyid
  · obtain ⟨x, hx, hxpid, hout, hno⟩ := inv.answered g hg
    refine ⟨x, List.mem_cons_of_mem _ hx, hxpid, hout, fun h => ?_⟩
    rcases hstart x h with rfl | hold
    · exact hnew hx
    · exact hno hold
  · obtain ⟨x, hx, hxpid, hdead⟩ := inv.found g hg
    exact ⟨x, List.mem_cons_of_mem _ hx, hxpid, hdead⟩

/-- A start is added that a runner has begun. -/
theorem Inv.add {e : Errand} {l : Launch} (inv : Inv w) (hgrow : System.Grows w.system s')
    (hnew : ∀ p, l.process? = some p → p.switch ≠ none → System.IsNew w.system s' p)
    (hruns : ∀ pid, Runs s' pid → Runs w.system pid ∨ ∃ p, l.process? = some p ∧ p.pid = pid)
    (hpids : ((carried l ++ w.started).map (·.2.pid)).Nodup) :
    Inv { w with
      system := s', waiting := (e, l) :: w.waiting, started := carried l ++ w.started } := by
  -- None of the processes has the number of the one that is carried, so that none of
  -- them can have come back with it.
  have hpid : ∀ p, l.process? = some p → ∀ x ∈ w.started, x.2.pid ≠ p.pid := by
    intro p hl x hx heq
    rw [carried_of_some hl] at hpids
    exact (List.nodup_cons.1 hpids).1 (List.mem_map.2 ⟨x, hx, heq⟩)
  have inv' : Inv { w with system := s' } := by
    refine inv.mono (fun i n p hp => by rwa [hgrow.tables] at hp) hgrow.switches fun x hx hr => ?_
    rcases hruns _ hr with hold | ⟨p, hl, heq⟩
    · exact hold
    · exact absurd heq.symm (hpid p hl x hx)
  cases hl : l.process? with
  | none =>
    rw [carried_of_none hl]
    exact inv'.wait hl
  | some p =>
    rw [carried_of_some hl]
    refine inv'.carry hl (hpid p hl) fun id hid => ?_
    obtain ⟨id', hid', hle, hlt, -⟩ := hnew p hl (by rw [hid]; exact Option.some_ne_none id)
    obtain rfl : id = id' := Option.some.inj (hid.symm.trans hid')
    refine ⟨hlt, fun x hx hxid => ?_⟩
    have hold := inv.switched x hx id hxid
    omega

/-- A container that begins a start adds one. -/
theorem Inv.beginRun {c : Container} {plugin : String} {port : UInt16} {e : Errand} {l : Launch}
    (inv : Inv w) (h : c.beginRun w.system plugin port = (.ok l, s'))
    (hpids : ((carried l ++ w.started).map (·.2.pid)).Nodup) :
    Inv { w with
      system := s', waiting := (e, l) :: w.waiting, started := carried l ++ w.started } := by
  obtain ⟨-, -, hgrow, -, hnew⟩ := Container.beginRun_spec h
  refine inv.add hgrow (fun p hp _ => (hnew p hp).2) (fun pid hr => ?_) hpids
  obtain ⟨hle, halive⟩ := hr
  rw [System.isAlive, Bool.or_eq_true] at halive
  rcases halive with hzero | hrun
  · exact Or.inl ⟨hle, by rw [System.isAlive, hzero, Bool.true_or]⟩
  · rcases Container.beginRun_children h hrun with hold | hcarried
    · exact Or.inl ⟨hle, by rw [System.isAlive, hold, Bool.or_true]⟩
    · exact Or.inr hcarried

/-- A start may be forgotten. -/
theorem Inv.drop {e : Errand} {l : Launch} {rest : List (Errand × Launch)} (inv : Inv w)
    (h : w.waiting.Perm ((e, l) :: rest)) : Inv { w with waiting := rest } := by
  have hstart : ∀ x, IsStarting { w with waiting := rest } x → IsStarting w x := by
    rintro x ⟨y, hy, hx⟩
    exact ⟨y, h.mem_iff.2 (List.mem_cons_of_mem _ hy), hx⟩
  refine ⟨inv.entered, fun x hx => inv.starting x (hstart x hx), ?_, inv.switched, inv.distinct,
    fun g hg => ?_, inv.once, inv.found⟩
  · have hsingle := (h.flatMap_right fun y => carried y.2).nodup_iff.1 inv.single
    rw [List.flatMap_cons] at hsingle
    exact (List.nodup_append.1 hsingle).2.1
  · obtain ⟨x, hx, hpid, hout, hno⟩ := inv.answered g hg
    exact ⟨x, hx, hpid, hout, fun hs => hno (hstart x hs)⟩

/-- The process of a start is entered, or told to stop. -/
theorem Inv.enter {e : Errand} {l : Launch} {rest : List (Errand × Launch)} {p : PluginProcess}
    (inv : Inv w) (h : w.waiting.Perm ((e, l) :: rest)) (hl : l.process? = some p) :
    Inv { w with system := (w.system.enter l.pool p).2, waiting := rest } := by
  have hmem : (e, l) ∈ w.waiting := h.mem_iff.2 List.mem_cons_self
  have hp : IsStarting w (l.pool, p) := ⟨(e, l), hmem, by rw [carried_of_some hl]; simp⟩
  have hstart : ∀ x, IsStarting { w with waiting := rest } x →
      x ≠ (l.pool, p) ∧ IsStarting w x := by
    rintro x ⟨y, hy, hx⟩
    refine ⟨?_, y, h.mem_iff.2 (List.mem_cons_of_mem _ hy), hx⟩
    rintro rfl
    have hsingle := (h.flatMap_right fun y => carried y.2).nodup_iff.1 inv.single
    rw [List.flatMap_cons, carried_of_some hl] at hsingle
    exact (List.nodup_cons.1 hsingle).1 (List.mem_flatMap.2 ⟨y, hy, hx⟩)
  -- Only the process itself can have been entered.
  have hent : ∀ x, IsEntered (w.system.enter l.pool p).2 x →
      x = (l.pool, p) ∨ IsEntered w.system x := by
    intro x hx
    rcases System.entry_of_enter hx with hold | ⟨hpool, -, hq⟩
    · exact Or.inr hold
    · exact Or.inl (Prod.ext hpool.symm hq)
  refine ⟨fun i n q hq => ?_, fun x hx => ?_, (inv.drop h).single, fun x hx id hid => ?_,
    inv.distinct, fun g hg => ?_, inv.once, fun g hg => ?_⟩
  · rcases System.entry_of_enter hq with hold | ⟨rfl, rfl, rfl⟩
    · exact inv.entered i n q hold
    · exact ⟨rfl, (inv.starting _ hp).1⟩
  · obtain ⟨hne, hold⟩ := hstart x hx
    obtain ⟨hin, hout⟩ := inv.starting x hold
    exact ⟨hin, fun hx' => (hent x hx').elim hne hout⟩
  · rw [System.enter_switches]
    exact inv.switched x hx id hid
  · obtain ⟨x, hx, hpid, hout, hno⟩ := inv.answered g hg
    refine ⟨x, hx, hpid, fun hx' => ?_, fun hs => hno (hstart x hs).2⟩
    rcases hent x hx' with rfl | hold
    · exact hno hp
    · exact hout hold
  · obtain ⟨x, hx, hpid, hdead⟩ := inv.found g hg
    exact ⟨x, hx, hpid, fun hr => hdead (hr.of_fades (System.enter_fades _ _ _))⟩

/-- A start that ends. -/
theorem Inv.finish {e : Errand} {l : Launch} {rest : List (Errand × Launch)} (inv : Inv w)
    (h : w.waiting.Perm ((e, l) :: rest))
    (hpids : ((born w.system l ++ w.started).map (·.2.pid)).Nodup) :
    Inv { w with
      system := (Container.finishRun w.system l).2, waiting := rest
      started := born w.system l ++ w.started } := by
  cases hl : l.process? with
  | some p =>
    have hborn : born w.system l = [] := by
      rw [born, System.born, hl]
      rfl
    have hfin := System.finishStart_of_process? (s := w.system) hl
    rw [hborn, Container.finishRun_of_ok (by rw [hfin]), hfin]
    exact inv.enter h hl
  | none =>
    cases hp : (w.system.finishStart l).1 with
    | error err =>
      obtain ⟨-, hfin, hno⟩ := System.finishStart_error hp
      have hborn : born w.system l = [] := by
        rw [born, hno]
        rfl
      rw [hborn, Container.finishRun_of_error hp, hfin]
      exact inv.drop h
    | ok p =>
      have hborn : born w.system l = [(l.pool, p)] := by
        rw [born, System.born, hl, hp]
        rfl
      rw [hborn] at hpids ⊢
      rw [Container.finishRun_of_ok hp]
      -- First the process comes into being, then it is entered.
      let made : Launch := { l with outcome := .ok (.running p) }
      have hadd := (inv.drop h).add (e := e) (l := made) (System.finishStart_grows w.system l)
        (fun q hq hs => by
          obtain rfl : p = q := Option.some.inj hq
          exact System.isNew_of_finishStart hl hp hs)
        (fun pid hr => Or.inl (hr.of_fades (System.finishStart_fades w.system l))) hpids
      exact hadd.enter (l := made) (List.Perm.refl _) rfl

/-! ## Answers to signals -/

/-- What a killing stops stood in the table under a name that was picked. -/
theorem Inv.of_stops_kills {i : Nat} {who : String → Prop} (inv : Inv w)
    (hk : System.Kills i who w.system s') {x : Nat × PluginProcess} (hx : x ∈ w.started)
    (h : Stops w.system s' x) : x.1 = i ∧ who x.2.name ∧ IsEntered w.system x := by
  rcases h with ⟨hno, hyes⟩ | ⟨hin, hout⟩
  · obtain ⟨id, hid, hspent⟩ := System.isTold_iff.1 hyes
    rcases (hk.spent id).1 hspent with hold | ⟨n, p, hn, hp, hpid, -⟩
    · rw [System.isTold_iff.2 ⟨id, hid, hold⟩] at hno
      cases hno
    · -- The switch tells that it is the entry.
      obtain ⟨hname, hmem⟩ := inv.entered i n p hp
      obtain rfl := inv.distinct x hx (i, p) hmem id hid hpid
      exact ⟨rfl, hname ▸ hn, by rw [IsEntered, hname]; exact hp⟩
  · by_cases hi : i = x.1
    · subst hi
      refine ⟨rfl, ?_, hin⟩
      by_contra hn
      exact hout (by rw [IsEntered, hk.kept _ hn]; exact hin)
    · exact absurd (by rw [IsEntered, hk.others _ hi]; exact hin) hout

/-- Nobody who was there is told by what only grows. -/
theorem isTold_of_grows (hgrow : System.Grows s s') {x : Nat × PluginProcess}
    (hx : ∀ id, x.2.switch = some id → id < s.switches.length) :
    s'.isTold x.2 = s.isTold x.2 := by
  cases hid : x.2.switch with
  | none =>
    rw [System.isTold, System.isTold, hid]
    rfl
  | some id => exact hgrow.isTold ⟨id, hid, hx id hid⟩

/-- What only grows afterwards stops nobody of those who were there. -/
theorem stops_of_grows (hgrow : System.Grows s' s'') {x : Nat × PluginProcess}
    (hx : ∀ id, x.2.switch = some id → id < s'.switches.length) (h : Stops s s'' x) :
    Stops s s' x := by
  rwa [Stops, IsEntered, IsEntered, isTold_of_grows hgrow hx, hgrow.tables] at h

/-- Who is stopped after something that only grows is stopped by what comes then. -/
theorem Stops.after_grows {x : Nat × PluginProcess} (h : Stops s s'' x)
    (hgrow : System.Grows s s') (hx : ∀ id, x.2.switch = some id → id < s.switches.length) :
    Stops s' s'' x := by
  rwa [Stops, IsEntered, isTold_of_grows hgrow hx, hgrow.tables]

/-- A signal about the registered process is one about the entry of the container. -/
theorem Inv.entry_of_pid (inv : Inv w) (hnames : (hosts.map (·.name)).Nodup)
    (hserves : Serves hosts w.registry) {c : Container}
    (hpid : w.registry.pid w.system signal.host signal.plugin = .ok signal.pid)
    (hc : w.registry.container signal.host = .ok c) :
    ∃ p, (w.system.table c.pool).get? signal.plugin = some p ∧ p.name = signal.plugin ∧
      p.pid = signal.pid ∧ (c.pool, p) ∈ w.started := by
  obtain ⟨x, p, hx, hp, hpid⟩ := pid_eq_ok_iff.1 hpid
  rw [hserves.pool_eq hnames hx hc] at hp
  obtain ⟨hname, hmem⟩ := inv.entered _ _ p hp
  exact ⟨p, hp, hname, hpid, hmem⟩

/-- The first part of the answer to a signal stops no process but the one that the
    signal names. -/
theorem Inv.pid_of_stops_beginRestart (inv : Inv w) (hnames : (hosts.map (·.name)).Nodup)
    (hserves : Serves hosts w.registry) {x : Nat × PluginProcess} (hx : x ∈ w.started)
    (h : Stops w.system (w.registry.beginRestart w.system signal).2 x) : x.2.pid = signal.pid := by
  have hkilled : ∀ c, w.registry.pid w.system signal.host signal.plugin = .ok signal.pid →
      w.registry.container signal.host = .ok c →
      Stops w.system (w.system.kill c.pool signal.plugin).2 x → x.2.pid = signal.pid := by
    intro c hpid hc hstops
    obtain ⟨p, hp, -, hppid, -⟩ := inv.entry_of_pid hnames hserves hpid hc
    obtain ⟨hpool, hn, hin⟩ := inv.of_stops_kills (System.kill_kills _ _ _) hx hstops
    rw [IsEntered, hpool, hn, hp] at hin
    rw [← Option.some.inj hin, hppid]
  cases hstart : w.registry.beginRestart w.system signal with
  | mk o s' =>
    rw [hstart] at h
    cases o with
    | none =>
      rcases of_beginRestart_eq_none hstart with rfl | ⟨c, hpid, hc, rfl⟩
      · exact absurd h (not_stops_self x)
      · exact hkilled c hpid hc h
    | some l =>
      -- Asking the runner stops nobody.
      obtain ⟨c, port, hpid, hc, hrun⟩ := of_beginRestart_eq_some hstart
      obtain ⟨-, -, hgrow, -⟩ := Container.beginRun_spec hrun
      refine hkilled c hpid hc (stops_of_grows hgrow (fun id hid => ?_) h)
      rw [(System.kill_kills _ _ _).switches]
      exact inv.switched x hx id hid

/-- Entering a process stops nobody but one who shares its switch, and that only if the
    name is taken. -/
theorem of_stops_enter {i : Nat} {p : PluginProcess} {x : Nat × PluginProcess}
    (h : Stops s (s.enter i p).2 x) :
    s.isReady i p.name = true ∧ ∃ id, x.2.switch = some id ∧ p.switch = some id := by
  cases hr : s.isReady i p.name with
  | false =>
    -- Its place is free, so that nobody loses an entry and nobody is told.
    refine absurd h ?_
    rw [System.enter_of_not_ready hr]
    rintro (⟨hno, hyes⟩ | ⟨hin, hout⟩)
    · have hsame := hno.symm.trans ((System.isTold_of_switches rfl x.2).symm.trans hyes)
      cases hsame
    · refine hout ?_
      rw [IsEntered] at hin ⊢
      by_cases hpool : i = x.1
      · subst hpool
        rw [System.get?_table_insert (System.lt_of_get?_table hin), if_neg, hin]
        intro hname
        rw [System.isReady_eq_false_iff, ← hname, hin] at hr
        cases hr
      · rw [System.table_updatePool_of_ne _ hpool, hin]
  | true =>
    rw [System.enter_of_ready hr] at h
    have hspends := System.triggerProcess_spends s p
    rcases h with ⟨hno, hyes⟩ | ⟨hin, hout⟩
    · obtain ⟨id, hid, hspent⟩ := System.isTold_iff.1 hyes
      rcases (hspends.spent id).1 hspent with hold | ⟨hpid, -⟩
      · rw [System.isTold_iff.2 ⟨id, hid, hold⟩] at hno
        cases hno
      · exact ⟨rfl, id, hid, hpid⟩
    · rw [IsEntered, hspends.table] at hout
      exact absurd hin hout

/-- The second part stops no process but the one that it has started, and that only if
    another one stands under its name. -/
theorem Inv.of_stops_finishRun (inv : Inv w) {e : Errand} {l : Launch}
    (hmem : (e, l) ∈ w.waiting) {x : Nat × PluginProcess} (hx : x ∈ w.started)
    (h : Stops w.system (Container.finishRun w.system l).2 x) :
    x ∈ carried l ∧ ∃ q, (w.system.table x.1).get? x.2.name = some q ∧ q ≠ x.2 := by
  have hgrow := System.finishStart_grows w.system l
  have hswitched := inv.switched x hx
  have hquiet : ¬ Stops w.system (w.system.finishStart l).2 x := fun hs =>
    not_stops_self x (stops_of_grows hgrow hswitched hs)
  cases hp : (w.system.finishStart l).1 with
  | error err =>
    rw [Container.finishRun_of_error hp] at h
    exact absurd h hquiet
  | ok p =>
    rw [Container.finishRun_of_ok hp] at h
    obtain ⟨hready, id, hid, hpid⟩ := of_stops_enter (h.after_grows hgrow hswitched)
    cases hl : l.process? with
    | none =>
      -- The switch of a process that has just come into being is new.
      have hsome : p.switch ≠ none := by
        rw [hpid]
        exact Option.some_ne_none id
      obtain ⟨id', hid', hle, -⟩ := System.isNew_of_finishStart hl hp hsome
      obtain rfl : id = id' := Option.some.inj (hpid.symm.trans hid')
      have hlt := hswitched id hid
      omega
    | some q =>
      have hcarried := carried_of_some hl
      rw [System.finishStart_of_process? hl] at hp
      obtain rfl : q = p := Except.ok.inj hp
      have hstart : IsStarting w (l.pool, q) :=
        ⟨(e, l), hmem, by rw [hcarried]; exact List.mem_cons_self⟩
      obtain ⟨hin, hout⟩ := inv.starting _ hstart
      obtain rfl := inv.distinct x hx _ hin id hid hpid
      obtain ⟨other, hother⟩ := System.isReady_eq_true_iff.1 hready
      rw [hgrow.tables] at hother
      rw [hcarried]
      exact ⟨List.mem_cons_self, other, hother, fun heq => hout (by rw [IsEntered, hother, heq])⟩

/-- A signal for which a runner is asked is about an entry that is gone then. -/
theorem Inv.beginRestart {l : Launch} (inv : Inv w) (hnames : (hosts.map (·.name)).Nodup)
    (hserves : Serves hosts w.registry)
    (h : w.registry.beginRestart w.system signal = (some l, s'))
    (hpids : ((carried l ++ w.started).map (·.2.pid)).Nodup) :
    Inv { w with
      system := s', waiting := (.restart signal, l) :: w.waiting
      started := carried l ++ w.started, answered := signal :: w.answered } := by
  have hold : (w.started.map (·.2.pid)).Nodup := by
    rw [List.map_append] at hpids
    exact (List.nodup_append.1 hpids).2.1
  obtain ⟨c, port, hpid, hc, hrun⟩ := of_beginRestart_eq_some h
  obtain ⟨p, hp, hname, hppid, hmem⟩ := inv.entry_of_pid hnames hserves hpid hc
  have hk := System.kill_kills w.system c.pool signal.plugin
  have inv' := inv.kills hk (System.kill_fades _ _ _)
  have hin : IsEntered w.system (c.pool, p) := by
    rw [IsEntered, hname]
    exact hp
  have hout : ¬ IsEntered (w.system.kill c.pool signal.plugin).2 (c.pool, p) := by
    rw [IsEntered, hname, hk.gone _ rfl]
    simp
  -- A process that was replaced before has no entry.
  have hnew : signal.pid ∉ w.answered.map (·.pid) := by
    intro hagain
    obtain ⟨g, hg, hgpid⟩ := List.mem_map.1 hagain
    obtain ⟨y, hy, hypid, hgone, -⟩ := inv.answered g hg
    obtain rfl : y = (c.pool, p) :=
      List.inj_on_of_nodup_map hold hy hmem (hypid.trans (hgpid.trans hppid.symm))
    exact hgone hin
  have hadd : Inv { w with
      system := (w.system.kill c.pool signal.plugin).2, answered := signal :: w.answered } := by
    refine ⟨inv'.entered, inv'.starting, inv'.single, inv'.switched, inv'.distinct,
      fun g hg => ?_, List.nodup_cons.2 ⟨hnew, inv'.once⟩, inv'.found⟩
    rcases List.mem_cons.1 hg with rfl | hmem'
    · exact ⟨_, hmem, hppid, hout, fun hs => (inv.starting _ hs).2 hin⟩
    · exact inv'.answered g hmem'
  exact hadd.beginRun hrun hpids

/-! ## All steps -/

theorem Inv.step (inv : Inv w) (hnames : (hosts.map (·.name)).Nodup)
    (hserves : Serves hosts w.registry) (hs : Step w w')
    (hpids : (w'.started.map (·.2.pid)).Nodup) : Inv w' := by
  cases hs with
  | setup storage name =>
    exact ⟨inv.entered, inv.starting, inv.single, inv.switched, inv.distinct, inv.answered,
      inv.once, inv.found⟩
  | beginRun h => exact inv.beginRun h hpids
  | beginHandle h => exact inv.beginRun (beginRun_of_beginHandle h).2 hpids
  | answer h =>
    rcases of_beginRestart_eq_none h with rfl | ⟨c, -, -, rfl⟩
    · exact inv
    · exact inv.kills (System.kill_kills _ _ _) (System.kill_fades _ _ _)
  | beginRestart h => exact inv.beginRestart hnames hserves h hpids
  | finish h =>
    rw [Errand.finish_eq]
    exact inv.finish h hpids
  | kill i name => exact inv.kills (System.kill_kills _ _ _) (System.kill_fades _ _ _)
  | killAll i => exact inv.kills (System.killAll_kills _ _) (System.killAll_fades _ _)
  | probe hp h => exact inv.probe hp h
  | aside h => exact inv.aside h

/-- What was handed out before is still counted. -/
theorem Step.started_suffix (hs : Step w w') : w.started <:+ w'.started := by
  cases hs with
  | beginRun h => exact List.suffix_append _ _
  | beginHandle h => exact List.suffix_append _ _
  | beginRestart h => exact List.suffix_append _ _
  | finish h => exact List.suffix_append _ _
  | _ => exact List.suffix_refl _

theorem Reachable.inv (hw : Reachable hosts policy w) (hnames : (hosts.map (·.name)).Nodup)
    (hpids : (w.started.map (·.2.pid)).Nodup) : Inv w := by
  induction hw with
  | init hpools hempty => exact Inv.init hempty
  | step hw hs ih =>
    -- Numbers that differ in the end have differed all along.
    have hbefore := hpids.sublist (hs.started_suffix.sublist.map _)
    exact (ih hbefore).step hnames hw.serves hs hpids

/-! ## Stale signals -/

/-- What the answer to a signal does until it waits: it stops no process but the one
    that the signal names; a signal about another process than the registered one
    does nothing; and a runner is asked only by an answer that waits, and once. -/
structure FirstAnswer (w : Traffic) (signal : Signal) : Prop where
  named : ∀ x ∈ w.started, Stops w.system (w.registry.beginRestart w.system signal).2 x →
    x.2.pid = signal.pid
  stale : w.registry.pid w.system signal.host signal.plugin ≠ .ok signal.pid →
    w.registry.beginRestart w.system signal = (none, w.system)
  silent : (w.registry.beginRestart w.system signal).1 = none →
    (w.registry.beginRestart w.system signal).2.journal = w.system.journal
  asks : ∀ l, (w.registry.beginRestart w.system signal).1 = some l →
    ∃ now label q, (w.registry.beginRestart w.system signal).2.journal
      = (now, .requested label q) :: w.system.journal

/-- What the answer to a signal does in the end: it asks for nothing more, and stops
    no process but the one that it has started, if that came too late. -/
structure SecondAnswer (w : Traffic) (l : Launch) : Prop where
  own : ∀ x ∈ w.started, Stops w.system (finishRestart w.system l) x →
    x ∈ carried l ∧ ∃ q, (w.system.table x.1).get? x.2.name = some q ∧ q ≠ x.2
  silent : (finishRestart w.system l).journal = w.system.journal

theorem Inv.firstAnswer (inv : Inv w) (hnames : (hosts.map (·.name)).Nodup)
    (hserves : Serves hosts w.registry) (signal : Signal) : FirstAnswer w signal where
  named x hx h := inv.pid_of_stops_beginRestart hnames hserves hx h
  stale h := beginRestart_of_stale h
  silent h := by
    rcases of_beginRestart_eq_none (Prod.ext h rfl) with hsame | ⟨c, -, -, hkill⟩
    · exact congrArg System.journal hsame
    · exact (congrArg System.journal hkill).trans (System.kill_kills _ _ _).journal
  asks l h := by
    obtain ⟨c, port, -, -, hrun⟩ := of_beginRestart_eq_some (Prod.ext h rfl)
    obtain ⟨-, -, -, ⟨q, -, -, hjournal⟩, -⟩ := Container.beginRun_spec hrun
    rw [hjournal, (System.kill_kills _ _ _).journal]
    exact ⟨_, _, _, rfl⟩

/-- However many signals there are, and however late they come: the answers to them
    stop nothing but the processes that the signals name, apart from one of their own
    that came too late; for each process a runner is asked once at most; and none that
    a probe has found dead is a process that runs. -/
theorem stale_signals_harmless (hw : Reachable hosts policy w)
    (hnames : (hosts.map (·.name)).Nodup) (hpids : (w.started.map (·.2.pid)).Nodup) :
    (∀ signal, FirstAnswer w signal) ∧
    (∀ signal l, (.restart signal, l) ∈ w.waiting → SecondAnswer w l) ∧
    (w.answered.map fun g => (g.plugin, g.pid)).Nodup ∧
    ∀ signal ∈ w.found, ∀ x ∈ w.started,
      Stops w.system (w.registry.beginRestart w.system signal).2 x → ¬ Runs w.system x.2.pid := by
  have inv := hw.inv hnames hpids
  refine ⟨inv.firstAnswer hnames hw.serves, fun signal l hmem => ?_, ?_, fun g hg x hx hstops => ?_⟩
  · exact ⟨fun x hx h => inv.of_stops_finishRun hmem hx h, Container.finishRun_journal w.system l⟩
  · refine List.Nodup.of_map (fun y => y.2) ?_
    rw [List.map_map]
    exact inv.once
  · obtain ⟨y, -, hypid, hdead⟩ := inv.found g hg
    rw [inv.pid_of_stops_beginRestart hnames hw.serves hx hstops]
    exact hdead

/-! ## Two signals about one process -/

/-- The plugin was started. -/
def echoStarted : Traffic :=
  { oneRequest with
    system := (Container.finishRun oneRequest.system echoLaunch).2
    waiting := []
    started := born oneRequest.system echoLaunch }

def echoSignal : Signal :=
  ⟨"host", "echo", 5⟩

/-- The start that answers the first signal. -/
def echoAgain : Launch :=
  ⟨0, "echo", 0, .ok (.due 1001 .none)⟩

/-- Two probes have found the process dead, and the first of their signals is being
    answered. -/
def echoAsked : Traffic :=
  { echoStarted with
    system := (echoStarted.registry.beginRestart echoStarted.system echoSignal).2
    waiting := [(.restart echoSignal, echoAgain)]
    answered := [echoSignal]
    found := [echoSignal, echoSignal] }

/-- The signal was answered. -/
def echoReplaced : Traffic :=
  { echoAsked with
    system := finishRestart echoAsked.system echoAgain
    waiting := []
    started := born echoAsked.system echoAgain ++ echoAsked.started }

theorem reachable_echoReplaced : Reachable [echoHost] {} echoReplaced := by
  have hstarted : Step oneRequest { oneRequest with
      system := (Errand.handle "host" "echo" echoRoute).finish oneRequest.system echoLaunch
      waiting := []
      started := born oneRequest.system echoLaunch ++ oneRequest.started } :=
    .finish (List.Perm.refl _)
  rw [Errand.finish_eq] at hstarted
  have hprobe (found : List Signal) : Step { echoStarted with found }
      { echoStarted with found := echoSignal :: found } :=
    .probe (p := {}) rfl rfl
  have hbegin : echoStarted.registry.beginRestart echoStarted.system echoSignal
      = (some echoAgain, echoAsked.system) := rfl
  have hasked : Step { echoStarted with found := [echoSignal, echoSignal] } echoAsked :=
    .beginRestart hbegin
  have hreplaced : Step echoAsked { echoAsked with
      system := (Errand.restart echoSignal).finish echoAsked.system echoAgain
      waiting := []
      started := born echoAsked.system echoAgain ++ echoAsked.started } :=
    .finish (List.Perm.refl _)
  have hfound := ((reachable_oneRequest.step hstarted).step (hprobe [])).step (hprobe _)
  exact (hfound.step hasked).step hreplaced

/-- The second signal does nothing to the process that has taken the place of the
    dead one. -/
theorem echo_not_restarted_twice :
    echoSignal ∈ echoReplaced.found ∧
    echoReplaced.registry.pid echoReplaced.system "host" "echo" = .ok 1001 ∧
    echoReplaced.registry.beginRestart echoReplaced.system echoSignal
      = (none, echoReplaced.system) := by
  have hpids : (echoReplaced.started.map (·.2.pid)).Nodup := by decide +kernel
  have hpid : echoReplaced.registry.pid echoReplaced.system "host" "echo" = .ok 1001 := rfl
  obtain ⟨hfirst, -⟩ := stale_signals_harmless reachable_echoReplaced (by decide) hpids
  refine ⟨List.mem_cons_self, hpid, (hfirst echoSignal).stale fun h => ?_⟩
  have hsame : 1001 = echoSignal.pid := Except.ok.inj (hpid.symm.trans h)
  exact absurd hsame (by decide)

end Traffic
end PluginHost
