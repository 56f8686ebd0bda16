/-
  PluginHost.Proofs.Custody

  Who answers for a process.  Any number of calls start processes in one pool
  while others kill them; a call gives way to the others only while it waits for
  the runner.  The runner answers every request that it can meet with a process
  that has a switch of its own.

  Then no process is ever lost: each one is still in the hands of the call that
  started it, or stands in the table, or was told to stop
  (`started_processes_accounted`).  The look into the table before the start and
  the entry after it are separate steps, so several starts of one plugin may be
  under way at once; what keeps them apart is `Inv`.
-/
import Mathlib.Data.List.Nodup
import PluginHost.Proofs.Calls

namespace PluginHost
namespace Custody

/-- A pool at work. -/
structure Shift where
  system : System
  /-- The starts that wait for the runner, in any order. -/
  launches : List Launch := []
  /-- The processes that the runner has started so far. -/
  started : List PluginProcess := []

/-- A process is in the hands of the call that started it. -/
def Shift.IsStarting (w : Shift) (p : PluginProcess) : Prop :=
  ∃ l ∈ w.launches, l.process? = some p

/-- A process is the entry under its name. -/
def Shift.IsEntered (i : Nat) (w : Shift) (p : PluginProcess) : Prop :=
  (w.system.table i).get? p.name = some p

/-- A process was told to stop: its switch is spent. -/
def Shift.IsTold (w : Shift) (p : PluginProcess) : Prop :=
  w.system.isTold p = true

/-- One step of the calls that work on pool `i`, up to the next point at which the
    call waits. -/
inductive Step (i : Nat) : Shift → Shift → Prop
  /-- A container of the pool begins to start a plugin, and waits. -/
  | begin {w : Shift} {c : Container} {plugin : String} {port : UInt16} {l : Launch} {s' : System}
      (hc : c.pool = i) (h : c.beginRun w.system plugin port = (.ok l, s')) (hl : l.IsSwitched) :
      Step i w ⟨s', l :: w.launches, l.process?.toList ++ w.started⟩
  /-- The same on behalf of somebody who wants to call the plugin. -/
  | beginHandle {w : Shift} {r : Registry} {host plugin : String} {route : Registry.Route}
      {l : Launch} {s' : System} (hc : route.container.pool = i)
      (h : r.beginHandle w.system host plugin = (.ok (.starting route l), s'))
      (hl : l.IsSwitched) :
      Step i w ⟨s', l :: w.launches, l.process?.toList ++ w.started⟩
  /-- A signal is answered: the process is killed, and another one is started. -/
  | beginRestart {w : Shift} {r : Registry} {signal : Signal} {o : Option Launch} {s' : System}
      (hc : ∀ c, r.container signal.host = .ok c → c.pool = i)
      (h : r.beginRestart w.system signal = (o, s')) (hl : ∀ l, o = some l → l.IsSwitched) :
      Step i w ⟨s', o.toList ++ w.launches, (o.bind Launch.process?).toList ++ w.started⟩
  /-- The runner has answered, and the call ends. -/
  | finish {w : Shift} {l : Launch} {rest : List Launch} (h : w.launches.Perm (l :: rest)) :
      Step i w ⟨(Container.finishRun w.system l).2, rest,
        (w.system.born l).toList ++ w.started⟩
  /-- The call was made on behalf of somebody who wants to call the plugin. -/
  | finishHandle {w : Shift} {host plugin : String} {route : Registry.Route} {l : Launch}
      {rest : List Launch} (h : w.launches.Perm (l :: rest)) :
      Step i w ⟨(Registry.finishHandle w.system host plugin (.starting route l)).2, rest,
        (w.system.born l).toList ++ w.started⟩
  /-- The call was the answer to a signal. -/
  | finishRestart {w : Shift} {l : Launch} {rest : List Launch}
      (h : w.launches.Perm (l :: rest)) :
      Step i w ⟨Registry.finishRestart w.system l, rest, (w.system.born l).toList ++ w.started⟩
  /-- One process is killed. -/
  | kill {w : Shift} (name : String) :
      Step i w { w with system := (w.system.kill i name).2 }
  /-- All processes are killed. -/
  | killAll {w : Shift} :
      Step i w { w with system := (w.system.killAll i).2 }
  /-- Something is done that concerns neither the pool nor what was started. -/
  | aside {w : Shift} {s' : System} (h : System.Aside i w.started w.system s') :
      Step i w { w with system := s' }

/-- What can come of a pool that starts with an empty table. -/
inductive Reachable (i : Nat) : Shift → Prop
  | init {s : System} (hi : i < s.pools.length) (ht : s.table i = .empty) :
      Reachable i { system := s }
  | step {w w' : Shift} (h : Reachable i w) (hs : Step i w w') : Reachable i w'

/-! ## The invariant -/

/-- Where the processes of pool `i` are.  `placed` says that none is lost; the
    others keep the three places apart. -/
structure Inv (i : Nat) (w : Shift) : Prop where
  pool : i < w.system.pools.length
  -- Every process has a switch, and no two have the same.
  switched : ∀ p ∈ w.started, w.system.HasSwitch p
  distinct : (w.started.map (·.switch)).Nodup
  launched : ∀ l ∈ w.launches, l.pool = i ∧ l.IsSwitched
  -- What a launch carries has never been entered, nor has anybody else told it.
  carried : ∀ l ∈ w.launches, ∀ p, l.process? = some p →
    p ∈ w.started ∧ p.name = l.name ∧ ¬ w.IsTold p ∧ ¬ w.IsEntered i p
  single : (w.launches.filterMap Launch.process?).Nodup
  entered : ∀ n p, (w.system.table i).get? n = some p → p.name = n ∧ p ∈ w.started ∧ ¬ w.IsTold p
  placed : ∀ p ∈ w.started, w.IsStarting p ∨ w.IsEntered i p ∨ w.IsTold p

variable {i : Nat} {w w' : Shift}

/-- A switch belongs to one process only. -/
theorem Inv.eq_of_switch (inv : Inv i w) {p q : PluginProcess} (hp : p ∈ w.started)
    (hq : q ∈ w.started) (h : p.switch = q.switch) : p = q :=
  List.inj_on_of_nodup_map inv.distinct hp hq h

theorem Inv.init {s : System} (hi : i < s.pools.length) (ht : s.table i = .empty) :
    Inv i { system := s } where
  pool := hi
  switched := by simp
  distinct := List.nodup_nil
  launched := by simp
  carried := by simp
  single := List.nodup_nil
  entered n p hp := by
    rw [ht, NameMap.get?_empty] at hp
    cases hp
  placed := by simp

/-- What is done elsewhere does not matter. -/
theorem Inv.aside {s' : System} (inv : Inv i w) (h : System.Aside i w.started w.system s') :
    Inv i { w with system := s' } where
  pool := h.pool
  switched p hp := by
    obtain ⟨id, hid, hlt⟩ := inv.switched p hp
    exact ⟨id, hid, Nat.lt_of_lt_of_le hlt h.switches⟩
  distinct := inv.distinct
  launched := inv.launched
  carried l hl p hlp := by
    obtain ⟨hp, hname, htold, hent⟩ := inv.carried l hl p hlp
    refine ⟨hp, hname, ?_, ?_⟩
    · rw [Shift.IsTold, h.told p hp]
      exact htold
    · rw [Shift.IsEntered, h.table]
      exact hent
  single := inv.single
  entered n p hn := by
    rw [h.table] at hn
    obtain ⟨hname, hp, htold⟩ := inv.entered n p hn
    refine ⟨hname, hp, ?_⟩
    rw [Shift.IsTold, h.told p hp]
    exact htold
  placed p hp := by
    rw [Shift.IsEntered, Shift.IsTold, h.table, h.told p hp]
    exact inv.placed p hp

/-! ## Starting -/

/-- A launch without a process may be forgotten. -/
theorem Inv.drop {s : System} {l : Launch} {rest : List Launch} {ps : List PluginProcess}
    (inv : Inv i ⟨s, l :: rest, ps⟩) (hl : l.process? = none) : Inv i ⟨s, rest, ps⟩ where
  pool := inv.pool
  switched := inv.switched
  distinct := inv.distinct
  launched l' hl' := inv.launched l' (List.mem_cons_of_mem _ hl')
  carried l' hl' := inv.carried l' (List.mem_cons_of_mem _ hl')
  single := by
    have h := inv.single
    rwa [List.filterMap_cons_none hl] at h
  entered := inv.entered
  placed p hp := by
    rcases inv.placed p hp with ⟨l', hl', hlp⟩ | hrest
    · rcases List.mem_cons.1 hl' with rfl | hmem
      · rw [hl] at hlp
        cases hlp
      · exact Or.inl ⟨l', hmem, hlp⟩
    · exact Or.inr hrest

/-- A launch is added.  If it carries a process, that is a new one. -/
theorem Inv.launch {s' : System} {l : Launch} (inv : Inv i w) (hg : w.system.Grows s')
    (hpool : l.pool = i) (hl : l.IsSwitched)
    (hnew : ∀ p, l.process? = some p → p.name = l.name ∧ System.IsNew w.system s' p) :
    Inv i ⟨s', l :: w.launches, l.process?.toList ++ w.started⟩ := by
  have inv' := inv.aside (hg.aside inv.pool inv.switched)
  have hlaunched : ∀ l' ∈ l :: w.launches, l'.pool = i ∧ l'.IsSwitched := by
    intro l' hl'
    rcases List.mem_cons.1 hl' with rfl | hmem
    · exact ⟨hpool, hl⟩
    · exact inv.launched l' hmem
  cases hp : l.process? with
  | none =>
    refine ⟨inv'.pool, inv'.switched, inv'.distinct, hlaunched, fun l' hl' q hq => ?_, ?_,
      inv'.entered, fun q hq => ?_⟩
    · rcases List.mem_cons.1 hl' with rfl | hmem
      · rw [hp] at hq
        cases hq
      · exact inv'.carried l' hmem q hq
    · rw [List.filterMap_cons_none hp]
      exact inv.single
    · rcases inv'.placed q hq with ⟨l', hl', hlq⟩ | hrest
      · exact Or.inl ⟨l', List.mem_cons_of_mem _ hl', hlq⟩
      · exact Or.inr hrest
  | some p =>
    obtain ⟨hname, hisnew⟩ := hnew p hp
    -- Its switch is none of the old ones, so that it is none of the old processes.
    have hswitch : ∀ q ∈ w.started, p.switch ≠ q.switch :=
      fun q hq => hisnew.switch_ne (inv.switched q hq)
    have hfresh : p ∉ w.started := fun hmem => hswitch p hmem rfl
    have hnotEntered : ¬ Shift.IsEntered i ⟨s', l :: w.launches, p :: w.started⟩ p :=
      fun hent => hfresh (inv'.entered _ p hent).2.1
    refine ⟨inv'.pool, fun q hq => ?_, ?_, hlaunched, fun l' hl' q hq => ?_, ?_,
      fun n q hq => ?_, fun q hq => ?_⟩
    · rcases List.mem_cons.1 hq with rfl | hmem
      · exact hisnew.hasSwitch
      · exact inv'.switched q hmem
    · refine List.nodup_cons.2 ⟨fun hmem => ?_, inv.distinct⟩
      obtain ⟨q, hq, heq⟩ := List.mem_map.1 hmem
      exact hswitch q hq heq.symm
    · rcases List.mem_cons.1 hl' with rfl | hmem
      · obtain rfl : p = q := by rwa [hp, Option.some.injEq] at hq
        refine ⟨List.mem_cons_self, hname, ?_, hnotEntered⟩
        rw [Shift.IsTold, hisnew.isTold]
        exact Bool.false_ne_true
      · obtain ⟨hin, hrest⟩ := inv'.carried l' hmem q hq
        exact ⟨List.mem_cons_of_mem _ hin, hrest⟩
    · rw [List.filterMap_cons_some hp]
      refine List.nodup_cons.2 ⟨fun hmem => ?_, inv.single⟩
      obtain ⟨l', hl', hlp⟩ := List.mem_filterMap.1 hmem
      exact hfresh (inv.carried l' hl' p hlp).1
    · obtain ⟨hn, hin, htold⟩ := inv'.entered n q hq
      exact ⟨hn, List.mem_cons_of_mem _ hin, htold⟩
    · rcases List.mem_cons.1 hq with rfl | hmem
      · exact Or.inl ⟨l, List.mem_cons_self, hp⟩
      · rcases inv'.placed q hmem with ⟨l', hl', hlq⟩ | hrest
        · exact Or.inl ⟨l', List.mem_cons_of_mem _ hl', hlq⟩
        · exact Or.inr hrest

/-- A container that begins a start adds a launch of its runner. -/
theorem Inv.beginRun {c : Container} {plugin : String} {port : UInt16} {l : Launch} {s' : System}
    (inv : Inv i w) (hc : c.pool = i) (h : c.beginRun w.system plugin port = (.ok l, s'))
    (hl : l.IsSwitched) : Inv i ⟨s', l :: w.launches, l.process?.toList ++ w.started⟩ := by
  obtain ⟨p, -, -, hask⟩ := Container.beginRun_eq_ok_iff.1 h
  obtain ⟨hpool, hname, hgrow, -, hnew⟩ :=
    System.askRunner_spec w.system c.pool (Container.request plugin p port)
  rw [hask] at hpool hname hgrow hnew
  refine inv.launch hgrow (hpool.trans hc) hl fun q hq => ?_
  rw [hname]
  exact hnew q hq

/-! ## Killing -/

/-- Those who are told after a killing were told before, or stood under a name
    that was picked. -/
theorem Inv.isTold_of_kills {who : String → Prop} {s' : System} (inv : Inv i w)
    (h : System.Kills i who w.system s') {p : PluginProcess} (hp : p ∈ w.started) :
    s'.isTold p = true ↔ w.IsTold p ∨ (who p.name ∧ w.IsEntered i p) := by
  rw [Shift.IsTold, System.isTold_iff, System.isTold_iff]
  constructor
  · rintro ⟨id, hid, hspent⟩
    rcases (h.spent id).1 hspent with hs | ⟨n, q, hn, hq, hqid, -⟩
    · exact Or.inl ⟨id, hid, hs⟩
    · obtain ⟨hname, hqs, -⟩ := inv.entered n q hq
      obtain rfl : q = p := inv.eq_of_switch hqs hp (hqid.trans hid.symm)
      rw [← hname] at hn hq
      exact Or.inr ⟨hn, hq⟩
  · rintro (⟨id, hid, hs⟩ | ⟨hn, hent⟩)
    · exact ⟨id, hid, (h.spent id).2 (Or.inl hs)⟩
    · obtain ⟨id, hid, hlt⟩ := inv.switched p hp
      exact ⟨id, hid, (h.spent id).2 (Or.inr ⟨p.name, p, hn, hent, hid, hlt⟩)⟩

/-- Killing moves processes from the table to those that were told. -/
theorem Inv.kills {who : String → Prop} {s' : System} (inv : Inv i w)
    (h : System.Kills i who w.system s') : Inv i { w with system := s' } := by
  have hent : ∀ n p, (s'.table i).get? n = some p → (w.system.table i).get? n = some p ∧ ¬ who n := by
    intro n p hn
    by_cases hw : who n
    · rw [h.gone n hw] at hn
      cases hn
    · rw [h.kept n hw] at hn
      exact ⟨hn, hw⟩
  refine ⟨?_, fun p hp => ?_, inv.distinct, inv.launched, fun l hl p hlp => ?_, inv.single,
    fun n p hn => ?_, fun p hp => ?_⟩
  · rw [h.pools]
    exact inv.pool
  · obtain ⟨id, hid, hlt⟩ := inv.switched p hp
    exact ⟨id, hid, by rw [h.switches]; exact hlt⟩
  · obtain ⟨hp, hname, htold, hnent⟩ := inv.carried l hl p hlp
    refine ⟨hp, hname, fun ht => ?_, fun he => hnent (hent _ p he).1⟩
    rcases (inv.isTold_of_kills h hp).1 ht with ht | ⟨-, he⟩
    · exact htold ht
    · exact hnent he
  · obtain ⟨hn', hw⟩ := hent n p hn
    obtain ⟨hname, hp, htold⟩ := inv.entered n p hn'
    refine ⟨hname, hp, fun ht => ?_⟩
    rcases (inv.isTold_of_kills h hp).1 ht with ht | ⟨hwho, -⟩
    · exact htold ht
    · exact hw (hname ▸ hwho)
  · rcases inv.placed p hp with hstart | he | ht
    · -- Killings do not reach a process that is not in the table yet.
      exact Or.inl hstart
    · by_cases hw : who p.name
      · exact Or.inr (Or.inr ((inv.isTold_of_kills h hp).2 (Or.inr ⟨hw, he⟩)))
      · refine Or.inr (Or.inl ?_)
        rw [Shift.IsEntered, h.kept _ hw]
        exact he
    · exact Or.inr (Or.inr ((inv.isTold_of_kills h hp).2 (Or.inl ht)))

/-! ## Ending a start -/

/-- The order of the launches does not matter. -/
theorem Inv.perm {s : System} {ls ls' : List Launch} {ps : List PluginProcess}
    (inv : Inv i ⟨s, ls, ps⟩) (h : ls.Perm ls') : Inv i ⟨s, ls', ps⟩ where
  pool := inv.pool
  switched := inv.switched
  distinct := inv.distinct
  launched l hl := inv.launched l (h.mem_iff.2 hl)
  carried l hl := inv.carried l (h.mem_iff.2 hl)
  single := (h.filterMap _).nodup_iff.1 inv.single
  entered := inv.entered
  placed p hp := by
    rcases inv.placed p hp with ⟨l, hl, hlp⟩ | hrest
    · exact Or.inl ⟨l, h.mem_iff.1 hl, hlp⟩
    · exact Or.inr hrest

/-- Once a launch with a process is set apart, nobody else carries that process. -/
theorem Inv.single_cons {s : System} {l : Launch} {rest : List Launch} {ps : List PluginProcess}
    {p : PluginProcess} (inv : Inv i ⟨s, l :: rest, ps⟩) (hp : l.process? = some p) :
    p ∉ rest.filterMap Launch.process? ∧ (rest.filterMap Launch.process?).Nodup := by
  have h := inv.single
  rwa [List.filterMap_cons_some hp, List.nodup_cons] at h

/-- The process of a launch is carried by no other one. -/
theorem Inv.ne_of_carried {s : System} {l l' : Launch} {rest : List Launch}
    {ps : List PluginProcess} {p q : PluginProcess} (inv : Inv i ⟨s, l :: rest, ps⟩)
    (hp : l.process? = some p) (hl' : l' ∈ rest) (hq : l'.process? = some q) : q ≠ p := by
  rintro rfl
  exact (inv.single_cons hp).1 (List.mem_filterMap.2 ⟨l', hl', hq⟩)

/-- A process whose name is free goes from its launch into the table. -/
theorem Inv.enter_free {s : System} {l : Launch} {rest : List Launch} {ps : List PluginProcess}
    {p : PluginProcess} (inv : Inv i ⟨s, l :: rest, ps⟩) (hp : l.process? = some p)
    (hr : s.isReady i p.name = false) : Inv i ⟨(s.enter i p).2, rest, ps⟩ := by
  obtain ⟨hpin, -, hptold, -⟩ := inv.carried l List.mem_cons_self p hp
  have hfree := System.isReady_eq_false_iff.1 hr
  have hget := System.get?_table_insert inv.pool p
  rw [System.enter_of_not_ready hr]
  -- No other launch carries the process, and nothing stood under its name.
  refine ⟨?_, inv.switched, inv.distinct, fun l' hl' => inv.launched l' (List.mem_cons_of_mem _ hl'),
    fun l' hl' q hq => ?_, ?_, fun n q hn => ?_, fun q hq => ?_⟩
  · rw [System.length_updatePool]
    exact inv.pool
  · obtain ⟨hqin, hname, hqtold, hqent⟩ := inv.carried l' (List.mem_cons_of_mem _ hl') q hq
    refine ⟨hqin, hname, hqtold, fun hent => ?_⟩
    rw [Shift.IsEntered, hget] at hent
    by_cases hn : q.name = p.name
    · rw [if_pos hn, Option.some.injEq] at hent
      exact inv.ne_of_carried hp hl' hq hent.symm
    · rw [if_neg hn] at hent
      exact hqent hent
  · exact (inv.single_cons hp).2
  · rw [hget] at hn
    by_cases hname : n = p.name
    · rw [if_pos hname, Option.some.injEq] at hn
      subst hn
      exact ⟨hname.symm, hpin, hptold⟩
    · rw [if_neg hname] at hn
      exact inv.entered n q hn
  · rcases inv.placed q hq with ⟨l', hl', hlq⟩ | hent | htold
    · rcases List.mem_cons.1 hl' with rfl | hmem
      · obtain rfl : p = q := by rwa [hp, Option.some.injEq] at hlq
        refine Or.inr (Or.inl ?_)
        rw [Shift.IsEntered, hget, if_pos rfl]
      · exact Or.inl ⟨l', hmem, hlq⟩
    · have hne : q.name ≠ p.name := fun heq => by
        rw [Shift.IsEntered, heq, hfree] at hent
        cases hent
      refine Or.inr (Or.inl ?_)
      rw [Shift.IsEntered, hget, if_neg hne]
      exact hent
    · exact Or.inr (Or.inr htold)

/-- A process whose name is taken goes from its launch to those that were told. -/
theorem Inv.enter_taken {s : System} {l : Launch} {rest : List Launch} {ps : List PluginProcess}
    {p : PluginProcess} (inv : Inv i ⟨s, l :: rest, ps⟩) (hp : l.process? = some p)
    (hr : s.isReady i p.name = true) : Inv i ⟨(s.enter i p).2, rest, ps⟩ := by
  obtain ⟨hpin, -, -, hpent⟩ := inv.carried l List.mem_cons_self p hp
  have hspend := System.triggerProcess_spends s p
  have hsame : ∀ q ∈ ps, q ≠ p → (s.triggerProcess p).2.isTold q = s.isTold q := fun q hq hne =>
    System.isTold_triggerProcess_of_ne fun heq => hne (inv.eq_of_switch hq hpin heq)
  rw [System.enter_of_ready hr]
  -- The entry under its name is another process, and keeps its switch.
  refine ⟨?_, fun q hq => ?_, inv.distinct,
    fun l' hl' => inv.launched l' (List.mem_cons_of_mem _ hl'), fun l' hl' q hq => ?_, ?_,
    fun n q hn => ?_, fun q hq => ?_⟩
  · rw [hspend.pools]
    exact inv.pool
  · obtain ⟨id, hid, hlt⟩ := inv.switched q hq
    exact ⟨id, hid, by rw [hspend.switches]; exact hlt⟩
  · obtain ⟨hqin, hname, hqtold, hqent⟩ := inv.carried l' (List.mem_cons_of_mem _ hl') q hq
    refine ⟨hqin, hname, ?_, ?_⟩
    · rw [Shift.IsTold, hsame q hqin (inv.ne_of_carried hp hl' hq)]
      exact hqtold
    · rw [Shift.IsEntered, hspend.table]
      exact hqent
  · exact (inv.single_cons hp).2
  · rw [hspend.table] at hn
    obtain ⟨hname, hqin, hqtold⟩ := inv.entered n q hn
    have hne : q ≠ p := by
      rintro rfl
      rw [← hname] at hn
      exact hpent hn
    refine ⟨hname, hqin, ?_⟩
    rw [Shift.IsTold, hsame q hqin hne]
    exact hqtold
  · by_cases hqp : q = p
    · subst hqp
      exact Or.inr (Or.inr (System.isTold_triggerProcess (inv.switched q hq)))
    · rw [Shift.IsEntered, Shift.IsTold, hspend.table, hsame q hq hqp]
      rcases inv.placed q hq with ⟨l', hl', hlq⟩ | hrest
      · rcases List.mem_cons.1 hl' with rfl | hmem
        · rw [hp, Option.some.injEq] at hlq
          exact absurd hlq.symm hqp
        · exact Or.inl ⟨l', hmem, hlq⟩
      · exact Or.inr hrest

theorem Inv.enter {s : System} {l : Launch} {rest : List Launch} {ps : List PluginProcess}
    {p : PluginProcess} (inv : Inv i ⟨s, l :: rest, ps⟩) (hp : l.process? = some p) :
    Inv i ⟨(s.enter i p).2, rest, ps⟩ := by
  cases hr : s.isReady i p.name with
  | true => exact inv.enter_taken hp hr
  | false => exact inv.enter_free hp hr

/-- A launch that ends with a process might as well have carried it all the
    time: just before the process is entered or refused, it does. -/
theorem Inv.finishStart {l : Launch} {rest : List Launch} {p : PluginProcess} (inv : Inv i w)
    (h : w.launches.Perm (l :: rest)) (hp : (w.system.finishStart l).1 = .ok p) :
    Inv i ⟨(w.system.finishStart l).2, { l with outcome := .ok (.running p) } :: rest,
      (w.system.born l).toList ++ w.started⟩ := by
  have inv' : Inv i ⟨w.system, l :: rest, w.started⟩ := inv.perm h
  obtain ⟨hpool, hswitched⟩ := inv'.launched l List.mem_cons_self
  cases hl : l.process? with
  | some q =>
    have hfin := System.finishStart_of_process? (s := w.system) hl
    have hborn : w.system.born l = none := by
      rw [System.born, hl]
      rfl
    rw [hfin] at hp
    obtain rfl : q = p := Except.ok.inj hp
    have hsame : { l with outcome := .ok (.running q) } = l := by
      rcases l with ⟨a, b, c, _ | _ | _⟩ <;> simp_all [Launch.process?]
    rw [hfin, hborn, hsame]
    exact inv'
  | none =>
    obtain ⟨hgrow, hnew⟩ := System.finishStart_of_process?_eq_none (s := w.system) hswitched hl
    obtain ⟨hname, hisnew⟩ := hnew p hp
    have hborn : w.system.born l = some p := by
      rw [System.born, hl, hp]
      rfl
    obtain ⟨id, hid, -⟩ := id hisnew
    rw [hborn]
    refine (inv'.drop hl).launch (l := { l with outcome := .ok (.running p) }) hgrow hpool ?_ ?_
    · rw [Launch.IsSwitched]
      simp [hid]
    · intro q hq
      obtain rfl : p = q := Option.some.inj hq
      exact ⟨hname, hisnew⟩

theorem Inv.finish {l : Launch} {rest : List Launch} (inv : Inv i w)
    (h : w.launches.Perm (l :: rest)) :
    Inv i ⟨(Container.finishRun w.system l).2, rest, (w.system.born l).toList ++ w.started⟩ := by
  have hpool := ((inv.perm h).launched l List.mem_cons_self).1
  cases hp : (w.system.finishStart l).1 with
  | error e =>
    obtain ⟨hnone, hfin, hborn⟩ := System.finishStart_error hp
    rw [Container.finishRun, hfin, hborn]
    exact (inv.perm h).drop hnone
  | ok p =>
    rw [Container.finishRun_of_ok hp, hpool]
    exact (inv.finishStart h hp).enter rfl

/-! ## Every run -/

/-- No step loses a process. -/
theorem Step.preserves (hs : Step i w w') (inv : Inv i w) : Inv i w' := by
  cases hs with
  | begin hc h hl => exact inv.beginRun hc h hl
  | beginHandle hc h hl => exact inv.beginRun hc (Registry.beginRun_of_beginHandle h).2 hl
  | @beginRestart r signal o s' hc h hl =>
    -- A restart is a killing of one name, and after it the beginning of a start.
    rcases r.beginRestart_cases w.system signal with hnone | ⟨c, port, -, hcont, -, hrest⟩
    · rw [hnone] at h
      obtain ⟨rfl, rfl⟩ := Prod.mk.inj h
      exact inv
    · have hkill := System.kill_kills w.system c.pool signal.plugin
      rw [hc c hcont] at hkill hrest
      rcases hrest with ⟨e, -, hnone⟩ | ⟨l, t, -, hrun, hsome⟩
      · rw [hnone] at h
        obtain ⟨rfl, rfl⟩ := Prod.mk.inj h
        exact inv.kills hkill
      · rw [hsome] at h
        obtain ⟨rfl, rfl⟩ := Prod.mk.inj h
        exact (inv.kills hkill).beginRun (hc c hcont) hrun (hl l rfl)
  | finish h => exact inv.finish h
  | finishHandle h =>
    rw [Registry.finishHandle_system]
    exact inv.finish h
  | finishRestart h => exact inv.finish h
  | kill name => exact inv.kills (System.kill_kills w.system i name)
  | killAll => exact inv.kills (System.killAll_kills w.system i)
  | aside h => exact inv.aside h

theorem Reachable.inv (h : Reachable i w) : Inv i w := by
  induction h with
  | init hi ht => exact Inv.init hi ht
  | step _ hs ih => exact hs.preserves ih

/-! ## What the calls answer -/

/-- A process is at exactly one of the three places. -/
structure Shift.Accounted (i : Nat) (w : Shift) (p : PluginProcess) : Prop where
  placed : w.IsStarting p ∨ w.IsEntered i p ∨ w.IsTold p
  not_entered : w.IsStarting p → ¬ w.IsEntered i p
  not_told : w.IsStarting p → ¬ w.IsTold p
  not_both : w.IsEntered i p → ¬ w.IsTold p

theorem Inv.accounted (inv : Inv i w) {p : PluginProcess} (hp : p ∈ w.started) :
    w.Accounted i p where
  placed := inv.placed p hp
  not_entered := fun ⟨l, hl, hlp⟩ => (inv.carried l hl p hlp).2.2.2
  not_told := fun ⟨l, hl, hlp⟩ => (inv.carried l hl p hlp).2.2.1
  not_both := fun hent => (inv.entered _ p hent).2.2

/-- Whoever is neither starting nor told is the entry of its name, and there is
    only one. -/
theorem Inv.eq_of_name (inv : Inv i w) {p q : PluginProcess} (hp : p ∈ w.started)
    (hq : q ∈ w.started) (hname : p.name = q.name) (hps : ¬ w.IsStarting p) (hpt : ¬ w.IsTold p)
    (hqs : ¬ w.IsStarting q) (hqt : ¬ w.IsTold q) : p = q := by
  have hpe : w.IsEntered i p := ((inv.placed p hp).resolve_left hps).resolve_right hpt
  have hqe : w.IsEntered i q := ((inv.placed q hq).resolve_left hqs).resolve_right hqt
  rw [Shift.IsEntered, hname] at hpe
  rw [Shift.IsEntered, hpe, Option.some.injEq] at hqe
  exact hqe

/-- What a process meets at the end of its launch: if its name is free it becomes
    the entry, and if not it is told and the entry stays. -/
theorem Inv.finishRun_of_ok {l : Launch} {rest : List Launch} {p : PluginProcess} (inv : Inv i w)
    (h : w.launches.Perm (l :: rest)) (hp : (w.system.finishStart l).1 = .ok p) :
    p.name = l.name ∧
      (w.system.isReady i l.name = false →
        (Container.finishRun w.system l).1 = .ok () ∧
          ((Container.finishRun w.system l).2.table i).get? l.name = some p) ∧
      (w.system.isReady i l.name = true →
        (Container.finishRun w.system l).1 = .error (.alreadyStarted l.name) ∧
          (Container.finishRun w.system l).2.table i = w.system.table i ∧
          (w.system.table i).get? l.name ≠ some p ∧
          (Container.finishRun w.system l).2.isTold p = true) := by
  have hpool := ((inv.perm h).launched l List.mem_cons_self).1
  have inv' := inv.finishStart h hp
  obtain ⟨hin, hname, -, hent⟩ := inv'.carried _ List.mem_cons_self p rfl
  have htable := (System.finishStart_grows w.system l).tables i
  have hready : (w.system.finishStart l).2.isReady i p.name = w.system.isReady i l.name := by
    rw [System.isReady, htable, hname, System.isReady]
  rw [Container.finishRun_of_ok hp, hpool]
  refine ⟨hname, fun hfree => ?_, fun htaken => ?_⟩
  · rw [System.enter_of_not_ready (hready.trans hfree)]
    refine ⟨rfl, ?_⟩
    rw [System.get?_table_insert inv'.pool, if_pos hname.symm]
  · rw [System.enter_of_ready (hready.trans htaken)]
    refine ⟨by rw [hname], ?_, ?_, System.isTold_triggerProcess (inv'.switched p hin)⟩
    · rw [(System.triggerProcess_spends _ p).table, htable]
    · rw [Shift.IsEntered, htable, hname] at hent
      exact hent

/-- What a start answers at its beginning: it is refused because of its name
    exactly if the plugin is known and its name is taken, and a start that goes no
    further does nothing. -/
structure BeginVerdict (s : System) (c : Container) (plugin : String) (port : UInt16) : Prop where
  refused : (c.beginRun s plugin port).1 = .error (.alreadyStarted plugin) ↔
    (∃ m, c.info plugin = .ok m) ∧ s.isReady c.pool plugin = true
  unchanged : ∀ e, (c.beginRun s plugin port).1 = .error e → (c.beginRun s plugin port).2 = s
  waits : ∀ l, (c.beginRun s plugin port).1 = .ok l →
    l.name = plugin ∧ l.pool = c.pool ∧ s.isReady c.pool plugin = false

/-- What a start answers at its end: success exactly if its own process became the
    entry, and a refusal because of its name exactly if the runner said so or the
    name was taken meanwhile.  Then the process is told, and the entry stays. -/
structure FinishVerdict (s : System) (l : Launch) : Prop where
  success : (Container.finishRun s l).1 = .ok () ↔ ∃ p, (s.finishStart l).1 = .ok p ∧
    p.name = l.name ∧ ((Container.finishRun s l).2.table l.pool).get? l.name = some p
  refused : (Container.finishRun s l).1 = .error (.alreadyStarted l.name) ↔
    (s.finishStart l).1 = .error (.alreadyStarted l.name) ∨
    ∃ p, (s.finishStart l).1 = .ok p ∧ s.isReady l.pool l.name = true
  told : ∀ p, (s.finishStart l).1 = .ok p → s.isReady l.pool l.name = true →
    (Container.finishRun s l).2.isTold p = true ∧
      (Container.finishRun s l).2.table l.pool = s.table l.pool

theorem beginVerdict (s : System) (c : Container) (plugin : String) (port : UInt16) :
    BeginVerdict s c plugin port where
  refused := by
    cases hi : c.info plugin with
    | error e =>
      rw [Container.beginRun_of_info_error hi, Container.info_eq_error hi]
      simp
    | ok m =>
      cases hr : s.isReady c.pool plugin with
      | true =>
        rw [Container.beginRun_of_ready hi hr]
        simp
      | false =>
        rw [Container.beginRun_of_not_ready hi hr]
        simp
  unchanged e h := Container.beginRun_of_error h
  waits l h := by
    obtain ⟨m, -, hr, hask⟩ := Container.beginRun_eq_ok_iff.1 (Prod.ext h rfl)
    obtain ⟨hpool, hname, -⟩ := System.askRunner_spec s c.pool (Container.request plugin m port)
    rw [hask] at hpool hname
    exact ⟨hname, hpool, hr⟩

theorem Inv.finishVerdict {l : Launch} {rest : List Launch} (inv : Inv i w)
    (h : w.launches.Perm (l :: rest)) : FinishVerdict w.system l := by
  have hpool := ((inv.perm h).launched l List.mem_cons_self).1
  cases hp : (w.system.finishStart l).1 with
  | error e =>
    obtain ⟨-, hfin, -⟩ := System.finishStart_error hp
    have hrun : Container.finishRun w.system l = (.error e, w.system) := by
      rw [Container.finishRun, hfin]
    refine ⟨?_, ?_, fun p hq => ?_⟩
    · rw [hrun, hp]
      simp
    · rw [hrun, hp]
      simp
    · rw [hp] at hq
      cases hq
  | ok p =>
    obtain ⟨hname, hfree, htaken⟩ := inv.finishRun_of_ok h hp
    rw [← hpool] at hfree htaken
    cases hr : w.system.isReady l.pool l.name with
    | true =>
      -- The entry is another process, so that the start cannot have succeeded.
      obtain ⟨hres, htable, hne, htold⟩ := htaken hr
      refine ⟨?_, ?_, fun q hq _ => ?_⟩
      · rw [hres, htable, hp]
        refine ⟨fun hok => (by cases hok), ?_⟩
        rintro ⟨q, hq, -, hget⟩
        rw [← Except.ok.inj hq] at hget
        exact absurd hget hne
      · rw [hres, hp, hr]
        simp
      · obtain rfl : p = q := by rw [hp] at hq; exact Except.ok.inj hq
        exact ⟨htold, htable⟩
    | false =>
      obtain ⟨hres, hget⟩ := hfree hr
      refine ⟨?_, ?_, fun q _ ht => ?_⟩
      · rw [hres, hp]
        exact ⟨fun _ => ⟨p, rfl, hname, hget⟩, fun _ => rfl⟩
      · rw [hres, hp, hr]
        simp
      · rw [hr] at ht
        cases ht

/-! ## No process is lost -/

/-- Whatever starts and killings of a pool come together: every process that was
    started is at exactly one place, of each plugin at most one has been started
    and not told to stop, and the starts answer what happened to their own
    process. -/
theorem started_processes_accounted (h : Reachable i w) :
    (w.started.map (·.switch)).Nodup ∧
    (∀ p ∈ w.started, w.Accounted i p) ∧
    (∀ p ∈ w.started, ∀ q ∈ w.started, p.name = q.name → ¬ w.IsStarting p → ¬ w.IsTold p →
      ¬ w.IsStarting q → ¬ w.IsTold q → p = q) ∧
    (∀ c plugin port, c.pool = i → BeginVerdict w.system c plugin port) ∧
    (∀ l ∈ w.launches, FinishVerdict w.system l) := by
  have inv := h.inv
  refine ⟨inv.distinct, fun p hp => inv.accounted hp,
    fun p hp q hq hname hps hpt hqs hqt => inv.eq_of_name hp hq hname hps hpt hqs hqt,
    fun c plugin port _ => beginVerdict w.system c plugin port, fun l hl => ?_⟩
  obtain ⟨before, after, hsplit⟩ := List.append_of_mem hl
  have hperm : w.launches.Perm (l :: (before ++ after)) := by
    rw [hsplit]
    exact List.perm_middle
  exact inv.finishVerdict hperm

/-! ## Two starts at once -/

/-- A host that may start one plugin. -/
def echoContainer : Container where
  installer := ⟨"host", none, .md5⟩
  pool := 0
  installed := true
  plugins := .ofList [("echo", ⟨"echo", [], "echo", 0, "", "http"⟩)]

/-- A pool whose runner has two processes at hand. -/
def idleSystem : System where
  pools := [{
    label := "host"
    runner := .prepared [{ outcome := .ok (1, .watched) }, { outcome := .ok (2, .watched) }] }]

/-- What the runner answers to the starts. -/
def prepared (pid : Nat) : Launch :=
  ⟨0, "echo", 0, .ok (.due pid .watched)⟩

/-- A start begins. -/
def Shift.begun (w : Shift) (pid : Nat) : Shift :=
  ⟨(echoContainer.beginRun w.system "echo" 1).2, prepared pid :: w.launches, w.started⟩

/-- A start ends, and others are left. -/
def Shift.ended (w : Shift) (pid : Nat) (rest : List Launch) : Shift :=
  ⟨(Container.finishRun w.system (prepared pid)).2, rest,
    (w.system.born (prepared pid)).toList ++ w.started⟩

/-- Two starts of one plugin began before either ended. -/
def twoStarts : Shift :=
  (((Shift.begun { system := idleSystem } 1).begun 2).ended 1 [prepared 2]).ended 2 []

/-- The process with switch `id`. -/
def echo (pid id : Nat) : PluginProcess :=
  { name := "echo", pid, switch := some id }

theorem two_starts_accounted : Reachable 0 twoStarts ∧ twoStarts.started = [echo 2 1, echo 1 0] ∧
    twoStarts.IsEntered 0 (echo 1 0) ∧ twoStarts.IsTold (echo 2 1) ∧
    ∀ p ∈ twoStarts.started, twoStarts.Accounted 0 p := by
  have hswitch (pid : Nat) : (prepared pid).IsSwitched := fun h => by cases h
  have h₀ : Reachable 0 { system := idleSystem } := .init (by decide) rfl
  have hbegin (w : Shift) (pid : Nat)
      (h : echoContainer.beginRun w.system "echo" 1
        = (.ok (prepared pid), (echoContainer.beginRun w.system "echo" 1).2)) :
      Step 0 w (w.begun pid) := .begin rfl h (hswitch pid)
  have h₁ := h₀.step (hbegin _ 1 rfl)
  have h₂ := h₁.step (hbegin _ 2 rfl)
  have h₃ := h₂.step (.finish (l := prepared 1) (List.Perm.swap (prepared 1) (prepared 2) []))
  have h₄ := h₃.step (.finish (l := prepared 2) (List.Perm.refl [prepared 2]))
  exact ⟨h₄, rfl, rfl, rfl, (started_processes_accounted h₄).2.1⟩

end Custody
end PluginHost
