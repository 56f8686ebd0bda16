/-
  PluginHost.Proofs.Household

  Hosts at work that start nothing but programs of the machine, with everything that can
  happen to these programs: they end when they like, or somebody else ends them; calls
  start and kill them; and a call that waits out the grace of its program may be given
  up, as by a timeout around it.  Giving it up runs no code but the destructors of what
  it holds, and the only thing that it holds is the switch.

  `Held` says who holds the switch of a program that was not told to stop: a call that
  waits, the entry of one table, or nobody (`forsaken`), and never two of them.  Together
  with `System.Tended`, which says what a switch tells about its program, this accounts
  for every program that was ever started.
-/
import Mathlib.Data.List.Nodup
import Mathlib.Logic.Relation
import PluginHost.Proofs.System.Scene

namespace PluginHost

namespace System

/-- A process of a program of the machine whose switch has not been used. -/
def IsFresh (s : System) (p : PluginProcess) : Prop :=
  ∃ id, p.switch = some id ∧ p.pid = firstChildPid + id ∧ id < s.switches.length ∧
    s.isSpent id = false

/-- A process stands in a table. -/
def IsEntry (s : System) (p : PluginProcess) : Prop :=
  ∃ i n, (s.table i).get? n = some p

/-- Where the switches are that have not been used: in the hands of somebody, or in a
    table, and each of them at one place only. -/
structure Held (hands : List PluginProcess) (s : System) : Prop where
  fresh : ∀ p ∈ hands, s.IsFresh p
  entered : ∀ {i n p}, (s.table i).get? n = some p → s.IsFresh p
  distinct : (hands.map (·.switch)).Nodup
  apart : ∀ {i n p}, (s.table i).get? n = some p → ∀ q ∈ hands, p.switch ≠ q.switch
  single : ∀ {i n p j m q}, (s.table i).get? n = some p → (s.table j).get? m = some q →
    p.switch = q.switch → i = j ∧ n = m
  placed : ∀ id < s.switches.length, s.isSpent id = false →
    (∃ p ∈ hands, p.switch = some id) ∨ ∃ p, s.IsEntry p ∧ p.switch = some id

variable {hands hands' : List PluginProcess} {s s' : System} {i : Nat} {p q : PluginProcess}

/-- A switch that nobody uses stays unused. -/
theorem IsFresh.mono (h : s.IsFresh p) (hlength : s.switches.length ≤ s'.switches.length)
    (hunspent : ∀ id < s.switches.length, p.switch = some id → s.isSpent id = false →
      s'.isSpent id = false) : s'.IsFresh p := by
  obtain ⟨id, hid, hpid, hlt, hunused⟩ := h
  exact ⟨id, hid, hpid, Nat.lt_of_lt_of_le hlt hlength, hunspent id hlt hid hunused⟩

namespace Held

theorem init (hswitches : s.switches = []) (hempty : ∀ i, s.table i = .empty) : Held [] s := by
  have hnone {i : Nat} {n : String} {p : PluginProcess} : (s.table i).get? n ≠ some p := by
    rw [hempty, NameMap.get?_empty]
    simp
  refine ⟨by simp, fun h => absurd h hnone, List.nodup_nil, fun h => absurd h hnone,
    fun h => absurd h hnone, fun id hid => ?_⟩
  rw [hswitches] at hid
  cases hid

theorem perm (h : Held hands s) (hperm : hands.Perm hands') : Held hands' s where
  fresh p hp := h.fresh p (hperm.mem_iff.2 hp)
  entered := h.entered
  distinct := (hperm.map _).nodup_iff.1 h.distinct
  apart hp q hq := h.apart hp q (hperm.mem_iff.2 hq)
  single := h.single
  placed id hid hunused := by
    obtain ⟨p, hp, hpid⟩ | hentry := h.placed id hid hunused
    · exact .inl ⟨p, hperm.mem_iff.1 hp, hpid⟩
    · exact .inr hentry

/-- Nothing happens that tables or marks of switches would show. -/
theorem same (h : Held hands s) (htables : ∀ i, s'.table i = s.table i)
    (hlength : s'.switches.length = s.switches.length)
    (hspent : ∀ id, s'.isSpent id = s.isSpent id) : Held hands s' where
  fresh p hp := (h.fresh p hp).mono (Nat.le_of_eq hlength.symm)
    fun id _ _ hunused => (hspent id).trans hunused
  entered hp := by
    rw [htables] at hp
    exact (h.entered hp).mono (Nat.le_of_eq hlength.symm)
      fun id _ _ hunused => (hspent id).trans hunused
  distinct := h.distinct
  apart hp := by
    rw [htables] at hp
    exact h.apart hp
  single hp hq := by
    rw [htables] at hp hq
    exact h.single hp hq
  placed id hid hunused := by
    rw [hlength] at hid
    rw [hspent] at hunused
    obtain hhand | ⟨p, ⟨i, n, hp⟩, hpid⟩ := h.placed id hid hunused
    · exact .inl hhand
    · exact .inr ⟨p, ⟨i, n, by rw [htables]; exact hp⟩, hpid⟩

theorem quiet (h : Held hands s) (hquiet : Quiet s s') : Held hands s' :=
  h.same hquiet.table hquiet.switches hquiet.spent

/-- A program is started, and its process is in the hands of the call. -/
theorem start (h : Held hands s) (htables : ∀ i, s'.table i = s.table i)
    (hlength : s'.switches.length = s.switches.length + 1)
    (hspent : ∀ id < s.switches.length, s'.isSpent id = s.isSpent id)
    (hswitch : p.switch = some s.switches.length)
    (hpid : p.pid = firstChildPid + s.switches.length)
    (hunused : s'.isSpent s.switches.length = false) : Held (p :: hands) s' := by
  have hfresh {q : PluginProcess} (hq : s.IsFresh q) : s'.IsFresh q :=
    hq.mono (by omega) fun id hlt _ hold => (hspent id hlt).trans hold
  -- The new switch is none of the old ones.
  have hnew {q : PluginProcess} (hq : s.IsFresh q) : q.switch ≠ p.switch := by
    obtain ⟨id, hid, -, hlt, -⟩ := hq
    rw [hid, hswitch, ne_eq, Option.some.injEq]
    omega
  refine ⟨fun q hq => ?_, fun hq => ?_, ?_, fun hq r hr => ?_, fun hq hr => ?_,
    fun id hid hid' => ?_⟩
  · obtain rfl | hq := List.mem_cons.1 hq
    · exact ⟨s.switches.length, hswitch, hpid, by omega, hunused⟩
    · exact hfresh (h.fresh q hq)
  · rw [htables] at hq
    exact hfresh (h.entered hq)
  · refine List.nodup_cons.2 ⟨fun hmem => ?_, h.distinct⟩
    obtain ⟨q, hq, heq⟩ := List.mem_map.1 hmem
    exact hnew (h.fresh q hq) heq
  · rw [htables] at hq
    obtain rfl | hr := List.mem_cons.1 hr
    · exact hnew (h.entered hq)
    · exact h.apart hq r hr
  · rw [htables] at hq hr
    exact h.single hq hr
  · by_cases hlast : id = s.switches.length
    · exact .inl ⟨p, List.mem_cons_self, hlast ▸ hswitch⟩
    · have hlt : id < s.switches.length := by omega
      rw [hspent id hlt] at hid'
      obtain ⟨q, hq, hqid⟩ | ⟨q, ⟨i, n, hq⟩, hqid⟩ := h.placed id hlt hid'
      · exact .inl ⟨q, List.mem_cons_of_mem _ hq, hqid⟩
      · exact .inr ⟨q, ⟨i, n, by rw [htables]; exact hq⟩, hqid⟩

/-- Killing takes switches out of a table after they were used. -/
theorem kills {who : String → Prop} (h : Held hands s) (hk : Kills i who s s') :
    Held hands s' := by
  have hback {j : Nat} {n : String} {q : PluginProcess} (hq : (s'.table j).get? n = some q) :
      (s.table j).get? n = some q ∧ ¬ (i = j ∧ who n) := by
    by_cases hj : i = j
    · subst hj
      by_cases hn : who n
      · rw [hk.gone n hn] at hq
        cases hq
      · rw [hk.kept n hn] at hq
        exact ⟨hq, fun hboth => hn hboth.2⟩
    · rw [hk.others j hj] at hq
      exact ⟨hq, fun hboth => hj hboth.1⟩
  -- A switch is used only if it stood in the table, under a name that was killed.
  have hunspent {id : Nat} (hid : s.isSpent id = false)
      (hnot : ∀ n r, who n → (s.table i).get? n = some r → r.switch ≠ some id) :
      s'.isSpent id = false := by
    rw [Bool.eq_false_iff]
    intro hspent
    obtain hold | ⟨n, r, hn, hr, hrid, -⟩ := (hk.spent id).1 hspent
    · rw [hid] at hold
      cases hold
    · exact hnot n r hn hr hrid
  refine ⟨fun q hq => ?_, fun {j n q} hq => ?_, h.distinct, fun hq => h.apart (hback hq).1,
    fun hq hr => h.single (hback hq).1 (hback hr).1, fun id hid hunused => ?_⟩
  · refine (h.fresh q hq).mono (Nat.le_of_eq hk.switches.symm) fun id _ hid hunused => ?_
    exact hunspent hunused fun n r _ hr hrid => h.apart hr q hq (hrid.trans hid.symm)
  · obtain ⟨hq, hnot⟩ := hback hq
    refine (h.entered hq).mono (Nat.le_of_eq hk.switches.symm) fun id _ hid hunused => ?_
    refine hunspent hunused fun m r hm hr hrid => ?_
    obtain ⟨hj, rfl⟩ := h.single hr hq (hrid.trans hid.symm)
    exact hnot ⟨hj, hm⟩
  · rw [hk.switches] at hid
    have hbefore : s.isSpent id = false := by
      rw [Bool.eq_false_iff] at hunused ⊢
      exact fun hspent => hunused ((hk.spent id).2 (.inl hspent))
    obtain hhand | ⟨q, ⟨j, n, hq⟩, hqid⟩ := h.placed id hid hbefore
    · exact .inl hhand
    · -- An entry that is gone would have had its switch used.
      refine .inr ⟨q, ⟨j, n, ?_⟩, hqid⟩
      by_cases hj : i = j
      · subst hj
        by_cases hn : who n
        · have hspent := (hk.spent id).2 (.inr ⟨n, q, hn, hq, hqid, hid⟩)
          rw [hunused] at hspent
          cases hspent
        · rw [hk.kept n hn]
          exact hq
      · rw [hk.others j hj]
        exact hq

theorem switch_ne (h : Held (p :: hands) s) : ∀ q ∈ hands, q.switch ≠ p.switch := by
  intro q hq heq
  have hmem : q.switch ∈ hands.map (·.switch) := List.mem_map_of_mem hq
  rw [heq] at hmem
  exact (List.nodup_cons.1 h.distinct).1 hmem

/-- The process of a start goes into a table whose name is free. -/
theorem enter_free (h : Held (p :: hands) s) (hi : i < s.pools.length)
    (hr : s.isReady i p.name = false) : Held hands (s.enter i p).2 := by
  have hother := h.switch_ne
  have hfree := isReady_eq_false_iff.1 hr
  have hentry {j : Nat} {n : String} {q : PluginProcess}
      (hq : ((s.enter i p).2.table j).get? n = some q) :
      (s.table j).get? n = some q ∨ (i = j ∧ n = p.name ∧ q = p) := entry_of_enter hq
  have hkept {j : Nat} {n : String} {q : PluginProcess} (hq : (s.table j).get? n = some q) :
      ((s.enter i p).2.table j).get? n = some q := by
    rw [enter_of_not_ready hr]
    by_cases hj : i = j
    · subst hj
      rw [get?_table_insert hi, if_neg]
      · exact hq
      · rintro rfl
        rw [hfree] at hq
        cases hq
    · rw [table_updatePool_of_ne _ hj]
      exact hq
  have hfresh {q : PluginProcess} (hq : s.IsFresh q) : (s.enter i p).2.IsFresh q := by
    rw [enter_of_not_ready hr]
    exact hq
  refine ⟨fun q hq => hfresh (h.fresh q (List.mem_cons_of_mem _ hq)), fun hq => ?_,
    (List.nodup_cons.1 h.distinct).2, fun hq r hmem => ?_, fun {j n q k m r} hq hq' heq => ?_,
    fun id hid hunused => ?_⟩
  · obtain hold | ⟨-, -, rfl⟩ := hentry hq
    · exact hfresh (h.entered hold)
    · exact hfresh (h.fresh _ List.mem_cons_self)
  · obtain hold | ⟨-, -, rfl⟩ := hentry hq
    · exact h.apart hold r (List.mem_cons_of_mem _ hmem)
    · exact (hother r hmem).symm
  · -- The switch of the new entry was in the hands of the call, so that no other has it.
    obtain hold | ⟨rfl, rfl, rfl⟩ := hentry hq
    · obtain hold' | ⟨-, -, rfl⟩ := hentry hq'
      · exact h.single hold hold' heq
      · exact absurd heq (h.apart hold r List.mem_cons_self)
    · obtain hold' | ⟨rfl, rfl, rfl⟩ := hentry hq'
      · exact absurd heq.symm (h.apart hold' q List.mem_cons_self)
      · exact ⟨rfl, rfl⟩
  · rw [enter_switches] at hid
    have hbefore : s.isSpent id = false := by
      rw [enter_of_not_ready hr] at hunused
      exact hunused
    obtain ⟨q, hq, hqid⟩ | ⟨q, ⟨j, n, hq⟩, hqid⟩ := h.placed id hid hbefore
    · obtain rfl | hq := List.mem_cons.1 hq
      · obtain ⟨q', hq'⟩ := exists_entry_of_enter hi q
        obtain hold | ⟨-, -, rfl⟩ := hentry hq'
        · rw [hfree] at hold
          cases hold
        · exact .inr ⟨q', ⟨i, _, hq'⟩, hqid⟩
      · exact .inl ⟨q, hq, hqid⟩
    · exact .inr ⟨q, ⟨j, n, hkept hq⟩, hqid⟩

/-- The process of a start whose name is taken is told to stop. -/
theorem enter_taken (h : Held (p :: hands) s) (hr : s.isReady i p.name = true) :
    Held hands (s.enter i p).2 := by
  have hother := h.switch_ne
  have hspend := triggerProcess_spends s p
  have hfresh {q : PluginProcess} (hq : s.IsFresh q) (hne : q.switch ≠ p.switch) :
      (s.triggerProcess p).2.IsFresh q := by
    refine hq.mono (Nat.le_of_eq hspend.switches.symm) fun id _ hid hunused => ?_
    rw [Bool.eq_false_iff, ne_eq, hspend.spent]
    rintro (hused | ⟨hthis, -⟩)
    · exact Bool.eq_false_iff.1 hunused hused
    · exact hne (hid.trans hthis.symm)
  rw [enter_of_ready hr]
  refine ⟨fun q hq => hfresh (h.fresh q (List.mem_cons_of_mem _ hq)) (hother q hq), fun hq => ?_,
    (List.nodup_cons.1 h.distinct).2, fun hq r hr => ?_, fun hq hr => ?_, fun id hid hunused => ?_⟩
  · rw [hspend.table] at hq
    exact hfresh (h.entered hq) (h.apart hq p List.mem_cons_self)
  · rw [hspend.table] at hq
    exact h.apart hq r (List.mem_cons_of_mem _ hr)
  · rw [hspend.table] at hq hr
    exact h.single hq hr
  · rw [hspend.switches] at hid
    -- A switch that is still unused is not that of the start.
    have hnot : ¬ (s.isSpent id = true ∨ p.switch = some id ∧ id < s.switches.length) :=
      fun hor => by
        rw [← hspend.spent] at hor
        rw [hunused] at hor
        cases hor
    obtain ⟨hbefore, hne⟩ := not_or.1 hnot
    obtain ⟨q, hq, hqid⟩ | ⟨q, ⟨j, n, hq⟩, hqid⟩ := h.placed id hid (by simpa using hbefore)
    · obtain rfl | hq := List.mem_cons.1 hq
      · exact absurd ⟨hqid, hid⟩ hne
      · exact .inl ⟨q, hq, hqid⟩
    · exact .inr ⟨q, ⟨j, n, by rw [hspend.table]; exact hq⟩, hqid⟩

theorem enter (h : Held (p :: hands) s) (hi : i < s.pools.length) : Held hands (s.enter i p).2 := by
  cases hr : s.isReady i p.name with
  | true => exact h.enter_taken hr
  | false => exact h.enter_free hi hr

end Held

/-! ## Runners -/

/-- Every pool starts programs of the machine. -/
def IsMachine (s : System) : Prop :=
  ∀ runner ∈ s.pools.map (·.runner), ∃ flag, runner = .machine flag

theorem IsMachine.congr (h : s.IsMachine)
    (hrunners : s'.pools.map (·.runner) = s.pools.map (·.runner)) : s'.IsMachine := by
  rw [IsMachine, hrunners]
  exact h

/-- What a machine answers at once: a program was started, or could not be. -/
theorem askRunner_cases (hmachine : s.IsMachine) (hi : i < s.pools.length) (r : SpawnRequest) :
    (∃ e, (s.askRunner i r).1.outcome = .error e ∧ (s.askRunner i r).2 = s.asked i r) ∨
      ∃ behaviour, (s.askRunner i r).1.outcome = .ok (.running (s.newProcess r.name)) ∧
        (s.askRunner i r).2 = ((s.asked i r).withProgram behaviour).releaseWatchers := by
  have hmem : (s.pool i).runner ∈ s.pools.map (·.runner) := by
    rw [pool, List.getD_eq_getElem?_getD, List.getElem?_eq_getElem hi]
    exact List.mem_map_of_mem (List.getElem_mem hi)
  obtain ⟨flag, hflag⟩ := hmachine _ hmem
  obtain ⟨hsystem, -, -, houtcome⟩ := askRunner_of_machine (r := r) hflag
  rw [hsystem, houtcome]
  cases hb : (s.asked i r).programs (s.asked i r).storage r.command (r.commandLine flag) with
  | error fault =>
    rw [startProgram_of_error hb]
    exact .inl ⟨_, rfl, rfl⟩
  | ok behaviour =>
    rw [startProgram_of_ok hb]
    exact .inr ⟨behaviour, rfl, rfl⟩

/-- What begins without a program ends without one. -/
theorem finishRun_of_process?_eq_none {l : Launch} (hnone : l.process? = none)
    (hdue : ∀ pid kind, l.outcome ≠ .ok (.due pid kind)) :
    ∃ e, Container.finishRun s l = (.error e, s) := by
  unfold Launch.process? at hnone
  rcases hout : l.outcome with e | ⟨pid, kind⟩ | p
  · have hfin := finishStart_of_error (s := s) hout
    exact ⟨e, by rw [Container.finishRun_of_error (by rw [hfin]), hfin]⟩
  · exact absurd hout (hdue pid kind)
  · rw [hout] at hnone
    cases hnone

/-- A start waits for its process only if the program got some grace when it was
    started.  Otherwise it ends at once. -/
def IsWaiting (s : System) (l : Launch) (p : PluginProcess) : Prop :=
  l.process? = some p ∧ ∃ c ∈ s.children, c.pid = p.pid ∧ c.started < l.due

end System

/-! ## Everything that can happen -/

/-- Hosts at work. -/
structure Household where
  system : System
  /-- The starts that wait out the grace of their programs, in any order. -/
  launches : List Launch := []
  /-- The processes whose starts were given up meanwhile. -/
  forsaken : List PluginProcess := []

namespace Household

/-- A start is given up, with the process that it carries. -/
def abandon (x : Household) (l : Launch) (rest : List Launch) (p : PluginProcess) : Household :=
  ⟨x.system.giveUp l, rest, p :: x.forsaken⟩

/-- One step, up to the next point at which a call waits.  On whose behalf a start ends
    makes no difference to what it does. -/
inductive Step : Household → Household → Prop
  /-- A container begins to start a plugin. -/
  | begin {x : Household} {c : Container} {plugin : String} {port : UInt16} {l : Launch}
      {s' : System} (hc : c.pool < x.system.pools.length)
      (h : c.beginRun x.system plugin port = (.ok l, s')) :
      Step x { x with system := s', launches := l :: x.launches }
  /-- The same on behalf of somebody who wants to call the plugin. -/
  | beginHandle {x : Household} {r : Registry} {host plugin : String} {route : Registry.Route}
      {l : Launch} {s' : System} (hc : route.container.pool < x.system.pools.length)
      (h : r.beginHandle x.system host plugin = (.ok (.starting route l), s')) :
      Step x { x with system := s', launches := l :: x.launches }
  /-- A signal is answered. -/
  | beginRestart {x : Household} {r : Registry} {signal : Signal} {o : Option Launch}
      {s' : System} (hc : ∀ c, r.container signal.host = .ok c → c.pool < x.system.pools.length)
      (h : r.beginRestart x.system signal = (o, s')) :
      Step x { x with system := s', launches := o.toList ++ x.launches }
  /-- The grace of a program is over, and its start ends. -/
  | finish {x : Household} {l : Launch} {rest : List Launch} (h : x.launches.Perm (l :: rest)) :
      Step x { x with system := (Container.finishRun x.system l).2, launches := rest }
  /-- A start is given up while it waits. -/
  | abandon {x : Household} {l : Launch} {rest : List Launch} {p : PluginProcess}
      (h : x.launches.Perm (l :: rest)) (hwait : x.system.IsWaiting l p) :
      Step x (x.abandon l rest p)
  | kill {x : Household} (i : Nat) (name : String) :
      Step x { x with system := (x.system.kill i name).2 }
  | killAll {x : Household} (i : Nat) : Step x { x with system := (x.system.killAll i).2 }
  /-- Time passes, and programs end meanwhile. -/
  | pass {x : Household} (moment : Nat) : Step x { x with system := x.system.advanceTo moment }
  /-- A program is ended by somebody else. -/
  | crash {x : Household} (pid : Nat) : Step x { x with system := x.system.crash pid }
  /-- Something is done that concerns neither processes nor pools. -/
  | aside {x : Household} {s' : System} (hnow : s'.now = x.system.now)
      (hpools : s'.pools = x.system.pools) (hswitches : s'.switches = x.system.switches)
      (hchildren : s'.children = x.system.children) : Step x { x with system := s' }

/-- Any number of steps. -/
abbrev Steps : Household → Household → Prop :=
  Relation.ReflTransGen Step

/-- What can come of pools for programs of the machine before anything was started. -/
inductive Reachable : Household → Prop
  | init {s : System} (hmachine : s.IsMachine) (hswitches : s.switches = [])
      (hchildren : s.children = []) (hempty : ∀ i, s.table i = .empty) : Reachable { system := s }
  | step {x y : Household} (h : Reachable x) (hs : Step x y) : Reachable y

theorem Reachable.steps {x y : Household} (h : Reachable x) (hs : Steps x y) : Reachable y := by
  induction hs with
  | refl => exact h
  | tail _ hstep ih => exact ih.step hstep

/-! ## The invariant -/

/-- The processes that no table has: those in the hands of calls that wait, and those
    that were given up. -/
def hands (x : Household) : List PluginProcess :=
  x.launches.filterMap Launch.process? ++ x.forsaken

/-- The switch of a process whose start was given up. -/
def IsForsaken (x : Household) (id : Nat) : Prop :=
  ∃ p ∈ x.forsaken, p.switch = some id

/-- What every step keeps. -/
structure Inv (x : Household) : Prop where
  machine : x.system.IsMachine
  -- Programs of the machine run as soon as they were asked for.
  launched : ∀ l ∈ x.launches, l.pool < x.system.pools.length ∧
    ∀ pid kind, l.outcome ≠ .ok (.due pid kind)
  held : System.Held x.hands x.system
  tended : System.Tended x.IsForsaken x.system

variable {x y : Household} {s' : System}

theorem Inv.init {s : System} (hmachine : s.IsMachine) (hswitches : s.switches = [])
    (hchildren : s.children = []) (hempty : ∀ i, s.table i = .empty) : Inv { system := s } where
  machine := hmachine
  launched := by simp
  held := .init hswitches hempty
  tended := .init hswitches hchildren

/-- A switch in a table can still be used. -/
theorem Inv.not_forsaken_of_entry (inv : Inv x) {i : Nat} {n : String} {p : PluginProcess}
    {id : Nat} (hp : (x.system.table i).get? n = some p) (hid : p.switch = some id) :
    ¬ x.IsForsaken id := by
  rintro ⟨q, hq, hqid⟩
  exact inv.held.apart hp q (List.mem_append_right _ hq) (hid.trans hqid.symm)

/-- The switch of a call that waits can still be used. -/
theorem Inv.not_forsaken_of_carried (inv : Inv x) {l : Launch} (hl : l ∈ x.launches)
    {p : PluginProcess} (hp : l.process? = some p) {id : Nat} (hid : p.switch = some id) :
    ¬ x.IsForsaken id := by
  rintro ⟨q, hq, hqid⟩
  have hmem : p ∈ x.launches.filterMap Launch.process? := List.mem_filterMap.2 ⟨l, hl, hp⟩
  have hdistinct := inv.held.distinct
  rw [hands, List.map_append] at hdistinct
  refine List.disjoint_of_nodup_append hdistinct (List.mem_map_of_mem hmem) ?_
  have heq : p.switch = q.switch := hid.trans hqid.symm
  rw [heq]
  exact List.mem_map_of_mem (f := (·.switch)) hq

theorem Inv.perm (inv : Inv x) {ls : List Launch} (h : x.launches.Perm ls) :
    Inv { x with launches := ls } where
  machine := inv.machine
  launched l hl := inv.launched l (h.mem_iff.2 hl)
  held := inv.held.perm ((h.filterMap _).append_right _)
  tended := inv.tended

/-! ### Steps -/

theorem Inv.quiet (inv : Inv x) (hquiet : System.Quiet x.system s')
    (htended : System.Tended x.IsForsaken s') : Inv { x with system := s' } where
  machine := inv.machine.congr (by rw [hquiet.pools])
  launched l hl := by
    obtain ⟨hpool, hdue⟩ := inv.launched l hl
    exact ⟨hquiet.pools ▸ hpool, hdue⟩
  held := inv.held.quiet hquiet
  tended := htended

theorem Inv.kills (inv : Inv x) {i : Nat} {who : String → Prop}
    (hk : System.Kills i who x.system s')
    (hrunners : s'.pools.map (·.runner) = x.system.pools.map (·.runner))
    (htended : System.Tended x.IsForsaken s') : Inv { x with system := s' } where
  machine := inv.machine.congr hrunners
  launched l hl := by
    obtain ⟨hpool, hdue⟩ := inv.launched l hl
    exact ⟨hk.pools ▸ hpool, hdue⟩
  held := inv.held.kills hk
  tended := htended

theorem Inv.kill (inv : Inv x) (i : Nat) (name : String) :
    Inv { x with system := (x.system.kill i name).2 } :=
  inv.kills (System.kill_kills x.system i name) (System.kill_scene x.system i name).runners
    (inv.tended.kill fun _ _ hp hid => inv.not_forsaken_of_entry hp hid)

theorem Inv.killAll (inv : Inv x) (i : Nat) : Inv { x with system := (x.system.killAll i).2 } :=
  inv.kills (System.killAll_kills x.system i) (System.killAll_scene x.system i).runners
    (inv.tended.killAll fun _ _ _ hp hid => inv.not_forsaken_of_entry hp hid)

/-- A runner is asked, and either a program was started, which is in the hands of the
    call from now on, or there is nothing to wait for. -/
theorem Inv.askRunner (inv : Inv x) {i : Nat} {r : SpawnRequest}
    (hi : i < x.system.pools.length) {l : Launch} (h : x.system.askRunner i r = (l, s')) :
    Inv { x with system := s', launches := l :: x.launches } := by
  obtain ⟨hpool, -, hgrow, -⟩ := System.askRunner_spec x.system i r
  have hcases := System.askRunner_cases inv.machine hi r
  have hmachine := inv.machine.congr (System.asked_scene x.system i r).runners
  have hasked := inv.tended.asked i r
  rw [h] at hpool hgrow hcases
  dsimp only at hpool hgrow hcases
  have hlaunched (hdue : ∀ pid kind, l.outcome ≠ .ok (.due pid kind)) (l' : Launch)
      (hl' : l' ∈ l :: x.launches) :
      l'.pool < s'.pools.length ∧ ∀ pid kind, l'.outcome ≠ .ok (.due pid kind) := by
    rw [hgrow.pools]
    obtain rfl | hl' := List.mem_cons.1 hl'
    · exact ⟨hpool ▸ hi, hdue⟩
    · exact inv.launched l' hl'
  -- Either nobody holds more than before, or the call holds the one new switch.
  obtain ⟨e, hout, hsystem⟩ | ⟨behaviour, hout, hsystem⟩ := hcases
  · have hnone : l.process? = none := by
      rw [Launch.process?, hout]
    have hheld : System.Held x.hands s' := by
      refine inv.held.same hgrow.tables ?_ fun id => ?_
      · rw [hsystem]
        rfl
      · rw [hsystem]
        rfl
    refine ⟨?_, hlaunched ?_, ?_, ?_⟩
    · exact hsystem ▸ hmachine
    · simp [hout]
    · rw [hands, List.filterMap_cons_none hnone]
      exact hheld
    · rw [hsystem]
      exact hasked
  · have hsome : l.process? = some (x.system.newProcess r.name) := by
      rw [Launch.process?, hout]
    have hquiet := System.releaseWatchers_quiet ((x.system.asked i r).withProgram behaviour)
    have hlength : s'.switches.length = x.system.switches.length + 1 := by
      rw [hsystem, hquiet.switches]
      exact List.length_append
    have hheld : System.Held (x.system.newProcess r.name :: x.hands) s' := by
      refine inv.held.start hgrow.tables hlength hgrow.spent rfl ?_ ?_
      · rw [inv.tended.count]
        rfl
      · rw [hsystem, hquiet.spent]
        exact System.isSpent_withProgram _ behaviour
    refine ⟨?_, hlaunched ?_, ?_, ?_⟩
    · rw [← hsystem] at hquiet
      exact hmachine.congr (by rw [hquiet.pools]; rfl)
    · simp [hout]
    · rw [hands, List.filterMap_cons_some hsome]
      exact hheld
    · rw [hsystem]
      exact (hasked.withProgram behaviour).releaseWatchers

theorem Inv.beginRun (inv : Inv x) {c : Container} {plugin : String} {port : UInt16} {l : Launch}
    (hc : c.pool < x.system.pools.length) (h : c.beginRun x.system plugin port = (.ok l, s')) :
    Inv { x with system := s', launches := l :: x.launches } := by
  obtain ⟨p, -, -, hask⟩ := Container.beginRun_eq_ok_iff.1 h
  exact inv.askRunner hc hask

/-- A start ends with the program that it carries. -/
theorem Inv.finish (inv : Inv x) {l : Launch} {rest : List Launch}
    (h : x.launches.Perm (l :: rest)) :
    Inv { x with system := (Container.finishRun x.system l).2, launches := rest } := by
  have inv := inv.perm h
  obtain ⟨hpool, hdue⟩ := inv.launched l List.mem_cons_self
  have hrest (l' : Launch) (hl' : l' ∈ rest) := inv.launched l' (List.mem_cons_of_mem _ hl')
  cases hp : l.process? with
  | none =>
    obtain ⟨e, hfin⟩ := System.finishRun_of_process?_eq_none (s := x.system) hp hdue
    have hheld := inv.held
    rw [hands, List.filterMap_cons_none hp] at hheld
    rw [hfin]
    exact ⟨inv.machine, hrest, hheld, inv.tended⟩
  | some p =>
    have hfin := System.finishStart_of_process? (s := x.system) hp
    have hsystem : (Container.finishRun x.system l).2 = (x.system.enter l.pool p).2 := by
      rw [Container.finishRun_of_ok (by rw [hfin]), hfin]
    have hrunners := (System.enter_scene x.system l.pool p).runners
    have hlength := Container.finishRun_pools x.system l
    have hheld := inv.held
    rw [hands, List.filterMap_cons_some hp] at hheld
    rw [hsystem] at hlength ⊢
    refine ⟨inv.machine.congr hrunners, fun l' hl' => ?_, hheld.enter hpool, ?_⟩
    · rw [hlength]
      exact hrest l' hl'
    · exact inv.tended.enter fun id hid =>
        inv.not_forsaken_of_carried List.mem_cons_self hp hid

/-- A start is given up: its process goes out of the hands of the call, and the watcher
    does not hear of it. -/
theorem Inv.abandon (inv : Inv x) {l : Launch} {rest : List Launch} {p : PluginProcess}
    (h : x.launches.Perm (l :: rest)) (hp : l.process? = some p) : Inv (x.abandon l rest p) := by
  have inv := inv.perm h
  have hheld := inv.held
  rw [hands, List.filterMap_cons_some hp] at hheld
  obtain ⟨id, hid, -⟩ := hheld.fresh p List.mem_cons_self
  have hquiet := System.updateSwitch_quiet x.system id (f := KillSwitch.dropSender) fun _ => rfl
  rw [Household.abandon, System.giveUp_of_process? hp hid]
  refine ⟨inv.machine.congr (by rw [hquiet.pools]), fun l' hl' => ?_, ?_, ?_⟩
  · rw [hquiet.pools]
    exact inv.launched l' (List.mem_cons_of_mem _ hl')
  · -- The process changes hands: the same ones hold the same switches.
    exact (hheld.perm List.perm_middle.symm).quiet hquiet
  · refine (inv.tended.dropSender id).mono fun k hk => ?_
    obtain ⟨q, hq, hqid⟩ | rfl := hk
    · exact ⟨q, List.mem_cons_of_mem _ hq, hqid⟩
    · exact ⟨p, List.mem_cons_self, hid⟩

/-- A step opens and closes no pool. -/
theorem Step.length_pools (hs : Step x y) : y.system.pools.length = x.system.pools.length := by
  have hkill (i : Nat) (name : String) :
      (x.system.kill i name).2.pools.length = x.system.pools.length :=
    (System.kill_kills x.system i name).pools
  cases hs with
  | begin hc h => exact (Container.beginRun_spec h).2.2.1.pools
  | beginHandle hc h =>
    exact (Container.beginRun_spec (Registry.beginRun_of_beginHandle h).2).2.2.1.pools
  | @beginRestart r signal o s' hc h =>
    cases o with
    | none =>
      rcases Registry.of_beginRestart_eq_none h with rfl | ⟨c, -, -, rfl⟩
      · rfl
      · exact hkill c.pool _
    | some l =>
      obtain ⟨c, port, -, -, hrun⟩ := Registry.of_beginRestart_eq_some h
      exact (Container.beginRun_spec hrun).2.2.1.pools.trans (hkill c.pool _)
  | finish h => exact Container.finishRun_pools x.system _
  | @abandon l rest p h hwait =>
    rw [Household.abandon]
    unfold System.giveUp
    split
    · rfl
    · rfl
  | kill i name => exact hkill i name
  | killAll i => exact (System.killAll_kills x.system i).pools
  | pass moment => rw [(System.advanceTo_quiet x.system moment).pools]
  | crash pid => rw [(System.crash_quiet x.system pid).pools]
  | aside hnow hpools => rw [hpools]

/-- Every step keeps the invariant. -/
theorem Step.preserves (hs : Step x y) (inv : Inv x) : Inv y := by
  cases hs with
  | begin hc h => exact inv.beginRun hc h
  | beginHandle hc h => exact inv.beginRun hc (Registry.beginRun_of_beginHandle h).2
  | @beginRestart r signal o s' hc h =>
    -- A restart is a killing of one name, and after it the beginning of a start.
    rcases r.beginRestart_cases x.system signal with hnone | ⟨c, port, -, hcont, -, hrest⟩
    · rw [hnone] at h
      obtain ⟨rfl, rfl⟩ := Prod.mk.inj h
      exact inv
    · have hkill := inv.kill c.pool signal.plugin
      rcases hrest with ⟨e, -, hnone⟩ | ⟨l, t, -, hrun, hsome⟩
      · rw [hnone] at h
        obtain ⟨rfl, rfl⟩ := Prod.mk.inj h
        exact hkill
      · rw [hsome] at h
        obtain ⟨rfl, rfl⟩ := Prod.mk.inj h
        refine hkill.beginRun ?_ hrun
        rw [(System.kill_kills x.system c.pool signal.plugin).pools]
        exact hc c hcont
  | finish h => exact inv.finish h
  | abandon h hwait => exact inv.abandon h hwait.1
  | kill i name => exact inv.kill i name
  | killAll i => exact inv.killAll i
  | pass moment =>
    exact inv.quiet (System.advanceTo_quiet x.system moment) (inv.tended.advanceTo moment)
  | crash pid => exact inv.quiet (System.crash_quiet x.system pid) (inv.tended.crash pid)
  | aside hnow hpools hswitches hchildren =>
    refine ⟨inv.machine.congr (by rw [hpools]), fun l hl => ?_, ?_,
      inv.tended.congr hnow hswitches hchildren⟩
    · rw [hpools]
      exact inv.launched l hl
    · refine inv.held.same (fun i => ?_) (by rw [hswitches]) fun id => ?_
      · rw [System.table, System.pool, hpools]
        rfl
      · rw [System.isSpent, System.switch?, hswitches]
        rfl

theorem Reachable.inv (h : Reachable x) : Inv x := by
  induction h with
  | init hmachine hswitches hchildren hempty => exact .init hmachine hswitches hchildren hempty
  | step _ hs ih => exact hs.preserves ih

end Household

end PluginHost
