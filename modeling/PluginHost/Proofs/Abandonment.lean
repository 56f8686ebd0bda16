/-
  PluginHost.Proofs.Abandonment

  Starts that are given up while they wait out the grace of their programs.  The only
  switch of the program goes with the call, and its watcher takes the end of the switch
  for nothing: it waits on for the end of the program.  So the program runs on, and no
  table, no call and no switch leads to it any more.

  `IsLeaked` describes such a program.  The invariant of the household decides where one
  comes from: from a start that was given up before its program had ended, and from
  nothing else (`leaks_iff_of_abandon`).
-/
import PluginHost.Proofs.Household

namespace PluginHost
namespace Household

/-- A program runs, and there is nobody left who answers for it. -/
structure IsLeaked (x : Household) (c : Child) : Prop where
  runs : c.isRunning = true
  -- It stands in no table, under whatever name.
  unregistered : ∀ p, x.system.IsEntry p → p.pid ≠ c.pid
  -- It was not told to stop.
  untold : x.system.isSpent c.switch = false
  unasked : c.askedAt = none
  -- No call still waits for it.
  unclaimed : ∀ l ∈ x.launches, ∀ p, l.process? = some p → p.pid ≠ c.pid

/-- The program of a process is leaked. -/
def Leaks (x : Household) (p : PluginProcess) : Prop :=
  ∃ c ∈ x.system.children, c.pid = p.pid ∧ x.IsLeaked c

variable {x y : Household} {c : Child} {l : Launch} {rest : List Launch} {p : PluginProcess}

/-- A child of a process has the switch of the process. -/
theorem Inv.switch_of_pid (inv : Inv x) (hc : c ∈ x.system.children) (hp : x.system.IsFresh p)
    (h : p.pid = c.pid) : p.switch = some c.switch := by
  obtain ⟨k, hk⟩ := List.mem_iff_getElem?.1 hc
  obtain ⟨sw, -, hpair⟩ := inv.tended.exists_pair hk
  obtain ⟨id, hid, hpid, -⟩ := hp
  rw [hpid, hpair.pid, Nat.add_left_cancel_iff] at h
  rw [hid, hpair.switch, h]

theorem mem_hands_of_forsaken (hp : p ∈ x.forsaken) : p ∈ x.hands :=
  List.mem_append_right _ hp

theorem mem_hands_of_carried (hl : l ∈ x.launches) (hp : l.process? = some p) : p ∈ x.hands :=
  List.mem_append_left _ (List.mem_filterMap.2 ⟨l, hl, hp⟩)

/-- What is leaked is what was given up and still runs. -/
theorem Inv.isLeaked_iff (inv : Inv x) (hc : c ∈ x.system.children) :
    x.IsLeaked c ↔ c.isRunning = true ∧ ∃ p ∈ x.forsaken, p.pid = c.pid := by
  obtain ⟨k, hk⟩ := List.mem_iff_getElem?.1 hc
  obtain ⟨sw, hsw, hpair⟩ := inv.tended.exists_pair hk
  constructor
  · intro h
    refine ⟨h.runs, ?_⟩
    have hlt : c.switch < x.system.switches.length := by
      rw [hpair.switch]
      exact System.lt_of_switch? hsw
    -- Its switch must be somewhere, and only those who were given up are left.
    have hpid {p : PluginProcess} (hfresh : x.system.IsFresh p) (hp : p.switch = some c.switch) :
        p.pid = c.pid := by
      obtain ⟨id, hid, hpid, -⟩ := hfresh
      rw [hp, Option.some.injEq, hpair.switch] at hid
      rw [hpid, hpair.pid, hid]
    obtain ⟨p, hp, hswitch⟩ | ⟨p, hentry, hswitch⟩ := inv.held.placed c.switch hlt h.untold
    · have hthis := hpid (inv.held.fresh p hp) hswitch
      obtain hp | hp := List.mem_append.1 hp
      · obtain ⟨l, hl, hlp⟩ := List.mem_filterMap.1 hp
        exact absurd hthis (h.unclaimed l hl p hlp)
      · exact ⟨p, hp, hthis⟩
    · obtain ⟨i, n, hp⟩ := id hentry
      exact absurd (hpid (inv.held.entered hp) hswitch) (h.unregistered p hentry)
  · -- A switch is in one place only, and this one is in the hands of nobody.
    rintro ⟨hrun, p, hp, hthis⟩
    have hfresh := inv.held.fresh p (mem_hands_of_forsaken hp)
    have hswitch := inv.switch_of_pid hc hfresh hthis
    have huntold : x.system.isSpent c.switch = false := by
      obtain ⟨id, hid, -, -, hunused⟩ := hfresh
      rw [hswitch, Option.some.injEq] at hid
      exact hid ▸ hunused
    refine ⟨hrun, ?_, huntold, ?_, ?_⟩
    · rintro q ⟨i, n, hq⟩ hpid
      refine inv.held.apart hq p (mem_hands_of_forsaken hp) ?_
      rw [hswitch, inv.switch_of_pid hc (inv.held.entered hq) hpid]
    · rw [hpair.switch, System.isSpent_of_switch? hsw] at huntold
      exact (hpair.unused huntold).1
    · intro l hl q hq hpid
      have hcarried := inv.held.fresh q (mem_hands_of_carried hl hq)
      exact inv.not_forsaken_of_carried hl hq (inv.switch_of_pid hc hcarried hpid) ⟨p, hp, hswitch⟩

/-! ## Whatever happens afterwards -/

theorem Step.forsaken_subset (h : Step x y) : x.forsaken ⊆ y.forsaken := by
  cases h with
  | abandon => exact List.subset_cons_self _ _
  | _ => exact List.Subset.refl _

/-- Who was given up stays so. -/
theorem Steps.forsaken_subset (h : Steps x y) : x.forsaken ⊆ y.forsaken := by
  induction h with
  | refl => exact List.Subset.refl _
  | tail _ hstep ih => exact List.Subset.trans ih hstep.forsaken_subset

/-- A start that is given up while its program runs leaves the program to itself: it is
    leaked, and stays so as long as it runs, whatever else happens.  Nothing else is
    ever leaked. -/
theorem leaks_iff_of_abandon (hx : Reachable x) (hl : x.launches.Perm (l :: rest))
    (hwait : x.system.IsWaiting l p) (hs : Steps (x.abandon l rest p) y) :
    ((x.abandon l rest p).Leaks p ↔ x.system.hasRunningChild p.pid = true) ∧
    (y.Leaks p ↔ y.system.hasRunningChild p.pid = true) ∧
    ((∀ c ∈ y.system.children, ¬ y.IsLeaked c) ↔
      ∀ q ∈ y.forsaken, y.system.hasRunningChild q.pid = false) := by
  have hgiven : Reachable (x.abandon l rest p) := hx.step (.abandon hl hwait)
  have hleaks {z : Household} (inv : Inv z) (hp : p ∈ z.forsaken) :
      z.Leaks p ↔ z.system.hasRunningChild p.pid = true := by
    rw [System.hasRunningChild_iff]
    refine exists_congr fun c => and_congr_right fun hc => and_congr_right fun hpid => ?_
    rw [inv.isLeaked_iff hc]
    exact ⟨And.left, fun hrun => ⟨hrun, p, hp, hpid.symm⟩⟩
  have inv := (hgiven.steps hs).inv
  refine ⟨?_, hleaks inv (hs.forsaken_subset List.mem_cons_self), fun hnone q hq => ?_,
    fun hended c hc hleaked => ?_⟩
  · -- To give up a start does nothing to its program.
    have hchildren : (x.abandon l rest p).system.children = x.system.children := by
      obtain ⟨id, hid, -⟩ := hx.inv.held.fresh p
        (mem_hands_of_carried (hl.mem_iff.2 List.mem_cons_self) hwait.1)
      rw [abandon, System.giveUp_of_process? hwait.1 hid]
      rfl
    rw [hleaks hgiven.inv List.mem_cons_self, System.hasRunningChild_iff, hchildren,
      ← System.hasRunningChild_iff]
  · rw [Bool.eq_false_iff, ne_eq, System.hasRunningChild_iff]
    rintro ⟨c, hc, hpid, hrun⟩
    exact hnone c hc ((inv.isLeaked_iff hc).2 ⟨hrun, q, hq, hpid.symm⟩)
  · obtain ⟨hrun, q, hq, hpid⟩ := (inv.isLeaked_iff hc).1 hleaked
    have hruns := System.hasRunningChild_iff.2 ⟨c, hc, hpid.symm, hrun⟩
    exact Bool.eq_false_iff.1 (hended q hq) hruns

/-! ## A caller that does not wait -/

/-- A host with one plugin, whose program is given five seconds. -/
def sleeperContainer : Container where
  installer := ⟨"host", none, .md5⟩
  pool := 0
  installed := true
  plugins := .ofList [("sleeper", ⟨"sleep", ["30"], "sleeper", 5, "", "http"⟩)]

/-- A machine whose programs run half a minute, and end when they are told to. -/
def sleepyMachine : System where
  programs _ _ _ := .ok { lifetime := some 30000, reaction := some 0 }
  pools := [{ label := "host", runner := .machine defaultPortFlag }]

/-- The process of a program. -/
def sleeper (id : Nat) : PluginProcess where
  name := "sleeper"
  pid := System.firstChildPid + id
  switch := some id

/-- What a start waits for. -/
def sleeperLaunch (id : Nat) (due : Nat) : Launch :=
  ⟨0, "sleeper", due, .ok (.running (sleeper id))⟩

/-- A start that has waited for one second. -/
def patientCaller : Household where
  system := ((sleeperContainer.beginRun sleepyMachine "sleeper" 8080).2).advanceTo 1000
  launches := [sleeperLaunch 0 5000]

/-- The caller waits no longer. -/
def impatientCaller : Household :=
  patientCaller.abandon (sleeperLaunch 0 5000) [] (sleeper 0)

/-- Somebody else starts the plugin meanwhile, and kills it. -/
def tidiedUp : Household where
  system :=
    let s := (sleeperContainer.beginRun impatientCaller.system "sleeper" 8080).2
    ((Container.finishRun (s.advanceTo 6000) (sleeperLaunch 1 6000)).2.killAll 0).2
  forsaken := [sleeper 0]

theorem patientCaller_reachable : Reachable patientCaller := by
  have h₀ : Reachable { system := sleepyMachine } := by
    refine .init (fun runner hrunner => ⟨defaultPortFlag, ?_⟩) rfl rfl fun i => ?_
    · exact List.mem_singleton.1 hrunner
    · cases i <;> rfl
  have hbegin : sleeperContainer.beginRun sleepyMachine "sleeper" 8080
      = (.ok (sleeperLaunch 0 5000), (sleeperContainer.beginRun sleepyMachine "sleeper" 8080).2) :=
    rfl
  exact (h₀.step (.begin (by decide) hbegin)).step (.pass 1000)

theorem patientCaller_isWaiting :
    patientCaller.system.IsWaiting (sleeperLaunch 0 5000) (sleeper 0) :=
  ⟨rfl, _, List.mem_cons_self, rfl, by decide⟩

/-- Of two programs of the plugin, everybody knows the second only. -/
theorem impatient_caller_leaks :
    impatientCaller.Leaks (sleeper 0) ∧ tidiedUp.Leaks (sleeper 0) ∧
      tidiedUp.system.hasRunningChild (sleeper 1).pid = false := by
  have hbegin : sleeperContainer.beginRun impatientCaller.system "sleeper" 8080
      = (.ok (sleeperLaunch 1 6000),
        (sleeperContainer.beginRun impatientCaller.system "sleeper" 8080).2) := rfl
  have hstart : Step impatientCaller { impatientCaller with
      system := (sleeperContainer.beginRun impatientCaller.system "sleeper" 8080).2
      launches := [sleeperLaunch 1 6000] } := .begin (by decide) hbegin
  have hsteps : Steps impatientCaller tidiedUp :=
    (((Relation.ReflTransGen.single hstart).tail (.pass 6000)).tail
      (.finish (List.Perm.refl [sleeperLaunch 1 6000]))).tail (.killAll 0)
  obtain ⟨hgiven, hlater, -⟩ := leaks_iff_of_abandon patientCaller_reachable (List.Perm.refl _)
    patientCaller_isWaiting hsteps
  exact ⟨hgiven.2 (by decide), hlater.2 (by decide), by decide⟩

/-- A start may be given up while its program runs, and then the program is leaked. -/
theorem giving_up_may_leak : ¬ ∀ (x : Household) (l : Launch) (rest : List Launch)
    (p : PluginProcess), Reachable x → x.launches.Perm (l :: rest) → x.system.IsWaiting l p →
      ∀ c ∈ (x.abandon l rest p).system.children, c.pid = p.pid →
        c.isRunning = false ∨ (∃ q, (x.abandon l rest p).system.IsEntry q ∧ q.pid = c.pid) ∨
          (x.abandon l rest p).system.isSpent c.switch = true ∨ c.askedAt.isSome = true := by
  intro h
  have hplaces := h patientCaller (sleeperLaunch 0 5000) [] (sleeper 0) patientCaller_reachable
    (List.Perm.refl _) patientCaller_isWaiting _ List.mem_cons_self rfl
  obtain hended | ⟨q, ⟨i, n, hq⟩, -⟩ | htold | hasked := hplaces
  · revert hended
    decide
  · have hempty : impatientCaller.system.table i = .empty := by
      cases i <;> rfl
    have hq : (impatientCaller.system.table i).get? n = some q := hq
    rw [hempty, NameMap.get?_empty] at hq
    cases hq
  · revert htold
    decide
  · revert hasked
    decide

end Household
end PluginHost
