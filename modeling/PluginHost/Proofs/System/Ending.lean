/-
  PluginHost.Proofs.System.Ending

  The end of a process is final.  Whatever is done with a system, no child that
  has ended runs again (`Fades`); a child that runs and did not run before is one
  that a runner has just started.
-/
import PluginHost.Proofs.Calls

namespace PluginHost

/-! ## One child -/

namespace Child

/-- A change of a child that leaves it its number and does not bring it back. -/
structure Ages (f : Child → Child) : Prop where
  pid : ∀ c, (f c).pid = c.pid
  running : ∀ c, (f c).isRunning = true → c.isRunning = true

theorem elapse_ages (now : Nat) : Ages (elapse now) where
  pid c := by
    unfold elapse
    split
    · rfl
    · split
      · split <;> rfl
      all_goals rfl
  running c h := by
    unfold elapse at h
    split at h
    · exact h
    · rename_i hrun
      simpa using hrun

theorem ask_ages (now : Nat) : Ages (ask now) where
  pid c := (elapse_ages now).pid { c with signals := c.signals ++ [(now, .terminate)] }
  running c h := (elapse_ages now).running { c with signals := c.signals ++ [(now, .terminate)] } h

end Child

namespace System

variable {s s' s'' : System} {i pid : Nat}

/-! ## Fading -/

/-- No child runs that did not run before. -/
def Fades (s s' : System) : Prop :=
  ∀ pid, s'.hasRunningChild pid = true → s.hasRunningChild pid = true

theorem Fades.refl (s : System) : Fades s s :=
  fun _ h => h

theorem Fades.trans (h : Fades s s') (h' : Fades s' s'') : Fades s s'' :=
  fun pid hrun => h pid (h' pid hrun)

theorem fades_of_children (h : s'.children = s.children) : Fades s s' := by
  intro pid hrun
  rwa [hasRunningChild, h] at hrun

theorem hasRunningChild_iff :
    s.hasRunningChild pid = true ↔ ∃ c ∈ s.children, c.pid = pid ∧ c.isRunning = true := by
  simp [hasRunningChild]

/-- Children that only age do not come back. -/
theorem fades_of_ages {f : Child → Child} (hf : Child.Ages f)
    (h : s'.children = s.children.map f) : Fades s s' := by
  intro pid hrun
  rw [hasRunningChild_iff, h] at hrun
  obtain ⟨c, hc, hpid, hr⟩ := hrun
  obtain ⟨c, hmem, rfl⟩ := List.mem_map.1 hc
  exact hasRunningChild_iff.2 ⟨c, hmem, (hf.pid c).symm.trans hpid, hf.running c hr⟩

theorem children_releaseWatchers (s : System) : s.releaseWatchers.children = s.children := by
  obtain ⟨switches, h⟩ := exists_releaseWatchers_eq s
  rw [h]

theorem updateChild_fades (s : System) (pid : Nat) {f : Child → Child} (hf : Child.Ages f) :
    Fades s (s.updateChild pid f) := by
  refine fades_of_ages (f := fun c => if c.pid = pid then f c else c) ⟨fun c => ?_, fun c h => ?_⟩ rfl
  · split
    · exact hf.pid c
    · rfl
  · split at h
    · exact hf.running c h
    · exact h

/-! ## Telling and killing -/

theorem trigger_fades (s : System) (id : Nat) : Fades s (s.trigger id).2 := by
  unfold trigger
  split
  · exact Fades.refl s
  · rename_i k hk
    simp only
    split
    · exact fades_of_children rfl
    · -- The child that is asked may end at once.
      rename_i pid hsignalled
      have hswitch : Fades s (s.updateSwitch id fun _ => (k.trigger s.deliver).switch) :=
        fades_of_children rfl
      have hask := updateChild_fades (s.updateSwitch id fun _ => (k.trigger s.deliver).switch) pid
        (Child.ask_ages s.now)
      exact (hswitch.trans hask).trans (fades_of_children (children_releaseWatchers _))

theorem triggerProcess_fades (s : System) (p : PluginProcess) : Fades s (s.triggerProcess p).2 := by
  unfold triggerProcess
  split
  · exact trigger_fades s _
  · exact Fades.refl s

theorem kill_fades (s : System) (i : Nat) (name : String) : Fades s (s.kill i name).2 := by
  cases h : (s.table i).get? name with
  | none =>
    rw [kill_of_get?_eq_none h]
    exact Fades.refl s
  | some p =>
    rw [kill_of_get?_eq_some h]
    exact (triggerProcess_fades s p).trans (fades_of_children rfl)

theorem killEach_fades (s : System) (i : Nat) (names : List String) :
    Fades s (s.killEach i names).2 := by
  induction names generalizing s with
  | nil => exact Fades.refl s
  | cons name names ih =>
    rw [killEach_cons]
    exact (kill_fades s i name).trans (ih _)

theorem killAll_fades (s : System) (i : Nat) : Fades s (s.killAll i).2 :=
  (killEach_fades s i _).trans (fades_of_children rfl)

theorem enter_fades (s : System) (i : Nat) (p : PluginProcess) : Fades s (s.enter i p).2 := by
  cases h : s.isReady i p.name with
  | true =>
    rw [enter_of_ready h]
    exact triggerProcess_fades s p
  | false =>
    rw [enter_of_not_ready h]
    exact fades_of_children rfl

/-! ## Starting -/

theorem makeProcess_fades (s : System) (name : String) (pid : Nat) (kind : SwitchKind) :
    Fades s (s.makeProcess name pid kind).2 := by
  unfold makeProcess
  split
  · exact Fades.refl s
  · exact fades_of_children rfl

theorem finishStart_fades (s : System) (l : Launch) : Fades s (s.finishStart l).2 := by
  unfold finishStart
  split
  · exact Fades.refl s
  · exact Fades.refl s
  · exact makeProcess_fades s l.name _ _

/-- The child of a program that was started bears the number of its process, and is
    the only one that is new. -/
theorem startProgram_children (s : System) (flag : String) (r : SpawnRequest)
    (h : (s.startProgram flag r).2.hasRunningChild pid = true) :
    s.hasRunningChild pid = true ∨ ∃ p, (s.startProgram flag r).1 = .ok p ∧ p.pid = pid := by
  unfold startProgram at h ⊢
  split at h
  · exact Or.inl h
  · simp only [hasRunningChild_iff, children_releaseWatchers, List.mem_append,
      List.mem_singleton] at h
    obtain ⟨c, hmem | rfl, hpid, hrun⟩ := h
    · exact Or.inl (hasRunningChild_iff.2 ⟨c, hmem, hpid, hrun⟩)
    · refine Or.inr ⟨_, rfl, ?_⟩
      rw [← hpid, (Child.elapse_ages _).pid]

/-- What runs after a runner was asked ran before, or is what it has started. -/
theorem askRunner_children (s : System) (i : Nat) (r : SpawnRequest)
    (h : (s.askRunner i r).2.hasRunningChild pid = true) :
    s.hasRunningChild pid = true ∨ ∃ p, (s.askRunner i r).1.process? = some p ∧ p.pid = pid := by
  cases hr : (s.pool i).runner with
  | prepared answers =>
    rw [(askRunner_of_prepared (r := r) hr).1] at h
    exact Or.inl h
  | machine flag =>
    obtain ⟨hsys, -, -, hout⟩ := askRunner_of_machine (r := r) hr
    rw [hsys] at h
    rcases startProgram_children (s.asked i r) flag r h with hold | ⟨p, hp, hpid⟩
    · exact Or.inl hold
    · refine Or.inr ⟨p, ?_, hpid⟩
      rw [Launch.process?, hout, hp]
      rfl

end System

/-- What runs after a start was begun ran before, or is what the start carries. -/
theorem Container.beginRun_children {c : Container} {s s' : System} {plugin : String}
    {port : UInt16} {l : Launch} {pid : Nat} (h : c.beginRun s plugin port = (.ok l, s'))
    (hrun : s'.hasRunningChild pid = true) :
    s.hasRunningChild pid = true ∨ ∃ p, l.process? = some p ∧ p.pid = pid := by
  obtain ⟨m, -, -, hask⟩ := beginRun_eq_ok_iff.1 h
  have hchildren := @System.askRunner_children pid s c.pool (request plugin m port)
  rw [hask] at hchildren
  exact hchildren hrun

end PluginHost
