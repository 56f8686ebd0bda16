/-
  PluginHost.Proofs.System.Scene

  What processes act upon: the files, the programs that there are, the network, and the
  pools, each with its label and its runner.  Nothing that is done with processes changes
  any of it (`SameScene`), so that what a runner starts is the same whenever it is asked
  (`askRunner_of_scene`).
-/
import PluginHost.Proofs.System.Children

namespace PluginHost
namespace System

variable {s s' s'' : System} {i : Nat}

/-- The label and the runner of a pool. -/
def seat (p : Pool) : String × Runner :=
  (p.label, p.runner)

/-- Files, programs, network, peers and runners are the same. -/
structure SameScene (s s' : System) : Prop where
  storage : s'.storage = s.storage
  programs : s'.programs = s.programs
  network : s'.network = s.network
  peers : s'.peers = s.peers
  seats : s'.pools.map seat = s.pools.map seat

theorem SameScene.refl (s : System) : SameScene s s :=
  ⟨rfl, rfl, rfl, rfl, rfl⟩

theorem SameScene.trans (h : SameScene s s') (h' : SameScene s' s'') : SameScene s s'' where
  storage := h'.storage.trans h.storage
  programs := h'.programs.trans h.programs
  network := h'.network.trans h.network
  peers := h'.peers.trans h.peers
  seats := h'.seats.trans h.seats

theorem SameScene.seat_eq (h : SameScene s s') (i : Nat) : seat (s'.pool i) = seat (s.pool i) := by
  have hget (s : System) :
      seat (s.pool i) = (s.pools.map seat).getD i (seat { label := "" }) := by
    rw [pool, List.getD_eq_getElem?_getD, List.getD_eq_getElem?_getD, List.getElem?_map,
      Option.getD_map]
  rw [hget, hget, h.seats]

/-- The runners stay where they are. -/
theorem SameScene.runners (h : SameScene s s') :
    s'.pools.map (·.runner) = s.pools.map (·.runner) := by
  have hrunner (s : System) : s.pools.map (·.runner) = (s.pools.map seat).map Prod.snd := by
    rw [List.map_map]
    rfl
  rw [hrunner, hrunner, h.seats]

/-! ## Operations -/

/-- Switches, children, the time and the journal are no part of the scene. -/
theorem releaseWatchers_scene (s : System) : SameScene s s.releaseWatchers := by
  obtain ⟨switches, heq⟩ := exists_releaseWatchers_eq s
  rw [heq]
  exact ⟨rfl, rfl, rfl, rfl, rfl⟩

theorem advanceTo_scene (s : System) (moment : Nat) : SameScene s (s.advanceTo moment) := by
  have hpass : SameScene s { s with
      now := max s.now moment
      children := s.children.map (Child.elapse (max s.now moment)) } :=
    ⟨rfl, rfl, rfl, rfl, rfl⟩
  exact hpass.trans (releaseWatchers_scene _)

theorem crash_scene (s : System) (pid : Nat) : SameScene s (s.crash pid) := by
  have hchild : SameScene s (s.updateChild pid (Child.crash s.now)) := ⟨rfl, rfl, rfl, rfl, rfl⟩
  exact hchild.trans (releaseWatchers_scene _)

theorem trigger_scene (s : System) (id : Nat) : SameScene s (s.trigger id).2 := by
  unfold trigger
  split
  · exact .refl s
  · dsimp only
    split
    · exact ⟨rfl, rfl, rfl, rfl, rfl⟩
    · refine SameScene.trans ?_ (releaseWatchers_scene _)
      exact ⟨rfl, rfl, rfl, rfl, rfl⟩

theorem triggerProcess_scene (s : System) (p : PluginProcess) :
    SameScene s (s.triggerProcess p).2 := by
  unfold triggerProcess
  split
  · exact trigger_scene s _
  · exact .refl s

/-- A pool may have other processes, and may have been asked more often. -/
theorem updatePool_scene (s : System) (i : Nat) {f : Pool → Pool}
    (hf : ∀ pool, seat (f pool) = seat pool) : SameScene s (s.updatePool i f) := by
  refine ⟨rfl, rfl, rfl, rfl, List.ext_getElem? fun j => ?_⟩
  rw [updatePool, List.getElem?_map, List.getElem?_map, List.getElem?_modify]
  cases s.pools[j]? with
  | none => rfl
  | some pool => by_cases hj : i = j <;> simp [hj, hf]

theorem enter_scene (s : System) (i : Nat) (p : PluginProcess) : SameScene s (s.enter i p).2 := by
  cases hr : s.isReady i p.name with
  | true =>
    rw [enter_of_ready hr]
    exact triggerProcess_scene s p
  | false =>
    rw [enter_of_not_ready hr]
    exact updatePool_scene s i fun _ => rfl

theorem kill_scene (s : System) (i : Nat) (name : String) : SameScene s (s.kill i name).2 := by
  cases hp : (s.table i).get? name with
  | none =>
    rw [kill_of_get?_eq_none hp]
    exact .refl s
  | some p =>
    rw [kill_of_get?_eq_some hp]
    exact (triggerProcess_scene s p).trans (updatePool_scene _ i fun _ => rfl)

theorem killAll_scene (s : System) (i : Nat) : SameScene s (s.killAll i).2 := by
  have heach (names : List String) (s : System) : SameScene s (s.killEach i names).2 := by
    induction names generalizing s with
    | nil => exact .refl s
    | cons name names ih =>
      rw [killEach_cons]
      exact (kill_scene s i name).trans (ih _)
  have hempty : SameScene (s.killEach i (s.table i).names).2 (s.killAll i).2 :=
    updatePool_scene _ i fun _ => rfl
  exact (heach _ s).trans hempty

theorem makeProcess_scene (s : System) (name : String) (pid : Nat) (kind : SwitchKind) :
    SameScene s (s.makeProcess name pid kind).2 := by
  unfold makeProcess
  cases kind.make? with
  | none => exact .refl s
  | some k => exact ⟨rfl, rfl, rfl, rfl, rfl⟩

theorem finishStart_scene (s : System) (l : Launch) : SameScene s (s.finishStart l).2 := by
  unfold finishStart
  split
  · exact .refl s
  · exact .refl s
  · exact makeProcess_scene s l.name _ _

theorem finishRun_scene (s : System) (l : Launch) : SameScene s (Container.finishRun s l).2 := by
  have hstart := finishStart_scene s l
  cases hp : (s.finishStart l).1 with
  | error e =>
    rw [Container.finishRun_of_error hp]
    exact hstart
  | ok p =>
    rw [Container.finishRun_of_ok hp]
    exact hstart.trans (enter_scene _ l.pool p)

theorem asked_scene (s : System) (i : Nat) (r : SpawnRequest) : SameScene s (s.asked i r) := by
  have hrecord : SameScene s (s.record (.requested (s.pool i).label r)) :=
    ⟨rfl, rfl, rfl, rfl, rfl⟩
  exact hrecord.trans (updatePool_scene _ i fun _ => rfl)

theorem startProgram_scene (s : System) (flag : String) (r : SpawnRequest) :
    SameScene s (s.startProgram flag r).2 := by
  cases hb : s.programs s.storage r.command (r.commandLine flag) with
  | error fault =>
    rw [startProgram_of_error hb]
    exact .refl s
  | ok behaviour =>
    rw [startProgram_of_ok hb]
    refine SameScene.trans ?_ (releaseWatchers_scene _)
    exact ⟨rfl, rfl, rfl, rfl, rfl⟩

/-- What stands in a table after a start has ended stood there before, or is under the name
    of the launch in its pool. -/
theorem entry_of_finishRun {l : Launch} {j : Nat} {n : String} {q : PluginProcess}
    (hcarried : ∀ p, l.process? = some p → p.name = l.name)
    (h : ((Container.finishRun s l).2.table j).get? n = some q) :
    (s.table j).get? n = some q ∨ (l.pool = j ∧ n = l.name) := by
  have hgrow := finishStart_grows s l
  cases hp : (s.finishStart l).1 with
  | error e =>
    rw [Container.finishRun_of_error hp, hgrow.tables] at h
    exact .inl h
  | ok p =>
    rw [Container.finishRun_of_ok hp] at h
    rcases entry_of_enter h with hold | ⟨hpool, hname, -⟩
    · rw [hgrow.tables] at hold
      exact .inl hold
    · exact .inr ⟨hpool, hname.trans (name_of_finishStart hcarried hp)⟩

/-! ## Asking a runner -/

/-- How a machine answers is a matter of the program that it is asked for, and of the
    arguments; everything else stays as it is. -/
theorem askRunner_of_scene {flag : String} (h : (s.pool i).runner = .machine flag)
    (r : SpawnRequest) :
    SameScene s (s.askRunner i r).2 ∧
      (∀ fault, s.programs s.storage r.command (r.commandLine flag) = .error fault →
        (s.askRunner i r).1.outcome = .error (.cannotStart r.name fault)) ∧
      ∀ behaviour, s.programs s.storage r.command (r.commandLine flag) = .ok behaviour →
        ∃ b, (s.askRunner i r).1.outcome = .ok b := by
  obtain ⟨hsystem, -, -, houtcome⟩ := askRunner_of_machine (r := r) h
  have hasked := asked_scene s i r
  have hprograms : (s.asked i r).programs (s.asked i r).storage = s.programs s.storage := by
    rw [hasked.programs, hasked.storage]
  rw [hsystem, houtcome]
  refine ⟨hasked.trans (startProgram_scene _ flag r), ?_, ?_⟩
  · intro fault hfault
    rw [← hprograms] at hfault
    rw [startProgram_of_error hfault]
    rfl
  · intro behaviour hok
    rw [← hprograms] at hok
    rw [startProgram_of_ok hok]
    exact ⟨_, rfl⟩

end System
end PluginHost
