/-
  PluginHost.Proofs.Sections

  The calls on a pool as threads see them.  Every look into the table, every
  change of it and every use of a switch is a section of its own, and between
  two sections of one call anything may happen.  `Stage` is the place at which a
  call has arrived, and `Stage.next` its next section.

  A call that nobody comes between does what the operation of its name does:
  `alone_kill`, `alone_killAll`, `alone_start`.
-/
import PluginHost.Proofs.Calls

namespace PluginHost

/-- What a call on a pool does next. -/
inductive Stage where
  /-- A killing looks up its process.  One that is part of a killing of all goes
      on with the names that are left. -/
  | look (name : String) (left : Option (List String))
  /-- It has found a process, and triggers its switch. -/
  | tell (name : String) (p : PluginProcess) (left : Option (List String))
  /-- It takes out what stands under the name. -/
  | forget (name : String) (p : PluginProcess) (left : Option (List String))
  /-- A killing of all asks for the names. -/
  | list
  /-- It empties the table. -/
  | clear
  /-- A start looks whether its name is free. -/
  | check (r : SpawnRequest)
  /-- It asks the runner. -/
  | ask (r : SpawnRequest)
  /-- It waits for the answer. -/
  | await (l : Launch)
  /-- It registers its process. -/
  | enter (p : PluginProcess)
  /-- Its name was taken, and it triggers the switch of its process. -/
  | dismiss (p : PluginProcess)

namespace Stage

/-- What comes after the killing of one process. -/
def following : Option (List String) → Option Stage
  | none => none
  | some [] => some .clear
  | some (name :: names) => some (.look name (some names))

/-- A section of a call on pool `i`: where the call is afterwards, if it has not
    returned, and what has become of the system. -/
def next (i : Nat) (s : System) : Stage → Option Stage × System
  | .look name left =>
    match s.process i name with
    | .error _ => (following left, s)
    | .ok p => (some (.tell name p left), s)
  | .tell name p left => (some (.forget name p left), (s.triggerProcess p).2)
  | .forget name _ left => (following left, s.remove i name)
  | .list => (following (some (s.table i).names), s)
  | .clear => (none, s.removeAll i)
  | .check r => (if s.isReady i r.name then none else some (.ask r), s)
  | .ask r =>
    let (l, s) := s.askRunner i r
    (some (.await l), s)
  | .await l =>
    match s.finishStart l with
    | (.error _, s) => (none, s)
    | (.ok p, s) => (some (.enter p), s)
  | .enter p =>
    match s.register i p with
    | (.ok (), s) => (none, s)
    | (.error _, s) => (some (.dismiss p), s)
  | .dismiss p => (none, (s.triggerProcess p).2)

/-- How the calls begin: a killing, a killing of all, and a start. -/
def IsFirst : Stage → Prop
  | .look _ left => left = none
  | .list => True
  | .check _ => True
  | _ => False

/-! ## Sections -/

variable {i : Nat} {s s' : System} {name : String} {p : PluginProcess}
  {left : Option (List String)}

theorem next_look_of_none (h : (s.table i).get? name = none) :
    (look name left).next i s = (following left, s) := by
  rw [next, System.process_eq_error_iff.2 ⟨h, rfl⟩]

theorem next_look_of_some (h : (s.table i).get? name = some p) :
    (look name left).next i s = (some (.tell name p left), s) := by
  rw [next, System.process_eq_ok_iff.2 h]

/-- Looking changes nothing. -/
theorem next_look_system (i : Nat) (s : System) (name : String) (left : Option (List String)) :
    ((look name left).next i s).2 = s := by
  cases h : (s.table i).get? name with
  | none => rw [next_look_of_none h]
  | some p => rw [next_look_of_some h]

/-- The end of a wait is the end of the launch, whatever comes of it. -/
theorem next_await_system (i : Nat) (s : System) (l : Launch) :
    ((await l).next i s).2 = (s.finishStart l).2 := by
  rw [next]
  rcases s.finishStart l with ⟨_ | p, t⟩ <;> rfl

theorem next_await_of_ok {l : Launch} (h : (s.finishStart l).1 = .ok p) :
    ((await l).next i s).1 = some (.enter p) := by
  rw [next]
  rcases hfin : s.finishStart l with ⟨result, t⟩
  rw [hfin] at h
  cases h
  rfl

theorem next_await_of_error {l : Launch} {e : Error} (h : (s.finishStart l).1 = .error e) :
    ((await l).next i s).1 = none := by
  rw [next]
  rcases hfin : s.finishStart l with ⟨result, t⟩
  rw [hfin] at h
  cases h
  rfl

theorem next_enter_of_ready (h : s.isReady i p.name = true) :
    (enter p).next i s = (some (.dismiss p), s) := by
  rw [next, System.register_of_ready h]

theorem next_enter_of_not_ready (h : s.isReady i p.name = false) :
    (enter p).next i s = (none, s.updatePool i fun pool =>
      { pool with table := (s.table i).insert p.name p }) := by
  rw [next, System.register_of_not_ready h]

/-! ## Calls by themselves -/

/-- A call takes its sections one after another, and nobody comes between. -/
inductive Alone (i : Nat) : System → Stage → System → Prop
  | last {s : System} {t : Stage} (h : (t.next i s).1 = none) : Alone i s t (t.next i s).2
  | more {s s' : System} {t u : Stage} (h : (t.next i s).1 = some u)
      (h' : Alone i (t.next i s).2 u s') : Alone i s t s'

/-- One killing, with what follows it. -/
theorem alone_look {t : Stage} (hleft : following left = some t)
    (h : Alone i (s.kill i name).2 t s') : Alone i s (.look name left) s' := by
  cases hp : (s.table i).get? name with
  | none =>
    rw [System.kill_of_get?_eq_none hp] at h
    have hlook : (look name left).next i s = (following left, s) := next_look_of_none hp
    refine .more (by rw [hlook, hleft]) ?_
    rw [hlook]
    exact h
  | some p =>
    rw [System.kill_of_get?_eq_some hp] at h
    have hlook : (look name left).next i s = (some (.tell name p left), s) :=
      next_look_of_some hp
    refine .more (by rw [hlook]) ?_
    rw [hlook]
    refine .more rfl ?_
    exact .more hleft h

/-- A killing that is not interrupted. -/
theorem alone_kill (i : Nat) (s : System) (name : String) :
    Alone i s (.look name none) (s.kill i name).2 := by
  cases hp : (s.table i).get? name with
  | none =>
    have hlook : (look name none).next i s = (none, s) := next_look_of_none hp
    have hlast : Alone i s (.look name none) ((look name none).next i s).2 :=
      .last (by rw [hlook])
    rw [hlook] at hlast
    rw [System.kill_of_get?_eq_none hp]
    exact hlast
  | some p =>
    have hlook : (look name none).next i s = (some (.tell name p none), s) :=
      next_look_of_some hp
    refine .more (by rw [hlook]) ?_
    rw [hlook, System.kill_of_get?_eq_some hp]
    -- The switch, and then the entry.
    refine .more rfl ?_
    exact .last rfl

/-- Killing names one after another, and emptying the table at the end. -/
theorem alone_killEach (names : List String) (i : Nat) (s : System) :
    ∃ t, following (some names) = some t ∧ Alone i s t ((s.killEach i names).2.removeAll i) := by
  induction names generalizing s with
  | nil => exact ⟨.clear, rfl, .last rfl⟩
  | cons name names ih =>
    obtain ⟨t, ht, halone⟩ := ih (s.kill i name).2
    refine ⟨.look name (some names), rfl, ?_⟩
    rw [System.killEach_cons]
    exact alone_look ht halone

/-- A killing of all that is not interrupted. -/
theorem alone_killAll (i : Nat) (s : System) : Alone i s .list (s.killAll i).2 := by
  obtain ⟨t, ht, halone⟩ := alone_killEach (s.table i).names i s
  exact .more ht halone

/-- A start that is not interrupted, not even while it waits. -/
theorem alone_start (i : Nat) (s : System) (r : SpawnRequest) :
    Alone i s (.check r) (match s.beginStart i r with
      | (.ok l, s) => (Container.finishRun s l).2
      | (.error _, s) => s) := by
  cases hr : s.isReady i r.name with
  | true =>
    rw [System.beginStart_of_ready hr]
    exact .last (by rw [next, hr]; rfl)
  | false =>
    rw [System.beginStart_of_not_ready hr]
    refine .more (u := .ask r) (by rw [next, hr]; rfl) ?_
    refine .more (u := .await (s.askRunner i r).1) rfl ?_
    -- From here on only the launch matters, not how it came about.
    have hpool := (System.askRunner_spec s i r).1
    generalize (s.askRunner i r).1 = l at hpool
    show Alone i (s.askRunner i r).2 (.await l) (Container.finishRun (s.askRunner i r).2 l).2
    generalize (s.askRunner i r).2 = u
    cases hp : (u.finishStart l).1 with
    | error e =>
      have hlast := Alone.last (next_await_of_error (i := i) hp)
      rw [next_await_system] at hlast
      rw [Container.finishRun_of_error hp]
      exact hlast
    | ok p =>
      refine .more (next_await_of_ok hp) ?_
      rw [next_await_system, Container.finishRun_of_ok hp, hpool]
      cases hready : (u.finishStart l).2.isReady i p.name with
      | true =>
        have henter := next_enter_of_ready hready
        rw [System.enter_of_ready hready]
        refine .more (by rw [henter]) ?_
        rw [henter]
        exact .last rfl
      | false =>
        have henter := next_enter_of_not_ready hready
        have hlast : Alone i (u.finishStart l).2 (.enter p) ((enter p).next i (u.finishStart l).2).2 :=
          .last (by rw [henter])
        rw [henter] at hlast
        rw [System.enter_of_not_ready hready]
        exact hlast

end Stage
end PluginHost
