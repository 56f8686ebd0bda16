/-
  PluginHost.Proofs.System.Starting

  What starting a process does to a system.  Whatever a runner does, the tables
  and the marks of the switches that were there stay as they are (`Grows`); what
  it makes is a process of the name it was asked for, with a switch of its own
  that nobody has used (`IsNew`).  Only entering a process changes a table.
-/
import PluginHost.Container
import PluginHost.Proofs.System.Killing

namespace PluginHost

/-- The process that a launch carries already. -/
def Launch.process? (l : Launch) : Option PluginProcess :=
  match l.outcome with
  | .ok (.running p) => some p
  | _ => none

/-- A launch ends with a process that has a kill switch, if it ends with a process
    at all. -/
def Launch.IsSwitched (l : Launch) : Prop :=
  match l.outcome with
  | .ok (.due _ kind) => kind ≠ .none
  | .ok (.running p) => p.switch.isSome = true
  | .error _ => True

namespace System

variable {s s' s'' : System} {i j : Nat}

/-! ## Growing -/

/-- No table has changed, and no mark of a switch that was there before. -/
structure Grows (s s' : System) : Prop where
  tables : ∀ j, s'.table j = s.table j
  pools : s'.pools.length = s.pools.length
  switches : s.switches.length ≤ s'.switches.length
  spent : ∀ id < s.switches.length, s'.isSpent id = s.isSpent id

theorem Grows.refl (s : System) : Grows s s :=
  ⟨fun _ => rfl, rfl, Nat.le_refl _, fun _ _ => rfl⟩

theorem Grows.trans (h : Grows s s') (h' : Grows s' s'') : Grows s s'' where
  tables j := (h'.tables j).trans (h.tables j)
  pools := h'.pools.trans h.pools
  switches := Nat.le_trans h.switches h'.switches
  spent id hid := by
    rw [h'.spent id (Nat.lt_of_lt_of_le hid h.switches), h.spent id hid]

theorem Quiet.grows (h : Quiet s s') : Grows s s' :=
  ⟨h.table, by rw [h.pools], Nat.le_of_eq h.switches.symm, fun id _ => h.spent id⟩

/-- A process whose switch was made between two systems and has not been used. -/
def IsNew (s s' : System) (p : PluginProcess) : Prop :=
  ∃ id, p.switch = some id ∧ s.switches.length ≤ id ∧ id < s'.switches.length ∧
    s'.isSpent id = false

theorem IsNew.hasSwitch {p : PluginProcess} (h : IsNew s s' p) : s'.HasSwitch p := by
  obtain ⟨id, hid, -, hlt, -⟩ := h
  exact ⟨id, hid, hlt⟩

theorem IsNew.isTold {p : PluginProcess} (h : IsNew s s' p) : s'.isTold p = false := by
  obtain ⟨id, hid, -, -, hspent⟩ := h
  rw [System.isTold, hid]
  exact hspent

/-- The switch of a new process is none that was there before. -/
theorem IsNew.switch_ne {p q : PluginProcess} (h : IsNew s s' p) (hq : s.HasSwitch q) :
    p.switch ≠ q.switch := by
  obtain ⟨id, hid, hle, -, -⟩ := h
  obtain ⟨id', hid', hlt⟩ := hq
  rw [hid, hid', ne_eq, Option.some.injEq]
  omega

theorem IsNew.then_quiet {p : PluginProcess} (h : IsNew s s' p) (h' : Quiet s' s'') :
    IsNew s s'' p := by
  obtain ⟨id, hid, hle, hlt, hspent⟩ := h
  exact ⟨id, hid, hle, by rw [h'.switches]; exact hlt, by rw [h'.spent]; exact hspent⟩

theorem Grows.isTold (h : Grows s s') {p : PluginProcess} (hp : s.HasSwitch p) :
    s'.isTold p = s.isTold p :=
  isTold_congr hp h.spent

/-- Something else happens: other pools work, time passes, children end, files
    change, the runner of pool `i` is exchanged.  The table of the pool is left
    alone, and nobody else uses the switches of its processes `ps`. -/
structure Aside (i : Nat) (ps : List PluginProcess) (s s' : System) : Prop where
  table : s'.table i = s.table i
  pool : i < s'.pools.length
  switches : s.switches.length ≤ s'.switches.length
  told : ∀ p ∈ ps, s'.isTold p = s.isTold p

/-- Nothing that only adds switches is noticed. -/
theorem Grows.aside (h : Grows s s') (hi : i < s.pools.length) {ps : List PluginProcess}
    (hps : ∀ p ∈ ps, s.HasSwitch p) : Aside i ps s s' where
  table := h.tables i
  pool := by
    rw [h.pools]
    exact hi
  switches := h.switches
  told p hp := h.isTold (hps p hp)

/-! ## New switches -/

theorem addSwitch_grows (s : System) (pid : Nat) (k : KillSwitch) :
    Grows s (s.addSwitch pid k).2 where
  tables _ := rfl
  pools := rfl
  switches := by simp [addSwitch]
  spent id hid := by
    rw [isSpent, switch?_addSwitch, if_neg (by omega), isSpent]

/-- A process that is given a fresh switch is new. -/
theorem isNew_addSwitch (s : System) (pid : Nat) {k : KillSwitch} (hk : k.spent = false)
    {p : PluginProcess} (hp : p.switch = some (s.addSwitch pid k).1) :
    IsNew s (s.addSwitch pid k).2 p := by
  refine ⟨s.switches.length, hp, Nat.le_refl _, by simp [addSwitch], ?_⟩
  rw [isSpent_of_switch? (k := k) (by rw [switch?_addSwitch, if_pos rfl]), hk]

/-- No kind of prepared process comes with a switch that is spent. -/
theorem make?_spent {kind : SwitchKind} {k : KillSwitch} (h : kind.make? = some k) :
    k.spent = false := by
  cases kind <;> simp [SwitchKind.make?] at h <;> rw [← h]

/-! ## The runner -/

/-- What is started on the machine is a new process of the name asked for. -/
theorem startProgram_spec (s : System) (flag : String) (r : SpawnRequest) :
    Grows s (s.startProgram flag r).2 ∧ (s.startProgram flag r).2.journal = s.journal ∧
      ∀ p, (s.startProgram flag r).1 = .ok p →
        p.name = r.name ∧ IsNew s (s.startProgram flag r).2 p := by
  unfold startProgram
  cases s.programs s.storage r.command (r.commandLine flag) with
  | error fault => exact ⟨Grows.refl s, rfl, fun p hp => by cases hp⟩
  | ok behaviour =>
    -- The switch is made before the child, and children do not show.
    let pid := firstChildPid + s.children.length
    let made := (s.addSwitch pid { process := some pid }).2
    have hgrow : Grows s made := addSwitch_grows s pid _
    have hquiet (cs : List Child) : Quiet made (releaseWatchers { made with children := cs }) :=
      (setChildren_quiet made cs).trans (releaseWatchers_quiet _)
    refine ⟨hgrow.trans (hquiet _).grows, (hquiet _).journal, fun p hp => ?_⟩
    rw [← Except.ok.inj hp]
    exact ⟨rfl, (isNew_addSwitch s pid (k := { process := some pid }) rfl rfl).then_quiet (hquiet _)⟩

/-- The system after a runner was asked, before anything has come of it. -/
def asked (s : System) (i : Nat) (r : SpawnRequest) : System :=
  (s.record (.requested (s.pool i).label r)).updatePool i fun pool =>
    { pool with requests := pool.requests + 1 }

theorem asked_grows (s : System) (i : Nat) (r : SpawnRequest) : Grows s (s.asked i r) where
  tables _ := table_updatePool_of_table (s := s.record _) fun _ => rfl
  pools := length_updatePool (s := s.record _) _
  switches := Nat.le_refl _
  spent _ _ := rfl

/-- A machine starts the program at once. -/
theorem askRunner_of_machine {flag : String} {r : SpawnRequest}
    (h : (s.pool i).runner = .machine flag) :
    (s.askRunner i r).2 = ((s.asked i r).startProgram flag r).2 ∧
      (s.askRunner i r).1.pool = i ∧ (s.askRunner i r).1.name = r.name ∧
      (s.askRunner i r).1.outcome = .running <$> ((s.asked i r).startProgram flag r).1 := by
  simp only [askRunner, h, asked]
  split
  · rename_i p t heq
    rw [heq]
    exact ⟨rfl, rfl, rfl, rfl⟩
  · rename_i e t heq
    rw [heq]
    exact ⟨rfl, rfl, rfl, rfl⟩

/-- A prepared process does not exist before its time. -/
theorem askRunner_of_prepared {answers : List PreparedStart} {r : SpawnRequest}
    (h : (s.pool i).runner = .prepared answers) :
    (s.askRunner i r).2 = s.asked i r ∧
      (s.askRunner i r).1.pool = i ∧ (s.askRunner i r).1.name = r.name ∧
      (s.askRunner i r).1.process? = none := by
  simp only [askRunner, h, asked, Launch.process?, true_and]
  cases (answers.getD (s.pool i).requests (defaultStart (s.pool i).requests)).outcome <;> rfl

/-- A runner works on what it was asked for, and puts nothing into a table. -/
theorem askRunner_spec (s : System) (i : Nat) (r : SpawnRequest) :
    (s.askRunner i r).1.pool = i ∧ (s.askRunner i r).1.name = r.name ∧
      Grows s (s.askRunner i r).2 ∧
      (s.askRunner i r).2.journal = (s.now, .requested (s.pool i).label r) :: s.journal ∧
      ∀ p, (s.askRunner i r).1.process? = some p →
        p.name = r.name ∧ IsNew s (s.askRunner i r).2 p := by
  have hasked := asked_grows s i r
  cases hr : (s.pool i).runner with
  | prepared answers =>
    -- A prepared process comes into being only at the end of its launch.
    obtain ⟨hsys, hpool, hname, hnone⟩ := askRunner_of_prepared (r := r) hr
    rw [hsys]
    refine ⟨hpool, hname, hasked, rfl, fun p hp => ?_⟩
    rw [hnone] at hp
    cases hp
  | machine flag =>
    obtain ⟨hsys, hpool, hname, hout⟩ := askRunner_of_machine (r := r) hr
    obtain ⟨hgrow, hjournal, hnew⟩ := startProgram_spec (s.asked i r) flag r
    rw [hsys]
    refine ⟨hpool, hname, hasked.trans hgrow, hjournal, fun p hp => ?_⟩
    rw [Launch.process?, hout] at hp
    cases hstart : ((s.asked i r).startProgram flag r).1 with
    | error e =>
      rw [hstart] at hp
      cases hp
    | ok q =>
      rw [hstart] at hp
      obtain rfl : q = p := Option.some.inj hp
      obtain ⟨hq, id, hid, hle, hlt, hspent⟩ := hnew q hstart
      exact ⟨hq, id, hid, Nat.le_trans hasked.switches hle, hlt, hspent⟩

/-! ## Beginning and ending a start -/

/-- A start is refused only because the name is taken, and then nothing
    happens. -/
theorem beginStart_of_ready {r : SpawnRequest} (h : s.isReady i r.name = true) :
    s.beginStart i r = (.error (.alreadyStarted r.name), s) := by
  rw [beginStart, if_pos h]

/-- If the name is free, the runner is asked. -/
theorem beginStart_of_not_ready {r : SpawnRequest} (h : s.isReady i r.name = false) :
    s.beginStart i r = (.ok (s.askRunner i r).1, (s.askRunner i r).2) := by
  rw [beginStart, if_neg (by simp [h])]

/-- A prepared process of a kind with a switch is new. -/
theorem makeProcess_spec (s : System) (name : String) (pid : Nat) (kind : SwitchKind) :
    Grows s (s.makeProcess name pid kind).2 ∧ (s.makeProcess name pid kind).1.name = name ∧
      (kind ≠ .none → IsNew s (s.makeProcess name pid kind).2 (s.makeProcess name pid kind).1) := by
  unfold makeProcess
  cases hk : kind.make? with
  | none =>
    refine ⟨Grows.refl s, rfl, fun hkind => ?_⟩
    cases kind <;> simp [SwitchKind.make?] at hk
    exact absurd rfl hkind
  | some k =>
    exact ⟨addSwitch_grows s pid k, rfl, fun _ => isNew_addSwitch s pid (make?_spent hk) rfl⟩

theorem makeProcess_journal (s : System) (name : String) (pid : Nat) (kind : SwitchKind) :
    (s.makeProcess name pid kind).2.journal = s.journal := by
  unfold makeProcess
  cases kind.make? <;> rfl

/-- A launch of a runner that failed ends with its error, and nothing happens. -/
theorem finishStart_of_error {l : Launch} {e : Error} (h : l.outcome = .error e) :
    s.finishStart l = (.error e, s) := by
  rw [finishStart, h]

/-- A launch that carries a process ends with it, and nothing happens. -/
theorem finishStart_of_process? {l : Launch} {p : PluginProcess} (h : l.process? = some p) :
    s.finishStart l = (.ok p, s) := by
  unfold Launch.process? at h
  split at h
  · rename_i q heq
    rw [finishStart, heq, Option.some.inj h]
  · cases h

/-- The end of a launch puts nothing into a table either. -/
theorem finishStart_grows (s : System) (l : Launch) : Grows s (s.finishStart l).2 := by
  unfold finishStart
  split
  · exact Grows.refl s
  · exact Grows.refl s
  · exact (makeProcess_spec s l.name _ _).1

theorem finishStart_journal (s : System) (l : Launch) :
    (s.finishStart l).2.journal = s.journal := by
  unfold finishStart
  split
  · rfl
  · rfl
  · exact makeProcess_journal s l.name _ _

/-- A launch that carries no process yet ends with a new one, unless it failed. -/
theorem finishStart_of_process?_eq_none {l : Launch} (hl : l.IsSwitched) (h : l.process? = none) :
    Grows s (s.finishStart l).2 ∧ ∀ p, (s.finishStart l).1 = .ok p →
      p.name = l.name ∧ IsNew s (s.finishStart l).2 p := by
  unfold finishStart
  unfold Launch.process? at h
  unfold Launch.IsSwitched at hl
  split
  · exact ⟨Grows.refl s, fun p hp => by cases hp⟩
  · rename_i q heq
    rw [heq] at h
    cases h
  · rename_i pid kind heq
    rw [heq] at hl
    obtain ⟨hgrow, hname, hnew⟩ := makeProcess_spec s l.name pid kind
    refine ⟨hgrow, fun p hp => ?_⟩
    rw [← Except.ok.inj hp]
    exact ⟨hname, hnew hl⟩

/-- If a process comes into being at the end of a launch, its switch, if it has one,
    is new. -/
theorem isNew_of_finishStart {l : Launch} {p : PluginProcess} (hl : l.process? = none)
    (h : (s.finishStart l).1 = .ok p) (hp : p.switch ≠ none) : IsNew s (s.finishStart l).2 p := by
  by_cases hswitched : l.IsSwitched
  · exact ((finishStart_of_process?_eq_none hswitched hl).2 p h).2
  · -- Without a kind of switch there is none.
    refine absurd ?_ hp
    unfold Launch.IsSwitched at hswitched
    unfold Launch.process? at hl
    unfold finishStart at h
    split at hswitched
    · rename_i pid kind heq
      rw [heq] at h
      rw [Decidable.not_not.1 hswitched] at h
      rw [← Except.ok.inj h]
      rfl
    · rename_i q heq
      rw [heq] at hl
      cases hl
    · exact absurd trivial hswitched

/-- The process that comes into being only when a launch ends. -/
def born (s : System) (l : Launch) : Option PluginProcess :=
  if l.process?.isSome then none else (s.finishStart l).1.toOption

/-- A process bears the name of its launch. -/
theorem name_of_finishStart {l : Launch} {p : PluginProcess}
    (hl : ∀ q, l.process? = some q → q.name = l.name) (h : (s.finishStart l).1 = .ok p) :
    p.name = l.name := by
  cases hq : l.process? with
  | some q =>
    rw [finishStart_of_process? hq] at h
    exact Except.ok.inj h ▸ hl q hq
  | none =>
    unfold Launch.process? at hq
    unfold finishStart at h
    split at h
    · cases h
    · rename_i q heq
      rw [heq] at hq
      cases hq
    · rename_i pid kind heq
      rw [← Except.ok.inj h]
      exact (makeProcess_spec s l.name pid kind).2.1

/-- Only the runner makes a launch fail. -/
theorem outcome_of_finishStart_error {l : Launch} {e : Error}
    (h : (s.finishStart l).1 = .error e) : l.outcome = .error e := by
  unfold finishStart at h
  split at h
  · rename_i e' heq
    rw [heq, Except.error.inj h]
  · cases h
  · cases h

/-- A launch that fails leaves nothing behind. -/
theorem finishStart_error {l : Launch} {e : Error} (h : (s.finishStart l).1 = .error e) :
    l.process? = none ∧ s.finishStart l = (.error e, s) ∧ s.born l = none := by
  have herr := outcome_of_finishStart_error h
  have hnone : l.process? = none := by
    rw [Launch.process?, herr]
  refine ⟨hnone, finishStart_of_error herr, ?_⟩
  rw [born, hnone, h]
  rfl

/-! ## Entering -/

/-- A process is not registered under a name that is taken. -/
theorem register_of_ready {p : PluginProcess} (h : s.isReady i p.name = true) :
    s.register i p = (.error (.alreadyStarted p.name), s) := by
  have hc : (s.table i).contains p.name = true := h
  rw [register, ProcessTable.register, if_pos hc]

/-- A process is registered under a name that is free. -/
theorem register_of_not_ready {p : PluginProcess} (h : s.isReady i p.name = false) :
    s.register i p = (.ok (), s.updatePool i fun pool =>
      { pool with table := (s.table i).insert p.name p }) := by
  have hc : (s.table i).contains p.name = false := h
  rw [register, ProcessTable.register, if_neg (by simp [hc])]

/-- A process whose name is taken is told to stop. -/
theorem enter_of_ready {p : PluginProcess} (h : s.isReady i p.name = true) :
    s.enter i p = (.error (.alreadyStarted p.name), (s.triggerProcess p).2) := by
  rw [enter, register_of_ready h]

/-- A process whose name is free is entered. -/
theorem enter_of_not_ready {p : PluginProcess} (h : s.isReady i p.name = false) :
    s.enter i p = (.ok (), s.updatePool i fun pool =>
      { pool with table := (s.table i).insert p.name p }) := by
  rw [enter, register_of_not_ready h]

theorem enter_journal (s : System) (i : Nat) (p : PluginProcess) :
    (s.enter i p).2.journal = s.journal := by
  cases h : s.isReady i p.name with
  | true =>
    rw [enter_of_ready h]
    exact (triggerProcess_spends s p).journal
  | false =>
    rw [enter_of_not_ready h]
    rfl

/-- What stands in a table into which a process was entered. -/
theorem get?_table_insert (hi : i < s.pools.length) (p : PluginProcess) (n : String) :
    ((s.updatePool i fun pool => { pool with table := (s.table i).insert p.name p }).table i).get? n
      = if n = p.name then some p else (s.table i).get? n := by
  rw [table_updatePool_self _ hi, NameMap.get?_insert]

/-- However a process is entered or refused, its name is taken afterwards. -/
theorem exists_entry_of_enter (hi : i < s.pools.length) (p : PluginProcess) :
    ∃ q, ((s.enter i p).2.table i).get? p.name = some q := by
  cases h : s.isReady i p.name with
  | true =>
    rw [enter_of_ready h, (triggerProcess_spends s p).table]
    exact isReady_eq_true_iff.1 h
  | false =>
    rw [enter_of_not_ready h]
    exact ⟨p, by rw [get?_table_insert hi, if_pos rfl]⟩

theorem table_enter_of_ne (hj : i ≠ j) (p : PluginProcess) :
    (s.enter i p).2.table j = s.table j := by
  cases h : s.isReady i p.name with
  | true => rw [enter_of_ready h, (triggerProcess_spends s p).table]
  | false => rw [enter_of_not_ready h, table_updatePool_of_ne _ hj]

/-- What stands in a table after a process was entered stood there before, or is that
    process. -/
theorem entry_of_enter {p q : PluginProcess} {n : String}
    (h : ((s.enter i p).2.table j).get? n = some q) :
    (s.table j).get? n = some q ∨ (i = j ∧ n = p.name ∧ q = p) := by
  cases hr : s.isReady i p.name with
  | true =>
    rw [enter_of_ready hr, (triggerProcess_spends s p).table] at h
    exact Or.inl h
  | false =>
    by_cases hj : i = j
    · subst hj
      rw [enter_of_not_ready hr] at h
      by_cases hi : i < s.pools.length
      · rw [get?_table_insert hi] at h
        split at h
        · rename_i hn
          exact Or.inr ⟨rfl, hn, (Option.some.inj h).symm⟩
        · exact Or.inl h
      · -- There is no such pool.
        have hlt := lt_of_get?_table h
        rw [length_updatePool] at hlt
        exact absurd hlt hi
    · rw [table_enter_of_ne hj] at h
      exact Or.inl h

theorem enter_switches (s : System) (i : Nat) (p : PluginProcess) :
    (s.enter i p).2.switches.length = s.switches.length := by
  cases h : s.isReady i p.name with
  | true =>
    rw [enter_of_ready h]
    exact (triggerProcess_spends s p).switches
  | false =>
    rw [enter_of_not_ready h]
    rfl

end System
end PluginHost
