/-
  PluginHost.Proofs.Interleaving

  Any number of callers start and kill processes of one pool, and take turns section
  by section, in any order.  The runner answers every request that it can meet with
  a process that has a switch of its own.

  What a section may meet is kept in one invariant (`Inv`): a process is in one
  pair of hands only until it is registered, and an entry that was told to stop is
  about to be taken out by a killing.  What one act does to the table and to the
  marks of the switches is said by `Inv.entry_iff` and `Inv.isTold_iff`.
-/
import PluginHost.Proofs.Sections

namespace PluginHost

/-- The process that a start has in its hands. -/
def Stage.carried? : Stage → Option PluginProcess
  | .await l => l.process?
  | .enter p => some p
  | .dismiss p => some p
  | _ => none

/-- The process that comes into being in a section. -/
def Stage.born (i : Nat) (s : System) : Stage → Option PluginProcess
  | .ask r => (s.askRunner i r).1.process?
  | .await l => s.born l
  | _ => none

/-- The process that is registered in a section.  Its start has succeeded then. -/
def Stage.registered (i : Nat) (s : System) : Stage → Option PluginProcess
  | .enter p => if s.isReady i p.name then none else some p
  | _ => none

namespace Interleaving

/-! ## Runs -/

/-- A pool and the calls on it. -/
structure Floor where
  system : System
  /-- Where the call of each caller has arrived, if it is in one. -/
  calls : Nat → Option Stage := fun _ => none
  /-- The processes that the runner has started so far. -/
  started : List PluginProcess := []
  /-- Those that starts have registered and reported. -/
  reported : List PluginProcess := []

/-- What happens next. -/
inductive Act where
  /-- A caller begins a call. -/
  | join (k : Nat) (t : Stage)
  /-- A caller goes through the next section of its call. -/
  | go (k : Nat)
  /-- Something happens elsewhere. -/
  | aside (s : System)

namespace Floor

/-- A process is the entry under its name. -/
def IsEntered (i : Nat) (f : Floor) (p : PluginProcess) : Prop :=
  (f.system.table i).get? p.name = some p

/-- A process was told to stop: its switch is spent. -/
def IsTold (f : Floor) (p : PluginProcess) : Prop :=
  f.system.isTold p = true

/-- The calls with that of one caller changed. -/
def put (f : Floor) (k : Nat) (t : Option Stage) : Nat → Option Stage := fun j =>
  if j = k then t else f.calls j

/-- The next section of a call. -/
def go (i : Nat) (f : Floor) (k : Nat) (t : Stage) : Floor where
  system := (t.next i f.system).2
  calls := f.put k (t.next i f.system).1
  started := (t.born i f.system).toList ++ f.started
  reported := (t.registered i f.system).toList ++ f.reported

/-- What an act on pool `i` leaves. -/
def perform (i : Nat) (f : Floor) : Act → Floor
  | .join k t => { f with calls := f.put k (some t) }
  | .go k =>
    match f.calls k with
    | some t => f.go i k t
    | none => f
  | .aside s => { f with system := s }

/-- Which acts are possible: who begins a call is in no other one, and the runner
    answers with a process that has a switch, if it answers with one. -/
def Admits (i : Nat) (f : Floor) : Act → Prop
  | .join k t => f.calls k = none ∧ t.IsFirst
  | .go k => ∀ r, f.calls k = some (.ask r) → (f.system.askRunner i r).1.IsSwitched
  | .aside s => System.Aside i f.started f.system s

/-- A killing has triggered the switch of a process and is about to take it out. -/
def IsLeaving (f : Floor) (name : String) (p : PluginProcess) : Prop :=
  ∃ k left, f.calls k = some (.forget name p left)

/-- An act takes out what stands under a name. -/
def TakesOut (f : Floor) (a : Act) (name : String) : Prop :=
  ∃ k, a = .go k ∧ ((∃ p left, f.calls k = some (.forget name p left)) ∨
    f.calls k = some .clear)

/-- An act registers a process. -/
def Registers (i : Nat) (f : Floor) (a : Act) (p : PluginProcess) : Prop :=
  ∃ k, a = .go k ∧ f.calls k = some (.enter p) ∧ f.system.isReady i p.name = false

/-- An act triggers the switch of a process. -/
def Triggers (f : Floor) (a : Act) (p : PluginProcess) : Prop :=
  ∃ k, a = .go k ∧ ((∃ name left, f.calls k = some (.tell name p left)) ∨
    f.calls k = some (.dismiss p))

end Floor

/-- What is left of a pool after acts, the last one first. -/
def after (i : Nat) (s : System) : List Act → Floor
  | [] => { system := s }
  | a :: earlier => (after i s earlier).perform i a

/-- Acts that are possible one after another, from an empty table on. -/
def Legal (i : Nat) (s : System) : List Act → Prop
  | [] => i < s.pools.length ∧ s.table i = .empty
  | a :: earlier => Legal i s earlier ∧ (after i s earlier).Admits i a

/-! ## The invariant -/

/-- A process that no start has registered yet, and that was not told. -/
def Floor.IsFresh (f : Floor) (p : PluginProcess) : Prop :=
  p ∈ f.started ∧ p ∉ f.reported ∧ ¬ f.IsTold p

/-- What is true while a call is at a stage. -/
def Floor.Holds (f : Floor) : Stage → Prop
  | .tell name p _ => p.name = name ∧ p ∈ f.reported
  | .forget _ p _ => p ∈ f.reported ∧ f.IsTold p
  | .await l => l.IsSwitched ∧ ∀ p, l.process? = some p → f.IsFresh p
  | .enter p => f.IsFresh p
  | .dismiss p => f.IsFresh p
  | _ => True

/-- Where the processes of pool `i` are.  What matters is `leaving`: an entry that
    was told is about to be taken out by the killing that has told it. -/
structure Inv (i : Nat) (f : Floor) : Prop where
  pool : i < f.system.pools.length
  switched : ∀ p ∈ f.started, f.system.HasSwitch p
  distinct : ∀ p ∈ f.started, ∀ q ∈ f.started, p.switch = q.switch → p = q
  reported : ∀ p ∈ f.reported, p ∈ f.started
  entered : ∀ name p, (f.system.table i).get? name = some p → p.name = name ∧ p ∈ f.reported
  stages : ∀ k t, f.calls k = some t → f.Holds t
  -- No two starts have the same process in their hands.
  single : ∀ j k t u p, f.calls j = some t → f.calls k = some u → t.carried? = some p →
    u.carried? = some p → j = k
  leaving : ∀ name p, (f.system.table i).get? name = some p → f.IsTold p → f.IsLeaving name p

variable {i : Nat} {s : System} {f : Floor}

theorem Inv.init (hi : i < s.pools.length) (ht : s.table i = .empty) :
    Inv i { system := s } where
  pool := hi
  switched := by simp
  distinct := by simp
  reported := by simp
  entered name p hp := by
    rw [ht, NameMap.get?_empty] at hp
    cases hp
  stages k t ht := by cases ht
  single j k t u p ht := by cases ht
  leaving name p hp := by
    rw [ht, NameMap.get?_empty] at hp
    cases hp

/-- What a start has in its hands is fresh. -/
theorem Inv.isFresh (inv : Inv i f) {k : Nat} {t : Stage} {p : PluginProcess}
    (hk : f.calls k = some t) (hp : t.carried? = some p) : f.IsFresh p := by
  have h := inv.stages k t hk
  cases t with
  | await l => exact h.2 p hp
  | enter q =>
    obtain rfl : q = p := Option.some.inj hp
    exact h
  | dismiss q =>
    obtain rfl : q = p := Option.some.inj hp
    exact h
  | _ => cases hp

/-- Stages are not disturbed as long as marks stay and nothing that is carried is
    registered. -/
theorem Floor.Holds.congr {g : Floor} {t : Stage} (h : f.Holds t)
    (hstarted : ∀ p ∈ f.started, p ∈ g.started) (hreported : ∀ p ∈ f.reported, p ∈ g.reported)
    (htold : ∀ p ∈ f.reported, f.IsTold p → g.IsTold p)
    (hfresh : ∀ p, t.carried? = some p → f.IsFresh p → p ∉ g.reported ∧ ¬ g.IsTold p) :
    g.Holds t := by
  cases t with
  | tell name p left => exact ⟨h.1, hreported p h.2⟩
  | forget name p left => exact ⟨hreported p h.1, htold p h.1 h.2⟩
  | await l =>
    refine ⟨h.1, fun p hp => ?_⟩
    exact ⟨hstarted p (h.2 p hp).1, hfresh p hp (h.2 p hp)⟩
  | enter p => exact ⟨hstarted p h.1, hfresh p rfl h⟩
  | dismiss p => exact ⟨hstarted p h.1, hfresh p rfl h⟩
  | _ => trivial

/-! ## Moving on -/

/-- A call that is not about to take anything out moves on, and nothing else
    happens. -/
theorem Inv.move (inv : Inv i f) {k : Nat} {t : Option Stage}
    (hk : ∀ name p left, f.calls k ≠ some (.forget name p left))
    (hholds : ∀ u, t = some u → f.Holds u)
    (hcarry : ∀ u p, t = some u → u.carried? = some p → ∀ j w, j ≠ k → f.calls j = some w →
      w.carried? ≠ some p) : Inv i { f with calls := f.put k t } where
  pool := inv.pool
  switched := inv.switched
  distinct := inv.distinct
  reported := inv.reported
  entered := inv.entered
  stages j u hu := by
    simp only [Floor.put] at hu
    split at hu
    · exact hholds u hu
    · exact inv.stages j u hu
  single j j' u u' p hu hu' hp hp' := by
    simp only [Floor.put] at hu hu'
    -- Both are this call, or one of them is, or neither.
    split at hu <;> split at hu'
    · omega
    · rename_i hj hj'
      exact absurd hp' (hcarry u p hu hp j' u' hj' hu')
    · rename_i hj hj'
      exact absurd hp (hcarry u' p hu' hp' j u hj hu)
    · exact inv.single j j' u u' p hu hu' hp hp'
  leaving name p hp ht := by
    obtain ⟨j, left, hj⟩ := inv.leaving name p hp ht
    refine ⟨j, left, ?_⟩
    have hne : j ≠ k := by
      rintro rfl
      exact hk name p left hj
    simp only [Floor.put, if_neg hne]
    exact hj

/-- Calls whose starts have nothing in their hands any more, or the same as before,
    are in nobody's way. -/
theorem Inv.carry_of_eq (inv : Inv i f) {k : Nat} {t : Stage} (hk : f.calls k = some t)
    {p : PluginProcess} (hp : t.carried? = some p) {j : Nat} {w : Stage} (hj : j ≠ k)
    (hw : f.calls j = some w) : w.carried? ≠ some p :=
  fun h => hj (inv.single j k w t p hw hk h hp)

/-- Nothing that happens elsewhere matters. -/
theorem Inv.aside {s' : System} (inv : Inv i f) (h : System.Aside i f.started f.system s') :
    Inv i { f with system := s' } where
  pool := h.pool
  switched p hp := by
    obtain ⟨id, hid, hlt⟩ := inv.switched p hp
    exact ⟨id, hid, Nat.lt_of_lt_of_le hlt h.switches⟩
  distinct := inv.distinct
  reported := inv.reported
  entered name p hp := by
    rw [h.table] at hp
    exact inv.entered name p hp
  stages k t ht := by
    refine (inv.stages k t ht).congr (fun _ hp => hp) (fun _ hp => hp) (fun p hp htold => ?_)
      (fun p _ hfresh => ⟨hfresh.2.1, fun htold => hfresh.2.2 ?_⟩)
    · exact (h.told p (inv.reported p hp)).trans htold
    · exact (h.told p hfresh.1).symm.trans htold
  single := inv.single
  leaving name p hp ht := by
    rw [h.table] at hp
    exact inv.leaving name p hp
      ((h.told p (inv.reported p (inv.entered name p hp).2)).symm.trans ht)

/-- A new process is nobody's yet. -/
theorem Inv.start {s' : System} {p : PluginProcess} (inv : Inv i f) (hg : f.system.Grows s')
    (hp : System.IsNew f.system s' p) :
    Inv i { f with system := s', started := p :: f.started } ∧ p ∉ f.started := by
  have inv' := inv.aside (hg.aside inv.pool inv.switched)
  have hswitch : ∀ q ∈ f.started, p.switch ≠ q.switch :=
    fun q hq => hp.switch_ne (inv.switched q hq)
  refine ⟨⟨inv'.pool, fun q hq => ?_, fun q hq q' hq' heq => ?_,
    fun q hq => List.mem_cons_of_mem _ (inv'.reported q hq), inv'.entered, fun k t ht => ?_,
    inv'.single, inv'.leaving⟩, fun hmem => hswitch p hmem rfl⟩
  · rcases List.mem_cons.1 hq with rfl | hmem
    · exact hp.hasSwitch
    · exact inv'.switched q hmem
  · rcases List.mem_cons.1 hq with rfl | hmem <;> rcases List.mem_cons.1 hq' with rfl | hmem'
    · rfl
    · exact absurd heq (hswitch q' hmem')
    · exact absurd heq.symm (hswitch q hmem)
    · exact inv'.distinct q hmem q' hmem' heq
  · exact (inv'.stages k t ht).congr (fun _ h => List.mem_cons_of_mem _ h) (fun _ h => h)
      (fun _ _ h => h) (fun _ _ h => h.2)

/-- What a triggered switch tells: its own process, and no other. -/
theorem Inv.isTold_trigger (inv : Inv i f) {p q : PluginProcess} (hp : p ∈ f.started)
    (hq : q ∈ f.started) :
    (f.system.triggerProcess p).2.isTold q = true ↔ q = p ∨ f.IsTold q := by
  constructor
  · intro h
    by_cases heq : q = p
    · exact Or.inl heq
    · rw [System.isTold_triggerProcess_of_ne fun hs => heq (inv.distinct q hq p hp hs)] at h
      exact Or.inr h
  · rintro (rfl | h)
    · exact System.isTold_triggerProcess (inv.switched q hq)
    · exact (System.triggerProcess_spends f.system p).isTold h

/-- A switch is triggered, and the call moves on.  Nobody else may have the process
    in their hands, and if it is an entry, it must be about to leave. -/
theorem Inv.trigger (inv : Inv i f) {k : Nat} {p : PluginProcess} {t : Option Stage}
    (hp : p ∈ f.started) (hk : ∀ name q left, f.calls k ≠ some (.forget name q left))
    (hfree : ∀ j w, j ≠ k → f.calls j = some w → w.carried? ≠ some p)
    (hstage : ∀ u, t = some u → ∃ name left, u = .forget name p left ∧ p.name = name ∧
      p ∈ f.reported)
    (hout : f.IsEntered i p → ∃ left, t = some (.forget p.name p left)) :
    Inv i { f with system := (f.system.triggerProcess p).2, calls := f.put k t } := by
  have hspend := System.triggerProcess_spends f.system p
  refine ⟨?_, fun q hq => ?_, inv.distinct, inv.reported, fun name q hq => ?_, fun j u hu => ?_,
    fun j j' u u' q hu hu' hq hq' => ?_, fun name q hq ht => ?_⟩
  · rw [hspend.pools]
    exact inv.pool
  · obtain ⟨id, hid, hlt⟩ := inv.switched q hq
    exact ⟨id, hid, by rw [hspend.switches]; exact hlt⟩
  · rw [hspend.table] at hq
    exact inv.entered name q hq
  · simp only [Floor.put] at hu
    split at hu
    · obtain ⟨name, left, rfl, hname, hrep⟩ := hstage u hu
      exact ⟨hrep, (inv.isTold_trigger hp hp).2 (Or.inl rfl)⟩
    · rename_i hj
      refine (inv.stages j u hu).congr (fun _ h => h) (fun _ h => h) (fun q hq ht => ?_)
        (fun q hq hfresh => ⟨hfresh.2.1, fun ht => ?_⟩)
      · exact (inv.isTold_trigger hp (inv.reported q hq)).2 (Or.inr ht)
      · rcases (inv.isTold_trigger hp hfresh.1).1 ht with rfl | ht
        · exact hfree j u hj hu hq
        · exact hfresh.2.2 ht
  · -- A killing carries nothing, so that only the other calls matter.
    have hnone : ∀ v, t = some v → v.carried? = none := fun v hv => by
      obtain ⟨name, left, rfl, -⟩ := hstage v hv
      rfl
    simp only [Floor.put] at hu hu'
    split at hu
    · rw [hnone u hu] at hq
      cases hq
    split at hu'
    · rw [hnone u' hu'] at hq'
      cases hq'
    · exact inv.single j j' u u' q hu hu' hq hq'
  · rw [hspend.table] at hq
    obtain ⟨hname, hrep⟩ := inv.entered name q hq
    rcases (inv.isTold_trigger hp (inv.reported q hrep)).1 ht with rfl | ht
    · -- The entry has just been told, and this call goes on to take it out.
      subst hname
      obtain ⟨left, rfl⟩ := hout hq
      exact ⟨k, left, by simp [Floor.put]⟩
    · obtain ⟨j, left, hj⟩ := inv.leaving name q hq ht
      have hne : j ≠ k := by
        rintro rfl
        exact hk name q left hj
      exact ⟨j, left, by simp only [Floor.put, if_neg hne]; exact hj⟩

/-- Between two killings a call has nothing in its hands. -/
theorem idle_following {left : Option (List String)} {u : Stage}
    (h : Stage.following left = some u) (f : Floor) : f.Holds u ∧ u.carried? = none := by
  match left, h with
  | some [], h => exact Option.some.inj h ▸ ⟨trivial, rfl⟩
  | some (name :: names), h => exact Option.some.inj h ▸ ⟨trivial, rfl⟩

/-- Entries are taken out by a call that then goes on to the next killing, if there
    is one.  Whatever that call was about to take out must be among them. -/
theorem Inv.takeOut (inv : Inv i f) {k : Nat} (s' : System) (left : Option (List String))
    (who : String → Prop)
    (hgone : ∀ name, who name → (s'.table i).get? name = none)
    (hkept : ∀ name, ¬ who name → (s'.table i).get? name = (f.system.table i).get? name)
    (hpools : s'.pools.length = f.system.pools.length) (hswitches : s'.switches = f.system.switches)
    (hk : ∀ name p rest, f.calls k = some (.forget name p rest) → who name) :
    Inv i { f with system := s', calls := f.put k (Stage.following left) } := by
  have hold : ∀ name p, (s'.table i).get? name = some p →
      (f.system.table i).get? name = some p ∧ ¬ who name := by
    intro name p hp
    by_cases hw : who name
    · rw [hgone name hw] at hp
      cases hp
    · rw [hkept name hw] at hp
      exact ⟨hp, hw⟩
  have htold := System.isTold_of_switches hswitches
  refine ⟨?_, fun q hq => ?_, inv.distinct, inv.reported,
    fun name q hq => inv.entered name q (hold name q hq).1, fun j u hu => ?_,
    fun j j' u u' q hu hu' hq hq' => ?_, fun name q hq ht => ?_⟩
  · rw [hpools]
    exact inv.pool
  · rw [System.HasSwitch, hswitches]
    exact inv.switched q hq
  · simp only [Floor.put] at hu
    split at hu
    · exact (idle_following hu _).1
    · refine (inv.stages j u hu).congr (fun _ h => h) (fun _ h => h) (fun q _ ht => ?_)
        (fun q _ hfresh => ⟨hfresh.2.1, fun ht => hfresh.2.2 ?_⟩)
      · exact (htold q).trans ht
      · exact (htold q).symm.trans ht
  · simp only [Floor.put] at hu hu'
    split at hu
    · rw [(idle_following hu f).2] at hq
      cases hq
    split at hu'
    · rw [(idle_following hu' f).2] at hq'
      cases hq'
    · exact inv.single j j' u u' q hu hu' hq hq'
  · obtain ⟨hq', hw⟩ := hold name q hq
    obtain ⟨j, left, hj⟩ := inv.leaving name q hq' ((htold q).symm.trans ht)
    -- This call has taken out what it was about to, so that it is another one.
    have hne : j ≠ k := by
      rintro rfl
      exact hw (hk name q left hj)
    exact ⟨j, left, by simp only [Floor.put, if_neg hne]; exact hj⟩

/-- A process is registered, and its start has succeeded. -/
theorem Inv.register (inv : Inv i f) {k : Nat} {p : PluginProcess}
    (hk : f.calls k = some (.enter p)) (hr : f.system.isReady i p.name = false) :
    Inv i ⟨f.system.updatePool i fun pool =>
      { pool with table := (f.system.table i).insert p.name p }, f.put k none, f.started,
      p :: f.reported⟩ := by
  obtain ⟨hp, -, htold⟩ := inv.isFresh hk rfl
  have hget := System.get?_table_insert inv.pool p
  refine ⟨?_, inv.switched, inv.distinct, fun q hq => ?_, fun name q hq => ?_, fun j u hu => ?_,
    fun j j' u u' q hu hu' hq hq' => ?_, fun name q hq ht => ?_⟩
  · rw [System.length_updatePool]
    exact inv.pool
  · rcases List.mem_cons.1 hq with rfl | hmem
    · exact hp
    · exact inv.reported q hmem
  · rw [hget] at hq
    split at hq
    · rename_i hname
      obtain rfl : p = q := Option.some.inj hq
      exact ⟨hname.symm, List.mem_cons_self⟩
    · obtain ⟨hname, hrep⟩ := inv.entered name q hq
      exact ⟨hname, List.mem_cons_of_mem _ hrep⟩
  · simp only [Floor.put] at hu
    split at hu
    · cases hu
    · rename_i hj
      refine (inv.stages j u hu).congr (fun _ h => h) (fun _ h => List.mem_cons_of_mem _ h)
        (fun _ _ h => h) (fun q hq hfresh => ⟨fun hmem => ?_, hfresh.2.2⟩)
      rcases List.mem_cons.1 hmem with rfl | hmem
      · exact inv.carry_of_eq hk rfl hj hu hq
      · exact hfresh.2.1 hmem
  · simp only [Floor.put] at hu hu'
    split at hu
    · cases hu
    split at hu'
    · cases hu'
    exact inv.single j j' u u' q hu hu' hq hq'
  · rw [hget] at hq
    split at hq
    · -- The new entry has not been told.
      obtain rfl : p = q := Option.some.inj hq
      exact absurd ht htold
    · obtain ⟨j, left, hj⟩ := inv.leaving name q hq ht
      have hne : j ≠ k := by
        rintro rfl
        rw [hk] at hj
        cases hj
      exact ⟨j, left, by simp only [Floor.put, if_neg hne]; exact hj⟩

/-! ## Every section -/

/-- A section of a killing. -/
theorem Inv.look (inv : Inv i f) {k : Nat} {name : String} {left : Option (List String)}
    (hk : f.calls k = some (.look name left)) : Inv i (f.go i k (.look name left)) := by
  have hnot : ∀ n p rest, f.calls k ≠ some (.forget n p rest) := by simp [hk]
  rw [Floor.go, Stage.next_look_system]
  refine inv.move hnot (fun u hu => ?_) fun u p hu hp => ?_
  · cases hget : (f.system.table i).get? name with
    | none =>
      rw [Stage.next_look_of_none hget] at hu
      exact (idle_following hu f).1
    | some q =>
      rw [Stage.next_look_of_some hget] at hu
      obtain rfl := Option.some.inj hu
      exact inv.entered name q hget
  · cases hget : (f.system.table i).get? name with
    | none =>
      rw [Stage.next_look_of_none hget] at hu
      rw [(idle_following hu f).2] at hp
      cases hp
    | some q =>
      rw [Stage.next_look_of_some hget] at hu
      obtain rfl := Option.some.inj hu
      cases hp

theorem Inv.tell (inv : Inv i f) {k : Nat} {name : String} {p : PluginProcess}
    {left : Option (List String)} (hk : f.calls k = some (.tell name p left)) :
    Inv i (f.go i k (.tell name p left)) := by
  obtain ⟨hname, hrep⟩ := inv.stages k _ hk
  have hnot : ∀ n q rest, f.calls k ≠ some (.forget n q rest) := by simp [hk]
  refine inv.trigger (inv.reported p hrep) hnot (fun j w _ hw hcarry => ?_) (fun u hu => ?_)
    fun _ => ⟨left, by rw [hname]; rfl⟩
  · exact (inv.isFresh hw hcarry).2.1 hrep
  · exact ⟨name, left, (Option.some.inj hu).symm, hname, hrep⟩

theorem Inv.dismiss (inv : Inv i f) {k : Nat} {p : PluginProcess}
    (hk : f.calls k = some (.dismiss p)) : Inv i (f.go i k (.dismiss p)) := by
  obtain ⟨hp, hrep, -⟩ := inv.isFresh hk rfl
  have hnot : ∀ n q rest, f.calls k ≠ some (.forget n q rest) := by simp [hk]
  refine inv.trigger hp hnot (fun j w hj hw => inv.carry_of_eq hk rfl hj hw)
    (fun u hu => by cases hu) fun hent => absurd (inv.entered _ p hent).2 hrep

theorem Inv.forget (inv : Inv i f) {k : Nat} {name : String} {p : PluginProcess}
    {left : Option (List String)} (hk : f.calls k = some (.forget name p left)) :
    Inv i (f.go i k (.forget name p left)) := by
  refine inv.takeOut (f.system.remove i name) left (· = name)
    (fun n hn => ?_) (fun n hn => ?_) ?_ rfl fun n q rest h => ?_
  · rw [System.get?_table_remove, if_pos hn]
  · rw [System.get?_table_remove, if_neg hn]
  · rw [System.remove, System.length_updatePool]
  · rw [hk, Option.some.injEq, Stage.forget.injEq] at h
    exact h.1.symm

theorem Inv.clear (inv : Inv i f) (k : Nat) : Inv i (f.go i k .clear) := by
  refine inv.takeOut (f.system.removeAll i) none (fun _ => True)
    (fun n _ => System.get?_table_removeAll _ i n) (fun n hn => absurd trivial hn) ?_ rfl
    fun _ _ _ _ => trivial
  rw [System.removeAll, System.length_updatePool]

/-- A section after which a start waits for a runner. -/
theorem Inv.ask (inv : Inv i f) {k : Nat} {r : SpawnRequest} (hk : f.calls k = some (.ask r))
    (hl : (f.system.askRunner i r).1.IsSwitched) : Inv i (f.go i k (.ask r)) := by
  obtain ⟨-, -, hgrow, -, hnew⟩ := System.askRunner_spec f.system i r
  have hnot : ∀ n p rest, f.calls k ≠ some (.forget n p rest) := by simp [hk]
  show Inv i ⟨(f.system.askRunner i r).2, f.put k (some (.await (f.system.askRunner i r).1)),
    (f.system.askRunner i r).1.process?.toList ++ f.started, f.reported⟩
  cases hp : (f.system.askRunner i r).1.process? with
  | none =>
    refine (inv.aside (hgrow.aside inv.pool inv.switched)).move hnot (fun u hu => ?_)
      fun u p hu hcarry => ?_
    · obtain rfl := Option.some.inj hu
      refine ⟨hl, fun p hq => ?_⟩
      rw [hp] at hq
      cases hq
    · obtain rfl := Option.some.inj hu
      rw [Stage.carried?, hp] at hcarry
      cases hcarry
  | some p =>
    obtain ⟨-, hisnew⟩ := hnew p hp
    obtain ⟨inv', hnotin⟩ := inv.start hgrow hisnew
    refine inv'.move hnot (fun u hu => ?_) fun u q hu hcarry j w _ hw hwq => ?_
    · obtain rfl := Option.some.inj hu
      refine ⟨hl, fun q hq => ?_⟩
      obtain rfl : p = q := by rwa [hp, Option.some.injEq] at hq
      refine ⟨List.mem_cons_self, fun hrep => hnotin (inv.reported p hrep), fun ht => ?_⟩
      rw [Floor.IsTold, hisnew.isTold] at ht
      cases ht
    · obtain rfl := Option.some.inj hu
      obtain rfl : p = q := by rwa [Stage.carried?, hp, Option.some.injEq] at hcarry
      exact hnotin (inv.isFresh hw hwq).1

/-- A section in which a launch ends. -/
theorem Inv.await (inv : Inv i f) {k : Nat} {l : Launch} (hk : f.calls k = some (.await l)) :
    Inv i (f.go i k (.await l)) := by
  obtain ⟨hl, hfresh⟩ := inv.stages k _ hk
  have hnot : ∀ n p rest, f.calls k ≠ some (.forget n p rest) := by simp [hk]
  have hgo : f.go i k (.await l) = ⟨(f.system.finishStart l).2,
      f.put k ((Stage.await l).next i f.system).1, (f.system.born l).toList ++ f.started,
      f.reported⟩ := by
    rw [Floor.go, Stage.next_await_system]
    rfl
  rw [hgo]
  cases hp : (f.system.finishStart l).1 with
  | error e =>
    obtain ⟨-, hfin, hborn⟩ := System.finishStart_error hp
    rw [Stage.next_await_of_error hp, hborn, hfin]
    exact inv.move hnot (fun u hu => by cases hu) fun u q hu => by cases hu
  | ok p =>
    rw [Stage.next_await_of_ok hp]
    cases hq : l.process? with
    | some q =>
      -- The process has been carried all along.
      have hfin := System.finishStart_of_process? (s := f.system) hq
      rw [hfin] at hp
      obtain rfl : q = p := Except.ok.inj hp
      rw [System.born, hq, hfin]
      refine inv.move hnot (fun u hu => ?_) fun u q' hu hcarry j w hj hw => ?_
      · obtain rfl := Option.some.inj hu
        exact hfresh q hq
      · obtain rfl := Option.some.inj hu
        obtain rfl : q = q' := Option.some.inj hcarry
        exact inv.carry_of_eq hk hq hj hw
    | none =>
      obtain ⟨hgrow, hnew⟩ := System.finishStart_of_process?_eq_none (s := f.system) hl hq
      obtain ⟨-, hisnew⟩ := hnew p hp
      obtain ⟨inv', hnotin⟩ := inv.start hgrow hisnew
      rw [System.born, hq, hp]
      refine inv'.move hnot (fun u hu => ?_) fun u q' hu hcarry j w _ hw hwq => ?_
      · obtain rfl := Option.some.inj hu
        refine ⟨List.mem_cons_self, fun hrep => hnotin (inv.reported p hrep), fun ht => ?_⟩
        rw [Floor.IsTold, hisnew.isTold] at ht
        cases ht
      · obtain rfl := Option.some.inj hu
        obtain rfl : p = q' := Option.some.inj hcarry
        exact hnotin (inv.isFresh hw hwq).1

theorem Inv.enter (inv : Inv i f) {k : Nat} {p : PluginProcess}
    (hk : f.calls k = some (.enter p)) : Inv i (f.go i k (.enter p)) := by
  have hnot : ∀ n q rest, f.calls k ≠ some (.forget n q rest) := by simp [hk]
  cases hr : f.system.isReady i p.name with
  | false =>
    rw [Floor.go, Stage.next_enter_of_not_ready hr, Stage.registered, hr]
    exact inv.register hk hr
  | true =>
    rw [Floor.go, Stage.next_enter_of_ready hr, Stage.registered, hr]
    refine inv.move hnot (fun u hu => ?_) fun u q hu hcarry j w hj hw => ?_
    · obtain rfl := Option.some.inj hu
      exact inv.isFresh hk rfl
    · obtain rfl := Option.some.inj hu
      obtain rfl : p = q := Option.some.inj hcarry
      exact inv.carry_of_eq hk rfl hj hw

/-- Every section of every call keeps the invariant. -/
theorem Inv.go (inv : Inv i f) {k : Nat} {t : Stage} (hk : f.calls k = some t)
    (hask : ∀ r, t = .ask r → (f.system.askRunner i r).1.IsSwitched) : Inv i (f.go i k t) := by
  have hnot : (∀ n p rest, t ≠ .forget n p rest) →
      ∀ n p rest, f.calls k ≠ some (.forget n p rest) := by
    intro h n p rest heq
    rw [hk, Option.some.injEq] at heq
    exact h n p rest heq
  cases t with
  | look name left => exact inv.look hk
  | tell name p left => exact inv.tell hk
  | forget name p left => exact inv.forget hk
  | list =>
    refine inv.move (hnot (by simp)) (fun u hu => (idle_following hu f).1) fun u p hu hp => ?_
    rw [(idle_following hu f).2] at hp
    cases hp
  | clear => exact inv.clear k
  | check r =>
    refine inv.move (hnot (by simp)) (fun u hu => ?_) fun u p hu hp => ?_
    · simp only [Stage.next] at hu
      split at hu <;> cases hu
      trivial
    · simp only [Stage.next] at hu
      split at hu <;> cases hu
      cases hp
  | ask r => exact inv.ask hk (hask r rfl)
  | await l => exact inv.await hk
  | enter p => exact inv.enter hk
  | dismiss p => exact inv.dismiss hk

/-- A caller begins a call. -/
theorem Inv.join (inv : Inv i f) {k : Nat} {t : Stage} (hk : f.calls k = none) (ht : t.IsFirst) :
    Inv i { f with calls := f.put k (some t) } := by
  have hholds : f.Holds t := by
    cases t with
    | look name left => trivial
    | list => trivial
    | check r => trivial
    | _ => cases ht
  have hnone : t.carried? = none := by
    cases t with
    | look name left => rfl
    | list => rfl
    | check r => rfl
    | _ => cases ht
  refine inv.move (by simp [hk]) (fun u hu => ?_) fun u p hu hp => ?_
  · exact Option.some.inj hu ▸ hholds
  · rw [← Option.some.inj hu, hnone] at hp
    cases hp

theorem Inv.perform {a : Act} (inv : Inv i f) (h : f.Admits i a) : Inv i (f.perform i a) := by
  cases a with
  | join k t => exact inv.join h.1 h.2
  | go k =>
    cases hk : f.calls k with
    | none =>
      rw [Floor.perform, hk]
      exact inv
    | some t =>
      rw [Floor.perform, hk]
      exact inv.go hk fun r ht => h r (ht ▸ hk)
  | aside s' => exact inv.aside h

theorem Legal.inv {acts : List Act} (h : Legal i s acts) : Inv i (after i s acts) := by
  induction acts with
  | nil => exact Inv.init h.1 h.2
  | cons a earlier ih => exact (ih h.1).perform h.2

/-! ## What an act takes out -/

/-- What is taken out is gone. -/
theorem gone_of_takesOut {a : Act} {name : String} (h : f.TakesOut a name) :
    ((f.perform i a).system.table i).get? name = none := by
  obtain ⟨k, rfl, ⟨p, left, hk⟩ | hk⟩ := h
  · rw [Floor.perform, hk]
    show ((f.system.remove i name).table i).get? name = none
    rw [System.get?_table_remove, if_pos rfl]
  · rw [Floor.perform, hk]
    exact System.get?_table_removeAll f.system i name

/-- Taking out tells nobody. -/
theorem isTold_of_takesOut {a : Act} {name : String} (h : f.TakesOut a name) (p : PluginProcess) :
    (f.perform i a).IsTold p ↔ f.IsTold p := by
  obtain ⟨k, rfl, ⟨q, left, hk⟩ | hk⟩ := h
  · rw [Floor.perform, hk]
    exact Iff.rfl
  · rw [Floor.perform, hk]
    exact Iff.rfl

/-- An act that takes nothing out and registers nothing leaves the table alone. -/
theorem table_perform {a : Act} (ha : f.Admits i a) (hout : ∀ name, ¬ f.TakesOut a name)
    (hreg : ∀ p, ¬ f.Registers i a p) : (f.perform i a).system.table i = f.system.table i := by
  cases a with
  | join k t => rfl
  | aside s' => exact ha.table
  | go k =>
    cases hk : f.calls k with
    | none => rw [Floor.perform, hk]
    | some t =>
      rw [Floor.perform, hk]
      show (t.next i f.system).2.table i = f.system.table i
      cases t with
      | look n left => rw [Stage.next_look_system]
      | tell n q left => exact (System.triggerProcess_spends f.system q).table i
      | forget n q left => exact absurd ⟨k, rfl, Or.inl ⟨q, left, hk⟩⟩ (hout n)
      | list => rfl
      | clear => exact absurd ⟨k, rfl, Or.inr hk⟩ (hout "")
      | check r => rfl
      | ask r => exact (System.askRunner_spec f.system i r).2.2.1.tables i
      | await l => rw [Stage.next_await_system, (System.finishStart_grows f.system l).tables]
      | enter q =>
        cases hr : f.system.isReady i q.name with
        | true => rw [Stage.next_enter_of_ready hr]
        | false => exact absurd ⟨k, rfl, hk, hr⟩ (hreg q)
      | dismiss q => exact (System.triggerProcess_spends f.system q).table i

/-- What stands under a name after an act: what stood there and was not taken out,
    or what was registered. -/
theorem Inv.entry_iff (inv : Inv i f) {a : Act} (ha : f.Admits i a) {name : String}
    {p : PluginProcess} :
    ((f.perform i a).system.table i).get? name = some p ↔
      (¬ f.TakesOut a name ∧ (f.system.table i).get? name = some p) ∨
      (f.Registers i a p ∧ p.name = name) := by
  by_cases hreg : ∃ q, f.Registers i a q
  · -- One section does not both register and take out.
    obtain ⟨q, k, rfl, hk, hr⟩ := hreg
    have hout : ¬ f.TakesOut (.go k) name := by
      rintro ⟨j, hj, ⟨p', left, hf⟩ | hf⟩
      · rw [← Act.go.inj hj, hk] at hf
        cases hf
      · rw [← Act.go.inj hj, hk] at hf
        cases hf
    have hother : f.Registers i (.go k) p ↔ p = q := by
      constructor
      · rintro ⟨j, hj, hk', -⟩
        rw [← Act.go.inj hj, hk, Option.some.injEq, Stage.enter.injEq] at hk'
        exact hk'.symm
      · rintro rfl
        exact ⟨k, rfl, hk, hr⟩
    have hget : ((f.perform i (.go k)).system.table i).get? name
        = if name = q.name then some q else (f.system.table i).get? name := by
      rw [Floor.perform, hk]
      show (((Stage.enter q).next i f.system).2.table i).get? name = _
      rw [Stage.next_enter_of_not_ready hr, System.get?_table_insert inv.pool]
    rw [hget, hother]
    by_cases hn : name = q.name
    · rw [if_pos hn, hn, System.isReady_eq_false_iff.1 hr]
      simp only [Option.some.injEq, reduceCtorEq, and_false, false_or]
      exact ⟨fun h => ⟨h.symm, by rw [h]⟩, fun h => h.1.symm⟩
    · rw [if_neg hn]
      refine ⟨fun h => Or.inl ⟨hout, h⟩, ?_⟩
      rintro (h | ⟨rfl, h⟩)
      · exact h.2
      · exact absurd h.symm hn
  · have hno : ∀ q, ¬ f.Registers i a q := fun q hq => hreg ⟨q, hq⟩
    by_cases hout : f.TakesOut a name
    · rw [gone_of_takesOut hout]
      simp [hout, hno]
    · have hget : ((f.perform i a).system.table i).get? name = (f.system.table i).get? name := by
        by_cases hsome : ∃ n, f.TakesOut a n
        · -- A killing takes out another name.
          obtain ⟨n, k, rfl, ⟨q, left, hk⟩ | hk⟩ := hsome
          · have hne : name ≠ n := by
              rintro rfl
              exact hout ⟨k, rfl, Or.inl ⟨q, left, hk⟩⟩
            rw [Floor.perform, hk]
            show ((f.system.remove i n).table i).get? name = _
            rw [System.get?_table_remove, if_neg hne]
          · exact absurd ⟨k, rfl, Or.inr hk⟩ hout
        · rw [table_perform ha (fun n hn => hsome ⟨n, hn⟩) hno]
      rw [hget]
      simp [hout, hno]

/-- Who was told after an act: who was told before, and the process whose switch it
    has triggered. -/
theorem Inv.isTold_iff (inv : Inv i f) {a : Act} (ha : f.Admits i a) {p : PluginProcess}
    (hp : p ∈ f.started) : (f.perform i a).IsTold p ↔ f.IsTold p ∨ f.Triggers a p := by
  have hsame : ∀ {g : Floor}, g.system.isTold p = f.system.isTold p → ¬ f.Triggers a p →
      (g.IsTold p ↔ f.IsTold p ∨ f.Triggers a p) := by
    intro g hg ht
    rw [Floor.IsTold, hg]
    exact ⟨Or.inl, fun h => h.resolve_right ht⟩
  -- Four kinds of sections touch switches: two trigger one, two may make one.
  have hgrows : ∀ {s' : System}, f.system.Grows s' → s'.isTold p = f.system.isTold p :=
    fun hg => hg.isTold (inv.switched p hp)
  cases a with
  | join k t => exact hsame rfl fun ⟨j, hj, _⟩ => by cases hj
  | aside s' => exact hsame (ha.told p hp) fun ⟨j, hj, _⟩ => by cases hj
  | go k =>
    have htrig : ∀ {t : Option Stage}, f.calls k = t → (∀ n q left, t ≠ some (.tell n q left)) →
        (∀ q, t ≠ some (.dismiss q)) → ¬ f.Triggers (.go k) p := by
      rintro t hk htell hdismiss ⟨j, hj, ⟨n, left, h⟩ | h⟩
      · rw [← Act.go.inj hj, hk] at h
        exact htell n p left h
      · rw [← Act.go.inj hj, hk] at h
        exact hdismiss p h
    have hone : ∀ {q : PluginProcess}, q ∈ f.started →
        (f.Triggers (.go k) p ↔ p = q) →
        ((f.system.triggerProcess q).2.isTold p = true ↔ f.IsTold p ∨ f.Triggers (.go k) p) := by
      intro q hq ht
      rw [inv.isTold_trigger hq hp, ht, or_comm]
    cases hk : f.calls k with
    | none =>
      rw [Floor.perform, hk]
      exact hsame rfl (htrig hk nofun nofun)
    | some t =>
      rw [Floor.perform, hk]
      cases t with
      | tell n q left =>
        have hq := inv.reported q (inv.stages k _ hk).2
        refine hone hq ⟨?_, ?_⟩
        · rintro ⟨j, hj, ⟨n', left', h⟩ | h⟩
          · rw [← Act.go.inj hj, hk, Option.some.injEq, Stage.tell.injEq] at h
            exact h.2.1.symm
          · rw [← Act.go.inj hj, hk] at h
            cases h
        · rintro rfl
          exact ⟨k, rfl, Or.inl ⟨n, left, hk⟩⟩
      | dismiss q =>
        refine hone (inv.isFresh hk rfl).1 ⟨?_, ?_⟩
        · rintro ⟨j, hj, ⟨n', left', h⟩ | h⟩
          · rw [← Act.go.inj hj, hk] at h
            cases h
          · rw [← Act.go.inj hj, hk, Option.some.injEq, Stage.dismiss.injEq] at h
            exact h.symm
        · rintro rfl
          exact ⟨k, rfl, Or.inr hk⟩
      | look n left =>
        refine hsame ?_ (htrig hk nofun nofun)
        show ((Stage.look n left).next i f.system).2.isTold p = _
        rw [Stage.next_look_system]
      | ask r =>
        exact hsame (hgrows (System.askRunner_spec f.system i r).2.2.1) (htrig hk nofun nofun)
      | await l =>
        refine hsame ?_ (htrig hk nofun nofun)
        show ((Stage.await l).next i f.system).2.isTold p = _
        rw [Stage.next_await_system]
        exact hgrows (System.finishStart_grows f.system l)
      | enter q =>
        refine hsame ?_ (htrig hk nofun nofun)
        show ((Stage.enter q).next i f.system).2.isTold p = _
        cases hr : f.system.isReady i q.name with
        | true => rw [Stage.next_enter_of_ready hr]
        | false =>
          rw [Stage.next_enter_of_not_ready hr]
          rfl
      | _ => exact hsame rfl (htrig hk nofun nofun)

/-- What is reported has been reported before, or was registered just now. -/
theorem reported_cases {a : Act} {p : PluginProcess} (h : p ∈ (f.perform i a).reported) :
    p ∈ f.reported ∨ f.Registers i a p := by
  cases a with
  | join k t => exact Or.inl h
  | aside s' => exact Or.inl h
  | go k =>
    cases hk : f.calls k with
    | none =>
      rw [Floor.perform, hk] at h
      exact Or.inl h
    | some t =>
      rw [Floor.perform, hk] at h
      cases t with
      | enter q =>
        change p ∈ ((Stage.enter q).registered i f.system).toList ++ f.reported at h
        cases hr : f.system.isReady i q.name with
        | true =>
          rw [Stage.registered, hr] at h
          exact Or.inl h
        | false =>
          rw [Stage.registered, hr] at h
          rcases List.mem_cons.1 h with rfl | hmem
          · exact Or.inr ⟨k, rfl, hk, hr⟩
          · exact Or.inl hmem
      | _ => exact Or.inl h

theorem reported_mono (i : Nat) {a : Act} {p : PluginProcess} (h : p ∈ f.reported) :
    p ∈ (f.perform i a).reported := by
  cases a with
  | join k t => exact h
  | aside s' => exact h
  | go k =>
    cases hk : f.calls k with
    | none =>
      rw [Floor.perform, hk]
      exact h
    | some t =>
      rw [Floor.perform, hk]
      exact List.mem_append_right _ h

end Interleaving
end PluginHost
