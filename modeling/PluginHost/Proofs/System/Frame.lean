/-
  PluginHost.Proofs.System.Frame

  What the parts of a system have to do with one another.  A pool is seen
  through its table, and a switch through its mark: whether it is spent.

    * `Quiet s s'` — nothing happened that the tables or the marks would show:
      time passed, children ended, watchers looked.
    * `Spends ids s s'` — the same, but for the switches in `ids`, which are
      spent now.

  Every operation on a system is placed by one lemma; the operations are not
  unfolded anywhere else.
-/
import PluginHost.System

namespace PluginHost
namespace System

/-- Whether a switch of a number is there and spent. -/
def isSpent (s : System) (id : Nat) : Bool :=
  (s.switch? id).any (·.spent)

/-- Whether the switch of a process is spent: the process was told to stop, or
    it was tried to tell it. -/
def isTold (s : System) (p : PluginProcess) : Bool :=
  p.switch.any s.isSpent

/-- A process has a switch among those that were made. -/
def HasSwitch (s : System) (p : PluginProcess) : Prop :=
  ∃ id, p.switch = some id ∧ id < s.switches.length

variable {s s' s'' : System} {i j id : Nat}

/-! ## Single switches -/

theorem switch?_eq_none_iff : s.switch? id = none ↔ s.switches.length ≤ id := by
  rw [switch?, Option.map_eq_none_iff, List.getElem?_eq_none_iff]

theorem lt_of_switch? {k : KillSwitch} (h : s.switch? id = some k) : id < s.switches.length := by
  rcases Nat.lt_or_ge id s.switches.length with hlt | hle
  · exact hlt
  · rw [switch?_eq_none_iff.2 hle] at h
    cases h

theorem isSpent_of_switch? {k : KillSwitch} (h : s.switch? id = some k) :
    s.isSpent id = k.spent := by
  rw [isSpent, h]
  rfl

theorem switch?_updateSwitch (f : KillSwitch → KillSwitch) :
    (s.updateSwitch id f).switch? j = if id = j then (s.switch? j).map f else s.switch? j := by
  simp only [switch?, updateSwitch, List.getElem?_modify]
  by_cases h : id = j
  · rw [if_pos h]
    cases s.switches[j]? <;> simp [h]
  · rw [if_neg h]
    cases s.switches[j]? <;> simp [h]

theorem isSpent_updateSwitch_of_ne (f : KillSwitch → KillSwitch) (h : id ≠ j) :
    (s.updateSwitch id f).isSpent j = s.isSpent j := by
  rw [isSpent, switch?_updateSwitch, if_neg h, isSpent]

/-- The new switch is the last one, and the others stand where they stood. -/
theorem switch?_addSwitch (pid : Nat) (k : KillSwitch) :
    (s.addSwitch pid k).2.switch? j = if j = s.switches.length then some k else s.switch? j := by
  simp only [switch?, addSwitch]
  by_cases h : j = s.switches.length
  · rw [if_pos h, h, List.getElem?_concat_length]
    rfl
  · rw [if_neg h]
    by_cases hlt : j < s.switches.length
    · rw [List.getElem?_append_left hlt]
    · -- Past the end there is nothing, before and after.
      rw [List.getElem?_append_right (by omega), List.getElem?_eq_none (by simp; omega),
        List.getElem?_eq_none (by omega)]

/-! ## Quiet changes -/

/-- Nothing happened that the pools, the marks of the switches or the journal
    would show. -/
structure Quiet (s s' : System) : Prop where
  pools : s'.pools = s.pools
  switches : s'.switches.length = s.switches.length
  spent : ∀ id, s'.isSpent id = s.isSpent id
  journal : s'.journal = s.journal

theorem Quiet.refl (s : System) : Quiet s s :=
  ⟨rfl, rfl, fun _ => rfl, rfl⟩

theorem Quiet.trans (h : Quiet s s') (h' : Quiet s' s'') : Quiet s s'' where
  pools := h'.pools.trans h.pools
  switches := h'.switches.trans h.switches
  spent id := (h'.spent id).trans (h.spent id)
  journal := h'.journal.trans h.journal

theorem Quiet.table (h : Quiet s s') (i : Nat) : s'.table i = s.table i := by
  rw [System.table, pool, h.pools]
  rfl

/-- A change of a switch that leaves its mark alone. -/
theorem updateSwitch_quiet (s : System) (id : Nat) {f : KillSwitch → KillSwitch}
    (hf : ∀ k, (f k).spent = k.spent) : Quiet s (s.updateSwitch id f) where
  pools := rfl
  switches := by rw [updateSwitch, List.length_modify]
  spent j := by
    rw [isSpent, switch?_updateSwitch, isSpent]
    by_cases h : id = j
    · rw [if_pos h]
      cases s.switch? j with
      | none => rfl
      | some k => exact hf k
    · rw [if_neg h]
  journal := rfl

/-- Children are not seen by pools and switches. -/
theorem setChildren_quiet (s : System) (cs : List Child) : Quiet s { s with children := cs } :=
  ⟨rfl, rfl, fun _ => rfl, rfl⟩

theorem updateChild_quiet (s : System) (pid : Nat) (f : Child → Child) :
    Quiet s (s.updateChild pid f) :=
  setChildren_quiet s _

/-- Watchers may go, one after another. -/
theorem dropReceivers_quiet (s : System) (cs : List Child) :
    Quiet s (cs.foldl (fun s c => s.updateSwitch c.switch KillSwitch.dropReceiver) s) := by
  induction cs generalizing s with
  | nil => exact Quiet.refl s
  | cons c cs ih =>
    rw [List.foldl_cons]
    have h : Quiet s (s.updateSwitch c.switch KillSwitch.dropReceiver) :=
      updateSwitch_quiet s c.switch fun _ => rfl
    exact h.trans (ih _)

theorem releaseWatchers_quiet (s : System) : Quiet s s.releaseWatchers :=
  dropReceivers_quiet s _

/-- Nothing but switches is changed when watchers go. -/
theorem exists_dropReceivers_eq (cs : List Child) (s : System) :
    ∃ switches, cs.foldl (fun s c => s.updateSwitch c.switch KillSwitch.dropReceiver) s
      = { s with switches } := by
  induction cs generalizing s with
  | nil => exact ⟨s.switches, rfl⟩
  | cons c cs ih =>
    obtain ⟨switches, hrest⟩ := ih (s.updateSwitch c.switch KillSwitch.dropReceiver)
    exact ⟨switches, hrest⟩

theorem exists_releaseWatchers_eq (s : System) :
    ∃ switches, s.releaseWatchers = { s with switches } :=
  exists_dropReceivers_eq _ s

theorem exists_abandonChildren_eq (s : System) :
    ∃ switches, s.abandonChildren
      = { s with switches, children := s.children.map Child.abandon } :=
  exists_dropReceivers_eq _ { s with children := s.children.map Child.abandon }

theorem now_advanceTo (s : System) (moment : Nat) :
    (s.advanceTo moment).now = max s.now moment := by
  obtain ⟨switches, h⟩ := exists_releaseWatchers_eq { s with
    now := max s.now moment
    children := s.children.map (Child.elapse (max s.now moment)) }
  rw [advanceTo, h]

/-- Time passes without notice. -/
theorem advanceTo_quiet (s : System) (moment : Nat) : Quiet s (s.advanceTo moment) := by
  have h : Quiet s { s with
      now := max s.now moment
      children := s.children.map (Child.elapse (max s.now moment)) } :=
    ⟨rfl, rfl, fun _ => rfl, rfl⟩
  exact h.trans (releaseWatchers_quiet _)

/-- A child may crash without notice. -/
theorem crash_quiet (s : System) (pid : Nat) : Quiet s (s.crash pid) :=
  (updateChild_quiet s pid _).trans (releaseWatchers_quiet _)

/-! ## Spending switches -/

/-- Nothing happened but that the switches in `ids` were used, as far as they are
    there. -/
structure Spends (ids : Nat → Prop) (s s' : System) : Prop where
  pools : s'.pools = s.pools
  switches : s'.switches.length = s.switches.length
  spent : ∀ id, s'.isSpent id = true ↔ s.isSpent id = true ∨ (ids id ∧ id < s.switches.length)
  journal : s'.journal = s.journal

theorem Spends.table {ids : Nat → Prop} (h : Spends ids s s') (i : Nat) :
    s'.table i = s.table i := by
  rw [System.table, pool, h.pools]
  rfl

theorem Spends.then_quiet {ids : Nat → Prop} (h : Spends ids s s') (h' : Quiet s' s'') :
    Spends ids s s'' where
  pools := h'.pools.trans h.pools
  switches := h'.switches.trans h.switches
  spent id := by rw [h'.spent, h.spent]
  journal := h'.journal.trans h.journal

/-- However a switch answers, it is spent afterwards. -/
theorem trigger_spent (send : Nat → Delivery) (k : KillSwitch) :
    (k.trigger send).switch.spent = true := by
  unfold KillSwitch.trigger
  split
  · assumption
  split
  · rfl
  split
  · rfl
  split
  · rfl
  split <;> rfl

/-- Triggering a switch spends it and no other one. -/
theorem trigger_spends (s : System) (id : Nat) : Spends (· = id) s (s.trigger id).2 := by
  unfold trigger
  cases hk : s.switch? id with
  | none =>
    -- A switch that is not there cannot be spent, and `Spends` does not say so.
    have hlen : s.switches.length ≤ id := switch?_eq_none_iff.1 hk
    refine ⟨rfl, rfl, fun j => ⟨Or.inl, ?_⟩, rfl⟩
    rintro (h | ⟨rfl, hj⟩)
    · exact h
    · omega
  | some k =>
    have hlen : id < s.switches.length := lt_of_switch? hk
    have hset : Spends (· = id) s
        (s.updateSwitch id fun _ => (k.trigger s.deliver).switch) := by
      refine ⟨rfl, by rw [updateSwitch, List.length_modify], fun j => ?_, rfl⟩
      by_cases hj : j = id
      · have hnew : (s.updateSwitch id fun _ => (k.trigger s.deliver).switch).switch? id
            = some (k.trigger s.deliver).switch := by
          rw [switch?_updateSwitch, if_pos rfl, hk]
          rfl
        rw [hj, isSpent_of_switch? hnew, trigger_spent]
        simp [hlen]
      · rw [isSpent_updateSwitch_of_ne _ (Ne.symm hj)]
        simp [hj]
    -- A signal that was sent changes children and watchers, which do not show.
    simp only
    split
    · exact hset
    · exact hset.then_quiet
        ((updateChild_quiet _ _ _).trans (releaseWatchers_quiet _))

/-- Telling a process to stop spends its own switch and no other one. -/
theorem triggerProcess_spends (s : System) (p : PluginProcess) :
    Spends (fun id => p.switch = some id) s (s.triggerProcess p).2 := by
  unfold triggerProcess
  cases hp : p.switch with
  | none =>
    refine ⟨rfl, rfl, fun j => ⟨Or.inl, ?_⟩, rfl⟩
    rintro (h | ⟨h, -⟩)
    · exact h
    · cases h
  | some id =>
    have h := trigger_spends s id
    refine ⟨h.pools, h.switches, fun j => ?_, h.journal⟩
    rw [h.spent, Option.some.injEq, @eq_comm _ j id]

/-! ## Told processes -/

theorem isTold_iff {p : PluginProcess} :
    s.isTold p = true ↔ ∃ id, p.switch = some id ∧ s.isSpent id = true := by
  simp [isTold, Option.any_eq_true]

theorem isTold_congr {p : PluginProcess} (hp : s.HasSwitch p)
    (h : ∀ id < s.switches.length, s'.isSpent id = s.isSpent id) : s'.isTold p = s.isTold p := by
  obtain ⟨id, hid, hlt⟩ := hp
  rw [isTold, isTold, hid]
  exact h id hlt

theorem isTold_of_switches (h : s'.switches = s.switches) (p : PluginProcess) :
    s'.isTold p = s.isTold p := by
  have hspent : s'.isSpent = s.isSpent := funext fun id => by
    rw [isSpent, isSpent, switch?, switch?, h]
  rw [isTold, isTold, hspent]

/-- A process that was told to stop stays told. -/
theorem Spends.isTold {ids : Nat → Prop} (h : Spends ids s s') {p : PluginProcess}
    (hp : s.isTold p = true) : s'.isTold p = true := by
  obtain ⟨id, hid, hspent⟩ := isTold_iff.1 hp
  exact isTold_iff.2 ⟨id, hid, (h.spent id).2 (Or.inl hspent)⟩

/-- A process with a switch is told once its switch has been triggered. -/
theorem isTold_triggerProcess {p : PluginProcess} (hp : s.HasSwitch p) :
    (s.triggerProcess p).2.isTold p = true := by
  obtain ⟨id, hid, hlt⟩ := hp
  exact isTold_iff.2 ⟨id, hid, ((triggerProcess_spends s p).spent id).2 (Or.inr ⟨hid, hlt⟩)⟩

/-- Nobody else is told by it. -/
theorem isTold_triggerProcess_of_ne {p q : PluginProcess} (hne : q.switch ≠ p.switch) :
    (s.triggerProcess p).2.isTold q = s.isTold q := by
  rw [Bool.eq_iff_iff, isTold_iff, isTold_iff]
  constructor
  · rintro ⟨id, hid, hspent⟩
    rcases ((triggerProcess_spends s p).spent id).1 hspent with h | ⟨h, -⟩
    · exact ⟨id, hid, h⟩
    · exact absurd (hid.trans h.symm) hne
  · rintro ⟨id, hid, hspent⟩
    exact ⟨id, hid, ((triggerProcess_spends s p).spent id).2 (Or.inl hspent)⟩

/-! ## Tables -/

theorem pool_updatePool_self (f : Pool → Pool) (h : i < s.pools.length) :
    (s.updatePool i f).pool i = f (s.pool i) := by
  simp [pool, updatePool, List.getD_eq_getElem?_getD, h]

theorem pool_updatePool_of_ne (f : Pool → Pool) (h : i ≠ j) :
    (s.updatePool i f).pool j = s.pool j := by
  simp [pool, updatePool, List.getD_eq_getElem?_getD, h]

theorem table_updatePool_self (f : Pool → Pool) (h : i < s.pools.length) :
    (s.updatePool i f).table i = (f (s.pool i)).table := by
  rw [table, pool_updatePool_self f h]

theorem table_updatePool_of_ne (f : Pool → Pool) (h : i ≠ j) :
    (s.updatePool i f).table j = s.table j := by
  rw [table, pool_updatePool_of_ne f h, table]

theorem length_updatePool (f : Pool → Pool) : (s.updatePool i f).pools.length = s.pools.length := by
  rw [updatePool, List.length_modify]

/-- Where there is an entry there is a pool. -/
theorem lt_of_get?_table {name : String} {p : PluginProcess}
    (h : (s.table i).get? name = some p) : i < s.pools.length := by
  rcases Nat.lt_or_ge i s.pools.length with hlt | hge
  · exact hlt
  · rw [table, pool, List.getD_eq_getElem?_getD, List.getElem?_eq_none hge] at h
    cases h

/-- A change of a pool that leaves its table alone is seen in no table. -/
theorem table_updatePool_of_table {f : Pool → Pool} (hf : ∀ p, (f p).table = p.table) :
    (s.updatePool i f).table j = s.table j := by
  by_cases hij : i = j
  · subst hij
    by_cases hlt : i < s.pools.length
    · rw [table_updatePool_self f hlt, hf, table]
    · -- There is no such pool, and nothing is changed.
      rw [table, table, pool, pool, updatePool,
        List.modify_eq_self (by omega)]
  · exact table_updatePool_of_ne f hij

end System
end PluginHost
