/-
  PluginHost.Proofs.System.Killing

  What killing does to a system.  `Kills i who s s'` says all of it: the entries
  that `who` picks are gone from the table of pool `i`, the switches of their
  processes are spent, and nothing else has changed.  Killing one process,
  several, or all of a pool are three cases of it.
-/
import PluginHost.Proofs.NameMap
import PluginHost.Proofs.System.Frame

namespace PluginHost
namespace System

variable {s s' s'' : System} {i j : Nat} {who who' : String → Prop}

/-! ## Taking entries out -/

/-- What stands in a table after a name was taken out of it. -/
theorem get?_table_remove (s : System) (i : Nat) (name n : String) :
    ((s.remove i name).table i).get? n = if n = name then none else (s.table i).get? n := by
  rcases Nat.lt_or_ge i s.pools.length with hlt | hge
  · rw [remove, table_updatePool_self _ hlt, NameMap.get?_erase]
    rfl
  · -- There is no such pool, and its table counts as empty.
    have hempty : s.table i = .empty := by
      rw [table, pool, List.getD_eq_getElem?_getD, List.getElem?_eq_none hge]
      rfl
    have hsame : s.remove i name = s := by
      rw [remove, updatePool, List.modify_eq_self hge]
    rw [hsame, hempty, NameMap.get?_empty, ite_self]

/-- Nothing stands in a table from which everything was taken out. -/
theorem get?_table_removeAll (s : System) (i : Nat) (n : String) :
    ((s.removeAll i).table i).get? n = none := by
  rcases Nat.lt_or_ge i s.pools.length with hlt | hge
  · rw [removeAll, table_updatePool_self _ hlt, NameMap.get?_empty]
  · rw [removeAll, updatePool, List.modify_eq_self hge, table, pool,
      List.getD_eq_getElem?_getD, List.getElem?_eq_none hge]
    rfl

theorem table_remove_of_ne (h : i ≠ j) (name : String) :
    (s.remove i name).table j = s.table j :=
  table_updatePool_of_ne _ h

theorem table_removeAll_of_ne (h : i ≠ j) : (s.removeAll i).table j = s.table j :=
  table_updatePool_of_ne _ h

/-! ## Looking up -/

theorem process_eq_ok_iff {name : String} {p : PluginProcess} :
    s.process i name = .ok p ↔ (s.table i).get? name = some p := by
  rw [process, ProcessTable.find]
  cases (s.table i).get? name <;> simp

/-- A name that is not there is the only reason for which a look-up fails. -/
theorem process_eq_error_iff {name : String} {e : Error} :
    s.process i name = .error e ↔ (s.table i).get? name = none ∧ e = .pluginUnknown name := by
  rw [process, ProcessTable.find]
  cases (s.table i).get? name <;> simp [eq_comm]

theorem isReady_eq_true_iff {name : String} :
    s.isReady i name = true ↔ ∃ p, (s.table i).get? name = some p :=
  NameMap.contains_eq_true_iff

theorem isReady_eq_false_iff {name : String} :
    s.isReady i name = false ↔ (s.table i).get? name = none :=
  NameMap.contains_eq_false_iff

/-! ## Killing -/

/-- The entries of pool `i` whose names are picked are gone, and the switches of
    their processes are spent.  Nothing else has changed. -/
structure Kills (i : Nat) (who : String → Prop) (s s' : System) : Prop where
  gone : ∀ n, who n → (s'.table i).get? n = none
  kept : ∀ n, ¬ who n → (s'.table i).get? n = (s.table i).get? n
  others : ∀ j, i ≠ j → s'.table j = s.table j
  pools : s'.pools.length = s.pools.length
  switches : s'.switches.length = s.switches.length
  spent : ∀ id, s'.isSpent id = true ↔ s.isSpent id = true ∨
    ∃ n p, who n ∧ (s.table i).get? n = some p ∧ p.switch = some id ∧ id < s.switches.length
  journal : s'.journal = s.journal

/-- To pick nothing is to change nothing. -/
theorem Kills.refl (s : System) (i : Nat) (h : ∀ n, ¬ who n) : Kills i who s s where
  gone n hn := absurd hn (h n)
  kept _ _ := rfl
  others _ _ := rfl
  pools := rfl
  switches := rfl
  spent id := by
    refine ⟨Or.inl, ?_⟩
    rintro (hs | ⟨n, -, hn, -⟩)
    · exact hs
    · exact absurd hn (h n)
  journal := rfl

/-- Killing some, and then some of what is left. -/
theorem Kills.trans (h : Kills i who s s') (h' : Kills i who' s' s'') :
    Kills i (fun n => who n ∨ who' n) s s'' where
  gone n hn := by
    by_cases hn' : who' n
    · exact h'.gone n hn'
    · rw [h'.kept n hn']
      exact h.gone n (hn.resolve_right hn')
  kept n hn := by
    rw [h'.kept n fun h => hn (Or.inr h), h.kept n fun h => hn (Or.inl h)]
  others j hj := (h'.others j hj).trans (h.others j hj)
  pools := h'.pools.trans h.pools
  switches := h'.switches.trans h.switches
  spent id := by
    rw [h'.spent, h.spent, h.switches]
    -- What the second killing finds was left there by the first one.
    constructor
    · rintro ((hs | ⟨n, p, hn, hp⟩) | ⟨n, p, hn, hp, hrest⟩)
      · exact Or.inl hs
      · exact Or.inr ⟨n, p, Or.inl hn, hp⟩
      · have hnot : ¬ who n := fun hw => by
          rw [h.gone n hw] at hp
          cases hp
        rw [h.kept n hnot] at hp
        exact Or.inr ⟨n, p, Or.inr hn, hp, hrest⟩
    · rintro (hs | ⟨n, p, hn, hp, hrest⟩)
      · exact Or.inl (Or.inl hs)
      · by_cases hw : who n
        · exact Or.inl (Or.inr ⟨n, p, hw, hp, hrest⟩)
        · rw [← h.kept n hw] at hp
          exact Or.inr ⟨n, p, hn.resolve_left hw, hp, hrest⟩
  journal := h'.journal.trans h.journal

theorem Kills.congr (h : Kills i who s s') (hw : ∀ n, who n ↔ who' n) : Kills i who' s s' := by
  have heq : who = who' := funext fun n => propext (hw n)
  exact heq ▸ h

/-- A name that is not there cannot be killed, and nothing happens. -/
theorem kill_of_get?_eq_none {name : String} (h : (s.table i).get? name = none) :
    s.kill i name = (.error (.pluginUnknown name), s) := by
  rw [kill, process_eq_error_iff.2 ⟨h, rfl⟩]

/-- A process is told to stop and then taken out. -/
theorem kill_of_get?_eq_some {name : String} {p : PluginProcess}
    (h : (s.table i).get? name = some p) :
    (s.kill i name).2 = (s.triggerProcess p).2.remove i name := by
  rw [kill, process_eq_ok_iff.2 h]

/-- Killing a process takes its entry out, whether or not it could be told. -/
theorem kill_kills (s : System) (i : Nat) (name : String) :
    Kills i (· = name) s (s.kill i name).2 := by
  cases h : (s.table i).get? name with
  | none =>
    rw [kill_of_get?_eq_none h]
    have hgone : ∀ n, n = name → (s.table i).get? n = none := fun n hn => hn ▸ h
    refine ⟨hgone, fun _ _ => rfl, fun _ _ => rfl, rfl, rfl, fun id => ⟨Or.inl, ?_⟩, rfl⟩
    rintro (hs | ⟨n, p, hn, hp, -⟩)
    · exact hs
    · rw [hgone n hn] at hp
      cases hp
  | some p =>
    rw [kill_of_get?_eq_some h]
    -- The switch goes before the entry, and the two do not meet.
    have ht := triggerProcess_spends s p
    refine ⟨fun n hn => ?_, fun n hn => ?_, fun j hj => ?_, ?_, ht.switches, fun id => ?_, ht.journal⟩
    · rw [get?_table_remove, if_pos hn]
    · rw [get?_table_remove, if_neg hn, ht.table]
    · rw [table_remove_of_ne hj, ht.table]
    · rw [remove, length_updatePool, ht.pools]
    · have hmark : ((s.triggerProcess p).2.remove i name).isSpent id
          = (s.triggerProcess p).2.isSpent id := rfl
      rw [hmark, ht.spent]
      constructor
      · rintro (hs | ⟨hid, hlt⟩)
        · exact Or.inl hs
        · exact Or.inr ⟨name, p, rfl, h, hid, hlt⟩
      · rintro (hs | ⟨n, q, rfl, hq, hid, hlt⟩)
        · exact Or.inl hs
        · rw [h] at hq
          obtain rfl := Option.some.inj hq
          exact Or.inr ⟨hid, hlt⟩

theorem killEach_cons (s : System) (i : Nat) (name : String) (names : List String) :
    (s.killEach i (name :: names)).2 = ((s.kill i name).2.killEach i names).2 := by
  rw [killEach]
  rcases s.kill i name with ⟨result, t⟩
  cases result <;> rfl

/-- Killing names one after another. -/
theorem killEach_kills (s : System) (i : Nat) (names : List String) :
    Kills i (· ∈ names) s (s.killEach i names).2 := by
  induction names generalizing s with
  | nil => exact Kills.refl s i fun n => List.not_mem_nil
  | cons name names ih =>
    have hall := (kill_kills s i name).trans (ih (s.kill i name).2)
    rw [killEach_cons]
    exact hall.congr fun n => List.mem_cons.symm

/-- Killing all processes of a pool.  The last step, which empties the table,
    finds nothing any more. -/
theorem killAll_kills (s : System) (i : Nat) : Kills i (fun _ => True) s (s.killAll i).2 := by
  have h := killEach_kills s i (s.table i).names
  -- The names of a table are all those under which something stands.
  have hnone : ∀ n, ((s.killEach i (s.table i).names).2.table i).get? n = none := by
    intro n
    by_cases hn : n ∈ (s.table i).names
    · exact h.gone n hn
    · rw [h.kept n hn]
      cases hp : (s.table i).get? n with
      | none => rfl
      | some p => exact absurd (NameMap.mem_names_iff.2 ⟨p, hp⟩) hn
  have hsnd : (s.killAll i).2 = (s.killEach i (s.table i).names).2.removeAll i := rfl
  rw [hsnd]
  refine ⟨fun n _ => get?_table_removeAll _ i n, fun n hn => absurd trivial hn, fun j hj => ?_, ?_,
    h.switches, fun id => ?_, h.journal⟩
  · rw [table_removeAll_of_ne hj, h.others j hj]
  · rw [removeAll, length_updatePool, h.pools]
  · have hmark : ((s.killEach i (s.table i).names).2.removeAll i).isSpent id
        = (s.killEach i (s.table i).names).2.isSpent id := rfl
    rw [hmark, h.spent]
    constructor
    · rintro (hs | ⟨n, p, -, hp⟩)
      · exact Or.inl hs
      · exact Or.inr ⟨n, p, trivial, hp⟩
    · rintro (hs | ⟨n, p, -, hp, hrest⟩)
      · exact Or.inl hs
      · exact Or.inr ⟨n, p, NameMap.mem_names_iff.2 ⟨p, hp⟩, hp, hrest⟩

end System
end PluginHost
